/-
This file models the RC4 registries of `rc4.cpp`: the map from payloads to transponder ids,
and the registry that follows a directory of `.rc4` files. A directory is the list of its
entries in the order `directory_iterator` gives them.

When one file at a time is added or deleted, the registry mirrors the directory after
every resync, unless a file is deleted that owns a payload another file lists as well.
-/

import OpenStint.Library.Machine
import OpenStint.Library.OrderedMap
import OpenStint.Rc4File
import Std.Data.TreeSet

namespace OpenStint

open Machine OrderedMap

structure Rc4Registry where
  registry : Std.TreeMap UInt64 UInt32
  nextTransponder : UInt32

namespace Rc4Registry

def initial : Rc4Registry where
  registry := ∅
  nextTransponder := 1000

def lookup (registry : Rc4Registry) (rc4Payload : UInt64) : Option UInt32 :=
  registry.registry[rc4Payload]?

/-- `RC4Registry::store` returns the id the payloads are stored under. -/
def store (registry : Rc4Registry) (transponderId : UInt32) (rc4Payloads : List UInt64) :
    Rc4Registry × UInt32 :=
  let next :=
    if 1000 ≤ transponderId ∧ transponderId ≤ 9999 ∧
        transponderId + 1 > registry.nextTransponder then
      transponderId + 1
    else registry.nextTransponder
  let (transponderId, next) := if transponderId = 0 then (next, next + 1) else (transponderId, next)
  ({ registry := insertAll registry.registry rc4Payloads transponderId, nextTransponder := next },
    transponderId)

/-- `RC4Registry::remove` erases the payloads of one owner. -/
def remove (registry : Rc4Registry) (transponderId : UInt32) : Rc4Registry :=
  { registry with registry := registry.registry.filter fun _ owner => owner ≠ transponderId }

end Rc4Registry

structure Rc4FileBasedRegistry where
  base : Rc4Registry
  loadedIds : Std.TreeSet UInt32

namespace Rc4FileBasedRegistry

def initial : Rc4FileBasedRegistry where
  base := .initial
  loadedIds := ∅

def lookup (registry : Rc4FileBasedRegistry) (rc4Payload : UInt64) : Option UInt32 :=
  registry.base.lookup rc4Payload

/-- `RC4FileBasedRegistry::store` also appends the payloads to the file of the id. -/
def store (registry : Rc4FileBasedRegistry) (directory : List DirEntry) (transponderId : UInt32)
    (rc4Payloads : List UInt64) : Rc4FileBasedRegistry × List DirEntry × UInt32 :=
  let (base, transponderId) := registry.base.store transponderId rc4Payloads
  ({ base, loadedIds := registry.loadedIds.insert transponderId },
    appendFile directory (fileName transponderId)
      (rc4Payloads.flatMap fun p => hexLine p ++ ['\n']),
    transponderId)

/-- One turn of the loading loop of `resync`. -/
def loadEntry (state : Rc4FileBasedRegistry × Std.TreeSet UInt32) (entry : DirEntry) :
    Rc4FileBasedRegistry × Std.TreeSet UInt32 :=
  match fileId entry with
  | none => state
  | some id =>
    let (registry, currentIds) := state
    let currentIds := currentIds.insert id
    -- an id that is loaded is not read again, even if the content has changed
    if registry.loadedIds.contains id then (registry, currentIds) else
    let payloads := filePayloads entry.content
    let base := if payloads = [] then registry.base else (registry.base.store id payloads).1
    ({ base, loadedIds := registry.loadedIds.insert id }, currentIds)

/-- One turn of the removing loop of `resync`. -/
def removeStale (currentIds : Std.TreeSet UInt32) (registry : Rc4FileBasedRegistry)
    (id : UInt32) : Rc4FileBasedRegistry :=
  if currentIds.contains id then registry
  else { base := registry.base.remove id, loadedIds := registry.loadedIds.erase id }

def resync (registry : Rc4FileBasedRegistry) (directory : List DirEntry) : Rc4FileBasedRegistry :=
  let (registry, currentIds) := directory.foldl loadEntry (registry, ∅)
  registry.loadedIds.toList.foldl (removeStale currentIds) registry

end Rc4FileBasedRegistry

/-! ### One file at a time -/

/-- A file as the directory holds them: a positive id for a name and lines of 16 digits. -/
structure Rc4File where
  entry : DirEntry
  id : UInt32
  named : fileId entry = some id
  positive : id ≠ 0
  wellFormed : ∀ line ∈ getLines entry.content,
    (stripCr line).length = 16 ∧ HexDigits (stripCr line)

/-- A file lists a payload on one of its lines. -/
def Rc4File.Lists (file : Rc4File) (p : UInt64) : Prop :=
  ∃ line ∈ getLines file.entry.content, p = .ofNat (hexValue (stripCr line))

/-- The registry and the files that are present. -/
structure RegistryWorld where
  registry : Rc4FileBasedRegistry
  files : List Rc4File

inductive FileChange
  | add (file : Rc4File)
  | delete (id : UInt32)

def FileChange.apply (files : List Rc4File) : FileChange → List Rc4File
  | .add file => files ++ [file]
  | .delete id => files.filter fun file => file.id ≠ id

/-- A change of the directory and the resync behind it, which sees the files in some order. -/
structure HotReload where
  change : FileChange
  listing : List Rc4File

def hotReloadStep (world : RegistryWorld) (reload : HotReload) : RegistryWorld × Unit :=
  ({ registry := world.registry.resync (reload.listing.map Rc4File.entry)
     files := reload.change.apply world.files }, ())

/-- An id is added when it is new, and deleted when it is there; the resync sees exactly the
files that are then present. -/
structure HotReloadValid (world : RegistryWorld) (reload : HotReload) : Prop where
  fresh : ∀ file, reload.change = .add file → ∀ present ∈ world.files, present.id ≠ file.id
  existing : ∀ id, reload.change = .delete id → ∃ present ∈ world.files, present.id = id
  seen : reload.listing.Perm (reload.change.apply world.files)

/-- The registry mirrors the directory: it finds the payloads that are listed, and the id it
finds is that of a file that lists the payload. -/
def Mirrors (world : RegistryWorld) : Prop :=
  ∀ p, ((world.registry.lookup p).isSome ↔ ∃ file ∈ world.files, file.Lists p) ∧
    ∀ id, world.registry.lookup p = some id → ∃ file ∈ world.files, file.id = id ∧ file.Lists p

/-- A deleted file owns no payload that another file lists. -/
def DeletesUnshared (world : RegistryWorld) (reload : HotReload) : Prop :=
  ∀ id, reload.change = .delete id → ∀ p, world.registry.lookup p = some id →
    ∀ file ∈ world.files, file.Lists p → file.id = id

/-! ### Loading and removing -/

theorem mem_filePayloads (file : Rc4File) (p : UInt64) :
    p ∈ filePayloads file.entry.content ↔ file.Lists p := by
  have read : ∀ line ∈ getLines file.entry.content,
      linePayload line = some (.ofNat (hexValue (stripCr line))) := by
    intro line member
    obtain ⟨length, digits⟩ := file.wellFormed line member
    rw [linePayload, if_pos length, stoull_hex length digits]
  simp only [filePayloads, List.mem_filterMap, Rc4File.Lists]
  constructor
  · rintro ⟨line, member, found⟩
    rw [read line member] at found
    exact ⟨line, member, (Option.some.inj found).symm⟩
  · rintro ⟨line, member, rfl⟩
    exact ⟨line, member, read line member⟩

/-- What a store returns is the id the payloads are then found under. -/
theorem lookup_store_returned (registry : Rc4Registry) (transponderId : UInt32)
    (payloads : List UInt64) (p : UInt64) :
    (registry.store transponderId payloads).1.lookup p =
      if p ∈ payloads then some (registry.store transponderId payloads).2
      else registry.lookup p := by
  simp only [Rc4Registry.store, Rc4Registry.lookup]
  split <;> exact getElem?_insertAll _ _ _ _

theorem store_known (registry : Rc4Registry) {transponderId : UInt32} (known : transponderId ≠ 0)
    (payloads : List UInt64) : (registry.store transponderId payloads).2 = transponderId := by
  simp only [Rc4Registry.store, if_neg known]

theorem lookup_store (registry : Rc4Registry) {id : UInt32} (positive : id ≠ 0)
    (payloads : List UInt64) (p : UInt64) :
    (registry.store id payloads).1.lookup p =
      if p ∈ payloads then some id else registry.lookup p := by
  rw [lookup_store_returned, store_known registry positive]

theorem lookup_remove (registry : Rc4Registry) (id : UInt32) (p : UInt64) :
    (registry.remove id).lookup p = (registry.lookup p).filter fun owner => owner ≠ id :=
  Std.TreeMap.getElem?_filter'

theorem lookup_initial (p : UInt64) : Rc4FileBasedRegistry.initial.lookup p = none :=
  Std.TreeMap.getElem?_emptyc

theorem mem_insert_iff (ids : Std.TreeSet UInt32) (new id : UInt32) :
    id ∈ ids.insert new ↔ id ∈ ids ∨ id = new := by
  rw [Std.TreeSet.mem_insert, Std.LawfulEqCmp.compare_eq_iff_eq, or_comm, eq_comm]

theorem loadEntry_skipped {entry : DirEntry} (skipped : fileId entry = none)
    (state : Rc4FileBasedRegistry × Std.TreeSet UInt32) :
    Rc4FileBasedRegistry.loadEntry state entry = state := by
  rw [Rc4FileBasedRegistry.loadEntry, skipped]

theorem loadEntry_loaded {entry : DirEntry} {id : UInt32} (named : fileId entry = some id)
    {registry : Rc4FileBasedRegistry} (loaded : id ∈ registry.loadedIds)
    (currentIds : Std.TreeSet UInt32) :
    Rc4FileBasedRegistry.loadEntry (registry, currentIds) entry =
      (registry, currentIds.insert id) := by
  rw [Rc4FileBasedRegistry.loadEntry, named]
  exact if_pos (Std.TreeSet.contains_iff_mem.mpr loaded)

theorem loadEntry_read {entry : DirEntry} {id : UInt32} (named : fileId entry = some id)
    {registry : Rc4FileBasedRegistry} (unread : id ∉ registry.loadedIds)
    (currentIds : Std.TreeSet UInt32) :
    Rc4FileBasedRegistry.loadEntry (registry, currentIds) entry =
      (({ base := if filePayloads entry.content = [] then registry.base
            else (registry.base.store id (filePayloads entry.content)).1
          loadedIds := registry.loadedIds.insert id } : Rc4FileBasedRegistry),
        currentIds.insert id) := by
  rw [Rc4FileBasedRegistry.loadEntry, named]
  exact if_neg fun contains => unread (Std.TreeSet.contains_iff_mem.mp contains)

/-- An entry that is not loaded yet lists a payload under an id. -/
def Offers (registry : Rc4FileBasedRegistry) (entry : DirEntry) (id : UInt32) (p : UInt64) : Prop :=
  fileId entry = some id ∧ id ∉ registry.loadedIds ∧ p ∈ filePayloads entry.content

theorem lookup_offered {registry : Rc4FileBasedRegistry} {entry : DirEntry} {id : UInt32}
    {p : UInt64} (offers : Offers registry entry id p) (positive : id ≠ 0)
    (currentIds : Std.TreeSet UInt32) :
    (Rc4FileBasedRegistry.loadEntry (registry, currentIds) entry).1.lookup p = some id := by
  obtain ⟨named, unread, lists⟩ := offers
  rw [loadEntry_read named unread, Rc4FileBasedRegistry.lookup, if_neg (List.ne_nil_of_mem lists),
    lookup_store _ positive, if_pos lists]

/-- A turn of the loading loop hands over the payloads an entry offers, and no others. -/
theorem lookup_loadEntry (registry : Rc4FileBasedRegistry) (currentIds : Std.TreeSet UInt32)
    (entry : DirEntry) (p : UInt64) (proper : ¬ Offers registry entry 0 p) :
    (∃ id, Offers registry entry id p ∧
        (Rc4FileBasedRegistry.loadEntry (registry, currentIds) entry).1.lookup p = some id) ∨
      ((∀ id, ¬ Offers registry entry id p) ∧
        (Rc4FileBasedRegistry.loadEntry (registry, currentIds) entry).1.lookup p =
          registry.lookup p) := by
  cases named : fileId entry with
  | none =>
    rw [loadEntry_skipped named]
    exact Or.inr ⟨fun id offers => absurd (named.symm.trans offers.1) nofun, rfl⟩
  | some id =>
    have only : ∀ other, Offers registry entry other p → other = id := fun other offers =>
      Option.some.inj (offers.1.symm.trans named)
    by_cases loaded : id ∈ registry.loadedIds
    · rw [loadEntry_loaded named loaded]
      refine Or.inr ⟨fun other offers => ?_, rfl⟩
      rw [only other offers] at offers
      exact offers.2.1 loaded
    · by_cases lists : p ∈ filePayloads entry.content
      · have offers : Offers registry entry id p := ⟨named, loaded, lists⟩
        have positive : id ≠ 0 := by
          rintro rfl
          exact proper offers
        exact Or.inl ⟨id, offers, lookup_offered offers positive currentIds⟩
      · refine Or.inr ⟨fun other offers => lists offers.2.2, ?_⟩
        rw [loadEntry_read named loaded, Rc4FileBasedRegistry.lookup]
        split
        · rfl
        · rw [lookup_store_returned, if_neg lists]
          rfl

/-- The ids of the entries of a directory. -/
def Present (entries : List DirEntry) (id : UInt32) : Prop :=
  ∃ entry ∈ entries, fileId entry = some id

theorem present_concat (entries : List DirEntry) (last : DirEntry) (id : UInt32) :
    Present (entries ++ [last]) id ↔ Present entries id ∨ fileId last = some id := by
  simp [Present, or_and_right, exists_or]

/-- The loading loop meets the ids of the entries, and afterwards they are loaded. -/
theorem load_ids (registry : Rc4FileBasedRegistry) (entries : List DirEntry) (id : UInt32) :
    (id ∈ (entries.foldl Rc4FileBasedRegistry.loadEntry (registry, ∅)).2 ↔ Present entries id) ∧
      (id ∈ (entries.foldl Rc4FileBasedRegistry.loadEntry (registry, ∅)).1.loadedIds ↔
        id ∈ registry.loadedIds ∨ Present entries id) := by
  induction entries using List.reverseRecOn with
  | nil => simp [Present, Std.TreeSet.not_mem_emptyc]
  | append_singleton entries last inductionHypothesis =>
    rw [List.foldl_append, List.foldl_cons, List.foldl_nil, present_concat]
    generalize entries.foldl Rc4FileBasedRegistry.loadEntry (registry, ∅) = state
      at inductionHypothesis ⊢
    obtain ⟨middle, currentIds⟩ := state
    obtain ⟨current, loaded⟩ := inductionHypothesis
    dsimp only at current loaded
    cases named : fileId last with
    | none =>
      rw [loadEntry_skipped named, current, loaded]
      simp
    | some new =>
      have same : some new = some id ↔ id = new := by rw [Option.some_inj, eq_comm]
      rw [same]
      by_cases known : new ∈ middle.loadedIds
      · rw [loadEntry_loaded named known, mem_insert_iff, current]
        refine ⟨Iff.rfl, loaded.trans ?_⟩
        rw [← or_assoc, ← loaded]
        exact (or_iff_left_of_imp fun again => again ▸ known).symm
      · rw [loadEntry_read named known]
        dsimp only
        rw [mem_insert_iff, mem_insert_iff, current, loaded, or_assoc]
        exact ⟨Iff.rfl, Iff.rfl⟩

/-- No two entries carry one id. -/
def DistinctIds (entries : List DirEntry) : Prop :=
  entries.Pairwise fun first second => ∀ id, fileId first = some id → fileId second ≠ some id

/-- After the loading loop a payload belongs to an entry that offered it, or to whom it
belonged before. -/
theorem load_entries (registry : Rc4FileBasedRegistry) {entries : List DirEntry}
    (distinct : DistinctIds entries) (p : UInt64)
    (proper : ∀ entry ∈ entries, ¬ Offers registry entry 0 p) :
    (∃ entry ∈ entries, ∃ id, Offers registry entry id p ∧
        (entries.foldl Rc4FileBasedRegistry.loadEntry (registry, ∅)).1.lookup p = some id) ∨
      ((∀ entry ∈ entries, ∀ id, ¬ Offers registry entry id p) ∧
        (entries.foldl Rc4FileBasedRegistry.loadEntry (registry, ∅)).1.lookup p =
          registry.lookup p) := by
  induction entries using List.reverseRecOn with
  | nil => exact Or.inr ⟨nofun, rfl⟩
  | append_singleton entries last inductionHypothesis =>
    obtain ⟨distinctFront, -, fresh⟩ := List.pairwise_append.mp distinct
    have front := inductionHypothesis distinctFront fun entry member =>
      proper entry (List.mem_append_left _ member)
    have loaded := fun id => (load_ids registry entries id).2
    rw [List.foldl_append, List.foldl_cons, List.foldl_nil]
    generalize entries.foldl Rc4FileBasedRegistry.loadEntry (registry, ∅) = state at front loaded ⊢
    obtain ⟨middle, currentIds⟩ := state
    -- the id of the last entry is loaded before it is met only if it was at the beginning
    have same : ∀ id, Offers middle last id p ↔ Offers registry last id p := by
      intro id
      refine and_congr_right fun named => and_congr_left fun _ => not_congr ?_
      rw [loaded id]
      refine or_iff_left ?_
      rintro ⟨entry, member, again⟩
      exact fresh entry member last List.mem_cons_self id again named
    have lastProper := proper last (by simp)
    rw [← same] at lastProper
    rcases lookup_loadEntry middle currentIds last p lastProper with
      ⟨id, offers, owner⟩ | ⟨none, owner⟩
    · exact Or.inl ⟨last, by simp, id, (same id).mp offers, owner⟩
    · simp only [same] at none
      rcases front with ⟨entry, member, id, offers, before⟩ | ⟨noneBefore, before⟩
      · exact Or.inl ⟨entry, List.mem_append_left _ member, id, offers, owner.trans before⟩
      · refine Or.inr ⟨fun entry member => ?_, owner.trans before⟩
        rcases List.mem_append.mp member with early | late
        · exact noneBefore entry early
        · rw [List.mem_singleton.mp late]
          exact none

/-- The removing loop takes the payloads of every loaded id that is no longer current. -/
theorem remove_stale (currentIds : Std.TreeSet UInt32) (ids : List UInt32)
    (registry : Rc4FileBasedRegistry) :
    (∀ id, id ∈ (ids.foldl (Rc4FileBasedRegistry.removeStale currentIds) registry).loadedIds ↔
        id ∈ registry.loadedIds ∧ (id ∈ ids → id ∈ currentIds)) ∧
      ∀ p, (ids.foldl (Rc4FileBasedRegistry.removeStale currentIds) registry).lookup p =
        (registry.lookup p).filter fun owner => owner ∉ ids ∨ owner ∈ currentIds := by
  induction ids generalizing registry with
  | nil =>
    refine ⟨fun id => by simp, fun p => ?_⟩
    rw [List.foldl_nil]
    cases registry.lookup p <;> simp [Option.filter]
  | cons first rest inductionHypothesis =>
    rw [List.foldl_cons, Rc4FileBasedRegistry.removeStale]
    by_cases current : first ∈ currentIds
    · rw [if_pos (Std.TreeSet.contains_iff_mem.mpr current)]
      obtain ⟨loaded, owners⟩ := inductionHypothesis registry
      have kept : ∀ id, (id ∈ first :: rest → id ∈ currentIds) ↔ (id ∈ rest → id ∈ currentIds) := by
        intro id
        refine ⟨fun keep member => keep (List.mem_cons_of_mem _ member), fun keep member => ?_⟩
        rcases List.mem_cons.mp member with rfl | later
        · exact current
        · exact keep later
      refine ⟨fun id => by rw [loaded, kept], fun p => ?_⟩
      rw [owners]
      simp only [← imp_iff_not_or, kept]
    · rw [if_neg fun contains => current (Std.TreeSet.contains_iff_mem.mp contains)]
      obtain ⟨loaded, owners⟩ := inductionHypothesis
        { base := registry.base.remove first, loadedIds := registry.loadedIds.erase first }
      have kept : ∀ id, (id ∈ first :: rest → id ∈ currentIds) ↔
          id ≠ first ∧ (id ∈ rest → id ∈ currentIds) := by
        intro id
        refine ⟨fun keep => ⟨?_, fun member => keep (List.mem_cons_of_mem _ member)⟩,
          fun keep member => keep.2 ((List.mem_cons.mp member).resolve_left keep.1)⟩
        rintro rfl
        exact current (keep List.mem_cons_self)
      refine ⟨fun id => ?_, fun p => ?_⟩
      · rw [loaded, kept, Std.TreeSet.mem_erase, ne_eq, Std.LawfulEqCmp.compare_eq_iff_eq,
          eq_comm, and_assoc, and_left_comm]
      · have removed : (Rc4FileBasedRegistry.lookup
            { base := registry.base.remove first, loadedIds := registry.loadedIds.erase first } p) =
            (registry.lookup p).filter fun owner => owner ≠ first := lookup_remove _ _ _
        rw [owners, removed]
        simp only [← imp_iff_not_or, kept, Option.filter_filter, Bool.decide_and]

/-- A resync is the removing loop behind the loading loop. -/
theorem resync_eq (registry : Rc4FileBasedRegistry) (entries : List DirEntry) :
    registry.resync entries =
      (entries.foldl Rc4FileBasedRegistry.loadEntry (registry, ∅)).1.loadedIds.toList.foldl
        (Rc4FileBasedRegistry.removeStale
          (entries.foldl Rc4FileBasedRegistry.loadEntry (registry, ∅)).2)
        (entries.foldl Rc4FileBasedRegistry.loadEntry (registry, ∅)).1 := rfl

/-- After a resync the ids of the entries are loaded, and no others. -/
theorem loadedIds_resync (registry : Rc4FileBasedRegistry) (entries : List DirEntry)
    (id : UInt32) : id ∈ (registry.resync entries).loadedIds ↔ Present entries id := by
  obtain ⟨current, loaded⟩ := load_ids registry entries id
  rw [resync_eq, (remove_stale _ _ _).1, Std.TreeSet.mem_toList, current, loaded]
  tauto

/-- After a resync a payload belongs to an entry that offered it, and otherwise stays with
its owner unless the entry of the owner is gone. -/
theorem resync_entries (registry : Rc4FileBasedRegistry) {entries : List DirEntry}
    (distinct : DistinctIds entries) (p : UInt64)
    (proper : ∀ entry ∈ entries, ¬ Offers registry entry 0 p) :
    (∃ entry ∈ entries, ∃ id, Offers registry entry id p ∧
        (registry.resync entries).lookup p = some id) ∨
      ((∀ entry ∈ entries, ∀ id, ¬ Offers registry entry id p) ∧
        ∀ id, (registry.resync entries).lookup p = some id ↔
          registry.lookup p = some id ∧ (id ∈ registry.loadedIds → Present entries id)) := by
  have ids := load_ids registry entries
  have loads := load_entries registry distinct p proper
  rw [resync_eq]
  generalize entries.foldl Rc4FileBasedRegistry.loadEntry (registry, ∅) = state at ids loads ⊢
  obtain ⟨next, currentIds⟩ := state
  dsimp only at ids loads ⊢
  have kept : ∀ id, (id ∉ next.loadedIds.toList ∨ id ∈ currentIds) ↔
      (id ∈ registry.loadedIds → Present entries id) := by
    intro id
    rw [Std.TreeSet.mem_toList, (ids id).1, (ids id).2]
    tauto
  rw [(remove_stale currentIds _ next).2]
  rcases loads with ⟨entry, member, id, offers, owner⟩ | ⟨none, owner⟩
  · refine Or.inl ⟨entry, member, id, offers, ?_⟩
    rw [owner, Option.filter_some_pos]
    exact decide_eq_true ((kept id).mpr fun _ => ⟨entry, member, offers.1⟩)
  · refine Or.inr ⟨none, fun id => ?_⟩
    rw [owner, Option.filter_eq_some_iff, decide_eq_true_eq, kept]

theorem present_files (files : List Rc4File) (id : UInt32) :
    Present (files.map Rc4File.entry) id ↔ ∃ file ∈ files, file.id = id := by
  simp only [Present, List.mem_map, exists_exists_and_eq_and, Rc4File.named, Option.some_inj]

/-- What a resync does on files of 16 digits a line: the ids of the files are loaded; a
payload goes to a new file that lists it, and otherwise stays with its owner unless the file
of the owner is gone. -/
theorem resync_files (registry : Rc4FileBasedRegistry) (files : List Rc4File)
    (distinct : files.Pairwise fun first second => first.id ≠ second.id) :
    (∀ id, id ∈ (registry.resync (files.map Rc4File.entry)).loadedIds ↔
        ∃ file ∈ files, file.id = id) ∧
      ∀ p, (∃ file ∈ files, file.id ∉ registry.loadedIds ∧ file.Lists p ∧
          (registry.resync (files.map Rc4File.entry)).lookup p = some file.id) ∨
        ((∀ file ∈ files, file.id ∉ registry.loadedIds → ¬ file.Lists p) ∧
          ∀ id, (registry.resync (files.map Rc4File.entry)).lookup p = some id ↔
            registry.lookup p = some id ∧
              (id ∈ registry.loadedIds → ∃ file ∈ files, file.id = id)) := by
  have offers : ∀ (file : Rc4File) (id : UInt32) (p : UInt64), Offers registry file.entry id p ↔
      file.id = id ∧ file.id ∉ registry.loadedIds ∧ file.Lists p := by
    intro file id p
    rw [Offers, file.named, Option.some_inj, mem_filePayloads]
    exact and_congr_right fun same => by rw [same]
  have entriesDistinct : DistinctIds (files.map Rc4File.entry) :=
    List.pairwise_map.mpr (distinct.imp fun {first second} different id named again =>
      different (Option.some.inj
        ((first.named.symm.trans named).trans (again.symm.trans second.named))))
  refine ⟨fun id => by rw [loadedIds_resync, present_files], fun p => ?_⟩
  have resynced := resync_entries registry entriesDistinct p fun entry member => by
    obtain ⟨file, -, rfl⟩ := List.mem_map.mp member
    rw [offers]
    exact fun zero => file.positive zero.1
  simpa [present_files, offers, and_assoc] using resynced

/-! ### Runs -/

/-- The files have different ids, and the loaded ids are theirs. -/
structure Synced (world : RegistryWorld) : Prop where
  distinct : world.files.Pairwise fun first second => first.id ≠ second.id
  loaded : ∀ id, id ∈ world.registry.loadedIds ↔ ∃ file ∈ world.files, file.id = id

/-- The program starts on a directory and resyncs once. -/
def startWorld (files listing : List Rc4File) : RegistryWorld where
  registry := Rc4FileBasedRegistry.initial.resync (listing.map Rc4File.entry)
  files := files

theorem pairwise_of_perm {first second : List Rc4File} (perm : first.Perm second)
    (distinct : second.Pairwise fun first second => first.id ≠ second.id) :
    first.Pairwise fun first second => first.id ≠ second.id :=
  (perm.pairwise_iff fun different => different.symm).mpr distinct

theorem startWorld_synced {files listing : List Rc4File}
    (distinct : files.Pairwise fun first second => first.id ≠ second.id)
    (perm : listing.Perm files) : Synced (startWorld files listing) ∧
      Mirrors (startWorld files listing) := by
  obtain ⟨loaded, owners⟩ :=
    resync_files .initial listing (pairwise_of_perm perm distinct)
  refine ⟨⟨distinct, fun id => ?_⟩, fun p => ?_⟩
  · rw [startWorld, loaded]
    simp only [perm.mem_iff]
  · simp only [startWorld]
    rcases owners p with ⟨file, member, -, lists, owner⟩ | ⟨none, owner⟩
    · rw [owner]
      refine ⟨iff_of_true rfl ⟨file, perm.mem_iff.mp member, lists⟩, fun id same => ?_⟩
      exact ⟨file, perm.mem_iff.mp member, Option.some.inj same, lists⟩
    · have absent : ∀ id, ¬ Rc4FileBasedRegistry.lookup
          (Rc4FileBasedRegistry.initial.resync (listing.map Rc4File.entry)) p = some id :=
        fun id found => nomatch ((owner id).mp found).1
      refine ⟨?_, fun id found => absurd found (absent id)⟩
      rw [Option.isSome_iff_exists]
      refine iff_of_false (fun ⟨id, found⟩ => absent id found) ?_
      rintro ⟨file, member, lists⟩
      exact none file (perm.mem_iff.mpr member) Std.TreeSet.not_mem_emptyc lists

theorem FileChange.distinct_apply {files : List Rc4File} {change : FileChange}
    (distinct : files.Pairwise fun first second => first.id ≠ second.id)
    (fresh : ∀ file, change = .add file → ∀ present ∈ files, present.id ≠ file.id) :
    (change.apply files).Pairwise fun first second => first.id ≠ second.id := by
  cases change with
  | add file =>
    refine List.pairwise_append.mpr ⟨distinct, List.pairwise_singleton _ _, ?_⟩
    intro present member last lastMember
    rw [List.mem_singleton.mp lastMember]
    exact fresh file rfl present member
  | delete id => exact distinct.filter _

theorem FileChange.mem_apply {files : List Rc4File} {change : FileChange} {file : Rc4File}
    (member : file ∈ files) (kept : ∀ id, change = .delete id → file.id ≠ id) :
    file ∈ change.apply files := by
  cases change with
  | add added => exact List.mem_append_left _ member
  | delete id => exact List.mem_filter.mpr ⟨member, decide_eq_true (kept id rfl)⟩

theorem FileChange.mem_of_mem_apply {files : List Rc4File} {change : FileChange} {file : Rc4File}
    (member : file ∈ change.apply files) : file ∈ files ∨ change = .add file := by
  cases change with
  | add added =>
    rcases List.mem_append.mp member with old | new
    · exact Or.inl old
    · exact Or.inr (by rw [List.mem_singleton.mp new])
  | delete id => exact Or.inl (List.mem_filter.mp member).1

theorem FileChange.ne_of_mem_delete {files : List Rc4File} {id : UInt32} {file : Rc4File}
    (member : file ∈ (FileChange.delete id).apply files) : file.id ≠ id :=
  of_decide_eq_true (List.mem_filter.mp member).2

/-- A reload leaves the loaded ids in step with the files, and each payload with a new file
that lists it, or with its owner when that is still there. -/
theorem hotReload_synced {world : RegistryWorld} {reload : HotReload} (synced : Synced world)
    (valid : HotReloadValid world reload) :
    Synced (hotReloadStep world reload).1 ∧
      ∀ p, (∃ file ∈ (hotReloadStep world reload).1.files, file.id ∉ world.registry.loadedIds ∧
          file.Lists p ∧ (hotReloadStep world reload).1.registry.lookup p = some file.id) ∨
        ((∀ file ∈ (hotReloadStep world reload).1.files, file.id ∉ world.registry.loadedIds →
            ¬ file.Lists p) ∧
          ∀ id, (hotReloadStep world reload).1.registry.lookup p = some id ↔
            world.registry.lookup p = some id ∧ (id ∈ world.registry.loadedIds →
              ∃ file ∈ (hotReloadStep world reload).1.files, file.id = id)) := by
  have distinct := FileChange.distinct_apply synced.distinct valid.fresh
  obtain ⟨loaded, owners⟩ := resync_files world.registry reload.listing
    (pairwise_of_perm valid.seen distinct)
  simp only [valid.seen.mem_iff] at loaded owners
  exact ⟨⟨distinct, loaded⟩, owners⟩

/-- An owner that is still there is a file that lists its payload. -/
theorem ownerStill (world : RegistryWorld) (reload : HotReload) (synced : Synced world)
    (mirrors : Mirrors world) (p : UInt64) (id : UInt32)
    (owned : world.registry.lookup p = some id ∧ (id ∈ world.registry.loadedIds →
      ∃ file ∈ (hotReloadStep world reload).1.files, file.id = id)) :
    ∃ file ∈ (hotReloadStep world reload).1.files, file.id = id ∧ file.Lists p := by
  obtain ⟨before, present⟩ := owned
  obtain ⟨file, member, same, lists⟩ := (mirrors p).2 id before
  obtain ⟨kept, keptMember, keptSame⟩ := present ((synced.loaded id).mpr ⟨file, member, same⟩)
  refine ⟨file, FileChange.mem_apply member fun removed deleted again => ?_, same, lists⟩
  change kept ∈ reload.change.apply world.files at keptMember
  rw [deleted] at keptMember
  exact FileChange.ne_of_mem_delete keptMember (keptSame.trans (same.symm.trans again))

/-- A deletion that takes no shared payload keeps the mirror, and an addition always does. -/
theorem hotReload_mirrors {world : RegistryWorld} {reload : HotReload} (synced : Synced world)
    (valid : HotReloadValid world reload) (mirrors : Mirrors world)
    (unshared : DeletesUnshared world reload) : Mirrors (hotReloadStep world reload).1 := by
  obtain ⟨-, owners⟩ := hotReload_synced synced valid
  intro p
  rcases owners p with ⟨file, member, -, lists, owner⟩ | ⟨none, owner⟩
  · rw [owner]
    exact ⟨iff_of_true rfl ⟨file, member, lists⟩,
      fun id same => ⟨file, member, Option.some.inj same, lists⟩⟩
  · refine ⟨⟨fun after => ?_, ?_⟩, fun id after => ?_⟩
    · obtain ⟨id, after⟩ := Option.isSome_iff_exists.mp after
      obtain ⟨file, member, -, lists⟩ :=
        ownerStill world reload synced mirrors p id ((owner id).mp after)
      exact ⟨file, member, lists⟩
    · rintro ⟨file, member, lists⟩
      -- the file is an old one, and so is the owner of the payload
      have old : file ∈ world.files := by
        rcases FileChange.mem_of_mem_apply member with old | added
        · exact old
        · refine absurd lists (none file member fun loaded => ?_)
          obtain ⟨present, presentMember, same⟩ := (synced.loaded _).mp loaded
          exact valid.fresh file added present presentMember same
      obtain ⟨id, before⟩ := Option.isSome_iff_exists.mp ((mirrors p).1.mpr ⟨file, old, lists⟩)
      obtain ⟨holder, holderMember, rfl, -⟩ := (mirrors p).2 id before
      refine Option.isSome_iff_exists.mpr ⟨holder.id, (owner _).mpr ⟨before, fun _ =>
        ⟨holder, FileChange.mem_apply holderMember fun id deleted same => ?_, rfl⟩⟩⟩
      rw [same] at before
      have shared := unshared id deleted p before file old lists
      change file ∈ reload.change.apply world.files at member
      rw [deleted] at member
      exact FileChange.ne_of_mem_delete member shared
    · exact ownerStill world reload synced mirrors p id ((owner id).mp after)

/-- A deletion that takes a shared payload breaks the mirror. -/
theorem not_mirrors_of_shared {world : RegistryWorld} {reload : HotReload} (synced : Synced world)
    (valid : HotReloadValid world reload) (shared : ¬ DeletesUnshared world reload) :
    ¬ Mirrors (hotReloadStep world reload).1 := by
  intro mirrors
  simp only [DeletesUnshared] at shared
  push Not at shared
  obtain ⟨id, deleted, p, before, file, member, lists, other⟩ := shared
  have kept : file ∈ (hotReloadStep world reload).1.files := by
    refine FileChange.mem_apply member fun removed again => ?_
    rw [deleted] at again
    injection again with again
    exact again ▸ other
  obtain ⟨owner, after⟩ := Option.isSome_iff_exists.mp ((mirrors p).1.mpr ⟨file, kept, lists⟩)
  rcases (hotReload_synced synced valid).2 p with ⟨new, newMember, unread, -⟩ | ⟨-, owners⟩
  · rcases FileChange.mem_of_mem_apply newMember with old | added
    · exact unread ((synced.loaded _).mpr ⟨new, old, rfl⟩)
    · exact absurd (deleted.symm.trans added) nofun
  · obtain ⟨owned, present⟩ := (owners owner).mp after
    rw [before] at owned
    injection owned with owned
    subst owned
    obtain ⟨holder, holderMember, same⟩ := valid.existing id deleted
    obtain ⟨left, leftMember, leftSame⟩ :=
      present ((synced.loaded id).mpr ⟨holder, holderMember, same⟩)
    change left ∈ reload.change.apply world.files at leftMember
    rw [deleted] at leftMember
    exact FileChange.ne_of_mem_delete leftMember leftSame

theorem hotReload_run_iff {world : RegistryWorld} (synced : Synced world) (mirrors : Mirrors world)
    (reloads : List HotReload) (valid : Along hotReloadStep HotReloadValid world reloads) :
    Along hotReloadStep (fun world reload => Mirrors (hotReloadStep world reload).1) world reloads ↔
      Along hotReloadStep DeletesUnshared world reloads := by
  induction reloads generalizing world with
  | nil => exact Iff.rfl
  | cons reload rest inductionHypothesis =>
    obtain ⟨validFirst, validRest⟩ := valid
    have next := (hotReload_synced synced validFirst).1
    constructor
    · rintro ⟨first, later⟩
      have unshared : DeletesUnshared world reload := by
        by_contra shared
        exact not_mirrors_of_shared synced validFirst shared first
      exact ⟨unshared, (inductionHypothesis next first validRest).mp later⟩
    · rintro ⟨unshared, later⟩
      have first := hotReload_mirrors synced validFirst mirrors unshared
      exact ⟨first, (inductionHypothesis next first validRest).mpr later⟩

/-- From any directory and over any additions and deletions of one file at a time, the
registry mirrors the directory after every resync, exactly when every deleted file owns no
payload that another file lists. -/
theorem registry_mirrors_iff (files listing : List Rc4File)
    (distinct : files.Pairwise fun first second => first.id ≠ second.id)
    (perm : listing.Perm files) (reloads : List HotReload)
    (valid : Along hotReloadStep HotReloadValid (startWorld files listing) reloads) :
    (Mirrors (startWorld files listing) ∧
        Along hotReloadStep (fun world reload => Mirrors (hotReloadStep world reload).1)
          (startWorld files listing) reloads) ↔
      Along hotReloadStep DeletesUnshared (startWorld files listing) reloads := by
  obtain ⟨synced, mirrors⟩ := startWorld_synced distinct perm
  rw [and_iff_right mirrors]
  exact hotReload_run_iff synced mirrors reloads valid

/-! ### Two files that list the same payload -/

def firstFile : Rc4File where
  entry := ⟨true, "1000.rc4".toList, "0000000000000001\n".toList⟩
  id := 1000
  named := by decide +kernel
  positive := by decide
  wellFormed := by decide +kernel

def secondFile : Rc4File where
  entry := ⟨true, "1001.rc4".toList, "0000000000000001\n".toList⟩
  id := 1001
  named := by decide +kernel
  positive := by decide
  wellFormed := by decide +kernel

/-- The second file is added to a directory with the first. -/
def addSecond : HotReload := ⟨.add secondFile, [firstFile, secondFile]⟩

/-- The second file is deleted again. -/
def deleteSecond : HotReload := ⟨.delete 1001, [firstFile]⟩

theorem addSecond_valid :
    HotReloadValid (startWorld [firstFile] [firstFile]) addSecond where
  fresh := by
    rintro file ⟨⟩ present member
    rw [List.mem_singleton.mp member]
    decide
  existing := nofun
  seen := .refl _

theorem deleteSecond_valid : HotReloadValid
    (hotReloadStep (startWorld [firstFile] [firstFile]) addSecond).1 deleteSecond where
  fresh := nofun
  existing := by
    rintro id ⟨⟩
    exact ⟨secondFile, List.mem_of_getElem? (i := 1) rfl, rfl⟩
  seen := .refl _

theorem registry_mirrors_iff_addSecond :
    (Mirrors (startWorld [firstFile] [firstFile]) ∧
        Along hotReloadStep (fun world reload => Mirrors (hotReloadStep world reload).1)
          (startWorld [firstFile] [firstFile]) [addSecond]) ↔
      Along hotReloadStep DeletesUnshared (startWorld [firstFile] [firstFile]) [addSecond] :=
  registry_mirrors_iff [firstFile] [firstFile] (List.pairwise_singleton _ _) (.refl _) [addSecond]
    ⟨addSecond_valid, trivial⟩

/-- Deleting the second of two files that list the same payload makes the payload unknown,
although the first file still lists it. -/
theorem registry_mirrors_fails :
    ¬ ∀ files listing : List Rc4File,
      (files.Pairwise fun first second => first.id ≠ second.id) → listing.Perm files →
      ∀ reloads, Along hotReloadStep HotReloadValid (startWorld files listing) reloads →
        Mirrors (startWorld files listing) ∧
          Along hotReloadStep (fun world reload => Mirrors (hotReloadStep world reload).1)
            (startWorld files listing) reloads := by
  intro always
  obtain ⟨-, -, mirrors, -⟩ := always [firstFile] [firstFile] (List.pairwise_singleton _ _)
    (.refl _) [addSecond, deleteSecond] ⟨addSecond_valid, deleteSecond_valid, trivial⟩
  have listed : firstFile.Lists 1 :=
    ⟨"0000000000000001".toList, by decide +kernel, by decide +kernel⟩
  have found := (mirrors 1).1.mpr ⟨firstFile, List.mem_cons_self, listed⟩
  exact absurd found (by decide +kernel)

end OpenStint
