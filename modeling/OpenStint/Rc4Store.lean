/-
This file is about the ids `store` gives out. The program and its storage directory form
one machine: payloads are stored, the directory is resynced in whatever order it is read,
changed by others, and read again by a program that starts anew.

An id is free when no payload maps to it and no file with it is loaded. The counter behind
the automatic ids is only a high-water mark for the ids from 1000 to 9999 whose files list a
payload, while the counter itself goes on beyond 9999; so the next id is free as long as what
is loaded was counted.
-/

import OpenStint.Rc4Registry

namespace OpenStint

open Machine OrderedMap

/-! ### The program and its directory -/

structure Rc4Storage where
  registry : Rc4FileBasedRegistry
  directory : List DirEntry

/-- A call of `store`, and what was stored under which id. -/
def storeCall (storage : Rc4Storage) (call : UInt32 × List UInt64) :
    Rc4Storage × (UInt32 × List UInt64) :=
  let (registry, directory, transponderId) :=
    storage.registry.store storage.directory call.1 call.2
  ({ registry, directory }, (transponderId, call.2))

/-- What can happen to a storage: a call of the program, which reads the directory in some
order, a new start of the program, or a change of the directory by others. -/
inductive StorageInput
  | store (transponderId : UInt32) (rc4Payloads : List UInt64)
  | resync (listing : List DirEntry)
  | restart
  | directoryChange (directory : List DirEntry)

/-- A store answers with the id. -/
def storageStep (storage : Rc4Storage) : StorageInput → Rc4Storage × Option UInt32
  | .store transponderId rc4Payloads =>
    let (storage, stored) := storeCall storage (transponderId, rc4Payloads)
    (storage, some stored.1)
  | .resync listing => ({ storage with registry := storage.registry.resync listing }, none)
  | .restart => ({ storage with registry := .initial }, none)
  | .directoryChange directory => ({ storage with directory }, none)

/-- The program starts on a directory. -/
def Rc4Storage.start (directory : List DirEntry) : Rc4Storage where
  registry := .initial
  directory

/-- A resync sees the entries of the directory. -/
def ReadsDirectory (storage : Rc4Storage) (input : StorageInput) : Prop :=
  ∀ listing, input = .resync listing → listing.Perm storage.directory

/-- An id that was asked for with 0 is free. -/
def AssignsFree (storage : Rc4Storage) (input : StorageInput) : Prop :=
  ∀ rc4Payloads id, input = .store 0 rc4Payloads → (storageStep storage input).2 = some id →
    id ∉ storage.registry.loadedIds ∧ ∀ p, storage.registry.lookup p ≠ some id

/-! ### The counter -/

/-- An automatic id is the counter. -/
theorem store_auto (registry : Rc4Registry) (rc4Payloads : List UInt64) :
    registry.store 0 rc4Payloads =
      ({ registry := insertAll registry.registry rc4Payloads registry.nextTransponder
         nextTransponder := registry.nextTransponder + 1 }, registry.nextTransponder) := by
  have uncounted : ¬ (1000 ≤ (0 : UInt32) ∧ (0 : UInt32) ≤ 9999 ∧
      0 + 1 > registry.nextTransponder) := fun counted => absurd counted.1 (by decide)
  simp only [Rc4Registry.store, if_neg uncounted, if_true]

theorem counter_known (registry : Rc4Registry) {id : UInt32} (known : id ≠ 0)
    (rc4Payloads : List UInt64) :
    (registry.store id rc4Payloads).1.nextTransponder =
      if 1000 ≤ id ∧ id ≤ 9999 ∧ id + 1 > registry.nextTransponder then id + 1
      else registry.nextTransponder := by
  simp only [Rc4Registry.store, if_neg known]

/-- A known id moves the counter up, to 10000 at most, and beyond itself when it counts. -/
theorem counter_known_bounds (registry : Rc4Registry) {id : UInt32} (known : id ≠ 0)
    (rc4Payloads : List UInt64) :
    registry.nextTransponder ≤ (registry.store id rc4Payloads).1.nextTransponder ∧
      ((registry.store id rc4Payloads).1.nextTransponder = registry.nextTransponder ∨
        (registry.store id rc4Payloads).1.nextTransponder ≤ 10000) ∧
      (1000 ≤ registry.nextTransponder → id ≤ 9999 →
        id < (registry.store id rc4Payloads).1.nextTransponder) := by
  rw [counter_known registry known]
  generalize registry.nextTransponder = next
  have idBound := id.toNat_lt
  have nextBound := next.toNat_lt
  by_cases counts : 1000 ≤ id ∧ id ≤ 9999 ∧ id + 1 > next
  · rw [if_pos counts]
    obtain ⟨-, small, above⟩ := counts
    simp only [UInt32.le_iff_toNat_le, UInt32.lt_iff_toNat_lt, gt_iff_lt, UInt32.toNat_add,
      UInt32.reduceToNat] at small above ⊢
    exact ⟨by omega, Or.inr (by omega), fun _ _ => by omega⟩
  · rw [if_neg counts]
    refine ⟨UInt32.le_refl next, Or.inl rfl, fun start small => ?_⟩
    simp only [UInt32.le_iff_toNat_le, UInt32.lt_iff_toNat_lt, gt_iff_lt, UInt32.toNat_add,
      UInt32.reduceToNat] at counts start small ⊢
    omega

theorem lt_succ_of_ne_last {next : UInt32} (room : next ≠ 4294967295) : next < next + 1 := by
  have bound := next.toNat_lt
  have below : next.toNat ≠ 4294967295 := fun same => room (UInt32.toNat_inj.mp same)
  simp only [UInt32.lt_iff_toNat_lt, UInt32.toNat_add, UInt32.reduceToNat]
  omega

/-- A store never moves the counter back. It covers what the payloads are stored under, and
the id that was asked for when that counts. -/
theorem store_counter (registry : Rc4Registry) (id : UInt32) (rc4Payloads : List UInt64)
    (started : 1000 ≤ registry.nextTransponder)
    (room : id = 0 → registry.nextTransponder ≠ 4294967295)
    {next : Rc4Registry} {returned : UInt32}
    (stores : registry.store id rc4Payloads = (next, returned)) :
    registry.nextTransponder ≤ next.nextTransponder ∧
      (next.nextTransponder = registry.nextTransponder ∨ next.nextTransponder ≤ 10000 ∨ id = 0) ∧
      (returned = id ∨ returned < next.nextTransponder) ∧
      (id ≤ 9999 → id < next.nextTransponder) ∧
      (returned ≤ 9999 → returned < next.nextTransponder) := by
  by_cases known : id = 0
  · have ahead := lt_succ_of_ne_last (room known)
    rw [known, store_auto] at stores
    obtain ⟨rfl, rfl⟩ := Prod.mk.inj stores
    have positive : 0 < registry.nextTransponder + 1 :=
      UInt32.lt_of_lt_of_le (by decide) (UInt32.le_trans started (UInt32.le_of_lt ahead))
    rw [known]
    exact ⟨UInt32.le_of_lt ahead, Or.inr (Or.inr rfl), Or.inr ahead, fun _ => positive,
      fun _ => ahead⟩
  · obtain ⟨grows, stays, counts⟩ := counter_known_bounds registry known rc4Payloads
    have same := store_known registry known rc4Payloads
    rw [stores] at grows stays counts same
    change returned = id at same
    subst same
    exact ⟨grows, stays.imp_right Or.inl, Or.inl rfl, counts started, counts started⟩

/-! ### What the counter covers -/

/-- The counter covers the ids that payloads map to and, up to 9999, those that are loaded. -/
structure Covered (registry : Rc4FileBasedRegistry) : Prop where
  started : 1000 ≤ registry.base.nextTransponder
  loaded : ∀ id ∈ registry.loadedIds, id ≤ 9999 → id < registry.base.nextTransponder
  mapped : ∀ p id, registry.lookup p = some id →
    id ∈ registry.loadedIds ∨ id < registry.base.nextTransponder

theorem Covered.initial : Covered .initial where
  started := by decide
  loaded := fun _ member => absurd member Std.TreeSet.not_mem_emptyc
  mapped := fun p id found => by
    rw [lookup_initial] at found
    exact absurd found (Option.some_ne_none id).symm

/-- The next automatic id is free when the counter is in the range that it covers, or above
everything that is loaded. -/
theorem Covered.free {registry : Rc4FileBasedRegistry} (covered : Covered registry)
    (clear : registry.base.nextTransponder ≤ 9999 ∨
      ∀ id ∈ registry.loadedIds, id < registry.base.nextTransponder) :
    registry.base.nextTransponder ∉ registry.loadedIds ∧
      ∀ p, registry.lookup p ≠ some registry.base.nextTransponder := by
  have unloaded : registry.base.nextTransponder ∉ registry.loadedIds := by
    intro member
    rcases clear with small | above
    · exact UInt32.lt_irrefl _ (covered.loaded _ member small)
    · exact UInt32.lt_irrefl _ (above _ member)
  refine ⟨unloaded, fun p found => ?_⟩
  rcases covered.mapped p _ found with member | less
  · exact unloaded member
  · exact UInt32.lt_irrefl _ less

/-- The ids that payloads map to stay covered by a store when the id it gives back is. -/
theorem mapped_store {registry : Rc4FileBasedRegistry} {id inserted returned : UInt32}
    {rc4Payloads : List UInt64} {next : Rc4Registry}
    (stores : registry.base.store id rc4Payloads = (next, returned))
    (grows : registry.base.nextTransponder ≤ next.nextTransponder)
    (covers : returned = inserted ∨ returned < next.nextTransponder)
    (mapped : ∀ p other, registry.lookup p = some other →
      other ∈ registry.loadedIds ∨ other < registry.base.nextTransponder)
    (p : UInt64) (other : UInt32) (found : next.lookup p = some other) :
    other ∈ registry.loadedIds.insert inserted ∨ other < next.nextTransponder := by
  have owner := lookup_store_returned registry.base id rc4Payloads
  rw [stores] at owner
  rw [owner] at found
  rw [mem_insert_iff]
  by_cases listed : p ∈ rc4Payloads
  · rw [if_pos listed, Option.some_inj] at found
    subst found
    exact covers.imp_left Or.inr
  · rw [if_neg listed] at found
    exact (mapped p other found).imp Or.inl fun less => UInt32.lt_of_lt_of_le less grows

/-- Storing keeps the ids covered. -/
theorem Covered.store {registry : Rc4FileBasedRegistry} (covered : Covered registry)
    (directory : List DirEntry) (id : UInt32) (rc4Payloads : List UInt64)
    (room : id = 0 → registry.base.nextTransponder ≠ 4294967295) :
    Covered (registry.store directory id rc4Payloads).1 := by
  change Covered ⟨(registry.base.store id rc4Payloads).1,
    registry.loadedIds.insert (registry.base.store id rc4Payloads).2⟩
  cases stores : registry.base.store id rc4Payloads with
  | mk base returned =>
    obtain ⟨grows, -, -, -, counts⟩ :=
      store_counter registry.base id rc4Payloads covered.started room stores
    refine ⟨UInt32.le_trans covered.started grows, fun other member small => ?_,
      mapped_store stores grows (Or.inl rfl) covered.mapped⟩
    rcases (mem_insert_iff _ _ _).mp member with before | rfl
    · exact UInt32.lt_of_lt_of_le (covered.loaded other before small) grows
    · exact counts small

/-- A turn of the loading loop never moves the counter back; the ids that payloads map to
stay covered, and the id of a file that is read for its payloads is. -/
theorem loadEntry_counter (registry : Rc4FileBasedRegistry) (currentIds : Std.TreeSet UInt32)
    (entry : DirEntry) (started : 1000 ≤ registry.base.nextTransponder)
    (mapped : ∀ p id, registry.lookup p = some id →
      id ∈ registry.loadedIds ∨ id < registry.base.nextTransponder)
    (room : ∀ p, Offers registry entry 0 p → registry.base.nextTransponder ≠ 4294967295)
    {next : Rc4FileBasedRegistry}
    (loads : (Rc4FileBasedRegistry.loadEntry (registry, currentIds) entry).1 = next) :
    registry.base.nextTransponder ≤ next.base.nextTransponder ∧
      (∀ p id, next.lookup p = some id →
        id ∈ next.loadedIds ∨ id < next.base.nextTransponder) ∧
      (next.base.nextTransponder = registry.base.nextTransponder ∨
        next.base.nextTransponder ≤ 10000 ∨ 0 ∈ next.loadedIds) ∧
      ∀ id, fileId entry = some id → id ∉ registry.loadedIds →
        filePayloads entry.content ≠ [] → id ≤ 9999 → id < next.base.nextTransponder := by
  cases named : fileId entry with
  | none =>
    rw [loadEntry_skipped named] at loads
    subst loads
    exact ⟨UInt32.le_refl _, mapped, Or.inl rfl, fun id same => by cases same⟩
  | some id =>
    have only : ∀ other, some id = some other → other = id := fun other same =>
      (Option.some.inj same).symm
    by_cases loaded : id ∈ registry.loadedIds
    · rw [loadEntry_loaded named loaded] at loads
      subst loads
      refine ⟨UInt32.le_refl _, mapped, Or.inl rfl, fun other same unread => ?_⟩
      rw [only other same] at unread
      exact absurd loaded unread
    · rw [loadEntry_read named loaded] at loads
      subst loads
      by_cases empty : filePayloads entry.content = []
      · rw [if_pos empty]
        refine ⟨UInt32.le_refl _, fun p other found => ?_, Or.inl rfl, fun _ _ _ full =>
          absurd empty full⟩
        exact (mapped p other found).imp_left fun member =>
          (mem_insert_iff _ _ _).mpr (Or.inl member)
      · rw [if_neg empty]
        obtain ⟨first, listed⟩ := List.exists_mem_of_ne_nil _ empty
        cases stores : registry.base.store id (filePayloads entry.content) with
        | mk base returned =>
          obtain ⟨grows, stays, covers, counts, -⟩ := store_counter registry.base id _ started (by
            rintro rfl
            exact room first ⟨named, loaded, listed⟩) stores
          refine ⟨grows, mapped_store stores grows covers mapped,
            stays.imp_right (Or.imp_right ?_), fun other same _ _ => ?_⟩
          · rintro rfl
            exact (mem_insert_iff _ _ _).mpr (Or.inr rfl)
          · rw [only other same]
            exact counts

/-- A new id up to 9999 that the loading loop counts: every file with it lists a payload. -/
structure CountedIn (registry : Rc4FileBasedRegistry) (entries : List DirEntry) (id : UInt32) :
    Prop where
  small : id ≤ 9999
  unread : id ∉ registry.loadedIds
  present : Present entries id
  lists : ∀ entry ∈ entries, fileId entry = some id → filePayloads entry.content ≠ []

/-- The loading loop covers the ids that payloads map to and the ids it counts. -/
theorem load_counter (registry : Rc4FileBasedRegistry) (entries : List DirEntry)
    (covered : Covered registry)
    (room : ∀ entry ∈ entries, ∀ p, Offers registry entry 0 p →
      registry.base.nextTransponder ≠ 4294967295)
    {next : Rc4FileBasedRegistry} {currentIds : Std.TreeSet UInt32}
    (loads : entries.foldl Rc4FileBasedRegistry.loadEntry (registry, ∅) = (next, currentIds)) :
    registry.base.nextTransponder ≤ next.base.nextTransponder ∧
      (∀ p id, next.lookup p = some id →
        id ∈ next.loadedIds ∨ id < next.base.nextTransponder) ∧
      (next.base.nextTransponder = 4294967295 →
        0 ∈ next.loadedIds ∨ registry.base.nextTransponder = 4294967295) ∧
      ∀ id, CountedIn registry entries id → id < next.base.nextTransponder := by
  induction entries using List.reverseRecOn generalizing next currentIds with
  | nil =>
    obtain ⟨rfl, rfl⟩ := Prod.mk.inj loads
    refine ⟨UInt32.le_refl _, covered.mapped, Or.inr, fun id counted => ?_⟩
    obtain ⟨entry, member, -⟩ := counted.present
    exact absurd member List.not_mem_nil
  | append_singleton front last inductionHypothesis =>
    have ids := fun id => (load_ids registry front id).2
    have lastIds := fun id => (load_ids registry (front ++ [last]) id).2
    rw [loads] at lastIds
    rw [List.foldl_append, List.foldl_cons, List.foldl_nil] at loads
    cases loaded : front.foldl Rc4FileBasedRegistry.loadEntry (registry, ∅) with
    | mk middle middleIds =>
      rw [loaded] at loads ids
      obtain ⟨grows, mapped, wraps, counts⟩ := inductionHypothesis
        (fun entry member => room entry (List.mem_append_left _ member)) loaded
      obtain ⟨growsLast, mappedLast, stays, countsLast⟩ := loadEntry_counter middle middleIds last
        (UInt32.le_trans covered.started grows) mapped (fun p offers wrap => by
          rcases wraps wrap with zero | full
          · exact offers.2.1 zero
          · exact room last (by simp) p
              ⟨offers.1, fun zero => offers.2.1 ((ids 0).mpr (Or.inl zero)), offers.2.2⟩ full)
        (congrArg Prod.fst loads)
      refine ⟨UInt32.le_trans grows growsLast, mappedLast, fun wrap => ?_, fun id counted => ?_⟩
      · rcases stays with same | small | zero
        · rw [same] at wrap
          refine (wraps wrap).imp_left fun zero => (lastIds 0).mpr ?_
          exact ((ids 0).mp zero).imp_right fun present =>
            (present_concat front last 0).mpr (Or.inl present)
        · rw [wrap] at small
          exact absurd small (by decide)
        · exact Or.inl zero
      · by_cases early : Present front id
        · refine UInt32.lt_of_lt_of_le (counts id ⟨counted.small, counted.unread, early, ?_⟩)
            growsLast
          exact fun entry member => counted.lists entry (List.mem_append_left _ member)
        · have late := ((present_concat front last id).mp counted.present).resolve_left early
          refine countsLast id late ?_ (counted.lists last (by simp) late) counted.small
          exact fun known => ((ids id).mp known).elim counted.unread early

theorem counter_remove_stale (currentIds : Std.TreeSet UInt32) (ids : List UInt32)
    (registry : Rc4FileBasedRegistry) :
    (ids.foldl (Rc4FileBasedRegistry.removeStale currentIds) registry).base.nextTransponder =
      registry.base.nextTransponder := by
  induction ids generalizing registry with
  | nil => rfl
  | cons id rest inductionHypothesis =>
    rw [List.foldl_cons, inductionHypothesis, Rc4FileBasedRegistry.removeStale]
    split <;> rfl

/-- A resync keeps the ids covered when what it reads is counted. -/
theorem Covered.resync {registry : Rc4FileBasedRegistry} (covered : Covered registry)
    {listing : List DirEntry}
    (room : ∀ entry ∈ listing, ∀ p, Offers registry entry 0 p →
      registry.base.nextTransponder ≠ 4294967295)
    (counted : ∀ id ≤ 9999, Present listing id → id ∉ registry.loadedIds →
      id < registry.base.nextTransponder ∨ ∃ larger, id ≤ larger ∧
        CountedIn registry listing larger) :
    Covered (registry.resync listing) := by
  have ids := load_ids registry listing
  have after := loadedIds_resync registry listing
  cases loads : listing.foldl Rc4FileBasedRegistry.loadEntry (registry, ∅) with
  | mk next currentIds =>
    obtain ⟨grows, mapped, -, counts⟩ := load_counter registry listing covered room loads
    have counter : (registry.resync listing).base.nextTransponder =
        next.base.nextTransponder := by
      rw [resync_eq, counter_remove_stale, loads]
    refine ⟨?_, fun id member small => ?_, fun p id found => ?_⟩
    · rw [counter]
      exact UInt32.le_trans covered.started grows
    · rw [counter]
      rw [after] at member
      by_cases known : id ∈ registry.loadedIds
      · exact UInt32.lt_of_lt_of_le (covered.loaded id known small) grows
      · rcases counted id small member known with below | ⟨larger, order, counts_⟩
        · exact UInt32.lt_of_lt_of_le below grows
        · exact UInt32.lt_of_le_of_lt order (counts larger counts_)
    · rw [counter, after]
      rw [resync_eq, (remove_stale _ _ _).2, loads, Option.filter_eq_some_iff,
        decide_eq_true_eq] at found
      obtain ⟨before, kept⟩ := found
      refine (mapped p id before).imp_left fun loadedId => ?_
      rw [Std.TreeSet.mem_toList] at kept
      rw [← (ids id).1, loads]
      exact kept.resolve_left (not_not.mpr loadedId)

/-! ### Automatic ids -/

/-- A step at which nothing escapes the counter. An automatic id is asked for while the
counter is in the range it covers, or above everything that is loaded, and not at its end;
and what a resync reads up to 9999 is counted, or not above something that is. -/
def CountsIds (storage : Rc4Storage) : StorageInput → Prop
  | .store transponderId _ => transponderId = 0 →
    storage.registry.base.nextTransponder ≠ 4294967295 ∧
      (storage.registry.base.nextTransponder ≤ 9999 ∨
        ∀ id ∈ storage.registry.loadedIds, id < storage.registry.base.nextTransponder)
  | .resync listing =>
    (∀ entry ∈ listing, ∀ p, Offers storage.registry entry 0 p →
        storage.registry.base.nextTransponder ≠ 4294967295) ∧
      ∀ id ≤ 9999, Present listing id → id ∉ storage.registry.loadedIds →
        id < storage.registry.base.nextTransponder ∨ ∃ larger, id ≤ larger ∧
          CountedIn storage.registry listing larger
  | .restart => True
  | .directoryChange _ => True

theorem covered_step (storage : Rc4Storage) (input : StorageInput)
    (covered : Covered storage.registry) (counts : CountsIds storage input) :
    AssignsFree storage input ∧ Covered (storageStep storage input).1.registry := by
  cases input with
  | store transponderId rc4Payloads =>
    refine ⟨?_, covered.store storage.directory transponderId rc4Payloads fun zero =>
      (counts zero).1⟩
    rintro payloads id ⟨⟩ returned
    obtain rfl : storage.registry.base.nextTransponder = id := by
      have auto := congrArg Prod.snd (store_auto storage.registry.base rc4Payloads)
      exact auto.symm.trans (Option.some.inj returned)
    exact covered.free (counts rfl).2
  | resync listing =>
    refine ⟨?_, covered.resync counts.1 counts.2⟩
    rintro _ _ ⟨⟩
  | restart =>
    refine ⟨?_, Covered.initial⟩
    rintro _ _ ⟨⟩
  | directoryChange directory =>
    refine ⟨?_, covered⟩
    rintro _ _ ⟨⟩

/-- From any directory and over any stores, resyncs, new starts and changes of the directory
at which nothing escapes the counter, every automatic id is free. -/
theorem auto_ids_free (directory : List DirEntry) (inputs : List StorageInput)
    (counts : Along storageStep CountsIds (.start directory) inputs) :
    Along storageStep AssignsFree (.start directory) inputs :=
  along_of_invariant (fun storage => Covered storage.registry) covered_step Covered.initial counts

/-- A directory with one file, resynced, and a transponder learned behind it. -/
theorem auto_ids_free_first :
    Along storageStep AssignsFree (.start [firstFile.entry])
      [.resync [firstFile.entry], .store 0 [2]] := by
  refine auto_ids_free [firstFile.entry] [.resync [firstFile.entry], .store 0 [2]]
    ⟨⟨fun _ _ _ _ => by decide, fun id _ present _ => Or.inr ⟨1000, ?_, ?_⟩⟩,
      fun _ => ⟨by decide +kernel, Or.inl (by decide +kernel)⟩, trivial⟩
  · obtain ⟨entry, member, named⟩ := present
    rw [List.mem_singleton.mp member, firstFile.named] at named
    rw [← Option.some.inj named]
    decide
  · exact
      { small := by decide
        unread := Std.TreeSet.not_mem_emptyc
        present := ⟨_, List.mem_cons_self, firstFile.named⟩
        lists := fun entry member _ => by
          rw [List.mem_singleton.mp member]
          decide +kernel }

/-- The files of a transponder whose real id is 9999 and of one learned behind it. -/
def boundaryFiles : List DirEntry :=
  [⟨true, "9999.rc4".toList, "0000000000000001\n".toList⟩,
    ⟨true, "10000.rc4".toList, "0000000000000002\n".toList⟩]

/-- Id 10000 is given out behind 9999 and left behind in a file; the program starts anew and
reads the files, of which only the first is counted, and gives 10000 out again. -/
theorem auto_ids_collide :
    ¬ ∀ (directory : List DirEntry) (inputs : List StorageInput),
      Along storageStep ReadsDirectory (.start directory) inputs →
        Along storageStep AssignsFree (.start directory) inputs := by
  intro always
  have reads : Along storageStep ReadsDirectory (.start [])
      [.store 9999 [1], .store 0 [2], .restart, .resync boundaryFiles, .store 0 [3]] := by
    refine ⟨?_, ?_, ?_, ?_, ?_, trivial⟩
    · rintro _ ⟨⟩
    · rintro _ ⟨⟩
    · rintro _ ⟨⟩
    · rintro _ ⟨⟩
      have left : (exec storageStep (.start []) [.store 9999 [1], .store 0 [2],
          .restart]).directory = boundaryFiles := by decide +kernel
      change boundaryFiles.Perm (exec storageStep (.start []) [.store 9999 [1], .store 0 [2],
        .restart]).directory
      rw [left]
    · rintro _ ⟨⟩
  obtain ⟨-, -, -, -, last, -⟩ := always [] _ reads
  have loaded : 10000 ∈ (exec storageStep (.start []) [.store 9999 [1], .store 0 [2],
      .restart, .resync boundaryFiles]).registry.loadedIds := by decide +kernel
  exact (last [3] 10000 rfl (by decide +kernel)).1 loaded

/-! ### Ids that the counter has not passed -/

/-- Stores without payloads move the counter on, one id each, and forget nothing. -/
theorem exec_store_auto (storage : Rc4Storage) (count : Nat) :
    (exec storeCall storage (List.replicate count (0, []))).registry.base.nextTransponder =
        storage.registry.base.nextTransponder + UInt32.ofNat count ∧
      ∀ id ∈ storage.registry.loadedIds,
        id ∈ (exec storeCall storage (List.replicate count (0, []))).registry.loadedIds := by
  induction count generalizing storage with
  | zero => exact ⟨(UInt32.add_zero _).symm, fun _ => id⟩
  | succ count inductionHypothesis =>
    rw [List.replicate_succ, exec_cons]
    obtain ⟨counter, loaded⟩ := inductionHypothesis (storeCall storage (0, [])).1
    have auto := store_auto storage.registry.base []
    have next : (storeCall storage (0, [])).1.registry.base.nextTransponder =
        storage.registry.base.nextTransponder + 1 :=
      congrArg (fun stored => stored.1.nextTransponder) auto
    refine ⟨?_, fun id member => loaded id ((mem_insert_iff _ _ _).mpr (Or.inl member))⟩
    rw [counter, next, UInt32.ofNat_add, UInt32.add_assoc, UInt32.add_comm (UInt32.ofNat count)]
    rfl

/-- A run of stores, as a run of the storage. -/
theorem exec_stores (storage : Rc4Storage) (calls : List (UInt32 × List UInt64)) :
    exec storageStep storage (calls.map fun call => .store call.1 call.2) =
      exec storeCall storage calls := by
  induction calls generalizing storage with
  | nil => rfl
  | cons call rest inductionHypothesis => exact inductionHypothesis _

/-- A loaded id that the counter has not passed is given out again by the store that comes
to it, long before the counter wraps. -/
theorem loaded_id_collides (storage : Rc4Storage) {id : UInt32}
    (loaded : id ∈ storage.registry.loadedIds)
    (above : storage.registry.base.nextTransponder ≤ id) :
    ∃ count, storage.registry.base.nextTransponder.toNat + count = id.toNat ∧ ¬ AssignsFree
      (exec storageStep storage (List.replicate count (.store 0 []))) (.store 0 []) := by
  rw [UInt32.le_iff_toNat_le] at above
  refine ⟨id.toNat - storage.registry.base.nextTransponder.toNat, by omega, fun free => ?_⟩
  obtain ⟨counter, kept⟩ := exec_store_auto storage
    (id.toNat - storage.registry.base.nextTransponder.toNat)
  have reached : storage.registry.base.nextTransponder +
      UInt32.ofNat (id.toNat - storage.registry.base.nextTransponder.toNat) = id := by
    conv_lhs => lhs; rw [← UInt32.ofNat_toNat (x := storage.registry.base.nextTransponder)]
    rw [← UInt32.ofNat_add, Nat.add_sub_cancel' above, UInt32.ofNat_toNat]
  rw [reached] at counter
  have stores := exec_stores storage (List.replicate
    (id.toNat - storage.registry.base.nextTransponder.toNat) (0, []))
  rw [List.map_replicate] at stores
  rw [stores] at free
  generalize exec storeCall storage (List.replicate
    (id.toNat - storage.registry.base.nextTransponder.toNat) (0, [])) = later at *
  have returned : (storageStep later (.store 0 [])).2 = some id := by
    rw [← counter]
    exact congrArg (fun stored => some stored.2) (store_auto later.registry.base [])
  exact (free [] id rfl returned).1 (kept id loaded)

end OpenStint
