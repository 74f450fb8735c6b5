/-
This file proves that learned identities survive a restart. A run of stores on an empty
directory leaves files whose names are the ids and whose lines are the payloads, in the
order in which they were stored; a fresh registry that reads them finds what the old one
found. The one exception is an id that no file can give back: when the counter of the
automatic ids has wrapped, payloads are stored under 0, and a file `0.rc4` is read as one
that asks for an automatic id.
-/

import OpenStint.Rc4Resync
import OpenStint.Rc4Store

namespace OpenStint

open Machine

/-! ### Files that `store` writes -/

/-- An entry as `store` leaves it. -/
def IsWritten (entry : DirEntry) : Prop :=
  ∃ id payloads, entry = ⟨true, fileName id, writtenLines payloads⟩

theorem writtenLines_append (first second : List UInt64) :
    writtenLines (first ++ second) = writtenLines first ++ writtenLines second :=
  List.flatMap_append

/-- A written entry carries its id and lists what was written. -/
theorem fileId_written (id : UInt32) (payloads : List UInt64) :
    fileId ⟨true, fileName id, writtenLines payloads⟩ = some id ∧
      filePayloads (writtenLines payloads) = payloads :=
  ⟨fileId_fileName id _, filePayloads_written payloads⟩

/-- A directory that `store` has written. -/
structure WrittenDirectory (directory : List DirEntry) : Prop where
  distinct : DistinctNames directory
  written : ∀ entry ∈ directory, IsWritten entry

theorem WrittenDirectory.distinctIds {directory : List DirEntry}
    (written : WrittenDirectory directory) : DistinctIds directory := by
  refine distinctIds_of_names written.distinct fun entry member id named => ?_
  obtain ⟨other, payloads, rfl⟩ := written.written entry member
  rw [(fileId_written other payloads).1] at named
  rw [Option.some.inj named]

section Append

variable {directory : List DirEntry} (id : UInt32) (payloads : List UInt64)

/-- What appending to the file of an id does to an entry. -/
def appended (entry : DirEntry) : DirEntry :=
  if entry.name = fileName id ∧ entry.isRegularFile then
    { entry with content := entry.content ++ writtenLines payloads }
  else entry

theorem appended_name (entry : DirEntry) : (appended id payloads entry).name = entry.name := by
  rw [appended]
  split <;> rfl

/-- The entry that is appended to is the one of the id. -/
theorem appended_written (other : UInt32) (before : List UInt64) :
    appended id payloads ⟨true, fileName other, writtenLines before⟩ =
      ⟨true, fileName other,
        writtenLines (before ++ if other = id then payloads else [])⟩ := by
  by_cases same : other = id
  · subst same
    rw [appended, if_pos ⟨rfl, rfl⟩, if_pos rfl, writtenLines_append]
  · rw [appended, if_neg fun both => same (fileName_injective both.1), if_neg same,
      List.append_nil]

theorem appendFile_eq :
    appendFile directory (fileName id) (writtenLines payloads) =
      if directory.any fun entry => entry.name = fileName id then
        directory.map (appended id payloads)
      else directory ++ [⟨true, fileName id, writtenLines payloads⟩] := rfl

theorem appendFile_written (written : WrittenDirectory directory) :
    WrittenDirectory (appendFile directory (fileName id) (writtenLines payloads)) := by
  rw [appendFile_eq]
  by_cases present : (directory.any fun entry => entry.name = fileName id) = true
  · rw [if_pos present]
    refine ⟨List.pairwise_map.mpr ?_, fun entry member => ?_⟩
    · simp only [appended_name]
      exact written.distinct
    · obtain ⟨before, beforeMember, rfl⟩ := List.mem_map.mp member
      obtain ⟨other, lines, rfl⟩ := written.written before beforeMember
      exact ⟨other, _, appended_written id payloads other lines⟩
  · rw [if_neg present]
    have absent : ∀ entry ∈ directory, entry.name ≠ fileName id := fun entry member same =>
      present (List.any_eq_true.mpr ⟨entry, member, decide_eq_true same⟩)
    refine ⟨List.pairwise_append.mpr ⟨written.distinct, List.pairwise_singleton _ _, ?_⟩,
      fun entry member => ?_⟩
    · intro entry member last lastMember
      rw [List.mem_singleton.mp lastMember]
      exact absent entry member
    · rcases List.mem_append.mp member with old | new
      · exact written.written entry old
      · exact ⟨id, payloads, List.mem_singleton.mp new⟩

/-- Appending lists the payloads under the id, and keeps what was listed. -/
theorem appendFile_lists (written : WrittenDirectory directory) (p : UInt64) (other : UInt32) :
    ListsUnder (appendFile directory (fileName id) (writtenLines payloads)) p other ↔
      ListsUnder directory p other ∨ other = id ∧ p ∈ payloads := by
  rw [appendFile_eq]
  by_cases present : (directory.any fun entry => entry.name = fileName id) = true
  · rw [if_pos present]
    constructor
    · rintro ⟨entry, member, named, lists⟩
      obtain ⟨before, beforeMember, rfl⟩ := List.mem_map.mp member
      obtain ⟨owner, lines, rfl⟩ := written.written before beforeMember
      rw [appended_written] at named lists
      rw [(fileId_written owner _).1, Option.some_inj] at named
      rw [(fileId_written owner _).2, List.mem_append] at lists
      subst named
      rcases lists with old | new
      · exact Or.inl ⟨_, beforeMember, (fileId_written owner lines).1, by
          rwa [(fileId_written owner lines).2]⟩
      · by_cases same : owner = id
        · rw [if_pos same] at new
          exact Or.inr ⟨same, new⟩
        · rw [if_neg same] at new
          exact absurd new List.not_mem_nil
    · have keeps : ∀ owner lines, ⟨true, fileName owner, writtenLines lines⟩ ∈ directory →
          p ∈ lines ++ (if owner = id then payloads else []) →
            ListsUnder (directory.map (appended id payloads)) p owner := by
        intro owner lines member lists
        refine ⟨_, List.mem_map_of_mem member, ?_⟩
        rw [appended_written, (fileId_written owner _).1, (fileId_written owner _).2]
        exact ⟨rfl, lists⟩
      rintro (⟨entry, member, named, lists⟩ | ⟨rfl, new⟩)
      · obtain ⟨owner, lines, rfl⟩ := written.written entry member
        rw [(fileId_written owner lines).1, Option.some_inj] at named
        rw [(fileId_written owner lines).2] at lists
        subst named
        exact keeps owner lines member (List.mem_append_left _ lists)
      · obtain ⟨entry, member, same⟩ := List.any_eq_true.mp present
        obtain ⟨owner, lines, rfl⟩ := written.written entry member
        obtain rfl : owner = other := fileName_injective (of_decide_eq_true same)
        exact keeps owner lines member (by
          rw [if_pos rfl]
          exact List.mem_append_right _ new)
  · rw [if_neg present]
    simp only [ListsUnder, List.mem_append, List.mem_singleton, or_and_right, exists_or,
      exists_eq_left, (fileId_written id payloads).1, (fileId_written id payloads).2,
      Option.some_inj, eq_comm (a := id)]

end Append

/-! ### A run of stores -/

/-- In a history of what was stored under which id, a payload stored under an id. -/
def StoredUnder (history : List (UInt32 × List UInt64)) (p : UInt64) (id : UInt32) : Prop :=
  ∃ stored ∈ history, stored.1 = id ∧ p ∈ stored.2

theorem storedUnder_concat (history : List (UInt32 × List UInt64)) (last : UInt32 × List UInt64)
    (p : UInt64) (id : UInt32) :
    StoredUnder (history ++ [last]) p id ↔
      StoredUnder history p id ∨ id = last.1 ∧ p ∈ last.2 := by
  simp [StoredUnder, or_and_right, exists_or, eq_comm]

/-- The directory lists what was stored, and the registry finds it, under an id it was stored
under. -/
structure Remembers (history : List (UInt32 × List UInt64)) (storage : Rc4Storage) : Prop where
  written : WrittenDirectory storage.directory
  lists : ∀ p id, ListsUnder storage.directory p id ↔ StoredUnder history p id
  sound : ∀ p id, storage.registry.lookup p = some id → StoredUnder history p id
  complete : ∀ p id, StoredUnder history p id → ∃ owner, storage.registry.lookup p = some owner

theorem remembers_run (calls : List (UInt32 × List UInt64)) :
    Remembers (answers storeCall (.start []) calls) (exec storeCall (.start []) calls) := by
  induction calls using List.reverseRecOn with
  | nil =>
    refine ⟨⟨List.Pairwise.nil, fun _ member => absurd member List.not_mem_nil⟩, ?_, ?_, ?_⟩
    · simp [ListsUnder, StoredUnder, Rc4Storage.start]
    · intro p id found
      exact absurd (found.symm.trans (lookup_initial p)) (Option.some_ne_none id)
    · simp [StoredUnder]
  | append_singleton calls call inductionHypothesis =>
    rw [answers_concat, exec_concat]
    generalize answers storeCall (.start []) calls = history at inductionHypothesis ⊢
    generalize exec storeCall (.start []) calls = storage at inductionHypothesis ⊢
    have owner := lookup_store_returned storage.registry.base call.1 call.2
    refine ⟨appendFile_written _ _ inductionHypothesis.written, fun p id => ?_,
      fun p id found => ?_, fun p id stored => ?_⟩
    · rw [storedUnder_concat, ← inductionHypothesis.lists]
      exact appendFile_lists _ _ inductionHypothesis.written p id
    · rw [storedUnder_concat]
      change ((storage.registry.base.store call.1 call.2).1).lookup p = some id at found
      rw [owner] at found
      by_cases lists : p ∈ call.2
      · rw [if_pos lists] at found
        exact Or.inr ⟨(Option.some.inj found).symm, lists⟩
      · rw [if_neg lists] at found
        exact Or.inl (inductionHypothesis.sound p id found)
    · change ∃ id, ((storage.registry.base.store call.1 call.2).1).lookup p = some id
      rw [owner]
      by_cases lists : p ∈ call.2
      · exact ⟨_, if_pos lists⟩
      · rw [if_neg lists]
        rw [storedUnder_concat] at stored
        rcases stored with before | ⟨-, new⟩
        · exact inductionHypothesis.complete p id before
        · exact absurd new lists

/-! ### The fresh registry -/

/-- A turn of the loading loop stores nothing under 0: a file with id 0 asks for an automatic
id. -/
theorem loadEntry_ne_zero (registry : Rc4FileBasedRegistry) (currentIds : Std.TreeSet UInt32)
    (entry : DirEntry) (started : 1000 ≤ registry.base.nextTransponder)
    (before : ∀ p, registry.lookup p ≠ some 0) (p : UInt64) :
    (Rc4FileBasedRegistry.loadEntry (registry, currentIds) entry).1.lookup p ≠ some 0 := by
  cases named : fileId entry with
  | none =>
    rw [loadEntry_skipped named]
    exact before p
  | some id =>
    by_cases loaded : id ∈ registry.loadedIds
    · rw [loadEntry_loaded named loaded]
      exact before p
    · rw [loadEntry_read named loaded, Rc4FileBasedRegistry.lookup]
      split
      · exact before p
      · rw [lookup_store_returned]
        split
        · intro zero
          by_cases known : id = 0
          · rw [known, store_auto, Option.some_inj] at zero
            rw [show registry.base.nextTransponder = 0 from zero] at started
            exact absurd started (by decide)
          · rw [store_known registry.base known, Option.some_inj] at zero
            exact known zero
        · exact before p

theorem lookup_fresh_ne_zero (listing : List DirEntry) (p : UInt64) :
    Rc4FileBasedRegistry.lookup (.resync .initial listing) p ≠ some 0 := by
  have loads : ∀ p, (listing.foldl Rc4FileBasedRegistry.loadEntry (.initial, ∅)).1.lookup p ≠
      some 0 := by
    induction listing using List.reverseRecOn with
    | nil =>
      intro p found
      exact absurd (found.symm.trans (lookup_initial p)) (Option.some_ne_none 0)
    | append_singleton front last inductionHypothesis =>
      rw [List.foldl_append, List.foldl_cons, List.foldl_nil]
      obtain ⟨grows, -⟩ := load_counter .initial front Covered.initial
        (fun _ _ _ _ => by decide) (Prod.eta _).symm
      exact loadEntry_ne_zero _ _ last (UInt32.le_trans Covered.initial.started grows)
        inductionHypothesis
  rw [resync_eq, (remove_stale _ _ _).2]
  intro found
  exact loads p (Option.filter_eq_some_iff.mp found).1

/-! ### Restart -/

/-- No payload is stored under two different ids. -/
def Unambiguous (history : List (UInt32 × List UInt64)) : Prop :=
  ∀ p first second, StoredUnder history p first → StoredUnder history p second → first = second

/-- What a file can give back: no payload under 0. -/
def Restorable (stored : UInt32 × List UInt64) : Prop := stored.1 = 0 → stored.2 = []

/-- A fresh registry on the directory left behind finds what the old one found exactly when
no payload was stored under 0. -/
theorem restart_same_iff_history (calls : List (UInt32 × List UInt64))
    (unambiguous : Unambiguous (answers storeCall (.start []) calls)) (listing : List DirEntry)
    (perm : listing.Perm (exec storeCall (.start []) calls).directory) :
    (∀ p, Rc4FileBasedRegistry.lookup (.resync .initial listing) p =
        (exec storeCall (.start []) calls).registry.lookup p) ↔
      ∀ stored ∈ answers storeCall (.start []) calls, Restorable stored := by
  have remembers := remembers_run calls
  generalize answers storeCall (.start []) calls = history at unambiguous remembers ⊢
  generalize exec storeCall (.start []) calls = storage at perm remembers ⊢
  have finds : ∀ p id, storage.registry.lookup p = some id ↔ StoredUnder history p id := by
    intro p id
    refine ⟨remembers.sound p id, fun stored => ?_⟩
    obtain ⟨owner, found⟩ := remembers.complete p id stored
    rw [found, unambiguous p owner id (remembers.sound p owner found) stored]
  have lists : ∀ p id, ListsUnder listing p id ↔ StoredUnder history p id := by
    intro p id
    rw [listsUnder_of_perm perm, remembers.lists]
  constructor
  · intro same stored member zero
    by_contra nonempty
    obtain ⟨p, listed⟩ := List.exists_mem_of_ne_nil _ nonempty
    have old := (finds p 0).mpr ⟨stored, member, zero, listed⟩
    rw [← same p] at old
    exact lookup_fresh_ne_zero listing p old
  · intro empty p
    refine Option.ext fun id => ?_
    have distinct := distinctIds_of_perm perm remembers.written.distinctIds
    rw [finds, lookup_fresh_iff distinct p ?_ ?_, lists]
    · rw [lists]
      rintro ⟨stored, member, zero, listed⟩
      rw [empty stored member zero] at listed
      exact absurd listed List.not_mem_nil
    · intro first second
      rw [lists, lists]
      exact unambiguous p first second

/-- An automatic id for payloads is not asked for at a counter that has wrapped to 0. -/
def NotWrapped (storage : Rc4Storage) (call : UInt32 × List UInt64) : Prop :=
  call.1 = 0 → call.2 ≠ [] → storage.registry.base.nextTransponder ≠ 0

theorem notWrapped_iff (storage : Rc4Storage) (call : UInt32 × List UInt64) :
    NotWrapped storage call ↔ Restorable (storeCall storage call).2 := by
  obtain ⟨id, payloads⟩ := call
  change _ ↔ ((storage.registry.base.store id payloads).2 = 0 → payloads = [])
  rw [NotWrapped]
  by_cases auto : id = 0
  · rw [auto, store_auto]
    tauto
  · rw [store_known _ auto]
    tauto

/-- Whatever is stored on an empty directory, and in whatever order the files are then read,
a fresh registry finds what the old one found, exactly when no payload was stored under an
automatic id after the counter had wrapped. -/
theorem restart_same_iff (calls : List (UInt32 × List UInt64))
    (unambiguous : Unambiguous (answers storeCall (.start []) calls)) (listing : List DirEntry)
    (perm : listing.Perm (exec storeCall (.start []) calls).directory) :
    (∀ p, Rc4FileBasedRegistry.lookup (.resync .initial listing) p =
        (exec storeCall (.start []) calls).registry.lookup p) ↔
      Along storeCall NotWrapped (.start []) calls := by
  rw [restart_same_iff_history calls unambiguous listing perm]
  exact (along_iff_answers notWrapped_iff _ _).symm

theorem restart_same_iff_once :
    (∀ p, Rc4FileBasedRegistry.lookup
        (.resync .initial (exec storeCall (.start []) [(0, [1])]).directory) p =
        (exec storeCall (.start []) [(0, [1])]).registry.lookup p) ↔
      Along storeCall NotWrapped (.start []) [(0, [1])] := by
  refine restart_same_iff [(0, [1])] ?_ _ (.refl _)
  rintro p first second ⟨stored, member, rfl, -⟩ ⟨other, otherMember, rfl, -⟩
  rw [List.mem_singleton.mp member, List.mem_singleton.mp otherMember]

/-- What is stored are the payloads of the calls. -/
theorem payloads_of_answers (storage : Rc4Storage) (calls : List (UInt32 × List UInt64)) :
    ∀ stored ∈ answers storeCall storage calls, ∃ call ∈ calls, call.2 = stored.2 := by
  induction calls generalizing storage with
  | nil => exact fun _ member => absurd member List.not_mem_nil
  | cons call rest inductionHypothesis =>
    intro stored member
    rcases List.mem_cons.mp member with rfl | later
    · exact ⟨call, List.mem_cons_self, rfl⟩
    · obtain ⟨other, otherMember, same⟩ := inductionHypothesis _ stored later
      exact ⟨other, List.mem_cons_of_mem _ otherMember, same⟩

/-- After 4294966296 automatic ids the counter has wrapped to 0, and the payload stored then
is found under 0 until the restart, and under 1000 or above behind it. -/
theorem restart_loses_wrapped :
    ¬ ∀ calls : List (UInt32 × List UInt64), Unambiguous (answers storeCall (.start []) calls) →
      ∀ listing : List DirEntry, listing.Perm (exec storeCall (.start []) calls).directory →
        ∀ p, Rc4FileBasedRegistry.lookup (.resync .initial listing) p =
          (exec storeCall (.start []) calls).registry.lookup p := by
  intro always
  obtain ⟨count, wraps⟩ : ∃ count : Nat, (1000 : UInt32) + UInt32.ofNat count = 0 :=
    ⟨4294966296, by decide⟩
  have counter := (exec_store_auto (.start []) count).1
  change _ = (1000 : UInt32) + UInt32.ofNat count at counter
  have silent : ∀ p id, ¬ StoredUnder
      (answers storeCall (.start []) (List.replicate count (0, []))) p id := by
    rintro p id ⟨stored, member, -, listed⟩
    obtain ⟨call, callMember, same⟩ := payloads_of_answers _ _ stored member
    rw [← same, (List.mem_replicate.mp callMember).2] at listed
    exact absurd listed List.not_mem_nil
  have history := answers_concat storeCall (.start []) (List.replicate count (0, [])) (0, [1])
  have unambiguous : Unambiguous
      (answers storeCall (.start []) (List.replicate count (0, []) ++ [(0, [1])])) := by
    intro p first second firstStored secondStored
    rw [history, storedUnder_concat] at firstStored secondStored
    rw [(firstStored.resolve_left (silent p first)).1,
      (secondStored.resolve_left (silent p second)).1]
  have restorable := (restart_same_iff_history _ unambiguous _ (.refl _)).mp
    (always _ unambiguous _ (.refl _))
  rw [history] at restorable
  have last := restorable _ (List.mem_append_right _ List.mem_cons_self)
  have returned : (storeCall (exec storeCall (.start []) (List.replicate count (0, [])))
      (0, [1])).2.1 = 0 := by
    refine (congrArg Prod.snd (store_auto _ [1])).trans ?_
    rw [counter, wraps]
  exact absurd (last returned) (List.cons_ne_nil 1 [])

end OpenStint
