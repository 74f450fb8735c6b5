/-
This file proves that a resync has nothing left to do after a resync, and that a store does
not give it anything to do. A registry is in step with a directory when the loaded ids are
those of the files; then every file is skipped and every id stays. A resync leaves the
registry in step, whatever the names and the contents of the files are, and a store adds its
id on both sides.

So the payloads that are stored are found under the id that the last store of them gave
back, and all other payloads as before, no matter how many resyncs come in between.
-/

import OpenStint.Rc4Resync
import OpenStint.Rc4Store

namespace OpenStint

open Machine

/-! ### A registry in step -/

/-- The loaded ids are those of the files. -/
def InStep (registry : Rc4FileBasedRegistry) (directory : List DirEntry) : Prop :=
  ∀ id, id ∈ registry.loadedIds ↔ Present directory id

theorem present_of_perm {first second : List DirEntry} (perm : first.Perm second) (id : UInt32) :
    Present first id ↔ Present second id := by
  simp only [Present, perm.mem_iff]

theorem inStep_resync {registry : Rc4FileBasedRegistry} {directory listing : List DirEntry}
    (perm : listing.Perm directory) : InStep (registry.resync listing) directory := fun id =>
  (loadedIds_resync registry listing id).trans (present_of_perm perm id)

/-- The loading loop skips files whose ids are loaded. -/
theorem load_loaded {registry : Rc4FileBasedRegistry} {entries : List DirEntry}
    (loaded : ∀ id, Present entries id → id ∈ registry.loadedIds) :
    (entries.foldl Rc4FileBasedRegistry.loadEntry (registry, ∅)).1 = registry := by
  induction entries using List.reverseRecOn with
  | nil => rfl
  | append_singleton entries last inductionHypothesis =>
    have front := inductionHypothesis fun id present =>
      loaded id ((present_concat entries last id).mpr (Or.inl present))
    rw [List.foldl_append, List.foldl_cons, List.foldl_nil]
    generalize entries.foldl Rc4FileBasedRegistry.loadEntry (registry, ∅) = state at front ⊢
    obtain ⟨middle, currentIds⟩ := state
    obtain rfl : middle = registry := front
    cases named : fileId last with
    | none => rw [loadEntry_skipped named]
    | some id =>
      rw [loadEntry_loaded named (loaded id ((present_concat entries last id).mpr (Or.inr named)))]

/-- The removing loop keeps ids that the loading loop has met. -/
theorem remove_current {currentIds : Std.TreeSet UInt32} {ids : List UInt32}
    (current : ∀ id ∈ ids, id ∈ currentIds) (registry : Rc4FileBasedRegistry) :
    ids.foldl (Rc4FileBasedRegistry.removeStale currentIds) registry = registry := by
  induction ids with
  | nil => rfl
  | cons id rest inductionHypothesis =>
    rw [List.forall_mem_cons] at current
    rw [List.foldl_cons, Rc4FileBasedRegistry.removeStale,
      if_pos (Std.TreeSet.contains_iff_mem.mpr current.1), inductionHypothesis current.2]

/-- A resync changes nothing of a registry that is in step. -/
theorem InStep.resync_eq {registry : Rc4FileBasedRegistry} {directory listing : List DirEntry}
    (inStep : InStep registry directory) (perm : listing.Perm directory) :
    registry.resync listing = registry := by
  have ids : ∀ id, id ∈ registry.loadedIds ↔ Present listing id := fun id =>
    (inStep id).trans (present_of_perm perm id).symm
  have current := fun id => (load_ids registry listing id).1
  rw [OpenStint.resync_eq, load_loaded fun id => (ids id).mpr]
  exact remove_current (fun id member =>
    (current id).mpr ((ids id).mp (Std.TreeSet.mem_toList.mp member))) registry

/-! ### Stores -/

/-- Appending to the file of an id adds the id to the directory, when the file can be
written. -/
theorem present_appendFile {directory : List DirEntry} {id : UInt32}
    (writable : ∀ entry ∈ directory, entry.name = fileName id → entry.isRegularFile = true)
    (text : List Char) (other : UInt32) :
    Present (appendFile directory (fileName id) text) other ↔
      Present directory other ∨ other = id := by
  have carries : ∀ content, fileId ⟨true, fileName id, content⟩ = some other ↔ other = id := by
    intro content
    rw [fileId_fileName, Option.some_inj, eq_comm]
  rw [appendFile]
  by_cases listed : (directory.any fun entry => entry.name = fileName id) = true
  · obtain ⟨file, member, named⟩ := List.any_eq_true.mp listed
    have regular := writable file member (of_decide_eq_true named)
    have present : other = id → Present directory other := by
      intro same
      obtain ⟨isRegularFile, name, content⟩ := file
      obtain rfl : isRegularFile = true := regular
      obtain rfl : name = fileName id := of_decide_eq_true named
      exact ⟨_, member, (carries content).mpr same⟩
    have kept (entry : DirEntry) : fileId (if entry.name = fileName id ∧ entry.isRegularFile then
        { entry with content := entry.content ++ text } else entry) = fileId entry := by
      split <;> rfl
    rw [if_pos listed, or_iff_left_of_imp present]
    simp only [Present, List.mem_map, exists_exists_and_eq_and, kept]
  · rw [if_neg listed, present_concat, carries]

theorem InStep.store {registry : Rc4FileBasedRegistry} {directory : List DirEntry}
    (inStep : InStep registry directory) {transponderId : UInt32} {rc4Payloads : List UInt64}
    (writable : ∀ entry ∈ directory,
      entry.name = fileName (registry.store directory transponderId rc4Payloads).2.2 →
        entry.isRegularFile = true) :
    InStep (registry.store directory transponderId rc4Payloads).1
      (registry.store directory transponderId rc4Payloads).2.1 := by
  intro id
  rw [Rc4FileBasedRegistry.store] at writable ⊢
  dsimp only at writable ⊢
  rw [mem_insert_iff, inStep id, present_appendFile writable]

/-! ### Runs -/

/-- A store whose file can be written, or a resync. -/
def StoresOrResyncs (storage : Rc4Storage) : StorageInput → Prop
  | .store transponderId rc4Payloads =>
    ∀ entry ∈ storage.directory, entry.name = fileName
        (storage.registry.store storage.directory transponderId rc4Payloads).2.2 →
      entry.isRegularFile = true
  | .resync listing => listing.Perm storage.directory
  | .restart => False
  | .directoryChange _ => False

/-- The id an input gave back for a payload. -/
def storedId (p : UInt64) : StorageInput × Option UInt32 → Option UInt32
  | (.store _ rc4Payloads, answer) => if p ∈ rc4Payloads then answer else none
  | _ => none

/-- The id the last store of a payload gave back in a run. -/
def lastStoredId (p : UInt64) (storage : Rc4Storage) (inputs : List StorageInput) :
    Option UInt32 :=
  (inputs.zip (answers storageStep storage inputs)).reverse.findSome? (storedId p)

theorem lastStoredId_cons (p : UInt64) (storage : Rc4Storage) (input : StorageInput)
    (rest : List StorageInput) :
    lastStoredId p storage (input :: rest) =
      (lastStoredId p (storageStep storage input).1 rest).or
        (storedId p (input, (storageStep storage input).2)) := by
  rw [lastStoredId, answers_cons, List.zip_cons_cons, List.reverse_cons, List.findSome?_append,
    List.findSome?_singleton]
  rfl

/-- A store hands its payloads to the id it gives back, a resync changes nothing, and the
registry stays in step. -/
theorem storageStep_lookup {storage : Rc4Storage} {input : StorageInput}
    (inStep : InStep storage.registry storage.directory) (allowed : StoresOrResyncs storage input)
    (p : UInt64) :
    (storageStep storage input).1.registry.lookup p =
        (storedId p (input, (storageStep storage input).2)).or (storage.registry.lookup p) ∧
      InStep (storageStep storage input).1.registry (storageStep storage input).1.directory := by
  cases input with
  | store transponderId rc4Payloads =>
    refine ⟨?_, inStep.store allowed⟩
    change ((storage.registry.base.store transponderId rc4Payloads).1).lookup p =
      (if p ∈ rc4Payloads then some (storage.registry.base.store transponderId rc4Payloads).2
        else none).or (storage.registry.lookup p)
    rw [lookup_store_returned]
    split <;> rfl
  | resync listing =>
    change (storage.registry.resync listing).lookup p = _ ∧
      InStep (storage.registry.resync listing) _
    rw [inStep.resync_eq allowed]
    exact ⟨rfl, inStep⟩
  | restart => exact allowed.elim
  | directoryChange directory => exact allowed.elim

theorem lookup_run {storage : Rc4Storage} {inputs : List StorageInput}
    (inStep : InStep storage.registry storage.directory)
    (allowed : Along storageStep StoresOrResyncs storage inputs) (p : UInt64) :
    (exec storageStep storage inputs).registry.lookup p =
      (lastStoredId p storage inputs).or (storage.registry.lookup p) := by
  induction inputs generalizing storage with
  | nil => rfl
  | cons input rest inductionHypothesis =>
    obtain ⟨first, kept⟩ := storageStep_lookup inStep allowed.1 p
    rw [exec_cons, inductionHypothesis kept allowed.2, first, lastStoredId_cons, Option.or_assoc]

/-- A second resync of an unchanged directory, in whatever order it is read, changes nothing.
After a resync, and any stores and resyncs behind it, a payload is found under the id that
the last store of it gave back, and as before when it was not stored. -/
theorem resync_idempotent (registry : Rc4FileBasedRegistry) {directory first second : List DirEntry}
    (seen : first.Perm directory) (unchanged : second.Perm directory) :
    (registry.resync first).resync second = registry.resync first ∧
      ∀ inputs, Along storageStep StoresOrResyncs ⟨registry.resync first, directory⟩ inputs →
        ∀ p, (exec storageStep ⟨registry.resync first, directory⟩ inputs).registry.lookup p =
          (lastStoredId p ⟨registry.resync first, directory⟩ inputs).or
            ((registry.resync first).lookup p) :=
  ⟨(inStep_resync seen).resync_eq unchanged, fun _ allowed p =>
    lookup_run (inStep_resync seen) allowed p⟩

/-- A file with leading zeros and one with id 0. -/
def oddFiles : List DirEntry := [
  { isRegularFile := true, name := "007.rc4".toList, content := "0000000000000001\n".toList },
  { isRegularFile := true, name := "0.rc4".toList, content := "0000000000000002".toList }]

theorem resync_idempotent_odd :
    (Rc4FileBasedRegistry.initial.resync oddFiles).resync oddFiles.reverse =
        Rc4FileBasedRegistry.initial.resync oddFiles ∧
      (exec storageStep ⟨.resync .initial oddFiles, oddFiles⟩
        [.store 0 [5], .store 7 [5]]).registry.lookup 5 = some 7 := by
  have regular : ∀ entry ∈ oddFiles, entry.isRegularFile = true := by decide
  have later : ∀ entry ∈ (storageStep ⟨.resync .initial oddFiles, oddFiles⟩
      (.store 0 [5])).1.directory, entry.isRegularFile = true := by decide +kernel
  have idempotent := resync_idempotent .initial (.refl oddFiles) (List.reverse_perm oddFiles)
  have stored := idempotent.2 [.store 0 [5], .store 7 [5]]
    ⟨fun entry member _ => regular entry member, fun entry member _ => later entry member, trivial⟩
  exact ⟨idempotent.1, (stored 5).trans (by decide +kernel)⟩

end OpenStint
