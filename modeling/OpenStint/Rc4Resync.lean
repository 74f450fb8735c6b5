/-
This file is about one resync of the file-based registry, seen from outside. Two programs
that start on one directory need not agree: an id that owns a payload is the last file read
that lists it, and `directory_iterator` gives the files in any order. They do agree when no
payload is listed in two files.

Renaming a file is seamless. The resync is taken apart into the critical sections in which
it writes the registry; the receiving thread looks payloads up between any two of them, and
finds a renamed transponder under its old id or its new one.
-/

import Mathlib.Data.List.Pairwise
import OpenStint.Rc4Registry
import OpenStint.Rc4Text

namespace OpenStint

open Machine

/-! ### Directories -/

/-- No two entries of a directory have one name. -/
def DistinctNames (directory : List DirEntry) : Prop :=
  directory.Pairwise fun first second => first.name ≠ second.name

/-- Files that carry an id are named as `store` names them. -/
def CanonicalNames (directory : List DirEntry) : Prop :=
  ∀ entry ∈ directory, ∀ id, fileId entry = some id → entry.name = fileName id

theorem DistinctNames.eq_of_name {directory : List DirEntry} (distinct : DistinctNames directory)
    {first second : DirEntry} (firstMember : first ∈ directory) (secondMember : second ∈ directory)
    (same : first.name = second.name) : first = second := by
  by_contra different
  have symm : Std.Symm fun first second : DirEntry => first.name ≠ second.name :=
    ⟨fun _ _ => Ne.symm⟩
  exact distinct.forall firstMember secondMember different same

theorem distinctIds_of_names {directory : List DirEntry} (distinct : DistinctNames directory)
    (canonical : CanonicalNames directory) : DistinctIds directory := by
  refine List.Pairwise.imp_of_mem ?_ distinct
  intro first second firstMember secondMember different id firstNamed secondNamed
  exact different ((canonical first firstMember id firstNamed).trans
    (canonical second secondMember id secondNamed).symm)

theorem distinctIds_of_perm {first second : List DirEntry} (perm : first.Perm second)
    (distinct : DistinctIds second) : DistinctIds first :=
  (perm.pairwise_iff fun different id named again => different id again named).mpr distinct

/-- A directory lists a payload under an id. -/
def ListsUnder (directory : List DirEntry) (p : UInt64) (id : UInt32) : Prop :=
  ∃ entry ∈ directory, fileId entry = some id ∧ p ∈ filePayloads entry.content

theorem listsUnder_of_perm {first second : List DirEntry} (perm : first.Perm second)
    (p : UInt64) (id : UInt32) : ListsUnder first p id ↔ ListsUnder second p id := by
  simp only [ListsUnder, perm.mem_iff]

theorem offers_initial (entry : DirEntry) (id : UInt32) (p : UInt64) :
    Offers .initial entry id p ↔ fileId entry = some id ∧ p ∈ filePayloads entry.content :=
  and_congr_right fun _ => and_iff_right Std.TreeSet.not_mem_emptyc

/-! ### A fresh registry -/

/-- A fresh registry finds the payloads that are listed, each under an id that lists it. -/
theorem lookup_fresh {listing : List DirEntry} (distinct : DistinctIds listing) (p : UInt64)
    (proper : ¬ ListsUnder listing p 0) :
    (∀ id, Rc4FileBasedRegistry.lookup (.resync .initial listing) p = some id →
        ListsUnder listing p id) ∧
      ∀ id, ListsUnder listing p id →
        ∃ owner, Rc4FileBasedRegistry.lookup (.resync .initial listing) p = some owner := by
  have resynced := resync_entries .initial distinct p fun entry member offers =>
    proper ⟨entry, member, (offers_initial entry 0 p).mp offers⟩
  rcases resynced with ⟨entry, member, id, offers, owner⟩ | ⟨none, owner⟩
  · rw [owner]
    refine ⟨?_, fun _ _ => ⟨id, rfl⟩⟩
    rintro _ ⟨⟩
    exact ⟨entry, member, (offers_initial entry id p).mp offers⟩
  · refine ⟨fun id found => ?_, ?_⟩
    · rw [owner, lookup_initial] at found
      exact absurd found.1 (Option.some_ne_none id).symm
    · rintro id ⟨entry, member, lists⟩
      exact absurd ((offers_initial entry id p).mpr lists) (none entry member id)

/-- When no payload is listed under two ids, a fresh registry looks payloads up in the
directory. -/
theorem lookup_fresh_iff {listing : List DirEntry} (distinct : DistinctIds listing) (p : UInt64)
    (proper : ¬ ListsUnder listing p 0)
    (unshared : ∀ first second, ListsUnder listing p first → ListsUnder listing p second →
      first = second) (id : UInt32) :
    Rc4FileBasedRegistry.lookup (.resync .initial listing) p = some id ↔
      ListsUnder listing p id := by
  obtain ⟨sound, complete⟩ := lookup_fresh distinct p proper
  refine ⟨sound id, fun lists => ?_⟩
  obtain ⟨owner, found⟩ := complete id lists
  rw [found, unshared owner id (sound owner found) lists]

/-- The last file read wins. -/
theorem lookup_fresh_concat {front : List DirEntry} {last : DirEntry} {id : UInt32} {p : UInt64}
    (distinct : DistinctIds (front ++ [last])) (positive : id ≠ 0)
    (named : fileId last = some id) (lists : p ∈ filePayloads last.content) :
    Rc4FileBasedRegistry.lookup (.resync .initial (front ++ [last])) p = some id := by
  obtain ⟨-, -, fresh⟩ := List.pairwise_append.mp distinct
  have ids := load_ids .initial front
  have present : Present (front ++ [last]) id := ⟨last, by simp, named⟩
  have current := (load_ids .initial (front ++ [last]) id).1.mpr present
  rw [resync_eq, (remove_stale _ _ _).2]
  rw [List.foldl_append, List.foldl_cons, List.foldl_nil] at current ⊢
  generalize front.foldl Rc4FileBasedRegistry.loadEntry (.initial, ∅) = state at ids current ⊢
  obtain ⟨middle, currentIds⟩ := state
  have unread : id ∉ middle.loadedIds := by
    rw [(ids id).2]
    rintro (loaded | ⟨entry, member, again⟩)
    · exact Std.TreeSet.not_mem_emptyc loaded
    · exact fresh entry member last List.mem_cons_self id again named
  rw [lookup_offered ⟨named, unread, lists⟩ positive, Option.filter_some_pos]
  exact decide_eq_true (Or.inr current)

/-! ### The order of the directory -/

/-- A directory as `store` makes one: files of distinct positive ids. -/
structure StoredFiles (directory : List DirEntry) : Prop where
  named : ∀ entry ∈ directory, ∃ id, id ≠ 0 ∧ entry.isRegularFile = true ∧
    entry.name = fileName id
  distinct : DistinctNames directory

theorem StoredFiles.fileId_of_mem {directory : List DirEntry} (stored : StoredFiles directory)
    {entry : DirEntry} (member : entry ∈ directory) :
    ∃ id, id ≠ 0 ∧ fileId entry = some id ∧ entry.name = fileName id := by
  obtain ⟨id, positive, regular, name⟩ := stored.named entry member
  obtain ⟨isRegularFile, entryName, content⟩ := entry
  subst regular name
  exact ⟨id, positive, fileId_fileName id content, rfl⟩

theorem StoredFiles.canonical {directory : List DirEntry} (stored : StoredFiles directory) :
    CanonicalNames directory := by
  intro entry member id named
  obtain ⟨other, -, again, name⟩ := stored.fileId_of_mem member
  rw [name, Option.some.inj (named.symm.trans again)]

theorem StoredFiles.proper {directory : List DirEntry} (stored : StoredFiles directory)
    (p : UInt64) : ¬ ListsUnder directory p 0 := by
  rintro ⟨entry, member, named, -⟩
  obtain ⟨id, positive, again, -⟩ := stored.fileId_of_mem member
  exact positive (Option.some.inj (again.symm.trans named))

/-- Some order reads a given file last, and its id then owns what it lists. -/
theorem exists_order_of_listsUnder {directory : List DirEntry} (stored : StoredFiles directory)
    {p : UInt64} {id : UInt32} (lists : ListsUnder directory p id) :
    ∃ listing, listing.Perm directory ∧
      Rc4FileBasedRegistry.lookup (.resync .initial listing) p = some id := by
  obtain ⟨entry, member, named, listed⟩ := lists
  have perm : (directory.erase entry ++ [entry]).Perm directory :=
    (List.perm_append_singleton _ _).trans (List.perm_cons_erase member).symm
  have positive : id ≠ 0 := by
    rintro rfl
    exact stored.proper p ⟨entry, member, named, listed⟩
  exact ⟨_, perm, lookup_fresh_concat (distinctIds_of_perm perm
    (distinctIds_of_names stored.distinct stored.canonical)) positive named listed⟩

/-- Whatever the order in which a directory of stored files is read, a fresh registry finds
the same, exactly when no payload is listed in two files. -/
theorem resync_order_iff {directory : List DirEntry} (stored : StoredFiles directory) :
    (∀ first second : List DirEntry, first.Perm directory → second.Perm directory → ∀ p,
        Rc4FileBasedRegistry.lookup (.resync .initial first) p =
          Rc4FileBasedRegistry.lookup (.resync .initial second) p) ↔
      ∀ p first second, ListsUnder directory p first → ListsUnder directory p second →
        first = second := by
  constructor
  · intro same p first second firstLists secondLists
    obtain ⟨firstOrder, firstPerm, firstOwner⟩ := exists_order_of_listsUnder stored firstLists
    obtain ⟨secondOrder, secondPerm, secondOwner⟩ := exists_order_of_listsUnder stored secondLists
    have owners := same firstOrder secondOrder firstPerm secondPerm p
    rw [firstOwner, secondOwner] at owners
    exact Option.some.inj owners
  · intro unshared first second firstPerm secondPerm p
    have distinct := distinctIds_of_names stored.distinct stored.canonical
    have read : ∀ listing : List DirEntry, listing.Perm directory → ∀ id,
        Rc4FileBasedRegistry.lookup (.resync .initial listing) p = some id ↔
          ListsUnder directory p id := by
      intro listing perm id
      have lists := listsUnder_of_perm perm p
      rw [lookup_fresh_iff (distinctIds_of_perm perm distinct) p
        (by rw [lists]; exact stored.proper p)
        (fun first second => by rw [lists, lists]; exact unshared p first second), lists]
    refine Option.ext fun id => ?_
    rw [read first firstPerm, read second secondPerm]

/-- The first file alone. -/
theorem storedFiles_first : StoredFiles [firstFile.entry] where
  named := by
    intro entry member
    rw [List.mem_singleton.mp member]
    exact ⟨1000, by decide, rfl, by decide +kernel⟩
  distinct := List.pairwise_singleton _ _

theorem resync_order_iff_first :
    (∀ first second : List DirEntry, first.Perm [firstFile.entry] →
        second.Perm [firstFile.entry] → ∀ p,
        Rc4FileBasedRegistry.lookup (.resync .initial first) p =
          Rc4FileBasedRegistry.lookup (.resync .initial second) p) ↔
      ∀ p first second, ListsUnder [firstFile.entry] p first →
        ListsUnder [firstFile.entry] p second → first = second :=
  resync_order_iff storedFiles_first

/-- Two files that list the same payload: the payload belongs to the one read last. -/
theorem resync_order_matters :
    ¬ ∀ directory : List DirEntry, StoredFiles directory →
      ∀ first second : List DirEntry, first.Perm directory → second.Perm directory → ∀ p,
        Rc4FileBasedRegistry.lookup (.resync .initial first) p =
          Rc4FileBasedRegistry.lookup (.resync .initial second) p := by
  intro always
  have stored : StoredFiles [firstFile.entry, secondFile.entry] :=
    { named := by
        intro entry member
        rcases List.mem_cons.mp member with rfl | later
        · exact ⟨1000, by decide, rfl, by decide +kernel⟩
        · rw [List.mem_singleton.mp later]
          exact ⟨1001, by decide, rfl, by decide +kernel⟩
      distinct := List.pairwise_pair.mpr (by decide) }
  have same := always _ stored [firstFile.entry, secondFile.entry]
    [secondFile.entry, firstFile.entry] (.refl _) (.swap _ _ _) 1
  exact absurd same (by decide +kernel)

/-! ### A resync, one critical section at a time -/

/-- Where the main thread is in a resync. -/
inductive ResyncStage
  | loading (entries : List DirEntry) (currentIds : Std.TreeSet UInt32)
  | removing (ids : List UInt32) (currentIds : Std.TreeSet UInt32)
  | finished

structure ResyncState where
  registry : Rc4FileBasedRegistry
  stage : ResyncStage

/-- The next turn of the main thread: a turn of the loading loop stores at most once, and a
turn of the removing loop removes at most once. -/
def resyncTurn (state : ResyncState) : ResyncState :=
  match state.stage with
  | .loading (entry :: rest) currentIds =>
    let (registry, currentIds) := Rc4FileBasedRegistry.loadEntry (state.registry, currentIds) entry
    { registry, stage := .loading rest currentIds }
  | .loading [] currentIds =>
    { state with stage := .removing state.registry.loadedIds.toList currentIds }
  | .removing (id :: rest) currentIds =>
    { registry := Rc4FileBasedRegistry.removeStale currentIds state.registry id
      stage := .removing rest currentIds }
  | .removing [] _ => { state with stage := .finished }
  | .finished => state

/-- The next turn of the main thread, or a lookup of the receiving thread. -/
inductive ResyncInput
  | turn
  | lookup (rc4Payload : UInt64)

/-- A lookup answers with what it finds. -/
def resyncStep (state : ResyncState) : ResyncInput → ResyncState × Option UInt32
  | .turn => (resyncTurn state, none)
  | .lookup rc4Payload => (state, state.registry.lookup rc4Payload)

def resyncStart (registry : Rc4FileBasedRegistry) (directory : List DirEntry) : ResyncState where
  registry
  stage := .loading directory ∅

/-- The registry when the turns that are left have been taken. -/
def ResyncState.outcome (state : ResyncState) : Rc4FileBasedRegistry :=
  match state.stage with
  | .loading entries currentIds =>
    let (registry, currentIds) :=
      entries.foldl Rc4FileBasedRegistry.loadEntry (state.registry, currentIds)
    registry.loadedIds.toList.foldl (Rc4FileBasedRegistry.removeStale currentIds) registry
  | .removing ids currentIds =>
    ids.foldl (Rc4FileBasedRegistry.removeStale currentIds) state.registry
  | .finished => state.registry

theorem outcome_resyncTurn (state : ResyncState) :
    (resyncTurn state).outcome = state.outcome := by
  obtain ⟨registry, stage⟩ := state
  match stage with
  | .loading (entry :: rest) currentIds => rfl
  | .loading [] currentIds => rfl
  | .removing (id :: rest) currentIds => rfl
  | .removing [] currentIds => rfl
  | .finished => rfl

/-- Whatever is looked up in between, the turns do what `resync` does. -/
theorem outcome_exec (registry : Rc4FileBasedRegistry) (directory : List DirEntry)
    (inputs : List ResyncInput) :
    (exec resyncStep (resyncStart registry directory) inputs).outcome =
      registry.resync directory := by
  refine exec_invariant (fun state : ResyncState => state.outcome = registry.resync directory)
    (fun state input same => ?_) rfl inputs
  cases input with
  | turn => exact (outcome_resyncTurn state).trans same
  | lookup rc4Payload => exact same

theorem exec_removing (currentIds : Std.TreeSet UInt32) (ids : List UInt32)
    (registry : Rc4FileBasedRegistry) :
    exec resyncStep ⟨registry, .removing ids currentIds⟩
        (List.replicate (ids.length + 1) .turn) =
      ⟨ids.foldl (Rc4FileBasedRegistry.removeStale currentIds) registry, .finished⟩ := by
  induction ids generalizing registry with
  | nil => rfl
  | cons id rest inductionHypothesis =>
    rw [List.length_cons, List.replicate_succ, exec_cons]
    exact inductionHypothesis _

theorem exec_loading (entries : List DirEntry) (registry : Rc4FileBasedRegistry)
    (currentIds : Std.TreeSet UInt32) :
    exec resyncStep ⟨registry, .loading entries currentIds⟩
        (List.replicate (entries.length + 1) .turn) =
      ⟨(entries.foldl Rc4FileBasedRegistry.loadEntry (registry, currentIds)).1,
        .removing (entries.foldl Rc4FileBasedRegistry.loadEntry
            (registry, currentIds)).1.loadedIds.toList
          (entries.foldl Rc4FileBasedRegistry.loadEntry (registry, currentIds)).2⟩ := by
  induction entries generalizing registry currentIds with
  | nil => rfl
  | cons entry rest inductionHypothesis =>
    rw [List.length_cons, List.replicate_succ, exec_cons]
    exact inductionHypothesis _ _

/-- The turns come to an end, from wherever the main thread is. -/
theorem exists_turns (state : ResyncState) :
    ∃ count, exec resyncStep state (List.replicate count .turn) = ⟨state.outcome, .finished⟩ := by
  obtain ⟨registry, stage⟩ := state
  match stage with
  | .loading entries currentIds =>
    refine ⟨entries.length + 1 + ((entries.foldl Rc4FileBasedRegistry.loadEntry
      (registry, currentIds)).1.loadedIds.toList.length + 1), ?_⟩
    rw [← List.replicate_append_replicate, exec_append, exec_loading, exec_removing]
    rfl
  | .removing ids currentIds => exact ⟨ids.length + 1, exec_removing currentIds ids registry⟩
  | .finished => exact ⟨0, rfl⟩

/-- Whatever is looked up in between, a resync ends with what `resync` returns. -/
theorem exec_turns (registry : Rc4FileBasedRegistry) (directory : List DirEntry)
    (inputs : List ResyncInput) :
    ∃ count, exec resyncStep (resyncStart registry directory)
        (inputs ++ List.replicate count .turn) = ⟨registry.resync directory, .finished⟩ := by
  obtain ⟨count, finished⟩ := exists_turns (exec resyncStep (resyncStart registry directory) inputs)
  exact ⟨count, by rw [exec_append, finished, outcome_exec]⟩

/-! ### Renaming a file -/

/-- Renaming a file of a directory. -/
def renameFile (directory : List DirEntry) (old new : List Char) : List DirEntry :=
  directory.map fun entry => if entry.name = old then { entry with name := new } else entry

/-- The file under its new name. -/
def renamed (file : DirEntry) (new : UInt32) : DirEntry := { file with name := fileName new }

/-- A registry in step with a directory, and a file of it that gets an id not loaded. -/
structure FileMove (registry : Rc4FileBasedRegistry) (directory : List DirEntry) (file : DirEntry)
    (old new : UInt32) : Prop where
  distinct : DistinctNames directory
  canonical : CanonicalNames directory
  synced : ∀ id, id ∈ registry.loadedIds ↔ Present directory id
  member : file ∈ directory
  named : fileId file = some old
  positive : new ≠ 0
  fresh : new ∉ registry.loadedIds

theorem isRegularFile_of_fileId {entry : DirEntry} {id : UInt32} (named : fileId entry = some id) :
    entry.isRegularFile = true := by
  by_contra other
  rw [Bool.not_eq_true] at other
  rw [fileId, other] at named
  simp at named

theorem fileId_renamed {file : DirEntry} {old : UInt32} (named : fileId file = some old)
    (new : UInt32) : fileId (renamed file new) = some new := by
  have regular := isRegularFile_of_fileId named
  obtain ⟨isRegularFile, name, content⟩ := file
  change isRegularFile = true at regular
  subst regular
  exact fileId_fileName new content

namespace FileMove

variable {registry : Rc4FileBasedRegistry} {directory listing : List DirEntry} {file : DirEntry}
  {old new : UInt32}

theorem old_loaded (move : FileMove registry directory file old new) :
    old ∈ registry.loadedIds :=
  (move.synced old).mpr ⟨file, move.member, move.named⟩

theorem new_ne_old (move : FileMove registry directory file old new) : new ≠ old := by
  rintro rfl
  exact move.fresh move.old_loaded

/-- The file is the only entry with its id. -/
theorem eq_of_fileId (move : FileMove registry directory file old new) {entry : DirEntry}
    (member : entry ∈ directory) (named : fileId entry = some old) : entry = file :=
  move.distinct.eq_of_name member move.member ((move.canonical entry member old named).trans
    (move.canonical file move.member old move.named).symm)

/-- The entries after the renaming: the file under its new name, and the others. -/
theorem mem_listing (move : FileMove registry directory file old new)
    (perm : listing.Perm (renameFile directory (fileName old) (fileName new))) (entry : DirEntry) :
    entry ∈ listing ↔ entry = renamed file new ∨ entry ∈ directory ∧ entry ≠ file := by
  have name : file.name = fileName old := move.canonical file move.member old move.named
  rw [perm.mem_iff, renameFile, List.mem_map]
  constructor
  · rintro ⟨before, member, rfl⟩
    by_cases same : before.name = fileName old
    · rw [if_pos same, move.distinct.eq_of_name member move.member (same.trans name.symm)]
      exact Or.inl rfl
    · rw [if_neg same]
      refine Or.inr ⟨member, ?_⟩
      rintro rfl
      exact same name
  · rintro (rfl | ⟨member, different⟩)
    · exact ⟨file, move.member, if_pos name⟩
    · exact ⟨entry, member, if_neg fun same =>
        different (move.distinct.eq_of_name member move.member (same.trans name.symm))⟩

/-- The entry an id belongs to after the renaming. -/
theorem fileId_listing (move : FileMove registry directory file old new)
    (perm : listing.Perm (renameFile directory (fileName old) (fileName new))) {entry : DirEntry}
    (member : entry ∈ listing) {id : UInt32} (named : fileId entry = some id) :
    entry = renamed file new ∧ id = new ∨ id ∈ registry.loadedIds ∧ id ≠ old := by
  rcases (move.mem_listing perm entry).mp member with rfl | ⟨before, different⟩
  · exact Or.inl ⟨rfl, Option.some.inj (named.symm.trans (fileId_renamed move.named new))⟩
  · refine Or.inr ⟨(move.synced id).mpr ⟨entry, before, named⟩, ?_⟩
    rintro rfl
    exact different (move.eq_of_fileId before named)

theorem renamed_mem (move : FileMove registry directory file old new)
    (perm : listing.Perm (renameFile directory (fileName old) (fileName new))) :
    renamed file new ∈ listing :=
  (move.mem_listing perm _).mpr (Or.inl rfl)

theorem present_iff (move : FileMove registry directory file old new)
    (perm : listing.Perm (renameFile directory (fileName old) (fileName new))) (id : UInt32) :
    Present listing id ↔ id = new ∨ id ∈ registry.loadedIds ∧ id ≠ old := by
  constructor
  · rintro ⟨entry, member, named⟩
    exact (move.fileId_listing perm member named).imp_left And.right
  · rintro (rfl | ⟨loaded, different⟩)
    · exact ⟨_, move.renamed_mem perm, fileId_renamed move.named _⟩
    · obtain ⟨entry, member, named⟩ := (move.synced id).mp loaded
      refine ⟨entry, (move.mem_listing perm entry).mpr (Or.inr ⟨member, ?_⟩), named⟩
      rintro rfl
      exact different (Option.some.inj (named.symm.trans move.named))

/-- The resync reads the renamed file and no other. -/
theorem offers_iff (move : FileMove registry directory file old new)
    (perm : listing.Perm (renameFile directory (fileName old) (fileName new))) {entry : DirEntry}
    (member : entry ∈ listing) (id : UInt32) (p : UInt64) :
    Offers registry entry id p ↔
      entry = renamed file new ∧ id = new ∧ p ∈ filePayloads file.content := by
  constructor
  · rintro ⟨named, unread, lists⟩
    rcases move.fileId_listing perm member named with ⟨rfl, rfl⟩ | ⟨loaded, -⟩
    · exact ⟨rfl, rfl, lists⟩
    · exact absurd loaded unread
  · rintro ⟨rfl, rfl, lists⟩
    exact ⟨fileId_renamed move.named _, move.fresh, lists⟩

theorem distinct_listing (move : FileMove registry directory file old new)
    (perm : listing.Perm (renameFile directory (fileName old) (fileName new))) :
    DistinctIds listing := by
  have unread : ∀ entry ∈ directory, fileId entry ≠ some new := fun entry member named =>
    move.fresh ((move.synced new).mpr ⟨entry, member, named⟩)
  have ids := distinctIds_of_names move.distinct move.canonical
  refine distinctIds_of_perm perm (List.pairwise_map.mpr ?_)
  refine List.Pairwise.imp_of_mem ?_ (ids.and move.distinct)
  rintro first second firstMember secondMember ⟨different, names⟩ id firstNamed secondNamed
  have name : file.name = fileName old := move.canonical file move.member old move.named
  have moved : ∀ entry ∈ directory, entry.name = fileName old →
      fileId { entry with name := fileName new } = some new := by
    intro entry member same
    rw [move.distinct.eq_of_name member move.member (same.trans name.symm)]
    exact fileId_renamed move.named new
  by_cases firstMoved : first.name = fileName old
  · have secondKept : second.name ≠ fileName old := fun same =>
      names (firstMoved.trans same.symm)
    rw [if_pos firstMoved, moved first firstMember firstMoved] at firstNamed
    rw [if_neg secondKept, ← firstNamed] at secondNamed
    exact unread second secondMember secondNamed
  · rw [if_neg firstMoved] at firstNamed
    by_cases secondMoved : second.name = fileName old
    · rw [if_pos secondMoved, moved second secondMember secondMoved] at secondNamed
      rw [← secondNamed] at firstNamed
      exact unread first firstMember firstNamed
    · rw [if_neg secondMoved] at secondNamed
      exact different id firstNamed secondNamed

/-- After the resync the payloads of the file are found under its new id, nothing under the
old one, and the other payloads as before. -/
theorem lookup_resync (move : FileMove registry directory file old new)
    (perm : listing.Perm (renameFile directory (fileName old) (fileName new))) (p : UInt64) :
    (p ∈ filePayloads file.content → (registry.resync listing).lookup p = some new) ∧
      (registry.resync listing).lookup p ≠ some old ∧
      (p ∉ filePayloads file.content → registry.lookup p ≠ some old →
        (registry.resync listing).lookup p = registry.lookup p) := by
  have offers := fun entry (member : entry ∈ listing) id => move.offers_iff perm member id p
  rcases resync_entries registry (move.distinct_listing perm) p (fun entry member => by
    rw [offers entry member]
    exact fun zero => move.positive zero.2.1.symm) with
    ⟨entry, member, id, offered, owner⟩ | ⟨none, owner⟩
  · obtain ⟨-, rfl, lists⟩ := (offers entry member id).mp offered
    rw [owner]
    refine ⟨fun _ => rfl, fun same => move.new_ne_old (Option.some.inj same), ?_⟩
    exact fun unlisted => absurd lists unlisted
  · simp only [move.present_iff perm] at owner
    refine ⟨fun lists => ?_, fun found => ?_, fun _ other => ?_⟩
    · exact absurd ((offers _ (move.renamed_mem perm) new).mpr ⟨rfl, rfl, lists⟩)
        (none _ (move.renamed_mem perm) new)
    · rcases ((owner old).mp found).2 move.old_loaded with same | ⟨-, different⟩
      · exact move.new_ne_old same.symm
      · exact different rfl
    · refine Option.ext fun id => (owner id).trans (and_iff_left_of_imp fun before loaded => ?_)
      refine Or.inr ⟨loaded, ?_⟩
      rintro rfl
      exact other before

end FileMove

/-! ### Lookups while a renamed file is read -/

/-- Until the renamed file is read its payload has the old owner and the other files are
loaded; from then on the payload has the new owner, which is there to stay. -/
def Seamless (file : DirEntry) (old new : UInt32) (p : UInt64) (state : ResyncState) : Prop :=
  match state.stage with
  | .loading entries currentIds =>
    (∀ entry ∈ entries, ∀ id, fileId entry = some id →
        entry = file ∨ id ∈ state.registry.loadedIds) ∧
      ((file ∈ entries ∧ new ∉ state.registry.loadedIds ∧ state.registry.lookup p = some old) ∨
        (new ∈ currentIds ∧ new ∈ state.registry.loadedIds ∧
          state.registry.lookup p = some new))
  | .removing _ currentIds => new ∈ currentIds ∧ state.registry.lookup p = some new
  | .finished => state.registry.lookup p = some new

theorem Seamless.lookup {file : DirEntry} {old new : UInt32} {p : UInt64} {state : ResyncState}
    (seamless : Seamless file old new p state) :
    state.registry.lookup p = some old ∨ state.registry.lookup p = some new := by
  obtain ⟨registry, stage⟩ := state
  cases stage with
  | loading entries currentIds =>
    exact seamless.2.imp (fun before => before.2.2) fun after => after.2.2
  | removing ids currentIds => exact Or.inr seamless.2
  | finished => exact Or.inr seamless

/-- A turn of the loading loop leaves the payload as it is, or reads the renamed file and
hands the payload over. -/
theorem Seamless.load {file : DirEntry} {old new : UInt32} {p : UInt64}
    (named : fileId file = some new) (positive : new ≠ 0) (lists : p ∈ filePayloads file.content)
    {registry : Rc4FileBasedRegistry} {entry : DirEntry} {rest : List DirEntry}
    {currentIds : Std.TreeSet UInt32}
    (seamless : Seamless file old new p ⟨registry, .loading (entry :: rest) currentIds⟩) :
    Seamless file old new p (resyncTurn ⟨registry, .loading (entry :: rest) currentIds⟩) := by
  obtain ⟨others, owner⟩ := seamless
  dsimp only at others owner
  have later : ∀ other ∈ rest, ∀ id, fileId other = some id →
      other = file ∨ id ∈ registry.loadedIds := fun other member =>
    others other (List.mem_cons_of_mem _ member)
  have inRest : entry ≠ file → file ∈ entry :: rest → file ∈ rest := fun different member =>
    (List.mem_cons.mp member).resolve_left different.symm
  rw [resyncTurn]
  dsimp only
  cases carried : fileId entry with
  | none =>
    rw [loadEntry_skipped carried]
    have different : entry ≠ file := by
      rintro rfl
      exact absurd (named.symm.trans carried) (Option.some_ne_none new)
    exact ⟨later, owner.imp_left fun before => ⟨inRest different before.1, before.2⟩⟩
  | some id =>
    by_cases loaded : id ∈ registry.loadedIds
    · rw [loadEntry_loaded carried loaded]
      refine ⟨later, owner.imp (fun before => ?_) fun after => ?_⟩
      · refine ⟨inRest ?_ before.1, before.2⟩
        rintro rfl
        rw [Option.some.inj (named.symm.trans carried)] at before
        exact before.2.1 loaded
      · exact ⟨(mem_insert_iff _ _ _).mpr (Or.inl after.1), after.2⟩
    · -- every other file is loaded, so this is the renamed one
      obtain rfl : entry = file := (others entry List.mem_cons_self id carried).resolve_right loaded
      obtain rfl : new = id := Option.some.inj (named.symm.trans carried)
      have offers : Offers registry entry new p := ⟨named, loaded, lists⟩
      have found := lookup_offered offers positive currentIds
      rw [loadEntry_read carried loaded] at found ⊢
      refine ⟨fun other member id otherNamed => ?_, Or.inr ⟨?_, ?_, found⟩⟩
      · exact (later other member id otherNamed).imp_right fun known =>
          (mem_insert_iff _ _ _).mpr (Or.inl known)
      · exact (mem_insert_iff _ _ _).mpr (Or.inr rfl)
      · exact (mem_insert_iff _ _ _).mpr (Or.inr rfl)

theorem Seamless.turn {file : DirEntry} {old new : UInt32} {p : UInt64}
    (named : fileId file = some new) (positive : new ≠ 0) (lists : p ∈ filePayloads file.content)
    {state : ResyncState} (seamless : Seamless file old new p state) :
    Seamless file old new p (resyncTurn state) := by
  obtain ⟨registry, stage⟩ := state
  match stage with
  | .loading (entry :: rest) currentIds => exact seamless.load named positive lists
  | .loading [] currentIds =>
    rcases seamless.2 with ⟨member, -⟩ | ⟨current, -, owner⟩
    · exact absurd member List.not_mem_nil
    · exact ⟨current, owner⟩
  | .removing (id :: rest) currentIds =>
    obtain ⟨current, owner⟩ := seamless
    refine ⟨current, ?_⟩
    change (Rc4FileBasedRegistry.removeStale currentIds registry id).lookup p = some new
    rw [Rc4FileBasedRegistry.removeStale]
    by_cases here : currentIds.contains id = true
    · rw [if_pos here]
      exact owner
    · have different : new ≠ id := by
        rintro rfl
        exact here (Std.TreeSet.contains_iff_mem.mpr current)
      rw [if_neg here]
      change (registry.base.remove id).lookup p = some new
      rw [lookup_remove]
      change Option.filter _ (registry.lookup p) = some new
      rw [owner, Option.filter_some_pos]
      exact decide_eq_true different
  | .removing [] currentIds => exact seamless.2
  | .finished => exact seamless

/-- In every interleaving of a resync and lookups behind the renaming of a file, a payload
of the file that had the old id is found under the old id or the new one. -/
theorem FileMove.lookups {registry : Rc4FileBasedRegistry} {directory listing : List DirEntry}
    {file : DirEntry} {old new : UInt32} (move : FileMove registry directory file old new)
    (perm : listing.Perm (renameFile directory (fileName old) (fileName new))) {p : UInt64}
    (lists : p ∈ filePayloads file.content) (owned : registry.lookup p = some old)
    (inputs : List ResyncInput) :
    Seamless (renamed file new) old new p
      (exec resyncStep (resyncStart registry listing) inputs) := by
  have start : Seamless (renamed file new) old new p (resyncStart registry listing) :=
    ⟨fun _ member _ named => (move.fileId_listing perm member named).imp And.left And.left,
      Or.inl ⟨move.renamed_mem perm, move.fresh, owned⟩⟩
  refine exec_invariant (Seamless (renamed file new) old new p) (fun state input seamless => ?_)
    start inputs
  cases input with
  | turn => exact seamless.turn (fileId_renamed move.named new) move.positive lists
  | lookup rc4Payload => exact seamless

/-- A registry that has just resynced with a directory, and one of its files renamed to an
id that is not loaded. After the next resync, in whatever order it reads the files, the
payloads of the file are found under the new id, no payload is found under the old one, and
all others are found as before; and a lookup between any two critical sections of that
resync finds a payload of the file that had the old id under the old id or the new one, and the
sections come to an end with the registry that the resync returns. -/
theorem rename_seamless (registry : Rc4FileBasedRegistry)
    (directory listing relisting : List DirEntry) (file : DirEntry) (old new : UInt32)
    (distinct : DistinctNames directory) (canonical : CanonicalNames directory)
    (perm : listing.Perm directory) (member : file ∈ directory) (named : fileId file = some old)
    (positive : new ≠ 0) (fresh : new ∉ (registry.resync listing).loadedIds)
    (moved : relisting.Perm (renameFile directory (fileName old) (fileName new))) (p : UInt64) :
    (p ∈ filePayloads file.content →
        ((registry.resync listing).resync relisting).lookup p = some new) ∧
      ((registry.resync listing).resync relisting).lookup p ≠ some old ∧
      (p ∉ filePayloads file.content → (registry.resync listing).lookup p ≠ some old →
        ((registry.resync listing).resync relisting).lookup p =
          (registry.resync listing).lookup p) ∧
      (p ∈ filePayloads file.content → (registry.resync listing).lookup p = some old →
        ∀ inputs : List ResyncInput,
          (exec resyncStep (resyncStart (registry.resync listing) relisting) inputs).registry.lookup
              p = some old ∨
            (exec resyncStep (resyncStart (registry.resync listing) relisting)
              inputs).registry.lookup p = some new) ∧
      ∀ inputs : List ResyncInput, ∃ count,
        exec resyncStep (resyncStart (registry.resync listing) relisting)
            (inputs ++ List.replicate count .turn) =
          ⟨(registry.resync listing).resync relisting, .finished⟩ := by
  have move : FileMove (registry.resync listing) directory file old new :=
    { distinct, canonical, member, named, positive, fresh
      synced := fun id => by
        rw [loadedIds_resync]
        simp only [Present, perm.mem_iff] }
  obtain ⟨found, gone, others⟩ := move.lookup_resync moved p
  exact ⟨found, gone, others, fun lists owned inputs =>
    (move.lookups moved lists owned inputs).lookup, exec_turns _ relisting⟩

/-- `1000.rc4` renamed to `1002.rc4`. -/
theorem rename_seamless_1002 :
    (1 ∈ filePayloads firstFile.entry.content →
        ((Rc4FileBasedRegistry.initial.resync [firstFile.entry]).resync
          [renamed firstFile.entry 1002]).lookup 1 = some 1002) ∧
      ((Rc4FileBasedRegistry.initial.resync [firstFile.entry]).resync
          [renamed firstFile.entry 1002]).lookup 1 ≠ some 1000 ∧
      (1 ∉ filePayloads firstFile.entry.content →
        (Rc4FileBasedRegistry.initial.resync [firstFile.entry]).lookup 1 ≠ some 1000 →
        ((Rc4FileBasedRegistry.initial.resync [firstFile.entry]).resync
          [renamed firstFile.entry 1002]).lookup 1 =
            (Rc4FileBasedRegistry.initial.resync [firstFile.entry]).lookup 1) ∧
      (1 ∈ filePayloads firstFile.entry.content →
        (Rc4FileBasedRegistry.initial.resync [firstFile.entry]).lookup 1 = some 1000 →
        ∀ inputs : List ResyncInput,
          (exec resyncStep (resyncStart (Rc4FileBasedRegistry.initial.resync [firstFile.entry])
              [renamed firstFile.entry 1002]) inputs).registry.lookup 1 = some 1000 ∨
            (exec resyncStep (resyncStart (Rc4FileBasedRegistry.initial.resync [firstFile.entry])
              [renamed firstFile.entry 1002]) inputs).registry.lookup 1 = some 1002) ∧
      ∀ inputs : List ResyncInput, ∃ count,
        exec resyncStep (resyncStart (Rc4FileBasedRegistry.initial.resync [firstFile.entry])
            [renamed firstFile.entry 1002]) (inputs ++ List.replicate count .turn) =
          ⟨(Rc4FileBasedRegistry.initial.resync [firstFile.entry]).resync
            [renamed firstFile.entry 1002], .finished⟩ :=
  rename_seamless .initial [firstFile.entry] [firstFile.entry] [renamed firstFile.entry 1002]
    firstFile.entry 1000 1002 storedFiles_first.distinct storedFiles_first.canonical (.refl _)
    List.mem_cons_self firstFile.named (by decide)
    (by
      rw [loadedIds_resync]
      rintro ⟨entry, member, named⟩
      rw [List.mem_singleton.mp member, firstFile.named] at named
      exact absurd named (by decide))
    (by
      rw [show renameFile [firstFile.entry] (fileName 1000) (fileName 1002) =
        [renamed firstFile.entry 1002] by decide +kernel]) 1

end OpenStint
