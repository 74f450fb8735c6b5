/-
This file is about RC4 transponders that the decoder has learned. The main thread stores what
it learns in the registry and in a file, and resyncs the registry with the files after every
report, while the receiving thread looks up each RC4 message that comes in.

A store adds its file, and other processes leave the `.rc4` files alone, so the registry stays in
step with the directory and a resync changes nothing, in whatever order the files are listed. Each
lookup is therefore answered with the id that was published when the payload was last learned, or
as at the start of the program, wherever the lookup falls.
-/

import OpenStint.DecoderFrames
import OpenStint.Rc4Idempotence

namespace OpenStint

open Machine

variable {R : Type}

/-! ### What has been learned -/

/-- The id that was published when a payload was learned. -/
def DecoderReport.learnedId (p : UInt64) : DecoderReport R → Option UInt32
  | .learning _ _ (.done identity transponderId) =>
    if p ∈ identity.payloads then some transponderId else none
  | _ => none

/-- The id that was published when a payload was learned last. -/
def lastLearnedId (p : UInt64) (reports : List (DecoderReport R)) : Option UInt32 :=
  reports.reverse.findSome? (DecoderReport.learnedId p)

/-- No file that a store would append to is a directory. -/
def WritableFiles (directory : List DirEntry) : Prop :=
  ∀ entry ∈ directory, ∀ id, entry.name = fileName id → entry.isRegularFile = true

/-- The entries with the extension of the files of the registry. -/
def rc4Entries (directory : List DirEntry) : List DirEntry :=
  directory.filter fun entry => (splitExtension entry.name).2 = ".rc4".toList

/-- The `.rc4` files belong to the decoder alone. Other processes may change all other files, and
the entries may come in any order. -/
def KeepsFiles (decoder : Decoder R) (input : DecoderInput R) : Prop :=
  ∀ directory, input = .directoryChange directory →
    (rc4Entries directory).Perm (rc4Entries decoder.learning.directory)

/-- What the registry answers, now and whenever it was asked. -/
structure Recognizes (directory : List DirEntry) (reports : List (DecoderReport R))
    (learning : LearningState R) : Prop where
  looked : ∀ past p found later, reports = past ++ .looked p found :: later →
    found = (lastLearnedId p past).or ((Rc4FileBasedRegistry.initial.resync directory).lookup p)
  lookup : ∀ p, learning.rc4Registry.lookup p =
    (lastLearnedId p reports).or ((Rc4FileBasedRegistry.initial.resync directory).lookup p)

theorem lastLearnedId_concat (p : UInt64) (reports : List (DecoderReport R))
    (report : DecoderReport R) :
    lastLearnedId p (reports ++ [report]) =
      (report.learnedId p).or (lastLearnedId p reports) := by
  rw [lastLearnedId, List.reverse_append, List.reverse_singleton, List.singleton_append,
    List.findSome?_cons, ← lastLearnedId]
  cases report.learnedId p <;> rfl

theorem WritableFiles.append {directory : List DirEntry} (writable : WritableFiles directory)
    (name text : List Char) : WritableFiles (appendFile directory name text) := by
  intro entry member id named
  rw [appendFile] at member
  split at member
  · obtain ⟨before, inside, rfl⟩ := List.mem_map.mp member
    have regular := writable before inside id
    split at named <;> split <;> exact regular named
  · rcases List.mem_append.mp member with old | new
    · exact writable entry old id named
    · rw [List.mem_singleton.mp new]

theorem mem_rc4Entries_of_fileId {directory : List DirEntry} {entry : DirEntry} {id : UInt32}
    (named : fileId entry = some id) : entry ∈ directory ↔ entry ∈ rc4Entries directory := by
  have extension : (splitExtension entry.name).2 = ".rc4".toList := by
    by_contra other
    simp only [fileId, ne_eq, other, not_false_eq_true, if_true, ite_self, reduceCtorEq] at named
  rw [rc4Entries, List.mem_filter, decide_eq_true_iff, and_iff_left extension]

theorem mem_rc4Entries_of_name {directory : List DirEntry} {entry : DirEntry} {id : UInt32}
    (named : entry.name = fileName id) : entry ∈ directory ↔ entry ∈ rc4Entries directory := by
  obtain ⟨isRegularFile, name, content⟩ := entry
  obtain rfl : name = fileName id := named
  have extension : (splitExtension (fileName id)).2 = ".rc4".toList :=
    congrArg Prod.snd (splitExtension_stem Nat.toDigits_ne_nil)
  rw [rc4Entries, List.mem_filter, decide_eq_true_iff, and_iff_left extension]

/-- Where the `.rc4` files are the same, so are the files of the registry. -/
theorem InStep.of_perm {registry : Rc4FileBasedRegistry} {first second : List DirEntry}
    (inStep : InStep registry first) (perm : (rc4Entries second).Perm (rc4Entries first)) :
    InStep registry second := by
  intro id
  rw [inStep id, Present, Present]
  refine exists_congr fun entry => and_congr_left fun named => ?_
  exact (mem_rc4Entries_of_fileId named).trans
    (perm.mem_iff.symm.trans (mem_rc4Entries_of_fileId named).symm)

theorem WritableFiles.of_perm {first second : List DirEntry} (writable : WritableFiles first)
    (perm : (rc4Entries second).Perm (rc4Entries first)) : WritableFiles second := by
  intro entry member id named
  refine writable entry ?_ id named
  rw [mem_rc4Entries_of_name named] at member ⊢
  exact perm.mem_iff.mp member

/-! ### One section -/

section Steps

variable [Field R] [LinearOrder R] {config : DecoderConfig R}

/-- What a section does with the registry. -/
theorem reportDetectionsStep_registry
    {computePassingPoint : List (Detection R) → PassingPoint R} {state next : LearningState R}
    {now : UInt64} {report : LearningReport R}
    (stepped : reportDetectionsStep computePassingPoint state now = some (next, report)) :
    (∃ identity transponderId asked, report = .done identity transponderId ∧
      (next.rc4Registry, next.directory, transponderId) =
        state.rc4Registry.store state.directory asked identity.payloads) ∨
    ((∀ identity transponderId, report ≠ .done identity transponderId) ∧
      next.directory = state.directory ∧
      (next.rc4Registry = state.rc4Registry ∨
        next.rc4Registry = state.rc4Registry.resync state.directory)) := by
  obtain ⟨rc4Trainer, passingDetector, rc4Registry, directory, stage⟩ := state
  cases stage with
  | reported entered =>
    obtain ⟨⟨rc4Trainer, result⟩, -, stepped⟩ := Option.bind_eq_some_iff.mp stepped
    obtain ⟨rfl, rfl⟩ := Prod.mk.inj (Option.some.inj stepped)
    exact Or.inr ⟨fun _ _ => by cases result <;> nofun, rfl, Or.inl rfl⟩
  | started =>
    obtain ⟨rssi, -, stepped⟩ := Option.bind_eq_some_iff.mp stepped
    obtain ⟨rfl, rfl⟩ := Prod.mk.inj (Option.some.inj stepped)
    exact Or.inr ⟨fun _ _ => nofun, rfl, Or.inl rfl⟩
  | collected judged transponderId payloads =>
    obtain ⟨timerange, -, stepped⟩ := Option.bind_eq_some_iff.mp stepped
    obtain ⟨rfl, rfl⟩ := Prod.mk.inj (Option.some.inj stepped)
    exact Or.inr ⟨fun _ _ => nofun, rfl, Or.inl rfl⟩
  | detected identity =>
    obtain ⟨rfl, rfl⟩ := Prod.mk.inj (Option.some.inj stepped)
    exact Or.inl ⟨identity, _, _, rfl, rfl⟩
  | finished =>
    obtain ⟨rfl, rfl⟩ := Prod.mk.inj (Option.some.inj stepped)
    exact Or.inr ⟨fun _ _ => nofun, rfl, Or.inr rfl⟩
  | idle | timesynced | done | preferred | timed =>
    obtain ⟨rfl, rfl⟩ := Prod.mk.inj (Option.some.inj stepped)
    exact Or.inr ⟨fun _ _ => nofun, rfl, Or.inl rfl⟩

/-- What a section of the decoder does with the registry, when the files are its own. -/
theorem decoderStep_registry {decoder next : Decoder R} {input : DecoderInput R}
    {report : DecoderReport R} (keeps : KeepsFiles decoder input)
    (stepped : decoderStep config decoder input = some (next, report)) :
    (∀ p found, report = .looked p found → found = decoder.learning.rc4Registry.lookup p) ∧
    ((∃ now nowSysclk identity transponderId asked,
      report = .learning now nowSysclk (.done identity transponderId) ∧
      (next.learning.rc4Registry, next.learning.directory, transponderId) =
        decoder.learning.rc4Registry.store decoder.learning.directory asked identity.payloads) ∨
    ((∀ p, report.learnedId p = none) ∧
      (rc4Entries next.learning.directory).Perm (rc4Entries decoder.learning.directory) ∧
      (next.learning.rc4Registry = decoder.learning.rc4Registry ∨
        next.learning.rc4Registry =
          decoder.learning.rc4Registry.resync decoder.learning.directory))) := by
  obtain ⟨rxStats, learning, ambrcBlacklist, receiveStage, mainStage, steady, sysclk⟩ := decoder
  cases input with
  | frame frame =>
    cases receiveStage <;>
    · obtain ⟨rfl, rfl⟩ := Prod.mk.inj (Option.some.inj stepped)
      exact ⟨fun _ _ => nofun, Or.inr ⟨fun _ => rfl, .refl _, Or.inl rfl⟩⟩
  | receive =>
    obtain ⟨rfl, rfl⟩ := Prod.mk.inj (Option.some.inj stepped)
    cases receiveStage with
    | lookup frame payload =>
      refine ⟨?_, Or.inr ⟨fun _ => rfl, .refl _, Or.inl rfl⟩⟩
      rintro _ _ ⟨rfl, rfl⟩
      rfl
    | _ => exact ⟨fun _ _ => nofun, Or.inr ⟨fun _ => rfl, .refl _, Or.inl rfl⟩⟩
  | saveChannelCharacteristics dcOffset noisePower =>
    obtain ⟨rfl, rfl⟩ := Prod.mk.inj (Option.some.inj stepped)
    exact ⟨fun _ _ => nofun, Or.inr ⟨fun _ => rfl, .refl _, Or.inl rfl⟩⟩
  | directoryChange directory =>
    obtain ⟨rfl, rfl⟩ := Prod.mk.inj (Option.some.inj stepped)
    exact ⟨fun _ _ => nofun, Or.inr ⟨fun _ => rfl, keeps directory rfl, Or.inl rfl⟩⟩
  | reportDetections now nowSysclk =>
    cases mainStage with
    | detecting =>
      obtain ⟨⟨learning, told⟩, detected, stepped⟩ := Option.bind_eq_some_iff.mp stepped
      obtain ⟨rfl, rfl⟩ := Prod.mk.inj (Option.some.inj stepped)
      refine ⟨fun _ _ => nofun, ?_⟩
      rcases reportDetectionsStep_registry detected with
        ⟨identity, transponderId, asked, rfl, stored⟩ | ⟨notDone, same⟩
      · exact Or.inl ⟨_, _, identity, transponderId, asked, rfl, stored⟩
      · refine Or.inr ⟨fun p => ?_, .of_eq (congrArg rc4Entries same.1), same.2⟩
        cases told with
        | done identity transponderId => exact absurd rfl (notDone identity transponderId)
        | _ => rfl
    | _ =>
      obtain ⟨rfl, rfl⟩ := Prod.mk.inj (Option.some.inj stepped)
      exact ⟨fun _ _ => nofun, Or.inr ⟨fun _ => rfl, .refl _, Or.inl rfl⟩⟩

/-- The registry recognizes what was learned, and is in step with files that it can write. -/
structure RecognizesInStep (directory : List DirEntry) (reports : List (DecoderReport R))
    (learning : LearningState R) : Prop extends Recognizes directory reports learning where
  inStep : InStep learning.rc4Registry learning.directory
  writable : WritableFiles learning.directory

theorem RecognizesInStep.step {directory : List DirEntry} {reports : List (DecoderReport R)}
    {decoder next : Decoder R} {input : DecoderInput R} {report : DecoderReport R}
    (recognizes : RecognizesInStep directory reports decoder.learning)
    (keeps : KeepsFiles decoder input)
    (stepped : decoderStep config decoder input = some (next, report)) :
    RecognizesInStep directory (reports ++ [report]) next.learning := by
  obtain ⟨⟨looked, lookup⟩, inStep, writable⟩ := recognizes
  obtain ⟨answered, moved⟩ := decoderStep_registry keeps stepped
  have lookedNext : ∀ past p found later, reports ++ [report] = past ++ .looked p found :: later →
      found = (lastLearnedId p past).or
        ((Rc4FileBasedRegistry.initial.resync directory).lookup p) := by
    intro past p found later split
    induction later using List.reverseRecOn with
    | nil =>
      obtain ⟨rfl, same⟩ := List.append_inj' split rfl
      rw [answered p found (List.singleton_inj.mp same), lookup]
    | append_singleton later last _ =>
      rw [← List.cons_append, ← List.append_assoc] at split
      obtain ⟨same, -⟩ := List.append_inj' split rfl
      exact looked past p found later same
  rcases moved with
    ⟨now, nowSysclk, identity, transponderId, asked, rfl, stored⟩ | ⟨silent, files, registry⟩
  · have returned : (decoder.learning.rc4Registry.store decoder.learning.directory asked
        identity.payloads).2.2 = transponderId := by rw [← stored]
    have kept := inStep.store fun entry member => writable entry member
      (decoder.learning.rc4Registry.store decoder.learning.directory asked identity.payloads).2.2
    rw [← stored] at kept
    have registry : next.learning.rc4Registry = (decoder.learning.rc4Registry.store
        decoder.learning.directory asked identity.payloads).1 := congrArg Prod.fst stored
    have filed : next.learning.directory = (decoder.learning.rc4Registry.store
        decoder.learning.directory asked identity.payloads).2.1 :=
      congrArg (fun outcome => outcome.2.1) stored
    refine ⟨⟨lookedNext, fun p => ?_⟩, kept, ?_⟩
    · have found : (decoder.learning.rc4Registry.store decoder.learning.directory asked
          identity.payloads).1.lookup p = if p ∈ identity.payloads then some
            (decoder.learning.rc4Registry.store decoder.learning.directory asked
              identity.payloads).2.2
          else decoder.learning.rc4Registry.lookup p := lookup_store_returned _ _ _ _
      rw [registry, found, returned, lookup, lastLearnedId_concat, DecoderReport.learnedId]
      split <;> rfl
    · rw [filed]
      exact writable.append _ _
  · have same : next.learning.rc4Registry = decoder.learning.rc4Registry := by
      rcases registry with same | resynced
      · exact same
      · rw [resynced, inStep.resync_eq (.refl _)]
    refine ⟨⟨lookedNext, fun p => ?_⟩, ?_, writable.of_perm files⟩
    · rw [same, lookup, lastLearnedId_concat, silent]
      rfl
    · rw [same]
      exact inStep.of_perm files

omit [LinearOrder R] in
theorem RecognizesInStep.start {directory : List DirEntry} (writable : WritableFiles directory) :
    RecognizesInStep directory [] (Decoder.start directory : Decoder R).learning where
  looked := fun past _ _ _ split => by simp at split
  lookup := fun _ => rfl
  inStep := inStep_resync (.refl directory)
  writable := writable

end Steps

/-- As long as no other process touches the `.rc4` files, every lookup of the receiving thread,
wherever it falls between the sections of the main thread, is answered with the id that was
published when the payload was last learned, or as at the start of the program when it was not.
-/
theorem learned_recognized [Field R] [LinearOrder R] [IsStrictOrderedRing R]
    (config : DecoderConfig R) {directory : List DirEntry} (writable : WritableFiles directory)
    {inputs : List (DecoderInput R)}
    (keeps : RunAlong (decoderStep config) KeepsFiles (.start directory) inputs) :
    ∃ last reports, run (decoderStep config) (.start directory) inputs = some (last, reports) ∧
      Recognizes directory reports last.learning := by
  obtain ⟨last, reports, ran, -⟩ := decoder_run config directory inputs
  have recognizes := run_kept_along
    (fun reports (decoder : Decoder R) => RecognizesInStep directory reports decoder.learning)
    (fun _ _ _ _ _ recognizes keeps stepped => recognizes.step keeps stepped)
    (RecognizesInStep.start writable) keeps ran
  exact ⟨last, reports, ran, recognizes.toRecognizes⟩

/-- A file of another process. -/
def notes : DirEntry where
  isRegularFile := true
  name := "notes.txt".toList
  content := []

/-- Another process writes a file and deletes it, a parked car is learned, and it is heard once
more. -/
noncomputable def recognizesParked : List (DecoderInput ℝ) :=
  [.directoryChange [notes], .directoryChange []] ++
    (learnsParked ++ [.frame parkedFrame, .receive])

theorem keepsFiles_learnsParked (decoder : Decoder ℝ) :
    RunAlong (decoderStep idealConfig) KeepsFiles decoder
      (learnsParked ++ [.frame parkedFrame, .receive]) := by
  refine runAlong_of_forall (fun input member state directory change => ?_) decoder
  have heard : ∀ count, .directoryChange directory ∉
      (List.replicate count hearsParked).flatten := by
    intro count member
    obtain ⟨inputs, inside, member⟩ := List.mem_flatten.mp member
    rw [List.eq_of_mem_replicate inside] at member
    simp [hearsParked] at member
  have reported : ∀ sections, .directoryChange directory ∉ reportsParked sections := by
    intro sections member
    cases List.eq_of_mem_replicate member
  rw [change, learnsParked] at member
  simp only [List.mem_append, heard, reported, false_or] at member
  simp at member

theorem run_parkedFrame {decoder : Decoder ℝ} (idle : decoder.receiveStage = .idle)
    (free : decoder.ambrcBlacklist = .initial) :
    ∃ last, run (decoderStep idealConfig) decoder [.frame parkedFrame, .receive] = some (last,
      [.accepted parkedFrame, .looked 1 (decoder.learning.rc4Registry.lookup 1)]) := by
  obtain ⟨rxStats, learning, _, _, mainStage, now, nowSysclk⟩ := decoder
  subst idle free
  refine ⟨(receiveStep idealPlatform
    ⟨rxStats, learning, .initial, .lookup parkedFrame 1, mainStage, now, nowSysclk⟩).1, ?_⟩
  simp only [run, decoderStep, idealConfig, decodeFrame_parkedFrame, Option.bind_some,
    Option.map_some]
  rfl

/-- The payload of the parked car is looked up under the id it was stored under. -/
theorem learned_recognized_parked :
    ∃ last reports transponderId, run (decoderStep idealConfig) (.start []) recognizesParked =
        some (last, reports) ∧
      .looked 1 (some transponderId) ∈ reports ∧ Recognizes [] reports last.learning := by
  have changed : run (decoderStep idealConfig) (.start [])
      [.directoryChange [notes], .directoryChange []] = some (.start [], [.quiet, .quiet]) := rfl
  have others : (rc4Entries [notes]).Perm [] := .of_eq (by decide)
  have keeps : RunAlong (decoderStep idealConfig) KeepsFiles (.start []) recognizesParked := by
    refine RunAlong.of_append ⟨?_, fun next answer stepped => ⟨?_, fun _ _ _ => trivial⟩⟩
      ⟨_, changed⟩ (keepsFiles_learnsParked _)
    · rintro _ ⟨rfl⟩
      exact others
    · obtain ⟨rfl, -⟩ := Prod.mk.inj (Option.some.inj stepped)
      rintro _ ⟨rfl⟩
      exact others.symm
  obtain ⟨last, reports, ran, recognizes⟩ := learned_recognized idealConfig
    (fun _ member => absurd member List.not_mem_nil) keeps
  obtain ⟨learned, past, identity, transponderId, ranPast, -, done, stored, idle, free⟩ :=
    run_learnsParked
  obtain ⟨_, again⟩ := run_parkedFrame idle free
  have whole := run_of_append changed (run_of_append ranPast again)
  obtain ⟨rfl, rfl⟩ := Prod.mk.inj (Option.some.inj (ran.symm.trans whole))
  have published : (lastLearnedId 1 ([.quiet, .quiet] ++ past ++ [.accepted parkedFrame])).isSome =
      true := by
    rw [lastLearnedId, List.findSome?_isSome_iff]
    refine ⟨_, List.mem_reverse.mpr (List.mem_append_left _ (List.mem_append_right _ done)), ?_⟩
    rw [DecoderReport.learnedId, if_pos stored]
    rfl
  obtain ⟨publishedId, published⟩ := Option.isSome_iff_exists.mp published
  have found := recognizes.looked ([.quiet, .quiet] ++ past ++ [.accepted parkedFrame]) 1
    (learned.learning.rc4Registry.lookup 1) [] (by simp)
  rw [published, Option.some_or] at found
  refine ⟨_, _, publishedId, ran, ?_, recognizes⟩
  rw [found]
  simp

end OpenStint
