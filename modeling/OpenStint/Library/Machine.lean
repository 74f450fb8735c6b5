/-
This file is about runs of a deterministic machine. A machine reads one input at a
time, moves to its next state and answers; a run is a list of inputs, and an
interleaving of two threads that share the machine is a run whose inputs come from
both. A property that every step keeps holds after every run, and a condition on the
state before a step and its input can be asked along a whole run.

The second part is about machines whose steps may be undefined. A run of one is defined
as long as an invariant makes every step of it defined.
-/

import Mathlib.Data.List.Induction

namespace Machine

variable {State Input Answer : Type*} (step : State → Input → State × Answer)

/-- The state after a run. -/
def exec (start : State) (inputs : List Input) : State :=
  inputs.foldl (fun state input => (step state input).1) start

/-- The answers of a run, one for each input. -/
def answers (start : State) : List Input → List Answer
  | [] => []
  | input :: rest => (step start input).2 :: answers (step start input).1 rest

@[simp] theorem exec_nil (start : State) : exec step start [] = start := rfl

@[simp] theorem exec_cons (start : State) (input : Input) (rest : List Input) :
    exec step start (input :: rest) = exec step (step start input).1 rest := rfl

theorem exec_append (start : State) (first second : List Input) :
    exec step start (first ++ second) = exec step (exec step start first) second :=
  List.foldl_append

@[simp] theorem exec_concat (start : State) (inputs : List Input) (last : Input) :
    exec step start (inputs ++ [last]) = (step (exec step start inputs) last).1 := by
  rw [exec_append, exec_cons, exec_nil]

@[simp] theorem answers_nil (start : State) : answers step start [] = [] := rfl

@[simp] theorem answers_cons (start : State) (input : Input) (rest : List Input) :
    answers step start (input :: rest) =
      (step start input).2 :: answers step (step start input).1 rest := rfl

theorem answers_append (start : State) (first second : List Input) :
    answers step start (first ++ second) =
      answers step start first ++ answers step (exec step start first) second := by
  induction first generalizing start with
  | nil => rfl
  | cons input rest inductionHypothesis =>
    rw [List.cons_append, answers_cons, answers_cons, exec_cons, inductionHypothesis,
      List.cons_append]

@[simp] theorem answers_concat (start : State) (inputs : List Input) (last : Input) :
    answers step start (inputs ++ [last]) =
      answers step start inputs ++ [(step (exec step start inputs) last).2] := by
  rw [answers_append, answers_cons, answers_nil]

/-- At every step of a run, a property of the state before the step and of its input. -/
def Along (Good : State → Input → Prop) (start : State) : List Input → Prop
  | [] => True
  | input :: rest => Good start input ∧ Along Good (step start input).1 rest

variable {step}

/-- A condition on a step that only asks about its answer is one on the answers of a run. -/
theorem along_iff_answers {Good : State → Input → Prop} {Fits : Answer → Prop}
    (same : ∀ state input, Good state input ↔ Fits (step state input).2) (start : State)
    (inputs : List Input) :
    Along step Good start inputs ↔ ∀ answer ∈ answers step start inputs, Fits answer := by
  induction inputs generalizing start with
  | nil => simp [Along]
  | cons input rest inductionHypothesis =>
    rw [Along, answers_cons, List.forall_mem_cons, same, inductionHypothesis]

/-- A condition on a step that only asks about its input is one on the inputs of a run. -/
theorem along_iff_inputs {Good : State → Input → Prop} {Fits : Input → Prop}
    (same : ∀ state input, Good state input ↔ Fits input) (start : State) (inputs : List Input) :
    Along step Good start inputs ↔ ∀ input ∈ inputs, Fits input := by
  induction inputs generalizing start with
  | nil => simp [Along]
  | cons input rest inductionHypothesis =>
    rw [Along, List.forall_mem_cons, same, inductionHypothesis]

/-! ### Invariants -/

/-- A property that every step keeps holds after every run from a state that has it. -/
theorem exec_invariant (Invariant : State → Prop)
    (preserved : ∀ state input, Invariant state → Invariant (step state input).1)
    {start : State} (initial : Invariant start) (inputs : List Input) :
    Invariant (exec step start inputs) := by
  induction inputs generalizing start with
  | nil => exact initial
  | cons input rest inductionHypothesis =>
    exact inductionHypothesis (preserved start input initial)

/-- A property that ties the state to the inputs read and the answers given so far holds after
every run, when every step keeps it. -/
theorem answers_invariant (Invariant : List Input → List Answer → State → Prop)
    (preserved : ∀ past answers state input, Invariant past answers state →
      Invariant (past ++ [input]) (answers ++ [(step state input).2]) (step state input).1)
    {start : State} (initial : Invariant [] [] start) (inputs : List Input) :
    Invariant inputs (answers step start inputs) (exec step start inputs) := by
  induction inputs using List.reverseRecOn with
  | nil => exact initial
  | append_singleton inputs input inductionHypothesis =>
    rw [answers_concat, exec_concat]
    exact preserved _ _ _ _ inductionHypothesis

/-- Where every step that meets a condition has a property and keeps an invariant, every
step of a run that meets the condition throughout has the property. -/
theorem along_of_invariant (Invariant : State → Prop) {Good Holds : State → Input → Prop}
    (preserved : ∀ state input, Invariant state → Good state input →
      Holds state input ∧ Invariant (step state input).1)
    {start : State} (initial : Invariant start) {inputs : List Input}
    (good : Along step Good start inputs) : Along step Holds start inputs := by
  induction inputs generalizing start with
  | nil => trivial
  | cons input rest inductionHypothesis =>
    obtain ⟨holds, kept⟩ := preserved start input initial good.1
    exact ⟨holds, inductionHypothesis kept good.2⟩

/-- Two conditions that an invariant makes the same are the same along every run whose
inputs keep the invariant. -/
theorem along_iff_of_invariant (Invariant : State → Prop) {Fits : Input → Prop}
    {First Second : State → Input → Prop}
    (preserved : ∀ state input, Invariant state → Fits input →
      (First state input ↔ Second state input) ∧ Invariant (step state input).1)
    {start : State} (initial : Invariant start) {inputs : List Input}
    (fit : ∀ input ∈ inputs, Fits input) :
    Along step First start inputs ↔ Along step Second start inputs := by
  induction inputs generalizing start with
  | nil => rfl
  | cons input rest inductionHypothesis =>
    rw [List.forall_mem_cons] at fit
    obtain ⟨same, kept⟩ := preserved start input initial fit.1
    exact and_congr same (inductionHypothesis kept fit.2)

/-! ### Machines that can fail -/

section Partial

variable {State Input Answer : Type*} (step : State → Input → Option (State × Answer))

/-- A run of a machine whose steps may be undefined: the state after it and its answers. -/
def run (start : State) : List Input → Option (State × List Answer)
  | [] => some (start, [])
  | input :: rest =>
    (step start input).bind fun (next, answer) =>
      (run next rest).map fun (last, answers) => (last, answer :: answers)

theorem run_append (start : State) (first second : List Input) :
    run step start (first ++ second) =
      (run step start first).bind fun (middle, answers) =>
        (run step middle second).map fun (last, later) => (last, answers ++ later) := by
  induction first generalizing start with
  | nil => simp [run]
  | cons input rest inductionHypothesis =>
    rw [List.cons_append, run, run]
    cases step start input with
    | none => rfl
    | some reached =>
      simp only [Option.bind_some, inductionHypothesis]
      cases run step reached.1 rest <;> simp [Function.comp_def]

theorem run_concat (start : State) (inputs : List Input) (last : Input) :
    run step start (inputs ++ [last]) =
      (run step start inputs).bind fun (state, answers) =>
        (step state last).map fun (next, answer) => (next, answers ++ [answer]) := by
  rw [run_append]
  refine Option.bind_congr fun reached _ => ?_
  cases stepped : step reached.1 last with
  | none => simp [run, stepped]
  | some next => simp [run, stepped]

/-- A run answers every input. -/
theorem length_of_run {start last : State} {inputs : List Input} {answers : List Answer}
    (ran : run step start inputs = some (last, answers)) : answers.length = inputs.length := by
  induction inputs generalizing start answers with
  | nil =>
    obtain ⟨-, rfl⟩ := Prod.mk.inj (Option.some.inj ran)
    rfl
  | cons input rest inductionHypothesis =>
    rw [run] at ran
    obtain ⟨⟨next, answer⟩, -, ran⟩ := Option.bind_eq_some_iff.mp ran
    obtain ⟨⟨_, later⟩, ranLater, same⟩ := Option.map_eq_some_iff.mp ran
    obtain ⟨rfl, rfl⟩ := Prod.mk.inj same
    rw [List.length_cons, List.length_cons, inductionHypothesis ranLater]

variable {step}

theorem run_next {start state next : State} {inputs : List Input} {input : Input}
    {answers : List Answer} {answer : Answer} (ran : run step start inputs = some (state, answers))
    (stepped : step state input = some (next, answer)) :
    run step start (inputs ++ [input]) = some (next, answers ++ [answer]) := by
  rw [run_concat, ran, Option.bind_some]
  dsimp only
  rw [stepped, Option.map_some]

/-- A run that goes on from where another one ended. -/
theorem run_of_append {start middle last : State} {first second : List Input}
    {answers later : List Answer} (reached : run step start first = some (middle, answers))
    (ran : run step middle second = some (last, later)) :
    run step start (first ++ second) = some (last, answers ++ later) := by
  rw [run_append, reached, Option.bind_some]
  dsimp only
  rw [ran, Option.map_some]

/-- A run that can be longer by an input has a step for it. -/
theorem step_of_run {start state : State} {inputs : List Input} {input : Input}
    {answers : List Answer} (ran : run step start inputs = some (state, answers))
    (longer : ∃ last later, run step start (inputs ++ [input]) = some (last, later)) :
    ∃ next answer, step state input = some (next, answer) := by
  obtain ⟨last, later, longer⟩ := longer
  rw [run_concat, ran, Option.bind_some] at longer
  obtain ⟨⟨next, answer⟩, stepped, -⟩ := Option.map_eq_some_iff.mp longer
  exact ⟨next, answer, stepped⟩

/-- Runs of two machines, where every step of the one is the step of the other, seen through a
map of the states. -/
theorem run_map {Other : Type*} {step' : Other → Input → Option (Other × Answer)}
    {view : State → Other}
    (same : ∀ state input, step' (view state) input = (step state input).map (Prod.map view id))
    (start : State) (inputs : List Input) :
    run step' (view start) inputs = (run step start inputs).map (Prod.map view id) := by
  induction inputs generalizing start with
  | nil => rfl
  | cons input rest inductionHypothesis =>
    rw [run, run, same]
    cases step start input with
    | none => rfl
    | some reached =>
      simp only [Option.map_some, Option.bind_some, Prod.map_fst, Prod.map_snd, id,
        inductionHypothesis, Option.map_map]
      rfl

/-- Every run is defined and keeps a property that ties the state to the inputs read and the
answers given so far. -/
theorem run_inputs (Invariant : List Input → List Answer → State → Prop) (inputs : List Input)
    (preserved : ∀ past answers state input, past ++ [input] <+: inputs →
      Invariant past answers state →
      ∃ next answer, step state input = some (next, answer) ∧
        Invariant (past ++ [input]) (answers ++ [answer]) next)
    {start : State} (initial : Invariant [] [] start) :
    ∃ last answers, run step start inputs = some (last, answers) ∧
      Invariant inputs answers last := by
  have upTo : ∀ past, past <+: inputs →
      ∃ last answers, run step start past = some (last, answers) ∧
        Invariant past answers last := by
    intro past
    induction past using List.reverseRecOn with
    | nil => exact fun _ => ⟨start, [], rfl, initial⟩
    | append_singleton past input inductionHypothesis =>
      intro inside
      obtain ⟨state, answers, reached, holds⟩ :=
        inductionHypothesis ((List.prefix_append past [input]).trans inside)
      obtain ⟨next, answer, stepped, kept⟩ := preserved past answers state input inside holds
      exact ⟨next, answers ++ [answer], by simp [run_concat, reached, stepped], kept⟩
  exact upTo inputs List.prefix_rfl

/-- The same for a property of the answers alone, when every step from such a state is
defined and keeps it. -/
theorem run_history (Invariant : List Answer → State → Prop)
    (preserved : ∀ past state input, Invariant past state →
      ∃ next answer, step state input = some (next, answer) ∧ Invariant (past ++ [answer]) next)
    {start : State} (initial : Invariant [] start) (inputs : List Input) :
    ∃ last answers, run step start inputs = some (last, answers) ∧ Invariant answers last :=
  run_inputs (fun _ => Invariant) inputs (fun _ _ state input _ => preserved _ state input) initial

/-- What holds of the elements of a list, of their places and of what stands before them, when the
list grows. -/
theorem forall_getElem?_concat {Element : Type*} (Holds : Nat → List Element → Element → Prop)
    (elements : List Element) (last : Element) :
    (∀ i element, (elements ++ [last])[i]? = some element →
        Holds i ((elements ++ [last]).take i) element) ↔
      (∀ i element, elements[i]? = some element → Holds i (elements.take i) element) ∧
        Holds elements.length elements last := by
  constructor
  · refine fun holds => ⟨fun i element found => ?_, ?_⟩
    · have inside := (List.getElem?_eq_some_iff.mp found).1
      have kept := holds i element (by rw [List.getElem?_append_left inside, found])
      rwa [List.take_append_of_le_length (Nat.le_of_lt inside)] at kept
    · have kept := holds elements.length last List.getElem?_concat_length
      rwa [List.take_left] at kept
  · rintro ⟨holds, holdsLast⟩ i element found
    rcases Nat.lt_trichotomy i elements.length with inside | rfl | outside
    · rw [List.getElem?_append_left inside] at found
      rw [List.take_append_of_le_length (Nat.le_of_lt inside)]
      exact holds i element found
    · rw [List.getElem?_concat_length] at found
      rwa [List.take_left, ← Option.some.inj found]
    · rw [List.getElem?_eq_none (by rw [List.length_append, List.length_singleton]; omega)]
        at found
      cases found

/-- Where every step, from a state that follows from the inputs so far, answers what they tell, and
fails where they tell nothing, a run is defined if and only if something is told at every input,
and then these are its answers. -/
theorem run_tells (Follows : List Input → State → Prop)
    (tells : List Input → Input → Option Answer)
    (preserved : ∀ past state input, Follows past state →
      (step state input).map Prod.snd = tells past input ∧
        ∀ next answer, step state input = some (next, answer) → Follows (past ++ [input]) next)
    {start : State} (initial : Follows [] start) (inputs : List Input) :
    ((run step start inputs).isSome ↔
        ∀ i input, inputs[i]? = some input → (tells (inputs.take i) input).isSome) ∧
      ∀ last answers, run step start inputs = some (last, answers) → Follows inputs last ∧
        ∀ i input, inputs[i]? = some input → answers[i]? = tells (inputs.take i) input := by
  induction inputs using List.reverseRecOn with
  | nil =>
    refine ⟨iff_of_true rfl (fun i input found => nomatch found), fun last answers ran => ?_⟩
    obtain ⟨rfl, rfl⟩ := Prod.mk.inj (Option.some.inj ran)
    exact ⟨initial, fun i input found => nomatch found⟩
  | append_singleton inputs input inductionHypothesis =>
    obtain ⟨defined, told⟩ := inductionHypothesis
    rw [forall_getElem?_concat fun _ past input => (tells past input).isSome, ← defined,
      run_concat]
    cases reached : run step start inputs with
    | none => exact ⟨iff_of_false (by simp) (by simp), fun last answers ran => by cases ran⟩
    | some reach =>
      obtain ⟨state, answers⟩ := reach
      obtain ⟨follows, told⟩ := told state answers reached
      obtain ⟨answered, kept⟩ := preserved inputs state input follows
      have long := length_of_run step reached
      rw [Option.bind_some, Option.isSome_map, ← answered, Option.isSome_map]
      refine ⟨by simp, fun last longer ran => ?_⟩
      obtain ⟨⟨next, answer⟩, stepped, same⟩ := Option.map_eq_some_iff.mp ran
      obtain ⟨rfl, rfl⟩ := Prod.mk.inj same
      refine ⟨kept next answer stepped, (forall_getElem?_concat
        (fun i past input => (answers ++ [answer])[i]? = tells past input) inputs input).mpr
        ⟨fun i other found => ?_, ?_⟩⟩
      · rw [List.getElem?_append_left (long.symm ▸ (List.getElem?_eq_some_iff.mp found).1),
          told i other found]
      · rw [← long, List.getElem?_concat_length, ← answered, stepped]
        rfl

/-- Where every step is defined and gives an answer that has a property, given the inputs and the
answers before it, every answer of a run has it. -/
theorem run_answers (Follows : List Input → List Answer → State → Prop)
    (Holds : List Input → Input → List Answer → Answer → Prop)
    (preserved : ∀ past answers state input, Follows past answers state →
      ∃ next answer, step state input = some (next, answer) ∧
        Follows (past ++ [input]) (answers ++ [answer]) next ∧ Holds past input answers answer)
    {start : State} (initial : Follows [] [] start) (inputs : List Input) :
    ∃ last answers, run step start inputs = some (last, answers) ∧
      ∀ i input, inputs[i]? = some input →
        ∃ answer, answers[i]? = some answer ∧
          Holds (inputs.take i) input (answers.take i) answer := by
  obtain ⟨last, answers, ran, -, -, holds⟩ := run_inputs
    (fun past answers state => Follows past answers state ∧ answers.length = past.length ∧
      ∀ i input, past[i]? = some input → ∃ answer, answers[i]? = some answer ∧
        Holds (past.take i) input (answers.take i) answer) inputs
    (fun past answers state input _ kept => by
      obtain ⟨follows, long, holds⟩ := kept
      obtain ⟨next, answer, stepped, followsNext, holdsNext⟩ :=
        preserved past answers state input follows
      refine ⟨next, answer, stepped, followsNext, by simp [long], (forall_getElem?_concat
        (fun i past input => ∃ other, (answers ++ [answer])[i]? = some other ∧
          Holds past input ((answers ++ [answer]).take i) other) past input).mpr
        ⟨fun i earlier found => ?_, answer, ?_, ?_⟩⟩
      · obtain ⟨other, answered, holds⟩ := holds i earlier found
        have inside := (List.getElem?_eq_some_iff.mp answered).1
        refine ⟨other, by rw [List.getElem?_append_left inside, answered], ?_⟩
        rwa [List.take_append_of_le_length (Nat.le_of_lt inside)]
      · rw [← long, List.getElem?_concat_length]
      · rwa [← long, List.take_left])
    ⟨initial, rfl, fun i input found => nomatch found⟩
  exact ⟨last, answers, ran, holds⟩

/-- `Along` for a machine whose steps may be undefined: as far as the run is defined. -/
def RunAlong (step : State → Input → Option (State × Answer)) (Good : State → Input → Prop)
    (start : State) : List Input → Prop
  | [] => True
  | input :: rest => Good start input ∧
    ∀ next answer, step start input = some (next, answer) → RunAlong step Good next rest

theorem RunAlong.cons {Good : State → Input → Prop} {start next : State} {input : Input}
    {answer : Answer} {rest : List Input} (along : RunAlong step Good start (input :: rest))
    (stepped : step start input = some (next, answer)) : RunAlong step Good next rest :=
  along.2 next answer stepped

/-- A run is defined and ends in a state. -/
def Leads (step : State → Input → Option (State × Answer)) (start : State) (inputs : List Input)
    (last : State) : Prop :=
  ∃ answers, run step start inputs = some (last, answers)

theorem Leads.nil (start : State) : Leads step start [] start := ⟨[], rfl⟩

theorem Leads.cons {start next last : State} {input : Input} {answer : Answer} {rest : List Input}
    (stepped : step start input = some (next, answer)) (leads : Leads step next rest last) :
    Leads step start (input :: rest) last := by
  obtain ⟨answers, ran⟩ := leads
  refine ⟨answer :: answers, ?_⟩
  rw [run, stepped, Option.bind_some]
  dsimp only
  rw [ran, Option.map_some]

theorem Leads.append {start middle last : State} {first second : List Input}
    (leads : Leads step start first middle) (more : Leads step middle second last) :
    Leads step start (first ++ second) last := by
  obtain ⟨answers, reached⟩ := leads
  obtain ⟨later, ran⟩ := more
  exact ⟨answers ++ later, run_of_append reached ran⟩

theorem RunAlong.append {Good : State → Input → Prop} {start middle : State}
    {first second : List Input} (along : RunAlong step Good start (first ++ second))
    (leads : Leads step start first middle) : RunAlong step Good middle second := by
  obtain ⟨answers, reached⟩ := leads
  induction first generalizing start answers with
  | nil =>
    obtain ⟨rfl, -⟩ := Prod.mk.inj (Option.some.inj reached)
    exact along
  | cons input rest inductionHypothesis =>
    rw [run] at reached
    obtain ⟨⟨next, answer⟩, stepped, reached⟩ := Option.bind_eq_some_iff.mp reached
    obtain ⟨⟨last, later⟩, ran, same⟩ := Option.map_eq_some_iff.mp reached
    obtain ⟨rfl, -⟩ := Prod.mk.inj same
    exact inductionHypothesis (along.cons stepped) later ran

theorem RunAlong.of_append {Good : State → Input → Prop} {start middle : State}
    {first second : List Input} (along : RunAlong step Good start first)
    (leads : Leads step start first middle) (more : RunAlong step Good middle second) :
    RunAlong step Good start (first ++ second) := by
  obtain ⟨answers, reached⟩ := leads
  induction first generalizing start answers with
  | nil =>
    obtain ⟨rfl, -⟩ := Prod.mk.inj (Option.some.inj reached)
    exact more
  | cons input rest inductionHypothesis =>
    rw [run] at reached
    obtain ⟨⟨next, answer⟩, stepped, reached⟩ := Option.bind_eq_some_iff.mp reached
    obtain ⟨⟨last, later⟩, ran, same⟩ := Option.map_eq_some_iff.mp reached
    obtain ⟨rfl, -⟩ := Prod.mk.inj same
    refine ⟨along.1, fun reachedNext other steppedOther => ?_⟩
    obtain ⟨rfl, rfl⟩ := Prod.mk.inj (Option.some.inj (stepped.symm.trans steppedOther))
    exact inductionHypothesis (along.cons stepped) later ran

/-- Inputs that are good in every state are good along every run. -/
theorem runAlong_of_forall {Good : State → Input → Prop} {inputs : List Input}
    (good : ∀ input ∈ inputs, ∀ state, Good state input) (start : State) :
    RunAlong step Good start inputs := by
  induction inputs generalizing start with
  | nil => trivial
  | cons input rest inductionHypothesis =>
    exact ⟨good input List.mem_cons_self start, fun next _ _ =>
      inductionHypothesis (fun other member => good other (List.mem_cons_of_mem _ member)) next⟩

/-- Where every step that meets a condition has a property and keeps an invariant, every
step of a run that meets the condition throughout has the property. -/
theorem runAlong_of_invariant (Invariant : State → Prop) {Good Holds : State → Input → Prop}
    (preserved : ∀ state input, Invariant state → Good state input → Holds state input ∧
      ∀ next answer, step state input = some (next, answer) → Invariant next)
    {start : State} (initial : Invariant start) {inputs : List Input}
    (good : RunAlong step Good start inputs) : RunAlong step Holds start inputs := by
  induction inputs generalizing start with
  | nil => trivial
  | cons input rest inductionHypothesis =>
    obtain ⟨holds, kept⟩ := preserved start input initial good.1
    exact ⟨holds, fun next answer stepped =>
      inductionHypothesis (kept next answer stepped) (good.cons stepped)⟩

/-- A property that ties the state to the inputs read and the answers given so far holds after a
run, when every step keeps it. -/
theorem run_kept_inputs (Invariant : List Input → List Answer → State → Prop)
    (preserved : ∀ past answers state input next answer, answers.length = past.length →
      Invariant past answers state → step state input = some (next, answer) →
      Invariant (past ++ [input]) (answers ++ [answer]) next)
    {start last : State} (initial : Invariant [] [] start) {inputs : List Input}
    {answers : List Answer} (ran : run step start inputs = some (last, answers)) :
    Invariant inputs answers last := by
  induction inputs using List.reverseRecOn generalizing last answers with
  | nil =>
    obtain ⟨rfl, rfl⟩ := Prod.mk.inj (Option.some.inj ran)
    exact initial
  | append_singleton inputs input inductionHypothesis =>
    rw [run_concat] at ran
    obtain ⟨⟨state, past⟩, reached, ran⟩ := Option.bind_eq_some_iff.mp ran
    obtain ⟨⟨next, answer⟩, stepped, same⟩ := Option.map_eq_some_iff.mp ran
    obtain ⟨rfl, rfl⟩ := Prod.mk.inj same
    exact preserved inputs past state input next answer (length_of_run _ reached)
      (inductionHypothesis reached) stepped

/-- The same for a property of the answers alone. -/
theorem run_kept (Invariant : List Answer → State → Prop)
    (preserved : ∀ past state input next answer, Invariant past state →
      step state input = some (next, answer) → Invariant (past ++ [answer]) next)
    {start last : State} (initial : Invariant [] start) {inputs : List Input}
    {answers : List Answer} (ran : run step start inputs = some (last, answers)) :
    Invariant answers last :=
  run_kept_inputs (fun _ => Invariant)
    (fun _ past state input next answer _ => preserved past state input next answer) initial ran

/-- The same along a run that meets a condition throughout. -/
theorem run_kept_along (Invariant : List Answer → State → Prop) {Good : State → Input → Prop}
    (preserved : ∀ past state input next answer, Invariant past state → Good state input →
      step state input = some (next, answer) → Invariant (past ++ [answer]) next)
    {start last : State} (initial : Invariant [] start) {inputs : List Input}
    (good : RunAlong step Good start inputs) {answers : List Answer}
    (ran : run step start inputs = some (last, answers)) : Invariant answers last := by
  have later : ∀ past, Invariant past start → Invariant (past ++ answers) last := by
    clear initial
    induction inputs generalizing start answers with
    | nil =>
      obtain ⟨rfl, rfl⟩ := Prod.mk.inj (Option.some.inj ran)
      exact fun past holds => (List.append_nil past).symm ▸ holds
    | cons input rest inductionHypothesis =>
      intro past holds
      rw [run] at ran
      obtain ⟨⟨next, answer⟩, stepped, ran⟩ := Option.bind_eq_some_iff.mp ran
      obtain ⟨⟨_, later⟩, ranLater, same⟩ := Option.map_eq_some_iff.mp ran
      obtain ⟨rfl, rfl⟩ := Prod.mk.inj same
      have kept := preserved past start input next answer holds good.1 stepped
      rw [← List.singleton_append, ← List.append_assoc]
      exact inductionHypothesis (good.cons stepped) ranLater _ kept
  exact later [] initial

end Partial

end Machine
