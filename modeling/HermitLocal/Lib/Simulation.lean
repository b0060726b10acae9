import Mathlib.Data.List.Basic

/-! Deterministic machines that answer each input with an output, and functional
refinement between them: related states give equal outputs and related
successors, hence equal traces. Runs whose every step is allowed keep what an
allowed step keeps; a step that may fail ends the run when it does. -/

namespace HermitLocal.Lib.Simulation
open List Option

structure Machine (State Input Output : Type) where
  step : State → Input → Output × State

variable {State Other Input Output : Type}

namespace Machine

def trace (machine : Machine State Input Output) : State → List Input → List Output
  | _, [] => []
  | state, input :: rest =>
      (machine.step state input).1 :: machine.trace (machine.step state input).2 rest

def final (machine : Machine State Input Output) : State → List Input → State
  | state, [] => state
  | state, input :: rest => machine.final (machine.step state input).2 rest

end Machine

structure Refines (concrete : Machine State Input Output) (abstract : Machine Other Input Output)
    (related : State → Other → Prop) : Prop where
  output : ∀ state other input, related state other →
    (concrete.step state input).1 = (abstract.step other input).1
  next : ∀ state other input, related state other →
    related (concrete.step state input).2 (abstract.step other input).2

variable {concrete : Machine State Input Output} {abstract : Machine Other Input Output}
  {related : State → Other → Prop}

variable {state : State} {other : Other} {inputs past : List Input} {holds : State → Prop} {input : Input}

theorem Refines.final (refines : Refines concrete abstract related) (inputs : List Input)
    (start : related state other) : related (concrete.final state inputs) (abstract.final other inputs) := by
  induction inputs generalizing state other with
  | nil => exact start
  | cons input rest ih => exact ih (refines.next state other input start)

theorem Refines.trace (refines : Refines concrete abstract related) (inputs : List Input)
    (start : related state other) : concrete.trace state inputs = abstract.trace other inputs := by
  induction inputs generalizing state other with
  | nil => rfl
  | cons input rest ih =>
    rw [Machine.trace, Machine.trace, refines.output state other input start,
      ih (refines.next state other input start)]

theorem Refines.indistinguishable (refines : Refines concrete abstract related) (inputs : List Input)
    {first second : State} (firstRelated : related first other) (secondRelated : related second other) :
    concrete.trace first inputs = concrete.trace second inputs := by
  rw [refines.trace inputs firstRelated, refines.trace inputs secondRelated]

section Guarded
variable {step : State → Input → State} {allowed : State → Input → Prop}

def Guarded (step : State → Input → State) (allowed : State → Input → Prop) : State → List Input → Prop
  | _, [] => True
  | state, input :: rest => allowed state input ∧ Guarded step allowed (step state input) rest

theorem Guarded.invariant {holds : List Input → State → Prop}
    (keeps : ∀ past state input, holds past state → allowed state input → holds (past ++ [input]) (step state input))
    (start : holds past state) (guarded : Guarded step allowed state inputs) :
    holds (past ++ inputs) (inputs.foldl step state) := by
  induction inputs generalizing past state with
  | nil => rwa [append_nil]
  | cons input rest ih =>
    have next := ih (keeps past state input start guarded.1) guarded.2
    rwa [append_assoc] at next

theorem Guarded.preserves (keeps : ∀ state input, holds state → allowed state input → holds (step state input))
    (start : holds state) (guarded : Guarded step allowed state inputs) : holds (inputs.foldl step state) := by
  induction inputs generalizing state with
  | nil => exact start
  | cons input rest ih => exact ih (keeps state input start guarded.1) guarded.2

theorem guarded_append {rest : List Input} : Guarded step allowed state (past ++ rest) ↔
    Guarded step allowed state past ∧ Guarded step allowed (past.foldl step state) rest := by
  induction past generalizing state with
  | nil => exact ⟨fun later => ⟨trivial, later⟩, And.right⟩
  | cons input more ih =>
    rw [cons_append, Guarded, Guarded, ih, foldl_cons, and_assoc]

theorem Guarded.concat (guarded : Guarded step allowed state inputs)
    (last : allowed (inputs.foldl step state) input) : Guarded step allowed state (inputs ++ [input]) :=
  guarded_append.mpr ⟨guarded, last, trivial⟩

theorem Guarded.at_prefix (guarded : Guarded step allowed state inputs) (early : past ++ [input] <+: inputs) :
    Guarded step allowed state past ∧ allowed (past.foldl step state) input := by
  obtain ⟨rest, rfl⟩ := early
  rw [append_assoc, guarded_append] at guarded
  exact ⟨guarded.1, guarded.2.1⟩

theorem guarded_iff_guarded {other : State → Input → Prop}
    (keeps : ∀ state input, holds state → allowed state input → holds (step state input))
    (agree : ∀ state input, holds state → (other state input ↔ allowed state input)) (start : holds state) :
    Guarded step other state inputs ↔ Guarded step allowed state inputs := by
  induction inputs generalizing state with
  | nil => exact Iff.rfl
  | cons input rest ih =>
    unfold Guarded
    rw [agree state input start]
    apply and_congr_right
    intro permitted
    exact ih (keeps state input start permitted)

theorem guarded_iff_implied {good : State → Prop} (implied : ∀ state, holds state → good state)
    (keeps : ∀ state input, holds state → allowed state input → holds (step state input))
    (forces : ∀ state input, holds state → good (step state input) → allowed state input)
    (start : holds state) (inputs : List Input) :
    (∀ past, past <+: inputs → good (past.foldl step state)) ↔ Guarded step allowed state inputs := by
  induction inputs generalizing state with
  | nil =>
    constructor
    · exact fun _ => trivial
    · intro _ past early
      rw [prefix_nil.mp early]
      exact implied state start
  | cons input rest ih =>
    constructor
    · intro throughout
      have permitted := forces state input start (throughout [input] (prefix_append [input] rest))
      apply And.intro permitted
      apply (ih (keeps state input start permitted)).mp
      intro past early
      exact throughout (input :: past) ((prefix_cons_inj input).mpr early)
    · intro guarded past early
      cases past with
      | nil => exact implied state start
      | cons first more =>
        obtain ⟨rfl, behind⟩ := cons_prefix_cons.mp early
        exact (ih (keeps state first start guarded.1)).mpr guarded.2 more behind

theorem guarded_iff_throughout
    (keeps : ∀ state input, holds state → (holds (step state input) ↔ allowed state input))
    (start : holds state) (inputs : List Input) :
    (∀ past, past <+: inputs → holds (past.foldl step state)) ↔ Guarded step allowed state inputs := by
  apply guarded_iff_implied (fun _ now => now) _ _ start
  · intro state input now
    exact (keeps state input now).mpr
  · intro state input now
    exact (keeps state input now).mp

end Guarded

section Partial
variable {perform : State → Input → Option State}

def attempt (perform : State → Input → Option State) (state : Option State) (input : Input) : Option State :=
  state.bind (perform · input)

def IfAny (holds : State → Prop) (state : Option State) : Prop := ∀ reached, state = some reached → holds reached

theorem run_failed (inputs : List Input) : inputs.foldl (attempt perform) none = none := by
  induction inputs with
  | nil => rfl
  | cons input rest ih => exact ih

theorem run_cons {last : State} {rest : List Input} :
    (input :: rest).foldl (attempt perform) (some state) = some last ↔
      ∃ next, perform state input = some next ∧ rest.foldl (attempt perform) (some next) = some last := by
  rw [foldl_cons, show attempt perform (some state) input = perform state input from rfl]
  cases ran : perform state input with
  | none =>
    rw [run_failed]
    constructor
    · intro absent
      cases absent
    · rintro ⟨next, absent, -⟩
      cases absent
  | some next =>
    constructor
    · intro reached
      exact ⟨next, rfl, reached⟩
    · rintro ⟨other, same, reached⟩
      rwa [some.inj same]

theorem run_invariant (keeps : ∀ state input next, holds state → perform state input = some next → holds next)
    {last : State} (start : holds state) (reached : inputs.foldl (attempt perform) (some state) = some last) :
    holds last := by
  induction inputs generalizing state with
  | nil => exact some.inj reached ▸ start
  | cons input rest ih =>
    obtain ⟨next, ran, more⟩ := run_cons.mp reached
    exact ih (keeps state input next start ran) more

theorem run_total {holds : List Input → State → Prop}
    (steps : ∀ past state input, holds past state → ∃ next, perform state input = some next ∧ holds (past ++ [input]) next)
    (start : holds past state) (inputs : List Input) :
    ∃ last, inputs.foldl (attempt perform) (some state) = some last ∧ holds (past ++ inputs) last := by
  induction inputs generalizing past state with
  | nil => exact ⟨state, rfl, by rwa [append_nil]⟩
  | cons input rest ih =>
    obtain ⟨next, ran, after⟩ := steps past state input start
    obtain ⟨last, reached, held⟩ := ih after
    rw [append_assoc] at held
    exact ⟨last, run_cons.mpr ⟨next, ran, reached⟩, held⟩

theorem ifAny_attempt {allowed : Option State → Input → Prop}
    (keeps : ∀ state input next, holds state → allowed (some state) input → perform state input = some next → holds next)
    (state : Option State) (input : Input) (now : IfAny holds state) (permitted : allowed state input) :
    IfAny holds (attempt perform state input) := by
  intro next stepped
  obtain ⟨reached, rfl, ran⟩ := bind_eq_some_iff.mp stepped
  exact keeps reached input next (now reached rfl) permitted ran

theorem ifAny_some (now : holds state) : IfAny holds (some state) := by
  intro reached same
  rwa [← some.inj same]

end Partial

end HermitLocal.Lib.Simulation
