import Mathlib.Logic.Function.Basic

/-! Programs with a state that may fail and keep the state they fail in: how they run in sequence. -/

namespace HermitLocal.Lib.Program

variable {ε σ α β : Type}

variable {first : EStateM ε σ α} {state last : σ}

theorem bind_eq_ok {next : α → EStateM ε σ β} {result : β} : (first >>= next) state = .ok result last ↔
      ∃ value between, first state = .ok value between ∧ next value between = .ok result last := by
  change EStateM.bind first next state = _ ↔ _
  rw [EStateM.bind]
  cases first state with
  | ok value between =>
    constructor
    · intro ran
      exact ⟨value, between, rfl, ran⟩
    · intro ran
      obtain ⟨other, middle, same, ran⟩ := ran
      cases same
      exact ran
  | error error between => simp

theorem bind_eq_error {next : α → EStateM ε σ β} {error : ε} :
    (first >>= next) state = .error error last ↔ first state = .error error last ∨
      ∃ value between, first state = .ok value between ∧ next value between = .error error last := by
  change EStateM.bind first next state = _ ↔ _
  rw [EStateM.bind]
  cases first state with
  | ok value between =>
    constructor
    · intro ran
      exact .inr ⟨value, between, rfl, ran⟩
    · intro ran
      obtain absurd | ⟨other, middle, same, ran⟩ := ran
      · cases absurd
      · cases same
        exact ran
  | error error between => simp

theorem bind_of_ok {between : σ} {value : α} (started : first state = .ok value between)
    (next : α → EStateM ε σ β) : (first >>= next) state = next value between := by
  change EStateM.bind first next state = _
  rw [EStateM.bind, started]

theorem bind_of_error {error : ε} (failed : first state = .error error last) (next : α → EStateM ε σ β) :
    (first >>= next) state = .error error last := by
  change EStateM.bind first next state = _
  rw [EStateM.bind, failed]

theorem modify_bind (change : σ → σ) (next : Unit → EStateM ε σ β) (state : σ) :
    ((modify change : EStateM ε σ Unit) >>= next) state = next () (change state) := rfl

theorem get_bind (next : σ → EStateM ε σ β) (state : σ) : ((get : EStateM ε σ σ) >>= next) state = next state state := rfl

theorem get_eq_ok {value : σ} :
    (get : EStateM ε σ σ) state = .ok value last ↔ value = state ∧ last = state := by
  change EStateM.Result.ok state state = _ ↔ _
  rw [EStateM.Result.ok.injEq, eq_comm, @eq_comm _ state last]

/-- The state a program ends in, also where it fails. -/
def final : EStateM.Result ε σ α → σ
  | .ok _ last | .error _ last => last

def Keeps (holds : σ → Prop) (program : EStateM ε σ α) : Prop :=
  ∀ state, holds state → holds (final (program state))

variable {holds : σ → Prop}

theorem keeps_pure (value : α) : Keeps holds (pure value : EStateM ε σ α) := fun _ start => start

theorem keeps_throw (error : ε) : Keeps holds (throw error : EStateM ε σ α) := fun _ start => start

theorem Keeps.bind {next : α → EStateM ε σ β} (keeps : Keeps holds first) (after : ∀ value, Keeps holds (next value)) :
    Keeps holds (first >>= next) := by
  intro state start
  have between := keeps state start
  change holds (final (EStateM.bind first next state))
  rw [EStateM.bind]
  cases ran : first state with
  | ok value last =>
    rw [ran] at between
    exact after value last between
  | error error last =>
    rw [ran] at between
    exact between

theorem keeps_forM {act : α → EStateM ε σ PUnit} (keeps : ∀ item, Keeps holds (act item)) (items : List α) :
    Keeps holds (items.forM act) := by
  induction items with
  | nil => exact keeps_pure _
  | cons item rest ih => exact (keeps item).bind fun _ => ih

end HermitLocal.Lib.Program
