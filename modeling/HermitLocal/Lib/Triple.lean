import Mathlib.Logic.Basic

/-! Programs with a state that may fault, and rules for what they ensure: from a state with the precondition a program
comes to its end without a fault, with the postcondition. -/

namespace HermitLocal.Lib.Triple

variable {σ α β : Type}

def Ensures (pre : σ → Prop) (program : StateT σ Option α) (post : α → σ → Prop) : Prop :=
  ∀ state, pre state → ∃ value last, program state = some (value, last) ∧ post value last

variable {pre before : σ → Prop} {post : β → σ → Prop}

theorem Ensures.pure {value : β} (now : ∀ state, pre state → post value state) :
    Ensures pre (Pure.pure value : StateT σ Option β) post := fun state holds => ⟨value, state, rfl, now state holds⟩

theorem Ensures.bind {first : StateT σ Option α} {between : α → σ → Prop} {next : α → StateT σ Option β}
    (start : Ensures pre first between) (rest : ∀ value, Ensures (between value) (next value) post) :
    Ensures pre (first >>= next) post := by
  intro state holds
  obtain ⟨value, middle, ran, reached⟩ := start state holds
  obtain ⟨result, last, ended, done⟩ := rest value middle reached
  refine ⟨result, last, ?_, done⟩
  change (first state).bind (fun pair => next pair.1 pair.2) = _
  rw [ran]
  exact ended

variable {program : StateT σ Option β}

theorem Ensures.strengthen (ensures : Ensures pre program post) (implies : ∀ state, before state → pre state) :
    Ensures before program post :=
  fun state holds => ensures state (implies state holds)

theorem Ensures.weaken {other : β → σ → Prop} (ensures : Ensures pre program post)
    (implies : ∀ value state, post value state → other value state) : Ensures pre program other := by
  intro state holds
  obtain ⟨value, last, ran, reached⟩ := ensures state holds
  exact ⟨value, last, ran, implies value last reached⟩

theorem Ensures.of_exists {ι : Type} {cases : ι → σ → Prop}
    (each : ∀ index, Ensures (cases index) program post) : Ensures (fun state => ∃ index, cases index state) program post := by
  intro state holds
  obtain ⟨index, holds⟩ := holds
  exact each index state holds

theorem Ensures.of_and {fact : Prop} (under : fact → Ensures pre program post) :
    Ensures (fun state => fact ∧ pre state) program post := fun state holds => under holds.1 state holds.2

theorem Ensures.get_bind {next : σ → StateT σ Option β} (rest : ∀ state, pre state → Ensures (· = state) (next state) post) :
    Ensures pre (get >>= next) post := fun state holds => rest state holds state rfl

theorem Ensures.modify_bind {change : σ → σ} {between : σ → Prop} {next : Unit → StateT σ Option β}
    (now : ∀ state, pre state → between (change state)) (rest : Ensures between (next ()) post) :
    Ensures pre (modify change >>= next) post := fun state holds => rest (change state) (now state holds)

theorem Ensures.forM {items : List α} {body : α → StateT σ Option Unit} {keep : σ → Prop}
    (each : ∀ item ∈ items, Ensures keep (body item) fun _ => keep) : Ensures keep (items.forM body) fun _ => keep := by
  induction items with
  | nil => exact Ensures.pure fun _ now => now
  | cons item rest ih =>
    apply Ensures.bind (each item List.mem_cons_self)
    intro _
    exact ih fun later inside => each later (List.mem_cons_of_mem _ inside)

end HermitLocal.Lib.Triple
