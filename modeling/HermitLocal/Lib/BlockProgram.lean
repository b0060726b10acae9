import Mathlib.Data.List.Basic
import Mathlib.Data.Nat.Find

/-! Programs over a block device whose single-block accesses may fail. A program
is a tree of typed requests; running it threads the device contents, the
program's own static variables and the list of writes it has issued. A failing
write is issued but leaves its block unchanged, and a power cut after some
writes is a prefix of the issued list applied to the old contents. -/

namespace HermitLocal.Lib.BlockProgram
open Function List

structure Faults where
  reads : Nat → Bool
  writes : Nat → Bool

def Faults.none : Faults := ⟨fun _ => false, fun _ => false⟩

def Faults.ReadsWork (faults : Faults) : Prop := ∀ i, faults.reads i = false

def Faults.WritesWork (faults : Faults) : Prop := ∀ i, faults.writes i = false

theorem Faults.none_readsWork : Faults.none.ReadsWork := fun _ => rfl

theorem Faults.none_writesWork : Faults.none.WritesWork := fun _ => rfl

structure World (σ β : Type) where
  cells : Nat → β
  reads : Nat
  issued : List (Nat × β)
  statics : σ

variable {σ β α γ : Type}

def applyWrites (writes : List (Nat × β)) (cells : Nat → β) : Nat → β :=
  writes.foldl (fun cells write => update cells write.1 write.2) cells

@[simp] theorem applyWrites_nil (cells : Nat → β) : applyWrites [] cells = cells := rfl

@[simp] theorem applyWrites_cons (write : Nat × β) (rest : List (Nat × β)) (cells : Nat → β) :
    applyWrites (write :: rest) cells =
      applyWrites rest (update cells write.1 write.2) := rfl

theorem applyWrites_append (first second : List (Nat × β)) (cells : Nat → β) :
    applyWrites (first ++ second) cells = applyWrites second (applyWrites first cells) :=
  foldl_append

theorem applyWrites_apart (writes : List (Nat × β)) (cells : Nat → β) (lba : Nat)
    (apart : ∀ write ∈ writes, write.1 ≠ lba) : applyWrites writes cells lba = cells lba := by
  induction writes generalizing cells with
  | nil => rfl
  | cons write rest ih =>
    have other : lba ≠ write.1 := fun same => apart write mem_cons_self same.symm
    rw [applyWrites_cons, ih _ fun later member => apart later (mem_cons_of_mem _ member)]
    exact update_of_ne other _ _

def place : Nat → List β → List (Nat × β)
  | _, [] => []
  | lba, block :: rest => (lba, block) :: place (lba + 1) rest

@[simp] theorem place_length (lba : Nat) (blocks : List β) : (place lba blocks).length = blocks.length := by
  induction blocks generalizing lba with
  | nil => rfl
  | cons block rest ih => simp [place, ih]

theorem place_append (lba : Nat) (first second : List β) :
    place lba (first ++ second) = place lba first ++ place (lba + first.length) second := by
  induction first generalizing lba with
  | nil => simp [place]
  | cons block rest ih =>
    have shift : lba + 1 + rest.length = lba + (rest.length + 1) := by omega
    simp [place, ih, shift]

section
variable (lba : Nat) (blocks : List β)

theorem place_bounds (write : Nat × β) (member : write ∈ place lba blocks) :
    lba ≤ write.1 ∧ write.1 < lba + blocks.length := by
  induction blocks generalizing lba with
  | nil => simp [place] at member
  | cons block rest ih =>
    rcases mem_cons.mp member with same | later
    · subst same
      simp
    · have bounds := ih (lba + 1) later
      simp only [length_cons]
      omega

theorem place_mem (i : Nat) (inside : i < blocks.length) : (lba + i, blocks[i]) ∈ place lba blocks := by
  induction blocks generalizing lba i with
  | nil => simp at inside
  | cons block rest ih =>
    cases i with
    | zero => exact mem_cons_self
    | succ i =>
      have later := ih (lba + 1) i (by simpa using inside)
      rw [show lba + 1 + i = lba + (i + 1) by omega] at later
      exact mem_cons_of_mem _ later

theorem place_values (write : Nat × β) (member : write ∈ place lba blocks) : write.2 ∈ blocks := by
  induction blocks generalizing lba with
  | nil => simp [place] at member
  | cons block rest ih =>
    rcases mem_cons.mp member with same | later
    · subst same
      exact mem_cons_self
    · exact mem_cons_of_mem _ (ih (lba + 1) later)

theorem applyWrites_place_outside (cells : Nat → β) (other : Nat)
    (outside : other < lba ∨ lba + blocks.length ≤ other) :
    applyWrites (place lba blocks) cells other = cells other := by
  apply applyWrites_apart
  intro write member
  have bounds := place_bounds lba blocks write member
  omega

theorem applyWrites_place_inside (cells : Nat → β) (i : Nat) (inside : i < blocks.length) :
    applyWrites (place lba blocks) cells (lba + i) = blocks[i] := by
  induction blocks generalizing lba cells i with
  | nil => simp at inside
  | cons block rest ih =>
    rw [place, applyWrites_cons]
    cases i with
    | zero =>
      rw [applyWrites_place_outside _ _ _ _ (by omega)]
      exact update_self ..
    | succ i =>
      have shift : lba + (i + 1) = lba + 1 + i := by omega
      rw [shift, ih (lba + 1) _ i (by simpa using inside)]
      rfl

end

namespace World

def tick (world : World σ β) (count : Nat) : World σ β :=
  { world with reads := world.reads + count }

def issue (world : World σ β) (lba : Nat) (block : β) : World σ β :=
  { world with issued := world.issued ++ [(lba, block)] }

def store (world : World σ β) (writes : List (Nat × β)) : World σ β :=
  { world with cells := applyWrites writes world.cells, issued := world.issued ++ writes }

variable (world : World σ β) (count lba : Nat) (block : β) (writes : List (Nat × β))

@[simp] theorem tick_cells : (world.tick count).cells = world.cells := rfl
@[simp] theorem tick_issued : (world.tick count).issued = world.issued := rfl
@[simp] theorem tick_statics : (world.tick count).statics = world.statics := rfl
@[simp] theorem tick_reads : (world.tick count).reads = world.reads + count := rfl
@[simp] theorem issue_cells : (world.issue lba block).cells = world.cells := rfl
@[simp] theorem issue_statics : (world.issue lba block).statics = world.statics := rfl
@[simp] theorem issue_reads : (world.issue lba block).reads = world.reads := rfl
@[simp] theorem issue_issued : (world.issue lba block).issued = world.issued ++ [(lba, block)] := rfl
@[simp] theorem store_cells : (world.store writes).cells = applyWrites writes world.cells := rfl
@[simp] theorem store_statics : (world.store writes).statics = world.statics := rfl
@[simp] theorem store_reads : (world.store writes).reads = world.reads := rfl
@[simp] theorem store_issued : (world.store writes).issued = world.issued ++ writes := rfl

@[simp] theorem tick_zero : world.tick 0 = world := rfl

theorem tick_tick (more : Nat) : (world.tick count).tick more = world.tick (count + more) := by
  simp [tick, Nat.add_assoc]

theorem tick_store : (world.tick count).store writes = (world.store writes).tick count := rfl

@[simp] theorem store_nil : world.store [] = world := by simp [store]

theorem store_store (more : List (Nat × β)) :
    (world.store writes).store more = world.store (writes ++ more) := by
  simp [store, applyWrites_append]

end World

inductive Program (σ β α : Type) where
  | done (outcome : Except Unit α)
  | read (lba : Nat) (next : Option β → Program σ β α)
  | write (lba : Nat) (block : β) (next : Bool → Program σ β α)
  | look (next : σ → Program σ β α)
  | update (statics : σ) (next : Program σ β α)

namespace Program

def bind (program : Program σ β α) (next : α → Program σ β γ) : Program σ β γ :=
  match program with
  | .done (.ok value) => next value
  | .done (.error error) => .done (.error error)
  | .read lba rest => .read lba fun reply => (rest reply).bind next
  | .write lba block rest => .write lba block fun reply => (rest reply).bind next
  | .look rest => .look fun statics => (rest statics).bind next
  | .update statics rest => .update statics (rest.bind next)

instance : Monad (Program σ β) where
  pure value := .done (.ok value)
  bind := Program.bind

theorem bind_pure_right (program : Program σ β α) : program.bind pure = program := by
  induction program with
  | done outcome => cases outcome <;> rfl
  | read lba rest ih => exact congrArg (Program.read lba) (funext ih)
  | write lba block rest ih => exact congrArg (Program.write lba block) (funext ih)
  | look rest ih => exact congrArg Program.look (funext ih)
  | update statics rest ih => exact congrArg (Program.update statics) ih

theorem bind_bind {δ : Type} (program : Program σ β α) (first : α → Program σ β γ)
    (second : γ → Program σ β δ) :
    (program.bind first).bind second = program.bind fun value => (first value).bind second := by
  induction program with
  | done outcome => cases outcome <;> rfl
  | read lba rest ih => exact congrArg (Program.read lba) (funext ih)
  | write lba block rest ih => exact congrArg (Program.write lba block) (funext ih)
  | look rest ih => exact congrArg Program.look (funext ih)
  | update statics rest ih => exact congrArg (Program.update statics) ih

instance : LawfulMonad (Program σ β) :=
  LawfulMonad.mk' (Program σ β) bind_pure_right (fun _ _ => rfl) bind_bind

def fail : Program σ β α := .done (.error ())

@[simp] theorem fail_bind (next : α → Program σ β γ) : fail >>= next = fail := rfl

def lift (outcome : Except Unit α) : Program σ β α := .done outcome

@[simp] theorem lift_ok (value : α) : (lift (.ok value) : Program σ β α) = pure value := rfl

def attempt (program : Program σ β α) : Program σ β (Except Unit α) :=
  match program with
  | .done outcome => .done (.ok outcome)
  | .read lba rest => .read lba fun reply => (rest reply).attempt
  | .write lba block rest => .write lba block fun reply => (rest reply).attempt
  | .look rest => .look fun statics => (rest statics).attempt
  | .update statics rest => .update statics rest.attempt

def readBlock (lba : Nat) : Program σ β β :=
  .read lba fun
    | some block => .done (.ok block)
    | none => fail

def writeBlock (lba : Nat) (block : β) : Program σ β Unit :=
  .write lba block fun
    | true => .done (.ok ())
    | false => fail

def getStatics : Program σ β σ := .look fun statics => .done (.ok statics)

def setStatics (statics : σ) : Program σ β Unit := .update statics (.done (.ok ()))

def writeAll : List (Nat × β) → Program σ β Unit
  | [] => pure ()
  | first :: rest => do
      writeBlock first.1 first.2
      writeAll rest

def run (faults : Faults) : Program σ β α → World σ β → Except Unit α × World σ β
  | .done outcome, world => (outcome, world)
  | .read lba next, world =>
      if faults.reads world.reads then run faults (next none) (world.tick 1)
      else run faults (next (some (world.cells lba))) (world.tick 1)
  | .write lba block next, world =>
      if faults.writes world.issued.length then run faults (next false) (world.issue lba block)
      else run faults (next true) (world.store [(lba, block)])
  | .look next, world => run faults (next world.statics) world
  | .update statics next, world => run faults next { world with statics := statics }

/-! How runs compose. -/

theorem run_bind (faults : Faults) (program : Program σ β α) (next : α → Program σ β γ) (world : World σ β) :
    run faults (program >>= next) world =
      match run faults program world with
      | (.ok value, after) => run faults (next value) after
      | (.error error, after) => (.error error, after) := by
  change run faults (program.bind next) world = _
  induction program generalizing world with
  | done outcome => cases outcome <;> rfl
  | read lba rest ih =>
    simp only [Program.bind, run]
    split
    · exact ih none _
    · exact ih (some _) _
  | write lba block rest ih =>
    simp only [Program.bind, run]
    split
    · exact ih false _
    · exact ih true _
  | look rest ih => exact ih world.statics world
  | update statics rest ih => exact ih _

variable {world after : World σ β} {program : Program σ β α} {faults : Faults} {next : α → Program σ β γ}
  {allowed : Nat → β → Prop}

theorem run_bind_ok {value : α} (ran : run faults program world = (.ok value, after))
    (next : α → Program σ β γ) : run faults (program >>= next) world = run faults (next value) after := by
  rw [run_bind, ran]

theorem run_bind_error {error : Unit} (ran : run faults program world = (.error error, after))
    (next : α → Program σ β γ) : run faults (program >>= next) world = (.error error, after) := by
  rw [run_bind, ran]

theorem run_bind_inv {result : γ} (ran : run faults (program >>= next) world = (.ok result, after)) :
    ∃ value middle, run faults program world = (.ok value, middle) ∧
      run faults (next value) middle = (.ok result, after) := by
  rw [run_bind] at ran
  rcases first : run faults program world with ⟨_ | value, middle⟩
  · rw [first] at ran
    cases ran
  · rw [first] at ran
    exact ⟨value, middle, rfl, ran⟩

theorem run_discard (faults : Faults) (program : Program σ β α) (world : World σ β) :
    (run faults (program >>= fun _ => pure ()) world).2 = (run faults program world).2 := by
  rw [run_bind]
  rcases run faults program world with ⟨_ | _, after⟩ <;> rfl

@[simp] theorem run_pure (faults : Faults) (value : α) (world : World σ β) :
    run faults (pure value) world = (.ok value, world) := rfl

@[simp] theorem run_fail (faults : Faults) (world : World σ β) :
    run faults (fail : Program σ β α) world = (.error (), world) := rfl

@[simp] theorem run_getStatics (faults : Faults) (world : World σ β) :
    run faults getStatics world = (.ok world.statics, world) := rfl

theorem run_attempt (faults : Faults) (program : Program σ β α) (world : World σ β) :
    run faults program.attempt world =
      (.ok (run faults program world).1, (run faults program world).2) := by
  induction program generalizing world with
  | done outcome => rfl
  | read lba rest ih =>
    simp only [attempt, run]
    split
    · exact ih none _
    · exact ih (some _) _
  | write lba block rest ih =>
    simp only [attempt, run]
    split
    · exact ih false _
    · exact ih true _
  | look rest ih => exact ih world.statics world
  | update statics rest ih => exact ih _

theorem run_readBlock (faults : Faults) (lba : Nat) (world : World σ β) : run faults (readBlock lba) world =
      (if faults.reads world.reads then .error () else .ok (world.cells lba), world.tick 1) := by
  simp only [readBlock, run]
  split <;> rfl

theorem run_readBlock_ok (works : faults.reads world.reads = false) (lba : Nat) :
    run faults (readBlock lba) world = (.ok (world.cells lba), world.tick 1) := by
  simp [run_readBlock, works]

theorem run_readBlock_error (fails : faults.reads world.reads = true) (lba : Nat) :
    run faults (readBlock lba) world = (.error (), world.tick 1) := by
  simp [run_readBlock, fails]

theorem reads_next {count : Nat} (works : ∀ i < count + 1, faults.reads (world.reads + i) = false) :
    ∀ i < count, faults.reads ((world.tick 1).reads + i) = false := by
  intro i inside
  have next := works (i + 1) (by omega)
  simpa [Nat.add_assoc, Nat.add_comm 1 i] using next

theorem read_next {count : Nat} {fails : Bool} (read : faults.reads (world.reads + (count + 1)) = fails) :
    faults.reads ((world.tick 1).reads + count) = fails := by
  simpa [Nat.add_assoc, Nat.add_comm 1 count] using read

theorem run_writeBlock_ok (works : faults.writes world.issued.length = false) (lba : Nat) (block : β) :
    run faults (writeBlock lba block) world = (.ok (), world.store [(lba, block)]) := by
  simp [writeBlock, run, works]

theorem run_writeBlock_error (fails : faults.writes world.issued.length = true) (lba : Nat) (block : β) :
    run faults (writeBlock lba block) world = (.error (), world.issue lba block) := by
  simp [writeBlock, run, fails]

theorem run_writeAll_ok (writes : List (Nat × β))
    (works : ∀ i < writes.length, faults.writes (world.issued.length + i) = false) :
    run faults (writeAll writes) world = (.ok (), world.store writes) := by
  induction writes generalizing world with
  | nil => simp [writeAll]
  | cons write rest ih =>
    have first : faults.writes world.issued.length = false := works 0 (by simp)
    rw [writeAll, run_bind_ok (run_writeBlock_ok first write.1 write.2), ih]
    · simp [World.store_store]
    · intro i inside
      have later := works (i + 1) (by simpa using inside)
      simpa [Nat.add_assoc, Nat.add_comm 1 i] using later

theorem run_writeAll_error (writes : List (Nat × β)) (k : Nat) (inside : k < writes.length)
    (works : ∀ i < k, faults.writes (world.issued.length + i) = false)
    (fails : faults.writes (world.issued.length + k) = true) : run faults (writeAll writes) world =
      (.error (), (world.store (writes.take k)).issue writes[k].1 writes[k].2) := by
  induction writes generalizing world k with
  | nil => simp at inside
  | cons write rest ih =>
    cases k with
    | zero =>
      rw [writeAll, run_bind_error (run_writeBlock_error (by simpa using fails) write.1 write.2)]
      simp
    | succ k =>
      have first : faults.writes world.issued.length = false := works 0 (by simp)
      rw [writeAll, run_bind_ok (run_writeBlock_ok first write.1 write.2)]
      rw [ih k (by simpa using inside)]
      · simp [World.store_store]
      · intro i earlier
        have later := works (i + 1) (by omega)
        simpa [Nat.add_assoc, Nat.add_comm 1 i] using later
      · simpa [Nat.add_assoc, Nat.add_comm 1 k] using fails

theorem run_writeAll_cases (faults : Faults) (writes : List (Nat × β)) (world : World σ β) :
    ((∀ i < writes.length, faults.writes (world.issued.length + i) = false) ∧
      run faults (writeAll writes) world = (.ok (), world.store writes)) ∨
    ∃ k, ∃ inside : k < writes.length, faults.writes (world.issued.length + k) = true ∧
      run faults (writeAll writes) world =
        (.error (), (world.store (writes.take k)).issue writes[k].1 writes[k].2) := by
  by_cases works : ∀ i < writes.length, faults.writes (world.issued.length + i) = false
  · exact .inl ⟨works, run_writeAll_ok writes works⟩
  · have failing : ∃ i, i < writes.length ∧ faults.writes (world.issued.length + i) = true := by
      simpa using works
    have least := Nat.find_spec failing
    have earlier : ∀ i < Nat.find failing, faults.writes (world.issued.length + i) = false := by
      intro i before
      have notYet := Nat.find_min failing before
      have inside : i < writes.length := lt_trans before least.1
      simpa [inside] using notYet
    exact .inr ⟨Nat.find failing, least.1, least.2, run_writeAll_error writes _ least.1 earlier least.2⟩

theorem run_writeAll_inv {writes : List (Nat × β)}
    (ran : run faults (writeAll writes) world = (.ok (), after)) : after = world.store writes := by
  rcases run_writeAll_cases faults writes world with ⟨_, stored⟩ | ⟨k, _, _, failed⟩
  · rw [stored] at ran
    exact (congrArg Prod.snd ran).symm
  · rw [failed] at ran
    cases ran

theorem writeAll_append (first second : List (Nat × β)) :
    (writeAll (first ++ second) : Program σ β Unit) = writeAll first >>= fun _ => writeAll second := by
  induction first with
  | nil => simp [writeAll]
  | cons write rest ih => simp [writeAll, ih]

/-! What every program leaves behind. -/

def Emits (allowed : Nat → β → Prop) : Program σ β α → Prop
  | .done _ => True
  | .read _ next => ∀ reply, (next reply).Emits allowed
  | .write lba block next => allowed lba block ∧ ∀ reply, (next reply).Emits allowed
  | .look next => ∀ statics, (next statics).Emits allowed
  | .update _ _ => False

theorem emits_bind (first : program.Emits allowed) (rest : ∀ value, (next value).Emits allowed) :
    (program >>= next).Emits allowed := by
  induction program with
  | done outcome =>
    cases outcome with
    | ok value => exact rest value
    | error error => trivial
  | read lba later ih => exact fun reply => ih reply (first reply)
  | write lba block later ih => exact ⟨first.1, fun reply => ih reply (first.2 reply)⟩
  | look later ih => exact fun statics => ih statics (first statics)
  | update statics later ih => exact first.elim

variable {lba : Nat} {block : β}

theorem emits_writeBlock (fine : allowed lba block) : (writeBlock lba block : Program σ β Unit).Emits allowed :=
  ⟨fine, fun reply => by cases reply <;> trivial⟩

theorem emits_readBlock (allowed : Nat → β → Prop) (lba : Nat) :
    (readBlock lba : Program σ β β).Emits allowed := by
  intro reply
  cases reply <;> trivial

theorem emits_writeAll {writes : List (Nat × β)} (fine : ∀ write ∈ writes, allowed write.1 write.2) :
    (writeAll writes : Program σ β Unit).Emits allowed := by
  induction writes with
  | nil => trivial
  | cons write rest ih =>
    exact emits_bind (emits_writeBlock (fine write mem_cons_self))
      fun _ => ih fun later member => fine later (mem_cons_of_mem _ member)

def Extends (allowed : Nat → β → Prop) (world after : World σ β) : Prop :=
  ∃ new, after.issued = world.issued ++ new ∧ (∀ write ∈ new, allowed write.1 write.2) ∧
    ∀ lba, after.cells lba = world.cells lba ∨ (lba, after.cells lba) ∈ new

theorem Extends.same (issued : after.issued = world.issued) (cells : after.cells = world.cells) :
    Extends allowed world after :=
  ⟨[], by simp [issued], by simp, fun lba => .inl (by rw [cells])⟩

theorem Extends.trans {middle : World σ β} (first : Extends allowed world middle)
    (second : Extends allowed middle after) : Extends allowed world after := by
  obtain ⟨new, issued, fine, changed⟩ := first
  obtain ⟨more, moreIssued, moreFine, moreChanged⟩ := second
  refine ⟨new ++ more, by simp [moreIssued, issued], ?_, ?_⟩
  · intro write member
    exact (mem_append.mp member).elim (fine write) (moreFine write)
  · intro lba
    rcases moreChanged lba with kept | written
    · rw [kept]
      exact (changed lba).imp id (mem_append_left _)
    · exact .inr (mem_append_right _ written)

theorem Extends.dropped (extended : Extends allowed world after) :
    ∀ write ∈ after.issued.drop world.issued.length, allowed write.1 write.2 := by
  obtain ⟨new, issued, fine, _⟩ := extended
  simpa [issued] using fine

theorem extends_issue (world : World σ β) (fine : allowed lba block) :
    Extends allowed world (world.issue lba block) :=
  ⟨[(lba, block)], rfl, by simpa using fine, fun _ => .inl rfl⟩

theorem extends_store (world : World σ β) (fine : allowed lba block) :
    Extends allowed world (world.store [(lba, block)]) := by
  refine ⟨[(lba, block)], rfl, by simpa using fine, fun other => ?_⟩
  by_cases here : other = lba
  · subst here
    exact .inr (by simp)
  · exact .inl (by simp [update_of_ne here])

theorem run_emits (emits : program.Emits allowed) (faults : Faults) (world : World σ β) :
    Extends allowed world (run faults program world).2 ∧
      (run faults program world).2.statics = world.statics := by
  induction program generalizing world with
  | done outcome => exact ⟨Extends.same rfl rfl, rfl⟩
  | read lba next ih =>
    simp only [run]
    split
    · exact ih none (emits none) _
    · exact ih _ (emits _) _
  | look next ih => exact ih _ (emits _) _
  | update statics next ih => exact emits.elim
  | write lba block next ih =>
    simp only [run]
    split
    · obtain ⟨later, statics⟩ := ih false (emits.2 false) (world.issue lba block)
      exact ⟨(extends_issue world emits.1).trans later, statics⟩
    · obtain ⟨later, statics⟩ := ih true (emits.2 true) (world.store [(lba, block)])
      exact ⟨(extends_store world emits.1).trans later, statics⟩

def Within (allowed : Nat → Prop) : Program σ β α → Prop
  | .done _ => True
  | .read lba next => allowed lba ∧ ∀ reply, (next reply).Within allowed
  | .write lba _ next => allowed lba ∧ ∀ reply, (next reply).Within allowed
  | .look next => ∀ statics, (next statics).Within allowed
  | .update _ next => next.Within allowed

def ReadOnly : Program σ β α → Prop
  | .done _ => True
  | .read _ next => ∀ reply, (next reply).ReadOnly
  | .write _ _ _ => False
  | .look next => ∀ statics, (next statics).ReadOnly
  | .update _ _ => False

theorem readOnly_bind (first : program.ReadOnly) (rest : ∀ value, (next value).ReadOnly) :
    (program >>= next).ReadOnly := by
  induction program with
  | done outcome =>
    cases outcome with
    | ok value => exact rest value
    | error error => trivial
  | read lba later ih => exact fun reply => ih reply (first reply)
  | write lba block later ih | update statics later ih => exact first.elim
  | look later ih => exact fun statics => ih statics (first statics)

theorem readOnly_attempt (reads : program.ReadOnly) : program.attempt.ReadOnly := by
  induction program with
  | done outcome => trivial
  | read lba later ih => exact fun reply => ih reply (reads reply)
  | write lba block later ih | update statics later ih => exact reads.elim
  | look later ih => exact fun statics => ih statics (reads statics)

theorem readOnly_readBlock (lba : Nat) : (readBlock lba : Program σ β β).ReadOnly := by
  intro reply
  cases reply <;> trivial

theorem readOnly_pure (value : α) : (pure value : Program σ β α).ReadOnly := trivial

theorem readOnly_fail : (fail : Program σ β α).ReadOnly := trivial

theorem readOnly_lift (outcome : Except Unit α) : (lift outcome : Program σ β α).ReadOnly := trivial

theorem readOnly_getStatics : (getStatics : Program σ β σ).ReadOnly := fun _ => trivial

theorem run_readOnly (reads : program.ReadOnly) (faults : Faults) (world : World σ β) :
    ∃ count, (run faults program world).2 = world.tick count := by
  induction program generalizing world with
  | done outcome => exact ⟨0, rfl⟩
  | read lba next ih =>
    simp only [run]
    split
    · obtain ⟨count, after⟩ := ih none (reads none) (world.tick 1)
      exact ⟨1 + count, by rw [after, World.tick_tick]⟩
    · obtain ⟨count, after⟩ := ih _ (reads (some (world.cells lba))) (world.tick 1)
      exact ⟨1 + count, by rw [after, World.tick_tick]⟩
  | write lba block next ih | update statics next ih => exact reads.elim
  | look next ih => exact ih _ (reads _) _

end Program

end HermitLocal.Lib.BlockProgram
