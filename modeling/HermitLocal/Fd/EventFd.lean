import HermitLocal.Fd.Poll
import HermitLocal.Lib.Simulation
import Mathlib.Algebra.Group.Nat.Defs
import Mathlib.Tactic.SplitIfs

/-! An event counter with its two queues of wakers. Each step is one poll of a future with the lock held; a poll for events
takes its picture of the counter in one step and runs its closure over that picture in others. -/

namespace HermitLocal.Fd.EventFd
open Fd.Poll (PollEvent)
open Lib.Simulation

abbrev Task := Nat

def U64_MAX : Nat := 2 ^ 64 - 1

def POLLIN : PollEvent := 0x1
def POLLOUT : PollEvent := 0x4
def POLLRDNORM : PollEvent := 0x40
def POLLRDBAND : PollEvent := 0x80
def POLLWRNORM : PollEvent := 0x100
def POLLWRBAND : PollEvent := 0x200

structure EventFlags where
  semaphore : Bool
  nonblock : Bool

structure Future where
  events : PollEvent
  ret : PollEvent
  queued : Bool
  woken : Bool

structure EventState where
  counter : Nat
  readQueue : List Task
  writeQueue : List Task
  polls : Task → Option Future

def EventState.new (initval : Nat) : EventState := ⟨initval, [], [], fun _ => none⟩

inductive Result where
  | pending
  | again
  | value (value : Nat)
  | wrote
  | events (events : PollEvent)
  deriving DecidableEq

structure Answer where
  result : Result
  wakes : List Task

inductive Call where
  | read (task : Task)
  | write (task : Task) (value : Nat)
  | poll (task : Task) (events : PollEvent)
  /-- The closure of the task's poll is run, at first or after a wake. -/
  | resume (task : Task)

namespace EventState

def wake (self : EventState) (tasks : List Task) : EventState :=
  { self with polls := fun task => (self.polls task).map fun future =>
      { future with woken := future.woken || (future.queued && tasks.contains task) } }

def read (self : EventState) (flags : EventFlags) (task : Task) : Answer × EventState :=
  if flags.semaphore then
    if self.counter > 0 then
      (⟨.value 1, self.writeQueue.take 1⟩,
        { self with counter := self.counter - 1, writeQueue := self.writeQueue.drop 1 }.wake
          (self.writeQueue.take 1))
    else (⟨.pending, []⟩, { self with readQueue := self.readQueue ++ [task] })
  else if self.counter > 0 then
    (⟨.value self.counter, self.readQueue.take 1⟩,
      { self with counter := 0, readQueue := self.readQueue.drop 1 }.wake
        (self.readQueue.take 1))
  else if flags.nonblock then (⟨.again, []⟩, self)
  else (⟨.pending, []⟩, { self with readQueue := self.readQueue ++ [task] })

def write (self : EventState) (flags : EventFlags) (task : Task) (c : Nat) : Answer × EventState :=
  if U64_MAX - self.counter > c then
    let count := if flags.semaphore then c else 1
    (⟨.wrote, self.readQueue.take count⟩,
      { self with counter := self.counter + c, readQueue := self.readQueue.drop count }.wake
        (self.readQueue.take count))
  else if flags.nonblock then (⟨.again, []⟩, self)
  else (⟨.pending, []⟩, { self with writeQueue := self.writeQueue ++ [task] })

def available (self : EventState) : PollEvent :=
  (if self.counter < U64_MAX - 1 then POLLOUT ||| POLLWRNORM ||| POLLWRBAND else 0) |||
    if self.counter > 0 then POLLIN ||| POLLRDNORM ||| POLLRDBAND else 0

def poll (self : EventState) (task : Task) (events : PollEvent) : EventState :=
  { self with polls := Function.update self.polls task (some ⟨events, events &&& self.available, false, false⟩) }

def resume (self : EventState) (task : Task) : Answer × EventState :=
  match self.polls task with
  | none => (⟨.pending, []⟩, self)
  | some future =>
      let waiting := { self with polls := Function.update self.polls task (some { future with queued := true, woken := false }) }
      let done := { self with polls := Function.update self.polls task none }
      if future.ret ≠ 0 then (⟨.events future.ret, []⟩, done)
      else if future.events &&& (POLLIN ||| POLLRDNORM) ≠ 0 then
        (⟨.pending, []⟩, { waiting with readQueue := self.readQueue ++ [task] })
      else if future.events &&& (POLLOUT ||| POLLWRNORM ||| POLLWRBAND) ≠ 0 then
        (⟨.pending, []⟩, { waiting with writeQueue := self.writeQueue ++ [task] })
      else (⟨.events future.ret, []⟩, done)

def perform (flags : EventFlags) (self : EventState) : Call → Answer × EventState
  | .read task => self.read flags task
  | .write task value => self.write flags task value
  | .poll task events => (⟨.pending, []⟩, self.poll task events)
  | .resume task => self.resume task

end EventState

structure Ledger where
  state : EventState
  written : Nat
  taken : Nat

def Ledger.new (initval : Nat) : Ledger := ⟨.new initval, 0, 0⟩

def Call.writes : Call → Result → Nat
  | .write _ value, .wrote => value
  | _, _ => 0

def Result.taken : Result → Nat
  | .value read => read
  | _ => 0

def Ledger.step (flags : EventFlags) (self : Ledger) (call : Call) : Ledger :=
  let (answer, next) := self.state.perform flags call
  ⟨next, self.written + call.writes answer.result, self.taken + answer.result.taken⟩

def Ledger.Balanced (initval : Nat) (self : Ledger) : Prop :=
  self.state.counter + self.taken = initval + self.written ∧ self.state.counter ≤ U64_MAX - 1

def WakesOne (queue wakes : List Task) : Prop := queue ≠ [] → ∃ task ∈ queue, task ∈ wakes

def Served (flags : EventFlags) (self : EventState) (call : Call) : Prop :=
  let (answer, next) := self.perform flags call
  match call with
  | .read _ => (flags.nonblock → answer.result ≠ .pending) ∧
      (next.counter < self.counter → WakesOne self.writeQueue answer.wakes)
  | .write _ _ => (flags.nonblock → answer.result ≠ .pending) ∧
      (self.counter = 0 → 0 < next.counter → WakesOne self.readQueue answer.wakes)
  | .poll _ _ => True
  | .resume task => ∀ future, self.polls task = some future → future.woken → future.events &&& self.available ≠ 0 →
      answer.result = .events (future.events &&& self.available)

def Harmless (flags : EventFlags) (self : EventState) : Call → Prop
  | .read _ => if self.counter = 0 then ¬(flags.semaphore ∧ flags.nonblock)
      else flags.semaphore ∨ WakesOne self.writeQueue (self.readQueue.take 1)
  | .resume task => ∀ future, self.polls task = some future → future.woken → future.events &&& self.available = 0
  | _ => True

def FoundNothing (entry : Option Future) : Prop :=
  ∀ future, entry = some future → future.queued ∨ future.woken → future.ret = 0

def Stale (polls : Task → Option Future) : Prop := ∀ task, FoundNothing (polls task)

variable {flags : EventFlags} {self : EventState} {call : Call} {initval : Nat}

theorem wakesOne_take {queue : List Task} {count : Nat} (positive : 0 < count) : WakesOne queue (queue.take count) := by
  intro nonempty
  cases queue with
  | nil => exact absurd rfl nonempty
  | cons first rest =>
    obtain ⟨less, rfl⟩ := Nat.exists_eq_succ_of_ne_zero (Nat.ne_of_gt positive)
    exact ⟨first, List.mem_cons_self, List.mem_cons_self⟩

theorem served_read (task : Task) : Served flags self (.read task) ↔ Harmless flags self (.read task) := by
  unfold Served Harmless
  dsimp only [EventState.perform, EventState.read]
  by_cases zero : self.counter = 0
  · cases flags with
    | mk semaphore nonblock => cases semaphore <;> cases nonblock <;> simp [zero]
  · have positive : 0 < self.counter := Nat.pos_of_ne_zero zero
    have one := @wakesOne_take self.writeQueue 1 Nat.one_pos
    cases flags with
    | mk semaphore nonblock => cases semaphore <;> simp [positive, zero, EventState.wake, one]

theorem served_write (task : Task) (value : Nat) : Served flags self (.write task value) := by
  unfold Served
  dsimp only [EventState.perform, EventState.write]
  by_cases room : U64_MAX - self.counter > value
  · rw [if_pos room]
    constructor
    · intro _
      simp
    · intro zero positive
      have units : 0 < value := by simpa [EventState.wake, zero] using positive
      apply wakesOne_take
      split_ifs
      · exact units
      · exact Nat.one_pos
  · rw [if_neg room]
    by_cases nonblock : flags.nonblock
    · simp only [nonblock, if_true]
      exact ⟨fun _ => by simp, fun zero positive => absurd positive (by omega)⟩
    · simp only [nonblock]
      exact ⟨fun set => absurd set (by simp), fun zero positive => absurd zero (by simpa using Nat.ne_of_gt positive)⟩

theorem served_resume (stale : Stale self.polls) (task : Task) :
    Served flags self (.resume task) ↔ Harmless flags self (.resume task) := by
  unfold Served Harmless
  apply forall_congr'
  intro future
  apply forall_congr'
  intro here
  apply forall_congr'
  intro woken
  have nothing : future.ret = 0 := stale task future here (.inr woken)
  dsimp only [EventState.perform, EventState.resume]
  rw [here]
  dsimp only
  rw [if_neg (by simpa using nothing), nothing]
  constructor
  · intro served
    by_contra available
    have answer := served available
    split_ifs at answer
    exact available (Result.events.inj answer).symm
  · intro unavailable available
    exact absurd unavailable available

theorem served_iff (stale : Stale self.polls) (call : Call) : Served flags self call ↔ Harmless flags self call := by
  cases call with
  | read task => exact served_read task
  | write task value => exact iff_of_true (served_write task value) trivial
  | poll => exact Iff.rfl
  | resume task => exact served_resume stale task

theorem stale_wake (stale : Stale self.polls) (tasks : List Task) : Stale (self.wake tasks).polls := by
  intro task future here waiting
  obtain ⟨before, found, rfl⟩ := Option.map_eq_some_iff.mp here
  apply stale task before found
  rcases waiting with queued | woken
  · exact .inl queued
  · rcases Bool.or_eq_true_iff.mp woken with woken | both
    · exact .inr woken
    · exact .inl (Bool.and_eq_true_iff.mp both).1

theorem stale_update {polls : Task → Option Future} (stale : Stale polls) (task : Task) {entry : Option Future}
    (nothing : FoundNothing entry) : Stale (Function.update polls task entry) := by
  apply (Function.forall_update_iff polls fun _ entry => FoundNothing entry).mpr
  exact ⟨nothing, fun other _ => stale other⟩

theorem stale_perform (stale : Stale self.polls) (call : Call) : Stale (self.perform flags call).2.polls := by
  cases call with
  | read task =>
    dsimp only [EventState.perform, EventState.read]
    split_ifs
    case pos | pos => exact stale_wake stale _
    all_goals exact stale
  | write task value =>
    dsimp only [EventState.perform, EventState.write]
    split_ifs <;> first | exact stale_wake stale _ | exact stale
  | poll task events =>
    apply stale_update stale
    intro future same waiting
    rw [← Option.some.inj same] at waiting
    exact absurd waiting (by simp)
  | resume task =>
    dsimp only [EventState.perform, EventState.resume]
    cases here : self.polls task with
    | none => exact stale
    | some future =>
      have done : Stale (Function.update self.polls task none) := stale_update stale task (fun _ absent => nomatch absent)
      dsimp only
      split_ifs with found
      · exact done
      · apply stale_update stale
        intro next same _
        cases same
        exact not_not.mp found
      · apply stale_update stale
        intro next same _
        cases same
        exact not_not.mp found
      · exact done

theorem balanced_step {ledger : Ledger} (balanced : ledger.Balanced initval) (call : Call) :
    (ledger.step flags call).Balanced initval := by
  obtain ⟨sums, bounded⟩ := balanced
  cases call with
  | read task =>
    dsimp only [Ledger.step, EventState.perform, EventState.read]
    split_ifs <;> constructor <;> simp only [Call.writes, Result.taken, EventState.wake] <;> omega
  | write task value =>
    dsimp only [Ledger.step, EventState.perform, EventState.write]
    split_ifs <;> constructor <;> simp only [Call.writes, Result.taken, EventState.wake] <;> omega
  | poll => exact ⟨sums, bounded⟩
  | resume task =>
    dsimp only [Ledger.step, EventState.perform, EventState.resume]
    cases ledger.state.polls task with
    | none => exact ⟨sums, bounded⟩
    | some future =>
      dsimp only
      split_ifs <;> exact ⟨sums, bounded⟩

/-- Every caller is served exactly if the first value is valid and no step is harmful. -/
theorem eventfd_serves_iff (flags : EventFlags) (initval : Nat) (calls : List Call) :
    (∀ past, past <+: calls → (past.foldl (Ledger.step flags) (.new initval)).Balanced initval) ∧
        Guarded (Ledger.step flags) (fun ledger => Served flags ledger.state) (.new initval) calls ↔
      initval ≤ U64_MAX - 1 ∧ Guarded (Ledger.step flags) (fun ledger => Harmless flags ledger.state) (.new initval) calls := by
  have stale : Stale (Ledger.new initval).state.polls := fun _ _ here => absurd here (by simp [Ledger.new, EventState.new])
  apply and_congr
  · constructor
    · intro throughout
      exact (throughout [] (List.nil_prefix)).2
    · intro bounded past early
      exact List.foldlRecOn past (Ledger.step flags) ⟨rfl, bounded⟩ (fun _ balanced call _ => balanced_step balanced call)
  · apply @guarded_iff_guarded _ _ _ _ (fun ledger => Stale ledger.state.polls)
    · intro ledger call stale _
      exact stale_perform stale call
    · intro ledger call stale
      exact served_iff stale call
    · exact stale

theorem waiters_stranded :
    ¬Guarded (Ledger.step ⟨true, true⟩) (fun ledger => Served ⟨true, true⟩ ledger.state) (.new 0) [.read 1] ∧
    ¬Guarded (Ledger.step ⟨false, false⟩) (fun ledger => Served ⟨false, false⟩ ledger.state) (.new (U64_MAX - 1))
      [.write 1 1, .read 2] ∧
    ¬Guarded (Ledger.step ⟨false, false⟩) (fun ledger => Served ⟨false, false⟩ ledger.state) (.new 0)
      [.poll 1 POLLIN, .resume 1, .write 2 1, .resume 1] := by
  refine ⟨?_, ?_, ?_⟩
  · intro served
    exact served.1.1 rfl rfl
  · intro served
    obtain ⟨task, queued, woken⟩ := served.2.1.2 (by decide) (by decide)
    exact absurd woken (by decide +revert)
  · intro served
    exact absurd (served.2.2.2.1 ⟨POLLIN, 0, true, true⟩ rfl rfl (by decide)) (by decide)

end HermitLocal.Fd.EventFd
