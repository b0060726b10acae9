import HermitLocal.Lib.Simulation
import HermitLocal.Scheduler.TaskQueues

/-! The blocked tasks of a core, in the order of their wakeup times, and the one-shot timer that its
operations set from what they see: the task that was added, the one behind a removed
one, the front of the list, the time at which the network wants to be polled. -/

namespace HermitLocal.Scheduler.Blocked
open Lib.Simulation Scheduler.TaskQueues List Option

structure BlockedTask where
  task : TaskId
  wakeupTime : Option Nat
deriving DecidableEq, Repr

structure BlockedTaskQueue where
  list : List BlockedTask
  networkWakeupTime : Option Nat

structure Blocking where
  tasks : Tasks
  blockedTasks : BlockedTaskQueue
  oneshotTimer : Option Nat

def Blocking.new (tasks : Tasks) : Blocking := ⟨tasks, ⟨[], none⟩, none⟩

def markReady (core : CoreId) (tasks : Tasks) (task : TaskId) : Option Tasks :=
  if (tasks task).coreId = core ∧ (tasks task).status = .Blocked then some (setStatus tasks task .Ready) else none

def earliest : Option Nat → Option Nat → Option Nat
  | some a, some b => some (min a b)
  | a, b => a.or b

def front (list : List BlockedTask) : Option Nat := list.head?.bind BlockedTask.wakeupTime

def addNetworkTimer (state : Blocking) (wakeupTime : Option Nat) : Blocking :=
  { state with
    blockedTasks.networkWakeupTime := wakeupTime
    oneshotTimer := earliest wakeupTime (front state.blockedTasks.list) }

def insertBefore (newNode : BlockedTask) (wt : Nat) : List BlockedTask → List BlockedTask
  | [] => [newNode]
  | node :: rest =>
      if node.wakeupTime.all (wt < ·) then newNode :: node :: rest else node :: insertBefore newNode wt rest

def timerForNew (networkWakeupTime : Option Nat) (wt : Nat) : Option Nat :=
  match networkWakeupTime with
  | some time => if time > wt then some wt else networkWakeupTime
  | none => some wt

def add (state : Blocking) (task : TaskId) (wakeupTime : Option Nat) : Option Blocking :=
  if (state.tasks task).status = .Running then
    let tasks := setStatus state.tasks task .Blocked
    let newNode := BlockedTask.mk task wakeupTime
    match wakeupTime with
    | some wt => some
        { tasks := tasks
          blockedTasks := { state.blockedTasks with list := insertBefore newNode wt state.blockedTasks.list }
          oneshotTimer := timerForNew state.blockedTasks.networkWakeupTime wt }
    | none => some
        { state with
          tasks := tasks
          blockedTasks := { state.blockedTasks with list := state.blockedTasks.list ++ [newNode] } }
  else none

def locate (task : TaskId) : List BlockedTask → Option (List BlockedTask × BlockedTask × List BlockedTask)
  | [] => none
  | node :: rest =>
      if node.task = task then some ([], node, rest)
      else (locate task rest).map fun (before, found, behind) => (node :: before, found, behind)

def timerForNext (next : Option BlockedTask) (networkWakeupTime : Option Nat) : Option Nat :=
  match next with
  | none => networkWakeupTime
  | some node =>
      match node.wakeupTime with
      | some wt =>
          match networkWakeupTime with
          | some timer => if wt < timer then some wt else some timer
          | none => some wt
      | none => networkWakeupTime

def elapsed (networkWakeupTime : Option Nat) (ticks : Nat) : Option Nat :=
  if networkWakeupTime.any (· ≤ ticks) then none else networkWakeupTime

def customWakeup (core : CoreId) (ticks : Nat) (state : Blocking) (handle : TaskHandle) : Option (TaskId × Blocking) :=
  let networkWakeupTime := elapsed state.blockedTasks.networkWakeupTime ticks
  match locate handle.id state.blockedTasks.list with
  | none => none
  | some (before, node, behind) =>
      let oneshotTimer :=
        if before.isEmpty then timerForNext behind.head? networkWakeupTime else state.oneshotTimer
      (markReady core state.tasks node.task).map fun tasks =>
        (node.task, ⟨tasks, ⟨before ++ behind, networkWakeupTime⟩, oneshotTimer⟩)

def markAndPush (core : CoreId) : Tasks → PriorityTaskQueue → List BlockedTask → Option (Tasks × PriorityTaskQueue)
  | tasks, readyQueue, [] => some (tasks, readyQueue)
  | tasks, readyQueue, node :: rest =>
      (markReady core tasks node.task).bind fun tasks =>
        (readyQueue.push tasks node.task).bind fun readyQueue => markAndPush core tasks readyQueue rest

def expired (time : Nat) (node : BlockedTask) : Bool := node.wakeupTime.any (· < time)

def handleWaitingTasks (core : CoreId) (time : Nat) (polled : Option (Option Nat)) (state : Blocking)
    (readyQueue : PriorityTaskQueue) : Option (Blocking × PriorityTaskQueue) :=
  let networkWakeupTime := polled.getD state.blockedTasks.networkWakeupTime
  let newlyReady := state.blockedTasks.list.filter (expired time)
  let list := state.blockedTasks.list.filter fun node => !expired time node
  (markAndPush core state.tasks readyQueue newlyReady).map fun (tasks, readyQueue) =>
    (⟨tasks, ⟨list, networkWakeupTime⟩, earliest (front list) networkWakeupTime⟩, readyQueue)

/-! The property: sorted, and the timer no later than any time. -/

def Before : Option Nat → Option Nat → Prop
  | _, none => True
  | some a, some b => a ≤ b
  | none, some _ => False

def Sorted (list : List BlockedTask) : Prop := list.Pairwise fun a b => Before a.wakeupTime b.wakeupTime

structure Covered (state : Blocking) : Prop where
  sorted : Sorted state.blockedTasks.list
  armed : ∀ node ∈ state.blockedTasks.list, node.wakeupTime.isSome → ∃ timer, state.oneshotTimer = some timer ∧
    (∀ other ∈ state.blockedTasks.list, ∀ time, other.wakeupTime = some time → timer ≤ time) ∧
    ∀ time, state.blockedTasks.networkWakeupTime = some time → timer ≤ time

inductive Blocking.Call where
  | add (task : TaskId) (wakeupTime : Option Nat)
  | customWakeup (ticks : Nat) (handle : TaskHandle)
  | handleWaitingTasks (time : Nat) (polled : Option (Option Nat)) (readyQueue : PriorityTaskQueue)
  | addNetworkTimer (wakeupTime : Option Nat)
  /-- Whatever the scheduler does with the tasks between two calls. -/
  | other (tasks : Tasks)

def Blocking.perform (core : CoreId) (state : Blocking) : Blocking.Call → Option Blocking
  | .add task wakeupTime => add state task wakeupTime
  | .customWakeup ticks handle => (customWakeup core ticks state handle).map Prod.snd
  | .handleWaitingTasks time polled readyQueue => (handleWaitingTasks core time polled state readyQueue).map Prod.fst
  | .addNetworkTimer wakeupTime => some (addNetworkTimer state wakeupTime)
  | .other tasks => some { state with tasks := tasks }

def Blocking.step (core : CoreId) : Option Blocking → Blocking.Call → Option Blocking := attempt (Blocking.perform core)

def Prompt : Option Blocking → Blocking.Call → Prop
  | some state, .add task (some wt) => (state.tasks task).status = .Running →
      ∀ first, front state.blockedTasks.list = some first →
        wt ≤ first ∨ ∃ time, state.blockedTasks.networkWakeupTime = some time ∧ time ≤ first
  | _, _ => True

/-! The list. -/

variable {task : TaskId} {list : List BlockedTask} {node : BlockedTask} {time ticks : Nat}
  {state next : Blocking} {core : CoreId}

theorem locate_eq {before behind : List BlockedTask} (found : locate task list = some (before, node, behind)) :
    list = before ++ node :: behind ∧ node.task = task ∧ ∀ other ∈ before, other.task ≠ task := by
  induction list generalizing before with
  | nil => exact absurd found (by simp [locate])
  | cons head rest ih =>
    unfold locate at found
    split at found
    · rename_i same
      obtain ⟨rfl, rfl, rfl⟩ : [] = before ∧ head = node ∧ rest = behind := by simpa using found
      exact ⟨rfl, same, by simp⟩
    · rename_i apart
      obtain ⟨⟨earlier, here, later⟩, inner, same⟩ := map_eq_some_iff.mp found
      obtain ⟨rfl, rfl, rfl⟩ : head :: earlier = before ∧ here = node ∧ later = behind := by simpa using same
      obtain ⟨split, named, others⟩ := ih inner
      refine ⟨by rw [split]; rfl, named, ?_⟩
      intro other member
      rcases mem_cons.mp member with rfl | deeper
      · exact apart
      · exact others other deeper

theorem mem_insertBefore {newNode : BlockedTask} {wt : Nat} :
    node ∈ insertBefore newNode wt list ↔ node = newNode ∨ node ∈ list := by
  induction list with
  | nil => simp [insertBefore]
  | cons head rest ih =>
    unfold insertBefore
    split
    · simp
    · rw [mem_cons, ih, mem_cons]
      tauto

theorem Before.trans {first second third : Option Nat} (left : Before first second) (right : Before second third) :
    Before first third := by
  cases third with
  | none => exact trivial
  | some c =>
    cases second with
    | none => exact right.elim
    | some b =>
      cases first with
      | none => exact left.elim
      | some a => exact Nat.le_trans left right

theorem sorted_insertBefore {wt : Nat} (sorted : Sorted list) :
    Sorted (insertBefore ⟨task, some wt⟩ wt list) := by
  induction list with
  | nil => exact pairwise_singleton _ _
  | cons head rest ih =>
    obtain ⟨least, tail⟩ := pairwise_cons.mp sorted
    unfold insertBefore
    split
    · rename_i later
      have ahead : Before (some wt) head.wakeupTime := by
        cases time : head.wakeupTime with
        | none => exact trivial
        | some value =>
          rw [time] at later
          exact Nat.le_of_lt (of_decide_eq_true later)
      apply pairwise_cons.mpr
      refine ⟨?_, sorted⟩
      intro other member
      rcases mem_cons.mp member with rfl | deeper
      · exact ahead
      · exact ahead.trans (least other deeper)
    · rename_i notLater
      have behind : Before head.wakeupTime (some wt) := by
        cases time : head.wakeupTime with
        | none => exact absurd (by rw [time]; rfl) notLater
        | some value =>
          rw [time] at notLater
          exact Nat.le_of_not_lt fun less => notLater (decide_eq_true less)
      apply pairwise_cons.mpr
      refine ⟨?_, ih tail⟩
      intro other member
      rcases mem_insertBefore.mp member with rfl | deeper
      · exact behind
      · exact least other deeper

theorem front_le (sorted : Sorted list) (member : node ∈ list) (timed : node.wakeupTime = some time) :
    ∃ first, front list = some first ∧ first ≤ time := by
  cases list with
  | nil => cases member
  | cons head rest =>
    have least : Before head.wakeupTime (some time) := by
      rcases mem_cons.mp member with rfl | deeper
      · rw [timed]
        exact Nat.le_refl time
      · rw [← timed]
        exact (pairwise_cons.mp sorted).1 node deeper
    cases first : head.wakeupTime with
    | none =>
      rw [first] at least
      exact least.elim
    | some value =>
      rw [first] at least
      exact ⟨value, first, least⟩

theorem front_mem {first : Nat} (timed : front list = some first) :
    ∃ node ∈ list, node.wakeupTime = some first := by
  cases list with
  | nil => exact absurd timed (by simp [front])
  | cons head rest => exact ⟨head, mem_cons_self, timed⟩

def Covers (timer first network : Option Nat) : Prop :=
  ∀ time, first = some time → ∃ value, timer = some value ∧ value ≤ time ∧ ∀ other, network = some other → value ≤ other

theorem covered_iff (sorted : Sorted state.blockedTasks.list) : Covered state ↔
      Covers state.oneshotTimer (front state.blockedTasks.list) state.blockedTasks.networkWakeupTime := by
  constructor
  · intro covered time timed
    obtain ⟨node, member, own⟩ := front_mem timed
    obtain ⟨timer, set, blocked, network⟩ := covered.armed node member (by rw [own]; rfl)
    exact ⟨timer, set, blocked node member time own, network⟩
  · intro covers
    refine ⟨sorted, ?_⟩
    intro node member timed
    obtain ⟨time, own⟩ := isSome_iff_exists.mp timed
    obtain ⟨first, atFront, -⟩ := front_le sorted member own
    obtain ⟨timer, set, early, network⟩ := covers first atFront
    refine ⟨timer, set, ?_, network⟩
    intro other among value has
    obtain ⟨same, again, below⟩ := front_le sorted among has
    rw [atFront] at again
    rw [← some.inj again] at below
    exact Nat.le_trans early below

theorem covers_earliest (first network : Option Nat) : Covers (earliest first network) first network := by
  rintro time rfl
  cases network with
  | none => exact ⟨time, rfl, Nat.le_refl _, fun _ absent => absurd absent (by simp)⟩
  | some other =>
    refine ⟨min time other, rfl, Nat.min_le_left _ _, ?_⟩
    intro value same
    cases same
    exact Nat.min_le_right _ _

theorem earliest_comm (first second : Option Nat) : earliest first second = earliest second first := by
  cases first <;> cases second
  · rfl
  · rfl
  · rfl
  · exact congrArg some (Nat.min_comm _ _)

theorem timerForNext_eq (behind : List BlockedTask) (networkWakeupTime : Option Nat) :
    timerForNext behind.head? networkWakeupTime = earliest (front behind) networkWakeupTime := by
  unfold timerForNext front
  cases behind with
  | nil => cases networkWakeupTime <;> rfl
  | cons node rest =>
    obtain ⟨task, wakeupTime⟩ := node
    dsimp only [head?_cons, bind_some]
    cases wakeupTime with
    | none => cases networkWakeupTime <;> rfl
    | some wt =>
      cases networkWakeupTime with
      | none => rfl
      | some timer =>
        dsimp only [earliest]
        split
        · rw [Nat.min_eq_left (by omega)]
        · rw [Nat.min_eq_right (by omega)]

theorem timerForNew_eq (networkWakeupTime : Option Nat) (wt : Nat) :
    timerForNew networkWakeupTime wt = earliest (some wt) networkWakeupTime := by
  unfold timerForNew
  cases networkWakeupTime with
  | none => rfl
  | some time =>
    dsimp only [earliest]
    split
    · rw [Nat.min_eq_left (by omega)]
    · rw [Nat.min_eq_right (by omega)]

theorem elapsed_sub {networkWakeupTime : Option Nat} (kept : elapsed networkWakeupTime ticks = some time) :
    networkWakeupTime = some time := by
  unfold elapsed at kept
  split at kept
  · cases kept
  · exact kept

/-! What each call leaves. -/

theorem add_cases {wakeupTime : Option Nat} (added : add state task wakeupTime = some next) :
    (state.tasks task).status = .Running ∧ next.tasks = setStatus state.tasks task .Blocked ∧
      next.blockedTasks.networkWakeupTime = state.blockedTasks.networkWakeupTime ∧
      ((∃ wt, wakeupTime = some wt ∧ next.blockedTasks.list = insertBefore ⟨task, some wt⟩ wt state.blockedTasks.list ∧
          next.oneshotTimer = earliest (some wt) state.blockedTasks.networkWakeupTime) ∨
        wakeupTime = none ∧ next.blockedTasks.list = state.blockedTasks.list ++ [⟨task, none⟩] ∧
          next.oneshotTimer = state.oneshotTimer) := by
  unfold add at added
  split at added
  · rename_i running
    split at added
    · rename_i wt
      cases added
      exact ⟨running, rfl, rfl, .inl ⟨wt, rfl, rfl, timerForNew_eq _ _⟩⟩
    · cases added
      exact ⟨running, rfl, rfl, .inr ⟨rfl, rfl, rfl⟩⟩
  · cases added

theorem markReady_eq {tasks next : Tasks} (marked : markReady core tasks task = some next) :
    (tasks task).coreId = core ∧ (tasks task).status = .Blocked ∧ next = setStatus tasks task .Ready := by
  unfold markReady at marked
  split at marked
  · rename_i blocked
    exact ⟨blocked.1, blocked.2, (some.inj marked).symm⟩
  · cases marked

theorem customWakeup_cases {handle : TaskHandle}
    (woken : customWakeup core ticks state handle = some (task, next)) :
    task = handle.id ∧ (state.tasks task).coreId = core ∧ (state.tasks task).status = .Blocked ∧
      next.tasks = setStatus state.tasks task .Ready ∧
      next.blockedTasks.networkWakeupTime = elapsed state.blockedTasks.networkWakeupTime ticks ∧
      ∃ before node behind, state.blockedTasks.list = before ++ node :: behind ∧ node.task = task ∧
        next.blockedTasks.list = before ++ behind ∧
        next.oneshotTimer = if before.isEmpty then earliest (front behind) next.blockedTasks.networkWakeupTime
          else state.oneshotTimer := by
  unfold customWakeup at woken
  split at woken
  · cases woken
  · rename_i before node behind found
    obtain ⟨split, named, -⟩ := locate_eq found
    obtain ⟨tasks, marked, same⟩ := map_eq_some_iff.mp woken
    obtain ⟨rfl, rfl⟩ := Prod.mk.inj same
    obtain ⟨own, blocked, ready⟩ := markReady_eq marked
    rw [timerForNext_eq]
    exact ⟨named, own, blocked, ready, rfl, before, node, behind, split, rfl, rfl, rfl⟩

theorem handleWaitingTasks_cases {polled : Option (Option Nat)} {readyQueue nextQueue : PriorityTaskQueue}
    (handled : handleWaitingTasks core time polled state readyQueue = some (next, nextQueue)) :
    markAndPush core state.tasks readyQueue (state.blockedTasks.list.filter (expired time)) =
        some (next.tasks, nextQueue) ∧
      next.blockedTasks.list = state.blockedTasks.list.filter (fun node => !expired time node) ∧
      next.oneshotTimer = earliest (front next.blockedTasks.list) next.blockedTasks.networkWakeupTime := by
  obtain ⟨⟨tasks, queue⟩, pushed, same⟩ := map_eq_some_iff.mp handled
  obtain ⟨rfl, rfl⟩ := Prod.mk.inj same
  exact ⟨pushed, rfl, rfl⟩

/-! Each call keeps the list sorted, and all but an addition set the timer right. -/

theorem front_insertBefore (task : TaskId) (wt : Nat) (list : List BlockedTask) :
    front (insertBefore ⟨task, some wt⟩ wt list) = some wt ∨
      ∃ first, front list = some first ∧ first ≤ wt ∧ front (insertBefore ⟨task, some wt⟩ wt list) = some first := by
  cases list with
  | nil => exact .inl rfl
  | cons head rest =>
    unfold insertBefore
    split
    · exact .inl rfl
    · rename_i notLater
      cases time : head.wakeupTime with
      | none => exact absurd (by rw [time]; rfl) notLater
      | some value =>
        rw [time] at notLater
        exact .inr ⟨value, time, Nat.le_of_not_lt fun less => notLater (decide_eq_true less), time⟩

section
variable (covered : Covered state)

include covered

theorem covered_add_iff {wt : Nat} (added : add state task (some wt) = some next) :
    Covered next ↔ Prompt (some state) (.add task (some wt)) := by
  obtain ⟨running, -, network, ⟨_, ⟨⟩, list, timer⟩ | ⟨absent, -, -⟩⟩ := add_cases added
  · have sorted : Sorted next.blockedTasks.list := list ▸ sorted_insertBefore covered.sorted
    rw [covered_iff sorted, list, timer, network]
    constructor
    · intro covers _ first atFront
      rcases front_insertBefore task wt state.blockedTasks.list with ahead | ⟨_, same, -, again⟩
      · -- The new task is the first one, so that the old front is not earlier than it.
        obtain ⟨node, member, timed⟩ := front_mem atFront
        obtain ⟨_, ahead', early⟩ := front_le sorted (list ▸ mem_insertBefore.mpr (.inr member)) timed
        rw [list, ahead] at ahead'
        exact .inl ((some.inj ahead').symm ▸ early)
      · rw [atFront] at same
        obtain ⟨value, set, early, others⟩ := covers first (by rw [again, same])
        cases networkTime : state.blockedTasks.networkWakeupTime with
        | none =>
          rw [networkTime] at set
          exact .inl (some.inj set ▸ early)
        | some other =>
          rw [networkTime] at set
          have least : min wt other = value := some.inj set
          rcases Nat.le_total wt other with before | before
          · exact .inl (by omega)
          · exact .inr ⟨other, rfl, by omega⟩
    · intro prompt time timed
      obtain ⟨value, set, early, others⟩ := covers_earliest (some wt) state.blockedTasks.networkWakeupTime wt rfl
      refine ⟨value, set, ?_, others⟩
      rcases front_insertBefore task wt state.blockedTasks.list with ahead | ⟨first, same, -, again⟩
      · rw [ahead] at timed
        exact some.inj timed ▸ early
      · rw [again] at timed
        rw [← some.inj timed]
        rcases prompt running first same with below | ⟨other, set', below⟩
        · exact Nat.le_trans early below
        · exact Nat.le_trans (others other set') below
  · cases absent

theorem covered_add_indefinite (added : add state task none = some next) : Covered next := by
  obtain ⟨-, -, network, ⟨_, ⟨⟩, -, -⟩ | ⟨-, list, timer⟩⟩ := add_cases added
  have sorted : Sorted next.blockedTasks.list := by
    rw [list]
    apply pairwise_append.mpr
    refine ⟨covered.sorted, pairwise_singleton _ _, ?_⟩
    intro node _ last member
    rw [mem_singleton.mp member]
    exact trivial
  have same : front next.blockedTasks.list = front state.blockedTasks.list := by
    rw [list]
    cases state.blockedTasks.list <;> rfl
  rw [covered_iff sorted, timer, network, same]
  exact (covered_iff covered.sorted).mp covered

theorem covered_customWakeup {handle : TaskHandle}
    (woken : customWakeup core ticks state handle = some (task, next)) : Covered next := by
  obtain ⟨-, -, -, -, network, before, node, behind, split, -, list, timer⟩ := customWakeup_cases woken
  have sorted : Sorted next.blockedTasks.list := by
    have part : (before ++ behind).Sublist state.blockedTasks.list := by
      rw [split]
      exact List.Sublist.append_left (sublist_cons_self node behind) before
    rw [list]
    exact List.Pairwise.sublist part covered.sorted
  rw [covered_iff sorted, timer, list]
  cases before with
  | nil => exact covers_earliest _ _
  | cons first others =>
    intro time timed
    obtain ⟨value, set, early, bound⟩ := (covered_iff covered.sorted).mp covered time (by rw [split]; exact timed)
    refine ⟨value, set, early, ?_⟩
    intro other kept
    rw [network] at kept
    exact bound other (elapsed_sub kept)

theorem covered_handleWaitingTasks {polled : Option (Option Nat)} {readyQueue nextQueue : PriorityTaskQueue}
    (handled : handleWaitingTasks core time polled state readyQueue = some (next, nextQueue)) : Covered next := by
  obtain ⟨-, list, timer⟩ := handleWaitingTasks_cases handled
  have sorted : Sorted next.blockedTasks.list := list ▸ List.Pairwise.sublist filter_sublist covered.sorted
  rw [covered_iff sorted, timer]
  exact covers_earliest _ _

theorem covered_addNetworkTimer (wakeupTime : Option Nat) : Covered (addNetworkTimer state wakeupTime) := by
  have sorted : Sorted (addNetworkTimer state wakeupTime).blockedTasks.list := covered.sorted
  rw [covered_iff sorted]
  unfold addNetworkTimer
  rw [earliest_comm]
  exact covers_earliest _ _

theorem covered_perform_iff {call : Blocking.Call} (ran : Blocking.perform core state call = some next) :
    Covered next ↔ Prompt (some state) call := by
  cases call with
  | add task wakeupTime =>
    cases wakeupTime with
    | none => exact iff_of_true (covered_add_indefinite covered ran) trivial
    | some wt => exact covered_add_iff covered ran
  | customWakeup ticks handle =>
    obtain ⟨⟨task, reached⟩, woken, rfl⟩ := map_eq_some_iff.mp ran
    exact iff_of_true (covered_customWakeup covered woken) trivial
  | handleWaitingTasks time polled readyQueue =>
    obtain ⟨⟨reached, queue⟩, handled, rfl⟩ := map_eq_some_iff.mp ran
    exact iff_of_true (covered_handleWaitingTasks covered handled) trivial
  | addNetworkTimer wakeupTime =>
    cases ran
    exact iff_of_true (covered_addNetworkTimer covered wakeupTime) trivial
  | other tasks =>
    cases ran
    exact iff_of_true { covered with } trivial

end

theorem covered_step_iff (core : CoreId) (state : Option Blocking) (call : Blocking.Call) (covered : IfAny Covered state) :
    IfAny Covered (Blocking.step core state call) ↔ Prompt state call := by
  cases state with
  | none => exact iff_of_true (fun _ absent => absurd absent (by simp [Blocking.step, attempt])) trivial
  | some reached =>
    have now : Covered reached := covered reached rfl
    cases ran : Blocking.perform core reached call with
    | some next =>
      rw [← covered_perform_iff now ran]
      constructor
      · intro any
        exact any next ran
      · intro after other same
        rw [← some.inj (ran.symm.trans same)]
        exact after
    | none =>
      have blocked : Prompt (some reached) call := by
        cases call with
        | add task wakeupTime =>
          cases wakeupTime with
          | none => exact trivial
          | some wt =>
            intro running
            rw [Blocking.perform, add, if_pos running] at ran
            cases ran
        | _ => exact trivial
      exact iff_of_true (fun _ same => absurd (ran.symm.trans same) (by simp)) blocked

theorem covered_new (tasks : Tasks) : Covered (.new tasks) :=
  ⟨List.Pairwise.nil, fun _ member => absurd member (by simp [Blocking.new])⟩

/-- The timer covers the earliest sleeper exactly if none is put behind an earlier one. -/
theorem timer_covers_iff (core : CoreId) (tasks : Tasks) (calls : List Blocking.Call) :
    (∀ past, past <+: calls → ∀ state, past.foldl (Blocking.step core) (some (.new tasks)) = some state → Covered state) ↔
      Guarded (Blocking.step core) Prompt (some (.new tasks)) calls := by
  exact guarded_iff_throughout (covered_step_iff core) (ifAny_some (covered_new tasks)) calls

theorem later_sleeper_postpones_timer :
    ∃ state, [.add 1 (some 10), .other fun _ => ⟨.Running, 2, 0⟩, .add 2 (some 20)].foldl (Blocking.step 0)
        (some (.new fun _ => ⟨.Running, 2, 0⟩)) = some state ∧
      state.blockedTasks.list = [⟨1, some 10⟩, ⟨2, some 20⟩] ∧ state.oneshotTimer = some 20 ∧ ¬ Covered state := by
  refine ⟨_, rfl, by decide, rfl, ?_⟩
  intro covered
  obtain ⟨timer, set, early, -⟩ := covered.armed ⟨1, some 10⟩ (by decide) rfl
  have late : timer ≤ 10 := early ⟨1, some 10⟩ (by decide) 10 rfl
  rw [← some.inj set] at late
  exact absurd late (by decide)

end HermitLocal.Scheduler.Blocked
