import HermitLocal.Scheduler.Blocked

/-! The scheduler of one core: its current task, its queues, and the input through which the other cores hand it
new tasks and wakeups. -/

namespace HermitLocal.Scheduler.PerCore
open Scheduler.TaskQueues Scheduler.Blocked List Option

structure NewTask where
  tid : TaskId
  prio : Priority
  coreId : CoreId

structure SchedulerInput where
  newTasks : List NewTask
  wakeupTasks : List TaskHandle

structure PerCoreScheduler extends Blocking where
  coreId : CoreId
  currentTask : TaskId
  idleTask : TaskId
  readyQueue : PriorityTaskQueue
  finishedTasks : List TaskId
  input : SchedulerInput
  known : List TaskId
  dropped : List TaskId

def addCurrentCore (core : CoreId) (tid : TaskId) : PerCoreScheduler where
  toBlocking := .new fun task => ⟨if task = tid then .Idle else .Invalid, IDLE_PRIO, core⟩
  coreId := core
  currentTask := tid
  idleTask := tid
  readyQueue := .new
  finishedTasks := []
  input := ⟨[], []⟩
  known := [tid]
  dropped := []

namespace PerCoreScheduler

def currentStatus (self : PerCoreScheduler) : TaskStatus := (self.tasks self.currentTask).status

def enroll (self : PerCoreScheduler) (newTask : NewTask) : Option PerCoreScheduler :=
  let tasks := Function.update self.tasks newTask.tid ⟨.Ready, newTask.prio, newTask.coreId⟩
  (self.readyQueue.push tasks newTask.tid).map fun readyQueue => { self with tasks := tasks, readyQueue := readyQueue }

def spawn (self : PerCoreScheduler) (tid : TaskId) (prio : Priority) : Option PerCoreScheduler :=
  if tid ∈ self.known then none
  else enroll { self with known := tid :: self.known } ⟨tid, prio, self.coreId⟩

def remoteSpawn (self : PerCoreScheduler) (tid : TaskId) (prio : Priority) : Option PerCoreScheduler :=
  if tid ∈ self.known then none
  else some { self with
    known := tid :: self.known
    input.newTasks := self.input.newTasks ++ [⟨tid, prio, self.coreId⟩] }

def remoteWakeup (self : PerCoreScheduler) (task : TaskHandle) : PerCoreScheduler :=
  { self with input.wakeupTasks := self.input.wakeupTasks ++ [task] }

def handleWaitingTasks (self : PerCoreScheduler) (time : Nat) (polled : Option (Option Nat)) : Option PerCoreScheduler :=
  (Blocked.handleWaitingTasks self.coreId time polled self.toBlocking self.readyQueue).map fun (blocking, readyQueue) =>
    { self with toBlocking := blocking, readyQueue := readyQueue }

def wakeup (self : PerCoreScheduler) (ticks : Nat) (task : TaskHandle) : Option PerCoreScheduler :=
  (Blocked.customWakeup self.coreId ticks self.toBlocking task).bind fun (task, blocking) =>
    (self.readyQueue.push blocking.tasks task).map fun readyQueue =>
      { self with toBlocking := blocking, readyQueue := readyQueue }

def customWakeup (self : PerCoreScheduler) (ticks : Nat) (task : TaskHandle) : Option PerCoreScheduler :=
  if task.coreId = self.coreId then self.wakeup ticks task else some self

def blockCurrentTask (self : PerCoreScheduler) (wakeupTime : Option Nat) : Option PerCoreScheduler :=
  (Blocked.add self.toBlocking self.currentTask wakeupTime).map fun blocking => { self with toBlocking := blocking }

def cleanupTasks (self : PerCoreScheduler) : PerCoreScheduler :=
  { self with finishedTasks := [], dropped := self.dropped ++ self.finishedTasks }

def drainWakeups (ticks : Nat) : List TaskHandle → PerCoreScheduler → Option PerCoreScheduler
  | [], self => some self
  | task :: rest, self => (wakeup { self with input.wakeupTasks := rest } ticks task).bind (drainWakeups ticks rest)

def drainNewTasks : List NewTask → PerCoreScheduler → Option PerCoreScheduler
  | [], self => some self
  | newTask :: rest, self => (enroll { self with input.newTasks := rest } newTask).bind (drainNewTasks rest)

def checkInput (self : PerCoreScheduler) (ticks : Nat) : Option PerCoreScheduler :=
  (drainWakeups ticks self.input.wakeupTasks self).bind fun self => drainNewTasks self.input.newTasks self

def retire (self : PerCoreScheduler) : PerCoreScheduler :=
  if self.currentStatus = .Finished then
    { self with
      tasks := setStatus self.tasks self.currentTask .Invalid
      finishedTasks := self.finishedTasks ++ [self.currentTask] }
  else self

def select (self : PerCoreScheduler) : Option (Option TaskId × PerCoreScheduler) :=
  if self.currentStatus = .Running then
    (self.readyQueue.popWithPrio (self.tasks self.currentTask).prio).map fun (newTask, readyQueue) =>
      (newTask, { self with readyQueue := readyQueue })
  else
    self.readyQueue.pop.map fun (popped, readyQueue) =>
      let newTask := match popped with
        | some task => some task
        | none => if self.currentStatus ≠ .Idle then some self.idleTask else none
      (newTask, { self.retire with readyQueue := readyQueue })

def yield (self : PerCoreScheduler) (status : TaskStatus) : Option PerCoreScheduler :=
  if status = .Running then
    let tasks := setStatus self.tasks self.currentTask .Ready
    (self.readyQueue.push tasks self.currentTask).map fun readyQueue =>
      { self with tasks := tasks, readyQueue := readyQueue }
  else some self

def start (self : PerCoreScheduler) (task : TaskId) : PerCoreScheduler :=
  { self with
    tasks := if (self.tasks task).status ≠ .Idle then setStatus self.tasks task .Running else self.tasks
    currentTask := task }

def switch (self : PerCoreScheduler) : Option (Option TaskId × PerCoreScheduler) :=
  self.select.bind fun (newTask, selected) =>
    match newTask with
    | none => some (none, selected)
    | some task => (selected.yield self.currentStatus).map fun yielded =>
        (if self.currentTask = task then none else some self.currentTask, yielded.start task)

def scheduler (self : PerCoreScheduler) : Option (Option TaskId × PerCoreScheduler) := self.cleanupTasks.switch

def wakeupAll (ticks : Nat) : List TaskHandle → PerCoreScheduler → Option PerCoreScheduler
  | [], self => some self
  | task :: rest, self => (self.customWakeup ticks task).bind (wakeupAll ticks rest)

def exit (self : PerCoreScheduler) (ticks : Nat) (waiting : List TaskHandle) : Option PerCoreScheduler :=
  if self.currentStatus = .Idle then none
  else
    let finished := { self with tasks := setStatus self.tasks self.currentTask .Finished }
    (wakeupAll ticks waiting finished).bind fun self =>
      self.scheduler.bind fun (switched, self) => if switched.isSome then some self else none

end PerCoreScheduler

open PerCoreScheduler
/-! What each operation does. -/

theorem count_located (before : List BlockedTask) (node : BlockedTask) (behind : List BlockedTask) (task : TaskId) :
    ((before ++ node :: behind).map BlockedTask.task).count task =
      ((before ++ behind).map BlockedTask.task).count task + if node.task = task then 1 else 0 := by
  rw [map_append, map_cons, count_append, count_cons, map_append, count_append]
  by_cases same : node.task = task
  · rw [if_pos same, if_pos (beq_iff_eq.mpr same)]
    omega
  · rw [if_neg same, if_neg (by rwa [beq_iff_eq])]
    omega

theorem count_insertBefore (newNode : BlockedTask) (wt : Nat) (list : List BlockedTask) (task : TaskId) :
    ((insertBefore newNode wt list).map BlockedTask.task).count task =
      (list.map BlockedTask.task).count task + if newNode.task = task then 1 else 0 := by
  induction list with
  | nil => exact count_located [] newNode [] task
  | cons node rest ih =>
    unfold insertBefore
    split
    · exact count_located [] newNode (node :: rest) task
    · rw [map_cons, count_cons, ih, map_cons, count_cons]
      omega

theorem count_filter_split (keep : BlockedTask → Bool) (list : List BlockedTask) (task : TaskId) :
    (list.map BlockedTask.task).count task = ((list.filter keep).map BlockedTask.task).count task +
      ((list.filter fun node => !keep node).map BlockedTask.task).count task := by
  induction list with
  | nil => rfl
  | cons node rest ih =>
    rw [map_cons, count_cons]
    by_cases kept : keep node = true
    · rw [filter_cons_of_pos kept, filter_cons_of_neg (by simp [kept]), map_cons, count_cons]
      omega
    · rw [filter_cons_of_neg kept, filter_cons_of_pos (by simp [kept]), map_cons, count_cons]
      omega

variable {self next : PerCoreScheduler} {ticks : Nat}

theorem wakeup_cases {handle : TaskHandle} (woken : self.wakeup ticks handle = some next) :
    ∃ blocking readyQueue, next = { self with toBlocking := blocking, readyQueue := readyQueue } ∧
      (self.tasks handle.id).status = .Blocked ∧ blocking.tasks = setStatus self.tasks handle.id .Ready ∧
      readyQueue.entries = handle.id ::ₘ self.readyQueue.entries ∧
      ∀ task, (self.blockedTasks.list.map BlockedTask.task).count task =
        (blocking.blockedTasks.list.map BlockedTask.task).count task + if handle.id = task then 1 else 0 := by
  obtain ⟨⟨task, blocking⟩, found, pushed⟩ := bind_eq_some_iff.mp woken
  obtain ⟨readyQueue, queued, rfl⟩ := map_eq_some_iff.mp pushed
  obtain ⟨rfl, -, blocked, tasks, -, before, node, behind, split, named, list, -⟩ := customWakeup_cases found
  refine ⟨blocking, readyQueue, rfl, blocked, tasks, PriorityTaskQueue.entries_push queued, ?_⟩
  intro task
  rw [split, list, count_located, named]

theorem blockCurrentTask_cases {wakeupTime : Option Nat}
    (blocked : self.blockCurrentTask wakeupTime = some next) :
    ∃ blocking, next = { self with toBlocking := blocking } ∧ self.currentStatus = .Running ∧
      blocking.tasks = setStatus self.tasks self.currentTask .Blocked ∧
      ∀ task, (blocking.blockedTasks.list.map BlockedTask.task).count task =
        (self.blockedTasks.list.map BlockedTask.task).count task + if self.currentTask = task then 1 else 0 := by
  obtain ⟨blocking, added, rfl⟩ := map_eq_some_iff.mp blocked
  obtain ⟨running, tasks, -, ⟨wt, -, list, -⟩ | ⟨-, list, -⟩⟩ := add_cases added
  · refine ⟨blocking, rfl, running, tasks, ?_⟩
    intro task
    rw [list, count_insertBefore]
  · refine ⟨blocking, rfl, running, tasks, ?_⟩
    intro task
    rw [list, count_located, append_nil]

theorem markAndPush_cases {core : CoreId} (list : List BlockedTask) {tasks after : Tasks}
    {readyQueue next : PriorityTaskQueue} (pushed : markAndPush core tasks readyQueue list = some (after, next)) :
    next.entries = readyQueue.entries + (list.map BlockedTask.task : Multiset TaskId) ∧
      (∀ task ∈ list.map BlockedTask.task, (tasks task).status = .Blocked ∧ (after task).status = .Ready) ∧
      ∀ task, task ∉ list.map BlockedTask.task → after task = tasks task := by
  induction list generalizing tasks readyQueue with
  | nil =>
    cases pushed
    exact ⟨(add_zero _).symm, fun _ member => absurd member (by simp), fun _ _ => rfl⟩
  | cons node rest ih =>
    obtain ⟨marked, ready, more⟩ := bind_eq_some_iff.mp pushed
    obtain ⟨queue, queued, others⟩ := bind_eq_some_iff.mp more
    obtain ⟨-, blocked, rfl⟩ := markReady_eq ready
    obtain ⟨entries, inside, outside⟩ := ih others
    -- A task that comes again would have to be blocked, but it is ready now.
    have once : node.task ∉ rest.map BlockedTask.task := by
      intro again
      have status := (inside node.task again).1
      rw [setStatus_status_self] at status
      cases status
    refine ⟨?_, ?_, ?_⟩
    · rw [entries, PriorityTaskQueue.entries_push queued, map_cons, ← Multiset.cons_coe, Multiset.cons_add,
        Multiset.add_cons]
    · intro task member
      rcases mem_cons.mp member with rfl | deeper
      · refine ⟨blocked, ?_⟩
        rw [outside _ once, setStatus_status_self]
      · have apart : task ≠ node.task := fun same => once (same ▸ deeper)
        have status := inside task deeper
        rw [setStatus_other apart] at status
        exact status
    · intro task absent
      have apart : task ≠ node.task := fun same => absent (mem_cons.mpr (.inl same))
      have deeper : task ∉ rest.map BlockedTask.task := fun member => absent (mem_cons_of_mem _ member)
      rw [outside task deeper, setStatus_other apart]

theorem enroll_cases {newTask : NewTask} (admitted : self.enroll newTask = some next) :
    ∃ tasks readyQueue, next = { self with tasks := tasks, readyQueue := readyQueue } ∧
      tasks = Function.update self.tasks newTask.tid ⟨.Ready, newTask.prio, newTask.coreId⟩ ∧
      readyQueue.entries = newTask.tid ::ₘ self.readyQueue.entries := by
  obtain ⟨readyQueue, pushed, rfl⟩ := map_eq_some_iff.mp admitted
  exact ⟨_, readyQueue, rfl, rfl, PriorityTaskQueue.entries_push pushed⟩

/-! What each turn of a loop keeps, the loop keeps; the property may speak of what is left of the list. -/

theorem drainWakeups_keeps (holds : List TaskHandle → PerCoreScheduler → Prop)
    (keeps : ∀ handle rest self next, holds (handle :: rest) self →
      wakeup { self with input.wakeupTasks := rest } ticks handle = some next → holds rest next)
    (handles : List TaskHandle) (start : holds handles self)
    (drained : drainWakeups ticks handles self = some next) : holds [] next := by
  induction handles generalizing self with
  | nil =>
    rwa [← some.inj drained]
  | cons handle rest ih =>
    obtain ⟨between, first, others⟩ := bind_eq_some_iff.mp drained
    exact ih (keeps handle rest self between start first) others

theorem drainNewTasks_keeps (holds : List NewTask → PerCoreScheduler → Prop)
    (keeps : ∀ newTask rest self next, holds (newTask :: rest) self →
      enroll { self with input.newTasks := rest } newTask = some next → holds rest next)
    (newTasks : List NewTask) (start : holds newTasks self)
    (drained : drainNewTasks newTasks self = some next) : holds [] next := by
  induction newTasks generalizing self with
  | nil =>
    rwa [← some.inj drained]
  | cons newTask rest ih =>
    obtain ⟨between, first, others⟩ := bind_eq_some_iff.mp drained
    exact ih (keeps newTask rest self between start first) others

theorem wakeupAll_keeps (holds : PerCoreScheduler → Prop)
    (keeps : ∀ handle self next, holds self → self.customWakeup ticks handle = some next → holds next)
    (waiting : List TaskHandle) (start : holds self) (woken : wakeupAll ticks waiting self = some next) :
    holds next := by
  induction waiting generalizing self with
  | nil =>
    rwa [← some.inj woken]
  | cons handle rest ih =>
    obtain ⟨between, first, others⟩ := bind_eq_some_iff.mp woken
    exact ih (keeps handle self between start first) others

def departed (status : TaskStatus) : TaskStatus :=
  match status with
  | .Running => .Ready
  | .Finished => .Invalid
  | status => status

def switchedTasks (self : PerCoreScheduler) (task : TaskId) : Tasks :=
  let tasks := setStatus self.tasks self.currentTask (departed self.currentStatus)
  if (tasks task).status ≠ .Idle then setStatus tasks task .Running else tasks

theorem setStatus_same (tasks : Tasks) (task : TaskId) : setStatus tasks task (tasks task).status = tasks :=
  Function.update_eq_self task tasks

def switchedTo (self : PerCoreScheduler) (task : TaskId) (readyQueue : PriorityTaskQueue) : PerCoreScheduler :=
  { self with
    tasks := switchedTasks self task
    currentTask := task
    readyQueue := readyQueue
    finishedTasks := self.finishedTasks ++ if self.currentStatus = .Finished then [self.currentTask] else [] }

theorem retire_eq (self : PerCoreScheduler) (notRunning : self.currentStatus ≠ .Running) :
    self.retire = { self with
      tasks := setStatus self.tasks self.currentTask (departed self.currentStatus)
      finishedTasks := self.finishedTasks ++ if self.currentStatus = .Finished then [self.currentTask] else [] } := by
  unfold retire
  by_cases finished : self.currentStatus = .Finished
  · rw [if_pos finished, if_pos finished, finished]
    rfl
  · have same : departed self.currentStatus = self.currentStatus := by
      cases status : self.currentStatus with
      | Running => exact absurd status notRunning
      | Finished => exact absurd status finished
      | _ => rfl
    rw [if_neg finished, if_neg finished, same, append_nil]
    change self = { self with tasks := setStatus self.tasks self.currentTask (self.tasks self.currentTask).status }
    rw [setStatus_same]

theorem switch_cases {switched : Option TaskId} (called : self.switch = some (switched, next)) :
    (∃ readyQueue, next = { self with readyQueue := readyQueue } ∧ readyQueue.entries = self.readyQueue.entries ∧
        switched = none ∧ (self.currentStatus = .Running ∨ self.currentStatus = .Idle)) ∨
      ∃ task readyQueue, next = switchedTo self task readyQueue ∧
        switched = (if self.currentTask = task then none else some self.currentTask) ∧
        ((∃ rest, self.readyQueue.entries = {task} + rest ∧
            readyQueue.entries = (if self.currentStatus = .Running then {self.currentTask} else 0) + rest) ∨
          task = self.idleTask ∧ self.currentStatus ≠ .Running ∧ self.currentStatus ≠ .Idle ∧
            readyQueue.entries = self.readyQueue.entries) := by
  obtain ⟨⟨newTask, selected⟩, chosen, more⟩ := bind_eq_some_iff.mp called
  dsimp only at more
  by_cases running : self.currentStatus = .Running
  · rw [select, if_pos running] at chosen
    obtain ⟨⟨popped, readyQueue⟩, taken, same⟩ := map_eq_some_iff.mp chosen
    obtain ⟨rfl, rfl⟩ := Prod.mk.inj same
    have entries := PriorityTaskQueue.entries_popWithPrio taken
    cases popped with
    | none =>
      cases more
      refine .inl ⟨readyQueue, rfl, ?_, rfl, .inl running⟩
      rw [entries, elim_none, zero_add]
    | some task =>
      obtain ⟨yielded, gave, same⟩ := map_eq_some_iff.mp more
      obtain ⟨rfl, rfl⟩ := Prod.mk.inj same
      rw [yield, if_pos running] at gave
      obtain ⟨pushed, queued, rfl⟩ := map_eq_some_iff.mp gave
      refine .inr ⟨task, pushed, ?_, rfl, .inl ⟨readyQueue.entries, entries, ?_⟩⟩
      · have unfinished : (if self.currentStatus = .Finished then [self.currentTask] else []) = [] :=
          if_neg (by rw [running]; decide)
        have given : departed self.currentStatus = .Ready := by rw [running]; rfl
        rw [switchedTo, switchedTasks, unfinished, given, append_nil]
        rfl
      · rw [if_pos running, Multiset.singleton_add]
        exact PriorityTaskQueue.entries_push queued
  · rw [select, if_neg running, retire_eq self running] at chosen
    obtain ⟨⟨popped, readyQueue⟩, taken, same⟩ := map_eq_some_iff.mp chosen
    obtain ⟨rfl, rfl⟩ := Prod.mk.inj same
    have entries := PriorityTaskQueue.entries_pop taken
    cases popped with
    | some task =>
      rw [yield, if_neg running] at more
      cases more
      refine .inr ⟨task, readyQueue, rfl, rfl, .inl ⟨readyQueue.entries, entries, ?_⟩⟩
      rw [if_neg running, zero_add]
    | none =>
      have unchanged : readyQueue.entries = self.readyQueue.entries := by
        rw [entries, elim_none, zero_add]
      by_cases idle : self.currentStatus = .Idle
      · rw [if_neg (not_not_intro idle)] at more
        cases more
        refine .inl ⟨readyQueue, ?_, unchanged, rfl, .inr idle⟩
        have same : setStatus self.tasks self.currentTask (departed self.currentStatus) = self.tasks := by
          rw [idle]
          change setStatus self.tasks self.currentTask .Idle = self.tasks
          rw [← idle]
          exact setStatus_same self.tasks self.currentTask
        rw [same, idle, if_neg (by decide), append_nil]
      · rw [if_pos idle] at more
        rw [yield, if_neg running] at more
        cases more
        exact .inr ⟨self.idleTask, readyQueue, rfl, rfl, .inr ⟨rfl, running, idle, unchanged⟩⟩

theorem exit_cases {waiting : List TaskHandle} (exited : self.exit ticks waiting = some next) :
    ∃ between switched, wakeupAll ticks waiting { self with tasks := setStatus self.tasks self.currentTask .Finished } =
      some between ∧ between.scheduler = some (switched, next) := by
  unfold PerCoreScheduler.exit at exited
  split at exited
  · cases exited
  · obtain ⟨between, woken, more⟩ := bind_eq_some_iff.mp exited
    obtain ⟨⟨switched, after⟩, called, last⟩ := bind_eq_some_iff.mp more
    dsimp only at last
    split at last
    · cases last
      exact ⟨between, switched, woken, called⟩
    · cases last

end HermitLocal.Scheduler.PerCore
