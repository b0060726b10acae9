import HermitLocal.Scheduler.Wakeups

/-! A core on which tasks block without a time, and exit. What each operation of its scheduler does to the tasks that are
blocked, to those that have exited and to the wakeups in its input; and that a wakeup of a blocked task comes back. -/

namespace HermitLocal.Scheduler.CoreEffects
open Scheduler.TaskQueues Scheduler.PerCore Function List Option
open Scheduler.Blocked Scheduler.Placement
open Scheduler.Wakeups

def Blocks (scheduler : PerCoreScheduler) (task : TaskId) : Prop := (scheduler.tasks task).status = .Blocked

def Exited (scheduler : PerCoreScheduler) (task : TaskId) : Prop :=
  Gone scheduler task ∨ scheduler.currentTask = task ∧ scheduler.currentStatus = .Finished

def Ranked (task : Task) : Prop := task.status = .Idle ∨ task.status = .Invalid ∨ task.prio.toNat < NO_PRIORITIES

structure Orderly (core : CoreId) (scheduler : PerCoreScheduler) : Prop extends Tidy core scheduler where
  placed : Invariant true scheduler
  ranked : ∀ task, Ranked (scheduler.tasks task)
  timeless : ∀ node ∈ scheduler.blockedTasks.list, node.wakeupTime = none

theorem setStatus_prio (tasks : Tasks) (task : TaskId) (status : TaskStatus) (other : TaskId) :
    (setStatus tasks task status other).prio = (tasks other).prio := by
  by_cases same : other = task
  · rw [same, setStatus, update_self]
  · rw [setStatus_other same]

variable {task : TaskId} {self next : PerCoreScheduler}

theorem ranked_setStatus {tasks : Tasks} (ranked : ∀ other, Ranked (tasks other)) {status : TaskStatus}
    (allowed : status = .Idle ∨ status = .Invalid ∨ (tasks task).prio.toNat < NO_PRIORITIES) (other : TaskId) :
    Ranked (setStatus tasks task status other) := by
  by_cases same : other = task
  · subst same
    unfold Ranked
    rwa [setStatus_status_self, setStatus_prio]
  · rw [setStatus_other same]
    exact ranked other

theorem Ranked.prio {task : Task} {status : TaskStatus} (ranked : Ranked task) (known : task.status = status)
    (busy : status ≠ .Idle) (valid : status ≠ .Invalid) : task.prio.toNat < NO_PRIORITIES := by
  subst known
  exact (ranked.resolve_left busy).resolve_left valid

theorem push_prio {queue next : PriorityTaskQueue} {tasks : Tasks}
    (pushed : queue.push tasks task = some next) : (tasks task).prio.toNat < NO_PRIORITIES := by
  unfold PriorityTaskQueue.push at pushed
  dsimp only at pushed
  split at pushed
  · assumption
  · cases pushed

section Whereabouts
variable {core : CoreId} {self : PerCoreScheduler} (orderly : Orderly core self)

include orderly

theorem Orderly.blocks_known (blocks : Blocks self task) : task ∈ self.known := by
  have listed : 0 < (occupancy self task).blocked := listed_iff.mp (orderly.listed task blocks)
  have fits := orderly.placed.fits task
  have ordinary : kind self task = .ordinary := by
    generalize occupancy self task = places at fits listed
    generalize (self.tasks task).status = status at fits
    cases sort : kind self task with
    | ordinary => rfl
    | _ =>
      rw [sort] at fits
      cases fits
      cases listed
  exact (kind_ordinary ordinary).2.1

end Whereabouts

/-! What an operation does to the tasks that wait. -/

structure Steady (before after : PerCoreScheduler) : Prop where
  blocks : ∀ task, Blocks after task ↔ Blocks before task
  exited : ∀ task, Exited after task ↔ Exited before task
  wakeups : after.input.wakeupTasks = before.input.wakeupTasks

structure Woken (tasks : List TaskId) (before after : PerCoreScheduler) : Prop where
  blocks : ∀ task, Blocks after task ↔ Blocks before task ∧ task ∉ tasks
  exited : ∀ task, Exited after task ↔ Exited before task
  ready : after.readyQueue.entries = (tasks : Multiset TaskId) + before.readyQueue.entries
  known : after.known = before.known

theorem Woken.nothing (self : PerCoreScheduler) : Woken [] self self :=
  ⟨fun _ => (and_iff_left not_mem_nil).symm, fun _ => Iff.rfl, (zero_add _).symm, rfl⟩

theorem Woken.cons {tasks : List TaskId} {between : PerCoreScheduler} (first : Woken [task] self between)
    (rest : Woken tasks between next) : Woken (task :: tasks) self next := by
  constructor
  case blocks =>
    intro other
    rw [rest.blocks, first.blocks, mem_singleton, mem_cons, not_or, and_assoc]
  case exited =>
    intro other
    rw [rest.exited, first.exited]
  case ready =>
    rw [rest.ready, first.ready, ← add_assoc]
    congr 1
    rw [add_comm, Multiset.coe_singleton, Multiset.singleton_add, Multiset.cons_coe]
  case known => exact rest.known.trans first.known

theorem blocked_switchedTasks {new : TaskId}
    (status : (self.tasks new).status = .Ready ∨ (self.tasks new).status = .Idle)
    (blocked : (self.tasks task).status = .Blocked) : (switchedTasks self new task).status = .Blocked := by
  have apart : task ≠ new := by
    rintro rfl
    rcases status with ready | idle
    · exact TaskStatus.noConfusion (blocked.symm.trans ready)
    · exact TaskStatus.noConfusion (blocked.symm.trans idle)
  have departing : (setStatus self.tasks self.currentTask (departed self.currentStatus) task).status = .Blocked := by
    by_cases same : task = self.currentTask
    · subst same
      rw [setStatus_status_self, show self.currentStatus = .Blocked from blocked]
      rfl
    · rwa [setStatus_other same]
  unfold switchedTasks
  split
  · rwa [setStatus_other apart]
  · exact departing

theorem ranked_switchedTasks {new : TaskId} (ranked : ∀ task, Ranked (self.tasks task))
    (status : (self.tasks new).status = .Ready ∨ (self.tasks new).status = .Idle) (task : TaskId) :
    Ranked (switchedTasks self new task) := by
  have departing (other : TaskId) :
      Ranked (setStatus self.tasks self.currentTask (departed self.currentStatus) other) := by
    apply ranked_setStatus ranked
    have before := ranked self.currentTask
    change self.currentStatus = _ ∨ self.currentStatus = _ ∨ _ at before
    cases current : self.currentStatus with
    | Finished => exact Or.inr (Or.inl rfl)
    | Running =>
      rw [current] at before
      exact Or.inr (Or.inr ((before.resolve_left (by decide)).resolve_left (by decide)))
    | _ =>
      rw [current] at before
      exact before
  unfold switchedTasks
  split
  next busy =>
    apply ranked_setStatus departing
    apply Or.inr (Or.inr _)
    rw [setStatus_prio]
    rcases status with ready | idle
    · exact (ranked new).prio ready (by decide) (by decide)
    · apply absurd _ busy
      by_cases same : new = self.currentTask
      · subst same
        rw [setStatus_status_self, show self.currentStatus = .Idle from idle]
        rfl
      · rwa [setStatus_other same]
  · exact departing task

theorem exited_cleanupTasks (self : PerCoreScheduler) (task : TaskId) : Exited self.cleanupTasks task ↔ Exited self task := by
  apply or_congr_left
  change task ∈ [] ∨ task ∈ self.dropped ++ self.finishedTasks ↔ task ∈ self.finishedTasks ∨ task ∈ self.dropped
  rw [or_iff_right not_mem_nil, mem_append, or_comm]

theorem exited_switchedTo (self : PerCoreScheduler) (new : TaskId) (readyQueue : PriorityTaskQueue) (task : TaskId) :
    Exited (switchedTo self new readyQueue) task ↔ Exited self task := by
  have current : ¬ ((switchedTo self new readyQueue).currentTask = task ∧
      (switchedTo self new readyQueue).currentStatus = .Finished) := by
    rintro ⟨-, finished⟩
    change (switchedTasks self new new).status = .Finished at finished
    unfold switchedTasks at finished
    split at finished
    · rw [setStatus_status_self] at finished
      cases finished
    next idle =>
      rw [not_not.mp idle] at finished
      cases finished
  have ended : task ∈ (if self.currentStatus = .Finished then [self.currentTask] else []) ↔
      self.currentTask = task ∧ self.currentStatus = .Finished := by
    split
    next finished => exact mem_singleton.trans (eq_comm.trans (and_iff_left finished).symm)
    next going => exact ⟨fun member => absurd member not_mem_nil, fun both => absurd both.2 going⟩
  unfold Exited
  rw [or_iff_left current]
  unfold Gone switchedTo
  rw [mem_append]
  tauto

section Operations
variable {core : CoreId} {self next : PerCoreScheduler} (orderly : Orderly core self)

include orderly

theorem Orderly.setWakeups (wakeups : List TaskHandle) : Orderly core { self with input.wakeupTasks := wakeups } :=
  ⟨orderly.toTidy.setWakeups wakeups, orderly.placed.setWakeups wakeups, orderly.ranked, orderly.timeless⟩

theorem Orderly.blockCurrentTask (ran : self.blockCurrentTask none = some next) :
    Orderly core next ∧ (∀ task, Blocks next task ↔ Blocks self task ∨ task = self.currentTask) ∧
      (∀ task, Exited next task ↔ Exited self task) ∧ next.input = self.input ∧ next.known = self.known := by
  have tidy := (orderly.toTidy.blockCurrentTask ran).1
  have placed := orderly.placed.blockCurrentTask ran
  obtain ⟨blocking, added, rfl⟩ := map_eq_some_iff.mp ran
  obtain ⟨running, tasks, -, ⟨wt, timed, -⟩ | ⟨-, list, -⟩⟩ := add_cases added
  · cases timed
  have status : self.currentStatus = .Running := running
  refine ⟨⟨tidy, placed, ?_, ?_⟩, ?_, ?_, rfl, rfl⟩
  · intro task
    rw [tasks]
    apply ranked_setStatus orderly.ranked
    exact .inr (.inr ((orderly.ranked self.currentTask).prio running (by decide) (by decide)))
  · intro node member
    rw [list] at member
    rcases mem_append.mp member with before | new
    · exact orderly.timeless node before
    · rw [mem_singleton.mp new]
  · intro task
    change (blocking.tasks task).status = .Blocked ↔ _
    rw [tasks]
    by_cases same : task = self.currentTask
    · rw [same, setStatus_status_self]
      exact ⟨fun _ => Or.inr rfl, fun _ => rfl⟩
    · rw [setStatus_other same]
      exact (or_iff_left same).symm
  · intro task
    have after : (blocking.tasks self.currentTask).status = .Blocked := by rw [tasks, setStatus_status_self]
    apply or_congr_right
    constructor
    · rintro ⟨-, finished⟩
      exact TaskStatus.noConfusion (after.symm.trans finished)
    · rintro ⟨-, finished⟩
      exact TaskStatus.noConfusion (status.symm.trans finished)

omit orderly in
theorem woken_ready {blocking : Blocking} {readyQueue : PriorityTaskQueue} (blocks : Blocks self task)
    (tasks : blocking.tasks = setStatus self.tasks task .Ready)
    (pushed : self.readyQueue.push blocking.tasks task = some readyQueue) :
    Woken [task] self { self with toBlocking := blocking, readyQueue := readyQueue } := by
  constructor
  case known => rfl
  case ready =>
    rw [Multiset.coe_singleton, Multiset.singleton_add]
    exact PriorityTaskQueue.entries_push pushed
  case blocks =>
    intro other
    change (blocking.tasks other).status = .Blocked ↔ _
    rw [tasks, mem_singleton]
    by_cases same : other = task
    · rw [same, setStatus_status_self]
      exact ⟨fun ready => TaskStatus.noConfusion ready, fun both => absurd rfl both.2⟩
    · rw [setStatus_other same]
      exact (and_iff_left same).symm
  case exited =>
    intro other
    apply or_congr_right
    change self.currentTask = other ∧ (blocking.tasks self.currentTask).status = .Finished ↔ _
    apply and_congr_right
    intro _
    rw [tasks]
    by_cases same : self.currentTask = task
    · rw [PerCoreScheduler.currentStatus, same, setStatus_status_self, show (self.tasks task).status = .Blocked from blocks]
      decide
    · rw [setStatus_other same]
      rfl

theorem Orderly.wakeup (ticks : Nat) {handle : TaskHandle} (blocks : Blocks self handle.id) :
    ∃ next, self.wakeup ticks handle = some next ∧ Orderly core next ∧ Woken [handle.id] self next ∧
      next.input = self.input := by
  obtain ⟨⟨task, blocking⟩, found⟩ := isSome_iff_exists.mp (orderly.toTidy.finds ticks blocks).returns
  obtain ⟨rfl, -, -, tasks, -, before, node, behind, split, -, list, -⟩ := customWakeup_cases found
  have prio := (orderly.ranked handle.id).prio blocks (by decide) (by decide)
  obtain ⟨readyQueue, pushed⟩ : ∃ readyQueue, self.readyQueue.push blocking.tasks handle.id = some readyQueue := by
    unfold PriorityTaskQueue.push
    rw [tasks, setStatus_prio]
    exact ⟨_, dif_pos prio⟩
  have woken : self.wakeup ticks handle = some { self with toBlocking := blocking, readyQueue := readyQueue } := by
    unfold PerCoreScheduler.wakeup
    rw [found, bind_some]
    dsimp only
    rw [pushed, map_some]
  refine ⟨_, woken, ⟨(orderly.toTidy.wakeup woken).1, orderly.placed.wakeup woken, ?_, ?_⟩,
    woken_ready blocks tasks pushed, rfl⟩
  · intro task
    rw [tasks]
    exact ranked_setStatus orderly.ranked (.inr (.inr prio)) task
  · intro other member
    rw [list] at member
    apply orderly.timeless other
    rw [split]
    rcases mem_append.mp member with front | back
    · exact mem_append_left _ front
    · exact mem_append_right _ (mem_cons_of_mem _ back)

theorem Orderly.handleWaitingTasks {time : Nat} {polled : Option (Option Nat)}
    (ran : self.handleWaitingTasks time polled = some next) :
    Orderly core next ∧ Steady self next ∧ next.known = self.known := by
  have tidy := (orderly.toTidy.handleWaitingTasks ran).1
  have placed := orderly.placed.handleWaitingTasks ran
  have none : self.blockedTasks.list.filter (expired time) = [] := by
    rw [filter_eq_nil_iff]
    intro node member
    rw [expired, orderly.timeless node member]
    exact Bool.false_ne_true
  obtain ⟨⟨blocking, readyQueue⟩, waited, rfl⟩ := map_eq_some_iff.mp ran
  obtain ⟨pushed, list, -⟩ := handleWaitingTasks_cases waited
  rw [show self.toBlocking.blockedTasks.list.filter (expired time) = [] from none] at pushed
  have tasks : self.tasks = blocking.tasks := (Prod.mk.inj (some.inj pushed)).1
  refine ⟨⟨tidy, placed, ?_, ?_⟩, ⟨?_, ?_, rfl⟩, rfl⟩
  · intro task
    rw [← tasks]
    exact orderly.ranked task
  · intro node member
    rw [list] at member
    exact orderly.timeless node (mem_of_mem_filter member)
  · intro task
    change (blocking.tasks task).status = .Blocked ↔ _
    rw [← tasks]
    rfl
  · intro task
    change _ ∨ self.currentTask = task ∧ (blocking.tasks self.currentTask).status = .Finished ↔ _
    rw [← tasks]
    rfl

theorem Orderly.chosen {readyQueue : PriorityTaskQueue}
    (chosen : (∃ rest, self.readyQueue.entries = {task} + rest ∧
        readyQueue.entries = (if self.currentStatus = .Running then {self.currentTask} else 0) + rest) ∨
      task = self.idleTask ∧ self.currentStatus ≠ .Running ∧ self.currentStatus ≠ .Idle ∧
        readyQueue.entries = self.readyQueue.entries) :
    (self.tasks task).status = .Ready ∨ (self.tasks task).status = .Idle := by
  rcases chosen with ⟨rest, entries, -⟩ | ⟨rfl, -⟩
  · have queued : 0 < (occupancy self task).ready := by
      change 0 < self.readyQueue.entries.count task
      rw [entries, Multiset.count_add, Multiset.count_singleton_self]
      omega
    exact .inl ((orderly.placed.fits task).start queued).1
  · exact .inr orderly.placed.idle_status.1

theorem Orderly.scheduler {switched : Option TaskId} (ran : self.scheduler = some (switched, next)) :
    Orderly core next ∧ Steady self next ∧ next.known = self.known := by
  have tidy := (orderly.toTidy.scheduler ran).1
  have placed := (orderly.placed.scheduler ran).relax
  rcases switch_cases ran with ⟨readyQueue, rfl, -⟩ | ⟨new, readyQueue, rfl, -, popped⟩
  · exact ⟨⟨tidy, placed, orderly.ranked, orderly.timeless⟩,
      ⟨fun _ => Iff.rfl, exited_cleanupTasks self, rfl⟩, rfl⟩
  · have status := orderly.chosen popped
    refine ⟨⟨tidy, placed, ?_, orderly.timeless⟩, ⟨?_, ?_, rfl⟩, rfl⟩
    · exact ranked_switchedTasks orderly.ranked status
    · intro task
      exact ⟨switchedTasks_blocked, fun blocks => blocked_switchedTasks status blocks⟩
    · intro task
      exact (exited_switchedTo self.cleanupTasks new readyQueue task).trans (exited_cleanupTasks self task)

theorem Orderly.finish (running : self.currentStatus = .Running)
    (finished : next = { self with tasks := setStatus self.tasks self.currentTask .Finished }) :
    Orderly core next ∧ (∀ task, Blocks next task ↔ Blocks self task) ∧
      ∀ task, Exited next task ↔ Exited self task ∨ task = self.currentTask := by
  subst finished
  have status : (self.tasks self.currentTask).status = .Running := running
  have blocks (task : TaskId) : (setStatus self.tasks self.currentTask .Finished task).status = .Blocked ↔
      (self.tasks task).status = .Blocked := by
    by_cases same : task = self.currentTask
    · rw [same, setStatus_status_self, status]
      decide
    · rw [setStatus_other same]
  refine ⟨⟨⟨orderly.named, ?_, orderly.newOwn, ?_⟩, orderly.placed.finish running, ?_, orderly.timeless⟩, blocks, ?_⟩
  · intro task
    exact (setStatus_coreId _ _ _ _).trans (orderly.own task)
  · intro task blocked
    exact orderly.listed task ((blocks task).mp blocked)
  · apply ranked_setStatus orderly.ranked
    exact .inr (.inr ((orderly.ranked self.currentTask).prio status (by decide) (by decide)))
  · intro task
    have alive : ¬ (self.currentTask = task ∧ self.currentStatus = .Finished) := by
      rintro ⟨-, ended⟩
      exact TaskStatus.noConfusion (running.symm.trans ended)
    unfold Exited
    rw [or_iff_left alive]
    apply or_congr_right
    change self.currentTask = task ∧ (setStatus self.tasks self.currentTask .Finished self.currentTask).status = _ ↔ _
    rw [setStatus_status_self]
    exact (and_iff_left rfl).trans eq_comm

end Operations

/-! New tasks. -/

theorem enroll_steady {newTask : NewTask} (ran : self.enroll newTask = some next)
    (awake : ¬ Blocks self newTask.tid) (aside : self.currentTask ≠ newTask.tid)
    (ranked : ∀ task, Ranked (self.tasks task)) :
    Steady self next ∧ (∀ task, Ranked (next.tasks task)) ∧ next.blockedTasks = self.blockedTasks ∧
      next.known = self.known := by
  have prio : newTask.prio.toNat < NO_PRIORITIES := by
    obtain ⟨readyQueue, pushed, -⟩ := map_eq_some_iff.mp ran
    have known := push_prio pushed
    rwa [update_self] at known
  obtain ⟨tasks, readyQueue, rfl, rfl, -⟩ := enroll_cases ran
  refine ⟨⟨?_, ?_, rfl⟩, ?_, rfl, rfl⟩
  · intro task
    change (update self.tasks newTask.tid _ task).status = .Blocked ↔ _
    rw [update_apply]
    split
    next same =>
      rw [same]
      exact ⟨fun ready => TaskStatus.noConfusion ready, fun blocks => absurd blocks awake⟩
    · rfl
  · intro task
    apply or_congr_right
    change self.currentTask = task ∧ (update self.tasks newTask.tid _ self.currentTask).status = .Finished ↔ _
    rw [update_of_ne aside]
    rfl
  · intro task
    change Ranked (update self.tasks newTask.tid _ task)
    by_cases same : task = newTask.tid
    · rw [same, update_self]
      exact .inr (.inr prio)
    · rw [update_of_ne same]
      exact ranked task

section NewTasks
variable {core : CoreId} {self next : PerCoreScheduler} (orderly : Orderly core self)

include orderly

theorem Orderly.spawn {tid : TaskId} {prio : Priority} (ran : self.spawn tid prio = some next) :
    Orderly core next ∧ Steady self next ∧ next.known = tid :: self.known := by
  have tidy := (orderly.toTidy.spawn ran).1
  have placed := orderly.placed.spawn ran
  unfold PerCoreScheduler.spawn at ran
  split at ran
  · cases ran
  next fresh =>
    have awake : ¬ Blocks self tid := fun blocks => fresh (orderly.blocks_known blocks)
    have aside : self.currentTask ≠ tid := by
      rintro rfl
      exact fresh orderly.placed.current_known
    obtain ⟨steady, ranked, blockedTasks, known⟩ := enroll_steady ran awake aside orderly.ranked
    refine ⟨⟨tidy, placed, ranked, ?_⟩, { steady with }, known⟩
    rw [blockedTasks]
    exact orderly.timeless

theorem Orderly.remoteSpawn {tid : TaskId} {prio : Priority} (ran : self.remoteSpawn tid prio = some next) :
    Orderly core next ∧ Steady self next ∧ next.known = tid :: self.known := by
  have tidy := (orderly.toTidy.remoteSpawn ran).1
  have placed := orderly.placed.remoteSpawn ran
  unfold PerCoreScheduler.remoteSpawn at ran
  split at ran
  · cases ran
  · rw [← some.inj ran] at tidy placed ⊢
    exact ⟨⟨tidy, placed, orderly.ranked, orderly.timeless⟩, ⟨fun _ => Iff.rfl, fun _ => Iff.rfl, rfl⟩, rfl⟩

theorem Orderly.entrant {newTask : NewTask} (member : newTask ∈ self.input.newTasks) :
    ¬ Blocks self newTask.tid ∧ self.currentTask ≠ newTask.tid := by
  have entered : 0 < (occupancy self newTask.tid).input := count_pos_iff.mpr (mem_map_of_mem member)
  have places := ((orderly.placed.fits newTask.tid).input_cases entered).2
  constructor
  · intro blocks
    have listed : 0 < (occupancy self newTask.tid).blocked := listed_iff.mp (orderly.listed _ blocks)
    rw [places] at listed
    cases listed
  · intro current
    have counted := current_pos current
    rw [places] at counted
    cases counted

theorem Orderly.drainNewTasks (newTasks : List NewTask) (input : self.input.newTasks = newTasks)
    (drained : PerCoreScheduler.drainNewTasks newTasks self = some next) :
    Orderly core next ∧ Steady self next ∧ next.known = self.known := by
  suffices next.input.newTasks = [] ∧ Orderly core next ∧ Steady self next ∧ next.known = self.known from this.2
  apply drainNewTasks_keeps (fun left after => after.input.newTasks = left ∧ Orderly core after ∧ Steady self after ∧
    after.known = self.known) _ newTasks ⟨input, orderly, ⟨fun _ => Iff.rfl, fun _ => Iff.rfl, rfl⟩, rfl⟩ drained
  rintro newTask rest between after ⟨sameInput, before, steady, known⟩ first
  have member : newTask ∈ between.input.newTasks := sameInput ▸ mem_cons_self
  obtain ⟨awake, aside⟩ := before.entrant member
  have popped : Tidy core { between with input.newTasks := rest } :=
    { before with newOwn := fun other among => before.newOwn other (sameInput ▸ mem_cons_of_mem _ among) }
  have tidy := (popped.enroll (before.newOwn newTask member) first).1
  have placed := before.placed.enrollFirst sameInput first
  obtain ⟨further, ranked, blockedTasks, kept⟩ := enroll_steady first awake aside before.ranked
  refine ⟨by rw [enroll_newTasks first], ⟨tidy, placed, ranked, ?_⟩, ⟨?_, ?_, ?_⟩, kept.trans known⟩
  · rw [blockedTasks]
    exact before.timeless
  · intro task
    exact (further.blocks task).trans (steady.blocks task)
  · intro task
    exact (further.exited task).trans (steady.exited task)
  · exact further.wakeups.trans steady.wakeups

end NewTasks

/-! The input of a core. -/

theorem Orderly.drainWakeups {core : CoreId} (ticks : Nat) (handles : List TaskHandle)
    (orderly : Orderly core self) (input : self.input.wakeupTasks = handles)
    (blocks : ∀ handle ∈ handles, Blocks self handle.id) (once : (handles.map TaskHandle.id).Nodup) :
    ∃ next, PerCoreScheduler.drainWakeups ticks handles self = some next ∧ Orderly core next ∧
      Woken (handles.map TaskHandle.id) self next ∧ next.input.wakeupTasks = [] := by
  induction handles generalizing self with
  | nil => exact ⟨self, rfl, orderly, Woken.nothing self, input⟩
  | cons handle rest ih =>
    obtain ⟨notAgain, restOnce⟩ := nodup_cons.mp once
    have popped := orderly.setWakeups rest
    obtain ⟨between, woken, after, first, sameInput⟩ := popped.wakeup ticks (blocks handle mem_cons_self)
    have still : ∀ other ∈ rest, Blocks between other.id := by
      intro other member
      rw [first.blocks, mem_singleton]
      refine ⟨blocks other (mem_cons_of_mem _ member), ?_⟩
      intro same
      exact notAgain (same ▸ mem_map_of_mem member)
    obtain ⟨next, drained, last, others, emptied⟩ := ih after (by rw [sameInput]) still restOnce
    refine ⟨next, ?_, last, ?_, emptied⟩
    · rw [PerCoreScheduler.drainWakeups, woken]
      exact drained
    · exact Woken.cons { first with } others

theorem Orderly.checkInput {core : CoreId} {ticks : Nat} (orderly : Orderly core self)
    (blocks : ∀ handle ∈ self.input.wakeupTasks, Blocks self handle.id)
    (once : (self.input.wakeupTasks.map TaskHandle.id).Nodup) (ran : self.checkInput ticks = some next) :
    Orderly core next ∧
      (∀ task, Blocks next task ↔ Blocks self task ∧ task ∉ self.input.wakeupTasks.map TaskHandle.id) ∧
      (∀ task, Exited next task ↔ Exited self task) ∧ next.input.wakeupTasks = [] ∧ next.known = self.known := by
  obtain ⟨between, drained, middle, woken, emptied⟩ := orderly.drainWakeups ticks _ rfl blocks once
  unfold PerCoreScheduler.checkInput at ran
  rw [drained] at ran
  obtain ⟨last, steady, known⟩ := middle.drainNewTasks _ rfl ran
  refine ⟨last, ?_, ?_, steady.wakeups.trans emptied, known.trans woken.known⟩
  · intro task
    exact (steady.blocks task).trans (woken.blocks task)
  · intro task
    exact (steady.exited task).trans (woken.exited task)

end HermitLocal.Scheduler.CoreEffects
