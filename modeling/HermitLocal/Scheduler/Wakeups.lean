import HermitLocal.Scheduler.Placement
import HermitLocal.Scheduler.Synch

/-! Whether a wakeup finds its task. A handle is taken from the queue of a futex or a semaphore, or from `BLOCKED_TASKS`,
and the core of its task carries the wakeup out, at once or when it looks at its input; in between the timer may have
woken the task. -/

namespace HermitLocal.Scheduler.Wakeups
open Scheduler.TaskQueues Scheduler.PerCore Function List Option
open Scheduler.Synch
open Scheduler.Blocked Scheduler.Placement

def Listed (scheduler : PerCoreScheduler) (task : TaskId) : Prop :=
  task ∈ scheduler.blockedTasks.list.map BlockedTask.task

instance (scheduler : PerCoreScheduler) (task : TaskId) : Decidable (Listed scheduler task) :=
  inferInstanceAs (Decidable (task ∈ scheduler.blockedTasks.list.map BlockedTask.task))

structure Finds (scheduler : PerCoreScheduler) (ticks : Nat) (task : TaskHandle) : Prop where
  listed : Listed scheduler task.id
  returns : (Blocked.customWakeup scheduler.coreId ticks scheduler.toBlocking task).isSome = true

def AllFound (ticks : Nat) : List TaskHandle → PerCoreScheduler → Prop
  | [], _ => True
  | task :: rest, scheduler =>
      let popped := { scheduler with input.wakeupTasks := rest }
      Finds popped ticks task ∧ ∀ next, popped.wakeup ticks task = some next → AllFound ticks rest next

def AllMarked (core : CoreId) : List BlockedTask → Tasks → Prop
  | [], _ => True
  | node :: rest, tasks => ∃ marked, markReady core tasks node.task = some marked ∧ AllMarked core rest marked

def Carried (core : CoreId) (ticks : Nat) : List TaskHandle → System → Prop
  | [], _ => True
  | task :: rest, self => (task.coreId = core → Finds (self.cores core) ticks task) ∧
      ∀ next, self.customWakeup core ticks task = some next → Carried core ticks rest next

def firstHandles (self : System) : Operation → List TaskHandle
  | .futexWake address count _ =>
      match self.parkingLot address with
      | some queue =>
          if count < 0 then [] else ((System.popUpTo (System.wakeLimit count queue) queue).map Prod.fst).getD []
      | none => []
  | .release semaphore _ => ((self.semaphores semaphore).queue.pop.bind Prod.fst).toList
  | .sysWakeupTask id => (self.blockedTasks id).toList
  | _ => []

def taken (self : System) (core : CoreId) (operation : Operation) : List TaskHandle :=
  match self.calls (self.currentTask core) with
  | .user _ => firstHandles self operation
  | _ => []

def Sound (self : System) (action : CoreId × Operation) : Prop :=
  action.1 < self.processorCount →
    match action.2 with
    | .checkInput ticks => AllFound ticks (self.cores action.1).input.wakeupTasks (self.cores action.1)
    | .handleWaitingTasks time _ => AllMarked (self.cores action.1).coreId
        ((self.cores action.1).blockedTasks.list.filter (expired time)) (self.cores action.1).tasks
    | .futexWake address count ticks => Carried action.1 ticks (taken self action.1 (.futexWake address count ticks)) self
    | .release semaphore ticks => Carried action.1 ticks (taken self action.1 (.release semaphore ticks)) self
    | .proceed ticks _ => ∀ handle, self.calls (self.currentTask action.1) = .wakeupTask handle →
        Carried action.1 ticks [handle] self
    | _ => True

def UnderWay (self : System) (core : CoreId) (task : TaskId) : Prop :=
  task ∈ (self.cores core).input.wakeupTasks.map TaskHandle.id ∨
    ∃ waker handle, self.calls waker = .wakeupTask handle ∧ handle.coreId = core ∧ handle.id = task

def Awaits (self : System) (task : TaskHandle) : Prop :=
  ((self.cores task.coreId).tasks task.id).status = .Blocked ∧ ¬ UnderWay self task.coreId task.id

def Apart (first second : TaskHandle) : Prop := ¬ (first.id = second.id ∧ first.coreId = second.coreId)

/-! One core: blocked tasks are those in the list. -/

structure Tidy (core : CoreId) (scheduler : PerCoreScheduler) : Prop where
  named : scheduler.coreId = core
  own : ∀ task, (scheduler.tasks task).coreId = core
  newOwn : ∀ newTask ∈ scheduler.input.newTasks, newTask.coreId = core
  listed : ∀ task, (scheduler.tasks task).status = .Blocked → Listed scheduler task

structure Consistent (core : CoreId) (scheduler : PerCoreScheduler) : Prop extends Tidy core scheduler where
  placed : Invariant false scheduler

variable {task tid : TaskId} {core : CoreId} {wakeupTime : Option Nat} {handle : TaskHandle}
  {ticks time : Nat} {polled : Option (Option Nat)} {prio : Priority} {next : PerCoreScheduler}
  {self : System} {operation : Operation}

theorem listed_iff {scheduler : PerCoreScheduler} :
    Listed scheduler task ↔ 0 < (scheduler.blockedTasks.list.map BlockedTask.task).count task :=
  count_pos_iff.symm

theorem fits_listed_status {exiting : Bool} {kind : Kind} {occupancy : Occupancy} {status : TaskStatus}
    (fits : Fits exiting kind occupancy status) (listed : 0 < occupancy.blocked) : status = .Blocked := by
  cases fits with
  | placed place =>
    cases place with
    | blocking => rfl
    | blocked => rfl
    | _ => cases listed
  | _ => cases listed

theorem Consistent.blocked {scheduler : PerCoreScheduler} (consistent : Consistent core scheduler)
    (listed : Listed scheduler task) : (scheduler.tasks task).status = .Blocked :=
  fits_listed_status (consistent.placed.fits task) (listed_iff.mp listed)

theorem allMarked_of_blocked (core : CoreId) (list : List BlockedTask) {tasks : Tasks}
    (once : (list.map BlockedTask.task).Nodup)
    (blocked : ∀ node ∈ list, (tasks node.task).coreId = core ∧ (tasks node.task).status = .Blocked) :
    AllMarked core list tasks := by
  induction list generalizing tasks with
  | nil => trivial
  | cons node rest ih =>
    obtain ⟨notAgain, restOnce⟩ := nodup_cons.mp once
    refine ⟨setStatus tasks node.task .Ready, if_pos (blocked node mem_cons_self), ?_⟩
    apply ih restOnce
    intro other member
    have apart : other.task ≠ node.task := by
      intro same
      exact notAgain (same ▸ mem_map_of_mem member)
    rw [setStatus_other apart]
    exact blocked other (mem_cons_of_mem _ member)

theorem Consistent.allMarked {scheduler : PerCoreScheduler} (consistent : Consistent core scheduler)
    (time : Nat) : AllMarked scheduler.coreId (scheduler.blockedTasks.list.filter (expired time)) scheduler.tasks := by
  have once : (scheduler.blockedTasks.list.map BlockedTask.task).Nodup :=
    nodup_iff_count_le_one.mpr fun task => (consistent.placed.fits task).blocked_le
  apply allMarked_of_blocked
  · exact once.sublist (filter_sublist.map BlockedTask.task)
  · intro node member
    have listed : Listed scheduler node.task := mem_map_of_mem (mem_of_mem_filter member)
    exact ⟨(consistent.own node.task).trans consistent.named.symm, consistent.blocked listed⟩

theorem locate_listed {list : List BlockedTask} (listed : task ∈ list.map BlockedTask.task) :
    ∃ before node behind, locate task list = some (before, node, behind) := by
  induction list with
  | nil => cases listed
  | cons head rest ih =>
    by_cases same : head.task = task
    · exact ⟨[], head, rest, by rw [locate, if_pos same]⟩
    · have deeper : task ∈ rest.map BlockedTask.task :=
        (mem_cons.mp listed).resolve_left (Ne.symm same)
      obtain ⟨before, node, behind, found⟩ := ih deeper
      exact ⟨head :: before, node, behind, by rw [locate, if_neg same, found]; rfl⟩

theorem Tidy.finds {scheduler : PerCoreScheduler} (tidy : Tidy core scheduler) (ticks : Nat)
    {task : TaskHandle} (blocked : (scheduler.tasks task.id).status = .Blocked) : Finds scheduler ticks task := by
  have listed := tidy.listed task.id blocked
  refine ⟨listed, ?_⟩
  obtain ⟨before, node, behind, found⟩ := locate_listed listed
  obtain ⟨-, named, -⟩ := locate_eq found
  have marked : markReady scheduler.coreId scheduler.tasks node.task =
      some (setStatus scheduler.tasks node.task .Ready) := by
    rw [markReady, if_pos]
    rw [named, tidy.named]
    exact ⟨tidy.own task.id, blocked⟩
  unfold Blocked.customWakeup
  rw [found]
  dsimp only
  rw [marked]
  rfl

theorem Consistent.finds {scheduler : PerCoreScheduler} (consistent : Consistent core scheduler) (ticks : Nat)
    {task : TaskHandle} (listed : Listed scheduler task.id) : Finds scheduler ticks task :=
  consistent.toTidy.finds ticks (consistent.blocked listed)

structure Keeps (scheduler next : PerCoreScheduler) : Prop where
  listed : ∀ task, Listed scheduler task → Listed next task
  wakeups : next.input.wakeupTasks = scheduler.input.wakeupTasks

theorem markAndPush_coreId {own : CoreId} (list : List BlockedTask) {tasks after : Tasks}
    {readyQueue queue : PriorityTaskQueue} (pushed : markAndPush own tasks readyQueue list = some (after, queue))
    (task : TaskId) : (after task).coreId = (tasks task).coreId := by
  induction list generalizing tasks readyQueue with
  | nil =>
    cases pushed
    rfl
  | cons node rest ih =>
    obtain ⟨marked, ready, more⟩ := bind_eq_some_iff.mp pushed
    obtain ⟨between, queued, others⟩ := bind_eq_some_iff.mp more
    obtain ⟨-, -, rfl⟩ := markReady_eq ready
    rw [ih others, setStatus_coreId]

theorem switchedTasks_blocked {self : PerCoreScheduler} {new : TaskId}
    (blocked : (switchedTasks self new task).status = .Blocked) : (self.tasks task).status = .Blocked := by
  have departing : (setStatus self.tasks self.currentTask (departed self.currentStatus) task).status = .Blocked →
      (self.tasks task).status = .Blocked := by
    intro after
    by_cases same : task = self.currentTask
    · rw [same, setStatus_status_self] at after
      rw [same]
      change self.currentStatus = .Blocked
      cases status : self.currentStatus with
      | Blocked => rfl
      | _ =>
        rw [status] at after
        cases after
    · rwa [setStatus_other same] at after
  unfold switchedTasks at blocked
  split at blocked
  · by_cases same : task = new
    · rw [same, setStatus_status_self] at blocked
      cases blocked
    · rw [setStatus_other same] at blocked
      exact departing blocked
  · exact departing blocked

theorem switchedTasks_coreId (self : PerCoreScheduler) (new task : TaskId) :
    (switchedTasks self new task).coreId = (self.tasks task).coreId := by
  unfold switchedTasks
  split
  · rw [setStatus_coreId, setStatus_coreId]
  · rw [setStatus_coreId]

section Tidiness
variable {core : CoreId} {self next : PerCoreScheduler} (tidy : Tidy core self)

include tidy

theorem Tidy.blockCurrentTask (ran : self.blockCurrentTask wakeupTime = some next) :
    Tidy core next ∧ Keeps self next := by
  obtain ⟨blocking, rfl, -, tasks, counts⟩ := blockCurrentTask_cases ran
  have keeps : ∀ task, Listed self task → Listed { self with toBlocking := blocking } task := by
    intro task listed
    rw [listed_iff] at listed ⊢
    rw [counts task]
    omega
  refine ⟨⟨tidy.named, ?_, tidy.newOwn, ?_⟩, keeps, rfl⟩
  · intro task
    rw [tasks, setStatus_coreId]
    exact tidy.own task
  · intro task blocked
    by_cases current : self.currentTask = task
    · rw [listed_iff]
      rw [counts task, if_pos current]
      omega
    · rw [tasks, setStatus_other (Ne.symm current)] at blocked
      exact keeps task (tidy.listed task blocked)

theorem Tidy.wakeup (ran : self.wakeup ticks handle = some next) :
    Tidy core next ∧ next.input = self.input ∧
      (∀ task, task ≠ handle.id → Listed self task → Listed next task) ∧
      ∀ task, task ≠ handle.id → next.tasks task = self.tasks task := by
  obtain ⟨blocking, readyQueue, rfl, -, tasks, -, counts⟩ := wakeup_cases ran
  have keeps : ∀ task, task ≠ handle.id → Listed self task →
      Listed { self with toBlocking := blocking, readyQueue := readyQueue } task := by
    intro task other listed
    rw [listed_iff, counts task, if_neg (Ne.symm other)] at listed
    exact listed_iff.mpr listed
  have others : ∀ task, task ≠ handle.id → blocking.tasks task = self.tasks task := by
    intro task other
    rw [tasks, setStatus_other other]
  refine ⟨⟨tidy.named, ?_, tidy.newOwn, ?_⟩, rfl, keeps, others⟩
  · intro task
    rw [tasks, setStatus_coreId]
    exact tidy.own task
  · intro task blocked
    by_cases same : task = handle.id
    · rw [tasks, same, setStatus_status_self] at blocked
      cases blocked
    · rw [others task same] at blocked
      exact keeps task same (tidy.listed task blocked)

theorem Tidy.handleWaitingTasks (ran : self.handleWaitingTasks time polled = some next) :
    Tidy core next ∧ next.input = self.input ∧
      ∀ task, Listed self task → (∃ node ∈ self.blockedTasks.list, node.task = task ∧ expired time node = true) ∨
        Listed next task := by
  obtain ⟨⟨blocking, readyQueue⟩, waited, rfl⟩ := map_eq_some_iff.mp ran
  obtain ⟨pushed, list, -⟩ := handleWaitingTasks_cases waited
  obtain ⟨-, inside, outside⟩ := markAndPush_cases _ pushed
  have keeps : ∀ task, task ∉ (self.blockedTasks.list.filter (expired time)).map BlockedTask.task →
      Listed self task → Listed { self with toBlocking := blocking, readyQueue := readyQueue } task := by
    intro task remains listed
    have split := count_filter_split (expired time) self.blockedTasks.list task
    rw [count_eq_zero.mpr remains, Nat.zero_add] at split
    rw [listed_iff, split, ← list] at listed
    exact listed_iff.mpr listed
  refine ⟨⟨tidy.named, ?_, tidy.newOwn, ?_⟩, rfl, ?_⟩
  · intro task
    rw [markAndPush_coreId _ pushed]
    exact tidy.own task
  · intro task blocked
    by_cases member : task ∈ (self.blockedTasks.list.filter (expired time)).map BlockedTask.task
    · rw [(inside task member).2] at blocked
      cases blocked
    · rw [outside task member] at blocked
      exact keeps task member (tidy.listed task blocked)
  · intro task listed
    by_cases member : task ∈ (self.blockedTasks.list.filter (expired time)).map BlockedTask.task
    · obtain ⟨node, among, named⟩ := mem_map.mp member
      obtain ⟨inList, late⟩ := mem_filter.mp among
      exact .inl ⟨node, inList, named, late⟩
    · exact .inr (keeps task member listed)

theorem Tidy.scheduler {switched : Option TaskId} (ran : self.scheduler = some (switched, next)) :
    Tidy core next ∧ Keeps self next := by
  rcases switch_cases ran with ⟨readyQueue, rfl, -⟩ | ⟨task, readyQueue, rfl, -⟩
  · exact ⟨{ tidy with }, fun _ listed => listed, rfl⟩
  · refine ⟨⟨tidy.named, ?_, tidy.newOwn, ?_⟩, fun _ listed => listed, rfl⟩
    · intro other
      exact (switchedTasks_coreId self.cleanupTasks task other).trans (tidy.own other)
    · intro other blocked
      exact tidy.listed other (switchedTasks_blocked blocked)

theorem Tidy.enroll {newTask : NewTask} (own : newTask.coreId = core) (ran : self.enroll newTask = some next) :
    Tidy core next ∧ Keeps self next := by
  obtain ⟨tasks, readyQueue, rfl, rfl, -⟩ := enroll_cases ran
  refine ⟨⟨tidy.named, ?_, tidy.newOwn, ?_⟩, fun _ listed => listed, rfl⟩
  · intro task
    change (update self.tasks newTask.tid ⟨.Ready, newTask.prio, newTask.coreId⟩ task).coreId = core
    rw [update_apply]
    split
    · exact own
    · exact tidy.own task
  · intro task blocked
    change (update self.tasks newTask.tid ⟨.Ready, newTask.prio, newTask.coreId⟩ task).status = _ at blocked
    by_cases same : task = newTask.tid
    · rw [same, update_self] at blocked
      cases blocked
    · rw [update_of_ne same] at blocked
      exact tidy.listed task blocked

theorem Tidy.spawn (ran : self.spawn tid prio = some next) : Tidy core next ∧ Keeps self next := by
  unfold PerCoreScheduler.spawn at ran
  split at ran
  · cases ran
  · have known : Tidy core { self with known := tid :: self.known } := { tidy with }
    obtain ⟨after, keeps⟩ := known.enroll tidy.named ran
    exact ⟨after, keeps.listed, keeps.wakeups⟩

theorem Tidy.remoteSpawn (ran : self.remoteSpawn tid prio = some next) :
    Tidy core next ∧ Keeps self next := by
  unfold PerCoreScheduler.remoteSpawn at ran
  split at ran
  · cases ran
  · cases ran
    refine ⟨{ tidy with newOwn := ?_ }, fun _ listed => listed, rfl⟩
    intro newTask member
    rcases mem_append.mp member with before | new
    · exact tidy.newOwn newTask before
    · rw [mem_singleton.mp new]
      exact tidy.named

theorem Tidy.setWakeups (wakeups : List TaskHandle) : Tidy core { self with input.wakeupTasks := wakeups } :=
  { tidy with }

end Tidiness

/-! The input of a core. -/

theorem Consistent.setWakeups {self : PerCoreScheduler} (consistent : Consistent core self)
    (wakeups : List TaskHandle) : Consistent core { self with input.wakeupTasks := wakeups } :=
  ⟨consistent.toTidy.setWakeups wakeups, consistent.placed.setWakeups wakeups⟩

theorem Consistent.drainWakeups (ticks : Nat) (handles : List TaskHandle) {self : PerCoreScheduler}
    (consistent : Consistent core self) (input : self.input.wakeupTasks = handles)
    (listed : ∀ handle ∈ handles, Listed self handle.id) (once : (handles.map TaskHandle.id).Nodup) :
    AllFound ticks handles self ∧ ∀ next, PerCoreScheduler.drainWakeups ticks handles self = some next →
      Consistent core next ∧ next.input.wakeupTasks = [] ∧
        ∀ task, task ∉ handles.map TaskHandle.id → Listed self task → Listed next task := by
  induction handles generalizing self with
  | nil =>
    refine ⟨trivial, ?_⟩
    intro next drained
    cases drained
    exact ⟨consistent, input, fun _ _ among => among⟩
  | cons handle rest ih =>
    obtain ⟨notAgain, restOnce⟩ := nodup_cons.mp once
    have popped := consistent.setWakeups rest
    have found : Finds { self with input.wakeupTasks := rest } ticks handle :=
      popped.finds ticks (listed handle mem_cons_self)
    have deeper (next : PerCoreScheduler)
        (woken : PerCoreScheduler.wakeup { self with input.wakeupTasks := rest } ticks handle = some next) := by
      obtain ⟨tidy, sameInput, keeps, -⟩ := popped.toTidy.wakeup woken
      have stillListed : ∀ other ∈ rest, Listed next other.id := by
        intro other member
        apply keeps other.id
        · intro same
          exact notAgain (same ▸ mem_map_of_mem member)
        · exact listed other (mem_cons_of_mem _ member)
      exact ih ⟨tidy, popped.placed.wakeup woken⟩ (by rw [sameInput]) stillListed restOnce
    refine ⟨⟨found, fun next woken => (deeper next woken).1⟩, ?_⟩
    intro last drained
    obtain ⟨next, woken, others⟩ := bind_eq_some_iff.mp drained
    obtain ⟨-, -, keeps, -⟩ := popped.toTidy.wakeup woken
    obtain ⟨after, emptied, kept⟩ := (deeper next woken).2 last others
    refine ⟨after, emptied, ?_⟩
    intro task absent among
    obtain ⟨apart, further⟩ : task ≠ handle.id ∧ task ∉ rest.map TaskHandle.id := by
      rw [map_cons, mem_cons] at absent
      exact not_or.mp absent
    exact kept task further (keeps task apart among)

theorem Tidy.drainNewTasks (newTasks : List NewTask) {self : PerCoreScheduler} (tidy : Tidy core self)
    (input : self.input.newTasks = newTasks)
    (drained : PerCoreScheduler.drainNewTasks newTasks self = some next) : Tidy core next ∧ Keeps self next := by
  suffices next.input.newTasks = [] ∧ Tidy core next ∧ Keeps self next from this.2
  apply drainNewTasks_keeps (fun left after => after.input.newTasks = left ∧ Tidy core after ∧ Keeps self after) _ newTasks
    ⟨input, tidy, fun _ listed => listed, rfl⟩ drained
  rintro newTask rest between after ⟨sameInput, before, keeps⟩ first
  have own : newTask.coreId = core := before.newOwn newTask (sameInput ▸ mem_cons_self)
  have popped : Tidy core { between with input.newTasks := rest } :=
    { before with newOwn := fun other member => before.newOwn other (sameInput ▸ mem_cons_of_mem _ member) }
  obtain ⟨last, kept⟩ := popped.enroll own first
  refine ⟨?_, last, fun task listed => kept.listed task (keeps.listed task listed), kept.wakeups.trans keeps.wakeups⟩
  rw [enroll_newTasks first]

theorem Consistent.checkInput {self : PerCoreScheduler} (consistent : Consistent core self)
    (listed : ∀ handle ∈ self.input.wakeupTasks, Listed self handle.id)
    (once : (self.input.wakeupTasks.map TaskHandle.id).Nodup) :
    AllFound ticks self.input.wakeupTasks self ∧ ∀ next, self.checkInput ticks = some next →
      Consistent core next ∧ next.input.wakeupTasks = [] ∧
        ∀ task, task ∉ self.input.wakeupTasks.map TaskHandle.id → Listed self task → Listed next task := by
  obtain ⟨found, drains⟩ := consistent.drainWakeups ticks _ rfl listed once
  refine ⟨found, ?_⟩
  intro last checked
  have placed := consistent.placed.checkInput checked
  obtain ⟨between, woken, admitted⟩ := bind_eq_some_iff.mp checked
  obtain ⟨middle, emptied, kept⟩ := drains between woken
  obtain ⟨tidy, keeps⟩ := middle.toTidy.drainNewTasks _ rfl admitted
  exact ⟨⟨tidy, placed⟩, keeps.wakeups.trans emptied, fun task absent among => keeps.listed task (kept task absent among)⟩

/-! The whole system: every wakeup on its way is the only one of its task, which is in the list. -/

structure Sane (system : System) : Prop where
  cores : ∀ core, Consistent core (system.cores core)
  waiting : ∀ core, ∀ handle ∈ (system.cores core).input.wakeupTasks, Listed (system.cores core) handle.id
  once : ∀ core, ((system.cores core).input.wakeupTasks.map TaskHandle.id).Nodup
  inHand : ∀ waker handle, system.calls waker = .wakeupTask handle →
    Listed (system.cores handle.coreId) handle.id ∧
      handle.id ∉ (system.cores handle.coreId).input.wakeupTasks.map TaskHandle.id
  hands : ∀ first second one other, system.calls first = .wakeupTask one → system.calls second = .wakeupTask other →
    one.id = other.id → one.coreId = other.coreId → first = second

section
variable (sane : Sane self)

include sane

theorem Sane.underWay_listed (pending : UnderWay self core task) : Listed (self.cores core) task := by
  rcases pending with waiting | ⟨waker, handle, called, rfl, rfl⟩
  · obtain ⟨handle, member, rfl⟩ := mem_map.mp waiting
    exact sane.waiting core handle member
  · exact (sane.inHand waker handle called).1

theorem Sane.congr {next : System} (cores : next.cores = self.cores) (calls : next.calls = self.calls) : Sane next := by
  obtain ⟨processorCount, nextCores, tasks, parkingLot, semaphores, blockedTasks, nextCalls⟩ := next
  subst cores calls
  exact { sane with }

theorem Sane.setCall (task : TaskId) {call : Call} (noWakeup : ∀ handle, call ≠ .wakeupTask handle) :
    Sane (self.setCall task call) := by
  have before {waker : TaskId} {handle : TaskHandle} (called : (self.setCall task call).calls waker = .wakeupTask handle) :
      self.calls waker = .wakeupTask handle := by
    change update self.calls task call waker = _ at called
    rw [update_apply] at called
    split at called
    · exact absurd called (noWakeup handle)
    · assumption
  exact { sane with
    inHand := fun waker handle called => sane.inHand waker handle (before called)
    hands := fun first second one other own others => sane.hands first second one other (before own) (before others) }

theorem Sane.turn {next : System} {call : Call} (cores : next.cores = self.cores)
    (calls : next.calls = update self.calls task call) (noWakeup : ∀ handle, call ≠ .wakeupTask handle) : Sane next :=
  (sane.setCall task noWakeup).congr cores calls

theorem Sane.setCore (core : CoreId) (consistent : Consistent core next)
    (waiting : ∀ handle ∈ next.input.wakeupTasks, Listed next handle.id)
    (once : (next.input.wakeupTasks.map TaskHandle.id).Nodup)
    (inHand : ∀ waker handle, self.calls waker = .wakeupTask handle → handle.coreId = core →
      Listed next handle.id ∧ handle.id ∉ next.input.wakeupTasks.map TaskHandle.id) :
    Sane (self.setCore core next) := by
  have each (other : CoreId) : Consistent other ((self.setCore core next).cores other) ∧
      (∀ handle ∈ ((self.setCore core next).cores other).input.wakeupTasks,
        Listed ((self.setCore core next).cores other) handle.id) ∧
      (((self.setCore core next).cores other).input.wakeupTasks.map TaskHandle.id).Nodup := by
    by_cases same : other = core
    · rw [same, self.setCore_same core next]
      exact ⟨consistent, waiting, once⟩
    · rw [System.setCore_other same]
      exact ⟨sane.cores other, sane.waiting other, sane.once other⟩
  refine ⟨fun other => (each other).1, fun other => (each other).2.1, fun other => (each other).2.2, ?_, sane.hands⟩
  intro waker handle called
  by_cases same : handle.coreId = core
  · rw [same, self.setCore_same core next]
    exact inHand waker handle called same
  · rw [System.setCore_other same]
    exact sane.inHand waker handle called

theorem Sane.setCore_sameInput (core : CoreId) (consistent : Consistent core next)
    (wakeups : next.input.wakeupTasks = (self.cores core).input.wakeupTasks)
    (keeps : ∀ task, UnderWay self core task → Listed next task) : Sane (self.setCore core next) := by
  apply sane.setCore core consistent
  · intro handle member
    rw [wakeups] at member
    exact keeps handle.id (.inl (mem_map_of_mem member))
  · rw [wakeups]
    exact sane.once core
  · rintro waker handle called rfl
    rw [wakeups]
    exact ⟨keeps handle.id (.inr ⟨waker, handle, called, rfl, rfl⟩), (sane.inHand waker handle called).2⟩

omit sane in
theorem Awaits.turn {next : System} {call : Call} (awaits : Awaits self handle) (cores : next.cores = self.cores)
    (calls : next.calls = update self.calls task call) (noWakeup : ∀ handle, call ≠ .wakeupTask handle) :
    Awaits next handle := by
  refine ⟨cores ▸ awaits.1, ?_⟩
  rintro (waiting | ⟨waker, other, called, named⟩)
  · exact awaits.2 (.inl (cores ▸ waiting))
  · rw [calls, update_apply] at called
    split at called
    · exact noWakeup other called
    · exact awaits.2 (.inr ⟨waker, other, called, named⟩)

omit sane in
theorem Awaits.setCore (awaits : Awaits self handle) (core : CoreId)
    (stays : handle.coreId = core → (next.tasks handle.id).status = .Blocked)
    (wakeups : handle.coreId = core → handle.id ∈ next.input.wakeupTasks.map TaskHandle.id →
      handle.id ∈ (self.cores core).input.wakeupTasks.map TaskHandle.id) : Awaits (self.setCore core next) handle := by
  obtain ⟨blocked, free⟩ := awaits
  by_cases here : handle.coreId = core
  · constructor
    · rw [here, System.setCore_same]
      exact stays here
    · rintro (waiting | hand)
      · rw [here, System.setCore_same] at waiting
        exact free (.inl (here ▸ wakeups here waiting))
      · exact free (.inr hand)
  · constructor
    · rw [System.setCore_other here]
      exact blocked
    · rintro (waiting | hand)
      · rw [System.setCore_other here] at waiting
        exact free (.inl waiting)
      · exact free (.inr hand)

theorem Sane.wakeup (awaits : Awaits self handle)
    (woken : (self.cores handle.coreId).wakeup ticks handle = some next) :
    Sane (self.setCore handle.coreId next) ∧
      ∀ other, Apart handle other → Awaits self other → Awaits (self.setCore handle.coreId next) other := by
  have consistent := sane.cores handle.coreId
  obtain ⟨tidy, input, keeps, others⟩ := consistent.toTidy.wakeup woken
  constructor
  · apply sane.setCore_sameInput handle.coreId ⟨tidy, consistent.placed.wakeup woken⟩ (by rw [input])
    intro task pending
    apply keeps task
    · rintro rfl
      exact awaits.2 pending
    · exact sane.underWay_listed pending
  · intro other apart waits
    apply waits.setCore
    · intro here
      rw [others other.id fun same => apart ⟨same.symm, here.symm⟩, ← here]
      exact waits.1
    · intro _ member
      rwa [input] at member

theorem Sane.handOver (awaits : Awaits self handle) :
    Sane (self.setCore handle.coreId ((self.cores handle.coreId).remoteWakeup handle)) ∧
      ∀ other, Apart handle other → Awaits self other →
        Awaits (self.setCore handle.coreId ((self.cores handle.coreId).remoteWakeup handle)) other := by
  obtain ⟨blocked, free⟩ := awaits
  have before := sane.cores handle.coreId
  have listed := before.listed handle.id blocked
  generalize received : (self.cores handle.coreId).remoteWakeup handle = next
  have wakeups : next.input.wakeupTasks = (self.cores handle.coreId).input.wakeupTasks ++ [handle] := by
    rw [← received]
    rfl
  have stays (task : TaskId) : Listed next task ↔ Listed (self.cores handle.coreId) task := by
    rw [← received]
    rfl
  have consistent : Consistent handle.coreId next := by
    rw [← received]
    exact before.setWakeups _
  constructor
  · apply sane.setCore handle.coreId consistent
    · intro other member
      rw [wakeups] at member
      rw [stays]
      rcases mem_append.mp member with old | new
      · exact sane.waiting handle.coreId other old
      · rw [mem_singleton.mp new]
        exact listed
    · rw [wakeups, map_append, nodup_append']
      refine ⟨sane.once handle.coreId, nodup_singleton _, ?_⟩
      intro task old new
      rw [map_singleton, mem_singleton] at new
      exact free (.inl (new ▸ old))
    · intro waker other called here
      obtain ⟨among, absent⟩ := sane.inHand waker other called
      rw [here] at among absent
      rw [stays, wakeups, map_append, mem_append, map_singleton, mem_singleton]
      refine ⟨among, not_or.mpr ⟨absent, ?_⟩⟩
      intro same
      exact free (.inr ⟨waker, other, called, here, same⟩)
  · intro other apart waits
    apply waits.setCore
    · intro here
      rw [← received, ← here]
      exact waits.1
    · intro here member
      rw [wakeups, map_append, mem_append, map_singleton, mem_singleton] at member
      exact member.resolve_right fun same => apart ⟨same.symm, here.symm⟩

theorem Sane.customWakeup (core : CoreId) (ticks : Nat) (awaits : Awaits self handle) :
    (handle.coreId = core → Finds (self.cores core) ticks handle) ∧
      ∀ next, self.customWakeup core ticks handle = some next → Sane next ∧
        ∀ other, Apart handle other → Awaits self other → Awaits next other := by
  constructor
  · rintro rfl
    exact (sane.cores handle.coreId).finds ticks ((sane.cores handle.coreId).listed handle.id awaits.1)
  · intro next ran
    unfold System.customWakeup at ran
    split at ran
    · rename_i same
      subst same
      obtain ⟨after, woken, rfl⟩ := map_eq_some_iff.mp ran
      exact sane.wakeup awaits woken
    · cases ran
      exact sane.handOver awaits

end

theorem Sane.wakeupAll (core : CoreId) (ticks : Nat) (handles : List TaskHandle) (sane : Sane self)
    (apart : handles.Pairwise Apart) (await : ∀ handle ∈ handles, Awaits self handle) :
    Carried core ticks handles self ∧ ∀ next, System.wakeupAll core ticks handles self = some next → Sane next ∧
      ∀ other, (∀ handle ∈ handles, Apart handle other) → Awaits self other → Awaits next other := by
  induction handles generalizing self with
  | nil =>
    refine ⟨trivial, ?_⟩
    intro next ran
    rw [← some.inj ran]
    exact ⟨sane, fun _ _ waits => waits⟩
  | cons handle rest ih =>
    obtain ⟨first, others⟩ := pairwise_cons.mp apart
    obtain ⟨finds, goesOn⟩ := sane.customWakeup core ticks (await handle mem_cons_self)
    have deeper (next : System) (woken : self.customWakeup core ticks handle = some next) := by
      obtain ⟨saneNext, still⟩ := goesOn next woken
      exact ih saneNext others fun other member =>
        still other (first other member) (await other (mem_cons_of_mem _ member))
    refine ⟨⟨finds, fun next woken => (deeper next woken).1⟩, ?_⟩
    intro last ran
    obtain ⟨next, woken, more⟩ := bind_eq_some_iff.mp ran
    obtain ⟨saneLast, kept⟩ := (deeper next woken).2 last more
    refine ⟨saneLast, ?_⟩
    intro other aside waits
    apply kept other fun later member => aside later (mem_cons_of_mem _ member)
    exact (goesOn next woken).2 other (aside handle mem_cons_self) waits

/-! Each critical section. -/

section Before
variable (change : System → System) (cores : ∀ self, (change self).cores = self.cores)
  (sets : ∀ self core scheduler, change (self.setCore core scheduler) = (change self).setCore core scheduler)
  (core : CoreId) (ticks : Nat)

include cores sets

theorem map_customWakeup (self : System) (handle : TaskHandle) :
    (self.customWakeup core ticks handle).map change = (change self).customWakeup core ticks handle := by
  have onCore (core : CoreId) (f : PerCoreScheduler → Option PerCoreScheduler) :
      (self.onCore core f).map change = (change self).onCore core f := by
    unfold System.onCore
    rw [Option.map_map, cores]
    congr 1
    funext scheduler
    exact sets self core scheduler
  unfold System.customWakeup
  split
  · exact onCore core _
  · exact onCore handle.coreId _

theorem map_wakeupAll (handles : List TaskHandle) (self : System) :
    (System.wakeupAll core ticks handles self).map change = System.wakeupAll core ticks handles (change self) := by
  induction handles generalizing self with
  | nil => rfl
  | cons handle rest ih =>
    unfold System.wakeupAll
    rw [← map_customWakeup change cores sets, Option.map_bind, Option.bind_map]
    congr 1
    funext between
    exact ih between

end Before

section Sections
variable {self next : System} (sane : Sane self) {core : CoreId}

include sane

theorem Sane.allFound (ticks : Nat) : AllFound ticks (self.cores core).input.wakeupTasks (self.cores core) :=
  ((sane.cores core).checkInput (sane.waiting core) (sane.once core)).1

theorem Sane.leaveBlockedTasks {id : TaskId}
    (awaits : ∀ handle, self.blockedTasks id = some handle → Awaits self handle) :
    Sane (self.leaveBlockedTasks core id) := by
  unfold System.leaveBlockedTasks
  cases entered : self.blockedTasks id with
  | none => exact sane
  | some handle =>
    obtain ⟨blocked, free⟩ := awaits handle entered
    have listed := (sane.cores handle.coreId).listed handle.id blocked
    have called {waker : TaskId} {other : TaskHandle}
        (holds : update self.calls (self.currentTask core) (.wakeupTask handle) waker = .wakeupTask other) :
        waker = self.currentTask core ∧ handle = other ∨ self.calls waker = .wakeupTask other := by
      rw [update_apply] at holds
      split at holds
      next same => exact .inl ⟨same, Call.wakeupTask.inj holds⟩
      · exact .inr holds
    refine { sane with inHand := ?_, hands := ?_ }
    · intro waker other holds
      rcases called holds with ⟨-, rfl⟩ | before
      · exact ⟨listed, fun waiting => free (.inl waiting)⟩
      · exact sane.inHand waker other before
    · intro first second one other firstHolds secondHolds id core
      rcases called firstHolds with ⟨firstHere, rfl⟩ | firstBefore
      · rcases called secondHolds with ⟨secondHere, -⟩ | secondBefore
        · exact firstHere.trans secondHere.symm
        · exact absurd (.inr ⟨second, other, secondBefore, core.symm, id.symm⟩) free
      · rcases called secondHolds with ⟨-, rfl⟩ | secondBefore
        · exact absurd (.inr ⟨first, one, firstBefore, core, id⟩) free
        · exact sane.hands first second one other firstBefore secondBefore id core

theorem Sane.awaits_inHand (called : self.calls task = .wakeupTask handle) (result : Option Int) :
    Awaits (self.setCall task (.user result)) handle := by
  obtain ⟨listed, absent⟩ := sane.inHand task handle called
  constructor
  · exact (sane.cores handle.coreId).blocked listed
  · rintro (waiting | ⟨waker, other, calls, sameCore, sameId⟩)
    · exact absent waiting
    · change update self.calls task (.user result) waker = _ at calls
      by_cases same : waker = task
      · rw [same, update_self] at calls
        cases calls
      · rw [update_of_ne same] at calls
        exact same (sane.hands waker task other handle calls called sameId sameCore)

theorem Sane.sound (apart : (taken self core operation).Pairwise Apart)
    (await : ∀ handle ∈ taken self core operation, Awaits self handle) : Sound self (core, operation) := by
  intro _
  cases operation with
  | checkInput ticks => exact sane.allFound ticks
  | handleWaitingTasks time polled => exact (sane.cores core).allMarked time
  | futexWake address count ticks | release semaphore ticks => exact (sane.wakeupAll core ticks _ apart await).1
  | proceed ticks completed =>
    intro handle called
    refine ⟨?_, fun _ _ => trivial⟩
    rintro rfl
    exact (sane.cores handle.coreId).finds ticks (sane.inHand _ handle called).1
  | _ => trivial

end Sections

theorem sane_boot (processorCount : Nat) (counts : Nat → Int) : Sane (System.boot processorCount counts) := by
  refine ⟨?_, ?_, ?_, ?_, ?_⟩
  · intro core
    refine ⟨⟨rfl, fun _ => rfl, ?_, ?_⟩, invariant_start core core⟩
    · intro newTask member
      cases member
    · intro task blocked
      change (if task = core then TaskStatus.Idle else TaskStatus.Invalid) = .Blocked at blocked
      split at blocked <;> cases blocked
  · intro core handle member
    cases member
  · intro core
    exact nodup_nil
  · intro waker handle called
    cases called
  · intro first second one other called
    cases called

end HermitLocal.Scheduler.Wakeups
