import HermitLocal.Scheduler.PerCore

/-! Futexes, semaphores and the blocking system calls over the schedulers of all cores. Each step is one critical section of
the current task of a core, or what an interrupt or the idle loop does there; where a task is between
two of them stands in the state. -/

namespace HermitLocal.Scheduler.Synch
open Lib.Simulation Scheduler.TaskQueues Scheduler.PerCore Function

structure Semaphore where
  count : Int
  queue : TaskHandlePriorityQueue

inductive Call where
  | user (result : Option Int)
  /-- In the loop of `futex_wait`, with its handle in the parking lot. -/
  | futexWait (address : Nat) (wakeupTime : Option Nat) (handle : TaskHandle)
  /-- In the loop of `acquire`; after it has blocked, it goes on once it is scheduled again. -/
  | acquire (semaphore : Nat) (wakeupTime : Option Nat) (parked : Bool)
  /-- Between its entry into `BLOCKED_TASKS` and blocking. -/
  | blockCurrentTask (wakeupTime : Option Nat)
  /-- Between the removal of a handle from `BLOCKED_TASKS` and the wakeup. -/
  | wakeupTask (handle : TaskHandle)
deriving DecidableEq

structure System where
  processorCount : Nat
  cores : CoreId → PerCoreScheduler
  tasks : List TaskId
  parkingLot : Nat → Option TaskHandlePriorityQueue
  semaphores : Nat → Semaphore
  blockedTasks : TaskId → Option TaskHandle
  calls : TaskId → Call

def System.boot (processorCount : Nat) (counts : Nat → Int) : System where
  processorCount := processorCount
  cores core := addCurrentCore core core
  tasks := List.range processorCount
  parkingLot _ := none
  semaphores semaphore := ⟨counts semaphore, .new⟩
  blockedTasks _ := none
  calls _ := .user none

def EAGAIN : Int := 11
def EINVAL : Int := 22
def ETIMEDOUT : Int := 110
def I32_MAX : Int := 2147483647

namespace System

def setCore (self : System) (core : CoreId) (scheduler : PerCoreScheduler) : System :=
  { self with cores := update self.cores core scheduler }

theorem setCore_same (self : System) (core : CoreId) (scheduler : PerCoreScheduler) :
    (self.setCore core scheduler).cores core = scheduler := update_self _ _ _

theorem setCore_other {self : System} {core : CoreId} {scheduler : PerCoreScheduler} {other : CoreId}
    (apart : other ≠ core) : (self.setCore core scheduler).cores other = self.cores other :=
  update_of_ne apart _ _

def onCore (self : System) (core : CoreId) (f : PerCoreScheduler → Option PerCoreScheduler) : Option System :=
  (f (self.cores core)).map (self.setCore core)

def currentTask (self : System) (core : CoreId) : TaskId := (self.cores core).currentTask

def getCurrentTaskHandle (self : System) (core : CoreId) : TaskHandle :=
  let current := (self.cores core).tasks (self.currentTask core)
  ⟨self.currentTask core, current.prio, current.coreId⟩

def setCall (self : System) (task : TaskId) (call : Call) : System :=
  { self with calls := update self.calls task call }

def setParkingLot (self : System) (address : Nat) (queue : TaskHandlePriorityQueue) : System :=
  { self with parkingLot := update self.parkingLot address (some queue) }

def leaveParkingLot (self : System) (address : Nat) (queue : TaskHandlePriorityQueue) : System :=
  { self with parkingLot := update self.parkingLot address (if queue.isEmpty then none else some queue) }

def setSemaphore (self : System) (semaphore : Nat) (value : Semaphore) : System :=
  { self with semaphores := update self.semaphores semaphore value }

def customWakeup (self : System) (core : CoreId) (ticks : Nat) (task : TaskHandle) : Option System :=
  if task.coreId = core then self.onCore core (·.wakeup ticks task)
  else self.onCore task.coreId fun scheduler => some (scheduler.remoteWakeup task)

def wakeupAll (core : CoreId) (ticks : Nat) : List TaskHandle → System → Option System
  | [], self => some self
  | task :: rest, self => (self.customWakeup core ticks task).bind (wakeupAll core ticks rest)

section Core
variable {self next : System} {core : CoreId} {ticks : Nat}

theorem customWakeup_core {task : TaskHandle} (own : (self.cores core).coreId = core)
    (woken : self.customWakeup core ticks task = some next) :
    (self.cores core).customWakeup ticks task = some (next.cores core) ∧ (next.cores core).coreId = core := by
  unfold customWakeup at woken
  rw [PerCoreScheduler.customWakeup, own]
  split at woken
  next here =>
    obtain ⟨scheduler, ran, rfl⟩ := Option.map_eq_some_iff.mp woken
    rw [if_pos here, setCore_same]
    obtain ⟨entry, _, pushed⟩ := Option.bind_eq_some_iff.mp ran
    obtain ⟨readyQueue, _, rfl⟩ := Option.map_eq_some_iff.mp pushed
    exact ⟨ran, own⟩
  next elsewhere =>
    cases woken
    rw [if_neg elsewhere, setCore_other (Ne.symm elsewhere)]
    exact ⟨rfl, own⟩

/-- What the wakeups of a core do to its own scheduler. -/
theorem wakeupAll_core {handles : List TaskHandle} (own : (self.cores core).coreId = core)
    (woken : wakeupAll core ticks handles self = some next) :
    (self.cores core).wakeupAll ticks handles = some (next.cores core) := by
  induction handles generalizing self with
  | nil =>
    cases woken
    rfl
  | cons task rest ih =>
    obtain ⟨between, first, others⟩ := Option.bind_eq_some_iff.mp woken
    obtain ⟨same, still⟩ := customWakeup_core own first
    exact Option.bind_eq_some_iff.mpr ⟨_, same, ih still others⟩

end Core

def spawn (self : System) (core target : CoreId) (tid : TaskId) (prio : Priority) : Option System :=
  if tid ∈ self.tasks then some self
  else if target < self.processorCount then
    let known := { self with tasks := tid :: self.tasks }
    if target = core then known.onCore core (·.spawn tid prio) else known.onCore target (·.remoteSpawn tid prio)
  else none

/-! Futexes. -/

def futexDeadline (relative : Bool) (ticks : Nat) (timeout : Option Nat) : Option Nat :=
  if relative then timeout.bind fun t => if ticks + t < 2 ^ 64 then some (ticks + t) else none else timeout

def futexWait (self : System) (core : CoreId) (address : Nat) (expected : Bool) (wakeupTime : Option Nat) :
    Option System :=
  let task := self.currentTask core
  if expected then
    (self.onCore core (·.blockCurrentTask wakeupTime)).bind fun self =>
      let handle := self.getCurrentTaskHandle core
      (((self.parkingLot address).getD .new).push handle).map fun queue =>
        (self.setParkingLot address queue).setCall task (.futexWait address wakeupTime handle)
  else some (self.setCall task (.user (some (-EAGAIN))))

def futexWaitTurn (self : System) (core : CoreId) (address : Nat) (wakeupTime : Option Nat) (handle : TaskHandle)
    (ticks : Nat) : Option System :=
  let task := self.currentTask core
  if wakeupTime.any (· ≤ ticks) then
    match self.parkingLot address with
    | none => some (self.setCall task (.user (some 0)))
    | some queue => (queue.remove handle).map fun (removed, queue) =>
        (self.leaveParkingLot address queue).setCall task (.user (some (if removed then -ETIMEDOUT else 0)))
  else
    match self.parkingLot address with
    | none => some (self.setCall task (.user (some 0)))
    | some queue => (queue.contains handle).bind fun contained =>
        if contained then self.onCore core (·.blockCurrentTask wakeupTime)
        else some (self.setCall task (.user (some 0)))

def popUpTo : Nat → TaskHandlePriorityQueue → Option (List TaskHandle × TaskHandlePriorityQueue)
  | 0, queue => some ([], queue)
  | limit + 1, queue => queue.pop.bind fun (popped, rest) =>
      match popped with
      | none => some ([], rest)
      | some handle => (popUpTo limit rest).map fun (handles, rest) => (handle :: handles, rest)

def wakeLimit (count : Int) (queue : TaskHandlePriorityQueue) : Nat :=
  if count = I32_MAX then queue.length else count.toNat

def futexWake (self : System) (core : CoreId) (address : Nat) (count : Int) (ticks : Nat) : Option System :=
  let task := self.currentTask core
  if count < 0 then some (self.setCall task (.user (some (-EINVAL))))
  else
    match self.parkingLot address with
    | none => some (self.setCall task (.user (some 0)))
    | some queue => (popUpTo (wakeLimit count queue) queue).bind fun (handles, queue) =>
        (wakeupAll core ticks handles self).map fun self =>
          (self.leaveParkingLot address queue).setCall task (.user (some (min handles.length I32_MAX)))

/-! Semaphores. -/

def deadline (ticks : Nat) (time : Option Nat) : Option Nat := time.map fun ms => (ticks + ms * 1000) % 2 ^ 64

def acquireTurn (self : System) (core : CoreId) (semaphore : Nat) (wakeupTime : Option Nat) (parked : Bool) (ticks : Nat)
    (completed : Bool) : Option System :=
  let task := self.currentTask core
  let state := self.semaphores semaphore
  if state.count > 0 then
    some ((self.setSemaphore semaphore { state with count := state.count - 1 }).setCall task (.user (some 1)))
  else if wakeupTime.any (· < ticks) then
    (state.queue.remove (self.getCurrentTaskHandle core)).map fun (_, queue) =>
      (self.setSemaphore semaphore { state with queue := queue }).setCall task (.user (some 0))
  else if completed then
    (self.onCore core (·.blockCurrentTask wakeupTime)).bind fun self =>
      (state.queue.push (self.getCurrentTaskHandle core)).map fun queue =>
        (self.setSemaphore semaphore { state with queue := queue }).setCall task (.acquire semaphore wakeupTime true)
  else some (self.setCall task (.acquire semaphore wakeupTime parked))

def release (self : System) (core : CoreId) (semaphore : Nat) (ticks : Nat) : Option System :=
  let state := self.semaphores semaphore
  state.queue.pop.bind fun (popped, queue) =>
    let released := self.setSemaphore semaphore ⟨state.count + 1, queue⟩
    match popped with
    | none => some released
    | some task => released.customWakeup core ticks task

/-! The system calls that block and wake a task. -/

def enterBlockedTasks (self : System) (core : CoreId) (wakeupTime : Option Nat) : System :=
  let task := self.currentTask core
  { self with
    blockedTasks := update self.blockedTasks task (some (self.getCurrentTaskHandle core))
    calls := update self.calls task (.blockCurrentTask wakeupTime) }

def leaveBlockedTasks (self : System) (core : CoreId) (id : TaskId) : System :=
  match self.blockedTasks id with
  | none => self
  | some handle =>
      { self with
        blockedTasks := update self.blockedTasks id none
        calls := update self.calls (self.currentTask core) (.wakeupTask handle) }

end System

inductive Operation where
  | spawn (target : CoreId) (tid : TaskId) (prio : Priority)
  | checkInput (ticks : Nat)
  | handleWaitingTasks (time : Nat) (polled : Option (Option Nat))
  | scheduler
  /-- `block_current_task` elsewhere, as in `usleep`. -/
  | blockCurrentTask (wakeupTime : Option Nat)
  | futexWait (address : Nat) (expected relative : Bool) (ticks : Nat) (timeout : Option Nat)
  | futexWake (address : Nat) (count : Int) (ticks : Nat)
  | acquire (semaphore : Nat) (ticks : Nat) (time : Option Nat)
  | release (semaphore : Nat) (ticks : Nat)
  | sysBlockCurrentTask (ticks : Nat) (timeout : Option Nat)
  | sysWakeupTask (id : TaskId)
  | proceed (ticks : Nat) (completed : Bool)

def System.proceed (self : System) (core : CoreId) (ticks : Nat) (completed : Bool) : Option System :=
  let task := self.currentTask core
  let running := (self.cores core).currentStatus = .Running
  match self.calls task with
  | .user _ => some self
  | .futexWait address wakeupTime handle =>
      if running then self.futexWaitTurn core address wakeupTime handle ticks else some self
  | .acquire semaphore wakeupTime parked =>
      if parked = true → running then self.acquireTurn core semaphore wakeupTime parked ticks completed else some self
  | .blockCurrentTask wakeupTime =>
      (self.onCore core (·.blockCurrentTask wakeupTime)).map (·.setCall task (.user none))
  | .wakeupTask handle => (self.customWakeup core ticks handle).map (·.setCall task (.user none))

def System.enter (self : System) (core : CoreId) : Operation → Option System
  | .blockCurrentTask wakeupTime => self.onCore core (·.blockCurrentTask wakeupTime)
  | .futexWait address expected relative ticks timeout =>
      self.futexWait core address expected (System.futexDeadline relative ticks timeout)
  | .futexWake address count ticks => self.futexWake core address count ticks
  | .acquire semaphore ticks time =>
      some (self.setCall (self.currentTask core) (.acquire semaphore (System.deadline ticks time) false))
  | .release semaphore ticks => self.release core semaphore ticks
  | .sysBlockCurrentTask ticks timeout => some (self.enterBlockedTasks core (System.deadline ticks timeout))
  | .sysWakeupTask id => some (self.leaveBlockedTasks core id)
  | _ => some self

def System.act (self : System) (core : CoreId) : Operation → Option System
  | .spawn target tid prio => self.spawn core target tid prio
  | .checkInput ticks => self.onCore core (·.checkInput ticks)
  | .handleWaitingTasks time polled => self.onCore core (·.handleWaitingTasks time polled)
  | .scheduler => self.onCore core fun scheduler => scheduler.scheduler.map Prod.snd
  | .proceed ticks completed => self.proceed core ticks completed
  | operation =>
      match self.calls (self.currentTask core) with
      | .user _ => self.enter core operation
      | _ => some self

theorem System.enter_cases {self next : System} {core : CoreId} {operation : Operation}
    (ran : (match self.calls (self.currentTask core) with
      | .user _ => self.enter core operation
      | _ => some self) = some next) :
    next = self ∨ (∃ result, self.calls (self.currentTask core) = .user result) ∧
      self.enter core operation = some next := by
  cases called : self.calls (self.currentTask core) with
  | user result =>
    rw [called] at ran
    exact .inr ⟨⟨result, rfl⟩, ran⟩
  | _ =>
    rw [called] at ran
    exact .inl (Option.some.inj ran).symm

def perform (self : System) (action : CoreId × Operation) : Option System :=
  if action.1 < self.processorCount then self.act action.1 action.2 else some self

def step : Option System → CoreId × Operation → Option System := attempt perform

end HermitLocal.Scheduler.Synch
