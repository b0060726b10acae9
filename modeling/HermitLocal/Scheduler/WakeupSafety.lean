import HermitLocal.Scheduler.Wakeups

/-! Every handle in the queue of a futex or a semaphore names a task that is blocked there, and every handle in
`BLOCKED_TASKS` one that is blocked or about to be, as long as the timer wakes none of them: it takes a task out of the
blocked list of its core only. Whatever is taken from a queue is then found by the core that wakes it. -/

namespace HermitLocal.Scheduler.WakeupSafety
open Lib.Simulation Scheduler.TaskQueues Scheduler.PerCore Scheduler.Wakeups Function List Option
open Scheduler.Synch
open Scheduler.Blocked Scheduler.Placement

inductive WaitQueue where
  | futex (address : Nat)
  | semaphore (number : Nat)
deriving DecidableEq

def waiters (self : System) : WaitQueue → Multiset TaskHandle
  | .futex address => (self.parkingLot address).elim 0 TaskHandlePriorityQueue.handles
  | .semaphore number => (self.semaphores number).queue.handles

def waitsIn : Call → Option WaitQueue
  | .futexWait address _ _ => some (.futex address)
  | .acquire semaphore _ true => some (.semaphore semaphore)
  | _ => none

def Registered (self : System) (handle : TaskHandle) : Prop :=
  (∃ queue, handle ∈ waiters self queue) ∨
    self.blockedTasks handle.id = some handle ∧ ∀ wakeupTime, self.calls handle.id ≠ .blockCurrentTask wakeupTime

def Timely : Option System → CoreId × Operation → Prop
  | some self, (core, .handleWaitingTasks time _) =>
      ∀ node ∈ (self.cores core).blockedTasks.list, expired time node = true →
        ¬ UnderWay self core node.task ∧ ∀ handle, Registered self handle → handle.coreId = core → handle.id ≠ node.task
  | some self, (_, .sysWakeupTask id) => ∀ wakeupTime, self.calls id ≠ .blockCurrentTask wakeupTime
  | _, _ => True

def Resides (self : System) (handle : TaskHandle) : Prop :=
  handle.coreId < self.processorCount ∧ handle.id ∈ (self.cores handle.coreId).known

structure Registry (system : System) : Prop
    extends Homes system.processorCount system.tasks fun core => (system.cores core).known where
  queued : ∀ queue, ∀ handle ∈ waiters system queue, Resides system handle ∧ waitsIn (system.calls handle.id) = some queue
  once : ∀ queue, ((waiters system queue).map TaskHandle.id).Nodup
  entered : ∀ id handle, system.blockedTasks id = some handle →
    handle.id = id ∧ Resides system handle ∧ waitsIn (system.calls id) = none
  awaits : ∀ handle, Registered system handle → Awaits system handle

variable {self next : System} {core : CoreId} {task tid : TaskId} {call : Call} {handle : TaskHandle}
  {wakeupTime : Option Nat} {ticks time : Nat} {prio : Priority}

/-! The wait queues. -/

theorem handles_popUpTo (limit : Nat) {queue rest : TaskHandlePriorityQueue} {handles : List TaskHandle}
    (popped : System.popUpTo limit queue = some (handles, rest)) :
    queue.handles = (handles : Multiset TaskHandle) + rest.handles := by
  induction limit generalizing queue rest handles with
  | zero =>
    cases popped
    exact (zero_add _).symm
  | succ limit ih =>
    obtain ⟨⟨first, others⟩, pops, more⟩ := bind_eq_some_iff.mp popped
    rw [TaskHandlePriorityQueue.handles_pop pops]
    cases first with
    | none =>
      cases more
      rfl
    | some handle =>
      obtain ⟨⟨later, last⟩, popsLater, same⟩ := map_eq_some_iff.mp more
      cases same
      rw [ih popsLater, ← add_assoc, elim_some, Multiset.singleton_add, Multiset.cons_coe]

theorem waiters_parkingLot (self : System) (address : Nat) (value : Option TaskHandlePriorityQueue) :
    waiters { self with parkingLot := update self.parkingLot address value } =
      update (waiters self) (.futex address) (value.elim 0 TaskHandlePriorityQueue.handles) := by
  funext queue
  cases queue with
  | futex other =>
    by_cases same : other = address
    · rw [same, update_self]
      simp only [waiters, update_self]
    · rw [update_of_ne fun equal => same (WaitQueue.futex.inj equal)]
      simp only [waiters, update_of_ne same]
  | semaphore number => exact (update_of_ne WaitQueue.noConfusion ..).symm

theorem waiters_setSemaphore (self : System) (number : Nat) (value : Semaphore) :
    waiters (self.setSemaphore number value) = update (waiters self) (.semaphore number) value.queue.handles := by
  funext queue
  cases queue with
  | futex address => exact (update_of_ne WaitQueue.noConfusion ..).symm
  | semaphore other =>
    by_cases same : other = number
    · rw [same, update_self]
      simp only [waiters, System.setSemaphore, update_self]
    · rw [update_of_ne fun equal => same (WaitQueue.semaphore.inj equal)]
      simp only [waiters, System.setSemaphore, update_of_ne same]

theorem waiters_leaveParkingLot (self : System) (address : Nat) (queue : TaskHandlePriorityQueue) (place : WaitQueue) :
    waiters (self.leaveParkingLot address queue) place ≤ update (waiters self) (.futex address) queue.handles place := by
  unfold System.leaveParkingLot
  rw [waiters_parkingLot, update_apply, update_apply]
  split
  · split
    · exact Multiset.zero_le _
    · exact le_rfl
  · exact le_rfl

theorem update_le {queues : WaitQueue → Multiset TaskHandle} {place : WaitQueue} {less : Multiset TaskHandle}
    (fewer : less ≤ queues place) (queue : WaitQueue) : update queues place less queue ≤ queues queue := by
  by_cases same : queue = place
  · rw [same, update_self]
    exact fewer
  · rw [update_of_ne same]

/-! What a core leaves of the tasks it knows. -/

theorem known_wakeup {scheduler after : PerCoreScheduler} (woken : scheduler.wakeup ticks handle = some after) :
    after.known = scheduler.known := by
  obtain ⟨blocking, readyQueue, rfl, -⟩ := wakeup_cases woken
  rfl

theorem known_checkInput {scheduler after : PerCoreScheduler} (checked : scheduler.checkInput ticks = some after) :
    after.known = scheduler.known := by
  obtain ⟨between, woken, enrolled⟩ := bind_eq_some_iff.mp checked
  have first : between.known = scheduler.known := by
    apply drainWakeups_keeps (fun _ reached => reached.known = scheduler.known) _ _ rfl woken
    exact fun _ _ _ _ same wakes => (known_wakeup wakes).trans same
  apply drainNewTasks_keeps (fun _ reached => reached.known = scheduler.known) _ _ first enrolled
  intro newTask rest before reached same enrolls
  obtain ⟨tasks, readyQueue, rfl, -⟩ := enroll_cases enrolls
  exact same

theorem known_scheduler {scheduler after : PerCoreScheduler} {switched : Option TaskId}
    (called : scheduler.scheduler = some (switched, after)) : after.known = scheduler.known := by
  rcases switch_cases called with ⟨readyQueue, rfl, -⟩ | ⟨new, readyQueue, rfl, -⟩
  · rfl
  · rfl

theorem known_spawn {scheduler after : PerCoreScheduler} (spawned : scheduler.spawn tid prio = some after) :
    after.known = tid :: scheduler.known := by
  unfold PerCoreScheduler.spawn at spawned
  split at spawned
  · cases spawned
  · obtain ⟨tasks, readyQueue, rfl, -⟩ := enroll_cases spawned
    rfl

theorem known_remoteSpawn {scheduler after : PerCoreScheduler} (spawned : scheduler.remoteSpawn tid prio = some after) :
    after.known = tid :: scheduler.known := by
  unfold PerCoreScheduler.remoteSpawn at spawned
  split at spawned
  · cases spawned
  · cases spawned
    rfl

/-! Which steps keep the registry. -/

theorem futexWake_split {address : Nat} {queue : TaskHandlePriorityQueue} (lot : self.parkingLot address = some queue)
    {limit : Nat} {handles : List TaskHandle} {rest : TaskHandlePriorityQueue}
    (popped : System.popUpTo limit queue = some (handles, rest)) :
    waiters self (.futex address) = (handles : Multiset TaskHandle) + rest.handles := by
  dsimp only [waiters]
  rw [lot]
  exact handles_popUpTo limit popped

theorem release_split {semaphore : Nat} {popped : Option TaskHandle} {rest : TaskHandlePriorityQueue}
    (pops : (self.semaphores semaphore).queue.pop = some (popped, rest)) :
    waiters self (.semaphore semaphore) = (popped.toList : Multiset TaskHandle) + rest.handles := by
  dsimp only [waiters]
  rw [TaskHandlePriorityQueue.handles_pop pops]
  cases popped with
  | none => rfl
  | some handle => rfl

theorem onCore_cases {f : PerCoreScheduler → Option PerCoreScheduler} (ran : self.onCore core f = some next)
    (known : ∀ after, f (self.cores core) = some after → after.known = (self.cores core).known) :
    ∃ cores, next = { self with cores := cores } ∧ ∀ core, (cores core).known = (self.cores core).known := by
  obtain ⟨after, applied, rfl⟩ := map_eq_some_iff.mp ran
  refine ⟨_, rfl, ?_⟩
  intro other
  by_cases same : other = core
  · rw [same, update_self, known after applied]
  · rw [update_of_ne same]

theorem customWakeup_cases (woken : self.customWakeup core ticks handle = some next) :
    ∃ cores, next = { self with cores := cores } ∧ ∀ core, (cores core).known = (self.cores core).known := by
  unfold System.customWakeup at woken
  split at woken
  · exact onCore_cases woken fun _ wakes => known_wakeup wakes
  · apply onCore_cases woken
    intro after handed
    rw [← some.inj handed]
    rfl

section Keeping
variable (registry : Registry self)

include registry

theorem Registry.resides (registered : Registered self handle) : Resides self handle := by
  rcases registered with ⟨queue, member⟩ | ⟨entry, -⟩
  · exact (registry.queued queue handle member).1
  · exact (registry.entered handle.id handle entry).2.1

theorem Registry.not_queued (outside : waitsIn (self.calls task) = none) {queue : WaitQueue}
    (member : handle ∈ waiters self queue) : handle.id ≠ task := by
  rintro rfl
  have waits := (registry.queued queue handle member).2
  rw [outside] at waits
  cases waits

theorem Registry.withCores (cores : CoreId → PerCoreScheduler)
    (known : ∀ core, (cores core).known = (self.cores core).known)
    (awaits : ∀ handle, Registered self handle → Awaits { self with cores := cores } handle) :
    Registry { self with cores := cores } := by
  have resides {handle : TaskHandle} (before : Resides self handle) : Resides { self with cores := cores } handle :=
    ⟨before.1, (known handle.coreId).symm ▸ before.2⟩
  constructor
  case toHomes =>
    dsimp only
    rw [funext known]
    exact registry.toHomes
  case queued =>
    intro queue handle member
    obtain ⟨before, waits⟩ := registry.queued queue handle member
    exact ⟨resides before, waits⟩
  case once => exact registry.once
  case entered =>
    intro id handle entry
    obtain ⟨named, before, outside⟩ := registry.entered id handle entry
    exact ⟨named, resides before, outside⟩
  case awaits => exact awaits

theorem Registry.setCore {after : PerCoreScheduler} (core : CoreId) (known : after.known = (self.cores core).known)
    (stays : ∀ handle, Registered self handle → handle.coreId = core → (after.tasks handle.id).status = .Blocked)
    (wakeups : ∀ id, id ∈ after.input.wakeupTasks.map TaskHandle.id →
      id ∈ (self.cores core).input.wakeupTasks.map TaskHandle.id) : Registry (self.setCore core after) := by
  apply registry.withCores
  · intro other
    by_cases same : other = core
    · rw [same, update_self, known]
    · rw [update_of_ne same]
  · intro handle registered
    exact (registry.awaits handle registered).setCore core (stays handle registered) fun _ => wakeups handle.id

theorem Registry.shrink (parkingLot : Nat → Option TaskHandlePriorityQueue) (semaphores : Nat → Semaphore)
    (less : ∀ queue, waiters { self with parkingLot := parkingLot, semaphores := semaphores } queue ≤ waiters self queue) :
    Registry { self with parkingLot := parkingLot, semaphores := semaphores } := by
  refine { registry with queued := ?_, once := ?_, awaits := ?_ }
  · intro queue handle member
    exact registry.queued queue handle (Multiset.mem_of_le (less queue) member)
  · intro queue
    exact Multiset.nodup_of_le (Multiset.map_le_map (less queue)) (registry.once queue)
  · rintro handle (⟨queue, member⟩ | entry)
    · exact registry.awaits handle (.inl ⟨queue, Multiset.mem_of_le (less queue) member⟩)
    · exact registry.awaits handle (.inr entry)

theorem Registry.leaveParkingLot (address : Nat) {queue : TaskHandlePriorityQueue}
    (less : queue.handles ≤ waiters self (.futex address)) : Registry (self.leaveParkingLot address queue) := by
  apply registry.shrink _ self.semaphores
  intro place
  exact (waiters_leaveParkingLot self address queue place).trans (update_le less place)

theorem Registry.setSemaphore (number : Nat) {value : Semaphore}
    (less : value.queue.handles ≤ waiters self (.semaphore number)) : Registry (self.setSemaphore number value) := by
  apply registry.shrink self.parkingLot
  intro place
  change waiters (self.setSemaphore number value) place ≤ _
  rw [waiters_setSemaphore]
  exact update_le less place

/-! The calls of the tasks. -/

theorem Registry.entry_awaits (past : ∀ wakeupTime, self.calls task ≠ .blockCurrentTask wakeupTime)
    (entry : self.blockedTasks task = some handle) : Awaits self handle := by
  obtain ⟨rfl, -⟩ := registry.entered task handle entry
  exact registry.awaits handle (.inr ⟨entry, past⟩)

theorem Registry.setCall (free : ∀ queue, ∀ handle ∈ waiters self queue, handle.id ≠ task)
    (outside : waitsIn call = none) (noWakeup : ∀ handle, call ≠ .wakeupTask handle)
    (entry : ∀ handle, self.blockedTasks task = some handle → Awaits self handle) :
    Registry (self.setCall task call) := by
  have turn {handle : TaskHandle} (awaits : Awaits self handle) : Awaits (self.setCall task call) handle :=
    awaits.turn rfl rfl noWakeup
  refine { registry with queued := ?_, entered := ?_, awaits := ?_ }
  · intro queue handle member
    obtain ⟨resides, waits⟩ := registry.queued queue handle member
    refine ⟨resides, ?_⟩
    change waitsIn (update self.calls task call handle.id) = _
    rwa [update_of_ne (free queue handle member)]
  · intro id handle found
    obtain ⟨named, resides, before⟩ := registry.entered id handle found
    refine ⟨named, resides, ?_⟩
    change waitsIn (update self.calls task call id) = _
    rw [update_apply]
    split
    · exact outside
    · exact before
  · rintro handle (queued | ⟨found, past⟩)
    · exact turn (registry.awaits handle (.inl queued))
    · by_cases same : handle.id = task
      · exact turn (entry handle (same ▸ found))
      · apply turn
        apply registry.entry_awaits _ found
        intro wakeupTime called
        apply past wakeupTime
        change update self.calls task call handle.id = _
        rwa [update_of_ne same]

theorem Registry.enlist {queue : WaitQueue} {parkingLot : Nat → Option TaskHandlePriorityQueue}
    {semaphores : Nat → Semaphore}
    (pushed : waiters { self with parkingLot := parkingLot, semaphores := semaphores } =
      update (waiters self) queue (handle ::ₘ waiters self queue))
    (waits : waitsIn call = some queue) (resides : Resides self handle) (awaits : Awaits self handle)
    (free : ∀ queue, ∀ other ∈ waiters self queue, other.id ≠ handle.id) (noEntry : self.blockedTasks handle.id = none) :
    Registry { self with
      parkingLot := parkingLot, semaphores := semaphores, calls := update self.calls handle.id call } := by
  generalize reached : ({ self with
    parkingLot := parkingLot, semaphores := semaphores, calls := update self.calls handle.id call } : System) = after
  have cores : after.cores = self.cores := by rw [← reached]
  have calls : after.calls = update self.calls handle.id call := by rw [← reached]
  have queues : waiters after = update (waiters self) queue (handle ::ₘ waiters self queue) := by
    rw [← reached]
    exact pushed
  have noWakeup (other : TaskHandle) : call ≠ .wakeupTask other := by
    rintro rfl
    cases waits
  have member {place : WaitQueue} {other : TaskHandle} (found : other ∈ waiters after place) :
      place = queue ∧ other = handle ∨ other ∈ waiters self place := by
    rw [queues, update_apply] at found
    split at found
    next same =>
      rcases Multiset.mem_cons.mp found with rfl | old
      · exact .inl ⟨same, rfl⟩
      · exact .inr (same ▸ old)
    · exact .inr found
  have entries {id : TaskId} {other : TaskHandle} (entry : after.blockedTasks id = some other) :
      self.blockedTasks id = some other ∧ after.calls id = self.calls id := by
    have before : self.blockedTasks id = some other := by rwa [← reached] at entry
    refine ⟨before, ?_⟩
    rw [calls, update_of_ne]
    rintro rfl
    rw [noEntry] at before
    cases before
  have moved {other : TaskHandle} (before : Resides self other) : Resides after other := by
    rw [← reached]
    exact before
  constructor
  case toHomes =>
    rw [← reached]
    exact registry.toHomes
  case queued =>
    intro place other found
    rcases member found with ⟨rfl, rfl⟩ | old
    · rw [calls, update_self]
      exact ⟨moved resides, waits⟩
    · obtain ⟨there, waiting⟩ := registry.queued place other old
      rw [calls, update_of_ne (free place other old)]
      exact ⟨moved there, waiting⟩
  case once =>
    intro place
    rw [queues, update_apply]
    split
    · rw [Multiset.map_cons, Multiset.nodup_cons]
      refine ⟨?_, registry.once queue⟩
      intro twice
      obtain ⟨other, old, same⟩ := Multiset.mem_map.mp twice
      exact free queue other old same
    · exact registry.once place
  case entered =>
    intro id other entry
    obtain ⟨before, same⟩ := entries entry
    obtain ⟨named, there, outside⟩ := registry.entered id other before
    rw [same]
    exact ⟨named, moved there, outside⟩
  case awaits =>
    intro other registered
    suffices Awaits self other from this.turn cores calls noWakeup
    rcases registered with ⟨place, found⟩ | ⟨entry, past⟩
    · rcases member found with ⟨-, rfl⟩ | old
      · exact awaits
      · exact registry.awaits other (.inl ⟨place, old⟩)
    · obtain ⟨before, same⟩ := entries entry
      rw [same] at past
      exact registry.awaits other (.inr ⟨before, past⟩)

theorem Registry.taken_aside {place queue : WaitQueue} {handles : List TaskHandle} {rest : Multiset TaskHandle}
    (split : waiters self place = (handles : Multiset TaskHandle) + rest) (member : handle ∈ handles)
    {other : TaskHandle} (stays : other ∈ update (waiters self) place rest queue) : handle.id ≠ other.id := by
  have here : handle ∈ waiters self place := by
    rw [split]
    exact Multiset.mem_add.mpr (.inl member)
  intro same
  by_cases equal : queue = place
  · have once := registry.once place
    rw [equal, update_self] at stays
    rw [split, Multiset.map_add, Multiset.nodup_add] at once
    exact Multiset.disjoint_left.mp once.2.2 (Multiset.mem_map_of_mem _ member) (same ▸ Multiset.mem_map_of_mem _ stays)
  · rw [update_of_ne equal] at stays
    have waits := (registry.queued queue other stays).2
    rw [← same, (registry.queued place handle here).2] at waits
    exact equal (some.inj waits).symm

theorem Registry.entry_aside {queue : WaitQueue} (member : handle ∈ waiters self queue) {other : TaskHandle}
    (entry : self.blockedTasks other.id = some other) : handle.id ≠ other.id := by
  have outside := (registry.entered other.id other entry).2.2
  exact registry.not_queued outside member

theorem Registry.handles_await {place : WaitQueue} {handles : List TaskHandle} {rest : Multiset TaskHandle}
    (split : waiters self place = (handles : Multiset TaskHandle) + rest) :
    handles.Pairwise Apart ∧ ∀ handle ∈ handles, Awaits self handle := by
  have once := registry.once place
  rw [split, Multiset.map_add, Multiset.nodup_add] at once
  constructor
  · have ids : (handles.map TaskHandle.id).Nodup := once.1
    rw [Nodup, pairwise_map] at ids
    exact ids.imp fun apart both => apart both.1
  · intro handle member
    apply registry.awaits handle
    refine .inl ⟨place, ?_⟩
    rw [split]
    exact Multiset.mem_add.mpr (.inl member)

theorem Registry.leaveBlockedTasks {result : Option Int} {id : TaskId}
    (outside : self.calls (self.currentTask core) = .user result) : Registry (self.leaveBlockedTasks core id) := by
  have away : waitsIn (self.calls (self.currentTask core)) = none := by
    rw [outside]
    rfl
  unfold System.leaveBlockedTasks
  cases found : self.blockedTasks id with
  | none => exact registry
  | some taken =>
    obtain ⟨named, -, notQueued⟩ := registry.entered id taken found
    have entries {other : TaskId} {handle : TaskHandle}
        (entry : update self.blockedTasks id none other = some handle) :
        other ≠ id ∧ self.blockedTasks other = some handle := by
      rw [update_apply] at entry
      split at entry
      · cases entry
      next apart => exact ⟨apart, entry⟩
    have turn {handle : TaskHandle} (apart : handle.id ≠ id) (awaits : Awaits self handle) :
        Awaits { self with
          blockedTasks := update self.blockedTasks id none
          calls := update self.calls (self.currentTask core) (.wakeupTask taken) } handle := by
      refine ⟨awaits.1, ?_⟩
      rintro (waiting | ⟨waker, other, called, there, same⟩)
      · exact awaits.2 (.inl waiting)
      · dsimp only at called
        rw [update_apply] at called
        split at called
        · rw [← Call.wakeupTask.inj called, named] at same
          exact apart same.symm
        · exact awaits.2 (.inr ⟨waker, other, called, there, same⟩)
    refine { registry with queued := ?_, entered := ?_, awaits := ?_ }
    · intro queue handle member
      obtain ⟨resides, waits⟩ := registry.queued queue handle member
      refine ⟨resides, ?_⟩
      dsimp only
      rwa [update_of_ne (registry.not_queued away member)]
    · intro other handle entry
      obtain ⟨sameId, resides, before⟩ := registry.entered other handle (entries entry).2
      refine ⟨sameId, resides, ?_⟩
      dsimp only
      rw [update_apply]
      split
      · rfl
      · exact before
    · rintro handle (⟨queue, member⟩ | ⟨entry, past⟩)
      · exact turn (registry.not_queued notQueued member) (registry.awaits handle (.inl ⟨queue, member⟩))
      · obtain ⟨apart, before⟩ := entries entry
        apply turn apart
        apply registry.entry_awaits _ before
        intro wakeupTime called
        by_cases same : handle.id = self.currentTask core
        · rw [same, outside] at called
          cases called
        · apply past wakeupTime
          dsimp only
          rwa [update_of_ne same]

theorem Registry.firstHandles_await {operation : Operation} (timely : Timely (some self) (core, operation)) :
    (firstHandles self operation).Pairwise Apart ∧ ∀ handle ∈ firstHandles self operation, Awaits self handle := by
  have nothing : ([] : List TaskHandle).Pairwise Apart ∧ ∀ handle ∈ ([] : List TaskHandle), Awaits self handle :=
    ⟨.nil, fun _ member => absurd member not_mem_nil⟩
  cases operation with
  | futexWake address count ticks =>
    dsimp only [firstHandles]
    cases lot : self.parkingLot address with
    | none => exact nothing
    | some queue =>
      dsimp only
      split
      · exact nothing
      · cases popped : System.popUpTo (System.wakeLimit count queue) queue with
        | none => exact nothing
        | some pair => exact registry.handles_await (futexWake_split lot popped)
  | release semaphore ticks =>
    dsimp only [firstHandles]
    cases popped : (self.semaphores semaphore).queue.pop with
    | none => exact nothing
    | some pair => exact registry.handles_await (release_split popped)
  | sysWakeupTask id =>
    dsimp only [firstHandles]
    cases entry : self.blockedTasks id with
    | none => exact nothing
    | some handle =>
      refine ⟨pairwise_singleton _ _, ?_⟩
      intro other member
      rw [mem_singleton.mp member]
      exact registry.entry_awaits timely entry
  | _ => exact nothing

theorem Registry.taken_await {operation : Operation} (timely : Timely (some self) (core, operation)) :
    (taken self core operation).Pairwise Apart ∧ ∀ handle ∈ taken self core operation, Awaits self handle := by
  unfold taken
  split
  · exact registry.firstHandles_await timely
  · exact ⟨.nil, fun _ member => absurd member not_mem_nil⟩

end Keeping

theorem registry_boot (processorCount : Nat) (counts : Nat → Int) : Registry (System.boot processorCount counts) := by
  have empty (queue : WaitQueue) : waiters (System.boot processorCount counts) queue = 0 := by
    cases queue with
    | futex address => rfl
    | semaphore number => exact TaskHandlePriorityQueue.handles_new
  constructor
  case toHomes => exact homes_boot processorCount
  case queued =>
    intro queue handle member
    rw [empty] at member
    exact absurd member (Multiset.notMem_zero handle)
  case once =>
    intro queue
    rw [empty]
    exact Multiset.nodup_zero
  case entered =>
    intro id handle entry
    cases entry
  case awaits =>
    rintro handle (⟨queue, member⟩ | ⟨entry, -⟩)
    · rw [empty] at member
      exact absurd member (Multiset.notMem_zero handle)
    · cases entry

/-! Both invariants together. -/

structure Safe (system : System) : Prop where
  sane : Sane system
  registry : Registry system

section Keeping
variable (safe : Safe self)

include safe

theorem Safe.running_unregistered (present : core < self.processorCount)
    (running : (self.cores core).currentStatus = .Running) (registered : Registered self handle) :
    handle.id ≠ self.currentTask core := by
  intro same
  obtain ⟨there, known⟩ := safe.registry.resides registered
  have here : handle.id ∈ (self.cores core).known := same ▸ (safe.sane.cores core).placed.current_known
  have blocked := (safe.registry.awaits handle registered).1
  rw [safe.registry.unique handle.coreId there core present handle.id known here, same] at blocked
  exact TaskStatus.noConfusion (running.symm.trans blocked)

theorem Safe.running_no_entry (present : core < self.processorCount)
    (running : (self.cores core).currentStatus = .Running)
    (entered : ∀ wakeupTime, self.calls (self.currentTask core) ≠ .blockCurrentTask wakeupTime) :
    self.blockedTasks (self.currentTask core) = none := by
  cases entry : self.blockedTasks (self.currentTask core) with
  | none => rfl
  | some handle =>
    have named := (safe.registry.entered _ handle entry).1
    rw [← named] at entry entered
    exact absurd named (safe.running_unregistered present running (.inr ⟨entry, entered⟩))

theorem Safe.still_listed (registered : Registered self handle) : Listed (self.cores handle.coreId) handle.id :=
  (safe.sane.cores handle.coreId).listed handle.id (safe.registry.awaits handle registered).1

theorem Safe.setCore {after : PerCoreScheduler} (consistent : Consistent core after)
    (known : after.known = (self.cores core).known)
    (wakeups : after.input.wakeupTasks = (self.cores core).input.wakeupTasks)
    (pending : ∀ task, UnderWay self core task → Listed after task)
    (stays : ∀ handle, Registered self handle → handle.coreId = core → Listed after handle.id) :
    Safe (self.setCore core after) := by
  constructor
  · exact safe.sane.setCore_sameInput core consistent wakeups pending
  · apply safe.registry.setCore core known
    · exact fun handle registered here => consistent.blocked (stays handle registered here)
    · intro id member
      rwa [wakeups] at member

theorem Safe.onCore_keeps {f : PerCoreScheduler → Option PerCoreScheduler}
    (keeps : ∀ after, f (self.cores core) = some after →
      (Tidy core after ∧ Keeps (self.cores core) after) ∧ Invariant false after ∧ after.known = (self.cores core).known)
    (ran : self.onCore core f = some next) : Safe next := by
  obtain ⟨after, applied, rfl⟩ := map_eq_some_iff.mp ran
  obtain ⟨⟨tidy, kept⟩, placed, known⟩ := keeps after applied
  apply safe.setCore ⟨tidy, placed⟩ known kept.wakeups
  · exact fun task pending => kept.listed task (safe.sane.underWay_listed pending)
  · rintro handle registered rfl
    exact kept.listed handle.id (safe.still_listed registered)

theorem Safe.blockCurrentTask (ran : self.onCore core (·.blockCurrentTask wakeupTime) = some next) : Safe next := by
  apply safe.onCore_keeps _ ran
  intro after blocked
  have before := safe.sane.cores core
  refine ⟨before.toTidy.blockCurrentTask blocked, before.placed.blockCurrentTask blocked, ?_⟩
  obtain ⟨blocking, rfl, -⟩ := blockCurrentTask_cases blocked
  rfl

theorem Safe.scheduler (ran : self.onCore core (fun scheduler => scheduler.scheduler.map Prod.snd) = some next) :
    Safe next := by
  apply safe.onCore_keeps _ ran
  intro after applied
  have before := safe.sane.cores core
  obtain ⟨⟨switched, reached⟩, called, rfl⟩ := map_eq_some_iff.mp applied
  exact ⟨before.toTidy.scheduler called, before.placed.scheduler called, known_scheduler called⟩

theorem Safe.handleWaitingTasks {polled : Option (Option Nat)}
    (timely : Timely (some self) (core, .handleWaitingTasks time polled))
    (ran : self.onCore core (·.handleWaitingTasks time polled) = some next) : Safe next := by
  obtain ⟨after, handled, rfl⟩ := map_eq_some_iff.mp ran
  have before := safe.sane.cores core
  obtain ⟨tidy, input, keeps⟩ := before.toTidy.handleWaitingTasks handled
  apply safe.setCore ⟨tidy, before.placed.handleWaitingTasks handled⟩ _ (by rw [input])
  · intro task pending
    rcases keeps task (safe.sane.underWay_listed pending) with ⟨node, member, named, late⟩ | listed
    · exact absurd (named ▸ pending) (timely node member late).1
    · exact listed
  · rintro handle registered rfl
    rcases keeps handle.id (safe.still_listed registered) with ⟨node, member, named, late⟩ | still
    · exact absurd named.symm ((timely node member late).2 handle registered rfl)
    · exact still
  · obtain ⟨⟨blocking, readyQueue⟩, -, rfl⟩ := map_eq_some_iff.mp handled
    rfl

theorem Safe.checkInput (ran : self.onCore core (·.checkInput ticks) = some next) : Safe next := by
  obtain ⟨after, checked, rfl⟩ := map_eq_some_iff.mp ran
  have before := safe.sane.cores core
  obtain ⟨consistent, emptied, keeps⟩ := (before.checkInput (safe.sane.waiting core) (safe.sane.once core)).2 after checked
  constructor
  · apply safe.sane.setCore core consistent
    · intro handle member
      rw [emptied] at member
      cases member
    · rw [emptied]
      exact nodup_nil
    · rintro waker handle called rfl
      obtain ⟨among, absent⟩ := safe.sane.inHand waker handle called
      rw [emptied]
      exact ⟨keeps handle.id absent among, not_mem_nil⟩
  · apply safe.registry.setCore core (known_checkInput checked)
    · rintro handle registered rfl
      have free := (safe.registry.awaits handle registered).2
      exact consistent.blocked (keeps handle.id (fun waiting => free (.inl waiting)) (safe.still_listed registered))
    · intro id member
      rw [emptied] at member
      cases member

/-! The calls of the tasks. -/

theorem Safe.goOn (before : waitsIn (self.calls task) = none)
    (past : ∀ wakeupTime, self.calls task ≠ .blockCurrentTask wakeupTime) (outside : waitsIn call = none)
    (noWakeup : ∀ handle, call ≠ .wakeupTask handle) : Safe (self.setCall task call) where
  sane := safe.sane.setCall task noWakeup
  registry := safe.registry.setCall (fun _ _ member => safe.registry.not_queued before member) outside noWakeup
    fun _ => safe.registry.entry_awaits past

theorem Safe.leave (present : core < self.processorCount) (running : (self.cores core).currentStatus = .Running)
    (past : ∀ wakeupTime, self.calls (self.currentTask core) ≠ .blockCurrentTask wakeupTime) (result : Option Int) :
    Safe (self.setCall (self.currentTask core) (.user result)) where
  sane := safe.sane.setCall _ nofun
  registry := by
    apply safe.registry.setCall
    · intro queue handle member
      exact safe.running_unregistered present running (.inl ⟨queue, member⟩)
    · rfl
    · exact nofun
    · exact fun _ => safe.registry.entry_awaits past

theorem Safe.leaveParkingLot (address : Nat) {queue : TaskHandlePriorityQueue}
    (less : queue.handles ≤ waiters self (.futex address)) : Safe (self.leaveParkingLot address queue) :=
  ⟨safe.sane.congr rfl rfl, safe.registry.leaveParkingLot address less⟩

theorem Safe.setSemaphore (number : Nat) {value : Semaphore}
    (less : value.queue.handles ≤ waiters self (.semaphore number)) : Safe (self.setSemaphore number value) :=
  ⟨safe.sane.congr rfl rfl, safe.registry.setSemaphore number less⟩

/-! A task that blocks leaves its handle in a queue. -/

omit safe in
theorem blocked_awaits (sane : Sane self) (ran : self.onCore core (·.blockCurrentTask wakeupTime) = some next)
    (own : handle.id = self.currentTask core) (here : handle.coreId = core) : Awaits next handle := by
  obtain ⟨after, blocked, rfl⟩ := map_eq_some_iff.mp ran
  obtain ⟨blocking, rfl, running, tasks, -⟩ := blockCurrentTask_cases blocked
  constructor
  · rw [here, System.setCore_same, own]
    change (blocking.tasks (self.cores core).currentTask).status = _
    rw [tasks, setStatus_status_self]
  · intro pending
    have before : UnderWay self core handle.id := by
      rcases pending with waiting | hand
      · rw [here, System.setCore_same] at waiting
        exact .inl waiting
      · exact .inr (here ▸ hand)
    have status := (sane.cores core).blocked (sane.underWay_listed before)
    rw [own] at status
    exact TaskStatus.noConfusion (running.symm.trans status)

/-! Wakeups of handles that have left their queue. -/

theorem Safe.customWakeup (awaits : Awaits self handle) (aside : ∀ other, Registered self other → Apart handle other)
    (woken : self.customWakeup core ticks handle = some next) : Safe next := by
  obtain ⟨sane, stay⟩ := (safe.sane.customWakeup core ticks awaits).2 next woken
  refine ⟨sane, ?_⟩
  obtain ⟨cores, rfl, known⟩ := customWakeup_cases woken
  apply safe.registry.withCores cores known
  intro other registered
  exact stay other (aside other registered) (safe.registry.awaits other registered)

omit safe in
theorem Safe.wakeupAll (handles : List TaskHandle) (safe : Safe self)
    (apart : handles.Pairwise Apart) (await : ∀ handle ∈ handles, Awaits self handle)
    (aside : ∀ other, Registered self other → ∀ handle ∈ handles, Apart handle other)
    (woken : System.wakeupAll core ticks handles self = some next) : Safe next := by
  induction handles generalizing self with
  | nil => rwa [← some.inj woken]
  | cons handle rest ih =>
    obtain ⟨first, others⟩ := pairwise_cons.mp apart
    obtain ⟨between, wakes, more⟩ := bind_eq_some_iff.mp woken
    have awaits := await handle mem_cons_self
    obtain ⟨-, stay⟩ := (safe.sane.customWakeup core ticks awaits).2 between wakes
    have kept := safe.customWakeup awaits (fun other registered => aside other registered handle mem_cons_self) wakes
    obtain ⟨cores, rfl, -⟩ := customWakeup_cases wakes
    apply ih kept others _ _ more
    · intro other member
      exact stay other (first other member) (await other (mem_cons_of_mem _ member))
    · intro other registered later member
      exact aside other registered later (mem_cons_of_mem _ member)

end Keeping

/-! Each critical section. -/

section Sections
variable (safe : Safe self) (present : core < self.processorCount)

include safe present

theorem Safe.park {between : System} (blocked : self.onCore core (·.blockCurrentTask wakeupTime) = some between)
    (past : ∀ wakeupTime, self.calls (self.currentTask core) ≠ .blockCurrentTask wakeupTime) {queue : WaitQueue}
    {parkingLot : Nat → Option TaskHandlePriorityQueue} {semaphores : Nat → Semaphore}
    (pushed : waiters { between with parkingLot := parkingLot, semaphores := semaphores } =
      update (waiters between) queue (between.getCurrentTaskHandle core ::ₘ waiters between queue))
    (waits : waitsIn call = some queue) :
    Safe { between with
      parkingLot := parkingLot, semaphores := semaphores
      calls := update between.calls (self.currentTask core) call } := by
  have kept := safe.blockCurrentTask blocked
  have noWakeup (other : TaskHandle) : call ≠ .wakeupTask other := by
    rintro rfl
    cases waits
  refine ⟨kept.sane.turn rfl rfl noWakeup, ?_⟩
  have own : (between.getCurrentTaskHandle core).coreId = core := (kept.sane.cores core).own _
  obtain ⟨after, applied, rfl⟩ := map_eq_some_iff.mp blocked
  obtain ⟨blocking, rfl, running, -⟩ := blockCurrentTask_cases applied
  have same : (self.setCore core { self.cores core with toBlocking := blocking }).currentTask core =
      self.currentTask core := by
    unfold System.currentTask
    rw [System.setCore_same]
  rw [← same]
  apply kept.registry.enlist pushed waits
  · refine ⟨own.symm ▸ present, ?_⟩
    rw [own]
    exact (kept.sane.cores core).placed.current_known
  · exact blocked_awaits safe.sane blocked same own
  · intro place other member
    change other.id ≠ System.currentTask _ core
    rw [same]
    exact safe.running_unregistered present running (.inl ⟨place, member⟩)
  · change self.blockedTasks (System.currentTask _ core) = none
    rw [same]
    exact safe.running_no_entry present running past

theorem Safe.futexWait {address : Nat} {expected : Bool} {result : Option Int}
    (outside : self.calls (self.currentTask core) = .user result)
    (ran : self.futexWait core address expected wakeupTime = some next) : Safe next := by
  have past (wakeupTime : Option Nat) : self.calls (self.currentTask core) ≠ .blockCurrentTask wakeupTime := by
    rw [outside]
    exact nofun
  unfold System.futexWait at ran
  split at ran
  · obtain ⟨between, blocked, more⟩ := bind_eq_some_iff.mp ran
    obtain ⟨queue, pushed, rfl⟩ := map_eq_some_iff.mp more
    apply safe.park present blocked past _ rfl
    refine (waiters_parkingLot between address (some queue)).trans ?_
    congr 1
    rw [elim_some, TaskHandlePriorityQueue.handles_push pushed]
    dsimp only [waiters]
    cases between.parkingLot address with
    | none => rw [getD_none, TaskHandlePriorityQueue.handles_new, elim_none]
    | some before => rfl
  · cases ran
    refine safe.goOn ?_ past rfl nofun
    rw [outside]
    rfl

theorem Safe.futexWaitTurn {address : Nat} (running : (self.cores core).currentStatus = .Running)
    (past : ∀ wakeupTime, self.calls (self.currentTask core) ≠ .blockCurrentTask wakeupTime)
    (ran : self.futexWaitTurn core address wakeupTime handle ticks = some next) : Safe next := by
  have returns (result : Option Int) : Safe (self.setCall (self.currentTask core) (.user result)) :=
    safe.leave present running past result
  unfold System.futexWaitTurn at ran
  dsimp only at ran
  split at ran
  · split at ran
    · cases ran
      exact returns _
    · rename_i queue lot
      obtain ⟨⟨removed, rest⟩, removes, rfl⟩ := map_eq_some_iff.mp ran
      apply (returns _).leaveParkingLot
      dsimp only [waiters, System.setCall]
      rw [lot]
      exact TaskHandlePriorityQueue.handles_remove removes
  · split at ran
    · cases ran
      exact returns _
    · obtain ⟨contained, -, more⟩ := bind_eq_some_iff.mp ran
      split at more
      · exact safe.blockCurrentTask more
      · cases more
        exact returns _

theorem Safe.acquireTurn {semaphore : Nat} {parked completed : Bool}
    (called : self.calls (self.currentTask core) = .acquire semaphore wakeupTime parked)
    (running : parked = true → (self.cores core).currentStatus = .Running)
    (ran : self.acquireTurn core semaphore wakeupTime parked ticks completed = some next) : Safe next := by
  have past (wakeupTime : Option Nat) : self.calls (self.currentTask core) ≠ .blockCurrentTask wakeupTime := by
    rw [called]
    exact nofun
  have returns (result : Option Int) : Safe (self.setCall (self.currentTask core) (.user result)) := by
    cases parked with
    | true => exact safe.leave present (running rfl) past result
    | false =>
      refine safe.goOn ?_ past rfl nofun
      rw [called]
      rfl
  unfold System.acquireTurn at ran
  dsimp only at ran
  split at ran
  · cases ran
    exact (returns _).setSemaphore semaphore le_rfl
  · split at ran
    · obtain ⟨⟨removed, rest⟩, removes, rfl⟩ := map_eq_some_iff.mp ran
      exact (returns _).setSemaphore semaphore (TaskHandlePriorityQueue.handles_remove removes)
    · split at ran
      · obtain ⟨between, blocked, more⟩ := bind_eq_some_iff.mp ran
        obtain ⟨queue, pushed, rfl⟩ := map_eq_some_iff.mp more
        apply safe.park present blocked past _ rfl
        refine (waiters_setSemaphore between semaphore _).trans ?_
        congr 1
        rw [TaskHandlePriorityQueue.handles_push pushed]
        obtain ⟨after, -, rfl⟩ := map_eq_some_iff.mp blocked
        rfl
      · cases ran
        have same : self.setCall (self.currentTask core) (.acquire semaphore wakeupTime parked) = self := by
          unfold System.setCall
          rw [← called, update_eq_self]
        rwa [same]

omit present in
theorem Safe.futexWake {address : Nat} {count : Int} {result : Option Int}
    (outside : self.calls (self.currentTask core) = .user result)
    (ran : self.futexWake core address count ticks = some next) : Safe next := by
  have returns (result : Option Int) : Safe (self.setCall (self.currentTask core) (.user result)) := by
    refine safe.goOn ?_ ?_ rfl nofun
    · rw [outside]
      rfl
    · rw [outside]
      exact nofun
  unfold System.futexWake at ran
  dsimp only at ran
  split at ran
  · cases ran
    exact returns _
  · split at ran
    · cases ran
      exact returns _
    · rename_i queue lot
      obtain ⟨⟨handles, rest⟩, popped, more⟩ := bind_eq_some_iff.mp ran
      dsimp only at more
      have split := futexWake_split lot popped
      obtain ⟨apart, await⟩ := safe.registry.handles_await split
      rw [map_wakeupAll (fun self' => (self'.leaveParkingLot address rest).setCall (self.currentTask core)
        (.user (some (min handles.length I32_MAX)))) (fun _ => rfl) (fun _ _ _ => rfl)] at more
      refine Safe.wakeupAll handles ?_ apart ?_ ?_ more
      · apply (returns _).leaveParkingLot address
        change rest.handles ≤ waiters self (.futex address)
        rw [split]
        exact Multiset.le_add_left _ _
      · exact fun handle member => (await handle member).turn rfl rfl nofun
      · rintro other (⟨place, stays⟩ | ⟨entry, -⟩) handle member ⟨same, -⟩
        · have before := Multiset.mem_of_le (waiters_leaveParkingLot self address rest place) stays
          exact safe.registry.taken_aside split member before same
        · exact safe.registry.entry_aside (split ▸ Multiset.mem_add.mpr (.inl member)) entry same

omit present in
theorem Safe.release {semaphore : Nat} (ran : self.release core semaphore ticks = some next) : Safe next := by
  obtain ⟨⟨popped, queue⟩, pops, more⟩ := bind_eq_some_iff.mp ran
  dsimp only at more
  have split := release_split pops
  have released : Safe (self.setSemaphore semaphore ⟨(self.semaphores semaphore).count + 1, queue⟩) := by
    apply safe.setSemaphore semaphore
    rw [split]
    exact Multiset.le_add_left _ _
  cases popped with
  | none => rwa [← some.inj more]
  | some handle =>
    have member : handle ∈ (some handle).toList := mem_singleton_self handle
    have awaits := (safe.registry.handles_await split).2 handle member
    refine released.customWakeup awaits ?_ more
    rintro other (⟨place, stays⟩ | ⟨entry, -⟩) ⟨same, -⟩
    · rw [waiters_setSemaphore] at stays
      exact safe.registry.taken_aside split member stays same
    · exact safe.registry.entry_aside (split ▸ Multiset.mem_add.mpr (.inl member)) entry same

theorem Safe.enterBlockedTasks {result : Option Int}
    (outside : self.calls (self.currentTask core) = .user result) (wakeupTime : Option Nat) :
    Safe (self.enterBlockedTasks core wakeupTime) := by
  have away : waitsIn (self.calls (self.currentTask core)) = none := by
    rw [outside]
    rfl
  have own : (self.getCurrentTaskHandle core).coreId = core := (safe.sane.cores core).own _
  have turn {handle : TaskHandle} (awaits : Awaits self handle) :
      Awaits (self.enterBlockedTasks core wakeupTime) handle := awaits.turn rfl rfl nofun
  refine ⟨safe.sane.turn rfl rfl nofun, { safe.registry with queued := ?_, entered := ?_, awaits := ?_ }⟩
  · intro queue handle member
    obtain ⟨resides, waits⟩ := safe.registry.queued queue handle member
    refine ⟨resides, ?_⟩
    change waitsIn (update self.calls (self.currentTask core) _ handle.id) = _
    rwa [update_of_ne (safe.registry.not_queued away member)]
  · intro id handle entry
    change update self.blockedTasks (self.currentTask core) _ id = _ at entry
    change _ ∧ Resides self handle ∧ waitsIn (update self.calls (self.currentTask core) _ id) = none
    by_cases same : id = self.currentTask core
    · rw [same, update_self] at entry
      rw [same, update_self, ← some.inj entry]
      refine ⟨rfl, ⟨own.symm ▸ present, ?_⟩, rfl⟩
      rw [own]
      exact (safe.sane.cores core).placed.current_known
    · rw [update_of_ne same] at entry ⊢
      exact safe.registry.entered id handle entry
  · rintro handle (queued | ⟨entry, past⟩)
    · exact turn (safe.registry.awaits handle (.inl queued))
    · change update self.blockedTasks (self.currentTask core) _ handle.id = _ at entry
      change ∀ wakeupTime, update self.calls (self.currentTask core) _ handle.id ≠ _ at past
      by_cases same : handle.id = self.currentTask core
      · rw [same, update_self] at past
        exact absurd rfl (past _)
      · rw [update_of_ne same] at entry past
        exact turn (safe.registry.awaits handle (.inr ⟨entry, past⟩))

theorem Safe.proceed {completed : Bool} (ran : self.proceed core ticks completed = some next) : Safe next := by
  unfold System.proceed at ran
  dsimp only at ran
  cases called : self.calls (self.currentTask core) with
  | user result =>
    rw [called] at ran
    rwa [← some.inj ran]
  | futexWait address wakeupTime handle =>
    rw [called] at ran
    dsimp only at ran
    split at ran
    next running =>
      refine safe.futexWaitTurn present running ?_ ran
      rw [called]
      exact nofun
    · rwa [← some.inj ran]
  | acquire semaphore wakeupTime parked =>
    rw [called] at ran
    dsimp only at ran
    split at ran
    next running => exact safe.acquireTurn present called running ran
    · rwa [← some.inj ran]
  | blockCurrentTask wakeupTime =>
    rw [called] at ran
    obtain ⟨between, blocked, rfl⟩ := map_eq_some_iff.mp ran
    have kept := safe.blockCurrentTask blocked
    have calls : between.calls = self.calls ∧ between.blockedTasks = self.blockedTasks := by
      obtain ⟨after, -, rfl⟩ := map_eq_some_iff.mp blocked
      exact ⟨rfl, rfl⟩
    refine ⟨kept.sane.setCall _ nofun, kept.registry.setCall ?_ rfl nofun ?_⟩
    · intro queue handle member
      apply kept.registry.not_queued _ member
      rw [calls.1, called]
      rfl
    · -- Here the handle in `BLOCKED_TASKS` becomes a registered one: its task has just blocked.
      intro handle entry
      rw [calls.2] at entry
      obtain ⟨named, ⟨there, known⟩, -⟩ := safe.registry.entered _ handle entry
      apply blocked_awaits safe.sane blocked named
      apply safe.registry.unique handle.coreId there core present handle.id known
      rw [named]
      exact (safe.sane.cores core).placed.current_known
  | wakeupTask handle =>
    rw [called] at ran
    dsimp only at ran
    rw [map_customWakeup (·.setCall (self.currentTask core) (.user none)) (fun _ => rfl) (fun _ _ _ => rfl)] at ran
    have past (wakeupTime : Option Nat) : self.calls (self.currentTask core) ≠ .blockCurrentTask wakeupTime := by
      rw [called]
      exact nofun
    have idle : Safe (self.setCall (self.currentTask core) (.user none)) := by
      refine safe.goOn ?_ past rfl nofun
      rw [called]
      rfl
    refine idle.customWakeup (safe.sane.awaits_inHand called none) ?_ ran
    -- A registered handle has no wakeup on its way, and the one in hand is on its way.
    rintro other registered ⟨sameId, sameCore⟩
    have pending : UnderWay self other.coreId other.id := .inr ⟨_, handle, called, sameCore, sameId⟩
    rcases registered with queued | ⟨entry, later⟩
    · exact (safe.registry.awaits other (.inl queued)).2 pending
    · apply (safe.registry.entry_awaits _ entry).2 pending
      intro wakeupTime entered
      by_cases same : other.id = self.currentTask core
      · exact past wakeupTime (same ▸ entered)
      · apply later wakeupTime
        change update self.calls _ _ other.id = _
        rwa [update_of_ne same]

theorem Safe.enter {operation : Operation} {result : Option Int} (timely : Timely (some self) (core, operation))
    (outside : self.calls (self.currentTask core) = .user result) (entered : self.enter core operation = some next) :
    Safe next := by
  cases operation with
  | blockCurrentTask wakeupTime => exact safe.blockCurrentTask entered
  | futexWait address expected relative ticks timeout => exact safe.futexWait present outside entered
  | futexWake address count ticks => exact safe.futexWake outside entered
  | acquire semaphore ticks time =>
    cases entered
    refine safe.goOn ?_ ?_ rfl nofun
    · rw [outside]
      rfl
    · rw [outside]
      exact nofun
  | release semaphore ticks => exact safe.release entered
  | sysBlockCurrentTask ticks timeout =>
    cases entered
    exact safe.enterBlockedTasks present outside _
  | sysWakeupTask id =>
    cases entered
    refine ⟨safe.sane.leaveBlockedTasks ?_, safe.registry.leaveBlockedTasks outside⟩
    exact fun handle entry => safe.registry.entry_awaits timely entry
  | _ =>
    cases entered
    exact safe

omit present in
theorem Safe.introduce {target : CoreId} {after : PerCoreScheduler} (there : target < self.processorCount)
    (fresh : tid ∉ self.tasks) (consistent : Consistent target after) (keeps : Keeps (self.cores target) after)
    (known : after.known = tid :: (self.cores target).known) :
    Safe ({ self with tasks := tid :: self.tasks }.setCore target after) := by
  have enlarged : Sane { self with tasks := tid :: self.tasks } := safe.sane.congr rfl rfl
  refine ⟨enlarged.setCore_sameInput target consistent keeps.wakeups
    fun task pending => keeps.listed task (safe.sane.underWay_listed pending), ?_⟩
  generalize reached : ({ self with tasks := tid :: self.tasks } : System).setCore target after = next
  have cores : (fun core => (next.cores core).known) =
      update (fun core => (self.cores core).known) target (tid :: (self.cores target).known) := by
    rw [← reached, ← known]
    exact funext (apply_update (fun _ => PerCoreScheduler.known) self.cores target after)
  have moved {handle : TaskHandle} (before : Resides self handle) : Resides next handle := by
    refine ⟨by rw [← reached]; exact before.1, ?_⟩
    rw [congrFun cores handle.coreId]
    exact mem_known_create.mpr (.inr before.2)
  constructor
  case toHomes =>
    rw [cores, ← reached]
    exact safe.registry.toHomes.create fresh
  case queued =>
    intro queue handle member
    subst reached
    obtain ⟨resides, waits⟩ := safe.registry.queued queue handle member
    exact ⟨moved resides, waits⟩
  case once =>
    subst reached
    exact safe.registry.once
  case entered =>
    intro id handle entry
    subst reached
    obtain ⟨named, resides, outside⟩ := safe.registry.entered id handle entry
    exact ⟨named, moved resides, outside⟩
  case awaits =>
    subst reached
    intro handle registered
    have awaits : Awaits { self with tasks := tid :: self.tasks } handle := safe.registry.awaits handle registered
    apply awaits.setCore target
    · rintro rfl
      exact consistent.blocked (keeps.listed handle.id (safe.still_listed registered))
    · intro _ member
      rwa [keeps.wakeups] at member

omit present in
theorem Safe.spawn {target : CoreId} (ran : self.spawn core target tid prio = some next) : Safe next := by
  unfold System.spawn at ran
  split at ran
  · rwa [← some.inj ran]
  next fresh =>
    split at ran
    next there =>
      split at ran
      next same =>
        subst same
        obtain ⟨after, spawned, rfl⟩ := map_eq_some_iff.mp ran
        obtain ⟨tidy, keeps⟩ := (safe.sane.cores target).toTidy.spawn spawned
        apply safe.introduce there fresh ⟨tidy, (safe.sane.cores target).placed.spawn spawned⟩ keeps
        exact known_spawn spawned
      · obtain ⟨after, spawned, rfl⟩ := map_eq_some_iff.mp ran
        obtain ⟨tidy, keeps⟩ := (safe.sane.cores target).toTidy.remoteSpawn spawned
        apply safe.introduce there fresh ⟨tidy, (safe.sane.cores target).placed.remoteSpawn spawned⟩ keeps
        exact known_remoteSpawn spawned
    · cases ran

theorem Safe.act {operation : Operation} (timely : Timely (some self) (core, operation))
    (ran : self.act core operation = some next) : Safe next := by
  cases operation with
  | spawn target tid prio => exact safe.spawn ran
  | checkInput ticks => exact safe.checkInput ran
  | handleWaitingTasks time polled => exact safe.handleWaitingTasks timely ran
  | scheduler => exact safe.scheduler ran
  | proceed ticks completed => exact safe.proceed present ran
  | _ =>
    rcases System.enter_cases ran with rfl | ⟨⟨result, outside⟩, entered⟩
    · exact safe
    · exact safe.enter present timely outside entered

end Sections

theorem Safe.perform (safe : Safe self) {action : CoreId × Operation} (timely : Timely (some self) action)
    (ran : Synch.perform self action = some next) : Safe next := by
  unfold Synch.perform at ran
  split at ran
  next present => exact safe.act present timely ran
  · rwa [← some.inj ran]

theorem safe_run (processorCount : Nat) (counts : Nat → Int) {actions : List (CoreId × Operation)}
    (timely : Guarded step Timely (some (System.boot processorCount counts)) actions)
    (reached : actions.foldl step (some (System.boot processorCount counts)) = some self) : Safe self :=
  timely.preserves (ifAny_attempt fun _ _ _ safe timely ran => safe.perform timely ran)
    (ifAny_some ⟨sane_boot processorCount counts, registry_boot processorCount counts⟩) self reached

/-- While each wakeup is timely, it finds its task, and every registered task is blocked. -/
theorem wakeups_find_tasks (processorCount : Nat) (counts : Nat → Int) (actions : List (CoreId × Operation))
    (timely : Guarded step Timely (some (System.boot processorCount counts)) actions) :
    ∀ past action, past ++ [action] <+: actions → ∀ self,
      past.foldl step (some (System.boot processorCount counts)) = some self →
        (∀ handle, Registered self handle → ((self.cores handle.coreId).tasks handle.id).status = .Blocked) ∧
          Sound self action := by
  intro past action early self reached
  obtain ⟨before, allowed⟩ := timely.at_prefix early
  have safe := safe_run processorCount counts before reached
  rw [reached] at allowed
  obtain ⟨apart, await⟩ := safe.registry.taken_await allowed
  exact ⟨fun handle registered => (safe.registry.awaits handle registered).1, safe.sane.sound apart await⟩

theorem timely_other {state : Option System} {operation : Operation}
    (noTimer : ∀ time polled, operation ≠ .handleWaitingTasks time polled)
    (noWakeup : ∀ id, operation ≠ .sysWakeupTask id) : Timely state (core, operation) := by
  cases state with
  | none => trivial
  | some self =>
    cases operation with
    | handleWaitingTasks time polled => exact absurd rfl (noTimer time polled)
    | sysWakeupTask id => exact absurd rfl (noWakeup id)
    | _ => trivial

theorem Safe.timely_sleepers (safe : Safe self) {waiting : TaskId} {polled : Option (Option Nat)}
    (input : (self.cores core).input.wakeupTasks = []) (calls : self.calls = update (fun _ => .user none) waiting call)
    (noWakeup : ∀ handle, call ≠ .wakeupTask handle) (entries : self.blockedTasks = fun _ => none)
    (others : ∀ node ∈ (self.cores core).blockedTasks.list, expired time node = true → node.task ≠ waiting) :
    Timely (some self) (core, .handleWaitingTasks time polled) := by
  intro node member late
  have outside : waitsIn (self.calls node.task) = none := by
    rw [calls, update_of_ne (others node member late)]
    rfl
  constructor
  · rintro (pending | ⟨waker, handle, called, -⟩)
    · rw [input] at pending
      cases pending
    · rw [calls, update_apply] at called
      split at called
      · exact noWakeup handle called
      · cases called
  · rintro handle (⟨queue, queued⟩ | ⟨entry, -⟩) - same
    · exact safe.registry.not_queued outside queued same
    · rw [entries] at entry
      cases entry

def waitAndSleep : List (CoreId × Operation) :=
  [(0, .spawn 0 10 2), (0, .spawn 0 12 2), (0, .spawn 1 11 2), (1, .checkInput 0), (1, .scheduler), (0, .scheduler),
    (0, .futexWait 100 true true 0 (some 50)), (0, .scheduler), (0, .blockCurrentTask (some 5)), (0, .scheduler)]

def wakeFirst : List (CoreId × Operation) :=
  [(0, .handleWaitingTasks 7 none), (0, .scheduler), (0, .sysBlockCurrentTask 8 none), (0, .proceed 8 false),
    (1, .futexWake 100 1 9)]

def wakeSecond : List (CoreId × Operation) := [(1, .sysWakeupTask 12), (1, .proceed 9 false)]

theorem waitAndSleep_reached :
    ∃ self, waitAndSleep.foldl step (some (System.boot 2 fun _ => 0)) = some self ∧
      (self.cores 0).input.wakeupTasks = [] ∧
      self.calls = update (fun _ => .user none) 10 (.futexWait 100 (some 50) ⟨10, 2, 0⟩) ∧
      self.blockedTasks = (fun _ => none) ∧
      ∀ node ∈ (self.cores 0).blockedTasks.list, expired 7 node = true → node.task ≠ 10 :=
  ⟨_, rfl, rfl, rfl, rfl, by decide⟩

theorem wakeFirst_timely :
    Guarded step Timely (some (System.boot 2 fun _ => 0)) (waitAndSleep ++ wakeFirst) := by
  have early : Guarded step Timely (some (System.boot 2 fun _ => 0)) waitAndSleep :=
    ⟨timely_other nofun nofun, timely_other nofun nofun, timely_other nofun nofun, timely_other nofun nofun,
      timely_other nofun nofun, timely_other nofun nofun, timely_other nofun nofun, timely_other nofun nofun,
      timely_other nofun nofun, timely_other nofun nofun, trivial⟩
  obtain ⟨self, reached, input, calls, entries, others⟩ := waitAndSleep_reached
  have safe := safe_run 2 (fun _ => 0) early reached
  refine guarded_append.mpr ⟨early, ?_⟩
  rw [reached]
  exact ⟨safe.timely_sleepers input calls nofun entries others, timely_other nofun nofun, timely_other nofun nofun,
    timely_other nofun nofun, timely_other nofun nofun, trivial⟩

theorem wakeSecond_timely {state : Option System} (called : state.map (·.calls 12) = some (.user none)) :
    Guarded step Timely state (wakeSecond ++ [(0, .checkInput 10)]) := by
  obtain ⟨self, rfl, calls⟩ := map_eq_some_iff.mp called
  refine ⟨?_, timely_other nofun nofun, timely_other nofun nofun, trivial⟩
  intro wakeupTime blocking
  exact Call.noConfusion (calls.symm.trans blocking)

theorem wakeups_find_tasks_remote :
    ∃ self, (waitAndSleep ++ wakeFirst ++ wakeSecond).foldl step (some (System.boot 2 fun _ => 0)) = some self ∧
      (self.cores 0).input.wakeupTasks = [⟨10, 2, 0⟩, ⟨12, 2, 0⟩] ∧
        AllFound 10 (self.cores 0).input.wakeupTasks (self.cores 0) := by
  have called : ((waitAndSleep ++ wakeFirst).foldl step (some (System.boot 2 fun _ => 0))).map (·.calls 12) =
      some (.user none) := by
    decide +kernel
  have input : ((waitAndSleep ++ wakeFirst ++ wakeSecond).foldl step (some (System.boot 2 fun _ => 0))).map
      (fun self => (self.processorCount, (self.cores 0).input.wakeupTasks)) = some (2, [⟨10, 2, 0⟩, ⟨12, 2, 0⟩]) := by
    decide +kernel
  have timely := guarded_append.mpr ⟨wakeFirst_timely, wakeSecond_timely called⟩
  rw [← append_assoc] at timely
  obtain ⟨self, reached, values⟩ := map_eq_some_iff.mp input
  obtain ⟨count, wakeups⟩ := Prod.mk.inj values
  obtain ⟨-, sound⟩ := wakeups_find_tasks 2 (fun _ => 0) _ timely _ (0, .checkInput 10) (prefix_refl _) self reached
  refine ⟨self, reached, wakeups, sound ?_⟩
  rw [count]
  decide

theorem stale_handle_panics :
    ∃ self, [(0, .spawn 0 1 2), (0, .spawn 0 2 2), (0, .scheduler), (0, .futexWait 100 true false 0 (some 10)),
        (0, .scheduler), (0, .handleWaitingTasks 11 none)].foldl step (some (System.boot 1 fun _ => 0)) = some self ∧
      perform self (0, .futexWake 100 1 11) = none ∧ ¬ Sound self (0, .futexWake 100 1 11) := by
  refine ⟨_, rfl, rfl, ?_⟩
  intro sound
  obtain ⟨finds, -⟩ := sound (by decide)
  exact absurd (finds rfl).listed (by decide)

end HermitLocal.Scheduler.WakeupSafety
