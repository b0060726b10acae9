import HermitLocal.Scheduler.PerCore

/-! Where the tasks of a core are. Each operation moves single tasks from one place to another, so that what
it does is said by how often a task then occurs in each place. -/

namespace HermitLocal.Scheduler.Placement
open Lib.Simulation Scheduler.TaskQueues Scheduler.Blocked Function List Option
open Scheduler.PerCore Scheduler.PerCore.PerCoreScheduler

structure Occupancy where
  current : Nat
  ready : Nat
  blocked : Nat
  finished : Nat
  input : Nat
deriving DecidableEq, Repr

def occupancy (self : PerCoreScheduler) (task : TaskId) : Occupancy where
  current := if self.currentTask = task then 1 else 0
  ready := self.readyQueue.entries.count task
  blocked := (self.blockedTasks.list.map BlockedTask.task).count task
  finished := self.finishedTasks.count task
  input := (self.input.newTasks.map NewTask.tid).count task

inductive Place : Occupancy → TaskStatus → Prop
  | running : Place ⟨1, 0, 0, 0, 0⟩ .Running
  | blocking : Place ⟨1, 0, 1, 0, 0⟩ .Blocked
  | woken : Place ⟨1, 1, 0, 0, 0⟩ .Ready
  | ready : Place ⟨0, 1, 0, 0, 0⟩ .Ready
  | blocked : Place ⟨0, 0, 1, 0, 0⟩ .Blocked
  | finished : Place ⟨0, 0, 0, 1, 0⟩ .Invalid
  | input (status : TaskStatus) : Place ⟨0, 0, 0, 0, 1⟩ status

structure Arranged (core : PerCoreScheduler) : Prop where
  placed : ∀ task ∈ core.known, task ≠ core.idleTask → task ∉ core.dropped →
    Place (occupancy core task) (core.tasks task).status
  dropped : ∀ task ∈ core.dropped, occupancy core task = ⟨0, 0, 0, 0, 0⟩
  idle : (core.tasks core.idleTask).status = .Idle ∧
    occupancy core core.idleTask = ⟨if core.currentTask = core.idleTask then 1 else 0, 0, 0, 0, 0⟩

inductive CoreOperation where
  | spawn (tid : TaskId) (prio : Priority)
  | remoteSpawn (tid : TaskId) (prio : Priority)
  | remoteWakeup (task : TaskHandle)
  | checkInput (ticks : Nat)
  | blockCurrentTask (wakeupTime : Option Nat)
  | handleWaitingTasks (time : Nat) (polled : Option (Option Nat))
  | customWakeup (ticks : Nat) (task : TaskHandle)
  | cleanupTasks
  | scheduler
  | exit (ticks : Nat) (waiting : List TaskHandle)

def CoreOperation.perform (self : PerCoreScheduler) : CoreOperation → Option PerCoreScheduler
  | .spawn tid prio => self.spawn tid prio
  | .remoteSpawn tid prio => self.remoteSpawn tid prio
  | .remoteWakeup task => some (self.remoteWakeup task)
  | .checkInput ticks => self.checkInput ticks
  | .blockCurrentTask wakeupTime => self.blockCurrentTask wakeupTime
  | .handleWaitingTasks time polled => self.handleWaitingTasks time polled
  | .customWakeup ticks task => self.customWakeup ticks task
  | .cleanupTasks => some self.cleanupTasks
  | .scheduler => self.scheduler.map Prod.snd
  | .exit ticks waiting => self.exit ticks waiting

def CoreOperation.step : Option PerCoreScheduler → CoreOperation → Option PerCoreScheduler := attempt perform

def ExitsRunning : Option PerCoreScheduler → CoreOperation → Prop
  | some self, .exit _ _ => self.currentStatus = .Running
  | _, _ => True

/-! The invariant covers all identifiers, and the states inside an exit. -/

inductive Kind where
  | absent | idle | ordinary
deriving DecidableEq

def kind (self : PerCoreScheduler) (task : TaskId) : Kind :=
  if task = self.idleTask then .idle else if task ∈ self.known ∧ task ∉ self.dropped then .ordinary else .absent

inductive Fits (exiting : Bool) : Kind → Occupancy → TaskStatus → Prop
  | absent (status : TaskStatus) : Fits exiting .absent ⟨0, 0, 0, 0, 0⟩ status
  | idle (current : Nat) : Fits exiting .idle ⟨current, 0, 0, 0, 0⟩ .Idle
  | placed {occupancy : Occupancy} {status : TaskStatus} (place : Place occupancy status) :
      Fits exiting .ordinary occupancy status
  | exiting (allowed : exiting = true) : Fits exiting .ordinary ⟨1, 0, 0, 0, 0⟩ .Finished

structure Invariant (exiting : Bool) (core : PerCoreScheduler) : Prop where
  fits : ∀ task, Fits exiting (kind core task) (occupancy core task) (core.tasks task).status
  idleKnown : core.idleTask ∈ core.known
  idleKept : core.idleTask ∉ core.dropped
  droppedKnown : ∀ task ∈ core.dropped, task ∈ core.known

/-! How a task can move. -/

variable {exiting : Bool} {status : TaskStatus} {self next : PerCoreScheduler} {ticks : Nat}
  {handle : TaskHandle} {task tid : TaskId} {newTask : NewTask} {readyQueue : PriorityTaskQueue}
  {switched : Option TaskId}

section
variable {kind : Kind} {occupancy : Occupancy}

theorem Fits.wake (fits : Fits exiting kind occupancy .Blocked) (listed : 0 < occupancy.blocked) :
    Fits exiting kind { occupancy with ready := occupancy.ready + 1, blocked := occupancy.blocked - 1 } .Ready := by
  cases fits with
  | absent => cases listed
  | placed place =>
    apply Fits.placed
    cases place with
    | blocking => exact Place.woken
    | blocked => exact Place.ready
    | input => cases listed

theorem Fits.block (fits : Fits exiting kind occupancy .Running) (current : 0 < occupancy.current) :
    Fits exiting kind { occupancy with blocked := occupancy.blocked + 1 } .Blocked := by
  cases fits with
  | absent => cases current
  | placed place =>
    apply Fits.placed
    cases place with
    | running => exact Place.blocking
    | input => cases current

theorem Fits.finish (fits : Fits exiting kind occupancy .Running)
    (current : 0 < occupancy.current) : Fits true kind occupancy .Finished := by
  cases fits with
  | absent => cases current
  | placed place =>
    cases place with
    | running => exact Fits.exiting rfl
    | input => cases current

def Occupancy.departed (occupancy : Occupancy) (status : TaskStatus) : Occupancy :=
  { occupancy with
    current := 0
    ready := occupancy.ready + if status = .Running then 1 else 0
    finished := occupancy.finished + if status = .Finished then 1 else 0 }

variable (fits : Fits exiting kind occupancy status)

include fits

theorem Fits.depart (current : 0 < occupancy.current) :
    Fits false kind (occupancy.departed status) (departed status) := by
  cases fits with
  | absent => cases current
  | idle => exact Fits.idle 0
  | exiting => exact Fits.placed Place.finished
  | placed place =>
    apply Fits.placed
    cases place with
    | running | woken => exact Place.ready
    | blocking => exact Place.blocked
    | _ => cases current

theorem Fits.start (queued : 0 < occupancy.ready) :
    status = .Ready ∧ Fits false kind { occupancy with current := 1, ready := occupancy.ready - 1 } .Running := by
  cases fits with
  | placed place =>
    cases place with
    | woken | ready => exact ⟨rfl, Fits.placed Place.running⟩
    | _ => cases queued
  | _ => cases queued

theorem Fits.settle (stays : 0 < occupancy.current → status ≠ .Finished) :
    Fits false kind occupancy status := by
  cases fits with
  | absent => exact Fits.absent _
  | idle => exact Fits.idle _
  | exiting => exact absurd rfl (stays (by decide))
  | placed place => exact Fits.placed place

theorem Fits.relax : Fits true kind occupancy status := by
  cases fits with
  | absent => exact Fits.absent _
  | idle => exact Fits.idle _
  | exiting => exact Fits.exiting rfl
  | placed place => exact Fits.placed place

theorem Fits.blocked_le : occupancy.blocked ≤ 1 := by
  cases fits with
  | placed place => cases place <;> decide
  | _ => exact Nat.zero_le 1

theorem Fits.input_cases (entered : 0 < occupancy.input) : kind = .ordinary ∧ occupancy = ⟨0, 0, 0, 0, 1⟩ := by
  cases fits with
  | placed place =>
    cases place with
    | input => exact ⟨rfl, rfl⟩
    | _ => cases entered
  | _ => cases entered

theorem Fits.finished_cases (counted : 0 < occupancy.finished) :
    kind = .ordinary ∧ occupancy = ⟨0, 0, 0, 1, 0⟩ := by
  cases fits with
  | placed place =>
    cases place with
    | finished => exact ⟨rfl, rfl⟩
    | _ => cases counted
  | _ => cases counted

end

/-! Operations on the blocked list and the ready queue. -/

section
variable (invariant : Invariant exiting self)

include invariant

theorem Invariant.relax : Invariant true self :=
  { invariant with fits := fun task => (invariant.fits task).relax }

theorem Invariant.fits_in {after : Bool} (known : next.known = self.known)
    (dropped : next.dropped = self.dropped) (idle : next.idleTask = self.idleTask)
    (fits : ∀ task, Fits after (kind self task) (occupancy next task) (next.tasks task).status) :
    Invariant after next := by
  have kinds (task : TaskId) : kind next task = kind self task := by
    unfold kind
    rw [known, dropped, idle]
  refine ⟨?_, ?_, ?_, ?_⟩
  · intro task
    rw [kinds task]
    exact fits task
  · rw [idle, known]
    exact invariant.idleKnown
  · rw [idle, dropped]
    exact invariant.idleKept
  · rw [dropped, known]
    exact invariant.droppedKnown

theorem Invariant.wakeup (woken : self.wakeup ticks handle = some next) : Invariant exiting next := by
  obtain ⟨blocking, readyQueue, rfl, blocked, tasks, entries, counts⟩ := wakeup_cases woken
  refine invariant.fits_in rfl rfl rfl ?_
  intro task
  have fits := invariant.fits task
  have count := counts task
  by_cases same : handle.id = task
  · subst same
    rw [if_pos rfl] at count
    rw [blocked] at fits
    have listed : 0 < (occupancy self handle.id).blocked := by
      change 0 < (self.blockedTasks.list.map BlockedTask.task).count handle.id
      omega
    have moved : occupancy { self with toBlocking := blocking, readyQueue := readyQueue } handle.id =
        { occupancy self handle.id with
          ready := (occupancy self handle.id).ready + 1
          blocked := (occupancy self handle.id).blocked - 1 } := by
      simp only [occupancy, entries, Multiset.count_cons_self, Occupancy.mk.injEq, true_and, and_true]
      omega
    rw [moved]
    rw [tasks, setStatus_status_self]
    exact fits.wake listed
  · rw [if_neg same, Nat.add_zero] at count
    have kept : occupancy { self with toBlocking := blocking, readyQueue := readyQueue } task = occupancy self task := by
      simp only [occupancy, entries, Multiset.count_cons_of_ne (Ne.symm same), count]
    rw [kept]
    rw [tasks, setStatus_other (Ne.symm same)]
    exact fits

theorem Invariant.customWakeup (woken : self.customWakeup ticks handle = some next) :
    Invariant exiting next := by
  unfold PerCoreScheduler.customWakeup at woken
  split at woken
  · exact invariant.wakeup woken
  · rwa [← some.inj woken]

omit invariant in
theorem Invariant.wakeupAll (waiting : List TaskHandle) (invariant : Invariant exiting self)
    (woken : wakeupAll ticks waiting self = some next) : Invariant exiting next :=
  wakeupAll_keeps (Invariant exiting) (fun _ _ _ before first => before.customWakeup first) waiting invariant woken

theorem Invariant.setWakeups (wakeups : List TaskHandle) :
    Invariant exiting { self with input.wakeupTasks := wakeups } :=
  { invariant with }

omit invariant in
theorem Invariant.drainWakeups (handles : List TaskHandle) (invariant : Invariant exiting self)
    (drained : drainWakeups ticks handles self = some next) : Invariant exiting next :=
  drainWakeups_keeps (fun _ => Invariant exiting) (fun _ rest _ _ before first => (before.setWakeups rest).wakeup first)
    handles invariant drained

omit invariant in
theorem current_pos (current : self.currentTask = task) : 0 < (occupancy self task).current := by
  change 0 < if self.currentTask = task then 1 else 0
  rw [if_pos current]
  exact Nat.one_pos

theorem Invariant.blockCurrentTask {wakeupTime : Option Nat}
    (blocked : self.blockCurrentTask wakeupTime = some next) : Invariant exiting next := by
  obtain ⟨blocking, rfl, running, tasks, counts⟩ := blockCurrentTask_cases blocked
  refine invariant.fits_in rfl rfl rfl ?_
  intro task
  have fits := invariant.fits task
  have count := counts task
  by_cases same : self.currentTask = task
  · rw [if_pos same] at count
    have moved : occupancy { self with toBlocking := blocking } task =
        { occupancy self task with blocked := (occupancy self task).blocked + 1 } := by
      simp only [occupancy, count]
    rw [moved, tasks, same, setStatus_status_self]
    rw [← same, show (self.tasks self.currentTask).status = .Running from running, same] at fits
    exact fits.block (current_pos same)
  · rw [if_neg same, Nat.add_zero] at count
    have kept : occupancy { self with toBlocking := blocking } task = occupancy self task := by
      simp only [occupancy, count]
    rw [kept, tasks, setStatus_other (Ne.symm same)]
    exact fits

theorem Invariant.handleWaitingTasks {time : Nat} {polled : Option (Option Nat)}
    (handled : self.handleWaitingTasks time polled = some next) : Invariant exiting next := by
  obtain ⟨⟨blocking, readyQueue⟩, waited, rfl⟩ := map_eq_some_iff.mp handled
  obtain ⟨pushed, list, -⟩ := handleWaitingTasks_cases waited
  obtain ⟨entries, inside, outside⟩ := markAndPush_cases _ pushed
  refine invariant.fits_in rfl rfl rfl ?_
  intro task
  have fits := invariant.fits task
  have split := count_filter_split (expired time) self.blockedTasks.list task
  have single := fits.blocked_le
  change (self.blockedTasks.list.map BlockedTask.task).count task ≤ 1 at single
  by_cases member : task ∈ (self.blockedTasks.list.filter (expired time)).map BlockedTask.task
  · obtain ⟨blocked, ready⟩ := inside task member
    have positive := count_pos_iff.mpr member
    have moved : occupancy { self with toBlocking := blocking, readyQueue := readyQueue } task =
        { occupancy self task with
          ready := (occupancy self task).ready + 1
          blocked := (occupancy self task).blocked - 1 } := by
      simp only [occupancy, entries, Multiset.count_add, Multiset.coe_count, list, Occupancy.mk.injEq, true_and, and_true]
      omega
    have listed : 0 < (occupancy self task).blocked := by
      change 0 < (self.blockedTasks.list.map BlockedTask.task).count task
      omega
    rw [moved, ready]
    rw [blocked] at fits
    exact fits.wake listed
  · have none := count_eq_zero.mpr member
    have kept : occupancy { self with toBlocking := blocking, readyQueue := readyQueue } task = occupancy self task := by
      simp only [occupancy, entries, Multiset.count_add, Multiset.coe_count, list, Occupancy.mk.injEq, true_and, and_true]
      omega
    rw [kept, outside task member]
    exact fits

/-! New tasks. -/

theorem Invariant.absent (fresh : tid ∉ self.known) :
    occupancy self tid = ⟨0, 0, 0, 0, 0⟩ ∧ tid ≠ self.idleTask ∧ tid ∉ self.dropped := by
  have notIdle : tid ≠ self.idleTask := fun same => fresh (same ▸ invariant.idleKnown)
  have notDropped : tid ∉ self.dropped := fun member => fresh (invariant.droppedKnown tid member)
  have fits := invariant.fits tid
  rw [kind, if_neg notIdle, if_neg fun both => fresh both.1] at fits
  refine ⟨?_, notIdle, notDropped⟩
  generalize occupancy self tid = places at fits
  cases fits with
  | absent => rfl

theorem Invariant.current_known : self.currentTask ∈ self.known := by
  have current : 0 < (occupancy self self.currentTask).current := current_pos rfl
  by_contra unknown
  rw [(invariant.absent unknown).1] at current
  cases current

theorem Invariant.introduce (fresh : tid ∉ self.known) (known : next.known = tid :: self.known)
    (dropped : next.dropped = self.dropped) (idle : next.idleTask = self.idleTask)
    (placed : Place (occupancy next tid) (next.tasks tid).status)
    (others : ∀ task, task ≠ tid →
      occupancy next task = occupancy self task ∧ (next.tasks task).status = (self.tasks task).status) :
    Invariant exiting next := by
  obtain ⟨-, notIdle, notDropped⟩ := invariant.absent fresh
  refine ⟨?_, ?_, ?_, ?_⟩
  · intro task
    unfold kind
    rw [known, dropped, idle]
    by_cases same : task = tid
    · rw [same, if_neg notIdle, if_pos ⟨mem_cons_self, notDropped⟩]
      exact Fits.placed placed
    · have fits := invariant.fits task
      obtain ⟨places, status⟩ := others task same
      have member : task ∈ tid :: self.known ↔ task ∈ self.known := mem_cons.trans (or_iff_right same)
      rw [places, status]
      simp only [member]
      exact fits
  · rw [known, idle]
    exact mem_cons_of_mem _ invariant.idleKnown
  · rw [dropped, idle]
    exact invariant.idleKept
  · rw [known, dropped]
    exact fun task member => mem_cons_of_mem _ (invariant.droppedKnown task member)

theorem Invariant.spawn {prio : Priority} (spawned : self.spawn tid prio = some next) : Invariant exiting next := by
  unfold PerCoreScheduler.spawn at spawned
  split at spawned
  · cases spawned
  · rename_i fresh
    obtain ⟨tasks, readyQueue, rfl, rfl, entries⟩ := enroll_cases spawned
    have before := (invariant.absent fresh).1
    simp only [occupancy, Occupancy.mk.injEq] at before
    refine invariant.introduce fresh rfl rfl rfl ?_ ?_
    · simp only [occupancy, entries, before, Multiset.count_cons_self, update_self]
      exact Place.ready
    · intro task apart
      simp only [occupancy, entries, Multiset.count_cons_of_ne apart, update_of_ne apart, and_self]

theorem Invariant.remoteSpawn {prio : Priority} (spawned : self.remoteSpawn tid prio = some next) : Invariant exiting next := by
  unfold PerCoreScheduler.remoteSpawn at spawned
  split at spawned
  · cases spawned
  · rename_i fresh
    cases spawned
    have before := (invariant.absent fresh).1
    simp only [occupancy, Occupancy.mk.injEq] at before
    refine invariant.introduce fresh rfl rfl rfl ?_ ?_
    · simp only [occupancy, before, map_append, map_cons, map_nil, count_append,
        count_singleton_self, Nat.zero_add]
      exact Place.input _
    · intro task apart
      simp only [occupancy, map_append, map_cons, map_nil, count_append,
        count_singleton, beq_iff_eq, Ne.symm apart, if_false, Nat.add_zero, and_self]

theorem Invariant.enrollFirst {rest : List NewTask} (input : self.input.newTasks = newTask :: rest)
    (enrolled : enroll { self with input.newTasks := rest } newTask = some next) : Invariant exiting next := by
  obtain ⟨tasks, readyQueue, rfl, rfl, entries⟩ := enroll_cases enrolled
  refine invariant.fits_in rfl rfl rfl ?_
  intro task
  have fits := invariant.fits task
  by_cases same : newTask.tid = task
  · have entered : 0 < (occupancy self task).input := by
      change 0 < (self.input.newTasks.map NewTask.tid).count task
      rw [input, map_cons, same, count_cons_self]
      exact Nat.succ_pos _
    obtain ⟨ordinary, places⟩ := fits.input_cases entered
    simp only [occupancy, input, map_cons, same, count_cons_self, Occupancy.mk.injEq] at places
    obtain ⟨current, ready, blocked, finished, once⟩ := places
    rw [ordinary]
    apply Fits.placed
    simp only [occupancy, entries, same, Multiset.count_cons_self, update_self, current, ready, blocked, finished,
      Nat.add_eq_right.mp once]
    exact Place.ready
  · have kept : occupancy { self with
        tasks := update self.tasks newTask.tid ⟨.Ready, newTask.prio, newTask.coreId⟩
        readyQueue := readyQueue
        input.newTasks := rest } task = occupancy self task := by
      simp only [occupancy, entries, Multiset.count_cons_of_ne (Ne.symm same), input, map_cons,
        count_cons, beq_iff_eq, same, if_false, Nat.add_zero]
    refine Eq.subst (motive := fun places => Fits exiting _ places _) kept.symm ?_
    dsimp only
    rw [update_of_ne (Ne.symm same)]
    exact fits

omit invariant in
theorem enroll_newTasks (enrolled : self.enroll newTask = some next) : next.input = self.input := by
  obtain ⟨tasks, readyQueue, rfl, -⟩ := enroll_cases enrolled
  rfl

omit invariant in
theorem Invariant.drainNewTasks (newTasks : List NewTask) (invariant : Invariant exiting self)
    (input : self.input.newTasks = newTasks) (drained : drainNewTasks newTasks self = some next) :
    Invariant exiting next := by
  suffices Invariant exiting next ∧ next.input.newTasks = [] from this.1
  apply drainNewTasks_keeps (fun left self => Invariant exiting self ∧ self.input.newTasks = left) _ newTasks
    ⟨invariant, input⟩ drained
  rintro newTask rest self next ⟨before, sameInput⟩ enrolled
  apply And.intro (before.enrollFirst sameInput enrolled)
  rw [enroll_newTasks enrolled]

theorem Invariant.checkInput (checked : self.checkInput ticks = some next) : Invariant exiting next := by
  obtain ⟨between, woken, admitted⟩ := bind_eq_some_iff.mp checked
  exact (invariant.drainWakeups _ woken).drainNewTasks _ rfl admitted

/-! Finished tasks and the switch to another task. -/

omit invariant in
theorem kind_ordinary (ordinary : kind self task = .ordinary) :
    task ≠ self.idleTask ∧ task ∈ self.known ∧ task ∉ self.dropped := by
  unfold kind at ordinary
  split at ordinary
  · cases ordinary
  · split at ordinary
    · exact ⟨‹_›, ‹_›⟩
    · cases ordinary

theorem Invariant.finished_placed (finished : task ∈ self.finishedTasks) :
    kind self task = .ordinary ∧ occupancy self task = ⟨0, 0, 0, 1, 0⟩ :=
  (invariant.fits task).finished_cases (count_pos_iff.mpr finished)

omit invariant in
theorem occupancy_cleanupTasks (self : PerCoreScheduler) (task : TaskId) :
    occupancy self.cleanupTasks task = { occupancy self task with finished := 0 } := rfl

theorem Invariant.cleanupTasks : Invariant exiting self.cleanupTasks := by
  refine ⟨?_, invariant.idleKnown, ?_, ?_⟩
  · intro task
    rw [occupancy_cleanupTasks]
    by_cases finished : task ∈ self.finishedTasks
    · obtain ⟨ordinary, places⟩ := invariant.finished_placed finished
      have absent : kind self.cleanupTasks task = .absent := by
        change (if task = self.idleTask then _ else if task ∈ self.known ∧ task ∉ self.dropped ++ self.finishedTasks then _
          else _) = _
        rw [if_neg (kind_ordinary ordinary).1, if_neg fun both => both.2 (mem_append_right _ finished)]
      rw [absent, places]
      exact Fits.absent _
    · have same : kind self.cleanupTasks task = kind self task := by
        have member : task ∈ self.dropped ++ self.finishedTasks ↔ task ∈ self.dropped :=
          mem_append.trans (or_iff_left finished)
        simp only [kind, PerCoreScheduler.cleanupTasks, member]
      have none : (occupancy self task).finished = 0 := count_eq_zero.mpr finished
      rw [same, ← none]
      exact invariant.fits task
  · intro member
    rcases mem_append.mp member with before | finished
    · exact invariant.idleKept before
    · exact (kind_ordinary (invariant.finished_placed finished).1).1 rfl
  · intro task member
    rcases mem_append.mp member with before | finished
    · exact invariant.droppedKnown task before
    · exact (kind_ordinary (invariant.finished_placed finished).1).2.1

theorem Invariant.idle_status : (self.tasks self.idleTask).status = .Idle ∧
      ∃ current, occupancy self self.idleTask = ⟨current, 0, 0, 0, 0⟩ := by
  have fits := invariant.fits self.idleTask
  rw [kind, if_pos rfl] at fits
  generalize occupancy self self.idleTask = places at fits
  generalize (self.tasks self.idleTask).status = status at fits
  cases fits with
  | idle current => exact ⟨rfl, current, rfl⟩

omit invariant in
theorem occupancy_switchedTo (other : TaskId) : occupancy (switchedTo self task readyQueue) other =
    { occupancy self other with
      current := if task = other then 1 else 0
      ready := readyQueue.entries.count other
      finished := (occupancy self other).finished +
        if self.currentTask = other ∧ self.currentStatus = .Finished then 1 else 0 } := by
  simp only [occupancy, switchedTo, count_append]
  by_cases finished : self.currentStatus = .Finished
  · simp only [finished, if_true, and_true, count_singleton, beq_iff_eq]
    rfl
  · simp only [finished, if_false, and_false, count_nil]
    rfl

omit invariant in
theorem switchedTasks_other (apart : tid ≠ task) :
    switchedTasks self task tid = setStatus self.tasks self.currentTask (departed self.currentStatus) tid := by
  unfold switchedTasks
  split
  · rw [setStatus_other apart]
  · rfl

theorem fits_departed (other : self.currentTask ≠ task)
    (count : readyQueue.entries.count self.currentTask =
      self.readyQueue.entries.count self.currentTask + if self.currentStatus = .Running then 1 else 0) :
    Fits false (kind self self.currentTask) (occupancy (switchedTo self task readyQueue) self.currentTask)
      ((switchedTo self task readyQueue).tasks self.currentTask).status := by
  have status : ((switchedTo self task readyQueue).tasks self.currentTask).status = departed self.currentStatus := by
    change (switchedTasks self task self.currentTask).status = _
    rw [switchedTasks_other other, setStatus_status_self]
  rw [occupancy_switchedTo, status, if_neg (Ne.symm other), count]
  simp only [true_and]
  exact (invariant.fits self.currentTask).depart (current_pos rfl)

theorem fits_settled (stays : self.currentTask = task → (self.tasks task).status ≠ .Finished) :
    Fits false (kind self task) (occupancy self task) (self.tasks task).status := by
  apply (invariant.fits task).settle
  intro current
  change 0 < (if self.currentTask = task then 1 else 0) at current
  split at current
  · exact stays ‹_›
  · cases current

theorem fits_aside {other : TaskId} (notCurrent : self.currentTask ≠ other) (notNew : task ≠ other)
    (count : readyQueue.entries.count other = self.readyQueue.entries.count other) :
    Fits false (kind self other) (occupancy (switchedTo self task readyQueue) other)
      ((switchedTo self task readyQueue).tasks other).status := by
  have status : (switchedTo self task readyQueue).tasks other = self.tasks other :=
    (switchedTasks_other (Ne.symm notNew)).trans (setStatus_other (Ne.symm notCurrent))
  have away : (occupancy self other).current = 0 := if_neg notCurrent
  rw [occupancy_switchedTo, status, if_neg notNew, count, if_neg fun both => notCurrent both.1, Nat.add_zero,
    ← away]
  exact fits_settled invariant fun current => absurd current notCurrent

theorem fits_started {rest : Multiset TaskId} (taken : self.readyQueue.entries = {task} + rest)
    (entries : readyQueue.entries = (if self.currentStatus = .Running then {self.currentTask} else 0) + rest) :
    Fits false (kind self task) (occupancy (switchedTo self task readyQueue) task)
      ((switchedTo self task readyQueue).tasks task).status := by
  have before : self.readyQueue.entries.count task = rest.count task + 1 := by
    rw [taken, Multiset.count_add, Multiset.count_singleton_self, Nat.add_comm]
  have queued : 0 < (occupancy self task).ready := by
    change 0 < self.readyQueue.entries.count task
    omega
  obtain ⟨ready, fits⟩ := (invariant.fits task).start queued
  -- The current task is not taken while it runs or after it has finished: its status would be ready.
  have notOwn (status : TaskStatus) (stands : self.currentStatus = status) (other : status ≠ .Ready) :
      self.currentTask ≠ task := by
    intro same
    rw [← same] at ready
    exact other (stands.symm.trans ready)
  have after : readyQueue.entries.count task = rest.count task := by
    rw [entries, Multiset.count_add]
    split
    · rename_i running
      rw [Multiset.count_singleton, if_neg (Ne.symm (notOwn _ running (by decide))), Nat.zero_add]
    · rw [Multiset.count_zero, Nat.zero_add]
  have places : occupancy (switchedTo self task readyQueue) task =
      { occupancy self task with current := 1, ready := (occupancy self task).ready - 1 } := by
    rw [occupancy_switchedTo, if_pos rfl, after, if_neg fun both => notOwn _ both.2 (by decide) both.1]
    simp only [occupancy, before, Nat.add_sub_cancel, Nat.add_zero]
  have status : ((switchedTo self task readyQueue).tasks task).status = .Running := by
    change (switchedTasks self task task).status = _
    unfold switchedTasks
    rw [if_pos, setStatus_status_self]
    by_cases same : self.currentTask = task
    · have own : self.currentStatus = .Ready := by
        unfold currentStatus
        rw [same, ready]
      rw [same, setStatus_status_self, own]
      decide
    · rw [setStatus_other (Ne.symm same), ready]
      decide
  rw [places, status]
  exact fits

theorem fits_idle (other : self.currentTask ≠ self.idleTask)
    (entries : readyQueue.entries = self.readyQueue.entries) :
    Fits false (kind self self.idleTask) (occupancy (switchedTo self self.idleTask readyQueue) self.idleTask)
      ((switchedTo self self.idleTask readyQueue).tasks self.idleTask).status := by
  obtain ⟨idle, current, before⟩ := invariant.idle_status
  have places : occupancy (switchedTo self self.idleTask readyQueue) self.idleTask =
      { occupancy self self.idleTask with current := 1 } := by
    rw [occupancy_switchedTo, if_pos rfl, entries, if_neg fun both => other both.1]
    rfl
  have status : ((switchedTo self self.idleTask readyQueue).tasks self.idleTask).status = .Idle := by
    change (switchedTasks self self.idleTask self.idleTask).status = _
    unfold switchedTasks
    rw [setStatus_other (Ne.symm other), idle, if_neg (not_not_intro rfl), setStatus_other (Ne.symm other), idle]
  rw [places, status, before, kind, if_pos rfl]
  exact Fits.idle 1

theorem Invariant.switch (called : self.switch = some (switched, next)) : Invariant false next := by
  rcases switch_cases called with ⟨readyQueue, rfl, entries, -, stays⟩ | ⟨task, readyQueue, rfl, -, how⟩
  · refine invariant.fits_in rfl rfl rfl ?_
    intro other
    have kept : occupancy { self with readyQueue := readyQueue } other = occupancy self other := by
      simp only [occupancy, entries]
    rw [kept]
    apply fits_settled invariant
    rintro rfl
    change self.currentStatus ≠ .Finished
    rcases stays with running | idle
    · rw [running]
      decide
    · rw [idle]
      decide
  · refine invariant.fits_in rfl rfl rfl ?_
    intro other
    rcases how with ⟨rest, taken, entries⟩ | ⟨rfl, notRunning, notIdle, entries⟩
    · by_cases new : task = other
      · rw [← new]
        exact fits_started invariant taken entries
      · have before : self.readyQueue.entries.count other = rest.count other := by
          rw [taken, Multiset.count_add, Multiset.count_singleton, if_neg (Ne.symm new), Nat.zero_add]
        by_cases own : self.currentTask = other
        · rw [← own]
          apply fits_departed invariant (fun same => new (same.symm.trans own))
          rw [entries, own, before, Multiset.count_add, Nat.add_comm]
          split
          · rw [Multiset.count_singleton_self]
          · rw [Multiset.count_zero]
        · apply fits_aside invariant own new
          rw [entries, before, Multiset.count_add]
          split
          · rw [Multiset.count_singleton, if_neg (Ne.symm own), Nat.zero_add]
          · rw [Multiset.count_zero, Nat.zero_add]
    · obtain ⟨idleStatus, current, idlePlaces⟩ := invariant.idle_status
      have own : self.currentTask ≠ self.idleTask := by
        intro same
        apply notIdle
        rw [currentStatus, same, idleStatus]
      by_cases new : self.idleTask = other
      · rw [← new]
        exact fits_idle invariant own entries
      · by_cases same : self.currentTask = other
        · rw [← same]
          apply fits_departed invariant own
          rw [entries, if_neg notRunning, Nat.add_zero]
        · apply fits_aside invariant same new
          rw [entries]

theorem Invariant.scheduler (called : self.scheduler = some (switched, next)) : Invariant false next :=
  invariant.cleanupTasks.switch called

theorem Invariant.finish (running : self.currentStatus = .Running) :
    Invariant true { self with tasks := setStatus self.tasks self.currentTask .Finished } := by
  refine invariant.fits_in rfl rfl rfl ?_
  intro task
  have fits := invariant.fits task
  change Fits true _ (occupancy self task) (setStatus self.tasks self.currentTask .Finished task).status
  by_cases same : self.currentTask = task
  · rw [← same] at fits ⊢
    rw [show (self.tasks self.currentTask).status = .Running from running] at fits
    rw [setStatus_status_self]
    exact fits.finish (current_pos rfl)
  · rw [setStatus_other (Ne.symm same)]
    exact fits.relax

omit invariant in
theorem Invariant.exit (invariant : Invariant false self) (running : self.currentStatus = .Running)
    {waiting : List TaskHandle} (exited : self.exit ticks waiting = some next) : Invariant false next := by
  obtain ⟨between, switched, woken, called⟩ := exit_cases exited
  exact ((invariant.finish running).wakeupAll waiting woken).scheduler called

omit invariant in
theorem Invariant.perform (invariant : Invariant false self) {operation : CoreOperation}
    (allowed : ExitsRunning (some self) operation) (ran : CoreOperation.perform self operation = some next) :
    Invariant false next := by
  cases operation with
  | spawn tid prio => exact invariant.spawn ran
  | remoteSpawn tid prio => exact invariant.remoteSpawn ran
  | remoteWakeup task =>
    cases ran
    exact invariant.setWakeups _
  | checkInput ticks => exact invariant.checkInput ran
  | blockCurrentTask wakeupTime => exact invariant.blockCurrentTask ran
  | handleWaitingTasks time polled => exact invariant.handleWaitingTasks ran
  | customWakeup ticks task => exact invariant.customWakeup ran
  | cleanupTasks =>
    cases ran
    exact invariant.cleanupTasks
  | scheduler =>
    obtain ⟨⟨switched, reached⟩, called, rfl⟩ := map_eq_some_iff.mp ran
    exact invariant.scheduler called
  | exit ticks waiting => exact invariant.exit allowed ran

/-! A finished task stays finished. -/

def Gone (self : PerCoreScheduler) (task : TaskId) : Prop := task ∈ self.finishedTasks ∨ task ∈ self.dropped

theorem Invariant.dropped_absent (dropped : task ∈ self.dropped) : occupancy self task = ⟨0, 0, 0, 0, 0⟩ := by
  have fits := invariant.fits task
  have notIdle : task ≠ self.idleTask := fun same => invariant.idleKept (same ▸ dropped)
  rw [kind, if_neg notIdle, if_neg fun both => both.2 dropped] at fits
  generalize occupancy self task = places at fits
  cases fits with
  | absent => rfl

theorem Invariant.gone_not_current (gone : Gone self task) : self.currentTask ≠ task := by
  have nowhere : (occupancy self task).current = 0 := by
    rcases gone with finished | dropped
    · rw [(invariant.finished_placed finished).2]
    · rw [invariant.dropped_absent dropped]
  intro same
  exact absurd (current_pos same) (by rw [nowhere]; exact Nat.lt_irrefl 0)

end

section
variable (gone : Gone self task)

include gone

theorem Gone.wakeup (woken : self.wakeup ticks handle = some next) : Gone next task := by
  obtain ⟨blocking, readyQueue, rfl, -⟩ := wakeup_cases woken
  exact gone

theorem Gone.customWakeup (woken : self.customWakeup ticks handle = some next) : Gone next task := by
  unfold PerCoreScheduler.customWakeup at woken
  split at woken
  · exact gone.wakeup woken
  · rwa [← some.inj woken]

theorem Gone.enroll (enrolled : self.enroll newTask = some next) : Gone next task := by
  obtain ⟨tasks, readyQueue, rfl, -⟩ := enroll_cases enrolled
  exact gone

theorem Gone.checkInput (checked : self.checkInput ticks = some next) : Gone next task := by
  obtain ⟨between, woken, enrolled⟩ := bind_eq_some_iff.mp checked
  have after : Gone between task := by
    apply drainWakeups_keeps (fun _ self => Gone self task) _ _ gone woken
    intro handle rest self next before first
    exact (show Gone { self with input.wakeupTasks := rest } task from before).wakeup first
  apply drainNewTasks_keeps (fun _ self => Gone self task) _ _ after enrolled
  intro newTask rest self next before first
  exact (show Gone { self with input.newTasks := rest } task from before).enroll first

theorem Gone.scheduler (called : self.scheduler = some (switched, next)) : Gone next task := by
  have cleaned : task ∈ self.dropped ++ self.finishedTasks := mem_append.mpr gone.symm
  rcases switch_cases called with ⟨readyQueue, rfl, -⟩ | ⟨new, readyQueue, rfl, -⟩
  · exact .inr cleaned
  · exact .inr cleaned

theorem Gone.perform {operation : CoreOperation} (ran : CoreOperation.perform self operation = some next) :
    Gone next task := by
  cases operation with
  | spawn tid prio =>
    change self.spawn tid prio = some next at ran
    unfold PerCoreScheduler.spawn at ran
    split at ran
    · cases ran
    · exact Gone.enroll (show Gone { self with known := tid :: self.known } task from gone) ran
  | remoteSpawn tid prio =>
    change self.remoteSpawn tid prio = some next at ran
    unfold PerCoreScheduler.remoteSpawn at ran
    split at ran
    · cases ran
    · cases ran
      exact gone
  | remoteWakeup task =>
    cases ran
    exact gone
  | checkInput ticks => exact gone.checkInput ran
  | blockCurrentTask wakeupTime =>
    obtain ⟨blocking, rfl, -⟩ := blockCurrentTask_cases ran
    exact gone
  | handleWaitingTasks time polled =>
    obtain ⟨⟨blocking, readyQueue⟩, -, rfl⟩ := map_eq_some_iff.mp ran
    exact gone
  | customWakeup ticks task => exact gone.customWakeup ran
  | cleanupTasks =>
    cases ran
    exact .inr (mem_append.mpr gone.symm)
  | scheduler =>
    obtain ⟨⟨switched, reached⟩, called, rfl⟩ := map_eq_some_iff.mp ran
    exact gone.scheduler called
  | exit ticks waiting =>
    obtain ⟨between, switched, woken, called⟩ := exit_cases ran
    have before : Gone { self with tasks := setStatus self.tasks self.currentTask .Finished } task := gone
    have after : Gone between task :=
      wakeupAll_keeps (Gone · task) (fun _ _ _ gone first => Gone.customWakeup gone first) waiting before woken
    exact after.scheduler called

end

theorem customWakeup_finished (finished : self.currentStatus = .Finished)
    (woken : self.customWakeup ticks handle = some next) :
    next.currentTask = self.currentTask ∧ next.currentStatus = .Finished := by
  unfold PerCoreScheduler.customWakeup at woken
  split at woken
  · obtain ⟨blocking, readyQueue, rfl, blocked, tasks, -⟩ := wakeup_cases woken
    have apart : self.currentTask ≠ handle.id := by
      intro same
      rw [currentStatus, same, blocked] at finished
      cases finished
    refine ⟨rfl, ?_⟩
    change (blocking.tasks self.currentTask).status = _
    rw [tasks, setStatus_other apart]
    exact finished
  · cases woken
    exact ⟨rfl, finished⟩

theorem wakeupAll_finished (waiting : List TaskHandle) (finished : self.currentStatus = .Finished)
    (woken : wakeupAll ticks waiting self = some next) :
    next.currentTask = self.currentTask ∧ next.currentStatus = .Finished := by
  apply wakeupAll_keeps (fun after => after.currentTask = self.currentTask ∧ after.currentStatus = .Finished) _ waiting
    ⟨rfl, finished⟩ woken
  rintro handle between next ⟨same, stands⟩ first
  obtain ⟨kept, status⟩ := customWakeup_finished stands first
  exact ⟨kept.trans same, status⟩

theorem gone_of_exit {waiting : List TaskHandle} (exited : self.exit ticks waiting = some next) :
    Gone next self.currentTask := by
  obtain ⟨between, switched, woken, called⟩ := exit_cases exited
  have marked : { self with tasks := setStatus self.tasks self.currentTask .Finished }.currentStatus = .Finished :=
    setStatus_status_self self.tasks self.currentTask .Finished
  obtain ⟨same, finished⟩ := wakeupAll_finished waiting marked woken
  rcases switch_cases called with ⟨-, -, -, -, stays⟩ | ⟨task, readyQueue, rfl, -⟩
  · rcases stays with running | idle
    · exact TaskStatus.noConfusion (finished.symm.trans running)
    · exact TaskStatus.noConfusion (finished.symm.trans idle)
  · apply Or.inl
    change _ ∈ [] ++ if between.currentStatus = .Finished then [between.currentTask] else []
    rw [if_pos finished, same]
    exact mem_singleton.mpr rfl

/-! Whole runs. -/

theorem invariant_start (core : CoreId) (tid : TaskId) : Invariant false (addCurrentCore core tid) := by
  refine ⟨?_, mem_singleton.mpr rfl, not_mem_nil, fun _ member => absurd member not_mem_nil⟩
  intro task
  have places : occupancy (addCurrentCore core tid) task = ⟨if tid = task then 1 else 0, 0, 0, 0, 0⟩ := by
    rfl
  rw [places]
  by_cases same : task = tid
  · have idle : kind (addCurrentCore core tid) task = .idle := if_pos same
    have status : ((addCurrentCore core tid).tasks task).status = .Idle := if_pos same
    rw [idle, status]
    exact Fits.idle _
  · have absent : kind (addCurrentCore core tid) task = .absent :=
      (if_neg same).trans (if_neg fun both => same (mem_singleton.mp both.1))
    rw [absent, if_neg (Ne.symm same)]
    exact Fits.absent _

theorem Invariant.arranged (invariant : Invariant false self) : Arranged self := by
  refine ⟨?_, ?_, ?_⟩
  · intro task known notIdle kept
    have fits := invariant.fits task
    rw [kind, if_neg notIdle, if_pos ⟨known, kept⟩] at fits
    generalize occupancy self task = places at fits ⊢
    generalize (self.tasks task).status = status at fits ⊢
    cases fits with
    | placed place => exact place
    | exiting allowed => cases allowed
  · intro task dropped
    exact invariant.dropped_absent dropped
  · obtain ⟨status, current, places⟩ := invariant.idle_status
    refine ⟨status, ?_⟩
    have own : (occupancy self self.idleTask).current = current := by rw [places]
    rw [places, ← own]
    rfl

/-- While only running tasks exit, every task is in one place, with the status that goes with it. -/
theorem tasks_arranged (core : CoreId) (tid : TaskId) (operations : List CoreOperation)
    (exits : Guarded CoreOperation.step ExitsRunning (some (addCurrentCore core tid)) operations) (self : PerCoreScheduler)
    (reached : operations.foldl CoreOperation.step (some (addCurrentCore core tid)) = some self) :
    Arranged self ∧ ∀ past ticks waiting rest before, operations = past ++ .exit ticks waiting :: rest →
      past.foldl CoreOperation.step (some (addCurrentCore core tid)) = some before → self.currentTask ≠ before.currentTask := by
  have invariant : Invariant false self := exits.preserves
    (ifAny_attempt fun _ _ _ before allowed ran => before.perform allowed ran)
    (ifAny_some (invariant_start core tid)) self reached
  refine ⟨invariant.arranged, ?_⟩
  rintro past ticks waiting rest before rfl earlier
  rw [foldl_append, earlier] at reached
  obtain ⟨after, exited, more⟩ := run_cons.mp reached
  have gone : Gone after before.currentTask := gone_of_exit exited
  have keeps (state : PerCoreScheduler) (operation : CoreOperation) (next : PerCoreScheduler)
      (now : Gone state before.currentTask) (ran : CoreOperation.perform state operation = some next) :
      Gone next before.currentTask := now.perform ran
  exact invariant.gone_not_current (run_invariant keeps gone more)

theorem tasks_arranged_two :
    ∃ self, [.spawn 1 2, .scheduler, .remoteSpawn 2 2, .blockCurrentTask (some 5), .checkInput 0, .scheduler,
        .handleWaitingTasks 6 none, .exit 6 [], .exit 7 []].foldl CoreOperation.step (some (addCurrentCore 0 0)) = some self ∧
      Arranged self ∧ self.currentTask = 0 := by
  refine ⟨_, rfl, (tasks_arranged 0 0 [.spawn 1 2, .scheduler, .remoteSpawn 2 2, .blockCurrentTask (some 5),
    .checkInput 0, .scheduler, .handleWaitingTasks 6 none, .exit 6 [], .exit 7 []] ?_ _ rfl).1, rfl⟩
  exact ⟨trivial, trivial, trivial, trivial, trivial, trivial, trivial, rfl, rfl, trivial⟩

theorem idle_task_and_blocked_exit :
    (∃ self, [.spawn 1 2, .scheduler].foldl CoreOperation.step (some (addCurrentCore 0 0)) = some self ∧ 0 ∈ self.known ∧
        0 ∉ self.dropped ∧ occupancy self 0 = ⟨0, 0, 0, 0, 0⟩) ∧
      ∃ self, [.spawn 1 2, .scheduler, .blockCurrentTask none, .exit 0 []].foldl CoreOperation.step (some (addCurrentCore 0 0)) =
          some self ∧ 1 ∈ self.known ∧ 1 ∉ self.dropped ∧ 1 ∈ self.finishedTasks ∧
        1 ∈ self.blockedTasks.list.map BlockedTask.task ∧ ¬ Place (occupancy self 1) (self.tasks 1).status := by
  refine ⟨⟨_, rfl, by decide, by decide, by decide⟩, _, rfl, by decide, by decide, by decide, by decide, ?_⟩
  intro place
  cases place

end HermitLocal.Scheduler.Placement
