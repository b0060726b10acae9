import HermitLocal.Scheduler.JoinProtocol
import HermitLocal.Scheduler.CoreEffects

/-! Waiting for the end of a task. `spawn` makes an empty queue in `WAITING_TASKS`, `join` enters the queue of a task and
blocks, and `exit` takes the queue away and wakes whoever is in it, at once on the own core and through the input of any
other one. Each step is one critical section, or what an interrupt or the idle loop does. -/

namespace HermitLocal.Scheduler.Join
open Lib.Simulation Scheduler.TaskQueues Scheduler.PerCore Function List Option
open Scheduler.Synch Scheduler.Placement
open Scheduler.Wakeups Scheduler.JoinProtocol Scheduler.CoreEffects

structure State where
  system : System
  waitingTasks : TaskId → Option (List TaskHandle)
  joining : TaskId → Option TaskId

def State.boot (processorCount : Nat) : State where
  system := System.boot processorCount fun _ => 0
  waitingTasks task := if task < processorCount then some [] else none
  joining _ := none

namespace State

def Free (self : State) (core : CoreId) : Prop :=
  self.joining (self.system.currentTask core) = none ∧
    ((self.system.cores core).currentStatus = .Running ∨ (self.system.cores core).currentStatus = .Idle)

instance (self : State) (core : CoreId) : Decidable (self.Free core) :=
  inferInstanceAs (Decidable (_ ∧ _))

def spawn (self : State) (core target : CoreId) (tid : TaskId) (prio : Priority) : Option State :=
  if tid ∈ self.system.tasks then some self
  else (self.system.spawn core target tid prio).map fun system =>
    { self with system := system, waitingTasks := update self.waitingTasks tid (some []) }

def joinTurn (self : State) (core : CoreId) (id : TaskId) : Option State :=
  let task := self.system.currentTask core
  match self.waitingTasks id with
  | none => some { self with joining := update self.joining task none }
  | some queue =>
      let handle := self.system.getCurrentTaskHandle core
      (self.system.onCore core (·.blockCurrentTask none)).map fun system =>
        { system := system
          waitingTasks := update self.waitingTasks id (some (queue ++ [handle]))
          joining := update self.joining task (some id) }

def exit (self : State) (core : CoreId) (ticks : Nat) : Option State :=
  let scheduler := self.system.cores core
  let task := scheduler.currentTask
  if scheduler.currentStatus = .Idle then none
  else
    let finished := self.system.setCore core { scheduler with tasks := setStatus scheduler.tasks task .Finished }
    match self.waitingTasks task with
    | none => some { self with system := finished }
    | some queue => (System.wakeupAll core ticks queue finished).map fun system =>
        { self with system := system, waitingTasks := update self.waitingTasks task none }

def onCore (self : State) (core : CoreId) (f : PerCoreScheduler → Option PerCoreScheduler) : Option State :=
  (self.system.onCore core f).map fun system => { self with system := system }

end State

inductive State.Operation where
  | spawn (target : CoreId) (tid : TaskId) (prio : Priority)
  | join (id : TaskId)
  | proceed
  | exit (ticks : Nat)
  | reschedule
  | checkInput (ticks : Nat)
  | handleWaitingTasks (time : Nat) (polled : Option (Option Nat))

def State.act (self : State) (core : CoreId) : State.Operation → Option State
  | .spawn target tid prio => self.spawn core target tid prio
  | .join id => if self.Free core then self.joinTurn core id else some self
  | .proceed =>
      match self.joining (self.system.currentTask core) with
      | some id => if (self.system.cores core).currentStatus = .Running then self.joinTurn core id else some self
      | none => some self
  | .exit ticks => if self.Free core then self.exit core ticks else some self
  | .reschedule => self.onCore core fun scheduler => scheduler.scheduler.map Prod.snd
  | .checkInput ticks => self.onCore core (·.checkInput ticks)
  | .handleWaitingTasks time polled => self.onCore core (·.handleWaitingTasks time polled)

def State.perform (self : State) (action : CoreId × State.Operation) : Option State :=
  if action.1 < self.system.processorCount then self.act action.1 action.2 else some self

def State.step : Option State → CoreId × State.Operation → Option State := attempt perform

/-- On the core where it runs, the exit of a task and the switch after it are those of the scheduler of that core. -/
theorem exit_core {self next : State} {core : CoreId} {ticks : Nat} (own : (self.system.cores core).coreId = core)
    (exited : self.exit core ticks = some next) :
    (self.system.cores core).exit ticks ((self.waitingTasks (self.system.currentTask core)).getD []) =
      (next.system.cores core).scheduler.bind fun (switched, scheduler) =>
        if switched.isSome then some scheduler else none := by
  unfold State.exit at exited
  dsimp only at exited
  split at exited
  · cases exited
  next running =>
    rw [PerCoreScheduler.exit, if_neg running]
    dsimp only
    unfold System.currentTask
    generalize finishing : { self.system.cores core with
      tasks := setStatus (self.system.cores core).tasks (self.system.cores core).currentTask .Finished } = finished at exited ⊢
    cases entry : self.waitingTasks (self.system.cores core).currentTask with
    | none =>
      rw [entry] at exited
      cases exited
      rw [System.setCore_same]
      rfl
    | some queue =>
      rw [entry] at exited
      obtain ⟨system, woken, rfl⟩ := map_eq_some_iff.mp exited
      have still : ((self.system.setCore core finished).cores core).coreId = core := by
        rw [System.setCore_same, ← finishing]
        exact own
      have wakeups := System.wakeupAll_core still woken
      rw [System.setCore_same] at wakeups
      rw [getD_some, wakeups]
      rfl

/-! The wakeups of an exit. -/

structure AllWoken (core : CoreId) (handles : List TaskHandle) (before after : System) : Prop where
  processorCount : after.processorCount = before.processorCount
  tasks : after.tasks = before.tasks
  orderly : ∀ other, Orderly other (after.cores other)
  own : Woken ((View.ofCore core handles).map TaskHandle.id) (before.cores core) (after.cores core)
  ownInput : (after.cores core).input = (before.cores core).input
  others : ∀ other, other ≠ core → after.cores other = { before.cores other with
    input.wakeupTasks := (before.cores other).input.wakeupTasks ++ View.ofCore other handles }

variable {core : CoreId} {handle : TaskHandle} {self : System} {id task : TaskId}

theorem ofCore_cons_own (own : handle.coreId = core) (rest : List TaskHandle) :
    View.ofCore core (handle :: rest) = handle :: View.ofCore core rest :=
  filter_cons_of_pos (decide_eq_true own)

theorem ofCore_cons_other (other : handle.coreId ≠ core) (rest : List TaskHandle) :
    View.ofCore core (handle :: rest) = View.ofCore core rest :=
  filter_cons_of_neg fun same => other (of_decide_eq_true same)

theorem orderly_setCore (orderly : ∀ core, Orderly core (self.cores core)) {scheduler : PerCoreScheduler}
    (own : Orderly core scheduler) (other : CoreId) :
    Orderly other ((self.setCore core scheduler).cores other) := by
  by_cases same : other = core
  · rw [same, System.setCore_same]
    exact own
  · rw [System.setCore_other same]
    exact orderly other

theorem AllWoken.nothing (core : CoreId) (orderly : ∀ other, Orderly other (self.cores other)) :
    AllWoken core [] self self := by
  refine ⟨rfl, rfl, orderly, Woken.nothing _, rfl, ?_⟩
  intro other _
  change self.cores other = { self.cores other with input.wakeupTasks := (self.cores other).input.wakeupTasks ++ [] }
  rw [append_nil]

theorem AllWoken.wake {rest : List TaskHandle} {next : System} {between : PerCoreScheduler}
    (own : handle.coreId = core) (first : Woken [handle.id] (self.cores core) between)
    (input : between.input = (self.cores core).input)
    (all : AllWoken core rest (self.setCore core between) next) : AllWoken core (handle :: rest) self next := by
  refine ⟨all.processorCount, all.tasks, all.orderly, ?_, ?_, ?_⟩
  · rw [ofCore_cons_own own, map_cons]
    have last := all.own
    rw [System.setCore_same] at last
    exact first.cons last
  · rw [all.ownInput, System.setCore_same, input]
  · intro other apart
    rw [all.others other apart, System.setCore_other apart, ofCore_cons_other]
    exact fun same => apart (same.symm.trans own)

theorem AllWoken.send {rest : List TaskHandle} {next : System} (elsewhere : handle.coreId ≠ core)
    (all : AllWoken core rest (self.setCore handle.coreId ((self.cores handle.coreId).remoteWakeup handle)) next) :
    AllWoken core (handle :: rest) self next := by
  have here := @System.setCore_other self handle.coreId ((self.cores handle.coreId).remoteWakeup handle) _
    (Ne.symm elsewhere)
  refine ⟨all.processorCount, all.tasks, all.orderly, ?_, ?_, ?_⟩
  · rw [ofCore_cons_other elsewhere, ← here]
    exact all.own
  · rw [all.ownInput, here]
  · intro other apart
    rw [all.others other apart]
    by_cases same : other = handle.coreId
    · subst same
      rw [System.setCore_same, ofCore_cons_own rfl]
      unfold PerCoreScheduler.remoteWakeup
      rw [append_assoc, singleton_append]
    · rw [System.setCore_other same, ofCore_cons_other (Ne.symm same)]

theorem wakeupAll_woken (core : CoreId) (ticks : Nat) (handles : List TaskHandle)
    (orderly : ∀ core, Orderly core (self.cores core))
    (blocks : ∀ handle ∈ handles, handle.coreId = core → Blocks (self.cores core) handle.id)
    (once : (handles.map TaskHandle.id).Nodup) :
    ∃ next, System.wakeupAll core ticks handles self = some next ∧ AllWoken core handles self next := by
  induction handles generalizing self with
  | nil => exact ⟨self, rfl, AllWoken.nothing core orderly⟩
  | cons handle rest ih =>
    obtain ⟨notAgain, restOnce⟩ := nodup_cons.mp once
    by_cases own : handle.coreId = core
    · obtain ⟨between, woken, after, first, sameInput⟩ :=
        (orderly core).wakeup ticks (blocks handle mem_cons_self own)
      have still : ∀ other ∈ rest, other.coreId = core → Blocks ((self.setCore core between).cores core) other.id := by
        intro other member here
        rw [System.setCore_same, first.blocks, mem_singleton]
        refine ⟨blocks other (mem_cons_of_mem _ member) here, ?_⟩
        intro same
        exact notAgain (same ▸ mem_map_of_mem member)
      obtain ⟨next, more, all⟩ := ih (orderly_setCore orderly after) still restOnce
      refine ⟨next, ?_, all.wake own first sameInput⟩
      rw [System.wakeupAll, System.customWakeup, if_pos own, System.onCore, woken]
      exact more
    · generalize sent : self.setCore handle.coreId ((self.cores handle.coreId).remoteWakeup handle) = between
      have here : between.cores core = self.cores core := by
        rw [← sent]
        exact System.setCore_other (Ne.symm own)
      have after : ∀ other, Orderly other (between.cores other) := by
        rw [← sent]
        exact orderly_setCore orderly ((orderly handle.coreId).setWakeups _)
      have still : ∀ other ∈ rest, other.coreId = core → Blocks (between.cores core) other.id := by
        intro other member named
        rw [here]
        exact blocks other (mem_cons_of_mem _ member) named
      obtain ⟨next, more, all⟩ := ih after still restOnce
      refine ⟨next, ?_, AllWoken.send own (sent ▸ all)⟩
      rw [System.wakeupAll, System.customWakeup, if_neg own, System.onCore, map_some, sent]
      exact more

/-! The steps are those of the protocol. -/

def State.view (self : State) : View where
  processorCount := self.system.processorCount
  tasks := self.system.tasks
  known core := (self.system.cores core).known
  blocks core := Blocks (self.system.cores core)
  exited core := Exited (self.system.cores core)
  wakeups core := (self.system.cores core).input.wakeupTasks
  waitingTasks := self.waitingTasks
  joining := self.joining

structure Kept (state : State) : Prop where
  cores : ∀ core, Orderly core (state.system.cores core)
  protocol : Protocol state.view

theorem view_setCore (self : State) (core : CoreId) (scheduler : PerCoreScheduler) {next : State}
    (cores : next.system.cores = update self.system.cores core scheduler) : next.view = { next.view with
      known := update self.view.known core scheduler.known
      blocks := update self.view.blocks core (Blocks scheduler)
      exited := update self.view.exited core (Exited scheduler)
      wakeups := update self.view.wakeups core scheduler.input.wakeupTasks } := by
  have through {α : Type} (f : PerCoreScheduler → α) : (fun other => f (next.system.cores other)) =
      update (fun other => f (self.system.cores other)) core (f scheduler) := by
    funext other
    rw [cores]
    by_cases same : other = core
    · rw [same, update_self, update_self]
    · rw [update_of_ne same, update_of_ne same]
  ext1
  case known => exact through PerCoreScheduler.known
  case blocks => exact through Blocks
  case exited => exact through Exited
  case wakeups => exact through fun scheduler => scheduler.input.wakeupTasks
  all_goals rfl

structure Simulated (before after : State) : Prop where
  cores : ∀ core, Orderly core (after.system.cores core)
  step : Step before.view after.view

theorem update_same {α : Type} (f : CoreId → α) {value : α} (same : value = f core) :
    update f core value = f := by
  rw [same, update_eq_self]

section Simulation
variable {self next : State} (kept : Kept self) {core : CoreId}

include kept

theorem Kept.runs (present : core < self.system.processorCount)
    (executes : (self.system.cores core).currentStatus = .Running ∨ (self.system.cores core).currentStatus = .Idle) :
    Runs self.view core (self.system.currentTask core) := by
  have orderly := kept.cores core
  refine ⟨present, orderly.placed.current_known, ?_, ?_⟩
  · intro blocks
    rcases executes with running | idle
    · exact TaskStatus.noConfusion (running.symm.trans blocks)
    · exact TaskStatus.noConfusion (idle.symm.trans blocks)
  · rintro (gone | ⟨-, finished⟩)
    · exact orderly.placed.gone_not_current gone rfl
    · rcases executes with running | idle
      · exact TaskStatus.noConfusion (running.symm.trans finished)
      · exact TaskStatus.noConfusion (idle.symm.trans finished)

theorem Kept.changes {scheduler : PerCoreScheduler}
    (cores : next.system.cores = update self.system.cores core scheduler) (orderly : Orderly core scheduler)
    (step : Step self.view { next.view with
      known := update self.view.known core scheduler.known
      blocks := update self.view.blocks core (Blocks scheduler)
      exited := update self.view.exited core (Exited scheduler)
      wakeups := update self.view.wakeups core scheduler.input.wakeupTasks }) : Simulated self next := by
  constructor
  · rw [cores]
    exact orderly_setCore kept.cores orderly
  · rw [view_setCore self core scheduler cores]
    exact step

theorem Kept.onCore_steady {f : PerCoreScheduler → Option PerCoreScheduler}
    (effect : ∀ after, f (self.system.cores core) = some after →
      Orderly core after ∧ Steady (self.system.cores core) after ∧ after.known = (self.system.cores core).known)
    (ran : self.onCore core f = some next) : Simulated self next := by
  obtain ⟨system, applied, rfl⟩ := map_eq_some_iff.mp ran
  obtain ⟨after, called, rfl⟩ := map_eq_some_iff.mp applied
  obtain ⟨orderly, steady, known⟩ := effect after called
  have blocks : Blocks after = self.view.blocks core := funext fun task => propext (steady.blocks task)
  have exited : Exited after = self.view.exited core := funext fun task => propext (steady.exited task)
  apply kept.changes rfl orderly
  rw [update_same self.view.known known, update_same self.view.blocks blocks, update_same self.view.exited exited,
    update_same self.view.wakeups steady.wakeups]
  exact Step.stay self.view

theorem Kept.checkInput {ticks : Nat} (ran : self.onCore core (·.checkInput ticks) = some next) :
    Simulated self next := by
  obtain ⟨system, applied, rfl⟩ := map_eq_some_iff.mp ran
  obtain ⟨after, called, rfl⟩ := map_eq_some_iff.mp applied
  obtain ⟨orderly, blocks, exited, emptied, known⟩ :=
    (kept.cores core).checkInput (kept.protocol.expected core) (kept.protocol.sentOnce core) called
  have left : Blocks after = fun task => self.view.blocks core task ∧ task ∉ self.view.sent core :=
    funext fun task => propext (blocks task)
  have same : Exited after = self.view.exited core := funext fun task => propext (exited task)
  apply kept.changes rfl orderly
  rw [update_same self.view.known known, update_same self.view.exited same, left, emptied]
  exact Step.deliver core

theorem Kept.joinTurn (present : core < self.system.processorCount)
    (executes : (self.system.cores core).currentStatus = .Running ∨ (self.system.cores core).currentStatus = .Idle)
    (ran : self.joinTurn core id = some next) : Simulated self next := by
  have runs := kept.runs present executes
  unfold State.joinTurn at ran
  cases entry : self.waitingTasks id with
  | none =>
    rw [entry] at ran
    cases ran
    exact ⟨kept.cores, Step.leave runs⟩
  | some queue =>
    rw [entry] at ran
    obtain ⟨system, applied, rfl⟩ := map_eq_some_iff.mp ran
    obtain ⟨after, called, rfl⟩ := map_eq_some_iff.mp applied
    obtain ⟨orderly, blocks, exited, input, known⟩ := (kept.cores core).blockCurrentTask called
    generalize named : self.system.getCurrentTaskHandle core = handle
    have own : handle.coreId = core := by
      rw [← named]
      exact (kept.cores core).own _
    have current : handle.id = self.system.currentTask core := by rw [← named]; rfl
    have more : Blocks after = fun task => self.view.blocks core task ∨ task = self.system.currentTask core :=
      funext fun task => propext (blocks task)
    have same : Exited after = self.view.exited core := funext fun task => propext (exited task)
    have step : Step self.view (self.view.enlist id queue handle) := Step.enlist (by rwa [own, current]) entry
    unfold View.enlist at step
    rw [own, current] at step
    apply kept.changes rfl orderly
    rw [update_same self.view.known known, update_same self.view.exited same,
      update_same self.view.wakeups (congrArg SchedulerInput.wakeupTasks input), more]
    exact step

theorem Kept.spawn {target : CoreId} {tid : TaskId} {prio : Priority}
    (ran : self.spawn core target tid prio = some next) : Simulated self next := by
  unfold State.spawn at ran
  split at ran
  · cases ran
    exact ⟨kept.cores, Step.stay self.view⟩
  next fresh =>
    obtain ⟨system, spawned, rfl⟩ := map_eq_some_iff.mp ran
    unfold System.spawn at spawned
    rw [if_neg fresh] at spawned
    split at spawned
    next targeted =>
      have effect : ∃ after, Orderly target after ∧ Steady (self.system.cores target) after ∧
          after.known = tid :: (self.system.cores target).known ∧
          system = System.setCore { self.system with tasks := tid :: self.system.tasks } target after := by
        split at spawned
        next here =>
          subst here
          obtain ⟨after, called, rfl⟩ := map_eq_some_iff.mp spawned
          obtain ⟨orderly, steady, known⟩ := (kept.cores target).spawn called
          exact ⟨after, orderly, steady, known, rfl⟩
        · obtain ⟨after, called, rfl⟩ := map_eq_some_iff.mp spawned
          obtain ⟨orderly, steady, known⟩ := (kept.cores target).remoteSpawn called
          exact ⟨after, orderly, steady, known, rfl⟩
      obtain ⟨after, orderly, steady, known, rfl⟩ := effect
      have blocks : Blocks after = self.view.blocks target := funext fun task => propext (steady.blocks task)
      have exited : Exited after = self.view.exited target := funext fun task => propext (steady.exited task)
      apply kept.changes rfl orderly
      rw [known, update_same self.view.blocks blocks,
        update_same self.view.exited exited, update_same self.view.wakeups steady.wakeups]
      exact Step.create targeted fresh
    · cases spawned

end Simulation

structure WakesOnce (core : CoreId) (queue : List TaskHandle) (before after : System) : Prop where
  distinct : (queue.map TaskHandle.id).Nodup
  blocked : ∀ handle ∈ queue, Blocks (before.cores handle.coreId) handle.id ∧
    handle.id ∉ (before.cores handle.coreId).input.wakeupTasks.map TaskHandle.id
  woken : ∀ handle ∈ queue, handle.coreId = core → ((after.cores core).tasks handle.id).status = .Ready
  ready : (after.cores core).readyQueue.entries =
    ((View.ofCore core queue).map TaskHandle.id : Multiset TaskId) + (before.cores core).readyQueue.entries
  sent : ∀ other, other ≠ core →
    (after.cores other).input.wakeupTasks = (before.cores other).input.wakeupTasks ++ View.ofCore other queue

theorem AllWoken.view {self : State} {queue : List TaskHandle} {finished : PerCoreScheduler} {system : System}
    (all : AllWoken core queue (self.system.setCore core finished) system)
    (blocks : ∀ other, Blocks finished other ↔ Blocks (self.system.cores core) other)
    (exited : ∀ other, Exited finished other ↔ Exited (self.system.cores core) other ∨ other = task)
    (input : finished.input = (self.system.cores core).input)
    (known : finished.known = (self.system.cores core).known) :
    State.view { self with system := system, waitingTasks := update self.waitingTasks task none } =
      self.view.finish core task queue := by
  have own := all.own
  have ownInput := all.ownInput
  rw [System.setCore_same] at own ownInput
  have others {other : CoreId} (apart : other ≠ core) := all.others other apart
  ext1
  case processorCount => exact all.processorCount
  case tasks => exact all.tasks
  case waitingTasks => rfl
  case joining => rfl
  case known =>
    funext other
    change (system.cores other).known = (self.system.cores other).known
    by_cases same : other = core
    · rw [same, own.known, known]
    · rw [others same, System.setCore_other same]
  case blocks =>
    funext other waiter
    change Blocks (system.cores other) waiter = update self.view.blocks core _ other waiter
    rw [update_apply]
    split
    next same =>
      rw [same]
      exact propext ((own.blocks waiter).trans (and_congr_left fun _ => blocks waiter))
    next same =>
      rw [others same, System.setCore_other same]
      rfl
  case exited =>
    funext other ended
    change Exited (system.cores other) ended = update self.view.exited core _ other ended
    rw [update_apply]
    split
    next same =>
      rw [same]
      exact propext ((own.exited ended).trans (exited ended))
    next same =>
      rw [others same, System.setCore_other same]
      rfl
  case wakeups =>
    funext other
    change (system.cores other).input.wakeupTasks =
      (self.system.cores other).input.wakeupTasks ++ if other = core then [] else View.ofCore other queue
    by_cases same : other = core
    · rw [if_pos same, append_nil, same, ownInput, input]
    · rw [if_neg same, others same, System.setCore_other same]

section Exit
variable {self next : State} (kept : Kept self) {core : CoreId}

include kept

theorem Kept.queue (runs : Runs self.view core task) : ∃ queue, self.waitingTasks task = some queue := by
  have created : task ∈ self.view.tasks := kept.protocol.home core runs.present task runs.known
  have alive (other : CoreId) : ¬ self.view.exited other task := by
    intro exited
    obtain ⟨there, known⟩ := kept.protocol.exitedHere other task exited
    have same := kept.protocol.unique core runs.present other there task runs.known known
    exact runs.alive (same ▸ exited)
  exact isSome_iff_exists.mp ((kept.protocol.entered task).mpr ⟨created, alive⟩)

omit kept in
theorem AllWoken.readied {queue : List TaskHandle} {before after : System}
    (all : AllWoken core queue before after) (member : handle ∈ queue) (here : handle.coreId = core) :
    ((after.cores core).tasks handle.id).status = .Ready := by
  have queued : 0 < (occupancy (after.cores core) handle.id).ready := by
    change 0 < (after.cores core).readyQueue.entries.count handle.id
    rw [all.own.ready, Multiset.count_add, Multiset.coe_count]
    have among : handle.id ∈ (View.ofCore core queue).map TaskHandle.id :=
      mem_map_of_mem (View.mem_ofCore.mpr ⟨member, here⟩)
    have counted := count_pos_iff.mpr among
    omega
  exact (((all.orderly core).placed.fits handle.id).start queued).1

theorem Kept.exit (ticks : Nat) (present : core < self.system.processorCount)
    (running : (self.system.cores core).currentStatus = .Running) :
    ∃ queue next, self.waitingTasks (self.system.currentTask core) = some queue ∧ self.exit core ticks = some next ∧
      Simulated self next ∧ WakesOnce core queue self.system next.system := by
  have runs := kept.runs present (.inl running)
  obtain ⟨queue, entry⟩ := kept.queue runs
  have waits := kept.protocol.queued _ queue entry
  have once := kept.protocol.once _ queue entry
  generalize marked : ({ self.system.cores core with
    tasks := setStatus (self.system.cores core).tasks (self.system.cores core).currentTask .Finished } : PerCoreScheduler) =
    finished
  obtain ⟨orderly, blocks, exited⟩ := (kept.cores core).finish running marked.symm
  have sameQueue : finished.readyQueue = (self.system.cores core).readyQueue := by rw [← marked]
  have sameInput : finished.input = (self.system.cores core).input := by rw [← marked]
  have sameKnown : finished.known = (self.system.cores core).known := by rw [← marked]
  have blocked : ∀ handle ∈ queue, handle.coreId = core → Blocks ((self.system.setCore core finished).cores core) handle.id := by
    rintro handle member rfl
    rw [System.setCore_same, blocks]
    exact (waits handle member).blocks
  obtain ⟨system, ran, all⟩ :=
    wakeupAll_woken core ticks queue (orderly_setCore kept.cores orderly) blocked once
  have own := all.own
  rw [System.setCore_same] at own
  refine ⟨queue, { self with
    system := system
    waitingTasks := update self.waitingTasks (self.system.currentTask core) none }, entry, ?_, ?_, ?_⟩
  · unfold State.exit
    rw [if_neg (by rw [running]; decide), marked]
    rw [show self.waitingTasks (self.system.cores core).currentTask = some queue from entry]
    dsimp only
    rw [ran]
    rfl
  · refine ⟨all.orderly, ?_⟩
    apply (congrArg (Step self.view) (all.view blocks exited sameInput sameKnown)).mpr
    exact Step.finish runs entry
  · constructor
    case distinct => exact once
    case blocked => exact fun handle member => ⟨(waits handle member).blocks, (waits handle member).unsent⟩
    case ready => rw [own.ready, sameQueue]
    case sent =>
      intro other apart
      rw [all.others other apart, System.setCore_other apart]
    case woken => exact fun handle => all.readied

theorem Kept.act {operation : State.Operation} (present : core < self.system.processorCount)
    (ran : self.act core operation = some next) : Simulated self next := by
  have stays : Simulated self self := ⟨kept.cores, Step.stay self.view⟩
  cases operation with
  | spawn target tid prio => exact kept.spawn ran
  | join id =>
    change (if self.Free core then _ else _) = _ at ran
    split at ran
    next free => exact kept.joinTurn present free.2 ran
    · rwa [← some.inj ran]
  | proceed =>
    unfold State.act at ran
    dsimp only at ran
    split at ran
    · split at ran
      next running => exact kept.joinTurn present (.inl running) ran
      · rwa [← some.inj ran]
    · rwa [← some.inj ran]
  | exit ticks =>
    change (if self.Free core then _ else _) = _ at ran
    split at ran
    next free =>
      rcases free.2 with running | idle
      · obtain ⟨queue, after, -, exited, simulated, -⟩ := kept.exit ticks present running
        rw [exited] at ran
        rwa [← some.inj ran]
      · unfold State.exit at ran
        rw [if_pos idle] at ran
        cases ran
    · rwa [← some.inj ran]
  | reschedule =>
    apply kept.onCore_steady _ ran
    intro after called
    obtain ⟨⟨switched, reached⟩, scheduled, rfl⟩ := map_eq_some_iff.mp called
    exact (kept.cores core).scheduler scheduled
  | checkInput ticks => exact kept.checkInput ran
  | handleWaitingTasks time polled =>
    exact kept.onCore_steady (fun _ handled => (kept.cores core).handleWaitingTasks handled) ran

theorem Kept.perform {action : CoreId × State.Operation} (ran : self.perform action = some next) : Kept next := by
  unfold State.perform at ran
  split at ran
  next present =>
    have simulated := kept.act present ran
    exact ⟨simulated.cores, kept.protocol.step simulated.step⟩
  · rwa [← some.inj ran]

end Exit

section Boot

theorem boot_awake (core : CoreId) (task : TaskId) : ¬ Blocks (addCurrentCore core core) task := by
  intro blocks
  change (if task = core then TaskStatus.Idle else TaskStatus.Invalid) = .Blocked at blocks
  split at blocks
  · cases blocks
  · cases blocks

theorem boot_alive (core : CoreId) (task : TaskId) : ¬ Exited (addCurrentCore core core) task := by
  rintro ((finished | dropped) | ⟨-, ended⟩)
  · cases finished
  · cases dropped
  · change (if core = core then TaskStatus.Idle else TaskStatus.Invalid) = .Finished at ended
    rw [if_pos rfl] at ended
    cases ended

theorem boot_entry {processorCount : Nat} {queue : List TaskHandle}
    (entry : (State.boot processorCount).waitingTasks id = some queue) : queue = [] := by
  change (if id < processorCount then some [] else none) = some queue at entry
  split at entry
  · exact (some.inj entry).symm
  · cases entry

theorem boot_entered (processorCount : Nat) (id : TaskId) :
    ((State.boot processorCount).view.waitingTasks id).isSome = true ↔
      id ∈ (State.boot processorCount).view.tasks ∧ ∀ core, ¬ (State.boot processorCount).view.exited core id := by
  change (if id < processorCount then some [] else none).isSome = true ↔ id ∈ range processorCount ∧ _
  rw [mem_range]
  split
  next created => exact ⟨fun _ => ⟨created, fun core => boot_alive core id⟩, fun _ => rfl⟩
  next absent => exact ⟨fun none => Bool.noConfusion none, fun both => absurd both.1 absent⟩

theorem protocol_boot (processorCount : Nat) : Protocol (State.boot processorCount).view where
  toHomes := homes_boot processorCount
  blockedHere core task blocks := absurd blocks (boot_awake core task)
  exitedHere core task exited := absurd exited (boot_alive core task)
  entered := boot_entered processorCount
  queued id list entry handle member := by
    rw [boot_entry entry] at member
    cases member
  once id list entry := by
    rw [boot_entry entry]
    exact nodup_nil
  joined core task blocks := absurd blocks (boot_awake core task)
  expected core handle member := absurd member not_mem_nil
  sentOnce core := nodup_nil
  woken task id joining := absurd joining (by simp [State.view, State.boot])

theorem orderly_boot (processorCount : Nat) (core : CoreId) :
    Orderly core ((State.boot processorCount).system.cores core) := by
  have consistent := (sane_boot processorCount fun _ => 0).cores core
  refine ⟨consistent.toTidy, consistent.placed.relax, ?_, fun _ member => absurd member not_mem_nil⟩
  intro task
  change (if task = core then TaskStatus.Idle else TaskStatus.Invalid) = _ ∨
    (if task = core then TaskStatus.Idle else TaskStatus.Invalid) = _ ∨ _
  split
  · exact .inl rfl
  · exact .inr (.inl rfl)

theorem kept_boot (processorCount : Nat) : Kept (State.boot processorCount) :=
  ⟨orderly_boot processorCount, protocol_boot processorCount⟩

end Boot

theorem kept_run {processorCount : Nat} {actions : List (CoreId × State.Operation)} {self : State}
    (reached : actions.foldl State.step (some (State.boot processorCount)) = some self) : Kept self :=
  run_invariant (fun _ _ _ kept ran => Kept.perform kept ran) (kept_boot processorCount) reached

/-! What this says of `join`. -/

section Promises
variable {self : State} (kept : Kept self) {core : CoreId}

include kept

theorem Kept.over_exited (settled : Over self.view id) : ∃ other, Exited (self.system.cores other) id := by
  by_contra nowhere
  have entry := (kept.protocol.entered id).mpr ⟨settled.1, fun other exited => nowhere ⟨other, exited⟩⟩
  rw [settled.2] at entry
  cases entry

theorem Kept.blocked_joiner (blocks : Blocks (self.system.cores core) task)
    (joining : self.joining task = some id) :
    (∃ queue handle, self.waitingTasks id = some queue ∧ handle ∈ queue ∧ handle.id = task ∧ handle.coreId = core ∧
        ∀ other, ¬ Exited (self.system.cores other) id) ∨
      (∃ other, Exited (self.system.cores other) id) ∧
        ((self.system.cores core).input.wakeupTasks.map TaskHandle.id).count task = 1 := by
  obtain ⟨joined, joins, stands⟩ := kept.protocol.joined core task blocks
  obtain rfl : id = joined := some.inj (joining.symm.trans joins)
  rcases stands with ⟨queue, handle, entry, member, named, here⟩ | ⟨settled, sent⟩
  · refine .inl ⟨queue, handle, entry, member, named, here, ?_⟩
    have present : (self.view.waitingTasks id).isSome = true := by
      rw [entry]
      rfl
    exact ((kept.protocol.entered id).mp present).2
  · exact .inr ⟨kept.over_exited settled, count_eq_one_of_mem (kept.protocol.sentOnce core) sent⟩

theorem Kept.join_returns (present : core < self.system.processorCount) (free : self.Free core)
    (ended : id ∉ self.system.tasks ∨ ∃ other, Exited (self.system.cores other) id) :
    self.perform (core, .join id) = some self := by
  have entry : self.waitingTasks id = none := by
    rw [← not_isSome_iff_eq_none]
    intro entered
    obtain ⟨created, alive⟩ := (kept.protocol.entered id).mp entered
    rcases ended with unknown | ⟨other, exited⟩
    · exact unknown created
    · exact alive other exited
  rw [State.perform, if_pos present, State.act, if_pos free, State.joinTurn, entry]
  rw [← free.1, update_eq_self]

theorem Kept.woken_returns (present : core < self.system.processorCount)
    (joining : self.joining (self.system.currentTask core) = some id)
    (running : (self.system.cores core).currentStatus = .Running) : self.perform (core, .proceed) =
      some { self with joining := update self.joining (self.system.currentTask core) none } := by
  have entry : self.waitingTasks id = none := by
    rcases kept.protocol.woken _ id joining with settled | ⟨other, blocks⟩
    · exact settled.2
    · exact absurd blocks (kept.protocol.runs_awake (kept.runs present (.inl running)))
  rw [State.perform, if_pos present, State.act, joining]
  dsimp only
  rw [if_pos running, State.joinTurn, entry]

end Promises

/-- A task blocked in `join` waits for a living one, or its wakeup is on the way. -/
theorem join_misses_no_exit (processorCount : Nat) (actions : List (CoreId × State.Operation)) (self : State)
    (reached : actions.foldl State.step (some (State.boot processorCount)) = some self) :
    (∀ core task id, Blocks (self.system.cores core) task → self.joining task = some id →
      (∃ queue handle, self.waitingTasks id = some queue ∧ handle ∈ queue ∧ handle.id = task ∧ handle.coreId = core ∧
          ∀ other, ¬ Exited (self.system.cores other) id) ∨
        (∃ other, Exited (self.system.cores other) id) ∧
          ((self.system.cores core).input.wakeupTasks.map TaskHandle.id).count task = 1) ∧
    (∀ core ticks, core < self.system.processorCount → self.Free core →
      (self.system.cores core).currentStatus = .Running → ∃ queue next,
        self.waitingTasks (self.system.currentTask core) = some queue ∧ self.perform (core, .exit ticks) = some next ∧
        WakesOnce core queue self.system next.system) ∧
    (∀ core ticks, ∃ next, PerCoreScheduler.drainWakeups ticks (self.system.cores core).input.wakeupTasks
        (self.system.cores core) = some next ∧
      Woken ((self.system.cores core).input.wakeupTasks.map TaskHandle.id) (self.system.cores core) next) ∧
    (∀ core id, core < self.system.processorCount → self.Free core →
      (id ∉ self.system.tasks ∨ ∃ other, Exited (self.system.cores other) id) →
      self.perform (core, .join id) = some self) ∧
    ∀ core id, core < self.system.processorCount → self.joining (self.system.currentTask core) = some id →
      (self.system.cores core).currentStatus = .Running → self.perform (core, .proceed) =
        some { self with joining := update self.joining (self.system.currentTask core) none } := by
  have kept := kept_run reached
  refine ⟨fun _ _ _ => kept.blocked_joiner, ?_, ?_, fun _ _ => kept.join_returns, fun _ _ => kept.woken_returns⟩
  · intro core ticks present free running
    obtain ⟨queue, next, entry, exited, -, wakes⟩ := kept.exit ticks present running
    refine ⟨queue, next, entry, ?_, wakes⟩
    rw [State.perform, if_pos present, State.act, if_pos free]
    exact exited
  · intro core ticks
    obtain ⟨next, drained, -, woken, -⟩ :=
      (kept.cores core).drainWakeups ticks _ rfl (kept.protocol.expected core) (kept.protocol.sentOnce core)
    exact ⟨next, drained, woken⟩

def joinElsewhere : List (CoreId × State.Operation) :=
  [(0, .spawn 0 10 2), (0, .spawn 1 11 2), (1, .checkInput 0), (0, .reschedule), (1, .reschedule), (0, .join 11),
    (0, .reschedule), (1, .exit 5)]

theorem join_misses_no_exit_elsewhere : ∃ self, joinElsewhere.foldl State.step (some (State.boot 2)) = some self ∧
      ∃ next, PerCoreScheduler.drainWakeups 6 (self.system.cores 0).input.wakeupTasks (self.system.cores 0) = some next ∧
        Woken [10] (self.system.cores 0) next :=
  ⟨_, rfl, (join_misses_no_exit 2 joinElsewhere _ rfl).2.2.1 0 6⟩

theorem woken_elsewhere_and_idle_join :
    (∃ self, joinElsewhere.foldl State.step (some (State.boot 2)) = some self ∧ Blocks (self.system.cores 0) 10 ∧
      self.joining 10 = some 11 ∧ self.waitingTasks 11 = none) ∧
    ∃ self, [(0, .spawn 0 10 2), (0, .reschedule), (0, .join 1)].foldl State.step (some (State.boot 2)) = some self ∧
      Blocks (self.system.cores 0) 10 ∧ self.joining 10 = some 1 :=
  ⟨⟨_, rfl, rfl, rfl, rfl⟩, _, rfl, rfl, rfl⟩

end HermitLocal.Scheduler.Join
