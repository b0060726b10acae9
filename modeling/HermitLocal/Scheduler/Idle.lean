import HermitLocal.Scheduler.Placement

/-! The idle loop of a core and the wakeups that other cores send it. A sender puts something into the input of the core
and then calls `wakeup_core`; the core looks at its input, and stops in `hlt` or `mwait` some steps later. -/

namespace HermitLocal.Scheduler.Idle
open Lib.Simulation Scheduler.TaskQueues Scheduler.PerCore Function Option

inductive Stage where
  | running
  /-- In the loop of `run`, with interrupts off, before `check_input`. -/
  | disabled
  | entering
  /-- After `monitor`, before `mwait`. -/
  | monitoring
  /-- After the store to `hlt`, before the instruction. -/
  | flagged
  | stopped
deriving DecidableEq

def Stage.dozing : Stage → Bool
  | .monitoring | .flagged | .stopped => true
  | _ => false

inductive Sender where
  | outside
  /-- After it has put something into the input, before `take_core_hlt_state`. -/
  | pushed
  | sending
deriving DecidableEq

structure State where
  supportsMwait : Bool
  scheduler : PerCoreScheduler
  stage : Stage
  hlt : Bool
  wakeupPending : Bool
  otherPending : Bool
  lineWritten : Bool
  senders : Nat → Sender

def State.boot (supportsMwait : Bool) (core : CoreId) (tid : TaskId) : State where
  supportsMwait := supportsMwait
  scheduler := addCurrentCore core tid
  stage := .running
  hlt := false
  wakeupPending := false
  otherPending := false
  lineWritten := false
  senders _ := .outside

inductive Operation where
  | work (operation : Placement.CoreOperation)
  | disable
  /-- `check_input` and what follows; `completed` says whether the backoff is. -/
  | checkInput (ticks : Nat) (completed : Bool)
  | monitor
  | mwait
  | storeHlt
  | hlt
  | resume
  | wakeupHandler (ticks : Nat)
  | otherHandler
  | interrupt
  | pushWakeup (call : Nat) (task : TaskHandle)
  | pushNewTask (call : Nat) (tid : TaskId) (prio : Priority)
  /-- The condition of `wakeup_core`. -/
  | takeCoreHltState (call : Nat)
  | sendWakeup (call : Nat)

namespace State

def update (self : State) (scheduler : PerCoreScheduler) (stage : Stage) : State :=
  { self with
    scheduler := scheduler
    stage := stage
    lineWritten := self.lineWritten || scheduler.readyQueue.prioBitmap != self.scheduler.readyQueue.prioBitmap }

def work (self : State) (operation : Placement.CoreOperation) : Option State :=
  match operation with
  | .remoteSpawn _ _ => some self
  | .remoteWakeup _ => some self
  | operation =>
      if self.stage = .running ∨ self.stage = .disabled then
        (Placement.CoreOperation.perform self.scheduler operation).map (self.update · self.stage)
      else some self

def checkInput (self : State) (ticks : Nat) (completed : Bool) : Option State :=
  if self.stage = .disabled then
    (self.scheduler.checkInput ticks).map fun scheduler =>
      let scheduler := scheduler.cleanupTasks
      self.update scheduler (if scheduler.readyQueue.isEmpty && completed then .entering else .running)
  else some self

def interruptible (self : State) : Prop := self.stage = .running ∨ self.stage = .stopped

instance (self : State) : Decidable self.interruptible :=
  inferInstanceAs (Decidable (self.stage = .running ∨ self.stage = .stopped))

def wakeupHandler (self : State) (ticks : Nat) : Option State :=
  if self.interruptible ∧ self.wakeupPending = true then
    (self.scheduler.checkInput ticks).map fun scheduler =>
      { self.update scheduler .running with wakeupPending := false }
  else some self

def setSender (self : State) (call : Nat) (sender : Sender) : State :=
  { self with senders := Function.update self.senders call sender }

def push (self : State) (call : Nat) (scheduler : PerCoreScheduler) : State :=
  { self with scheduler := scheduler, senders := Function.update self.senders call .pushed }

def pushNewTask (self : State) (call : Nat) (tid : TaskId) (prio : Priority) : Option State :=
  if self.senders call = .outside then (self.scheduler.remoteSpawn tid prio).map (self.push call) else some self

def takeCoreHltState (self : State) (call : Nat) : State :=
  if self.senders call = .pushed then
    if self.supportsMwait = false ∧ self.hlt = true then { self.setSender call .sending with hlt := false }
    else self.setSender call .outside
  else self

end State

def perform (self : State) : Operation → Option State
  | .work operation => self.work operation
  | .disable => some (if self.stage = .running then { self with stage := .disabled } else self)
  | .checkInput ticks completed => self.checkInput ticks completed
  | .monitor =>
      some (if self.stage = .entering ∧ self.supportsMwait = true then
        { self with stage := .monitoring, lineWritten := false } else self)
  | .mwait => some (if self.stage = .monitoring then { self with stage := .stopped } else self)
  | .storeHlt =>
      some (if self.stage = .entering ∧ self.supportsMwait = false then { self with stage := .flagged, hlt := true }
        else self)
  | .hlt => some (if self.stage = .flagged then { self with stage := .stopped } else self)
  | .resume =>
      some (if self.stage = .stopped ∧ self.supportsMwait = true ∧ self.lineWritten = true then
        { self with stage := .running } else self)
  | .wakeupHandler ticks => self.wakeupHandler ticks
  | .otherHandler =>
      some (if self.interruptible ∧ self.otherPending = true then { self with stage := .running, otherPending := false }
        else self)
  | .interrupt => some { self with otherPending := true }
  | .pushWakeup call task =>
      some (if task.coreId = self.scheduler.coreId ∧ self.senders call = .outside then
        self.push call (self.scheduler.remoteWakeup task) else self)
  | .pushNewTask call tid prio => self.pushNewTask call tid prio
  | .takeCoreHltState call => some (self.takeCoreHltState call)
  | .sendWakeup call =>
      some (if self.senders call = .sending then { self.setSender call .outside with wakeupPending := true } else self)

def step : Option State → Operation → Option State := attempt perform

/-! The property, and when it holds. -/

def HoldsWork (self : State) : Prop := self.scheduler.input.wakeupTasks ≠ [] ∨ self.scheduler.input.newTasks ≠ []

def Alerted (self : State) : Prop := self.wakeupPending = true ∨ self.otherPending = true

def Coming (self : State) : Prop :=
  ∃ call, self.senders call = .sending ∨
    self.senders call = .pushed ∧ self.supportsMwait = false ∧ self.hlt = true

def Noticed (self : State) : Prop :=
  self.stage = .stopped → HoldsWork self →
    Alerted self ∨ self.supportsMwait = true ∧ self.lineWritten = true ∨ Coming self

def Timely : Option State → Operation → Prop
  | some self, .storeHlt => self.supportsMwait = false → self.stage = .entering → HoldsWork self →
      Alerted self ∨ ∃ call, self.senders call ≠ .outside
  | some self, .monitor => self.supportsMwait = true → self.stage = .entering → HoldsWork self → Alerted self
  | some self, .pushWakeup _ _ => self.supportsMwait = true → self.stage.dozing = true → Alerted self
  | some self, .pushNewTask _ _ _ => self.supportsMwait = true → self.stage.dozing = true → Alerted self
  | _, _ => True

/-! What holds from the announcement on. -/

structure Watchful (state : State) : Prop where
  alerted : state.supportsMwait = true → state.stage.dozing = true → HoldsWork state → Alerted state
  flag : state.supportsMwait = false → state.stage.dozing = true →
    state.hlt = true ∨ Alerted state ∨ ∃ call, state.senders call = .sending
  interrupt : state.supportsMwait = false → state.stage.dozing = true → HoldsWork state → Alerted state ∨ Coming state

variable {self : State} {call : Nat}

theorem watchful_awake (awake : self.stage.dozing = false) : Watchful self := by
  have never (dozing : self.stage.dozing = true) : False := Bool.false_ne_true (awake.symm.trans dozing)
  exact ⟨fun _ dozing => (never dozing).elim, fun _ dozing => (never dozing).elim, fun _ dozing => (never dozing).elim⟩

theorem Watchful.noticed (watchful : Watchful self) : Noticed self := by
  intro stopped work
  have dozing : self.stage.dozing = true := by rw [stopped]; rfl
  cases mwait : self.supportsMwait with
  | true => exact .inl (watchful.alerted mwait dozing work)
  | false =>
    rcases watchful.interrupt mwait dozing work with alerted | coming
    · exact .inl alerted
    · exact .inr (.inr coming)

theorem watchful_alerted (alerted : Alerted self) : Watchful self :=
  ⟨fun _ _ _ => alerted, fun _ _ => .inr (.inl alerted), fun _ _ _ => .inl alerted⟩

theorem watchful_monitor (mwait : self.supportsMwait = true) (timely : HoldsWork self → Alerted self) :
    Watchful { self with stage := .monitoring, lineWritten := false } :=
  ⟨fun _ _ => timely, fun hlt => (Bool.false_ne_true (hlt.symm.trans mwait)).elim,
    fun hlt => (Bool.false_ne_true (hlt.symm.trans mwait)).elim⟩

theorem watchful_storeHlt (hlt : self.supportsMwait = false)
    (timely : HoldsWork self → Alerted self ∨ ∃ call, self.senders call ≠ .outside) :
    Watchful { self with stage := .flagged, hlt := true } := by
  refine ⟨fun mwait => (Bool.false_ne_true (hlt.symm.trans mwait)).elim, fun _ _ => .inl rfl, ?_⟩
  intro _ _ work
  rcases timely work with alerted | ⟨call, inside⟩
  · exact .inl alerted
  · right
    use call
    cases sender : self.senders call with
    | outside => exact absurd sender inside
    | pushed => exact .inr ⟨rfl, hlt, rfl⟩
    | sending => exact .inl rfl

theorem still_sending {senders : Nat → Sender} {other : Nat} (sending : senders other = .sending)
    (elsewhere : senders call ≠ .sending) (sender : Sender) : update senders call sender other = .sending := by
  have apart : other ≠ call := by
    rintro rfl
    exact elsewhere sending
  rw [update_of_ne apart]
  exact sending

section Operations
variable {self : State} (watchful : Watchful self)

include watchful

theorem Watchful.stop (dozing : self.stage.dozing = true) : Watchful { self with stage := .stopped } :=
  ⟨fun mwait _ => watchful.alerted mwait dozing, fun hlt _ => watchful.flag hlt dozing,
    fun hlt _ => watchful.interrupt hlt dozing⟩

theorem Watchful.push (outside : self.senders call = .outside) (scheduler : PerCoreScheduler)
    (timely : self.supportsMwait = true → self.stage.dozing = true → Alerted self) : Watchful (self.push call scheduler) := by
  have elsewhere : self.senders call ≠ .sending := by
    rw [outside]
    exact Sender.noConfusion
  refine ⟨fun mwait dozing _ => timely mwait dozing, ?_, ?_⟩
  · intro hlt dozing
    rcases watchful.flag hlt dozing with set | alerted | ⟨other, sending⟩
    · exact .inl set
    · exact .inr (.inl alerted)
    · exact .inr (.inr ⟨other, still_sending sending elsewhere .pushed⟩)
  · intro hlt dozing _
    rcases watchful.flag hlt dozing with set | alerted | ⟨other, sending⟩
    · exact .inr ⟨call, .inr ⟨update_self _ _ _, hlt, set⟩⟩
    · exact .inl alerted
    · exact .inr ⟨other, .inl (still_sending sending elsewhere .pushed)⟩

theorem Watchful.takeCoreHltState (call : Nat) : Watchful (self.takeCoreHltState call) := by
  unfold State.takeCoreHltState
  split
  · rename_i pushed
    have elsewhere : self.senders call ≠ .sending := by
      rw [pushed]
      exact Sender.noConfusion
    split
    · rename_i both
      have sends : update self.senders call .sending call = .sending := update_self _ _ _
      exact ⟨fun mwait => (Bool.false_ne_true (both.1.symm.trans mwait)).elim, fun _ _ => .inr (.inr ⟨call, sends⟩),
        fun _ _ _ => .inr ⟨call, .inl sends⟩⟩
    · rename_i notBoth
      refine ⟨watchful.alerted, ?_, ?_⟩
      · intro hlt dozing
        rcases watchful.flag hlt dozing with set | alerted | ⟨other, sending⟩
        · exact .inl set
        · exact .inr (.inl alerted)
        · exact .inr (.inr ⟨other, still_sending sending elsewhere .outside⟩)
      · intro hlt dozing work
        rcases watchful.interrupt hlt dozing work with alerted | ⟨other, sending | ⟨-, both⟩⟩
        · exact .inl alerted
        · exact .inr ⟨other, .inl (still_sending sending elsewhere .outside)⟩
        · exact absurd both notBoth
  · exact watchful

variable {next : State}

theorem Watchful.work {operation : Placement.CoreOperation} (ran : self.work operation = some next) :
    Watchful next := by
  have working (operation : Placement.CoreOperation) (ran : (if self.stage = .running ∨ self.stage = .disabled then
      (Placement.CoreOperation.perform self.scheduler operation).map (self.update · self.stage) else some self) = some next) :
      Watchful next := by
    split at ran
    · rename_i awake
      obtain ⟨scheduler, -, rfl⟩ := map_eq_some_iff.mp ran
      apply watchful_awake
      rcases awake with running | disabled
      · rw [running]
        rfl
      · rw [disabled]
        rfl
    · rwa [← some.inj ran]
  cases operation with
  | remoteSpawn tid prio | remoteWakeup task => rwa [← some.inj ran]
  | _ => exact working _ ran

theorem Watchful.checkInput {ticks : Nat} {completed : Bool}
    (ran : self.checkInput ticks completed = some next) : Watchful next := by
  unfold State.checkInput at ran
  split at ran
  · obtain ⟨scheduler, -, rfl⟩ := map_eq_some_iff.mp ran
    apply watchful_awake
    change Stage.dozing (if _ then _ else _) = false
    split <;> rfl
  · rwa [← some.inj ran]

theorem Watchful.wakeupHandler {ticks : Nat} (ran : self.wakeupHandler ticks = some next) :
    Watchful next := by
  unfold State.wakeupHandler at ran
  split at ran
  · obtain ⟨scheduler, -, rfl⟩ := map_eq_some_iff.mp ran
    exact watchful_awake rfl
  · rwa [← some.inj ran]

theorem Watchful.pushNewTask {tid : TaskId} {prio : Priority}
    (timely : self.supportsMwait = true → self.stage.dozing = true → Alerted self)
    (ran : self.pushNewTask call tid prio = some next) : Watchful next := by
  unfold State.pushNewTask at ran
  split at ran
  · rename_i outside
    obtain ⟨scheduler, -, rfl⟩ := map_eq_some_iff.mp ran
    exact watchful.push outside scheduler timely
  · rwa [← some.inj ran]

theorem Watchful.ite {condition : Prop} [Decidable condition] (changed : condition → Watchful next) :
    Watchful (if condition then next else self) := by
  by_cases holds : condition
  · rw [if_pos holds]
    exact changed holds
  · rwa [if_neg holds]

theorem Watchful.perform {operation : Operation} (timely : Timely (some self) operation)
    (ran : Idle.perform self operation = some next) : Watchful next := by
  cases operation with
  | work operation => exact watchful.work ran
  | checkInput ticks completed => exact watchful.checkInput ran
  | wakeupHandler ticks => exact watchful.wakeupHandler ran
  | pushNewTask call tid prio => exact watchful.pushNewTask timely ran
  | disable | resume | otherHandler =>
    cases ran
    exact watchful.ite fun _ => watchful_awake rfl
  | monitor =>
    cases ran
    exact watchful.ite fun here => watchful_monitor here.2 (timely here.2 here.1)
  | mwait | hlt =>
    cases ran
    exact watchful.ite fun here => watchful.stop (by rw [here]; rfl)
  | storeHlt =>
    cases ran
    exact watchful.ite fun here => watchful_storeHlt here.2 (timely here.2 here.1)
  | interrupt =>
    cases ran
    exact watchful_alerted (.inr rfl)
  | pushWakeup call task =>
    cases ran
    exact watchful.ite fun here => watchful.push here.2 _ timely
  | takeCoreHltState call =>
    cases ran
    exact watchful.takeCoreHltState call
  | sendWakeup call =>
    cases ran
    exact watchful.ite fun _ => watchful_alerted (.inl rfl)

end Operations

/-- A core that stops only when idle or about to be interrupted is told of its input. -/
theorem wakeups_noticed (supportsMwait : Bool) (core : CoreId) (tid : TaskId) (operations : List Operation)
    (timely : Guarded step Timely (some (State.boot supportsMwait core tid)) operations) (self : State)
    (reached : operations.foldl step (some (State.boot supportsMwait core tid)) = some self) : Noticed self := by
  have watchful : Watchful self := timely.preserves
    (ifAny_attempt fun _ _ _ watchful timely ran => watchful.perform timely ran)
    (ifAny_some (watchful_awake rfl)) self reached
  exact watchful.noticed

theorem wakeups_noticed_halted :
    ∃ self, [.disable, .checkInput 0 true, .storeHlt, .hlt, .pushNewTask 1 7 2, .takeCoreHltState 1,
        .sendWakeup 1].foldl step (some (State.boot false 0 0)) = some self ∧
      self.stage = .stopped ∧ self.scheduler.input.newTasks = [⟨7, 2, 0⟩] ∧ self.wakeupPending = true ∧ Noticed self := by
  refine ⟨_, rfl, rfl, rfl, rfl, wakeups_noticed false 0 0 [.disable, .checkInput 0 true, .storeHlt, .hlt,
    .pushNewTask 1 7 2, .takeCoreHltState 1, .sendWakeup 1] ?_ _ rfl⟩
  refine ⟨trivial, trivial, ?_, trivial, ?_, trivial, trivial, trivial⟩
  · intro _ _ work
    exact absurd work (by rintro (wakeups | newTasks) <;> contradiction)
  · intro mwait
    exact absurd mwait Bool.false_ne_true

theorem not_noticed (stopped : self.stage = .stopped) (work : HoldsWork self)
    (wakeup : self.wakeupPending = false) (other : self.otherPending = false)
    (line : self.lineWritten = false) {sender : Sender}
    (outside : self.senders = update (update (fun _ => .outside) call sender) call .outside) :
    ¬ Noticed self := by
  intro noticed
  rw [update_idem, update_eq_self] at outside
  rcases noticed stopped work with (pending | pending) | ⟨-, written⟩ | ⟨caller, sending | ⟨pushed, -⟩⟩
  · exact Bool.false_ne_true (wakeup.symm.trans pending)
  · exact Bool.false_ne_true (other.symm.trans pending)
  · exact Bool.false_ne_true (line.symm.trans written)
  · rw [outside] at sending
    cases sending
  · rw [outside] at pushed
    cases pushed

theorem wakeup_lost :
    (∃ self, [.disable, .checkInput 0 true, .pushNewTask 1 7 2, .takeCoreHltState 1, .storeHlt, .hlt].foldl step
        (some (State.boot false 0 0)) = some self ∧ ¬ Noticed self) ∧
      ∃ self, [.disable, .checkInput 0 true, .monitor, .mwait, .pushNewTask 1 7 2, .takeCoreHltState 1].foldl step
        (some (State.boot true 0 0)) = some self ∧ ¬ Noticed self := by
  constructor
  · refine ⟨_, rfl, not_noticed rfl (.inr (List.cons_ne_nil _ _)) rfl rfl rfl rfl⟩
  · refine ⟨_, rfl, not_noticed rfl (.inr (List.cons_ne_nil _ _)) rfl rfl rfl rfl⟩

end HermitLocal.Scheduler.Idle
