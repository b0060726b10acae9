import HermitLocal.Scheduler.PerCore

/-! Lazy switching of the FPU on one core: a context switch only raises a flag, and the registers change hands when the new
task first uses them. Seen from the tasks, each has registers of its own. -/

namespace HermitLocal.Scheduler.Fpu
open Lib.Simulation Scheduler.TaskQueues Scheduler.PerCore Function

structure FpuState (Registers Area : Type) where
  save : Registers → Area → Area × Registers
  restore : Area → Registers
  restore_save : ∀ registers area, restore (save registers area).1 = registers

structure Core (Registers Area : Type) where
  currentTask : TaskId
  isIdle : Bool
  fpuOwner : TaskId
  taskSwitched : Bool
  registers : Registers
  lastFpuState : TaskId → Area

variable {Registers Area : Type}

namespace Core

def addCurrentCore (idleTask : TaskId) (registers : Registers) (new : Area) : Core Registers Area where
  currentTask := idleTask
  isIdle := true
  fpuOwner := idleTask
  taskSwitched := true
  registers := registers
  lastFpuState _ := new

def switchToTask (core : Core Registers Area) : Core Registers Area := { core with taskSwitched := true }

def switchToFpuOwner (core : Core Registers Area) : Core Registers Area := core

def switchTo (core : Core Registers Area) (self : PerCoreScheduler) : Core Registers Area :=
  let isIdle := decide (self.currentStatus = .Idle)
  let next := { core with currentTask := self.currentTask, isIdle := isIdle }
  if isIdle ∨ next.currentTask = next.fpuOwner then next.switchToFpuOwner else next.switchToTask

def reschedule (core : Core Registers Area) (scheduled : Option TaskId × PerCoreScheduler) : Core Registers Area :=
  if scheduled.1.isSome then core.switchTo scheduled.2 else core

def fpuSwitch (fpu : FpuState Registers Area) (core : Core Registers Area) : Core Registers Area :=
  if core.currentTask = core.fpuOwner then core
  else
    let saved := fpu.save core.registers (core.lastFpuState core.fpuOwner)
    let lastFpuState := update core.lastFpuState core.fpuOwner saved.1
    { core with
      lastFpuState := lastFpuState
      registers := fpu.restore (lastFpuState core.currentTask)
      fpuOwner := core.currentTask }

def deviceNotAvailableException (fpu : FpuState Registers Area) (core : Core Registers Area) : Core Registers Area :=
  fpuSwitch fpu { core with taskSwitched := false }

def access (fpu : FpuState Registers Area) (core : Core Registers Area) : Core Registers Area :=
  if core.taskSwitched then core.deviceNotAvailableException fpu else core

end Core

inductive Event (Registers : Type) where
  | reschedule (scheduled : Option TaskId × PerCoreScheduler)
  | trap
  | read
  | write (change : Registers → Registers)

def lazySwitching (fpu : FpuState Registers Area) : Machine (Core Registers Area) (Event Registers) (Option Registers) where
  step core
    | .reschedule scheduled => (none, core.reschedule scheduled)
    | .trap => (none, core.deviceNotAvailableException fpu)
    | .read => if core.isIdle then (none, core) else (some (core.access fpu).registers, core.access fpu)
    | .write change =>
      if core.isIdle then (none, core)
      else (none, { core.access fpu with registers := change (core.access fpu).registers })

/-! What it is for: registers of each task's own. -/

structure Files (Registers : Type) where
  currentTask : TaskId
  isIdle : Bool
  registers : TaskId → Registers

def ownRegisters : Machine (Files Registers) (Event Registers) (Option Registers) where
  step files
    | .reschedule scheduled =>
      (none, if scheduled.1.isSome then
        { files with currentTask := scheduled.2.currentTask, isIdle := decide (scheduled.2.currentStatus = .Idle) } else files)
    | .trap => (none, files)
    | .read => if files.isIdle then (none, files) else (some (files.registers files.currentTask), files)
    | .write change =>
      if files.isIdle then (none, files)
      else
        let written := change (files.registers files.currentTask)
        (none, { files with registers := update files.registers files.currentTask written })

structure Placed (fpu : FpuState Registers Area) (core : Core Registers Area) (files : Files Registers) : Prop where
  currentTask : core.currentTask = files.currentTask
  isIdle : core.isIdle = files.isIdle
  owner : core.registers = files.registers core.fpuOwner
  others : ∀ task, task ≠ core.fpuOwner → fpu.restore (core.lastFpuState task) = files.registers task

structure Holds (fpu : FpuState Registers Area) (core : Core Registers Area) (files : Files Registers) : Prop
    extends Placed fpu core files where
  clear : core.taskSwitched = false → core.isIdle = false → core.currentTask = core.fpuOwner

section Steps
variable {fpu : FpuState Registers Area} {core : Core Registers Area} {files : Files Registers}

theorem fpuSwitch_owner : (core.fpuSwitch fpu).currentTask = (core.fpuSwitch fpu).fpuOwner := by
  unfold Core.fpuSwitch
  split
  · assumption
  · rfl

theorem Placed.fpuSwitch (now : Placed fpu core files) : Placed fpu (core.fpuSwitch fpu) files := by
  unfold Core.fpuSwitch
  by_cases same : core.currentTask = core.fpuOwner
  · rw [if_pos same]
    exact now
  · rw [if_neg same]
    refine ⟨now.currentTask, now.isIdle, ?_, ?_⟩
    · change fpu.restore (update core.lastFpuState core.fpuOwner _ core.currentTask) = files.registers core.currentTask
      rw [update_of_ne same]
      exact now.others core.currentTask same
    · -- The old owner is one of the others now, and what was saved for it are the values that it left.
      intro task other
      change fpu.restore (update core.lastFpuState core.fpuOwner _ task) = files.registers task
      by_cases last : task = core.fpuOwner
      · rw [last, update_self, fpu.restore_save, now.owner]
      · rw [update_of_ne last]
        exact now.others task last

theorem Holds.trap (now : Placed fpu core files) : Holds fpu (core.deviceNotAvailableException fpu) files := by
  have cleared : Placed fpu { core with taskSwitched := false } files := { now with }
  exact { cleared.fpuSwitch with clear := fun _ _ => fpuSwitch_owner }

theorem Holds.access (now : Holds fpu core files) (busy : core.isIdle = false) :
    Holds fpu (core.access fpu) files ∧ (core.access fpu).fpuOwner = files.currentTask := by
  unfold Core.access
  by_cases switched : core.taskSwitched = true
  · rw [if_pos switched]
    have after := Holds.trap now.toPlaced
    exact ⟨after, fpuSwitch_owner.symm.trans after.currentTask⟩
  · rw [if_neg switched]
    exact ⟨now, (now.clear (Bool.eq_false_of_not_eq_true switched) busy).symm.trans now.currentTask⟩

theorem Holds.switchTo (now : Holds fpu core files) (self : PerCoreScheduler) : Holds fpu (core.switchTo self)
      { files with currentTask := self.currentTask, isIdle := decide (self.currentStatus = .Idle) } := by
  unfold Core.switchTo
  by_cases keeps : decide (self.currentStatus = .Idle) = true ∨ self.currentTask = core.fpuOwner
  · rw [if_pos keeps]
    refine ⟨⟨rfl, rfl, now.owner, now.others⟩, fun _ busy => ?_⟩
    change decide (self.currentStatus = .Idle) = false at busy
    exact keeps.resolve_left (by rw [busy]; exact Bool.false_ne_true)
  · rw [if_neg keeps]
    exact ⟨⟨rfl, rfl, now.owner, now.others⟩, fun clear => absurd clear (by simp [Core.switchToTask])⟩

end Steps

theorem lazySwitching_refines (fpu : FpuState Registers Area) : Refines (lazySwitching fpu) ownRegisters (Holds fpu) where
  output := by
    intro core files event now
    cases event with
    | reschedule scheduled => rfl
    | trap => rfl
    | read =>
      change (if core.isIdle then (none, core) else _).1 = (if files.isIdle then (none, files) else _).1
      by_cases idle : core.isIdle = true
      · rw [if_pos idle, if_pos (now.isIdle ▸ idle)]
      · obtain ⟨after, owner⟩ := now.access (Bool.eq_false_of_not_eq_true idle)
        rw [if_neg idle, if_neg (now.isIdle ▸ idle)]
        exact congrArg some (after.owner.trans (by rw [owner]))
    | write change =>
      change (if core.isIdle then (none, core) else _).1 = (if files.isIdle then (none, files) else _).1
      split <;> split <;> rfl
  next := by
    intro core files event now
    cases event with
    | reschedule scheduled =>
      change Holds fpu (core.reschedule scheduled) (if scheduled.1.isSome then _ else _)
      unfold Core.reschedule
      split
      · exact now.switchTo scheduled.2
      · exact now
    | trap => exact Holds.trap now.toPlaced
    | read =>
      change Holds fpu (if core.isIdle then (none, core) else _).2 (if files.isIdle then (none, files) else _).2
      by_cases idle : core.isIdle = true
      · rw [if_pos idle, if_pos (now.isIdle ▸ idle)]
        exact now
      · rw [if_neg idle, if_neg (now.isIdle ▸ idle)]
        exact (now.access (Bool.eq_false_of_not_eq_true idle)).1
    | write change =>
      change Holds fpu (if core.isIdle then (none, core) else _).2 (if files.isIdle then (none, files) else _).2
      by_cases idle : core.isIdle = true
      · rw [if_pos idle, if_pos (now.isIdle ▸ idle)]
        exact now
      · obtain ⟨after, owner⟩ := now.access (Bool.eq_false_of_not_eq_true idle)
        rw [if_neg idle, if_neg (now.isIdle ▸ idle)]
        refine ⟨⟨after.currentTask, after.isIdle, ?_, ?_⟩, after.clear⟩
        · change change (core.access fpu).registers = update files.registers files.currentTask _ (core.access fpu).fpuOwner
          rw [owner, update_self, after.owner, owner]
        · intro task other
          change fpu.restore ((core.access fpu).lastFpuState task) = update files.registers files.currentTask _ task
          rw [update_of_ne (owner ▸ other)]
          exact after.others task other

def newFiles (fpu : FpuState Registers Area) (idleTask : TaskId) (registers : Registers) (new : Area) : Files Registers where
  currentTask := idleTask
  isIdle := true
  registers := update (fun _ => fpu.restore new) idleTask registers

/-- Each task reads what it has written, as if it had registers of its own. -/
theorem lazy_switching_isolates (fpu : FpuState Registers Area) (idleTask : TaskId) (registers : Registers) (new : Area)
    (events : List (Event Registers)) :
    (lazySwitching fpu).trace (.addCurrentCore idleTask registers new) events =
        ownRegisters.trace (newFiles fpu idleTask registers new) events ∧
      let core := (lazySwitching fpu).final (.addCurrentCore idleTask registers new) events
      let files := ownRegisters.final (newFiles fpu idleTask registers new) events
      (core.taskSwitched = false → core.isIdle = false → core.currentTask = core.fpuOwner) ∧
        core.registers = files.registers core.fpuOwner ∧
        ∀ task, task ≠ core.fpuOwner → fpu.restore (core.lastFpuState task) = files.registers task := by
  have start : Holds fpu (.addCurrentCore idleTask registers new) (newFiles fpu idleTask registers new) := by
    refine ⟨⟨rfl, rfl, ?_, ?_⟩, fun clear => absurd clear (by simp [Core.addCurrentCore])⟩
    · change registers = update (fun _ => fpu.restore new) idleTask registers idleTask
      rw [update_self]
    · intro task other
      change task ≠ idleTask at other
      change fpu.restore new = update (fun _ => fpu.restore new) idleTask registers task
      rw [update_of_ne other]
  have last := (lazySwitching_refines fpu).final events start
  exact ⟨(lazySwitching_refines fpu).trace events start, last.clear, last.owner, last.others⟩

def xsavec : FpuState UInt64 (Bool × UInt64) where
  save registers area := ((registers != 0, if registers = 0 then area.2 else registers), registers)
  restore area := if area.1 then area.2 else 0
  restore_save registers area := by
    by_cases initial : registers = 0
    · rw [initial]
      rfl
    · simp only [bne_iff_ne, ne_eq, initial, not_false_eq_true, if_true, if_false]

def dispatched (task : TaskId) : Event UInt64 :=
  .reschedule (some 0, { addCurrentCore 0 0 with
    toBlocking := .new fun _ => ⟨.Running, 2, 0⟩, currentTask := task })

def thereAndBack : List (Event UInt64) :=
  [dispatched 1, .write fun _ => 11, dispatched 2, .trap, .write fun _ => 22, dispatched 1, .read]

theorem lazy_switching_isolates_back :
    (lazySwitching xsavec).trace (.addCurrentCore 0 0 (false, 0)) thereAndBack =
        [none, none, none, none, none, none, some 11] ∧
      xsavec.restore (((lazySwitching xsavec).final (.addCurrentCore 0 0 (false, 0)) thereAndBack).lastFpuState 2) = 22 := by
  obtain ⟨answers, -, -, others⟩ := lazy_switching_isolates xsavec 0 0 (false, 0) thereAndBack
  constructor
  · exact answers
  · exact others 2 (by decide)

end HermitLocal.Scheduler.Fpu
