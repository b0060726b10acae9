import HermitLocal.Usb.TrbRing

/-! Commands and their completions. The controller completes the commands of its ring in order, at any
time; a call of `submit_command` takes the first completion that it sees for its own. -/

namespace HermitLocal.Usb.Commands
open Lib.Simulation Usb.Events Usb.TrbRing List

inductive Emission where
  | complete (code : UInt8)
  | other (event : Trb)

def completionFor (code : UInt8) (addr : UInt64) : Trb := ⟨addr, code.toUInt32 <<< 24, COMMAND_COMPLETION.toUInt32 <<< 10⟩

def emit : List Emission → List UInt64 → List Trb × List UInt64
  | [], waiting => ([], waiting)
  | .complete _ :: rest, [] => emit rest []
  | .complete code :: rest, addr :: waiting =>
      (completionFor code addr :: (emit rest waiting).1, (emit rest waiting).2)
  | .other event :: rest, waiting =>
      (if isCompletion event then (emit rest waiting).1 else event :: (emit rest waiting).1, (emit rest waiting).2)

def waitingAfter (timing : Nat → List Emission) (waiting : List UInt64) : Nat → List UInt64
  | 0 => waiting
  | rounds + 1 => (emit (timing rounds) (waitingAfter timing waiting rounds)).2

def hardware (timing : Nat → List Emission) (usbsts : Nat → UInt32) (waiting : List UInt64) : Hardware :=
  ⟨fun loopCounter => (emit (timing (loopCounter - 1)) (waitingAfter timing waiting (loopCounter - 1))).1, usbsts⟩

structure Session where
  ring : Ring
  ctrl : XhciCtrl
  issued : List UInt64
  answers : List (UInt64 × Trb)

def Session.uncompleted (session : Session) : List UInt64 :=
  session.issued.drop ((session.ctrl.arrived ++ session.ctrl.ring).filter isCompletion).length

def completionOf : Except UsbError Trb × XhciCtrl → Option Trb
  | (.ok trb, _) => some trb
  | (.error (.cmdFail _), ctrl) => ctrl.arrived.getLast?
  | (.error _, _) => none

inductive Input where
  | idle (emissions : List Emission)
  | submitCommand (trb : Trb) (timing : Nat → List Emission) (usbsts : Nat → UInt32)

def Session.step (session : Session) : Input → Session
  | .idle emissions => { session with ctrl := session.ctrl.produce (emit emissions session.uncompleted).1 }
  | .submitCommand trb timing usbsts =>
      let addr := (session.ring.enqueue trb).1
      let result := submitCommand trb (hardware timing usbsts (session.uncompleted ++ [addr])) session.ctrl
      ⟨(session.ring.enqueue trb).2, result.2, session.issued ++ [addr],
        (completionOf result).toList.map (addr, ·) ++ session.answers⟩

def powerOn (ring : Ring) : Session := ⟨ring, ⟨[], [], [], []⟩, [], []⟩

def Paired (session : Session) : Prop := ∀ pair ∈ session.answers, pair.2.param = pair.1

def Settled (session : Session) : Input → Prop
  | .idle _ => True
  | .submitCommand _ _ _ => session.uncompleted = [] ∧ ∀ event ∈ session.ctrl.ring, isCompletion event = false

def About (addr : UInt64) (events : List Trb) : Prop := ∀ event ∈ events, isCompletion event = true → event.param = addr

variable {addr : UInt64}

theorem emit_about (emissions : List Emission) {waiting : List UInt64} (only : waiting = [addr] ∨ waiting = []) :
    About addr (emit emissions waiting).1 ∧ ((emit emissions waiting).2 = [addr] ∨ (emit emissions waiting).2 = []) := by
  induction emissions generalizing waiting with
  | nil =>
    refine ⟨?_, only⟩
    intro event impossible
    cases impossible
  | cons emission rest ih =>
    cases emission with
    | complete code =>
      rcases only with rfl | rfl
      · obtain ⟨about, left⟩ := ih (.inr rfl)
        refine ⟨?_, left⟩
        intro event inside completion
        rcases mem_cons.mp inside with rfl | later
        · rfl
        · exact about event later completion
      · exact ih (.inr rfl)
    | other foreign =>
      obtain ⟨about, left⟩ := ih only
      refine ⟨?_, left⟩
      intro event inside completion
      unfold emit at inside
      dsimp only at inside
      by_cases dropped : isCompletion foreign = true
      · rw [if_pos dropped] at inside
        exact about event inside completion
      · rw [if_neg dropped] at inside
        rcases mem_cons.mp inside with rfl | later
        · exact absurd completion dropped
        · exact about event later completion

theorem hardware_about (timing : Nat → List Emission) (usbsts : Nat → UInt32) (loopCounter : Nat) :
    About addr ((hardware timing usbsts [addr]).arrivals loopCounter) := by
  have only : ∀ rounds, waitingAfter timing [addr] rounds = [addr] ∨ waitingAfter timing [addr] rounds = [] := by
    intro rounds
    induction rounds with
    | zero => exact .inl rfl
    | succ rounds ih => exact (emit_about (timing rounds) ih).2
  exact (emit_about _ (only _)).1

theorem waitLoop_answer {device : Hardware} (arrivals : ∀ loopCounter, About addr (device.arrivals loopCounter))
    (left loopCounter : Nat) (ctrl : XhciCtrl) (ring : About addr ctrl.ring) :
    ∀ trb ∈ completionOf (waitLoop device left loopCounter ctrl), trb.param = addr := by
  induction left generalizing loopCounter ctrl with
  | zero =>
    intro trb impossible
    cases impossible
  | succ left ih =>
    unfold waitLoop
    split
    · intro trb impossible
      cases impossible
    · have all : About addr (ctrl.ring ++ device.arrivals loopCounter) := by
        intro event inside
        rcases mem_append.mp inside with old | new
        · exact ring event old
        · exact arrivals loopCounter event new
      cases looked : ctrl.ring ++ device.arrivals loopCounter with
      | nil =>
        rw [pollRawEvent_empty looked]
        apply ih
        intro event inside
        rw [show (ctrl.produce (device.arrivals loopCounter)).ring = _ from looked] at inside
        cases inside
      | cons first rest =>
        rw [looked] at all
        rw [pollRawEvent_head looked]
        by_cases completion : first.trbType = COMMAND_COMPLETION
        · have mine : first.param = addr := all first mem_cons_self (by rw [isCompletion, completion]; rfl)
          dsimp only
          rw [if_pos completion]
          split
          · intro trb last
            change trb ∈ (_ ++ [first]).getLast? at last
            rw [getLast?_concat] at last
            cases last
            exact mine
          · intro trb returned
            cases returned
            exact mine
        · dsimp only
          rw [if_neg completion]
          apply ih
          intro event inside
          exact all event (mem_cons_of_mem _ inside)

theorem paired_step (session : Session) (input : Input) (paired : Paired session) (settled : Settled session input) :
    Paired (session.step input) := by
  cases input with
  | idle emissions => exact paired
  | submitCommand trb timing usbsts =>
    obtain ⟨completed, quiet⟩ := settled
    unfold Session.step
    rw [completed]
    intro pair inside
    rcases mem_append.mp inside with new | old
    · obtain ⟨completion, answer, rfl⟩ := mem_map.mp new
      apply waitLoop_answer (hardware_about timing usbsts) WAIT_COMMAND_LOOPS 1 _ _ completion (Option.mem_toList.mp answer)
      intro event inside completion
      rw [quiet event inside] at completion
      cases completion
    · exact paired pair old

/-- Commands that are submitted settled are answered by their own completion. -/
theorem completion_answers_command (ring : Ring) (inputs : List Input)
    (settled : Guarded Session.step Settled (powerOn ring) inputs) : Paired (inputs.foldl Session.step (powerOn ring)) := by
  apply settled.preserves paired_step
  intro pair impossible
  cases impossible

def commandRing : Ring := Ring.new 0x1000 256 (by decide) (by decide)

def enableSlot : Trb := ⟨0, 0, 0x2400⟩

def atOnce (rounds : Nat) : List Emission := if rounds = 0 then [.complete SUCCESS] else []

theorem completion_answers_command_twice :
    Paired ([Input.submitCommand enableSlot atOnce fun _ => 0, .submitCommand enableSlot atOnce fun _ => 0].foldl Session.step
      (powerOn commandRing)) := by
  apply completion_answers_command
  refine ⟨⟨rfl, ?_⟩, ⟨by decide +kernel, by decide +kernel⟩, trivial⟩
  intro event impossible
  cases impossible

theorem waitLoop_silent (device : Hardware)
    (silent : ∀ loopCounter, device.arrivals loopCounter = [] ∧ device.usbsts loopCounter = 0)
    (left loopCounter : Nat) {ctrl : XhciCtrl} (empty : ctrl.ring = []) :
    waitLoop device left loopCounter ctrl = (.error (.timeout "wait_command waiting for xHC command completion"), ctrl) := by
  induction left generalizing loopCounter with
  | zero => rfl
  | succ left ih =>
    obtain ⟨nothing, fine⟩ := silent loopCounter
    have same : ctrl.produce (device.arrivals loopCounter) = ctrl := by
      rw [nothing, XhciCtrl.produce, append_nil]
    unfold waitLoop
    rw [fine, if_neg (by rintro ⟨_, failed⟩; exact failed rfl), same, pollRawEvent_empty empty]
    exact ih (loopCounter + 1)

def timedOut : Session := (powerOn commandRing).step (.submitCommand enableSlot (fun _ => []) fun _ => 0)

theorem timedOut_eq : timedOut = ⟨(commandRing.enqueue enableSlot).2, ⟨[], [], [enableSlot], []⟩, [0x1000], []⟩ := by
  have addr : (commandRing.enqueue enableSlot).1 = 0x1000 := by decide +kernel
  have waited : submitCommand enableSlot (hardware (fun _ => []) (fun _ => 0) [0x1000]) ⟨[], [], [], []⟩ =
      (.error (.timeout "wait_command waiting for xHC command completion"), ⟨[], [], [enableSlot], []⟩) := by
    unfold submitCommand waitCommand
    exact waitLoop_silent _ (fun loopCounter => ⟨rfl, rfl⟩) WAIT_COMMAND_LOOPS 1 rfl
  unfold timedOut Session.step powerOn
  dsimp only
  rw [addr, show (Session.mk commandRing ⟨[], [], [], []⟩ [] []).uncompleted ++ [0x1000] = [0x1000] from rfl, waited]
  rfl

theorem late_completion_taken :
    (timedOut.step (.submitCommand enableSlot atOnce fun _ => 0)).answers.map (fun pair => (pair.1, pair.2.param)) =
      [(0x1010, 0x1000)] := by
  rw [timedOut_eq]
  decide +kernel

end HermitLocal.Usb.Commands
