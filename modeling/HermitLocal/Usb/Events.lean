import HermitLocal.Lib.Simulation
import Mathlib.Data.List.Perm.Basic

/-! The event ring of the xHCI controller and the queue of pending events beside it.
Consumers share the ring: a poll leaves what is not its own in the queue, while a wait
for a command leaves it nowhere. -/

namespace HermitLocal.Usb.Events
open Lib.Simulation List

structure Trb where
  param : UInt64
  status : UInt32
  control : UInt32
deriving DecidableEq, Repr

namespace Trb

def trbType (trb : Trb) : UInt8 := ((trb.control >>> 10) &&& 0x3f).toUInt8

def completionCode (trb : Trb) : UInt8 := ((trb.status >>> 24) &&& 0xff).toUInt8

def slotId (trb : Trb) : UInt8 := ((trb.control >>> 24) &&& 0xff).toUInt8

def endpointId (trb : Trb) : UInt8 := ((trb.control >>> 16) &&& 0x1f).toUInt8

def transferLength (trb : Trb) : Nat := (trb.status &&& 0x1ffff).toNat

end Trb

def TRANSFER_EVENT : UInt8 := 32
def COMMAND_COMPLETION : UInt8 := 33
def SUCCESS : UInt8 := 1
def SHORT_PACKET : UInt8 := 13
def USBSTS_HSE : UInt32 := 4
def WAIT_COMMAND_LOOPS : Nat := 250000

inductive UsbError where
  | cmdFail (code : UInt8)
  | xferFail (code : UInt8)
  | timeout (what : String)
  | ooRam
  | stall
  | invEndpoint
deriving DecidableEq, Repr

def transferEvent (slotId endpointId code : UInt8) (residue : UInt32) : Trb :=
  ⟨0, code.toUInt32 <<< 24 ||| (residue &&& 0x1ffff),
    slotId.toUInt32 <<< 24 ||| endpointId.toUInt32 <<< 16 ||| TRANSFER_EVENT.toUInt32 <<< 10⟩

structure XhciCtrl where
  ring : List Trb
  pending : List Trb
  commands : List Trb
  arrived : List Trb

namespace XhciCtrl

def produce (ctrl : XhciCtrl) (events : List Trb) : XhciCtrl := { ctrl with ring := ctrl.ring ++ events }

def pollRawEvent (ctrl : XhciCtrl) : Option Trb × XhciCtrl :=
  match ctrl.ring with
  | [] => (none, ctrl)
  | trb :: rest => (some trb, { ctrl with ring := rest, arrived := ctrl.arrived ++ [trb] })

def pushPendingEvent (ctrl : XhciCtrl) (trb : Trb) : XhciCtrl :=
  { ctrl with pending := ctrl.pending ++ [trb], arrived := ctrl.arrived ++ [trb] }

def pollEvent (ctrl : XhciCtrl) : Option Trb × XhciCtrl :=
  match ctrl.pending with
  | trb :: rest => (some trb, { ctrl with pending := rest })
  | [] => ctrl.pollRawEvent

def pollRing (accepts : Trb → Bool) : List Trb → XhciCtrl → Option Trb × XhciCtrl
  | [], ctrl => (none, { ctrl with ring := [] })
  | trb :: rest, ctrl =>
      let next := { ctrl with ring := rest, arrived := ctrl.arrived ++ [trb] }
      if accepts trb then (some trb, next)
      else pollRing accepts rest { next with pending := next.pending ++ [trb] }

def pollEventMatching (ctrl : XhciCtrl) (accepts : Trb → Bool) : Option Trb × XhciCtrl :=
  match ctrl.pending.find? accepts with
  | some trb => (some trb, { ctrl with pending := ctrl.pending.eraseP accepts })
  | none => pollRing accepts ctrl.ring ctrl

end XhciCtrl

structure Hardware where
  arrivals : Nat → List Trb
  usbsts : Nat → UInt32

def waitLoop (hardware : Hardware) : Nat → Nat → XhciCtrl → Except UsbError Trb × XhciCtrl
  | 0, _, ctrl => (.error (.timeout "wait_command waiting for xHC command completion"), ctrl)
  | left + 1, loopCounter, ctrl =>
      if loopCounter % 100000 = 0 ∧ hardware.usbsts loopCounter &&& USBSTS_HSE ≠ 0 then
        (.error (.xferFail (hardware.usbsts loopCounter).toUInt8), ctrl)
      else
        match (ctrl.produce (hardware.arrivals loopCounter)).pollRawEvent with
        | (none, ctrl) => waitLoop hardware left (loopCounter + 1) ctrl
        | (some trb, ctrl) =>
          if trb.trbType = COMMAND_COMPLETION then
            if trb.completionCode ≠ SUCCESS then (.error (.cmdFail trb.completionCode), ctrl) else (.ok trb, ctrl)
          -- Port status changes, transfer events and all others: dequeued, and not kept.
          else waitLoop hardware left (loopCounter + 1) ctrl

def waitCommand (hardware : Hardware) (ctrl : XhciCtrl) : Except UsbError Trb × XhciCtrl :=
  waitLoop hardware WAIT_COMMAND_LOOPS 1 ctrl

def submitCommand (trb : Trb) (hardware : Hardware) (ctrl : XhciCtrl) : Except UsbError Trb × XhciCtrl :=
  waitCommand hardware { ctrl with commands := ctrl.commands ++ [trb] }

/-! Waiting for the event of a transfer. -/

def WAIT_TRANSFER_LOOPS : Nat := 200000000

def ofEndpoint (slotId endpointId : UInt8) (evt : Trb) : Bool :=
  evt.trbType == TRANSFER_EVENT && evt.slotId == slotId && evt.endpointId == endpointId

def judgeTransfer (requestedLen : Nat) (evt : Trb) : Option (Except UsbError Nat) :=
  if evt.completionCode = SUCCESS ∨ evt.completionCode = SHORT_PACKET then some (.ok (requestedLen - evt.transferLength))
  else some (.error (.xferFail evt.completionCode))

/-- The state that a wait polls; before each poll the device and the controller go on. -/
structure Watch (State : Type) where
  goOn : State → State
  ctrl : State → XhciCtrl
  setCtrl : State → XhciCtrl → State

/-- How a wait ends, and the events that it took. -/
structure Waited (State : Type) where
  result : Except UsbError Nat
  taken : List Trb
  state : State

/-- The loop of `wait_transfer` and `wait_transfer_event`: an event is judged, or passed over. -/
def pollLoop {State : Type} (watch : Watch State) (accepts : Trb → Bool) (judge : Trb → Option (Except UsbError Nat))
    (late : UsbError) : Nat → State → Waited State
  | 0, state => ⟨.error late, [], state⟩
  | left + 1, state =>
      match (watch.ctrl (watch.goOn state)).pollEventMatching accepts with
      | (none, ctrl) => pollLoop watch accepts judge late left (watch.setCtrl (watch.goOn state) ctrl)
      | (some evt, ctrl) =>
        match judge evt with
        | some result => ⟨result, [evt], watch.setCtrl (watch.goOn state) ctrl⟩
        | none =>
          let rest := pollLoop watch accepts judge late left (watch.setCtrl (watch.goOn state) ctrl)
          { rest with taken := evt :: rest.taken }

theorem pollLoop_keeps {State : Type} {watch : Watch State} {accepts : Trb → Bool}
    {judge : Trb → Option (Except UsbError Nat)} {late : UsbError} {holds : State → Prop}
    (goOn : ∀ state, holds state → holds (watch.goOn state))
    (setCtrl : ∀ state ctrl, holds state → holds (watch.setCtrl state ctrl)) (left : Nat) {state : State}
    (start : holds state) : holds (pollLoop watch accepts judge late left state).state := by
  induction left generalizing state with
  | zero => exact start
  | succ left ih =>
    have passed (ctrl : XhciCtrl) := setCtrl _ ctrl (goOn state start)
    rw [pollLoop]
    split
    next ctrl polled => exact ih (passed ctrl)
    next evt ctrl polled =>
      split
      · exact passed ctrl
      · exact ih (passed ctrl)

inductive Call where
  | produce (events : List Trb)
  | pollEventMatching (accepts : Trb → Bool)
  | pollEvent
  | pushPendingEvent (trb : Trb)
  | waitCommand (hardware : Hardware)
  | submitCommand (trb : Trb) (hardware : Hardware)

structure Session where
  ctrl : XhciCtrl
  returned : List ((Trb → Bool) × Trb)

def Session.hand (session : Session) (accepts : Trb → Bool) (result : Option Trb × XhciCtrl) : Session :=
  ⟨result.2, result.1.toList.map (accepts, ·) ++ session.returned⟩

def Session.step (session : Session) : Call → Session
  | .produce events => { session with ctrl := session.ctrl.produce events }
  | .pollEventMatching accepts => session.hand accepts (session.ctrl.pollEventMatching accepts)
  | .pollEvent => session.hand (fun _ => true) session.ctrl.pollEvent
  | .pushPendingEvent trb => { session with ctrl := session.ctrl.pushPendingEvent trb }
  | .waitCommand hardware => { session with ctrl := (Events.waitCommand hardware session.ctrl).2 }
  | .submitCommand trb hardware => { session with ctrl := (Events.submitCommand trb hardware session.ctrl).2 }

def powerOn : Session := ⟨⟨[], [], [], []⟩, []⟩

def isTransfer (trb : Trb) : Bool := trb.trbType == TRANSFER_EVENT

def isCompletion (trb : Trb) : Bool := trb.trbType == COMMAND_COMPLETION

structure Accounted (session : Session) : Prop where
  conserved : (session.ctrl.arrived.filter isTransfer).Perm
    ((session.returned.map Prod.snd ++ session.ctrl.pending).filter isTransfer)
  accepted : ∀ entry ∈ session.returned, entry.1 entry.2 = true
  ordered : session.ctrl.pending.Sublist session.ctrl.arrived

/-! One poll. -/

variable {ctrl : XhciCtrl}

theorem pollRawEvent_empty (empty : ctrl.ring = []) : ctrl.pollRawEvent = (none, ctrl) := by
  rw [XhciCtrl.pollRawEvent, empty]

theorem pollRawEvent_head {trb : Trb} {rest : List Trb} (head : ctrl.ring = trb :: rest) :
    ctrl.pollRawEvent = (some trb, { ctrl with ring := rest, arrived := ctrl.arrived ++ [trb] }) := by
  rw [XhciCtrl.pollRawEvent, head]

structure Keeps (accepts : Trb → Bool) (before : XhciCtrl) (result : Option Trb × XhciCtrl) : Prop where
  accepted : ∀ trb ∈ result.1, accepts trb = true
  arrived : ∃ dequeued, result.2.arrived = before.arrived ++ dequeued ∧
    (before.pending ++ dequeued).Perm (result.1.toList ++ result.2.pending) ∧
    result.2.pending.Sublist (before.pending ++ dequeued)

theorem pollRing_keeps (accepts : Trb → Bool) (ring : List Trb) (ctrl : XhciCtrl) :
    Keeps accepts ctrl (XhciCtrl.pollRing accepts ring ctrl) := by
  induction ring generalizing ctrl with
  | nil => exact ⟨by simp [XhciCtrl.pollRing], [], by simp [XhciCtrl.pollRing]⟩
  | cons trb rest ih =>
    rw [XhciCtrl.pollRing]
    by_cases accepted : accepts trb = true
    · rw [if_pos accepted]
      refine ⟨by simpa using accepted, [trb], rfl, ?_, sublist_append_left _ _⟩
      exact perm_append_comm
    · rw [if_neg accepted]
      obtain ⟨later, dequeued, arrived, conserved, ordered⟩ := ih { ctrl with
        ring := rest, arrived := ctrl.arrived ++ [trb], pending := ctrl.pending ++ [trb] }
      refine ⟨later, trb :: dequeued, ?_, ?_, ?_⟩
      · rw [arrived, append_assoc]
        rfl
      · rwa [append_assoc] at conserved
      · rwa [append_assoc] at ordered

theorem pollEventMatching_keeps (accepts : Trb → Bool) (ctrl : XhciCtrl) :
    Keeps accepts ctrl (ctrl.pollEventMatching accepts) := by
  rw [XhciCtrl.pollEventMatching]
  cases found : ctrl.pending.find? accepts with
  | none => exact pollRing_keeps accepts ctrl.ring ctrl
  | some trb =>
    obtain ⟨accepted, before, after, pending, rejected⟩ := find?_eq_some_iff_append.mp found
    have erased : ctrl.pending.eraseP accepts = before ++ after := by
      rw [pending, eraseP_append_right _ (by simpa using rejected), eraseP_cons_of_pos accepted]
    refine ⟨by simpa using accepted, [], by simp, ?_, ?_⟩
    · rw [append_nil]
      rw [erased, pending]
      exact perm_middle
    · rw [append_nil]
      exact eraseP_sublist

theorem pollEvent_keeps (ctrl : XhciCtrl) : Keeps (fun _ => true) ctrl ctrl.pollEvent := by
  rw [XhciCtrl.pollEvent]
  cases pending : ctrl.pending with
  | cons trb rest => exact ⟨by simp, [], by simp, by simp [pending], by simp [pending]⟩
  | nil =>
    rw [XhciCtrl.pollRawEvent]
    cases ctrl.ring with
    | nil => exact ⟨by simp, [], by simp, by simp, by simp⟩
    | cons trb rest => exact ⟨by simp, [trb], rfl, by simp [pending], by simp [pending]⟩

theorem accounted_hand {session : Session} (accounted : Accounted session) {accepts : Trb → Bool}
    {result : Option Trb × XhciCtrl} (keeps : Keeps accepts session.ctrl result) :
    Accounted (session.hand accepts result) := by
  obtain ⟨accepted, dequeued, arrived, conserved, ordered⟩ := keeps
  have handed : (result.1.toList.map (accepts, ·)).map Prod.snd = result.1.toList := by
    rw [map_map]
    exact map_id _
  constructor
  · -- The older events are accounted for, the dequeued ones are handed out or pending.
    rw [Session.hand, arrived, map_append, handed, append_assoc, filter_append]
    calc (session.ctrl.arrived.filter isTransfer ++ dequeued.filter isTransfer).Perm
          ((session.returned.map Prod.snd ++ session.ctrl.pending).filter isTransfer ++ dequeued.filter isTransfer) :=
        accounted.conserved.append_right _
      _ = (session.returned.map Prod.snd ++ (session.ctrl.pending ++ dequeued)).filter isTransfer := by
        rw [← filter_append, append_assoc]
      List.Perm _ ((session.returned.map Prod.snd ++ (result.1.toList ++ result.2.pending)).filter isTransfer) :=
        (conserved.append_left _).filter _
      List.Perm _ ((result.1.toList ++ (session.returned.map Prod.snd ++ result.2.pending)).filter isTransfer) := by
        apply List.Perm.filter
        rw [← append_assoc, ← append_assoc]
        exact perm_append_comm.append_right _
  · intro entry member
    rcases mem_append.mp member with new | old
    · obtain ⟨trb, handed, rfl⟩ := mem_map.mp new
      exact accepted trb (by simpa using handed)
    · exact accounted.accepted entry old
  · rw [Session.hand, arrived]
    exact ordered.trans (accounted.ordered.append_right _)

/-! Waiting for a command. -/

def upcoming (arrivals : Nat → List Trb) : Nat → Nat → List Trb
  | 0, _ => []
  | left + 1, loopCounter => arrivals loopCounter ++ upcoming arrivals left (loopCounter + 1)

def NoTransfer (events : List Trb) : Prop :=
  ∀ trb ∈ events.takeWhile fun trb => !isCompletion trb, isTransfer trb = false

theorem waitLoop_dequeues (hardware : Hardware) (left loopCounter : Nat) (ctrl : XhciCtrl)
    (quiet : NoTransfer (ctrl.ring ++ upcoming hardware.arrivals left loopCounter)) :
    (waitLoop hardware left loopCounter ctrl).2.pending = ctrl.pending ∧
      ∃ dequeued, (waitLoop hardware left loopCounter ctrl).2.arrived = ctrl.arrived ++ dequeued ∧
        ∀ trb ∈ dequeued, isTransfer trb = false := by
  induction left generalizing loopCounter ctrl with
  | zero => exact ⟨rfl, [], by simp [waitLoop], by simp⟩
  | succ left ih =>
    rw [waitLoop]
    split
    · exact ⟨rfl, [], by simp, by simp⟩
    · rw [upcoming, ← append_assoc] at quiet
      cases looked : ctrl.ring ++ hardware.arrivals loopCounter with
      | nil =>
        rw [looked] at quiet
        rw [pollRawEvent_empty looked]
        exact ih (loopCounter + 1) (ctrl.produce (hardware.arrivals loopCounter)) (by rwa [XhciCtrl.produce, looked])
      | cons trb rest =>
        rw [looked, cons_append, NoTransfer] at quiet
        rw [pollRawEvent_head looked]
        by_cases completion : isCompletion trb = true
        · have other : isTransfer trb = false := by
            rw [isCompletion, beq_iff_eq] at completion
            rw [isTransfer, completion]
            rfl
          have same : trb.trbType = COMMAND_COMPLETION := by simpa [isCompletion] using completion
          simp only [same, if_true]
          split <;> exact ⟨rfl, [trb], rfl, by simpa using other⟩
        · rw [takeWhile_cons_of_pos (by simpa using completion)] at quiet
          have apart : ¬trb.trbType = COMMAND_COMPLETION := by simpa [isCompletion] using completion
          simp only [apart, if_false]
          obtain ⟨pending, dequeued, arrived, others⟩ := ih (loopCounter + 1) { ctrl with
            ring := rest, arrived := ctrl.arrived ++ [trb] } fun event member => quiet event (mem_cons_of_mem _ member)
          refine ⟨pending, trb :: dequeued, ?_, ?_⟩
          · exact arrived.trans (append_assoc _ _ _)
          · rintro event (_ | ⟨_, later⟩)
            · exact quiet trb mem_cons_self
            · exact others event later

theorem accounted_wait {session : Session} (accounted : Accounted session)
    (pending : ctrl.pending = session.ctrl.pending)
    (arrived : ∃ dequeued, ctrl.arrived = session.ctrl.arrived ++ dequeued ∧
      ∀ trb ∈ dequeued, isTransfer trb = false) : Accounted { session with ctrl := ctrl } := by
  obtain ⟨dequeued, arrived, others⟩ := arrived
  have none : dequeued.filter isTransfer = [] := by
    rw [filter_eq_nil_iff]
    intro trb member
    rw [others trb member]
    exact Bool.false_ne_true
  constructor
  · rw [arrived, pending, filter_append, none, append_nil]
    exact accounted.conserved
  · exact accounted.accepted
  · rw [arrived, pending]
    exact accounted.ordered.trans (sublist_append_left _ _)

/-! Whole runs. -/

def Undisturbed (session : Session) : Call → Prop
  | .waitCommand hardware | .submitCommand _ hardware =>
      NoTransfer (session.ctrl.ring ++ upcoming hardware.arrivals WAIT_COMMAND_LOOPS 1)
  | _ => True

theorem accounted_step (session : Session) (call : Call) (accounted : Accounted session)
    (undisturbed : Undisturbed session call) : Accounted (session.step call) := by
  cases call with
  | produce events => exact { accounted with }
  | pollEventMatching accepts => exact accounted_hand accounted (pollEventMatching_keeps accepts session.ctrl)
  | pollEvent => exact accounted_hand accounted (pollEvent_keeps session.ctrl)
  | pushPendingEvent trb =>
    constructor
    · dsimp only [Session.step, XhciCtrl.pushPendingEvent]
      rw [← append_assoc, filter_append, filter_append _ [trb]]
      exact accounted.conserved.append_right _
    · exact accounted.accepted
    · exact accounted.ordered.append_right [trb]
  | waitCommand hardware =>
    obtain ⟨pending, arrived⟩ := waitLoop_dequeues hardware WAIT_COMMAND_LOOPS 1 session.ctrl undisturbed
    exact accounted_wait accounted pending arrived
  | submitCommand trb hardware =>
    obtain ⟨pending, arrived⟩ := waitLoop_dequeues hardware WAIT_COMMAND_LOOPS 1
      { session.ctrl with commands := session.ctrl.commands ++ [trb] } undisturbed
    exact accounted_wait accounted pending arrived

/-- In a run whose waits for commands meet no transfer event, none is lost. -/
theorem no_transfer_event_lost (calls : List Call) (undisturbed : Guarded Session.step Undisturbed powerOn calls) :
    Accounted (calls.foldl Session.step powerOn) :=
  undisturbed.preserves accounted_step ⟨List.Perm.refl _, by simp [powerOn], List.Sublist.refl _⟩

def completionEvent : Trb := ⟨0, SUCCESS.toUInt32 <<< 24, COMMAND_COMPLETION.toUInt32 <<< 10⟩

def prompt : Hardware := ⟨fun loopCounter => if loopCounter = 1 then [completionEvent] else [], fun _ => 0⟩

theorem no_transfer_event_lost_polled :
    Accounted ([Call.produce [transferEvent 1 3 SUCCESS 0, transferEvent 2 5 SUCCESS 0],
      .pollEventMatching fun trb => trb.slotId == 2, .waitCommand prompt].foldl Session.step powerOn) := by
  have quiet : NoTransfer ([] ++ upcoming prompt.arrivals WAIT_COMMAND_LOOPS 1) := by
    intro trb member
    cases member
  exact no_transfer_event_lost _ ⟨trivial, trivial, quiet, trivial⟩

def disturbed : Session := [Call.produce [transferEvent 1 3 SUCCESS 0], .waitCommand prompt].foldl Session.step powerOn

theorem wait_command_drops_transfer :
    isTransfer (transferEvent 1 3 SUCCESS 0) = true ∧ transferEvent 1 3 SUCCESS 0 ∈ disturbed.ctrl.arrived ∧ disturbed.returned = [] ∧
      disturbed.ctrl.pending = [] ∧ (Events.waitCommand prompt (powerOn.ctrl.produce [transferEvent 1 3 SUCCESS 0])).1 =
        .ok completionEvent := by
  decide

end HermitLocal.Usb.Events
