import HermitLocal.Usb.Descriptor
import HermitLocal.Usb.Events

/-! Waiting for the completion of a descriptor. The waits take the first transfer event of their
endpoint, whichever block it is about; what is left of an earlier descriptor is
taken for the next one. -/

namespace HermitLocal.Usb.TransferWait
open Lib.Simulation Usb.Events Usb.TrbRing Usb.Descriptor List

def INVALID : UInt8 := 0
def STALL_ERROR : UInt8 := 6
def WAIT_EVENT_LOOPS : Nat := 250000

structure Endpoint where
  slotId : UInt8
  endpointId : UInt8
  inRange : endpointId.toNat < 32

def Endpoint.accepts (endpoint : Endpoint) (evt : Trb) : Bool := ofEndpoint endpoint.slotId endpoint.endpointId evt

/-- What a wait sees; the device ticks before each poll. -/
structure Watched (Device : Type) where
  round : Nat
  ctrl : XhciCtrl
  device : Device

section Wait
variable {Device : Type} (tick : Nat → Device → List Trb × Device)

def watch : Watch (Watched Device) where
  goOn seen :=
    let ticked := tick seen.round seen.device
    ⟨seen.round + 1, seen.ctrl.produce ticked.1, ticked.2⟩
  ctrl := Watched.ctrl
  setCtrl seen ctrl := { seen with ctrl := ctrl }

def waitTransfer (endpoint : Endpoint) (requestedLen : Nat) (ctrl : XhciCtrl) (device : Device) : Waited (Watched Device) :=
  pollLoop (watch tick) endpoint.accepts (judgeTransfer requestedLen) (.timeout "wait_transfer timeout")
    WAIT_TRANSFER_LOOPS ⟨1, ctrl, device⟩

def judgeTransferEvent (requestedLen : Nat) (evt : Trb) : Option (Except UsbError Nat) :=
  if evt.completionCode = SUCCESS ∨ evt.completionCode = SHORT_PACKET then some (.ok (requestedLen - evt.transferLength))
  else if evt.completionCode = INVALID then none
  else if evt.completionCode = STALL_ERROR then some (.error .stall)
  else some (.error (.xferFail evt.completionCode))

def waitTransferEvent (endpoint : Endpoint) (requestedLen : Nat) (ctrl : XhciCtrl) (device : Device) : Waited (Watched Device) :=
  pollLoop (watch tick) endpoint.accepts (judgeTransferEvent requestedLen)
    (.timeout "bulk transfer waiting for TRANSFER_EVENT") WAIT_EVENT_LOOPS ⟨1, ctrl, device⟩

end Wait

def placed (ring : Ring) : List Trb → List UInt64
  | [] => []
  | trb :: rest => (ring.enqueue trb).1 :: placed (ring.enqueue trb).2 rest

/-! The events that a controller holds for its driver. -/

def held (ctrl : XhciCtrl) : List Trb := ctrl.pending ++ ctrl.ring

theorem pollRing_held (accepts : Trb → Bool) (ring : List Trb) (ctrl : XhciCtrl) :
    (XhciCtrl.pollRing accepts ring ctrl).1 = ring.find? accepts ∧
      held (XhciCtrl.pollRing accepts ring ctrl).2 = ctrl.pending ++ ring.eraseP accepts := by
  induction ring generalizing ctrl with
  | nil => exact ⟨rfl, rfl⟩
  | cons trb rest ih =>
    unfold XhciCtrl.pollRing
    by_cases accepted : accepts trb = true
    · rw [if_pos accepted, find?_cons_of_pos accepted, eraseP_cons_of_pos accepted]
      exact ⟨rfl, rfl⟩
    · rw [if_neg accepted, find?_cons_of_neg accepted, eraseP_cons_of_neg accepted]
      obtain ⟨found, later⟩ := ih { ctrl with
        ring := rest, arrived := ctrl.arrived ++ [trb], pending := ctrl.pending ++ [trb] }
      refine ⟨found, ?_⟩
      rw [later, append_assoc]
      rfl

theorem pollEventMatching_held (accepts : Trb → Bool) (ctrl : XhciCtrl) :
    (ctrl.pollEventMatching accepts).1 = (held ctrl).find? accepts ∧
      held (ctrl.pollEventMatching accepts).2 = (held ctrl).eraseP accepts := by
  unfold XhciCtrl.pollEventMatching
  cases found : ctrl.pending.find? accepts with
  | some trb =>
    have some := find?_some found
    constructor
    · unfold held
      rw [find?_append, found]
      rfl
    · unfold held
      rw [eraseP_append_left some _ (mem_of_find?_eq_some found)]
  | none =>
    have others := find?_eq_none.mp found
    obtain ⟨same, left⟩ := pollRing_held accepts ctrl.ring ctrl
    constructor
    · unfold held
      rw [same, find?_append, found]
      rfl
    · rw [left, held, eraseP_append_right _ others]

theorem held_produce (ctrl : XhciCtrl) (events : List Trb) : held (ctrl.produce events) = held ctrl ++ events :=
  (append_assoc _ _ _).symm

section Loop
variable {Device : Type} {tick : Nat → Device → List Trb × Device} {accepts : Trb → Bool}
  {judge : Trb → Option (Except UsbError Nat)} {late : UsbError}

def arriving (tick : Nat → Device → List Trb × Device) : Nat → Nat → Device → List Trb
  | 0, _, _ => []
  | left + 1, round, device => (tick round device).1 ++ arriving tick left (round + 1) (tick round device).2

theorem pollLoop_first (left round : Nat) (ctrl : XhciCtrl) (device : Device) {evt : Trb}
    (first : (held ctrl ++ arriving tick left round device).find? accepts = some evt)
    (waits : (held ctrl).find? accepts = none ∨ 0 < left) {result : Except UsbError Nat} (judged : judge evt = some result) :
    (pollLoop (watch tick) accepts judge late left ⟨round, ctrl, device⟩).result = result := by
  induction left generalizing round ctrl device with
  | zero =>
    rw [arriving, append_nil] at first
    rcases waits with none | impossible
    · rw [none] at first
      cases first
    · omega
  | succ left ih =>
    obtain ⟨found, after⟩ := pollEventMatching_held accepts (ctrl.produce (tick round device).1)
    rw [held_produce] at found after
    rw [arriving, ← append_assoc, find?_append] at first
    rw [pollLoop]
    dsimp only [watch]
    generalize (ctrl.produce (tick round device).1).pollEventMatching accepts = polled at found after ⊢
    obtain ⟨event, next⟩ := polled
    cases event with
    | some event =>
      rw [← found] at first
      cases first
      dsimp only
      rw [judged]
    | none =>
      have nothing : (held ctrl ++ (tick round device).1).find? accepts = none := found.symm
      have kept : held next = held ctrl ++ (tick round device).1 :=
        after.trans (eraseP_of_forall_not (find?_eq_none.mp nothing))
      rw [nothing] at first
      apply ih
      · rw [kept, find?_append, nothing, Option.none_or]
        exact first
      · left
        rw [kept]
        exact nothing

variable {addresses : List UInt64}

theorem pollLoop_taken {good : Device → Prop}
    (ticks : ∀ round device, good device → good (tick round device).2 ∧
      ∀ evt ∈ (tick round device).1, accepts evt = true → evt.param ∈ addresses)
    (left round : Nat) (ctrl : XhciCtrl) (device : Device) (start : good device)
    (own : ∀ evt ∈ held ctrl, accepts evt = true → evt.param ∈ addresses) :
    ∀ evt ∈ (pollLoop (watch tick) accepts judge late left ⟨round, ctrl, device⟩).taken, evt.param ∈ addresses := by
  induction left generalizing round ctrl device with
  | zero =>
    intro evt impossible
    cases impossible
  | succ left ih =>
    obtain ⟨found, after⟩ := pollEventMatching_held accepts (ctrl.produce (tick round device).1)
    rw [held_produce] at found after
    obtain ⟨next, new⟩ := ticks round device start
    have all : ∀ evt ∈ held ctrl ++ (tick round device).1, accepts evt = true → evt.param ∈ addresses := by
      intro evt inside
      rcases mem_append.mp inside with old | arrived
      · exact own evt old
      · exact new evt arrived
    rw [pollLoop]
    dsimp only [watch]
    generalize (ctrl.produce (tick round device).1).pollEventMatching accepts = polled at found after ⊢
    obtain ⟨event, later⟩ := polled
    have kept : ∀ evt ∈ held later, accepts evt = true → evt.param ∈ addresses := by
      intro evt inside
      rw [show held later = _ from after] at inside
      exact all evt (mem_of_mem_eraseP inside)
    have rest := ih (round + 1) later (tick round device).2 next kept
    cases event with
    | none => exact rest
    | some event =>
      have mine : event.param ∈ addresses :=
        all event (mem_of_find?_eq_some found.symm) (find?_some found.symm)
      dsimp only
      cases judge event with
      | some result =>
        intro evt inside
        rw [mem_singleton.mp inside]
        exact mine
      | none =>
        intro evt inside
        rcases mem_cons.mp inside with rfl | more
        · exact mine
        · exact rest evt more

end Loop

/-! One endpoint, its ring and the controller. -/

inductive Action where
  | report (place : Nat) (code : UInt8) (residue : UInt32)
  | retire
  | other (evt : Trb)

def eventFor (endpoint : Endpoint) (code : UInt8) (residue : UInt32) (addr : UInt64) : Trb :=
  { transferEvent endpoint.slotId endpoint.endpointId code residue with param := addr }

abbrev InFlight := List (List UInt64)

def act (endpoint : Endpoint) (inFlight : InFlight) : Action → List Trb × InFlight
  | .report place code residue =>
      ((inFlight.head?.bind (·[place]?)).toList.map (eventFor endpoint code residue), inFlight)
  | .retire => ([], inFlight.tail)
  | .other evt => (if endpoint.accepts evt then [] else [evt], inFlight)

def acts (endpoint : Endpoint) : List Action → InFlight → List Trb × InFlight
  | [], inFlight => ([], inFlight)
  | action :: rest, inFlight =>
      let later := acts endpoint rest (act endpoint inFlight action).2
      ((act endpoint inFlight action).1 ++ later.1, later.2)

inductive Wait where
  | transfer
  | transferEvent

structure Session where
  ring : Ring
  ctrl : XhciCtrl
  inFlight : InFlight
  waits : List (List UInt64 × List Trb)

inductive Input where
  | idle (actions : List Action)
  | transfer (wait : Wait) (phys : UInt64) (len : Nat) (schedule : Nat → List Action)

def Wait.run (wait : Wait) (endpoint : Endpoint) (schedule : Nat → List Action) (len : Nat) (ctrl : XhciCtrl)
    (inFlight : InFlight) : Waited (Watched InFlight) :=
  match wait with
  | .transfer => waitTransfer (fun round => acts endpoint (schedule round)) endpoint len ctrl inFlight
  | .transferEvent => waitTransferEvent (fun round => acts endpoint (schedule round)) endpoint len ctrl inFlight

def Session.step (endpoint : Endpoint) (session : Session) : Input → Session
  | .idle actions =>
      { session with
        ctrl := session.ctrl.produce (acts endpoint actions session.inFlight).1
        inFlight := (acts endpoint actions session.inFlight).2 }
  | .transfer wait phys len schedule =>
      let addresses := placed session.ring (descriptor phys len)
      let waited := wait.run endpoint schedule len session.ctrl (session.inFlight ++ [addresses])
      ⟨queueTransfer session.ring phys len, waited.state.ctrl, waited.state.device, (addresses, waited.taken) :: session.waits⟩

def powerOn (ring : Ring) : Session := ⟨ring, ⟨[], [], [], []⟩, [], []⟩

def Paired (session : Session) : Prop := ∀ pair ∈ session.waits, ∀ evt ∈ pair.2, evt.param ∈ pair.1

def Settled (endpoint : Endpoint) (session : Session) : Input → Prop
  | .idle _ => True
  | .transfer _ _ _ _ => session.inFlight = [] ∧ (held session.ctrl).find? endpoint.accepts = none

def Only (addresses : List UInt64) (inFlight : InFlight) : Prop := inFlight = [addresses] ∨ inFlight = []

theorem act_only (endpoint : Endpoint) {inFlight : InFlight} (only : Only addresses inFlight)
    (action : Action) : Only addresses (act endpoint inFlight action).2 ∧
      ∀ evt ∈ (act endpoint inFlight action).1, endpoint.accepts evt = true → evt.param ∈ addresses := by
  cases action with
  | report place code residue =>
    refine ⟨only, ?_⟩
    intro evt inside _
    obtain ⟨addr, found, rfl⟩ := mem_map.mp inside
    obtain ⟨blocks, first, present⟩ := Option.bind_eq_some_iff.mp (Option.mem_toList.mp found)
    rcases only with one | none
    · rw [one] at first
      cases first
      exact mem_of_getElem? present
    · rw [none] at first
      cases first
  | retire =>
    refine ⟨.inr ?_, ?_⟩
    · rcases only with one | none
      · rw [act, one]
        rfl
      · rw [act, none]
        rfl
    · intro evt inside
      cases inside
  | other foreign =>
    refine ⟨only, ?_⟩
    intro evt inside accepted
    change evt ∈ if endpoint.accepts foreign then [] else [foreign] at inside
    by_cases mine : endpoint.accepts foreign = true
    · rw [if_pos mine] at inside
      cases inside
    · rw [if_neg mine, mem_singleton] at inside
      rw [inside] at accepted
      exact absurd accepted mine

theorem acts_only (endpoint : Endpoint) (actions : List Action) {inFlight : InFlight}
    (only : Only addresses inFlight) : Only addresses (acts endpoint actions inFlight).2 ∧
      ∀ evt ∈ (acts endpoint actions inFlight).1, endpoint.accepts evt = true → evt.param ∈ addresses := by
  induction actions generalizing inFlight with
  | nil =>
    refine ⟨only, ?_⟩
    intro evt impossible
    cases impossible
  | cons action rest ih =>
    obtain ⟨next, first⟩ := act_only endpoint only action
    obtain ⟨last, others⟩ := ih next
    refine ⟨last, ?_⟩
    intro evt inside
    rcases mem_append.mp inside with now | later
    · exact first evt now
    · exact others evt later

theorem run_taken (wait : Wait) {endpoint : Endpoint} (schedule : Nat → List Action) (len : Nat) {ctrl : XhciCtrl}
    (nothing : (held ctrl).find? endpoint.accepts = none) (addresses : List UInt64) :
    ∀ evt ∈ (wait.run endpoint schedule len ctrl [addresses]).taken, evt.param ∈ addresses := by
  have none := find?_eq_none.mp nothing
  have own : ∀ evt ∈ held ctrl, endpoint.accepts evt = true → evt.param ∈ addresses :=
    fun evt inside accepted => absurd accepted (none evt inside)
  have ticks : ∀ (round : Nat) (inFlight : InFlight), Only addresses inFlight →
      Only addresses (acts endpoint (schedule round) inFlight).2 ∧
        ∀ evt ∈ (acts endpoint (schedule round) inFlight).1, endpoint.accepts evt = true → evt.param ∈ addresses :=
    fun round _ only => acts_only endpoint (schedule round) only
  cases wait with
  | transfer => exact pollLoop_taken ticks WAIT_TRANSFER_LOOPS 1 ctrl _ (.inl rfl) own
  | transferEvent => exact pollLoop_taken ticks WAIT_EVENT_LOOPS 1 ctrl _ (.inl rfl) own

theorem paired_step (endpoint : Endpoint) (session : Session) (input : Input) (paired : Paired session)
    (settled : Settled endpoint session input) : Paired (session.step endpoint input) := by
  cases input with
  | idle actions => exact paired
  | transfer wait phys len schedule =>
    obtain ⟨finished, nothing⟩ := settled
    unfold Session.step
    rw [finished]
    intro pair inside
    rcases mem_cons.mp inside with rfl | earlier
    · exact run_taken wait schedule len nothing _
    · exact paired pair earlier

/-- When all transfers start settled, each wait takes only events of its own descriptor. -/
theorem completions_paired (endpoint : Endpoint) (ring : Ring) (inputs : List Input)
    (settled : Guarded (Session.step endpoint) (Settled endpoint) (powerOn ring) inputs) :
    Paired (inputs.foldl (Session.step endpoint) (powerOn ring)) := by
  apply settled.preserves (paired_step endpoint)
  intro pair impossible
  cases impossible

def bulkIn : Endpoint := ⟨1, 3, by decide⟩

def bulkRing : Ring := Ring.new 0x10000 256 two_le_ringSize ring_fits

def promptly (round : Nat) : List Action := if round = 1 then [.report 0 SUCCESS 0, .retire] else []

theorem completions_paired_prompt :
    Paired ([Input.transfer .transfer 0x200000 512 promptly, .transfer .transferEvent 0x300000 13 promptly].foldl
      (Session.step bulkIn) (powerOn bulkRing)) := by
  apply completions_paired
  exact ⟨⟨rfl, rfl⟩, ⟨by decide +kernel, by decide +kernel⟩, trivial⟩

def endsShort (round : Nat) : List Action :=
  if round = 1 then [.report 0 SHORT_PACKET 65024, .report 1 SHORT_PACKET 4464, .retire] else []

theorem leftover_event_taken :
    ([Input.transfer .transfer 0x200000 70000 endsShort, .transfer .transfer 0x300000 13 fun _ => []].foldl
      (Session.step bulkIn) (powerOn bulkRing)).waits.map (fun pair => (pair.1, pair.2.map Trb.param)) =
        [([0x10020], [0x10010]), ([0x10000, 0x10010], [0x10000])] := by
  decide +kernel

end HermitLocal.Usb.TransferWait
