import HermitLocal.Usb.BulkOnly
import HermitLocal.Usb.Descriptor
import HermitLocal.Usb.MscScan

/-! From a configuration descriptor to the rings of its endpoints. The context index of an endpoint
is computed from the number that the device gives it, in `configure_endpoint` and again in every
`queue_transfer`; number 0 is that of the default control endpoint. -/

namespace HermitLocal.Usb.EndpointIndex
open Lib.Program Usb.TrbRing Usb.MscScan List
open Usb.BulkOnly (Phase Csw Host)
open Usb.Events (UsbError)

def SPEED_HIGH : UInt8 := 3
def ENDPOINT_CONTEXTS : Nat := 31

structure EndpointContext where
  epType : UInt8
  maxPacketSize : UInt16
  maxBurst : UInt8
  interval : UInt8
  trPtr : UInt64
deriving DecidableEq

structure UsbDevice where
  speed : UInt8
  addFlags : UInt32
  slotDw0 : UInt32
  endpoints : List EndpointContext
  epRings : List (Option Ring)
  endpoints_length : endpoints.length = ENDPOINT_CONTEXTS
  epRings_length : epRings.length = ENDPOINT_CONTEXTS

inductive Step where
  | done
  | failed
  | panicked
deriving DecidableEq

structure Run where
  device : UsbDevice
  indices : List Nat
  step : Step

def contextIndex (epNum : UInt8) (isIn : Bool) : Nat := epNum.toNat * 2 + if isIn then 1 else 0

def ringIndex (dci : Nat) : Nat := if dci = 0 then 2 ^ 64 - 1 else dci - 1

def xhciEpType (epType : UInt8) (isIn : Bool) : UInt8 :=
  if epType = 1 then if isIn then 5 else 1
  else if epType = 2 then if isIn then 6 else 2
  else if epType = 3 then if isIn then 7 else 3
  else 4

def xhciInterval (speed interval : UInt8) : UInt8 :=
  if SPEED_HIGH ≤ speed then UInt8.ofNat (interval.toNat - 1)
  else
    let ms := max interval.toNat 1
    UInt8.ofNat ((if ms = 2 ^ Nat.log2 ms then Nat.log2 ms else Nat.log2 ms + 1) + 3)

def raiseEntries (dw0 : UInt32) (dci : Nat) : UInt32 :=
  if (dw0 >>> 27).toNat < dci then (dw0 &&& ~~~((0x1f : UInt32) <<< 27)) ||| dci.toUInt32 <<< 27 else dw0

def configureEndpoint (ep : EndpointDesc) (ring : Option Ring) (accepted : Bool) (run : Run) : Run :=
  let dci := contextIndex ep.number ep.isIn
  let noted := { run with indices := run.indices ++ [dci] }
  match ring with
  | none => { noted with step := .failed }
  | some ring =>
      let flagged := { run.device with
        addFlags := ((1 : UInt32) <<< dci.toUInt32) ||| 1, slotDw0 := raiseEntries run.device.slotDw0 dci }
      if ringIndex dci < ENDPOINT_CONTEXTS then
        { noted with
          device := { flagged with
            endpoints := run.device.endpoints.set (ringIndex dci)
              ⟨xhciEpType ep.transferType ep.isIn, ep.maxPacketSize, 0, xhciInterval run.device.speed ep.interval, ring.base⟩
            epRings := run.device.epRings.set (ringIndex dci) (some ring)
            endpoints_length := by rw [length_set, run.device.endpoints_length]
            epRings_length := by rw [length_set, run.device.epRings_length] }
          step := if accepted then .done else .failed }
      else { noted with device := flagged, step := .panicked }

structure Queued where
  epNum : UInt8
  isIn : Bool
  phys : UInt64
  len : Nat

def queueTransfer (queued : Queued) (run : Run) : Run :=
  let dci := contextIndex queued.epNum queued.isIn
  let noted := { run with indices := run.indices ++ [dci] }
  match run.device.epRings[ringIndex dci]? with
  | none => { noted with step := .panicked }
  | some none => { noted with step := .failed }
  | some (some ring) =>
      { noted with
        device := { run.device with
          epRings := run.device.epRings.set (ringIndex dci) (some (Descriptor.queueTransfer ring queued.phys queued.len))
          epRings_length := by rw [length_set, run.device.epRings_length] }
        step := .done }

def Run.andThen (run : Run) (next : Run → Run) : Run := if run.step = .done then next run else run

structure Setup where
  configured : Bool
  inRing : Option Ring
  inAccepted : Bool
  outRing : Option Ring
  outAccepted : Bool

def fromInterface (found : MscInterface) (setup : Setup) (device : UsbDevice) : Run :=
  if found.iface.interfaceClass = MASS_STORAGE ∧ setup.configured then
    (configureEndpoint found.epIn setup.inRing setup.inAccepted ⟨device, [], .done⟩).andThen
      (configureEndpoint found.epOut setup.outRing setup.outAccepted)
  else ⟨device, [], .failed⟩

/-- One call of `scsi_command`: what its steps come to, the transfers that it queues apart. -/
structure Command where
  alloc : Phase → Option Nat
  wait : Phase → Except UsbError Nat
  status : Csw
  dataLen : Nat
  directionIn : Bool

def host (found : MscInterface) (command : Command) : Host Run where
  alloc phase _ := (command.alloc phase).elim (throw .ooRam) pure
  fill _ _ := pure ()
  queueTransfer _ isIn buf len := fun run =>
    let after := queueTransfer ⟨if isIn then found.epIn.number else found.epOut.number, isIn, UInt64.ofNat buf, len⟩ run
    if after.step = .done then .ok () after else .error .invEndpoint after
  waitTransfer phase _ _ := MonadExcept.ofExcept (command.wait phase)
  copyOut _ _ := pure ()
  readCsw _ := pure command.status
  free _ := pure ()

def scsiCommand (found : MscInterface) (run : Run) (command : Command) : Run :=
  if run.step = .panicked then run
  else final ((host found command).scsiCommand command.dataLen command.directionIn { run with step := .done })

def drive (configDesc : List UInt8) (setup : Setup) (commands : List Command) (device : UsbDevice) : Run :=
  match select configDesc with
  | .error _ => ⟨device, [], .failed⟩
  | .ok (_, found) => (fromInterface found setup device).andThen fun run => commands.foldl (scsiCommand found) run

structure InRange (device : UsbDevice) (run : Run) : Prop where
  indices : ∀ dci ∈ run.indices, 2 ≤ dci ∧ dci ≤ 31
  going : run.step ≠ .panicked
  context : run.device.endpoints[0]? = device.endpoints[0]?
  ring : run.device.epRings[0]? = device.epRings[0]?

/-! Indices of numbers. -/

theorem number_lt (ep : EndpointDesc) : ep.number.toNat < 16 := by
  exact Nat.lt_of_le_of_lt Nat.and_le_right (by decide)

section Index
variable {epNum : UInt8} (isIn : Bool)

theorem contextIndex_range (small : epNum.toNat < 16) (other : epNum ≠ 0) :
    2 ≤ contextIndex epNum isIn ∧ contextIndex epNum isIn ≤ 31 := by
  have positive : epNum.toNat ≠ 0 := fun zero => other (UInt8.toNat_inj.mp zero)
  unfold contextIndex
  split <;> omega

theorem contextIndex_zero : contextIndex 0 isIn < 2 := by
  cases isIn <;> decide

theorem ringIndex_eq {dci : Nat} (large : 2 ≤ dci) (small : dci ≤ 31) : ringIndex dci = dci - 1 := by
  unfold ringIndex
  rw [if_neg (by omega)]

end Index

section Kept
variable {device : UsbDevice} {run : Run}

theorem noted_inRange (inRange : InRange device run) {dci : Nat} (large : 2 ≤ dci) (small : dci ≤ 31) :
    ∀ noted ∈ run.indices ++ [dci], 2 ≤ noted ∧ noted ≤ 31 := by
  intro noted inside
  rcases mem_append.mp inside with before | last
  · exact inRange.indices noted before
  · rw [mem_singleton.mp last]
    exact ⟨large, small⟩

theorem configureEndpoint_inRange {ep : EndpointDesc} (other : ep.number ≠ 0) (ring : Option Ring) (accepted : Bool)
    (inRange : InRange device run) : InRange device (configureEndpoint ep ring accepted run) := by
  obtain ⟨large, small⟩ := contextIndex_range ep.isIn (number_lt ep) other
  have index := ringIndex_eq large small
  have noted := noted_inRange inRange large small
  unfold configureEndpoint
  cases ring with
  | none => exact ⟨noted, by simp, inRange.context, inRange.ring⟩
  | some ring =>
    dsimp only
    rw [if_pos (by rw [index]; unfold ENDPOINT_CONTEXTS; omega)]
    refine ⟨noted, ?_, ?_, ?_⟩
    · cases accepted <;> simp
    · exact (getElem?_set_ne (by omega)).trans inRange.context
    · exact (getElem?_set_ne (by omega)).trans inRange.ring

theorem queueTransfer_inRange {queued : Queued} (small : queued.epNum.toNat < 16) (other : queued.epNum ≠ 0)
    (inRange : InRange device run) : InRange device (queueTransfer queued run) := by
  obtain ⟨large, below⟩ := contextIndex_range queued.isIn small other
  have index := ringIndex_eq large below
  have noted := noted_inRange inRange large below
  unfold queueTransfer
  dsimp only
  cases entry : run.device.epRings[ringIndex (contextIndex queued.epNum queued.isIn)]? with
  | none =>
    have outside := getElem?_eq_none_iff.mp entry
    rw [run.device.epRings_length] at outside
    unfold ENDPOINT_CONTEXTS at outside
    omega
  | some ring =>
    cases ring with
    | none => exact ⟨noted, by simp, inRange.context, inRange.ring⟩
    | some ring => exact ⟨noted, by simp, inRange.context, (getElem?_set_ne (by omega)).trans inRange.ring⟩

theorem andThen_inRange {next : Run → Run} (inRange : InRange device run)
    (keeps : InRange device run → InRange device (next run)) : InRange device (run.andThen next) := by
  unfold Run.andThen
  split
  · exact keeps inRange
  · exact inRange

variable {found : MscInterface} (inOther : found.epIn.number ≠ 0) (outOther : found.epOut.number ≠ 0)

include inOther outOther

theorem host_inRange (command : Command) : (host found command).Invariant (InRange device) where
  alloc phase size := by
    change Keeps (InRange device) ((command.alloc phase).elim _ _)
    cases command.alloc phase with
    | none => exact keeps_throw _
    | some buf => exact keeps_pure buf
  fill phase buf := keeps_pure ()
  queueTransfer phase isIn buf len := by
    intro run inRange
    let queued : Queued := ⟨if isIn then found.epIn.number else found.epOut.number, isIn, UInt64.ofNat buf, len⟩
    have numbers : queued.epNum.toNat < 16 ∧ queued.epNum ≠ 0 := by
      dsimp only [queued]
      split
      · exact ⟨number_lt _, inOther⟩
      · exact ⟨number_lt _, outOther⟩
    have after := queueTransfer_inRange numbers.1 numbers.2 inRange
    change InRange device (final (if (queueTransfer queued run).step = .done then .ok () (queueTransfer queued run)
      else .error UsbError.invEndpoint (queueTransfer queued run)))
    by_cases done : (queueTransfer queued run).step = .done
    · rw [if_pos done]
      exact after
    · rw [if_neg done]
      exact after
  waitTransfer phase isIn len := by
    change Keeps (InRange device) (MonadExcept.ofExcept (command.wait phase))
    cases command.wait phase with
    | ok len => exact keeps_pure len
    | error error => exact keeps_throw error
  copyOut buf len := keeps_pure ()
  readCsw buf := keeps_pure command.status
  free buf := keeps_pure ()

theorem scsiCommand_inRange (command : Command) (inRange : InRange device run) :
    InRange device (scsiCommand found run command) := by
  unfold scsiCommand
  rw [if_neg inRange.going]
  apply Host.scsiCommand_keeps (host_inRange inOther outOther command)
  exact ⟨inRange.indices, by simp, inRange.context, inRange.ring⟩

theorem commands_inRange (commands : List Command) (inRange : InRange device run) :
    InRange device (commands.foldl (scsiCommand found) run) := by
  induction commands generalizing run with
  | nil => exact inRange
  | cons command rest ih => exact ih (scsiCommand_inRange inOther outOther command inRange)

theorem fromInterface_inRange (setup : Setup) (device : UsbDevice) : InRange device (fromInterface found setup device) := by
  have start : ∀ step, step ≠ Step.panicked → InRange device ⟨device, [], step⟩ :=
    fun step going => ⟨fun _ inside => absurd inside not_mem_nil, going, rfl, rfl⟩
  unfold fromInterface
  split
  · apply andThen_inRange
    · exact configureEndpoint_inRange inOther _ _ (start .done (by simp))
    · exact configureEndpoint_inRange outOther _ _
  · exact start .failed (by simp)

end Kept

/-! What a configuration of both endpoints that nothing stops computes. -/

theorem configureEndpoint_notes (ep : EndpointDesc) (ring : Option Ring) (accepted : Bool) (run : Run) :
    (configureEndpoint ep ring accepted run).indices = run.indices ++ [contextIndex ep.number ep.isIn] := by
  unfold configureEndpoint
  cases ring with
  | none => rfl
  | some ring =>
    dsimp only
    split <;> rfl

theorem configureEndpoint_done {ep : EndpointDesc} (other : ep.number ≠ 0) (ring : Ring) (run : Run) :
    (configureEndpoint ep (some ring) true run).step = .done := by
  obtain ⟨large, small⟩ := contextIndex_range ep.isIn (number_lt ep) other
  unfold configureEndpoint
  dsimp only
  rw [if_pos (by rw [ringIndex_eq large small]; unfold ENDPOINT_CONTEXTS; omega)]
  rfl

def plainRing : Ring := Ring.new 0x10000 256 Descriptor.two_le_ringSize Descriptor.ring_fits

def smooth : Setup := ⟨true, some plainRing, true, some plainRing, true⟩

def plainDevice : UsbDevice where
  speed := SPEED_HIGH
  addFlags := 3
  slotDw0 := 0x8000000
  endpoints := replicate ENDPOINT_CONTEXTS ⟨4, 64, 0, 0, 0x20000⟩
  epRings := replicate ENDPOINT_CONTEXTS none
  endpoints_length := length_replicate
  epRings_length := length_replicate

theorem drive_alone {configDesc : List UInt8} {configValue : UInt8} {found : MscInterface}
    (selected : select configDesc = .ok (configValue, found)) (setup : Setup) (device : UsbDevice) :
    drive configDesc setup [] device = fromInterface found setup device := by
  unfold drive
  rw [selected]
  dsimp only [foldl_nil]
  unfold Run.andThen
  rw [ite_self]

section Smooth
variable {found : MscInterface} (storage : found.iface.interfaceClass = MASS_STORAGE)

include storage

theorem fromInterface_smooth : fromInterface found smooth plainDevice =
      (configureEndpoint found.epIn (some plainRing) true ⟨plainDevice, [], .done⟩).andThen
        (configureEndpoint found.epOut (some plainRing) true) := by
  unfold fromInterface
  rw [if_pos ⟨storage, rfl⟩]
  rfl

theorem smooth_in : contextIndex found.epIn.number found.epIn.isIn ∈ (fromInterface found smooth plainDevice).indices := by
  rw [fromInterface_smooth storage]
  unfold Run.andThen
  split
  · rw [configureEndpoint_notes, configureEndpoint_notes]
    exact mem_append_left _ (mem_append_right _ (mem_singleton_self _))
  · rw [configureEndpoint_notes]
    exact mem_append_right _ (mem_singleton_self _)

theorem smooth_out (other : found.epIn.number ≠ 0) :
    contextIndex found.epOut.number found.epOut.isIn ∈ (fromInterface found smooth plainDevice).indices := by
  rw [fromInterface_smooth storage]
  unfold Run.andThen
  rw [if_pos (configureEndpoint_done other plainRing _), configureEndpoint_notes]
  exact mem_append_right _ (mem_singleton_self _)

end Smooth

theorem index_not_zero {ep : EndpointDesc} (large : 2 ≤ contextIndex ep.number ep.isIn) : ep.number ≠ 0 := by
  intro zero
  rw [zero] at large
  exact absurd large (Nat.not_le.mpr (contextIndex_zero ep.isIn))

/-- The indices stay in range exactly if neither endpoint has number 0. -/
theorem endpoint_indices_iff (configDesc : List UInt8) :
    (∀ setup commands device, InRange device (drive configDesc setup commands device)) ↔
      ∀ configValue found, select configDesc = .ok (configValue, found) → found.epIn.number ≠ 0 ∧ found.epOut.number ≠ 0 := by
  constructor
  · intro always configValue found selected
    have storage := select_storage selected
    have inRange := always smooth [] plainDevice
    rw [drive_alone selected] at inRange
    have inOther := index_not_zero (inRange.indices _ (smooth_in storage)).1
    exact ⟨inOther, index_not_zero (inRange.indices _ (smooth_out storage inOther)).1⟩
  · intro others setup commands device
    unfold drive
    cases selected : select configDesc with
    | error err => exact ⟨fun _ inside => absurd inside not_mem_nil, by simp, rfl, rfl⟩
    | ok pair =>
      obtain ⟨inOther, outOther⟩ := others pair.1 pair.2 selected
      apply andThen_inRange
      · exact fromInterface_inRange inOther outOther setup device
      · exact commands_inRange inOther outOther commands

def addressedConfig (inAddress outAddress : UInt8) : List UInt8 :=
  [9, 2, 32, 0, 1, 1, 0, 0x80, 50, 9, 4, 0, 0, 2, 0x08, 0x06, BBB, 0, 7, 5, inAddress, 2, 0, 2, 0, 7, 5, outAddress, 2, 0, 2, 0]

theorem numberZero_leaves_range : (drive (addressedConfig 0x80 0x02) smooth [] plainDevice).indices = [1, 4] ∧
      (drive (addressedConfig 0x80 0x02) smooth [] plainDevice).device.endpoints[0]? = some ⟨6, 512, 0, 0, 0x10000⟩ ∧
      (drive (addressedConfig 0x81 0x00) smooth [] plainDevice).indices = [3, 0] ∧
      (drive (addressedConfig 0x81 0x00) smooth [] plainDevice).step = .panicked ∧
      ¬InRange plainDevice (drive (addressedConfig 0x80 0x02) smooth [] plainDevice) ∧
      ¬InRange plainDevice (drive (addressedConfig 0x81 0x00) smooth [] plainDevice) := by
  have replaced : (drive (addressedConfig 0x80 0x02) smooth [] plainDevice).indices = [1, 4] := by decide +kernel
  have panicked : (drive (addressedConfig 0x81 0x00) smooth [] plainDevice).step = .panicked := by decide +kernel
  refine ⟨replaced, by decide +kernel, by decide +kernel, panicked, ?_, ?_⟩
  · intro inRange
    have large := (inRange.indices 1 (by rw [replaced]; decide)).1
    exact absurd large (by decide)
  · intro inRange
    exact inRange.going panicked

end HermitLocal.Usb.EndpointIndex
