import HermitLocal.Lib.Wire
import HermitLocal.Usb.TransferWait
import Mathlib.Data.List.TakeDrop

/-! Receiving from the RTL8153. The adapter may pack several frames into one transfer; the driver takes one frame from each
transfer, and hands out the frames of its queue through tokens. -/

namespace HermitLocal.Net.Rtl8152
open Lib.Simulation Lib.Wire Usb.Events Usb.TransferWait List

def RX_DESC_SIZE : Nat := 24
def CRC_SIZE : Nat := 4
def RTL8152_AGG_BUF_SZ : Nat := 2048
def RX_LEN_MASK : Nat := 0x7fff
def RTL8152_MTU : Nat := 1536

def RX_AGG_DISABLE : UInt16 := 0x0010
def RX_ZERO_EN : UInt16 := 0x0080

def updatedUsbCtrl (usbCtrl : UInt16) : UInt16 := usbCtrl &&& ~~~(RX_AGG_DISABLE ||| RX_ZERO_EN)

theorem aggregation_enabled (usbCtrl : UInt16) : updatedUsbCtrl usbCtrl &&& RX_AGG_DISABLE = 0 := by
  unfold updatedUsbCtrl
  rw [UInt16.and_assoc, show ~~~(RX_AGG_DISABLE ||| RX_ZERO_EN) &&& RX_AGG_DISABLE = 0 by decide, UInt16.and_zero]

def rxBufferLen (payloadLen : Nat) : Nat := max (max payloadLen 1536 + RX_DESC_SIZE + CRC_SIZE) RTL8152_AGG_BUF_SZ

def rxPendingLen : Nat := rxBufferLen RTL8152_MTU

inductive RxError where
  | invalidDescriptor
  | stall
  | xferFail (code : UInt8)
  deriving DecidableEq, Repr

abbrev Frame := List UInt8

def copyReceivedPacket (buf : List UInt8) (transferred packetLen : Nat) : Except RxError Frame :=
  if transferred < RX_DESC_SIZE then .error .invalidDescriptor
  else
    let frameLen := leValue (buf.take 4) &&& RX_LEN_MASK
    let payloadLen := min (min (frameLen - CRC_SIZE) (transferred - RX_DESC_SIZE)) packetLen
    .ok ((buf.drop RX_DESC_SIZE).take payloadLen)

structure Completion where
  completionCode : UInt8
  transferLength : Nat
  buffer : List UInt8

def pollRxPacket (evt : Completion) (requestedLen packetLen : Nat) : Except RxError Frame :=
  if evt.completionCode = SUCCESS ∨ evt.completionCode = SHORT_PACKET then
    copyReceivedPacket evt.buffer (requestedLen - evt.transferLength) packetLen
  else if evt.completionCode = STALL_ERROR then .error .stall
  else .error (.xferFail evt.completionCode)

structure Driver where
  rxQueue : List Frame
  reservedReceives : Nat
  rxBuf : Bool

namespace Driver

def armReceive (driver : Driver) (succeeds : Bool) : Driver := { driver with rxBuf := driver.rxBuf || succeeds }

def pollRx (succeeds : Bool) : List (Completion × Bool) → Driver → Driver
  | [], driver => if driver.rxBuf then driver else driver.armReceive succeeds
  | (evt, again) :: rest, driver =>
    if driver.rxBuf then
      match pollRxPacket evt rxPendingLen RTL8152_MTU with
      | .ok frame => pollRx succeeds rest (armReceive { driver with rxQueue := driver.rxQueue ++ [frame], rxBuf := false } again)
      | .error _ => pollRx succeeds rest (armReceive { driver with rxBuf := false } again)
    else driver.armReceive succeeds

theorem pollRx_appends (succeeds : Bool) (events : List (Completion × Bool)) (driver : Driver) :
    driver.rxQueue <+: (pollRx succeeds events driver).rxQueue ∧
      (pollRx succeeds events driver).reservedReceives = driver.reservedReceives := by
  fun_induction pollRx succeeds events driver with
  | case1 | case2 | case5 => exact ⟨prefix_rfl, rfl⟩
  | case3 driver evt again rest queued frame received ih => exact ⟨(prefix_append _ _).trans ih.1, ih.2⟩
  | case4 driver evt again rest queued code failed ih => exact ih

end Driver

/-! What the adapter sends. -/

structure Packed where
  frame : Frame
  crc : List UInt8
  options : Nat
  descriptor : List UInt8
  padding : List UInt8
  crcSize : crc.length = CRC_SIZE
  descriptorSize : descriptor.length = 20
  short : frame.length + CRC_SIZE ≤ RX_LEN_MASK
  padded : padding.length = (8 - (frame.length + CRC_SIZE) % 8) % 8

def Packed.bytes (packed : Packed) : List UInt8 :=
  leBytes 4 (packed.options * (RX_LEN_MASK + 1) + (packed.frame.length + CRC_SIZE)) ++ packed.descriptor ++ packed.frame ++
    packed.crc ++ packed.padding

structure Transfer where
  packed : List Packed
  behind : List UInt8
  fits : (packed.flatMap Packed.bytes ++ behind).length = rxPendingLen

namespace Transfer

def frames (transfer : Transfer) : List Frame := transfer.packed.map Packed.frame

def completion (transfer : Transfer) : Completion where
  completionCode := if transfer.behind = [] then SUCCESS else SHORT_PACKET
  transferLength := transfer.behind.length
  buffer := transfer.packed.flatMap Packed.bytes ++ transfer.behind

end Transfer

theorem Packed.length_field (packed : Packed) (rest : List UInt8) :
    leValue ((packed.bytes ++ rest).take 4) &&& RX_LEN_MASK = packed.frame.length + CRC_SIZE := by
  have short := packed.short
  unfold Packed.bytes
  simp only [append_assoc]
  rw [take_left' (leBytes_length 4 _), leValue_leBytes, show RX_LEN_MASK = 2 ^ 15 - 1 from rfl,
    Nat.and_two_pow_sub_one_eq_mod]
  unfold RX_LEN_MASK at short
  omega

theorem Packed.payload (packed : Packed) (rest : List UInt8) {count : Nat} (inside : count ≤ packed.frame.length) :
    ((packed.bytes ++ rest).drop RX_DESC_SIZE).take count = packed.frame.take count := by
  have front : (leBytes 4 (packed.options * (RX_LEN_MASK + 1) + (packed.frame.length + CRC_SIZE)) ++
      packed.descriptor).length = RX_DESC_SIZE := by
    rw [length_append, packed.descriptorSize]
    rfl
  unfold Packed.bytes
  rw [append_assoc, append_assoc, append_assoc, drop_left' front, take_append_of_le_length inside]

theorem copyReceivedPacket_packed (packed : Packed) (rest : List UInt8) {transferred : Nat}
    (enough : RX_DESC_SIZE + packed.frame.length ≤ transferred) (packetLen : Nat) :
    copyReceivedPacket (packed.bytes ++ rest) transferred packetLen = .ok (packed.frame.take packetLen) := by
  have most : min packed.frame.length (transferred - RX_DESC_SIZE) = packed.frame.length := Nat.min_eq_left (by omega)
  have same : packed.frame.take (min packed.frame.length packetLen) = packed.frame.take packetLen := by
    rw [take_eq_take_iff]
    omega
  unfold copyReceivedPacket
  rw [if_neg (by omega)]
  dsimp only
  rw [packed.length_field, Nat.add_sub_cancel, most, packed.payload rest (Nat.min_le_left _ _), same]

theorem pollRxPacket_transfer (transfer : Transfer) : pollRxPacket transfer.completion rxPendingLen RTL8152_MTU =
    (transfer.frames.head?).elim (.error .invalidDescriptor) fun frame => .ok (frame.take RTL8152_MTU) := by
  have accepted : transfer.completion.completionCode = SUCCESS ∨ transfer.completion.completionCode = SHORT_PACKET := by
    by_cases full : transfer.behind = []
    · exact .inl (if_pos full)
    · exact .inr (if_neg full)
  have transferred : rxPendingLen - transfer.behind.length = (transfer.packed.flatMap Packed.bytes).length := by
    rw [← transfer.fits, length_append, Nat.add_sub_cancel]
  unfold pollRxPacket
  rw [if_pos accepted]
  change copyReceivedPacket (transfer.packed.flatMap Packed.bytes ++ transfer.behind)
    (rxPendingLen - transfer.behind.length) RTL8152_MTU = _
  rw [transferred]
  unfold Transfer.frames
  cases transfer.packed with
  | nil => rfl
  | cons first others =>
    rw [flatMap_cons, append_assoc]
    apply copyReceivedPacket_packed
    unfold Packed.bytes RX_DESC_SIZE
    simp only [length_append, leBytes_length, first.descriptorSize]
    omega

theorem pollRx_transfer (transfer : Transfer) (rxQueue : List Frame) (reserved : Nat) (again succeeds : Bool) :
    (Driver.pollRx succeeds [(transfer.completion, again)] ⟨rxQueue, reserved, true⟩).rxQueue =
      rxQueue ++ (transfer.frames.take 1).map (take RTL8152_MTU) := by
  have settled (driver : Driver) : (driver.pollRx succeeds []).rxQueue = driver.rxQueue := by
    unfold Driver.pollRx
    split
    · rfl
    · rfl
  unfold Driver.pollRx
  rw [pollRxPacket_transfer]
  cases transfer.frames with
  | nil => exact (settled _).trans (append_nil _).symm
  | cons first others => exact settled _

/-! The tokens. -/

structure Station where
  driver : Driver
  tokens : Nat
  queued : List Frame
  handed : List Frame

inductive Call where
  | handleInterrupt (succeeds : Bool) (events : List (Completion × Bool))
  | receive (succeeds : Bool) (events : List (Completion × Bool))
  | consume
  | drop

namespace Station

def new : Station := ⟨⟨[], 0, false⟩, 0, [], []⟩

def polled (station : Station) (succeeds : Bool) (events : List (Completion × Bool)) : Station :=
  let driver := station.driver.pollRx succeeds events
  { station with
    driver := driver
    queued := station.queued ++ driver.rxQueue.drop station.driver.rxQueue.length }

def receive (station : Station) : Station :=
  if station.driver.rxQueue.length ≤ station.driver.reservedReceives then station
  else
    { station with
      driver.reservedReceives := station.driver.reservedReceives + 1
      tokens := station.tokens + 1 }

def dropped (station : Station) : Station :=
  { station with
    driver.reservedReceives := station.driver.reservedReceives - 1
    tokens := station.tokens - 1 }

def perform (station : Station) : Call → Option Station
  | .handleInterrupt succeeds events => some (station.polled succeeds events)
  | .receive succeeds events => some (station.polled succeeds events).receive
  | .consume =>
    if station.tokens = 0 then some station
    else
      match station.driver.rxQueue with
      | [] => none
      | frame :: rest => some (dropped { station with driver.rxQueue := rest, handed := station.handed ++ [frame] })
  | .drop => if station.tokens = 0 then some station else some station.dropped

structure InOrder (station : Station) : Prop where
  order : station.handed ++ station.driver.rxQueue = station.queued
  reserved : station.driver.reservedReceives = station.tokens
  frames : station.tokens ≤ station.driver.rxQueue.length

variable {station : Station} (now : station.InOrder)

include now

theorem InOrder.polled (succeeds : Bool) (events : List (Completion × Bool)) : (station.polled succeeds events).InOrder := by
  obtain ⟨⟨more, queue⟩, reserved⟩ := station.driver.pollRx_appends succeeds events
  apply InOrder.mk
  · change station.handed ++ (station.driver.pollRx succeeds events).rxQueue =
      station.queued ++ (station.driver.pollRx succeeds events).rxQueue.drop station.driver.rxQueue.length
    rw [← queue, drop_left, ← append_assoc, now.order]
  · exact reserved.trans now.reserved
  · change station.tokens ≤ (station.driver.pollRx succeeds events).rxQueue.length
    rw [← queue, length_append]
    exact Nat.le_add_right_of_le now.frames

theorem InOrder.perform (call : Call) : ∃ next, station.perform call = some next ∧ next.InOrder := by
  have reserved := now.reserved
  have frames := now.frames
  cases call with
  | handleInterrupt succeeds events => exact ⟨_, rfl, now.polled succeeds events⟩
  | receive succeeds events =>
    have after := now.polled succeeds events
    refine ⟨_, rfl, ?_⟩
    unfold Station.receive
    split
    · exact after
    next more =>
      rw [Nat.not_le, after.reserved] at more
      exact ⟨after.order, congrArg (· + 1) after.reserved, more⟩
  | consume =>
    unfold Station.perform
    by_cases none : station.tokens = 0
    · exact ⟨station, if_pos none, now⟩
    · have order := now.order
      rw [if_neg none]
      cases queue : station.driver.rxQueue with
      | nil =>
        rw [queue] at frames
        exact absurd (Nat.le_zero.mp frames) none
      | cons frame rest =>
        rw [queue] at order frames
        rw [length_cons] at frames
        refine ⟨_, rfl, (append_assoc _ _ _).trans order, congrArg (· - 1) reserved, ?_⟩
        change station.tokens - 1 ≤ rest.length
        omega
  | drop =>
    unfold Station.perform
    by_cases none : station.tokens = 0
    · exact ⟨station, if_pos none, now⟩
    · refine ⟨_, if_neg none, now.order, congrArg (· - 1) reserved, ?_⟩
      exact (Nat.sub_le _ 1).trans frames

end Station

theorem first_eq_all_iff (frames : List Frame) (limit : Nat) :
    (frames.take 1).map (take limit) = frames ↔ frames.length ≤ 1 ∧ ∀ frame ∈ frames, frame.length ≤ limit := by
  rcases frames with _ | ⟨first, _ | ⟨second, others⟩⟩
  · simp
  · simp [take_eq_self_iff]
  · simp

/-- All frames of a transfer are queued exactly if it has one at most, of packet size. -/
theorem transfer_received_iff (transfer : Transfer) (rxQueue : List Frame) (reserved : Nat) (again succeeds : Bool)
    (calls : List Call) (usbCtrl : UInt16) : updatedUsbCtrl usbCtrl &&& RX_AGG_DISABLE = 0 ∧
    ((Driver.pollRx succeeds [(transfer.completion, again)] ⟨rxQueue, reserved, true⟩).rxQueue = rxQueue ++ transfer.frames ↔
        transfer.frames.length ≤ 1 ∧ ∀ frame ∈ transfer.frames, frame.length ≤ RTL8152_MTU) ∧
      ∃ last, calls.foldl (attempt Station.perform) (some .new) = some last ∧
        last.handed ++ last.driver.rxQueue = last.queued := by
  have start : Station.new.InOrder := ⟨rfl, rfl, Nat.le_refl 0⟩
  obtain ⟨last, reached, after⟩ := @run_total _ _ .new [] Station.perform (fun _ station => station.InOrder)
    (fun _ _ call now => now.perform call) start calls
  refine ⟨aggregation_enabled usbCtrl, ?_, last, reached, after.order⟩
  rw [pollRx_transfer, append_right_inj, first_eq_all_iff]

/-- The shortest frame on an Ethernet, its checksum apart, is of 60 bytes. -/
def shortest (byte : UInt8) : Packed where
  frame := replicate 60 byte
  crc := replicate 4 0
  options := 0
  descriptor := replicate 20 0
  padding := []
  crcSize := rfl
  descriptorSize := rfl
  short := by
    rw [length_replicate]
    exact Nat.le_of_ble_eq_true rfl
  padded := by
    rw [length_replicate]
    rfl

def twoFrames : Transfer where
  packed := [shortest 1, shortest 2]
  behind := replicate 1872 0
  fits := by
    simp only [flatMap_cons, flatMap_nil, length_append, length_replicate, Packed.bytes, shortest,
      leBytes_length]
    rfl

theorem second_frame_dropped : twoFrames.frames = [replicate 60 1, replicate 60 2] ∧
    (Driver.pollRx true [(twoFrames.completion, true)] ⟨[], 0, true⟩).rxQueue = [replicate 60 1] := by
  rw [pollRx_transfer]
  decide +kernel

end HermitLocal.Net.Rtl8152
