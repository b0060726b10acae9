import HermitLocal.Usb.Events
import HermitLocal.Lib.Wire
import HermitLocal.Lib.Program

/-! The Bulk-Only Transport of the mass storage driver. A command is a wrapper sent to the
device, a data phase, and a status wrapper received from it; the host waits for
the transfer events of an endpoint, while the device takes and fills the
transfers queued on the two rings in its own time. -/

namespace HermitLocal.Usb.BulkOnly
open Lib.Wire Lib.Simulation Lib.Program Usb.Events Function List

def CBW_SIGNATURE : Nat := 0x43425355
def CSW_SIGNATURE : Nat := 0x53425355
def CBW_LEN : Nat := 31
def CSW_LEN : Nat := 13
def STATUS_PASSED : UInt8 := 0

structure Cbw where
  tag : UInt32
  dataTransferLength : UInt32
  directionIn : Bool
  lun : UInt8
  cdb : List UInt8

namespace Cbw

def toBytes (cbw : Cbw) : List UInt8 :=
  leBytes 4 CBW_SIGNATURE ++ leBytes 4 cbw.tag.toNat ++ leBytes 4 cbw.dataTransferLength.toNat ++
    [if cbw.directionIn then 0x80 else 0x00, cbw.lun &&& 0x0f, UInt8.ofNat (min cbw.cdb.length 16)] ++
    (cbw.cdb ++ replicate 16 0).take 16

end Cbw

structure Csw where
  signature : Nat
  tag : Nat
  dataResidue : Nat
  status : UInt8

namespace Csw

def toBytes (csw : Csw) : List UInt8 :=
  leBytes 4 csw.signature ++ leBytes 4 csw.tag ++ leBytes 4 csw.dataResidue ++ [csw.status]

def ofBytes (bytes : List UInt8) : Csw :=
  ⟨leValue (bytes.take 4), leValue ((bytes.drop 4).take 4), leValue ((bytes.drop 8).take 4), (bytes.drop 12).headD 0⟩

def isOk (csw : Csw) : Bool := csw.signature == CSW_SIGNATURE && csw.status == STATUS_PASSED

end Csw

/-! The device and the controller. -/

structure Transfer where
  buf : Nat
  len : Nat

inductive Stage where
  | idle
  | dataIn (tag : Nat)
  | dataOut (tag : Nat)
  | status (tag : Nat)
  deriving DecidableEq

def Stage.ofCommand (bytes : List UInt8) : Option Stage :=
  if bytes.length = CBW_LEN ∧ leValue (bytes.take 4) = CBW_SIGNATURE then
    let tag := leValue ((bytes.drop 4).take 4)
    if leValue ((bytes.drop 8).take 4) = 0 then some (.status tag)
    else if (bytes.drop 12).headD 0 &&& 0x80 ≠ 0 then some (.dataIn tag)
    else some (.dataOut tag)
  else none

inductive Action where
  | accept
  | sendData (bytes : List UInt8) (residue : UInt32)
  | skipData
  | sendStatus (dataResidue : Nat) (status : UInt8)
  | failOut (code : UInt8)
  | failIn (code : UInt8)
  | event (trb : Trb)

structure World where
  slotId : UInt8
  epOut : UInt8
  epIn : UInt8
  tag : UInt32
  slice : List UInt8
  ctrl : XhciCtrl
  live : List Nat
  allocations : Nat
  memory : Nat → List UInt8
  outRing : List Transfer
  inRing : List Transfer
  outHalted : Bool
  inHalted : Bool
  stage : Stage
  time : Nat

namespace World

def outEvent (world : World) (code : UInt8) : XhciCtrl :=
  world.ctrl.produce [transferEvent world.slotId (world.epOut * 2) code 0]

def inEvent (world : World) (code : UInt8) (residue : UInt32) : XhciCtrl :=
  world.ctrl.produce [transferEvent world.slotId (world.epIn * 2 + 1) code residue]

def fill (world : World) (transfer : Transfer) (bytes : List UInt8) : Nat → List UInt8 :=
  update world.memory transfer.buf
    (bytes.take transfer.len ++ (world.memory transfer.buf).drop (bytes.take transfer.len).length)

def act (world : World) : Action → World
  | .accept =>
      match world.outHalted, world.outRing, world.stage with
      | false, transfer :: rest, .idle =>
          match Stage.ofCommand (world.memory transfer.buf) with
          | some stage => { world with outRing := rest, stage := stage, ctrl := world.outEvent SUCCESS }
          | none => world
      | false, _ :: rest, .dataOut tag =>
          { world with outRing := rest, stage := .status tag, ctrl := world.outEvent SUCCESS }
      | _, _, _ => world
  | .sendData bytes residue =>
      match world.inHalted, world.inRing, world.stage with
      | false, transfer :: rest, .dataIn tag =>
          { world with
            inRing := rest, stage := .status tag, memory := world.fill transfer bytes
            ctrl := world.inEvent (if bytes.length < transfer.len then SHORT_PACKET else SUCCESS) residue }
      | _, _, _ => world
  | .skipData =>
      match world.stage with
      | .dataIn tag => { world with stage := .status tag }
      | _ => world
  | .sendStatus dataResidue status =>
      match world.inHalted, world.inRing, world.stage with
      | false, transfer :: rest, .status tag =>
          { world with
            inRing := rest, stage := .idle
            memory := world.fill transfer (Csw.toBytes ⟨CSW_SIGNATURE, tag, dataResidue, status⟩)
            ctrl := world.inEvent (if CSW_LEN < transfer.len then SHORT_PACKET else SUCCESS) 0 }
      | _, _, _ => world
  | .failOut code => { world with outHalted := true, ctrl := world.outEvent code }
  | .failIn code => { world with inHalted := true, ctrl := world.inEvent code 0 }
  | .event trb => { world with ctrl := world.ctrl.produce [trb] }

end World

/-! The driver. -/

structure FrameAllocator where
  pick : Nat → List Nat → Nat → Option Nat
  fresh : ∀ count live size buf, pick count live size = some buf → buf ∉ live

inductive Phase where
  | cbw
  | data
  | csw
  deriving DecidableEq, Repr

/-- What `scsi_command` is made of: in each phase a buffer, bytes to send, a transfer and the wait for it, and what is then
taken from the buffer. -/
structure Host (State : Type) where
  alloc : Phase → Nat → EStateM UsbError State Nat
  fill : Phase → Nat → EStateM UsbError State Unit
  queueTransfer : Phase → Bool → Nat → Nat → EStateM UsbError State Unit
  waitTransfer : Phase → Bool → Nat → EStateM UsbError State Nat
  copyOut : Nat → Nat → EStateM UsbError State Unit
  readCsw : Nat → EStateM UsbError State Csw
  free : Nat → EStateM UsbError State Unit

namespace Host
variable {State : Type} (host : Host State)

def transfer (phase : Phase) (isIn : Bool) (buf len : Nat) : EStateM UsbError State Nat := do
  host.queueTransfer phase isIn buf len
  host.waitTransfer phase isIn len

def allocBuffers (dataLen : Nat) : EStateM UsbError State (Nat × Nat × Option Nat) := do
  let cbwBuf ← host.alloc .cbw CBW_LEN
  let cswBuf ← host.alloc .csw CSW_LEN
  if 0 < dataLen then do
    let dataBuf ← host.alloc .data dataLen
    pure (cbwBuf, cswBuf, some dataBuf)
  else pure (cbwBuf, cswBuf, none)

def sendCbw (cbwBuf : Nat) : EStateM UsbError State Nat := do
  host.fill .cbw cbwBuf
  host.transfer .cbw false cbwBuf CBW_LEN

def dataPhase (dataBuf : Option Nat) (dataLen : Nat) (directionIn : Bool) : EStateM UsbError State Nat :=
  match dataBuf with
  | none => pure 0
  | some buf =>
    if directionIn then do
      let len ← host.transfer .data true buf dataLen
      host.copyOut buf len
      pure len
    else do
      host.fill .data buf
      host.transfer .data false buf dataLen

def receiveCsw (cswBuf : Nat) : EStateM UsbError State Csw := do
  let _ ← host.transfer .csw true cswBuf CSW_LEN
  host.readCsw cswBuf

/-- The command up to its status, and the buffers in the order in which they are freed. -/
def exchange (dataLen : Nat) (directionIn : Bool) : EStateM UsbError State (List Nat × Nat × Csw) := do
  let (cbwBuf, cswBuf, dataBuf) ← host.allocBuffers dataLen
  let _ ← host.sendCbw cbwBuf
  let transferred ← host.dataPhase dataBuf dataLen directionIn
  let csw ← host.receiveCsw cswBuf
  return (cbwBuf :: cswBuf :: dataBuf.toList, transferred, csw)

/-- The length that `scsi_command` returns, and beside it the status that it has accepted. -/
def scsiCommand (dataLen : Nat) (directionIn : Bool) : EStateM UsbError State (Nat × Csw) := do
  let (bufs, transferred, csw) ← host.exchange dataLen directionIn
  bufs.forM host.free
  if csw.isOk then return (transferred, csw) else throw (.xferFail csw.status)

variable {host} {state last : State} {dataLen : Nat} {directionIn : Bool}

/-- A command that comes to its status has gone through all of its phases. -/
theorem exchange_ok {bufs : List Nat} {transferred : Nat} {csw : Csw}
    (ended : host.exchange dataLen directionIn state = .ok (bufs, transferred, csw) last) :
    ∃ cbwBuf cswBuf dataBuf allocated len sent moved,
      host.allocBuffers dataLen state = .ok (cbwBuf, cswBuf, dataBuf) allocated ∧
      host.sendCbw cbwBuf allocated = .ok len sent ∧
      host.dataPhase dataBuf dataLen directionIn sent = .ok transferred moved ∧
      host.receiveCsw cswBuf moved = .ok csw last ∧ bufs = cbwBuf :: cswBuf :: dataBuf.toList := by
  obtain ⟨⟨cbwBuf, cswBuf, dataBuf⟩, allocated, allocRan, ended⟩ := bind_eq_ok.mp ended
  obtain ⟨len, sent, cbwRan, ended⟩ := bind_eq_ok.mp ended
  obtain ⟨moves, moved, dataRan, ended⟩ := bind_eq_ok.mp ended
  obtain ⟨status, received, cswRan, ended⟩ := bind_eq_ok.mp ended
  cases ended
  exact ⟨cbwBuf, cswBuf, dataBuf, allocated, len, sent, moved, allocRan, cbwRan, dataRan, cswRan, rfl⟩

theorem scsiCommand_ok {transferred : Nat} {csw : Csw}
    (ended : host.scsiCommand dataLen directionIn state = .ok (transferred, csw) last) :
    ∃ bufs between, host.exchange dataLen directionIn state = .ok (bufs, transferred, csw) between ∧ csw.isOk = true := by
  obtain ⟨⟨bufs, moves, status⟩, between, exchanged, ended⟩ := bind_eq_ok.mp ended
  obtain ⟨_, freed, _, ended⟩ := bind_eq_ok.mp ended
  split at ended
  next ok =>
    cases ended
    exact ⟨bufs, between, exchanged, ok⟩
  · cases ended

/-- What each step of a command keeps. -/
structure Invariant (host : Host State) (holds : State → Prop) : Prop where
  alloc : ∀ phase size, Keeps holds (host.alloc phase size)
  fill : ∀ phase buf, Keeps holds (host.fill phase buf)
  queueTransfer : ∀ phase isIn buf len, Keeps holds (host.queueTransfer phase isIn buf len)
  waitTransfer : ∀ phase isIn len, Keeps holds (host.waitTransfer phase isIn len)
  copyOut : ∀ buf len, Keeps holds (host.copyOut buf len)
  readCsw : ∀ buf, Keeps holds (host.readCsw buf)
  free : ∀ buf, Keeps holds (host.free buf)

section Invariant
variable {holds : State → Prop} (invariant : host.Invariant holds)

include invariant

theorem transfer_keeps (phase : Phase) (isIn : Bool) (buf len : Nat) : Keeps holds (host.transfer phase isIn buf len) :=
  (invariant.queueTransfer phase isIn buf len).bind fun _ => invariant.waitTransfer phase isIn len

theorem allocBuffers_keeps (dataLen : Nat) : Keeps holds (host.allocBuffers dataLen) := by
  apply (invariant.alloc _ _).bind
  intro cbwBuf
  apply (invariant.alloc _ _).bind
  intro cswBuf
  split
  · exact (invariant.alloc _ _).bind fun _ => keeps_pure _
  · exact keeps_pure _

theorem dataPhase_keeps (dataBuf : Option Nat) (dataLen : Nat) (directionIn : Bool) :
    Keeps holds (host.dataPhase dataBuf dataLen directionIn) := by
  unfold dataPhase
  split
  · exact keeps_pure 0
  · split
    · apply (transfer_keeps invariant _ _ _ _).bind
      exact fun len => (invariant.copyOut _ len).bind fun _ => keeps_pure len
    · exact (invariant.fill _ _).bind fun _ => transfer_keeps invariant _ _ _ _

theorem exchange_keeps (dataLen : Nat) (directionIn : Bool) : Keeps holds (host.exchange dataLen directionIn) := by
  apply (allocBuffers_keeps invariant dataLen).bind
  intro bufs
  apply ((invariant.fill _ _).bind fun _ => transfer_keeps invariant _ _ _ _).bind
  intro sent
  apply (dataPhase_keeps invariant _ _ _).bind
  intro transferred
  apply ((transfer_keeps invariant _ _ _ _).bind fun _ => invariant.readCsw _).bind
  exact fun csw => keeps_pure _

/-- What each step keeps, the command keeps, wherever it ends. -/
theorem scsiCommand_keeps (dataLen : Nat) (directionIn : Bool) : Keeps holds (host.scsiCommand dataLen directionIn) := by
  apply (exchange_keeps invariant dataLen directionIn).bind
  intro exchanged
  apply (keeps_forM invariant.free _).bind
  intro freed
  split
  · exact keeps_pure _
  · exact keeps_throw _

end Invariant

end Host

abbrev Driver := EStateM UsbError World

section Driver
variable (allocator : FrameAllocator) (schedule : Nat → List Action)

def alloc (size : Nat) : Driver Nat := fun world =>
  match allocator.pick world.allocations world.live size with
  | none => .error .ooRam world
  | some buf => .ok buf { world with
      live := buf :: world.live, allocations := world.allocations + 1
      memory := update world.memory buf (replicate size 0) }

def free (buf : Nat) : Driver Unit := modify fun world => { world with live := world.live.erase buf }

def store (buf : Nat) (bytes : List UInt8) : Driver Unit :=
  modify fun world => { world with memory := update world.memory buf bytes }

def queueTransfer (isIn : Bool) (buf len : Nat) : Driver Unit := modify fun world =>
  if isIn then { world with inRing := world.inRing ++ [⟨buf, len⟩] }
  else { world with outRing := world.outRing ++ [⟨buf, len⟩] }

/-- What the device and the controller do before the next poll. -/
def pass (world : World) : World := { (schedule world.time).foldl World.act world with time := world.time + 1 }

def watch : Watch World := ⟨pass schedule, World.ctrl, fun world ctrl => { world with ctrl := ctrl }⟩

@[irreducible] def waitTransfer (endpointId : UInt8) (requestedLen : Nat) : Driver Nat := fun world =>
  let waited := pollLoop (watch schedule) (ofEndpoint world.slotId endpointId) (judgeTransfer requestedLen)
    (.timeout "wait_transfer timeout") WAIT_TRANSFER_LOOPS world
  match waited.result with
  | .ok len => .ok len waited.state
  | .error error => .error error waited.state

def copyIn (dma : List UInt8) (len : Nat) (slice : List UInt8) : List UInt8 :=
  slice.mapIdx fun i old => if i < len then dma.getD i 0 else old

/-- The driver of a device, about to send a command. -/
def host (cbw : Cbw) : Host World where
  alloc _ := alloc allocator
  fill
    | .cbw, buf => do
        store buf cbw.toBytes
        modify fun world => { world with tag := world.tag + 1 }
    | _, buf => do store buf (← get).slice
  queueTransfer _ := queueTransfer
  waitTransfer _ isIn len := do
    let world ← get
    waitTransfer schedule (if isIn then world.epIn * 2 + 1 else world.epOut * 2) len
  copyOut buf len := modify fun world => { world with slice := copyIn (world.memory buf) len world.slice }
  readCsw buf := do return Csw.ofBytes ((← get).memory buf)
  free := free

theorem host_waitTransfer (cbw : Cbw) (phase : Phase) (isIn : Bool) (len : Nat) (world : World) :
    (host allocator schedule cbw).waitTransfer phase isIn len world =
      waitTransfer schedule (if isIn then world.epIn * 2 + 1 else world.epOut * 2) len world := rfl

/-- What `scsi_command` returns, and beside it the wrappers it sent and accepted. -/
structure Accepted where
  transferred : Nat
  cbw : Cbw
  csw : Csw

def scsiCommand (lun : UInt8) (cdb : List UInt8) (data : Option (List UInt8)) (directionIn : Bool) :
    Driver Accepted := do
  let dataLen := (data.getD []).length
  modify fun world => { world with slice := data.getD [] }
  let cbw : Cbw := ⟨(← get).tag, UInt32.ofNat dataLen, directionIn, lun, cdb⟩
  let (transferred, csw) ← (host allocator schedule cbw).scsiCommand dataLen directionIn
  return ⟨transferred, cbw, csw⟩

def READ_10 : UInt8 := 0x28

def read10 (lba count : Nat) : List UInt8 :=
  [READ_10, 0, UInt8.ofNat (lba >>> 24), UInt8.ofNat (lba >>> 16), UInt8.ofNat (lba >>> 8), UInt8.ofNat lba, 0,
    UInt8.ofNat (count >>> 8), UInt8.ofNat count, 0]

end Driver

/-! The wrappers as bytes. -/

theorem ofBytes_toBytes_tag (csw : Csw) : (Csw.ofBytes csw.toBytes).tag = csw.tag % 2 ^ 32 := by
  have bytes : ((csw.toBytes).drop 4).take 4 = leBytes 4 csw.tag := by
    simp [Csw.toBytes]
  rw [Csw.ofBytes, bytes, leValue_leBytes]
  rfl

theorem ofBytes_zeros : (Csw.ofBytes (replicate CSW_LEN 0)).isOk = false := by decide

structure Own where
  tag : Nat
  directionIn : Bool
  hasData : Bool
  cbw : Nat
  csw : Nat

inductive Starts (own : Own) : Stage → Prop
  | status : Starts own (.status own.tag)
  | dataIn : own.directionIn = true → own.hasData = true → Starts own (.dataIn own.tag)
  | dataOut : own.directionIn = false → Starts own (.dataOut own.tag)

theorem toBytes_length (cbw : Cbw) : cbw.toBytes.length = CBW_LEN := by
  simp [Cbw.toBytes, CBW_LEN]

theorem ofCommand_toBytes (own : Own) (cbw : Cbw) (tag : own.tag = cbw.tag.toNat)
    (direction : own.directionIn = cbw.directionIn) (hasData : cbw.dataTransferLength ≠ 0 → own.hasData = true) :
    ∃ stage, Stage.ofCommand cbw.toBytes = some stage ∧ Starts own stage := by
  have signature : leValue (cbw.toBytes.take 4) = CBW_SIGNATURE := by
    have bytes : cbw.toBytes.take 4 = leBytes 4 CBW_SIGNATURE := by simp [Cbw.toBytes]
    rw [bytes]
    decide
  have tagBytes : leValue ((cbw.toBytes.drop 4).take 4) = own.tag := by
    have bytes : (cbw.toBytes.drop 4).take 4 = leBytes 4 cbw.tag.toNat := by simp [Cbw.toBytes]
    rw [bytes, leValue_leBytes, tag]
    exact Nat.mod_eq_of_lt cbw.tag.toNat_lt
  have length : leValue ((cbw.toBytes.drop 8).take 4) = cbw.dataTransferLength.toNat := by
    have bytes : (cbw.toBytes.drop 8).take 4 = leBytes 4 cbw.dataTransferLength.toNat := by
      simp [Cbw.toBytes, drop_append, drop_of_length_le]
    rw [bytes, leValue_leBytes]
    exact Nat.mod_eq_of_lt cbw.dataTransferLength.toNat_lt
  have flags : (cbw.toBytes.drop 12).headD 0 = if cbw.directionIn then 0x80 else 0x00 := by simp [Cbw.toBytes]
  rw [Stage.ofCommand, if_pos ⟨toBytes_length cbw, signature⟩]
  simp only [tagBytes, length, flags]
  split
  · exact ⟨_, rfl, .status⟩
  next some =>
    have nonzero : cbw.dataTransferLength ≠ 0 := fun zero => some (congrArg UInt32.toNat zero)
    cases known : cbw.directionIn with
    | true => exact ⟨_, rfl, .dataIn (direction.trans known) (hasData nonzero)⟩
    | false => exact ⟨_, rfl, .dataOut (direction.trans known)⟩

/-! What one command may find on its way. -/

def Wrapper (own : Own) (bytes : List UInt8) : Prop :=
  bytes = replicate CSW_LEN 0 ∨
    ∃ dataResidue status, bytes = Csw.toBytes ⟨CSW_SIGNATURE, own.tag, dataResidue, status⟩

variable {bytes : List UInt8}

theorem Wrapper.length {own : Own} (wrapper : Wrapper own bytes) : bytes.length = CSW_LEN := by
  rcases wrapper with rfl | ⟨dataResidue, status, rfl⟩
  · exact length_replicate
  · simp [Csw.toBytes, CSW_LEN]

structure Queued (own : Own) (outs ins : List Transfer) : Prop where
  noOuts : own.directionIn = true → outs = []
  single : own.directionIn = false → ins.length ≤ 1
  buffers : ∀ transfer ∈ ins, transfer.buf ≠ own.cbw ∧ (transfer.buf = own.csw → transfer.len = CSW_LEN)
  data : own.directionIn = true → own.hasData = true → ∀ transfer ∈ ins.head?, transfer.buf ≠ own.csw

inductive Progress (own : Own) (outs ins : List Transfer) : Stage → List Transfer → List Transfer → Prop
  | waiting : Progress own outs ins .idle (⟨own.cbw, CBW_LEN⟩ :: outs) ins
  | dataIn : own.directionIn = true → own.hasData = true → Progress own outs ins (.dataIn own.tag) [] ins
  | dataOut (left : List Transfer) : own.directionIn = false → Progress own outs ins (.dataOut own.tag) left ins
  | status (left : List Transfer) : (own.directionIn = true → left = []) →
      Progress own outs ins (.status own.tag) left ins
  | received : own.directionIn = true → own.hasData = true → ins ≠ [] →
      Progress own outs ins (.status own.tag) [] ins.tail
  | done (left : List Transfer) : own.directionIn = true → Progress own outs ins .idle [] left
  | finished (stage : Stage) (left : List Transfer) : own.directionIn = false → ins ≠ [] →
      Progress own outs ins stage left []

structure Owned (own : Own) (outs ins : List Transfer) (world : World) : Prop where
  progress : Progress own outs ins world.stage world.outRing world.inRing
  command : ∃ stage, Stage.ofCommand (world.memory own.cbw) = some stage ∧ Starts own stage
  wrapper : Wrapper own (world.memory own.csw)

section Device
variable {own : Own} {outs ins : List Transfer} {world : World}

section
variable (owned : Owned own outs ins world)

include owned

theorem Owned.filled {transfer : Transfer}
    (queued : transfer.buf ≠ own.cbw ∧ (transfer.buf = own.csw → transfer.len = CSW_LEN))
    (own_status : transfer.buf = own.csw →
      ∃ dataResidue status, bytes = Csw.toBytes ⟨CSW_SIGNATURE, own.tag, dataResidue, status⟩) :
    (∃ stage, Stage.ofCommand (world.fill transfer bytes own.cbw) = some stage ∧ Starts own stage) ∧
      Wrapper own (world.fill transfer bytes own.csw) := by
  constructor
  · rw [World.fill, update_of_ne queued.1.symm]
    exact owned.command
  · by_cases status : transfer.buf = own.csw
    · obtain ⟨dataResidue, code, rfl⟩ := own_status status
      have length : (Csw.toBytes ⟨CSW_SIGNATURE, own.tag, dataResidue, code⟩).length = CSW_LEN := by
        simp [Csw.toBytes, CSW_LEN]
      rw [World.fill, status, update_self, queued.2 status, take_of_length_le length.le,
        drop_of_length_le (by rw [owned.wrapper.length, length]), append_nil]
      exact .inr ⟨dataResidue, code, rfl⟩
    · rw [World.fill, update_of_ne (Ne.symm status)]
      exact owned.wrapper

section
variable (queued : Queued own outs ins)

include queued

theorem Owned.accept : Owned own outs ins (world.act .accept) := by
  obtain ⟨slotId, epOut, epIn, tag, slice, ctrl, live, allocations, memory, outRing, inRing, outHalted, inHalted,
    stage, time⟩ := world
  obtain ⟨progress, command, wrapper⟩ := owned
  dsimp only at progress command wrapper
  cases outHalted with
  | true => exact ⟨progress, command, wrapper⟩
  | false =>
    cases progress with
    | waiting =>
      obtain ⟨first, parsed, starts⟩ := command
      simp only [World.act, parsed]
      refine ⟨?_, ⟨first, parsed, starts⟩, wrapper⟩
      cases starts with
      | status => exact .status outs queued.noOuts
      | dataIn direction hasData =>
        rw [queued.noOuts direction]
        exact .dataIn direction hasData
      | dataOut direction => exact .dataOut outs direction
    | dataIn direction hasData => exact ⟨.dataIn direction hasData, command, wrapper⟩
    | dataOut _ direction =>
      cases outRing with
      | nil => exact ⟨.dataOut [] direction, command, wrapper⟩
      | cons transfer rest => exact ⟨.status rest (by simp [direction]), command, wrapper⟩
    | status _ direction =>
      cases outRing with
      | nil => exact ⟨.status [] direction, command, wrapper⟩
      | cons transfer rest => exact ⟨.status _ direction, command, wrapper⟩
    | received direction hasData some => exact ⟨.received direction hasData some, command, wrapper⟩
    | done _ direction => exact ⟨.done _ direction, command, wrapper⟩
    | finished _ _ direction some =>
      simp only [World.act]
      repeat' split
      all_goals exact ⟨.finished _ _ direction some, command, wrapper⟩

theorem Owned.sendData (bytes : List UInt8) (residue : UInt32) : Owned own outs ins (world.act (.sendData bytes residue)) := by
  rw [World.act]
  split
  next transfer rest tag halted ring stage =>
    have progress := owned.progress
    rw [ring, stage] at progress
    generalize world.outRing = left at progress
    cases progress with
    | dataIn direction hasData =>
      have first := queued.data direction hasData transfer rfl
      obtain ⟨command, wrapper⟩ := owned.filled (queued.buffers transfer mem_cons_self)
        fun status => absurd status first
      exact ⟨.received direction hasData (cons_ne_nil _ _), command, wrapper⟩
  · exact owned

theorem Owned.sendStatus (dataResidue : Nat) (status : UInt8) :
    Owned own outs ins (world.act (.sendStatus dataResidue status)) := by
  rw [World.act]
  split
  next transfer rest tag halted ring stage =>
    have progress := owned.progress
    rw [ring, stage] at progress
    generalize inRing : transfer :: rest = right at progress
    generalize world.outRing = left at progress
    cases progress with
    | status _ direction =>
      obtain ⟨command, wrapper⟩ := owned.filled (queued.buffers transfer (inRing ▸ mem_cons_self))
        fun _ => ⟨dataResidue, status, rfl⟩
      refine ⟨?_, command, wrapper⟩
      cases known : own.directionIn with
      | true =>
        rw [direction known]
        exact .done rest known
      | false =>
        have single := queued.single known
        rw [← inRing, length_cons] at single
        rw [length_eq_zero_iff.mp (Nat.le_zero.mp (Nat.le_of_succ_le_succ single))]
        exact .finished _ _ known (inRing ▸ cons_ne_nil _ _)
    | received direction hasData some =>
      obtain ⟨command, wrapper⟩ := owned.filled
        (queued.buffers transfer (mem_of_mem_tail (inRing ▸ mem_cons_self)))
        fun _ => ⟨dataResidue, status, rfl⟩
      exact ⟨.done rest direction, command, wrapper⟩
    | finished => cases inRing
  · exact owned

theorem Owned.act (action : Action) : Owned own outs ins (world.act action) := by
  cases action with
  | accept => exact owned.accept queued
  | sendData bytes residue => exact owned.sendData queued bytes residue
  | sendStatus dataResidue status => exact owned.sendStatus queued dataResidue status
  | skipData =>
    obtain ⟨progress, command, wrapper⟩ := owned
    rw [World.act]
    split
    next tag stage =>
      rw [stage] at progress
      refine ⟨?_, command, wrapper⟩
      generalize world.outRing = left at *
      generalize world.inRing = right at *
      cases progress with
      | dataIn direction hasData => exact .status [] fun _ => rfl
      | finished _ _ direction some => exact .finished _ _ direction some
    · exact ⟨progress, command, wrapper⟩
  | failOut code | failIn code | event trb => exact { owned with }

theorem Owned.acts (actions : List Action) : Owned own outs ins (actions.foldl World.act world) := by
  induction actions generalizing world with
  | nil => exact owned
  | cons action rest ih => exact ih (owned.act queued action)

end

end

end Device

/-! One call of the driver. -/

section Call
variable {allocator : FrameAllocator} {schedule : Nat → List Action} {own : Own} {outs ins : List Transfer}
  {world after : World}

variable {len : Nat}

theorem waitTransfer_owned (queued : Queued own outs ins) {endpointId : UInt8} {requestedLen : Nat}
    (owned : Owned own outs ins world) (waited : waitTransfer schedule endpointId requestedLen world = .ok len after) :
    Owned own outs ins after := by
  have ended : Owned own outs ins (pollLoop (watch schedule) (ofEndpoint world.slotId endpointId)
      (judgeTransfer requestedLen) (.timeout "wait_transfer timeout") WAIT_TRANSFER_LOOPS world).state := by
    apply pollLoop_keeps _ _ _ owned
    · intro world owned
      exact { owned.acts queued (schedule world.time) with }
    · intro world ctrl owned
      exact { owned with }
  rw [waitTransfer] at waited
  split at waited
  · cases waited
    exact ended
  · cases waited

theorem Owned.queueIn (owned : Owned own outs ins world) (transfer : Transfer)
    (behind : own.directionIn = false → ins = []) :
    Owned own outs (ins ++ [transfer]) { world with inRing := world.inRing ++ [transfer] } := by
  obtain ⟨progress, command, wrapper⟩ := owned
  refine ⟨?_, command, wrapper⟩
  dsimp only
  generalize world.stage = stage at progress ⊢
  generalize world.outRing = left at progress ⊢
  generalize world.inRing = right at progress ⊢
  cases progress with
  | waiting => exact .waiting
  | dataIn direction hasData => exact .dataIn direction hasData
  | dataOut _ direction => exact .dataOut _ direction
  | status _ direction => exact .status _ direction
  | received direction hasData some =>
    rw [← tail_append_of_ne_nil some]
    exact .received direction hasData (append_ne_nil_of_left_ne_nil some _)
  | done _ direction => exact .done _ direction
  | finished _ _ direction some => exact absurd (behind direction) some

structure Quiet (world : World) : Prop where
  outRing : world.outRing = []
  inRing : world.inRing = []
  stage : world.stage = .idle

theorem sendCbw_owned {cbw : Cbw} (quiet : Quiet world) (apart : own.cbw ≠ own.csw)
    (tag : own.tag = cbw.tag.toNat) (direction : own.directionIn = cbw.directionIn)
    (hasData : cbw.dataTransferLength ≠ 0 → own.hasData = true)
    (zeroed : world.memory own.csw = replicate CSW_LEN 0)
    (sent : (host allocator schedule cbw).sendCbw own.cbw world = .ok len after) : Owned own [] [] after := by
  have queued : Queued own [] [] := ⟨fun _ => rfl, fun _ => Nat.zero_le _, by simp, by simp⟩
  refine waitTransfer_owned queued ⟨?_, ?_, ?_⟩ sent
  · change Progress own [] [] world.stage (world.outRing ++ [⟨own.cbw, CBW_LEN⟩]) world.inRing
    rw [quiet.outRing, quiet.inRing, quiet.stage]
    exact .waiting
  · change ∃ stage, Stage.ofCommand (update world.memory own.cbw cbw.toBytes own.cbw) = some stage ∧ _
    rw [update_self]
    exact ofCommand_toBytes own cbw tag direction hasData
  · change Wrapper own (update world.memory own.cbw cbw.toBytes own.csw)
    rw [update_of_ne apart.symm]
    exact .inl zeroed

theorem Owned.queueOut (owned : Owned own [] [] world) (direction : own.directionIn = false) (transfer : Transfer) :
    Owned own [transfer] [] { world with outRing := world.outRing ++ [transfer] } := by
  obtain ⟨progress, command, wrapper⟩ := owned
  refine ⟨?_, command, wrapper⟩
  dsimp only
  generalize world.stage = stage at progress ⊢
  generalize world.outRing = left at progress ⊢
  generalize world.inRing = right at progress ⊢
  cases progress with
  | waiting => exact .waiting
  | dataIn known hasData | received known hasData some | done _ known => simp [direction] at known
  | dataOut _ _ => exact .dataOut _ direction
  | status _ _ => exact .status _ (by simp [direction])
  | finished _ _ _ some => exact absurd rfl some

theorem Owned.stored (owned : Owned own outs ins world) {buf : Nat} (cbw : buf ≠ own.cbw) (csw : buf ≠ own.csw)
    (bytes : List UInt8) : Owned own outs ins { world with memory := update world.memory buf bytes } := by
  refine ⟨owned.progress, ?_, ?_⟩
  · dsimp only
    rw [update_of_ne cbw.symm]
    exact owned.command
  · dsimp only
    rw [update_of_ne csw.symm]
    exact owned.wrapper

theorem dataPhase_owned {cbw : Cbw} {dataBuf : Option Nat} {dataLen transferred : Nat} (owned : Owned own [] [] world)
    (apart : own.cbw ≠ own.csw) (hasData : own.hasData = dataBuf.isSome)
    (buffers : ∀ buf ∈ dataBuf, buf ≠ own.cbw ∧ buf ≠ own.csw)
    (ran : (host allocator schedule cbw).dataPhase dataBuf dataLen own.directionIn world = .ok transferred after) :
    ∃ outs ins, Owned own outs ins after ∧ Queued own outs (ins ++ [⟨own.csw, CSW_LEN⟩]) ∧
      (own.directionIn = false → ins = []) := by
  have csw : own.csw ≠ own.cbw ∧ (own.csw = own.csw → CSW_LEN = CSW_LEN) := ⟨apart.symm, fun _ => rfl⟩
  cases dataBuf with
  | none =>
    cases ran
    exact ⟨[], [], owned, ⟨fun _ => rfl, fun _ => Nat.le_refl 1, by simpa using csw, by simp [hasData]⟩, fun _ => rfl⟩
  | some buf =>
    obtain ⟨cbwApart, cswApart⟩ := buffers buf rfl
    cases direction : own.directionIn with
    | true =>
      rw [direction] at ran
      simp only [Host.dataPhase, Host.transfer, host, if_true, bind_eq_ok, get_eq_ok] at ran
      obtain ⟨len, _, ⟨_, _, queued, _, _, ⟨rfl, rfl⟩, waited⟩, _, _, copied, returned⟩ := ran
      cases queued
      have first : Queued own [] ([] ++ [⟨buf, dataLen⟩]) :=
        ⟨fun _ => rfl, by simp [direction], by simp [cbwApart, cswApart], by simp [cswApart]⟩
      have both := waitTransfer_owned first (owned.queueIn ⟨buf, dataLen⟩ (by simp [direction])) waited
      cases copied
      cases returned
      refine ⟨[], [⟨buf, dataLen⟩], { both with }, ⟨fun _ => rfl, ?_, ?_, ?_⟩, ?_⟩
      · simp [direction]
      · simp [cbwApart, cswApart, apart.symm]
      · simp [cswApart]
      · simp
    | false =>
      rw [direction] at ran
      simp only [Host.dataPhase, Host.transfer, host, Bool.false_eq_true, if_false, bind_eq_ok, get_eq_ok] at ran
      obtain ⟨_, _, ⟨_, _, ⟨rfl, rfl⟩, stored⟩, _, _, queued, _, _, ⟨rfl, rfl⟩, waited⟩ := ran
      cases stored
      cases queued
      have one : Queued own [⟨buf, dataLen⟩] [] := ⟨by simp [direction], by simp, by simp, by simp⟩
      refine ⟨[⟨buf, dataLen⟩], [], ?_, ⟨by simp [direction], fun _ => Nat.le_refl 1, ?_, by simp [direction]⟩, ?_⟩
      · exact waitTransfer_owned one ((owned.stored cbwApart cswApart _).queueOut direction ⟨buf, dataLen⟩) waited
      · simpa using csw
      · exact fun _ => rfl

theorem receiveCsw_wrapper {cbw : Cbw} {csw : Csw} (owned : Owned own outs ins world)
    (queued : Queued own outs (ins ++ [⟨own.csw, CSW_LEN⟩])) (behind : own.directionIn = false → ins = [])
    (received : (host allocator schedule cbw).receiveCsw own.csw world = .ok csw after) :
    ∃ bytes, csw = Csw.ofBytes bytes ∧ Wrapper own bytes := by
  simp only [Host.receiveCsw, Host.transfer, host, if_true, bind_eq_ok, get_eq_ok] at received
  obtain ⟨_, between, ⟨_, _, put, _, _, ⟨rfl, rfl⟩, waited⟩, _, _, ⟨rfl, rfl⟩, received⟩ := received
  cases put
  have still := waitTransfer_owned queued (owned.queueIn ⟨own.csw, CSW_LEN⟩ behind) waited
  cases received
  exact ⟨_, rfl, still.wrapper⟩

theorem accepted_tag {csw : Csw} (small : own.tag < 2 ^ 32) (read : csw = Csw.ofBytes bytes)
    (wrapper : Wrapper own bytes) (ok : csw.isOk = true) : csw.tag = own.tag := by
  rcases wrapper with rfl | ⟨dataResidue, status, rfl⟩
  · rw [read, ofBytes_zeros] at ok
    cases ok
  · rw [read, ofBytes_toBytes_tag]
    exact Nat.mod_eq_of_lt small

theorem alloc_eq_ok {size buf : Nat} :
    alloc allocator size world = .ok buf after ↔ allocator.pick world.allocations world.live size = some buf ∧
      after = { world with
        live := buf :: world.live, allocations := world.allocations + 1
        memory := update world.memory buf (replicate size 0) } := by
  rw [alloc]
  cases allocator.pick world.allocations world.live size with
  | none => simp
  | some found =>
    simp only [EStateM.Result.ok.injEq, Option.some.injEq]
    constructor
    · rintro ⟨rfl, rfl⟩
      exact ⟨rfl, rfl⟩
    · rintro ⟨rfl, rfl⟩
      exact ⟨rfl, rfl⟩

structure Buffers (dataLen cbwBuf cswBuf : Nat) (dataBuf : Option Nat) (after : World) : Prop where
  apart : cbwBuf ≠ cswBuf
  data : ∀ buf ∈ dataBuf, buf ≠ cbwBuf ∧ buf ≠ cswBuf
  some : dataBuf.isSome = decide (0 < dataLen)
  zeroed : after.memory cswBuf = replicate CSW_LEN 0

theorem allocBuffers_ok {cbw : Cbw} {dataLen cbwBuf cswBuf : Nat} {dataBuf : Option Nat} (quiet : Quiet world)
    (allocated : (host allocator schedule cbw).allocBuffers dataLen world = .ok (cbwBuf, cswBuf, dataBuf) after) :
    Quiet after ∧ Buffers dataLen cbwBuf cswBuf dataBuf after := by
  simp only [Host.allocBuffers, host, bind_eq_ok, alloc_eq_ok] at allocated
  obtain ⟨first, _, ⟨_, rfl⟩, second, _, ⟨picked, rfl⟩, allocated⟩ := allocated
  have apart : second ≠ first := fun same => allocator.fresh _ _ _ _ picked (same ▸ mem_cons_self)
  by_cases some : 0 < dataLen
  · simp only [some, if_true, bind_eq_ok, alloc_eq_ok] at allocated
    obtain ⟨third, _, ⟨taken, rfl⟩, returned⟩ := allocated
    have fresh := allocator.fresh _ _ _ _ taken
    simp only [mem_cons, not_or] at fresh
    cases returned
    refine ⟨{ quiet with }, apart.symm, ?_, by simp [some], ?_⟩
    · rintro buf ⟨⟩
      exact ⟨fresh.2.1, fresh.1⟩
    · dsimp only
      rw [update_of_ne (Ne.symm fresh.1), update_self]
  · simp only [some, if_false] at allocated
    cases allocated
    refine ⟨{ quiet with }, apart.symm, ?_, by simp [some], ?_⟩
    · rintro buf ⟨⟩
    · exact update_self ..

theorem scsiCommand_own_status {lun : UInt8} {cdb : List UInt8} {data : Option (List UInt8)} {directionIn : Bool}
    {result : Accepted} (quiet : Quiet world)
    (ran : scsiCommand allocator schedule lun cdb data directionIn world = .ok result after) :
    result.csw.tag = result.cbw.tag.toNat := by
  obtain ⟨_, _, sliced, ran⟩ := bind_eq_ok.mp ran
  cases sliced
  obtain ⟨started, _, got, ran⟩ := bind_eq_ok.mp ran
  obtain ⟨rfl, rfl⟩ := get_eq_ok.mp got
  obtain ⟨⟨transferred, csw⟩, _, commanded, returned⟩ := bind_eq_ok.mp ran
  cases returned
  obtain ⟨bufs, _, exchanged, ok⟩ := Host.scsiCommand_ok commanded
  obtain ⟨cbwBuf, cswBuf, dataBuf, _, _, _, _, allocated, sent, moved, received, -⟩ := Host.exchange_ok exchanged
  let begun : World := { world with slice := data.getD [] }
  have quiet : Quiet begun := { quiet with }
  obtain ⟨ready, buffers⟩ := allocBuffers_ok quiet allocated
  -- The call as the device sees it; a length that the wrapper cannot hold may look like no data.
  let own : Own := ⟨world.tag.toNat, directionIn, dataBuf.isSome, cbwBuf, cswBuf⟩
  have hasData : UInt32.ofNat (data.getD []).length ≠ 0 → own.hasData = true := by
    intro nonzero
    change dataBuf.isSome = true
    rw [buffers.some, decide_eq_true_eq, Nat.pos_iff_ne_zero]
    rintro empty
    rw [empty] at nonzero
    exact nonzero rfl
  have owned : Owned own [] [] _ := sendCbw_owned ready buffers.apart rfl rfl hasData buffers.zeroed sent
  obtain ⟨outs, ins, owned, queued, behind⟩ := dataPhase_owned owned buffers.apart rfl buffers.data moved
  obtain ⟨bytes, read, wrapper⟩ := receiveCsw_wrapper owned queued behind received
  exact accepted_tag world.tag.toNat_lt read wrapper ok

end Call

/-! Whole sessions. -/

inductive Input where
  | idle (actions : List Action)
  | scsiCommand (lun : UInt8) (cdb : List UInt8) (data : Option (List UInt8)) (directionIn : Bool)

structure Session where
  world : World
  accepted : List (Cbw × Csw)

def Session.record (session : Session) : EStateM.Result UsbError World Accepted → Session
  | .ok result world => ⟨world, (result.cbw, result.csw) :: session.accepted⟩
  | .error _ world => { session with world := world }

def Session.step (allocator : FrameAllocator) (schedule : Nat → List Action) (session : Session) : Input → Session
  | .idle actions => { session with world := actions.foldl World.act session.world }
  | .scsiCommand lun cdb data directionIn =>
      session.record (scsiCommand allocator schedule lun cdb data directionIn session.world)

def Settled (session : Session) : Input → Prop
  | .idle _ => True
  | .scsiCommand _ _ _ _ => Quiet session.world

def Paired (session : Session) : Prop := ∀ pair ∈ session.accepted, pair.2.tag = pair.1.tag.toNat

theorem paired_step (allocator : FrameAllocator) (schedule : Nat → List Action) (session : Session) (input : Input)
    (paired : Paired session) (settled : Settled session input) : Paired (session.step allocator schedule input) := by
  cases input with
  | idle actions => exact paired
  | scsiCommand lun cdb data directionIn =>
    rw [Session.step]
    cases ran : scsiCommand allocator schedule lun cdb data directionIn session.world with
    | ok result world =>
      rintro pair (_ | ⟨_, older⟩)
      · exact scsiCommand_own_status settled ran
      · exact paired pair older
    | error code world => exact paired

/-- With nothing under way when a command starts, each accepted status is its own. -/
theorem status_belongs_to_command (allocator : FrameAllocator) (schedule : Nat → List Action) (world : World)
    (inputs : List Input) (settled : Guarded (Session.step allocator schedule) Settled ⟨world, []⟩ inputs) :
    Paired (inputs.foldl (Session.step allocator schedule) ⟨world, []⟩) :=
  settled.preserves (paired_step allocator schedule) (by simp [Paired])

def counting : FrameAllocator where
  pick count live _ := if count ∈ live then none else some count
  fresh count live size buf picked := by
    split at picked
    · cases picked
    · cases picked
      assumption

def attached : World :=
  { slotId := 1, epOut := 2, epIn := 1, tag := 1, slice := [], ctrl := ⟨[], [], [], []⟩, live := [], allocations := 0
    memory := fun _ => [], outRing := [], inRing := [], outHalted := false, inHalted := false, stage := .idle, time := 0 }

def testUnitReady : Input := .scsiCommand 0 [0, 0, 0, 0, 0, 0] none false

def readFour : Input := .scsiCommand 0 (read10 0 1) (some [0, 0, 0, 0]) true

def swift : Nat → List Action
  | 0 | 2 => [.accept]
  | 3 => [.sendData [7, 7, 7, 7] 0]
  | 1 | 4 => [.sendStatus 0 STATUS_PASSED]
  | _ => []

theorem status_belongs_to_command_swift :
    ([testUnitReady, readFour].foldl (Session.step counting swift) ⟨attached, []⟩).accepted.map (fun pair => pair.2.tag) = [2, 1] ∧
      Paired ([testUnitReady, readFour].foldl (Session.step counting swift) ⟨attached, []⟩) :=
  ⟨by decide +kernel,
    status_belongs_to_command counting swift attached [testUnitReady, readFour]
      ⟨⟨rfl, rfl, rfl⟩, ⟨by decide +kernel, by decide +kernel, by decide +kernel⟩, trivial⟩⟩

def late (time : Nat) : List Action :=
  if time = WAIT_TRANSFER_LOOPS then [.accept]
  else if time = WAIT_TRANSFER_LOOPS + 1 then [.sendStatus 0 STATUS_PASSED] else []

theorem pollLoop_silent {schedule : Nat → List Action} {world : World} {accepts : Trb → Bool}
    {judge : Trb → Option (Except UsbError Nat)} {late : UsbError} (left : Nat)
    (silent : ∀ poll < left, schedule (world.time + poll) = []) (ring : world.ctrl.ring = [])
    (pending : world.ctrl.pending = []) : pollLoop (watch schedule) accepts judge late left world =
      ⟨.error late, [], { world with time := world.time + left }⟩ := by
  induction left generalizing world with
  | zero => rfl
  | succ left ih =>
    have now : schedule world.time = [] := silent 0 (Nat.succ_pos left)
    have polled : world.ctrl.pollEventMatching accepts = (none, world.ctrl) := by
      rw [XhciCtrl.pollEventMatching, pending, ring, find?_nil, XhciCtrl.pollRing, ← ring]
    have later : ∀ poll < left, schedule (world.time + 1 + poll) = [] := by
      intro poll small
      rw [Nat.add_assoc, Nat.add_comm 1]
      exact silent (poll + 1) (Nat.succ_lt_succ small)
    have passed : (watch schedule).goOn world = { world with time := world.time + 1 } := by
      change pass schedule world = _
      rw [pass, now, foldl_nil]
    have looked : ((watch schedule).ctrl { world with time := world.time + 1 }).pollEventMatching accepts =
        (none, world.ctrl) := polled
    rw [pollLoop, passed, looked]
    have rest := @ih { world with time := world.time + 1 } later ring pending
    rw [Nat.add_assoc, Nat.add_comm 1] at rest
    exact rest

def givenUp : World :=
  { attached with
    tag := 2, live := [1, 0], allocations := 2, outRing := [⟨0, CBW_LEN⟩], time := WAIT_TRANSFER_LOOPS
    memory := update (update (update (fun _ => []) 0 (replicate CBW_LEN 0))
      1 (replicate CSW_LEN 0)) 0 (Cbw.toBytes ⟨1, 0, false, 0, [0, 0, 0, 0, 0, 0]⟩) }

def prepared : World :=
  { attached with
    live := [1, 0], allocations := 2
    memory := update (update (fun _ => []) 0 (replicate CBW_LEN 0))
      1 (replicate CSW_LEN 0) }

theorem givenUp_waited : waitTransfer late (givenUp.epOut * 2) CBW_LEN { givenUp with time := 0 } =
    .error (.timeout "wait_transfer timeout") givenUp := by
  have silent : ∀ poll < WAIT_TRANSFER_LOOPS, late (0 + poll) = [] := by
    intro poll small
    rw [late, if_neg (by omega), if_neg (by omega)]
  rw [waitTransfer, pollLoop_silent _ silent rfl rfl, Nat.zero_add]
  rfl

def firstCbw : Cbw := ⟨1, 0, false, 0, [0, 0, 0, 0, 0, 0]⟩

theorem givenUp_sent : (host counting late firstCbw).sendCbw 0 prepared =
    .error (.timeout "wait_transfer timeout") givenUp := by
  have filled : (host counting late firstCbw).fill .cbw 0 prepared = .ok () { givenUp with outRing := [], time := 0 } := rfl
  have queued : (host counting late firstCbw).queueTransfer .cbw false 0 CBW_LEN { givenUp with outRing := [], time := 0 } =
      .ok () { givenUp with time := 0 } := rfl
  rw [Host.sendCbw, bind_of_ok filled, Host.transfer, bind_of_ok queued, host_waitTransfer, if_neg Bool.false_ne_true]
  exact givenUp_waited

theorem prepared_allocated : (host counting late firstCbw).allocBuffers 0 { attached with slice := [] } =
    .ok (0, 1, none) prepared := rfl

theorem givenUp_reached : (Session.step counting late ⟨attached, []⟩ testUnitReady) = ⟨givenUp, []⟩ := by
  have exchanged : (host counting late firstCbw).exchange 0 false { attached with slice := [] } =
      .error (.timeout "wait_transfer timeout") givenUp := by
    rw [Host.exchange, bind_of_ok prepared_allocated]
    exact bind_of_error givenUp_sent _
  have commanded : (host counting late firstCbw).scsiCommand 0 false { attached with slice := [] } =
      .error (.timeout "wait_transfer timeout") givenUp := bind_of_error exchanged _
  have sent : scsiCommand counting late 0 [0, 0, 0, 0, 0, 0] none false attached =
      .error (.timeout "wait_transfer timeout") givenUp := by
    rw [scsiCommand, modify_bind, get_bind]
    exact bind_of_error commanded _
  rw [testUnitReady, Session.step, sent]
  rfl

theorem late_status_accepted :
    ([testUnitReady, testUnitReady].foldl (Session.step counting late) ⟨attached, []⟩).accepted.map
      (fun pair => (pair.1.tag.toNat, pair.2.tag)) = [(2, 1)] := by
  rw [foldl_cons, givenUp_reached]
  decide +kernel

end HermitLocal.Usb.BulkOnly
