import HermitLocal.Ahci.MemoryDb
import HermitLocal.Mm.Heap

/-! The memory side of a disk transfer. `transfer_sectors` translates the first byte
of the caller's buffer and describes the whole buffer to the controller by one
region descriptor; the callers hand it chunks of up to 4 MiB of heap memory. The
controller is assumed to honour the descriptor and the command block. -/

namespace HermitLocal.Ahci.Dma
open Lib.Wire Lib.BlockProgram Lib.PageTable Option List
open Ahci.Layout Ahci.MemoryDb Mm.Heap

structure Transfer where
  lba : Nat
  count : Nat
  buffer : Nat
  isWrite : Bool
  deriving DecidableEq, Repr

structure PRDTEntry where
  dba : Nat
  dbau : Nat
  dbcFlags : Nat
  deriving DecidableEq, Repr

structure Command where
  cfis : Nat → Nat
  prdt : PRDTEntry

def prdtEntry (dataPhys count : Nat) : PRDTEntry where
  dba := dataPhys % 2 ^ 32
  dbau := dataPhys / 2 ^ 32 % 2 ^ 32
  dbcFlags := (count * 512 + (2 ^ 32 - 1)) % 2 ^ 32 &&& 0x3fffff

def commandFis (lba count : Nat) (isWrite : Bool) : Nat → Nat
  | 0 => 0x27
  | 1 => 0x80
  | 2 => if isWrite then 0x35 else 0x25
  | 4 => lba % 256
  | 5 => lba / 2 ^ 8 % 256
  | 6 => lba / 2 ^ 16 % 256
  | 7 => 0x40
  | 8 => lba / 2 ^ 24 % 256
  | 9 => lba / 2 ^ 32 % 256
  | 10 => lba / 2 ^ 40 % 256
  | 12 => count % 256
  | 13 => count / 256 % 256
  | _ => 0

def program (table : Table) (transfer : Transfer) : Option Command :=
  (virtualToPhysical table transfer.buffer).map fun dataPhys =>
    ⟨commandFis transfer.lba transfer.count transfer.isWrite, prdtEntry dataPhys transfer.count⟩

namespace Command
variable (command : Command)

def start : Nat := command.prdt.dba + command.prdt.dbau * 2 ^ 32

def bytes : Nat := command.prdt.dbcFlags + 1

def isWrite : Bool := command.cfis 2 == 0x35

def lba : Nat :=
  command.cfis 4 + command.cfis 5 * 2 ^ 8 + command.cfis 6 * 2 ^ 16 + command.cfis 8 * 2 ^ 24 +
    command.cfis 9 * 2 ^ 32 + command.cfis 10 * 2 ^ 40

end Command

structure Host where
  memory : Nat → UInt8
  disk : Nat → Sector
  transfers : Nat
  requested : List Transfer

def Command.perform (command : Command) (sectors : Nat) (host : Host) : Host :=
  if command.isWrite then
    { host with
      disk := applyWrites (place command.lba ((List.range sectors).map fun i =>
        fun j : Fin SECTOR_SIZE => host.memory (command.start + (i * SECTOR_SIZE + j.val)))) host.disk }
  else
    { host with
      memory := fun p =>
        if command.start ≤ p ∧ p < command.start + sectors * SECTOR_SIZE then
          byteAt (host.disk (command.lba + (p - command.start) / SECTOR_SIZE)) ((p - command.start) % SECTOR_SIZE)
        else host.memory p }

inductive Response where
  | noPort
  | notReady
  | failed (sectors : Nat)
  | completed

section Driver
variable (table : Table) (respond : Nat → Response)

def transferSectors (transfer : Transfer) (host : Host) : Option (Bool × Host) :=
  let response := respond host.transfers
  let host := { host with transfers := host.transfers + 1, requested := host.requested ++ [transfer] }
  match response, program table transfer with
  | .noPort, _ => some (false, host)
  | _, none => none
  | .notReady, some _ => some (false, host)
  | .failed sectors, some command => some (false, command.perform (min sectors (command.bytes / SECTOR_SIZE)) host)
  | .completed, some command => some (true, command.perform (command.bytes / SECTOR_SIZE) host)

def readSectors (lba count buffer : Nat) (host : Host) : Option (Bool × Host) :=
  transferSectors table respond ⟨lba, count, buffer, false⟩ host

def writeSectorsFrom (lba count buffer : Nat) (host : Host) : Option (Bool × Host) :=
  transferSectors table respond ⟨lba, count, buffer, true⟩ host

def load (memory : Nat → UInt8) (address : Nat) : UInt8 := memory ((virtualToPhysical table address).getD 0)

def tryLoadRawModelFrom (dataLba targetBase modelSize offset : Nat) (host : Host) : Option (Bool × Host) :=
  if _more : offset < modelSize then
    match readSectors table respond (dataLba + offset / SECTOR_SIZE) (chunkSectors modelSize offset)
        (targetBase + offset) host with
    | none => none
    | some (false, host) => some (false, host)
    | some (true, host) =>
      if offset = 0 ∧ (List.range 4).map (fun k => load table host.memory (targetBase + k)) ≠ GGUF_MAGIC then
        some (false, host)
      else
        tryLoadRawModelFrom dataLba targetBase modelSize (offset + chunkSectors modelSize offset * SECTOR_SIZE) host
  else some (true, host)
termination_by modelSize - offset
decreasing_by exact chunk_advances _more

def writeRawModelCacheFrom (dataLba modelPtr modelSize offset : Nat) (host : Host) : Option (Bool × Host) :=
  if _more : offset < modelSize then
    match writeSectorsFrom table respond (dataLba + offset / SECTOR_SIZE) (chunkSectors modelSize offset)
        (modelPtr + offset) host with
    | none => none
    | some (false, host) => some (false, host)
    | some (true, host) =>
      writeRawModelCacheFrom dataLba modelPtr modelSize (offset + chunkSectors modelSize offset * SECTOR_SIZE) host
  else some (true, host)
termination_by modelSize - offset
decreasing_by exact chunk_advances _more

def writeTail (lba : Nat) (tail : List UInt8) (host : Host) : Option (Bool × Host) :=
  let response := respond host.transfers
  let host := { host with transfers := host.transfers + 1 }
  let written := { host with disk := applyWrites [(lba, sectorAt tail 0)] host.disk }
  match response with
  | .noPort => some (false, host)
  | .notReady => some (false, host)
  | .failed sectors => some (false, if sectors = 0 then host else written)
  | .completed => some (true, written)

def writeFullSectors (fullSectors buffer writeLba : Nat) (host : Host) : Option (Bool × Host) :=
  if fullSectors > 0 then
    match tryFrom 16 fullSectors with
    | .error _ => some (false, host)
    | .ok sectors => writeSectorsFrom table respond writeLba sectors buffer host
  else some (true, host)

def appendChunkFrom (dataPtr written chunkLen writeLba : Nat) (host : Host) : Option (Bool × Host) :=
  let fullSectors := chunkLen / SECTOR_SIZE
  let tailBytes := chunkLen - fullSectors * SECTOR_SIZE
  match writeFullSectors table respond fullSectors (dataPtr + written) writeLba host with
  | none => none
  | some (false, host) => some (false, host)
  | some (true, host) =>
    if tailBytes > 0 then
      writeTail respond (writeLba + fullSectors) ((List.range tailBytes).map fun k =>
        load table host.memory (dataPtr + (written + fullSectors * SECTOR_SIZE) + k)) host
    else some (true, host)

def sectorsWritten (chunkLen : Nat) : Nat :=
  chunkLen / SECTOR_SIZE + if chunkLen - chunkLen / SECTOR_SIZE * SECTOR_SIZE > 0 then 1 else 0

def appendMemoryDbFrom (dbEndExclusive dataPtr remaining written writeLba : Nat) (host : Host) :
    Option (Bool × Host) :=
  if remaining = 0 then some (true, host)
  else if dbEndExclusive - writeLba = 0 then some (false, host)
  else
    let availableBytes := satMul (dbEndExclusive - writeLba) SECTOR_SIZE
    let chunkLen := min (min remaining availableBytes) (MODEL_IO_SECTORS * SECTOR_SIZE)
    if _empty : chunkLen = 0 then some (false, host)
    else
      match appendChunkFrom table respond dataPtr written chunkLen writeLba host with
      | none => none
      | some (false, host) => some (false, host)
      | some (true, host) =>
        if sectorsWritten chunkLen = 0 then some (false, host)
        else
          appendMemoryDbFrom dbEndExclusive dataPtr (remaining - chunkLen) (written + chunkLen)
            (writeLba + sectorsWritten chunkLen) host
termination_by remaining
decreasing_by omega

end Driver

inductive Job where
  | tryLoadRawModel (dataLba targetBase modelSize : Nat)
  | writeRawModelCache (dataLba modelPtr modelSize : Nat)
  | appendMemoryDb (dbEndExclusive dataPtr dataLen writeLba : Nat)

namespace Job

def run (table : Table) (respond : Nat → Response) : Job → Host → Option (Bool × Host)
  | .tryLoadRawModel dataLba targetBase modelSize =>
    tryLoadRawModelFrom table respond dataLba targetBase modelSize 0
  | .writeRawModelCache dataLba modelPtr modelSize =>
    writeRawModelCacheFrom table respond dataLba modelPtr modelSize 0
  | .appendMemoryDb dbEndExclusive dataPtr dataLen writeLba =>
    appendMemoryDbFrom table respond dbEndExclusive dataPtr dataLen 0 writeLba

def buffer : Job → Nat
  | .tryLoadRawModel _ targetBase _ => targetBase
  | .writeRawModelCache _ modelPtr _ => modelPtr
  | .appendMemoryDb _ dataPtr _ _ => dataPtr

def extent : Job → Nat
  | .tryLoadRawModel _ _ modelSize => sectorsForBytes modelSize * SECTOR_SIZE
  | .writeRawModelCache _ _ modelSize => sectorsForBytes modelSize * SECTOR_SIZE
  | .appendMemoryDb _ _ dataLen _ => dataLen

end Job

def contents (table : Table) (memory : Nat → UInt8) (buffer bytes : Nat) : List UInt8 :=
  (List.range bytes).map fun k => load table memory (buffer + k)

def Moves (table : Table) (transfer : Transfer) (command : Command) : Prop :=
  ∀ host, let after := command.perform (command.bytes / SECTOR_SIZE) host
    if transfer.isWrite then
      after.disk = applyWrites (place command.lba ((List.range transfer.count).map
        (sectorAt (contents table host.memory transfer.buffer (transfer.count * SECTOR_SIZE))))) host.disk
    else ∀ i < transfer.count, ∀ j < SECTOR_SIZE,
      load table after.memory (transfer.buffer + (i * SECTOR_SIZE + j)) = byteAt (host.disk (command.lba + i)) j

def HitsBuffer (table : Table) (transfer : Transfer) : Prop :=
  ∃ command, program table transfer = some command ∧ command.bytes = transfer.count * SECTOR_SIZE ∧
    (transfer.lba < 2 ^ 48 → command.lba = transfer.lba) ∧
    (table.space P4).Linear transfer.buffer (transfer.count * SECTOR_SIZE) command.start ∧
    Moves table transfer command

structure Chunk (base extent : Nat) (transfer : Transfer) : Prop where
  positive : 0 < transfer.count
  bound : transfer.count ≤ MODEL_IO_SECTORS
  low : base ≤ transfer.buffer
  high : transfer.buffer + transfer.count * SECTOR_SIZE ≤ base + extent

section Loops
variable {table : Table} (respond : Nat → Response) {base extent : Nat}

def Backed (table : Table) (base extent : Nat) : Prop :=
  ∀ a, base ≤ a → a < base + extent → (virtualToPhysical table a).isSome

def Requests (base extent : Nat) (host : Host) (result : Option (Bool × Host)) : Prop :=
  ∃ outcome after, result = some (outcome, after) ∧
    ∀ transfer ∈ after.requested, transfer ∈ host.requested ∨ Chunk base extent transfer

theorem Requests.none {host after : Host} (outcome : Bool) (same : after.requested = host.requested) :
    Requests base extent host (some (outcome, after)) :=
  ⟨outcome, after, rfl, fun _ member => .inl (same ▸ member)⟩

theorem Requests.weaken {host next : Host} {result : Option (Bool × Host)}
    (first : ∀ transfer ∈ next.requested, transfer ∈ host.requested ∨ Chunk base extent transfer)
    (rest : Requests base extent next result) : Requests base extent host result := by
  obtain ⟨outcome, after, run, later⟩ := rest
  refine ⟨outcome, after, run, fun transfer member => ?_⟩
  rcases later transfer member with earlier | chunk
  · exact first transfer earlier
  · exact .inr chunk

theorem perform_requested (command : Command) (sectors : Nat) (host : Host) :
    (command.perform sectors host).requested = host.requested := by
  unfold Command.perform
  split <;> rfl

theorem transferSectors_requests {transfer : Transfer} (host : Host) (backed : Backed table base extent)
    (chunk : Chunk base extent transfer) :
    Requests base extent host (transferSectors table respond transfer host) := by
  have inside : transfer.buffer < base + extent := by
    have := chunk.positive
    have := chunk.high
    simp only [SECTOR_SIZE] at this
    omega
  obtain ⟨dataPhys, translated⟩ := Option.isSome_iff_exists.mp (backed transfer.buffer chunk.low inside)
  have recorded : ∀ after : Host, after.requested = host.requested ++ [transfer] →
      ∀ t ∈ after.requested, t ∈ host.requested ∨ Chunk base extent t := by
    intro after same t member
    rw [same, mem_append, mem_singleton] at member
    rcases member with earlier | rfl
    · exact .inl earlier
    · exact .inr chunk
  simp only [transferSectors, program, translated, map_some]
  cases respond host.transfers with
  | noPort | notReady => exact ⟨false, _, rfl, recorded _ rfl⟩
  | failed sectors => exact ⟨false, _, rfl, recorded _ (perform_requested ..)⟩
  | completed => exact ⟨true, _, rfl, recorded _ (perform_requested ..)⟩

variable {dataLba : Nat}

theorem model_chunk {modelBase modelSize offset : Nat} (isWrite : Bool) (more : offset < modelSize)
    (aligned : offset % SECTOR_SIZE = 0) : Chunk modelBase (sectorsForBytes modelSize * SECTOR_SIZE)
      ⟨dataLba + offset / SECTOR_SIZE, chunkSectors modelSize offset, modelBase + offset, isWrite⟩ := by
  have limit : chunkSectors modelSize offset ≤ MODEL_IO_SECTORS := by
    simp only [chunkSectors_eq, sectorsForBytes, MODEL_IO_SECTORS, SECTOR_SIZE]
    omega
  have last : offset + chunkSectors modelSize offset * SECTOR_SIZE ≤ sectorsForBytes modelSize * SECTOR_SIZE := by
    simp only [chunkSectors_eq, sectorsForBytes, MODEL_IO_SECTORS, SECTOR_SIZE] at aligned ⊢
    omega
  simp only [SECTOR_SIZE] at aligned last
  constructor
  · exact chunkSectors_pos more
  · exact limit
  · simp
  · simp only [SECTOR_SIZE]
    omega

theorem chunk_end_aligned {modelSize offset : Nat} (aligned : offset % SECTOR_SIZE = 0) :
    (offset + chunkSectors modelSize offset * SECTOR_SIZE) % SECTOR_SIZE = 0 := by
  rw [Nat.add_mul_mod_self_right]
  exact aligned

theorem tryLoadRawModelFrom_requests {targetBase modelSize offset : Nat} (host : Host) (aligned : offset % SECTOR_SIZE = 0)
    (backed : Backed table targetBase (sectorsForBytes modelSize * SECTOR_SIZE)) :
    Requests targetBase (sectorsForBytes modelSize * SECTOR_SIZE) host
      (tryLoadRawModelFrom table respond dataLba targetBase modelSize offset host) := by
  rw [tryLoadRawModelFrom]
  split
  next more =>
    obtain ⟨outcome, next, run, first⟩ :=
      transferSectors_requests respond host backed (model_chunk false more aligned)
    rw [readSectors, run]
    cases outcome with
    | false => exact ⟨false, next, rfl, first⟩
    | true =>
      dsimp only
      split
      · exact ⟨false, next, rfl, first⟩
      · exact .weaken first (tryLoadRawModelFrom_requests next (chunk_end_aligned aligned) backed)
  · exact .none true rfl
termination_by modelSize - offset
decreasing_by exact chunk_advances ‹_›

theorem writeRawModelCacheFrom_requests {modelPtr modelSize offset : Nat} (host : Host) (aligned : offset % SECTOR_SIZE = 0)
    (backed : Backed table modelPtr (sectorsForBytes modelSize * SECTOR_SIZE)) :
    Requests modelPtr (sectorsForBytes modelSize * SECTOR_SIZE) host
      (writeRawModelCacheFrom table respond dataLba modelPtr modelSize offset host) := by
  rw [writeRawModelCacheFrom]
  split
  next more =>
    obtain ⟨outcome, next, run, first⟩ :=
      transferSectors_requests respond host backed (model_chunk true more aligned)
    rw [writeSectorsFrom, run]
    cases outcome with
    | false => exact ⟨false, next, rfl, first⟩
    | true => exact .weaken first (writeRawModelCacheFrom_requests next (chunk_end_aligned aligned) backed)
  · exact .none true rfl
termination_by modelSize - offset
decreasing_by exact chunk_advances ‹_›

theorem writeTail_requests (lba : Nat) (tail : List UInt8) (host : Host) :
    Requests base extent host (writeTail respond lba tail host) := by
  unfold writeTail
  cases respond host.transfers with
  | noPort | notReady => exact .none false rfl
  | failed sectors =>
    dsimp only
    split <;> exact .none false rfl
  | completed => exact .none true rfl

variable {writeLba : Nat}

theorem writeFullSectors_requests {fullSectors buffer : Nat} (host : Host)
    (backed : Backed table base extent) (low : base ≤ buffer)
    (high : buffer + fullSectors * SECTOR_SIZE ≤ base + extent) (small : fullSectors ≤ MODEL_IO_SECTORS) :
    Requests base extent host (writeFullSectors table respond fullSectors buffer writeLba host) := by
  unfold writeFullSectors
  split
  next positive =>
    have fits : fullSectors < 2 ^ 16 := lt_of_le_of_lt small (by decide)
    simp only [tryFrom, if_pos fits]
    exact transferSectors_requests respond host backed ⟨positive, small, low, high⟩
  · exact .none true rfl

variable {dataPtr : Nat}

theorem appendChunkFrom_requests {written chunkLen : Nat} (host : Host)
    (backed : Backed table dataPtr extent) (inside : written + chunkLen ≤ extent)
    (limit : chunkLen ≤ MODEL_IO_SECTORS * SECTOR_SIZE) :
    Requests dataPtr extent host (appendChunkFrom table respond dataPtr written chunkLen writeLba host) := by
  have covered := Nat.div_mul_le_self chunkLen SECTOR_SIZE
  have small : chunkLen / SECTOR_SIZE ≤ MODEL_IO_SECTORS := Nat.div_le_of_le_mul (by rwa [Nat.mul_comm])
  have full : Requests dataPtr extent host
      (writeFullSectors table respond (chunkLen / SECTOR_SIZE) (dataPtr + written) writeLba host) :=
    writeFullSectors_requests respond host backed (by omega) (by omega) small
  obtain ⟨outcome, next, run, first⟩ := full
  simp only [appendChunkFrom, run]
  cases outcome with
  | false => exact ⟨false, next, rfl, first⟩
  | true =>
    dsimp only
    split
    · exact .weaken first (writeTail_requests respond _ _ next)
    · exact ⟨true, next, rfl, first⟩

theorem appendMemoryDbFrom_requests {dbEndExclusive dataPtr remaining written writeLba : Nat} (host : Host)
    (backed : Backed table dataPtr extent) (inside : written + remaining ≤ extent) :
    Requests dataPtr extent host
      (appendMemoryDbFrom table respond dbEndExclusive dataPtr remaining written writeLba host) := by
  rw [appendMemoryDbFrom]
  split
  · exact .none true rfl
  split
  · exact .none false rfl
  generalize satMul (dbEndExclusive - writeLba) SECTOR_SIZE = availableBytes
  dsimp only
  generalize chosen : min (min remaining availableBytes) (MODEL_IO_SECTORS * SECTOR_SIZE) = chunkLen
  split
  · exact .none false rfl
  have step : Requests dataPtr extent host
      (appendChunkFrom table respond dataPtr written chunkLen writeLba host) :=
    appendChunkFrom_requests respond host backed (by omega) (by omega)
  obtain ⟨outcome, next, run, first⟩ := step
  rw [run]
  cases outcome with
  | false => exact ⟨false, next, rfl, first⟩
  | true =>
    dsimp only
    split
    · exact ⟨false, next, rfl, first⟩
    · exact .weaken first (appendMemoryDbFrom_requests next backed (by omega))
termination_by remaining
decreasing_by omega

theorem job_requests (job : Job) (host : Host) (backed : Backed table job.buffer job.extent) :
    Requests job.buffer job.extent host (job.run table respond host) := by
  cases job with
  | tryLoadRawModel dataLba targetBase modelSize =>
    exact tryLoadRawModelFrom_requests respond host (Nat.zero_mod _) backed
  | writeRawModelCache dataLba modelPtr modelSize =>
    exact writeRawModelCacheFrom_requests respond host (Nat.zero_mod _) backed
  | appendMemoryDb dbEndExclusive dataPtr dataLen writeLba =>
    exact appendMemoryDbFrom_requests respond host backed (Nat.le_of_eq (Nat.zero_add _))

end Loops

section Movement
variable {table : Table} {transfer : Transfer} {command : Command} {dataPhys : Nat}

structure Describes (transfer : Transfer) (dataPhys : Nat) (command : Command) : Prop where
  start : command.start = dataPhys
  bytes : command.bytes = transfer.count * SECTOR_SIZE
  lba : transfer.lba < 2 ^ 48 → command.lba = transfer.lba
  isWrite : command.isWrite = transfer.isWrite

theorem prdtEntry_describes (count : Nat) (physical : dataPhys < 2 ^ 64) (positive : 0 < count)
    (bound : count ≤ MODEL_IO_SECTORS) :
    (prdtEntry dataPhys count).dba + (prdtEntry dataPhys count).dbau * 2 ^ 32 = dataPhys ∧
      (prdtEntry dataPhys count).dbcFlags + 1 = count * SECTOR_SIZE := by
  have mask : (0x3fffff : Nat) = 2 ^ 22 - 1 := by decide
  simp only [prdtEntry, mask, Nat.and_two_pow_sub_one_eq_mod]
  simp only [SECTOR_SIZE, MODEL_IO_SECTORS] at bound ⊢
  omega

theorem commandFis_lba {lba : Nat} (small : lba < 2 ^ 48) :
    lba % 256 + lba / 2 ^ 8 % 256 * 2 ^ 8 + lba / 2 ^ 16 % 256 * 2 ^ 16 + lba / 2 ^ 24 % 256 * 2 ^ 24 +
      lba / 2 ^ 32 % 256 * 2 ^ 32 + lba / 2 ^ 40 % 256 * 2 ^ 40 = lba := by
  omega

theorem program_describes {base extent : Nat}
    (translated : virtualToPhysical table transfer.buffer = some dataPhys)
    (physical : dataPhys < 2 ^ 64) (chunk : Chunk base extent transfer) :
    ∃ command, program table transfer = some command ∧ Describes transfer dataPhys command := by
  have prdt := prdtEntry_describes transfer.count physical chunk.positive chunk.bound
  have programmed : program table transfer = some
      ⟨commandFis transfer.lba transfer.count transfer.isWrite, prdtEntry dataPhys transfer.count⟩ := by
    rw [program, translated]
    rfl
  refine ⟨_, programmed, prdt.1, prdt.2, commandFis_lba, ?_⟩
  cases written : transfer.isWrite <;> simp [Command.isWrite, commandFis]

theorem load_linear {memory : Nat → UInt8} {buffer bytes k : Nat}
    (linear : (table.space P4).Linear buffer bytes dataPhys) (inside : k < bytes) :
    load table memory (buffer + k) = memory (dataPhys + k) := by
  rw [load, virtualToPhysical, linear k inside]
  rfl

theorem moves_of_linear (describes : Describes transfer dataPhys command)
    (linear : (table.space P4).Linear transfer.buffer (transfer.count * SECTOR_SIZE) dataPhys) :
    Moves table transfer command := by
  have sectors : command.bytes / SECTOR_SIZE = transfer.count := by
    rw [describes.bytes]
    exact Nat.mul_div_cancel _ (by decide)
  have offsets : ∀ i < transfer.count, ∀ j < SECTOR_SIZE, i * SECTOR_SIZE + j < transfer.count * SECTOR_SIZE := by
    intro i row j column
    have whole := Nat.mul_le_mul_right SECTOR_SIZE row
    rw [Nat.succ_mul] at whole
    omega
  intro host
  dsimp only
  rw [sectors]
  split
  next written =>
    have direction : command.isWrite = true := describes.isWrite.trans written
    simp only [Command.perform, direction, if_true, describes.start]
    congr 2
    apply map_congr_left
    intro i row
    funext j
    have inside := offsets i (List.mem_range.mp row) j.val j.isLt
    rw [sectorAt, getD_eq_getElem?_getD, contents, List.getElem?_map, List.getElem?_range inside]
    exact (load_linear linear inside).symm
  next fetched =>
    have direction : ¬command.isWrite = true := fun written => fetched (describes.isWrite ▸ written)
    intro i row j column
    have inside := offsets i row j column
    have position : (i * SECTOR_SIZE + j) / SECTOR_SIZE = i ∧ (i * SECTOR_SIZE + j) % SECTOR_SIZE = j := by
      simp only [SECTOR_SIZE] at column ⊢
      omega
    rw [load_linear linear inside]
    simp only [Command.perform, if_neg direction, describes.start]
    rw [if_pos ⟨by omega, by omega⟩, Nat.add_sub_cancel_left, position.1, position.2]

theorem hitsBuffer_iff {base extent : Nat} (backed : Backed table base extent)
    (valid : ∀ a m, walk table a P4 = some m → m.frame < PHYS_LIMIT) (chunk : Chunk base extent transfer) :
    HitsBuffer table transfer ↔
      (table.space P4).Adjacent transfer.buffer (transfer.count * SECTOR_SIZE) := by
  have mapped : (table.space P4).Mapped transfer.buffer (transfer.count * SECTOR_SIZE) := by
    intro k inside
    have low := chunk.low
    have high := chunk.high
    have here := backed (transfer.buffer + k) (by omega) (by omega)
    rwa [virtualToPhysical, Space.translate, isSome_map] at here
  have some : 0 < transfer.count * SECTOR_SIZE := Nat.mul_pos chunk.positive (by decide)
  obtain ⟨m, found⟩ := Option.isSome_iff_exists.mp (mapped 0 some)
  have translated := Space.translate_eq found
  have physical : m.frame + (transfer.buffer + 0) % m.size < 2 ^ 64 := by
    obtain ⟨leaf, level, size, -⟩ := walk_leaf found
    have frame := valid _ _ found
    have offset := Nat.mod_lt (transfer.buffer + 0) ((table.space P4).positive _ _ found)
    have small : m.size ≤ Lib.PageTable.span P4 := by
      rw [size]
      exact Nat.le_of_dvd (span_pos _) (span_dvd level)
    have top : Lib.PageTable.span P4 = 2 ^ 39 := by decide
    simp only [PHYS_LIMIT] at frame
    omega
  obtain ⟨command, programmed, describes⟩ := program_describes translated physical chunk
  have linear := Space.linear_iff mapped translated
  rw [← describes.start] at linear
  constructor
  · rintro ⟨other, same, -, -, image, -⟩
    rw [programmed] at same
    cases same
    exact linear.mp image
  · intro adjacent
    have image := linear.mpr adjacent
    exact ⟨command, programmed, describes.bytes, describes.lba, image, moves_of_linear describes (describes.start ▸ image)⟩

end Movement

/-! From a buffer that is one piece of memory, the append writes what the append of the database does. -/

section Contiguous
variable {table : Table} {base extent phys : Nat} (linear : (table.space P4).Linear base extent phys)
  (fits : phys + extent ≤ 2 ^ 64)

theorem contents_length (memory : Nat → UInt8) (buffer bytes : Nat) :
    (contents table memory buffer bytes).length = bytes := by
  rw [contents, length_map, length_range]

theorem contents_drop (memory : Nat → UInt8) (buffer bytes count : Nat) :
    (contents table memory buffer bytes).drop count = contents table memory (buffer + count) (bytes - count) := by
  apply ext_getElem
  · rw [length_drop, contents_length, contents_length]
  · intro index _ _
    simp [contents, Nat.add_assoc]

theorem contents_take (memory : Nat → UInt8) (buffer : Nat) {bytes count : Nat} (inside : count ≤ bytes) :
    (contents table memory buffer bytes).take count = contents table memory buffer count := by
  rw [contents, ← map_take, take_range, Nat.min_eq_left inside]
  rfl

theorem sectorAt_contents (memory : Nat → UInt8) (buffer : Nat) {bytes more index : Nat}
    (inside : (index + 1) * SECTOR_SIZE ≤ bytes) (order : bytes ≤ more) :
    sectorAt (contents table memory buffer bytes) index = sectorAt (contents table memory buffer more) index := by
  funext j
  have here := j.isLt
  rw [Nat.succ_mul] at inside
  rw [sectorAt, sectorAt, ← contents_take memory buffer order, getD_eq_getElem?_getD, getD_eq_getElem?_getD,
    List.getElem?_take_of_lt (by omega)]

include linear fits

theorem write_completed {lba count offset : Nat} (chunk : Chunk base extent ⟨lba, count, base + offset, true⟩)
    (small : lba < 2 ^ 48) (host : Host) :
    ∃ after, transferSectors table (fun _ => .completed) ⟨lba, count, base + offset, true⟩ host = some (true, after) ∧
      after.memory = host.memory ∧ after.disk = applyWrites (place lba ((List.range count).map
        (sectorAt (contents table host.memory (base + offset) (count * SECTOR_SIZE))))) host.disk := by
  have positive : 0 < count * SECTOR_SIZE := Nat.mul_pos chunk.positive (by decide)
  have high := chunk.high
  dsimp only at high
  have part : (table.space P4).Linear (base + offset) (count * SECTOR_SIZE) (phys + offset) := by
    intro k inside
    rw [Nat.add_assoc, Nat.add_assoc]
    exact linear (offset + k) (by omega)
  have translated : virtualToPhysical table (base + offset) = some (phys + offset) := linear offset (by omega)
  obtain ⟨command, programmed, describes⟩ := program_describes translated (by omega) chunk
  have moves := moves_of_linear describes part
  simp only [transferSectors, programmed]
  refine ⟨_, rfl, ?_, ?_⟩
  · simp only [Command.perform, describes.isWrite, if_true]
  · have written := moves { host with
      transfers := host.transfers + 1, requested := host.requested ++ [⟨lba, count, base + offset, true⟩] }
    simp only [if_true, describes.lba small] at written
    exact written

theorem appendChunkFrom_refines {written remaining chunkLen writeLba : Nat} (inside : written + remaining ≤ extent)
    (short : chunkLen ≤ remaining) (limit : chunkLen ≤ MODEL_IO_SECTORS * SECTOR_SIZE) (small : writeLba < 2 ^ 48)
    (host : Host) {world : Disk} (same : world.cells = host.disk) :
    ∃ after next, appendChunkFrom table (fun _ => .completed) base written chunkLen writeLba host = some (true, after) ∧
      Program.run .none (appendChunk (contents table host.memory (base + written) remaining) chunkLen writeLba) world =
        (.ok (sectorsWritten chunkLen), next) ∧ next.cells = after.disk ∧ after.memory = host.memory := by
  have covered := Nat.div_mul_le_self chunkLen SECTOR_SIZE
  have few : chunkLen / SECTOR_SIZE ≤ MODEL_IO_SECTORS := Nat.div_le_of_le_mul (by rwa [Nat.mul_comm])
  have word : tryFrom 16 (chunkLen / SECTOR_SIZE) = .ok (chunkLen / SECTOR_SIZE) :=
    if_pos (lt_of_le_of_lt few (by decide))
  have works (world : Disk) (writes : List (Nat × Sector)) :
      Program.run .none (Program.writeAll writes) world = (.ok (), world.store writes) :=
    Program.run_writeAll_ok writes fun _ _ => rfl
  -- the full sectors of the chunk
  have full : ∃ after next, writeFullSectors table (fun _ => .completed) (chunkLen / SECTOR_SIZE) (base + written) writeLba host =
        some (true, after) ∧ Program.run .none (if chunkLen / SECTOR_SIZE > 0 then
          writeSectors writeLba (chunkLen / SECTOR_SIZE) (contents table host.memory (base + written) remaining)
            else pure ()) world = (.ok (), next) ∧ next.cells = after.disk ∧ after.memory = host.memory := by
    unfold writeFullSectors
    by_cases some : chunkLen / SECTOR_SIZE > 0
    · rw [if_pos some, if_pos some, word]
      have chunk : Chunk base extent ⟨writeLba, chunkLen / SECTOR_SIZE, base + written, true⟩ :=
        ⟨some, few, Nat.le_add_right _ _, by dsimp only; omega⟩
      obtain ⟨after, ran, memory, disk⟩ := write_completed linear fits chunk small host
      refine ⟨after, _, ran, works _ _, ?_, memory⟩
      rw [disk, ← same]
      change applyWrites _ world.cells = _
      congr 2
      apply map_congr_left
      intro index member
      have row := Nat.mul_le_mul_right SECTOR_SIZE (List.mem_range.mp member)
      exact (sectorAt_contents host.memory _ row (by omega)).symm
    · rw [if_neg some, if_neg some]
      exact ⟨host, world, rfl, rfl, same, rfl⟩
  obtain ⟨after, next, ran, wrote, cells, memory⟩ := full
  simp only [appendChunkFrom, appendChunk, word, Program.lift_ok, pure_bind, ran]
  rw [Program.run_bind_ok wrote]
  have enough : chunkLen - chunkLen / SECTOR_SIZE * SECTOR_SIZE ≤ remaining - chunkLen / SECTOR_SIZE * SECTOR_SIZE := by omega
  by_cases tail : chunkLen - chunkLen / SECTOR_SIZE * SECTOR_SIZE > 0
  · simp only [if_pos tail, sectorsWritten]
    refine ⟨_, _, rfl, Program.run_bind_ok (works _ _) _, ?_, memory⟩
    rw [contents_drop, contents_take _ _ enough]
    change applyWrites _ next.cells = applyWrites _ after.disk
    rw [cells, memory, Nat.add_assoc]
    rfl
  · simp only [if_neg tail, sectorsWritten]
    exact ⟨after, next, rfl, rfl, cells, memory⟩

theorem appendMemoryDbFrom_refines {dbEndExclusive remaining written writeLba : Nat} (inside : written + remaining ≤ extent)
    (small : dbEndExclusive ≤ 2 ^ 48) (host : Host) {world : Disk} (same : world.cells = host.disk) :
    ∃ outcome after, appendMemoryDbFrom table (fun _ => .completed) dbEndExclusive base remaining written writeLba host =
        some (outcome, after) ∧
      let ran := Program.run .none (appendChunks dbEndExclusive (contents table host.memory (base + written) remaining)
        written writeLba) world
      ran.1.isOk = outcome ∧ ran.2.cells = after.disk := by
  rw [appendMemoryDbFrom, appendChunks, contents_length]
  split
  · exact ⟨true, host, rfl, rfl, same⟩
  split
  · exact ⟨false, host, rfl, rfl, same⟩
  next room =>
    dsimp only
    generalize chosen : min (min remaining (satMul (dbEndExclusive - writeLba) SECTOR_SIZE)) (MODEL_IO_SECTORS * SECTOR_SIZE) =
      chunkLen
    split
    · exact ⟨false, host, rfl, rfl, same⟩
    next some =>
      obtain ⟨after, next, ran, wrote, cells, memory⟩ := appendChunkFrom_refines linear fits inside
        (show chunkLen ≤ remaining by omega) (by omega) (show writeLba < 2 ^ 48 by omega) host same
      rw [ran, Program.run_bind_ok wrote]
      dsimp only
      split
      · exact ⟨false, after, rfl, rfl, cells⟩
      · rw [contents_drop, ← memory, Nat.add_assoc]
        exact appendMemoryDbFrom_refines (by omega) small after cells
termination_by remaining
decreasing_by omega

end Contiguous

def identityMap : Mapper where
  table level index :=
    if level = 3 ∧ index = 0 then .table
    else if level = 2 ∧ index < 4 then .table
    else if level = 1 ∧ index < 2048 then .page (index * 2097152)
    else .unused
  requests := 0

theorem identityMap_valid (a : Nat) (m : Mapping) (found : walk identityMap.table a P4 = some m) :
    m.frame < PHYS_LIMIT := by
  obtain ⟨leaf, -, -, page⟩ := walk_leaf found
  simp only [identityMap] at page
  split_ifs at page with first second third
  have frame := Entry.page.inj page
  simp only [PHYS_LIMIT]
  omega

def scatteredFrames : FrameAlloc where
  allocate request := [0x40000000, 0x100000, 0x101000, 0x20000000][request]?
  valid := by
    intro request frame answer
    have member := mem_of_getElem? answer
    simp only [mem_cons, not_mem_nil, or_false] at member
    simp only [PHYS_LIMIT]
    omega

def sampleBoot : Boot where
  totalMem := 522 * 1024 * 1024
  isUefi := true
  kernelEnd := 0
  ramAddress := 0
  has1gibPages := false
  has2mibPages := true
  policy := .stackReserve
  virtAddr := 2 ^ 46
  aligned := by decide

def straddling : Nat := 2 ^ 46 + 2097152 - 512

theorem sampleBoot_heap : ∃ heap, init (radix P4) scatteredFrames sampleBoot identityMap = some heap ∧
    heap.start = 2 ^ 46 ∧ heap.finish = 2 ^ 46 + 4194304 ∧
    virtualToPhysical heap.table straddling = some 0x401ffe00 ∧
    virtualToPhysical heap.table (straddling + 512) = some 0x20000000 := by
  have evaluated : (init (radix P4) scatteredFrames sampleBoot identityMap).map (fun heap => (heap.start, heap.finish,
      virtualToPhysical heap.table straddling, virtualToPhysical heap.table (straddling + 512))) =
        some (2 ^ 46, 2 ^ 46 + 4194304, some 0x401ffe00, some 0x20000000) := by
    decide +kernel
  obtain ⟨heap, started, facts⟩ := Option.map_eq_some_iff.mp evaluated
  simp only [Prod.mk.injEq] at facts
  exact ⟨heap, started, facts⟩

theorem append_whole_sectors (table : Table) {sectors dbEndExclusive : Nat} {command : Command}
    (host : Host) (positive : 0 < sectors) (bound : sectors ≤ MODEL_IO_SECTORS)
    (room : sectors * SECTOR_SIZE ≤ satMul (dbEndExclusive - writeLba) SECTOR_SIZE)
    (programmed : program table ⟨writeLba, sectors, dataPtr, true⟩ = some command) :
    (Job.appendMemoryDb dbEndExclusive dataPtr (sectors * SECTOR_SIZE) writeLba).run table
      (fun _ => .completed) host = some (true, command.perform (command.bytes / SECTOR_SIZE)
        { host with
          transfers := host.transfers + 1
          requested := host.requested ++ [⟨writeLba, sectors, dataPtr, true⟩] }) := by
  have bytes : 0 < sectors * SECTOR_SIZE := Nat.mul_pos positive (by decide)
  have limit : sectors * SECTOR_SIZE ≤ MODEL_IO_SECTORS * SECTOR_SIZE := Nat.mul_le_mul_right _ bound
  have available : dbEndExclusive - writeLba ≠ 0 := by
    intro none
    rw [none] at room
    simp only [satMul, Nat.zero_mul, Nat.zero_min] at room
    omega
  have whole : sectors * SECTOR_SIZE / SECTOR_SIZE = sectors := Nat.mul_div_cancel _ (by decide)
  have fits : sectors < 2 ^ 16 := lt_of_le_of_lt bound (by decide)
  have full : writeFullSectors table (fun _ => .completed) sectors dataPtr writeLba host =
      some (true, command.perform (command.bytes / SECTOR_SIZE)
        { host with
          transfers := host.transfers + 1
          requested := host.requested ++ [⟨writeLba, sectors, dataPtr, true⟩] }) := by
    simp only [writeFullSectors, if_pos positive, tryFrom, if_pos fits, writeSectorsFrom, transferSectors, programmed]
  have chunk : min (min (sectors * SECTOR_SIZE) (satMul (dbEndExclusive - writeLba) SECTOR_SIZE))
      (MODEL_IO_SECTORS * SECTOR_SIZE) = sectors * SECTOR_SIZE := by
    rw [Nat.min_eq_left room, Nat.min_eq_left limit]
  rw [Job.run, appendMemoryDbFrom, if_neg (by omega), if_neg available]
  simp only [chunk]
  rw [dif_neg (by omega)]
  simp only [appendChunkFrom, whole, Nat.add_zero, full, Nat.sub_self, gt_iff_lt, Nat.lt_irrefl, if_false,
    sectorsWritten]
  rw [if_neg (by omega), appendMemoryDbFrom, if_pos rfl]

/-- A transfer hits its buffer exactly if neighbouring pages lie in neighbouring frames. -/
theorem transfers_hit_buffer_iff {paging : Paging P4} {alloc : FrameAlloc} {boot : Boot} {mapper : Mapper}
    {heap : KernelHeap}
    (valid : ∀ a m, walk mapper.table a P4 = some m → m.frame < PHYS_LIMIT)
    (started : init paging alloc boot mapper = some heap) (job : Job) (low : heap.start ≤ job.buffer)
    (high : job.buffer + job.extent ≤ heap.finish)
    (respond : Nat → Response) (memory : Nat → UInt8) (disk : Nat → Sector) :
    ∃ outcome after, job.run heap.table respond ⟨memory, disk, 0, []⟩ = some (outcome, after) ∧
      ∀ transfer ∈ after.requested, HitsBuffer heap.table transfer ↔
        (heap.table.space P4).Adjacent transfer.buffer (transfer.count * SECTOR_SIZE) := by
  have covers := init_covers valid started
  have backed : Backed heap.table job.buffer job.extent := by
    intro a above below
    rw [virtualToPhysical, Space.translate, isSome_map]
    exact covers.mapped a (by omega) (by omega)
  obtain ⟨outcome, after, run, requests⟩ := job_requests respond job ⟨memory, disk, 0, []⟩ backed
  refine ⟨outcome, after, run, fun transfer member => ?_⟩
  have chunk := (requests transfer member).resolve_left not_mem_nil
  exact hitsBuffer_iff backed covers.frames chunk

theorem transfers_hit_buffer_sample : ∃ heap, init (radix P4) scatteredFrames sampleBoot identityMap = some heap ∧
      ∃ outcome after, (Job.tryLoadRawModel 2048 (2 ^ 46) 4194304).run heap.table (fun _ => .completed)
          ⟨fun _ => 0, fun _ => zeros, 0, []⟩ = some (outcome, after) ∧
        ∀ transfer ∈ after.requested, HitsBuffer heap.table transfer ↔
          (heap.table.space P4).Adjacent transfer.buffer (transfer.count * SECTOR_SIZE) := by
  obtain ⟨heap, started, start, finish, -, -⟩ := sampleBoot_heap
  refine ⟨heap, started, ?_⟩
  exact transfers_hit_buffer_iff identityMap_valid started (.tryLoadRawModel 2048 (2 ^ 46) 4194304)
    (by rw [start]; decide) (by rw [finish]; decide) _ _ _

theorem scattered_frames_corrupt_append :
    ∃ heap after, init (radix P4) scatteredFrames sampleBoot identityMap = some heap ∧
      heap.start ≤ straddling ∧ straddling + 2 * SECTOR_SIZE ≤ heap.finish ∧
      (Job.appendMemoryDb 131105 straddling (2 * SECTOR_SIZE) 33).run heap.table (fun _ => .completed)
        ⟨fun p => if p = 0x20000000 then 7 else 0, fun _ => zeros, 0, []⟩ = some (true, after) ∧
      (∃ transfer ∈ after.requested, ¬HitsBuffer heap.table transfer) ∧
      load heap.table after.memory (straddling + 512) = 7 ∧ byteAt (after.disk 34) 0 = 0 := by
  obtain ⟨heap, started, start, finish, first, second⟩ := sampleBoot_heap
  have programmed : program heap.table ⟨33, 2, straddling, true⟩ =
      some ⟨commandFis 33 2 true, prdtEntry 0x401ffe00 2⟩ := by
    simp only [program, first, map_some]
  have ran : (Job.appendMemoryDb 131105 straddling (2 * SECTOR_SIZE) 33).run heap.table (fun _ => .completed)
      ⟨fun p => if p = 0x20000000 then 7 else 0, fun _ => zeros, 0, []⟩ = _ :=
    append_whole_sectors heap.table _ (by decide) (by decide) (by decide) programmed
  refine ⟨heap, _, started, by rw [start]; decide, by rw [finish]; decide, ran, ?_, ?_, by decide⟩
  · refine ⟨⟨33, 2, straddling, true⟩, mem_singleton_self _, ?_⟩
    rintro ⟨command, same, -, -, linear, -⟩
    rw [programmed] at same
    cases same
    have behind := linear 512 (by decide)
    rw [← virtualToPhysical, second] at behind
    cases behind
  · rw [load, second]
    decide

end HermitLocal.Ahci.Dma
