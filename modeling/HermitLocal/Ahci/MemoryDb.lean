import HermitLocal.Ahci.Layout
import HermitLocal.Lib.BlockProgram

/-! The memory database of `drivers/storage/ahci.rs` as programs over a disk of
512-byte sectors. The two `OnceCell` statics the functions consult are the
static variables of the program. A transfer of several sectors issues them in
order and stops at the first one the disk refuses; a missing SATA port is a
disk that refuses everything. -/

namespace HermitLocal.Ahci.MemoryDb
open Lib.Wire Lib.BlockProgram Lib.BlockProgram.Program
open Ahci.Layout

structure Statics where
  ssdSectorCount : Option Nat
  memoryDbHeaderLba : Option Nat

abbrev Driver := Program Statics Sector

abbrev Disk := World Statics Sector

def sectorAt (buf : List UInt8) (index : Nat) : Sector :=
  fun i => buf.getD (index * SECTOR_SIZE + i.val) 0

def readSector (lba : Nat) : Driver Sector := readBlock lba

def writeSectors (lba count : Nat) (buf : List UInt8) : Driver Unit :=
  writeAll (place lba ((List.range count).map (sectorAt buf)))

def memoryDbReadMapHeader (mapLba : Nat) : Driver (Nat × Nat) := do
  let mapHeader ← readSector mapLba
  lift (decodeMapHeader mapHeader)

def memoryDbWriteMapHeader (mapLba mapEntriesUsed : Nat) : Driver Unit :=
  writeBlock mapLba (mapHeaderSector mapEntriesUsed)

def memoryDbReadMapEntry (mapLba entryIndex : Nat) : Driver MemoryDbMapEntry := do
  let location ← lift (memoryDbMapEntryLocation entryIndex)
  let sector ← readSector (satAdd mapLba (location.1 + 1))
  pure (decodeMapEntry sector location.2)

def memoryDbWriteMapEntry (mapLba entryIndex : Nat) (entry : MemoryDbMapEntry) : Driver Unit := do
  let location ← lift (memoryDbMapEntryLocation entryIndex)
  let sector ← readSector (satAdd mapLba (location.1 + 1))
  writeBlock (satAdd mapLba (location.1 + 1)) (patchMapEntry sector location.2 entry)

def memoryDbRegisterState (dbLba : Nat) : Driver Unit := do
  let statics ← getStatics
  setStatics { statics with memoryDbHeaderLba := statics.memoryDbHeaderLba.or (some dbLba) }

def memoryDbReadHeader (dbLba : Nat) : Driver MemoryDbHeader := do
  let header ← readSector dbLba
  lift (decodeHeader header)

def isActive (entry : MemoryDbMapEntry) : Bool :=
  (entry.flags &&& MEMORY_DB_MAP_FLAG_ACTIVE) != 0

def recoverEntries (mapLba dbDataEnd : Nat) : Nat → Nat → Nat → Driver (Nat × Nat)
  | 0, cursor, recovered => pure (cursor, recovered)
  | left + 1, cursor, recovered => do
      let entry ← memoryDbReadMapEntry mapLba recovered
      if !isActive entry || entry.payloadBytes == 0 then pure (cursor, recovered)
      else
        match checkedAdd cursor (sectorsForBytes entry.payloadBytes) with
        | none => fail
        | some nextCursor =>
          if entry.startLba ≠ cursor ∨ nextCursor > dbDataEnd then pure (cursor, recovered)
          else recoverEntries mapLba dbDataEnd left nextCursor (recovered + 1)

def memoryDbRecoverFromMap (state : MemoryDbHeader) : Driver (Bool × MemoryDbHeader) :=
  if state.mapLba = 0 ∨ state.mapSectors ≠ MEMORY_DB_MAP_SECTORS then pure (false, state)
  else do
    let dbDataEnd := satAdd state.dataLba state.totalSectors
    let found ← attempt do
      let mapHeader ← memoryDbReadMapHeader state.mapLba
      recoverEntries state.mapLba dbDataEnd (min mapHeader.2 memoryDbMapEntryCapacity) state.dataLba 0
    match found with
    | .error _ => pure (false, state)
    | .ok (cursor, recovered) =>
      let recoveredState := { state with nextAppendLba := cursor, mapEntriesUsed := recovered }
      pure (decide (¬(cursor < state.dataLba ∨ cursor > dbDataEnd)), recoveredState)

def memoryDbWriteHeader (state : MemoryDbHeader) : Driver Unit := do
  let statics ← getStatics
  match statics.memoryDbHeaderLba with
  | none => fail
  | some dbLba =>
    if state.headerLba ≠ dbLba then fail else writeBlock dbLba (headerSector state)

def memoryDbOpen (dbLba : Nat) : Driver MemoryDbHeader := do
  let state ← memoryDbReadHeader dbLba
  if state.mapLba ≠ satAdd dbLba 1 ∨ state.mapSectors ≠ MEMORY_DB_MAP_SECTORS then fail
  else do
    let recovery ← memoryDbRecoverFromMap state
    pure recovery.2

def appendOpen (dbLba : Nat) : Driver (MemoryDbHeader × Nat) := do
  let state ← memoryDbOpen dbLba
  let statics ← getStatics
  if state.mapEntriesUsed ≥ memoryDbMapEntryCapacity then fail
  else
    match statics.ssdSectorCount with
    | none => fail
    | some capacitySectors =>
      let dbDataEnd := satAdd state.dataLba state.totalSectors
      let diskLastExclusive := satAdd capacitySectors 1
      let dbEndExclusive := min dbDataEnd diskLastExclusive
      if state.nextAppendLba < state.dataLba ∨ state.nextAppendLba ≥ dbEndExclusive then fail
      else pure (state, dbEndExclusive)

def appendChunk (rest : List UInt8) (chunkLen writeLba : Nat) : Driver Nat := do
  let fullSectors := chunkLen / SECTOR_SIZE
  let tailBytes := chunkLen - fullSectors * SECTOR_SIZE
  let sectors ← lift (tryFrom 16 fullSectors)
  (if fullSectors > 0 then writeSectors writeLba sectors rest else pure ())
  (if tailBytes > 0 then
    writeSectors (writeLba + sectors) 1 ((rest.drop (fullSectors * SECTOR_SIZE)).take tailBytes)
  else pure ())
  pure (sectors + if tailBytes > 0 then 1 else 0)

def appendChunks (dbEndExclusive : Nat) (rest : List UInt8) (written writeLba : Nat) :
    Driver (Nat × Nat) :=
  if rest.length = 0 then pure (written, writeLba)
  else if dbEndExclusive - writeLba = 0 then fail
  else
    let availableBytes := satMul (dbEndExclusive - writeLba) SECTOR_SIZE
    let chunkLen := min (min rest.length availableBytes) (MODEL_IO_SECTORS * SECTOR_SIZE)
    if _empty : chunkLen = 0 then fail
    else do
      let sectorsWritten ← appendChunk rest chunkLen writeLba
      if sectorsWritten = 0 then fail
      else
        appendChunks dbEndExclusive (rest.drop chunkLen) (written + chunkLen)
          (writeLba + sectorsWritten)
termination_by rest.length
decreasing_by
  simp only [List.length_drop]
  omega

def appendCommit (state : MemoryDbHeader) (dataLen writeLba : Nat) : Driver Unit := do
  let payload ← lift (tryFrom 32 dataLen)
  memoryDbWriteMapEntry state.mapLba state.mapEntriesUsed
    ⟨state.nextAppendLba, payload, MEMORY_DB_MAP_FLAG_ACTIVE⟩
  let state := { state with mapEntriesUsed := state.mapEntriesUsed + 1, nextAppendLba := writeLba }
  memoryDbWriteMapHeader state.mapLba state.mapEntriesUsed
  memoryDbWriteHeader state

def appendMemoryDb (data : List UInt8) : Driver Nat := do
  let statics ← getStatics
  match statics.memoryDbHeaderLba with
  | none => fail
  | some dbLba =>
    if data.length = 0 then pure 0
    else do
      let opened ← appendOpen dbLba
      let finished ← appendChunks opened.2 data 0 opened.1.nextAppendLba
      appendCommit opened.1 data.length finished.2
      pure finished.1

def eraseChunks (dbEndExclusive lba : Nat) : Driver Unit :=
  if _inside : lba < dbEndExclusive then do
    let sectors ← lift (tryFrom 16 (min (dbEndExclusive - lba) MEMORY_DB_ERASE_CHUNK_SECTORS))
    writeSectors lba sectors []
    eraseChunks dbEndExclusive (lba + min (dbEndExclusive - lba) MEMORY_DB_ERASE_CHUNK_SECTORS)
  else pure ()
termination_by dbEndExclusive - lba
decreasing_by
  simp only [MEMORY_DB_ERASE_CHUNK_SECTORS]
  omega

def eraseMemoryDb : Driver Unit := do
  let statics ← getStatics
  match statics.memoryDbHeaderLba with
  | none => fail
  | some dbLba => do
    let state ← memoryDbReadHeader dbLba
    if state.headerLba ≠ dbLba ∨ state.mapLba ≠ satAdd dbLba 1 ∨
        state.mapSectors ≠ MEMORY_DB_MAP_SECTORS ∨ state.totalSectors ≠ MEMORY_DB_TOTAL_SECTORS then fail
    else
      match statics.ssdSectorCount, checkedAdd dbLba MEMORY_DB_TOTAL_SECTORS with
      | some capacitySectors, some dbEndExclusive =>
        if dbEndExclusive > capacitySectors then fail
        else do
          eraseChunks dbEndExclusive dbLba
          memoryDbWriteMapHeader state.mapLba 0
          memoryDbWriteHeader
            { magic := MEMORY_DB_MAGIC
              version := MEMORY_DB_VERSION
              sectorSize := SECTOR_SIZE
              headerLba := dbLba
              dataLba := state.dataLba
              totalSectors := MEMORY_DB_TOTAL_SECTORS
              nextAppendLba := state.dataLba
              lastSsdLba := capacitySectors - 1
              modelStartLba := state.modelStartLba
              modelLastLba := state.modelLastLba
              mapLba := state.mapLba
              mapEntriesUsed := 0
              mapSectors := MEMORY_DB_MAP_SECTORS }
      | _, _ => fail

def readEntryBytes (entry : MemoryDbMapEntry) (usableTail entryOffset remaining : Nat) :
    Driver (List UInt8) :=
  if _more : entryOffset < entry.payloadBytes ∧ remaining > 0 then
    let toCopy := min (min (entry.payloadBytes - entryOffset) remaining) SECTOR_SIZE
    match checkedAdd entry.startLba (entryOffset / SECTOR_SIZE) with
    | none => fail
    | some readLba =>
      if readLba ≥ usableTail then fail
      else do
        let sector ← readSector readLba
        let rest ← readEntryBytes entry usableTail (entryOffset + toCopy) (remaining - toCopy)
        pure (slice sector 0 toCopy ++ rest)
  else pure []
termination_by remaining
decreasing_by
  simp only [SECTOR_SIZE]
  omega

def readEntries (mapLba mapEntriesUsed usableTail : Nat) : Nat → Nat → Driver (List UInt8)
  | 0, _ => pure []
  | entriesLeft + 1, remaining =>
      if remaining = 0 then pure []
      else do
        let entry ← memoryDbReadMapEntry mapLba (mapEntriesUsed - (entriesLeft + 1))
        if !isActive entry || entry.payloadBytes == 0 then pure []
        else do
          let bytes ← readEntryBytes entry usableTail 0 remaining
          let rest ← readEntries mapLba mapEntriesUsed usableTail entriesLeft (remaining - bytes.length)
          pure (bytes ++ rest)

def readMemoryDb (bufLen : Nat) : Driver (List UInt8) := do
  let statics ← getStatics
  match statics.memoryDbHeaderLba with
  | none => fail
  | some dbLba =>
    if bufLen = 0 then pure []
    else do
      let state ← memoryDbOpen dbLba
      match statics.ssdSectorCount with
      | none => fail
      | some capacitySectors =>
        let dbDataEnd := satAdd state.dataLba state.totalSectors
        let usableTail := if capacitySectors > dbDataEnd then capacitySectors else dbDataEnd
        if state.nextAppendLba < state.dataLba ∨ state.nextAppendLba > dbDataEnd then fail
        else
          readEntries state.mapLba state.mapEntriesUsed usableTail
            (min state.mapEntriesUsed memoryDbMapEntryCapacity) bufLen

def HeaderAccepted (existing : Sector) (dbLba dbMapLba dbDataLba dbEndExclusive : Nat) : Prop :=
  slice existing 0 8 = MEMORY_DB_MAGIC ∧ leU32 existing 8 = MEMORY_DB_VERSION ∧
    leU32 existing 12 = SECTOR_SIZE ∧ leU64 existing 16 = dbLba ∧ leU64 existing 24 = dbDataLba ∧
    leU64 existing 72 = dbMapLba ∧ leU64 existing 88 = MEMORY_DB_MAP_SECTORS ∧
    leU64 existing 32 = MEMORY_DB_TOTAL_SECTORS ∧ dbDataLba ≤ leU64 existing 40 ∧
    leU64 existing 40 ≤ dbEndExclusive ∧ leU64 existing 80 ≤ memoryDbMapEntryCapacity

instance (existing : Sector) (dbLba dbMapLba dbDataLba dbEndExclusive : Nat) :
    Decidable (HeaderAccepted existing dbLba dbMapLba dbDataLba dbEndExclusive) := by
  unfold HeaderAccepted
  infer_instance

def ensureExisting (dbLba dbMapLba dbDataLba dbEndExclusive modelStartLba modelLastLba : Nat)
    (existing : Sector) : Driver Bool := do
  let mapHeader ← attempt (memoryDbReadMapHeader (leU64 existing 72))
  if HeaderAccepted existing dbLba dbMapLba dbDataLba dbEndExclusive ∧ mapHeader.isOk then do
    let recovery ← memoryDbRecoverFromMap
      { headerFields existing with modelStartLba := modelStartLba, modelLastLba := modelLastLba }
    if recovery.1 then do
      memoryDbWriteMapHeader recovery.2.mapLba recovery.2.mapEntriesUsed
      memoryDbRegisterState dbLba
      memoryDbWriteHeader recovery.2
      pure true
    else pure false
  else pure false

def ensurePreserved (dbLba dbMapLba dbDataLba dbEndExclusive modelStartLba modelLastLba : Nat) :
    Driver Bool := do
  let existing ← attempt (readSector dbLba)
  match existing with
  | .ok sector =>
    ensureExisting dbLba dbMapLba dbDataLba dbEndExclusive modelStartLba modelLastLba sector
  | .error _ => pure false

def freshHeader (dbLba dbMapLba dbDataLba capacitySectors modelStartLba modelLastLba : Nat) :
    MemoryDbHeader where
  magic := MEMORY_DB_MAGIC
  version := MEMORY_DB_VERSION
  sectorSize := SECTOR_SIZE
  headerLba := dbLba
  dataLba := dbDataLba
  totalSectors := MEMORY_DB_TOTAL_SECTORS
  nextAppendLba := dbDataLba
  lastSsdLba := capacitySectors - 1
  modelStartLba := modelStartLba
  modelLastLba := modelLastLba
  mapLba := dbMapLba
  mapEntriesUsed := 0
  mapSectors := MEMORY_DB_MAP_SECTORS

def ensureFresh (dbLba dbMapLba dbDataLba capacitySectors modelStartLba modelLastLba : Nat) :
    Driver Unit := do
  writeAll (place dbMapLba (List.replicate MEMORY_DB_MAP_SECTORS zeros))
  memoryDbWriteMapHeader dbMapLba 0
  writeBlock dbLba
    (headerSector (freshHeader dbLba dbMapLba dbDataLba capacitySectors modelStartLba modelLastLba))
  let verify ← readSector dbLba
  if slice verify 0 8 ≠ MEMORY_DB_MAGIC then fail
  else memoryDbRegisterState dbLba

def ensureMemoryDb (dbLba modelStartLba modelLastLba : Nat) : Driver Unit := do
  let statics ← getStatics
  match statics.ssdSectorCount, checkedAdd dbLba MEMORY_DB_TOTAL_SECTORS with
  | some capacitySectors, some dbEndExclusive =>
    let dbMapLba := satAdd dbLba 1
    let dbDataLba := satAdd dbMapLba MEMORY_DB_MAP_SECTORS
    if dbEndExclusive > capacitySectors ∨ dbDataLba ≥ dbEndExclusive then fail
    else do
      let preserved ←
        ensurePreserved dbLba dbMapLba dbDataLba dbEndExclusive modelStartLba modelLastLba
      if preserved then pure ()
      else ensureFresh dbLba dbMapLba dbDataLba capacitySectors modelStartLba modelLastLba
  | _, _ => fail

end HermitLocal.Ahci.MemoryDb
