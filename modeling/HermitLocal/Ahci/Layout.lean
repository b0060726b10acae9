import HermitLocal.Lib.Wire

/-! On-disk layout of the memory database: one header sector, a map of 32 sectors
whose first sector counts the entries, and the data sectors behind it. Every
record is decoded exactly as `ahci.rs` decodes it, including the fields that
the readers do not check. -/

namespace HermitLocal.Ahci.Layout
open Lib.Wire

def SECTOR_SIZE : Nat := 512
def MODEL_IO_SECTORS : Nat := 8192
def MEMORY_DB_VERSION : Nat := 2
def MEMORY_DB_TOTAL_SECTORS : Nat := 131072
def MEMORY_DB_MAP_VERSION : Nat := 1
def MEMORY_DB_MAP_SECTORS : Nat := 32
def MEMORY_DB_MAP_ENTRY_SIZE : Nat := 16
def MEMORY_DB_MAP_ENTRIES_PER_SECTOR : Nat := SECTOR_SIZE / MEMORY_DB_MAP_ENTRY_SIZE
def MEMORY_DB_MAP_MAX_ENTRIES : Nat :=
  (MEMORY_DB_MAP_SECTORS - 1) * MEMORY_DB_MAP_ENTRIES_PER_SECTOR
def MEMORY_DB_MAP_FLAG_ACTIVE : Nat := 1
def MEMORY_DB_ERASE_CHUNK_SECTORS : Nat := 8

def MEMORY_DB_MAGIC : List UInt8 := ascii "MEMDB002"
def MEMORY_DB_MAP_MAGIC : List UInt8 := ascii "DMAP"

abbrev Sector := Block SECTOR_SIZE

def leU32 (buf : Sector) (offset : Nat) : Nat := field 4 buf offset
def leU64 (buf : Sector) (offset : Nat) : Nat := field 8 buf offset
def writeLeU32 (buf : Sector) (offset value : Nat) : Sector := setField 4 buf offset value
def writeLeU64 (buf : Sector) (offset value : Nat) : Sector := setField 8 buf offset value

structure MemoryDbHeader where
  magic : List UInt8
  version : Nat
  sectorSize : Nat
  headerLba : Nat
  dataLba : Nat
  totalSectors : Nat
  nextAppendLba : Nat
  lastSsdLba : Nat
  modelStartLba : Nat
  modelLastLba : Nat
  mapLba : Nat
  mapEntriesUsed : Nat
  mapSectors : Nat
  deriving DecidableEq, Repr

structure MemoryDbMapEntry where
  startLba : Nat
  payloadBytes : Nat
  flags : Nat
  deriving DecidableEq, Repr

def sectorsForBytes (bytes : Nat) : Nat := (bytes + (SECTOR_SIZE - 1)) / SECTOR_SIZE

/-! The model is read and written in chunks. -/

def GGUF_MAGIC : List UInt8 := ascii "GGUF"

def chunkSectors (modelSize offset : Nat) : Nat :=
  sectorsForBytes (min (modelSize - offset) (MODEL_IO_SECTORS * SECTOR_SIZE)) % 2 ^ 16

theorem chunkSectors_eq (modelSize offset : Nat) : chunkSectors modelSize offset =
      sectorsForBytes (min (modelSize - offset) (MODEL_IO_SECTORS * SECTOR_SIZE)) := by
  simp only [chunkSectors, sectorsForBytes, MODEL_IO_SECTORS, SECTOR_SIZE]
  omega

section Chunk
variable {modelSize offset : Nat} (more : offset < modelSize)

include more

theorem chunkSectors_pos : 0 < chunkSectors modelSize offset := by
  simp only [chunkSectors_eq, sectorsForBytes, MODEL_IO_SECTORS, SECTOR_SIZE]
  omega

theorem chunk_advances :
    modelSize - (offset + chunkSectors modelSize offset * SECTOR_SIZE) < modelSize - offset := by
  have some := chunkSectors_pos more
  simp only [SECTOR_SIZE]
  omega

end Chunk

/-! The map of the database. -/

def memoryDbMapEntryCapacity : Nat := MEMORY_DB_MAP_MAX_ENTRIES

def memoryDbMapEntryLocation (entryIndex : Nat) : Except Unit (Nat × Nat) :=
  if entryIndex ≥ memoryDbMapEntryCapacity then .error ()
  else .ok (entryIndex / MEMORY_DB_MAP_ENTRIES_PER_SECTOR,
    entryIndex % MEMORY_DB_MAP_ENTRIES_PER_SECTOR * MEMORY_DB_MAP_ENTRY_SIZE)

def headerFields (header : Sector) : MemoryDbHeader where
  magic := slice header 0 8
  version := leU32 header 8
  sectorSize := leU32 header 12
  headerLba := leU64 header 16
  dataLba := leU64 header 24
  totalSectors := leU64 header 32
  nextAppendLba := leU64 header 40
  lastSsdLba := leU64 header 48
  modelStartLba := leU64 header 56
  modelLastLba := leU64 header 64
  mapLba := leU64 header 72
  mapEntriesUsed := leU64 header 80
  mapSectors := leU64 header 88

def decodeHeader (header : Sector) : Except Unit MemoryDbHeader :=
  if slice header 0 8 ≠ MEMORY_DB_MAGIC then .error ()
  else if leU32 header 8 ≠ MEMORY_DB_VERSION then .error ()
  else if leU32 header 12 ≠ SECTOR_SIZE then .error ()
  else .ok (headerFields header)

def headerSector (state : MemoryDbHeader) : Sector :=
  let header := patch zeros 0 state.magic
  let header := writeLeU32 header 8 state.version
  let header := writeLeU32 header 12 state.sectorSize
  let header := writeLeU64 header 16 state.headerLba
  let header := writeLeU64 header 24 state.dataLba
  let header := writeLeU64 header 32 state.totalSectors
  let header := writeLeU64 header 40 state.nextAppendLba
  let header := writeLeU64 header 48 state.lastSsdLba
  let header := writeLeU64 header 56 state.modelStartLba
  let header := writeLeU64 header 64 state.modelLastLba
  let header := writeLeU64 header 72 state.mapLba
  let header := writeLeU64 header 80 state.mapEntriesUsed
  writeLeU64 header 88 state.mapSectors

def decodeMapHeader (mapHeader : Sector) : Except Unit (Nat × Nat) :=
  if slice mapHeader 0 4 ≠ MEMORY_DB_MAP_MAGIC then .error ()
  else if leU32 mapHeader 4 ≠ MEMORY_DB_MAP_VERSION then .error ()
  else if leU32 mapHeader 8 ≠ MEMORY_DB_MAP_ENTRY_SIZE then .error ()
  else if leU32 mapHeader 12 ≠ memoryDbMapEntryCapacity ∨ leU64 mapHeader 16 > leU32 mapHeader 12 then
    .error ()
  else .ok (leU32 mapHeader 8, leU64 mapHeader 16)

def mapHeaderSector (mapEntriesUsed : Nat) : Sector :=
  let mapHeader := patch zeros 0 MEMORY_DB_MAP_MAGIC
  let mapHeader := writeLeU32 mapHeader 4 MEMORY_DB_MAP_VERSION
  let mapHeader := writeLeU32 mapHeader 8 MEMORY_DB_MAP_ENTRY_SIZE
  let mapHeader := writeLeU32 mapHeader 12 memoryDbMapEntryCapacity
  writeLeU64 mapHeader 16 mapEntriesUsed

def decodeMapEntry (sector : Sector) (entryOffset : Nat) : MemoryDbMapEntry where
  startLba := leU64 sector entryOffset
  payloadBytes := leU32 sector (entryOffset + 8)
  flags := leU32 sector (entryOffset + 12)

def patchMapEntry (sector : Sector) (entryOffset : Nat) (entry : MemoryDbMapEntry) : Sector :=
  let sector := writeLeU64 sector entryOffset entry.startLba
  let sector := writeLeU32 sector (entryOffset + 8) entry.payloadBytes
  writeLeU32 sector (entryOffset + 12) entry.flags

theorem leU64_lt (buf : Sector) (offset : Nat) : leU64 buf offset < WORD := field_lt 8 buf offset

structure MemoryDbHeader.Encodable (state : MemoryDbHeader) : Prop where
  magic : state.magic = MEMORY_DB_MAGIC
  version : state.version = MEMORY_DB_VERSION
  sectorSize : state.sectorSize = SECTOR_SIZE
  headerLba : state.headerLba < WORD
  dataLba : state.dataLba < WORD
  totalSectors : state.totalSectors < WORD
  nextAppendLba : state.nextAppendLba < WORD
  lastSsdLba : state.lastSsdLba < WORD
  modelStartLba : state.modelStartLba < WORD
  modelLastLba : state.modelLastLba < WORD
  mapLba : state.mapLba < WORD
  mapEntriesUsed : state.mapEntriesUsed < WORD
  mapSectors : state.mapSectors < WORD

theorem headerFields_headerSector (state : MemoryDbHeader) (fits : state.Encodable) :
    headerFields (headerSector state) = state := by
  have magicLength : state.magic.length = 8 := by rw [fits.magic]; rfl
  have magic := slice_patch_same (zeros : Sector) 0 8 state.magic magicLength (by decide)
  have version : state.version % 256 ^ 4 = state.version := by rw [fits.version]; rfl
  have sectorSize : state.sectorSize % 256 ^ 4 = state.sectorSize := by rw [fits.sectorSize]; rfl
  have word : ∀ value < WORD, value % 256 ^ 8 = value := fun _ small => Nat.mod_eq_of_lt small
  simp (disch := decide) only [headerFields, headerSector, leU32, leU64, writeLeU32, writeLeU64,
    field_setField_same, field_setField_apart, slice_setField_apart, magic, version, sectorSize,
    word _ fits.headerLba, word _ fits.dataLba, word _ fits.totalSectors, word _ fits.nextAppendLba,
    word _ fits.lastSsdLba, word _ fits.modelStartLba, word _ fits.modelLastLba, word _ fits.mapLba,
    word _ fits.mapEntriesUsed, word _ fits.mapSectors]

theorem decodeHeader_headerSector (state : MemoryDbHeader) (fits : state.Encodable) :
    decodeHeader (headerSector state) = .ok state := by
  have fields := headerFields_headerSector state fits
  have magic : slice (headerSector state) 0 8 = MEMORY_DB_MAGIC :=
    (congrArg MemoryDbHeader.magic fields).trans fits.magic
  have version : leU32 (headerSector state) 8 = MEMORY_DB_VERSION :=
    (congrArg MemoryDbHeader.version fields).trans fits.version
  have sectorSize : leU32 (headerSector state) 12 = SECTOR_SIZE :=
    (congrArg MemoryDbHeader.sectorSize fields).trans fits.sectorSize
  simp [decodeHeader, magic, version, sectorSize, fields]

theorem decodeHeader_encodable (header : Sector) (state : MemoryDbHeader)
    (decoded : decodeHeader header = .ok state) : state.Encodable ∧ state = headerFields header := by
  unfold decodeHeader at decoded
  split_ifs at decoded with magic version sectorSize
  · have same : headerFields header = state := by simpa using decoded
    subst same
    refine ⟨⟨not_not.mp magic, not_not.mp version, not_not.mp sectorSize, ?_, ?_, ?_, ?_, ?_, ?_, ?_,
      ?_, ?_, ?_⟩, rfl⟩ <;> exact leU64_lt _ _

theorem decodeMapHeader_mapHeaderSector (used : Nat) (bound : used ≤ memoryDbMapEntryCapacity) :
    decodeMapHeader (mapHeaderSector used) = .ok (MEMORY_DB_MAP_ENTRY_SIZE, used) := by
  have magic := slice_patch_same (zeros : Sector) 0 4 MEMORY_DB_MAP_MAGIC rfl (by decide)
  have small : used % 256 ^ 8 = used := Nat.mod_eq_of_lt (lt_of_le_of_lt bound (by decide))
  have fits : ¬used > memoryDbMapEntryCapacity := Nat.not_lt.mpr bound
  have version : MEMORY_DB_MAP_VERSION % 256 ^ 4 = MEMORY_DB_MAP_VERSION := rfl
  have entrySize : MEMORY_DB_MAP_ENTRY_SIZE % 256 ^ 4 = MEMORY_DB_MAP_ENTRY_SIZE := rfl
  have capacity : memoryDbMapEntryCapacity % 256 ^ 4 = memoryDbMapEntryCapacity := rfl
  simp (disch := decide) only [decodeMapHeader, mapHeaderSector, leU32, leU64, writeLeU32, writeLeU64,
    field_setField_same, field_setField_apart, slice_setField_apart, magic, small, version, entrySize,
    capacity]
  simp [fits]

theorem decodeMapHeader_bound (mapHeader : Sector) (entrySize used : Nat)
    (decoded : decodeMapHeader mapHeader = .ok (entrySize, used)) : used ≤ memoryDbMapEntryCapacity := by
  unfold decodeMapHeader at decoded
  split_ifs at decoded with magic version size capacity
  · simp only [Except.ok.injEq, Prod.mk.injEq] at decoded
    omega

theorem decodeMapEntry_patch_same (sector : Sector) (entryOffset : Nat) (entry : MemoryDbMapEntry)
    (inside : entryOffset + 16 ≤ SECTOR_SIZE) (start : entry.startLba < WORD)
    (payload : entry.payloadBytes < 2 ^ 32) (flags : entry.flags < 2 ^ 32) :
    decodeMapEntry (patchMapEntry sector entryOffset entry) entryOffset = entry := by
  have startFits : entry.startLba % 256 ^ 8 = entry.startLba := Nat.mod_eq_of_lt start
  have payloadFits : entry.payloadBytes % 256 ^ 4 = entry.payloadBytes := Nat.mod_eq_of_lt payload
  have flagsFits : entry.flags % 256 ^ 4 = entry.flags := Nat.mod_eq_of_lt flags
  simp (disch := omega) only [decodeMapEntry, patchMapEntry, leU32, leU64, writeLeU32, writeLeU64,
    field_setField_same, field_setField_apart, startFits, payloadFits, flagsFits]

theorem decodeMapEntry_patch_apart (sector : Sector) (entryOffset other : Nat)
    (entry : MemoryDbMapEntry) (apart : other + 16 ≤ entryOffset ∨ entryOffset + 16 ≤ other) :
    decodeMapEntry (patchMapEntry sector entryOffset entry) other = decodeMapEntry sector other := by
  simp (disch := omega) only [decodeMapEntry, patchMapEntry, leU32, leU64, writeLeU32, writeLeU64,
    field_setField_apart]

theorem memoryDbMapEntryLocation_ok (entryIndex : Nat) (inside : entryIndex < memoryDbMapEntryCapacity) :
    memoryDbMapEntryLocation entryIndex = .ok (entryIndex / 32, entryIndex % 32 * 16) := by
  simp [memoryDbMapEntryLocation, Nat.not_le.mpr inside, MEMORY_DB_MAP_ENTRIES_PER_SECTOR,
    SECTOR_SIZE, MEMORY_DB_MAP_ENTRY_SIZE]

theorem decodeHeader_zeros : decodeHeader zeros = .error () := by
  have magic : slice (zeros : Sector) 0 8 ≠ MEMORY_DB_MAGIC := by decide
  simp [decodeHeader, magic]

theorem decodeHeader_mapHeaderSector (used : Nat) : decodeHeader (mapHeaderSector used) = .error () := by
  have apart : (slice (mapHeaderSector used) 0 8).take 4 = MEMORY_DB_MAP_MAGIC := by
    rfl
  have magic : slice (mapHeaderSector used) 0 8 ≠ MEMORY_DB_MAGIC := by
    intro same
    rw [same] at apart
    cases apart
  simp [decodeHeader, magic]

end HermitLocal.Ahci.Layout
