import HermitLocal.Ahci.Recovery

/-! The writes of one append in issue order, and what each cut through them leaves:
up to the map entry the old log, from the map header on the extended one. The
header sector, written last, decides nothing. -/

namespace HermitLocal.Ahci.Append
open Lib.Wire Lib.BlockProgram Lib.BlockProgram.Program Function List
open Ahci.Layout Ahci.MemoryDb Ahci.Plan Ahci.Log
open Ahci.Recovery

def appendLimit (db capacity : Nat) : Nat := min (dataEnd db) (satAdd capacity 1)

def Accepts (db capacity : Nat) (log : List (List UInt8)) (payload : List UInt8) : Prop :=
  log.length < memoryDbMapEntryCapacity ∧
    cursor db log + sectorsForBytes payload.length ≤ appendLimit db capacity

instance (db capacity : Nat) (log : List (List UInt8)) (payload : List UInt8) :
    Decidable (Accepts db capacity log payload) := by
  unfold Accepts
  infer_instance

def newEntry (db : Nat) (log : List (List UInt8)) (payload : List UInt8) : MemoryDbMapEntry :=
  ⟨cursor db log, payload.length, MEMORY_DB_MAP_FLAG_ACTIVE⟩

def entryWrite (db : Nat) (cells : Nat → Sector) (log : List (List UInt8)) (payload : List UInt8) :
    Nat × Sector :=
  (entryLba db log.length, patchMapEntry (cells (entryLba db log.length)) (log.length % 32 * 16)
    (newEntry db log payload))

def countWrite (db : Nat) (log : List (List UInt8)) : Nat × Sector :=
  (db + 1, mapHeaderSector (log.length + 1))

def headerWrite (db : Nat) (cells : Nat → Sector) (log : List (List UInt8)) (payload : List UInt8) :
    Nat × Sector :=
  (db, headerSector (withLog db (headerFields (cells db)) (log ++ [payload])))

def commitWrites (db : Nat) (cells : Nat → Sector) (log : List (List UInt8)) (payload : List UInt8) :
    List (Nat × Sector) :=
  dataWrites (cursor db log) payload ++ [entryWrite db cells log payload, countWrite db log]

def appendWrites (db : Nat) (cells : Nat → Sector) (log : List (List UInt8)) (payload : List UInt8) :
    List (Nat × Sector) :=
  commitWrites db cells log payload ++ [headerWrite db cells log payload]

theorem appendLimit_le (db capacity : Nat) : appendLimit db capacity ≤ dataLba db + MEMORY_DB_TOTAL_SECTORS :=
  le_trans (Nat.min_le_left _ _) (Nat.min_le_left _ _)

theorem commitWrites_length (db : Nat) (cells : Nat → Sector) (log : List (List UInt8)) (payload : List UInt8) :
    (commitWrites db cells log payload).length = sectorsForBytes payload.length + 2 := by
  simp [commitWrites]

theorem entryLba_bounds (db index : Nat) (inside : index < memoryDbMapEntryCapacity) :
    db + 2 ≤ entryLba db index ∧ entryLba db index < dataLba db := by
  have bound : index < 992 := inside
  simp only [entryLba, dataLba, MEMORY_DB_MAP_SECTORS]
  omega

theorem payload_small {db capacity : Nat} {log : List (List UInt8)} {payload : List UInt8}
    (accepted : Accepts db capacity log payload) : payload.length < 2 ^ 32 := by
  have fits := accepted.2
  have bound := appendLimit_le db capacity
  simp only [sectorsForBytes_eq, cursor, MEMORY_DB_TOTAL_SECTORS] at fits bound
  omega

theorem mapEntry_patched (db : Nat) (cells : Nat → Sector) (index other : Nat) (entry : MemoryDbMapEntry)
    (different : other ≠ index) : mapEntry db (update cells (entryLba db index)
      (patchMapEntry (cells (entryLba db index)) (index % 32 * 16) entry)) other =
      mapEntry db cells other := by
  by_cases same : entryLba db other = entryLba db index
  · have apart : other % 32 * 16 + 16 ≤ index % 32 * 16 ∨ index % 32 * 16 + 16 ≤ other % 32 * 16 := by
      simp only [entryLba] at same
      omega
    rw [mapEntry, same, update_self, decodeMapEntry_patch_apart _ _ _ _ apart, mapEntry, same]
  · rw [mapEntry, update_of_ne same, mapEntry]

theorem mapEntry_written (db : Nat) (cells : Nat → Sector) (index : Nat) (entry : MemoryDbMapEntry)
    (start : entry.startLba < WORD) (payload : entry.payloadBytes < 2 ^ 32) (flags : entry.flags < 2 ^ 32) :
    mapEntry db (update cells (entryLba db index)
      (patchMapEntry (cells (entryLba db index)) (index % 32 * 16) entry)) index = entry := by
  rw [mapEntry, update_self]
  apply decodeMapEntry_patch_same _ _ _ _ start payload flags
  simp only [SECTOR_SIZE]
  omega

theorem mapEntry_update_apart (db : Nat) (cells : Nat → Sector) (lba index : Nat) (block : Sector)
    (apart : entryLba db index ≠ lba) :
    mapEntry db (update cells lba block) index = mapEntry db cells index := by
  rw [mapEntry, update_of_ne apart, mapEntry]

theorem byteAt_dataWrites (lba : Nat) (payload : List UInt8) (cells : Nat → Sector) (k : Nat)
    (inside : k < payload.length) :
    byteAt (applyWrites (dataWrites lba payload) cells (lba + k / SECTOR_SIZE)) (k % SECTOR_SIZE) =
      payload.getD k 0 := by
  have sector : k / SECTOR_SIZE < sectorsForBytes payload.length := by
    simp only [sectorsForBytes_eq, SECTOR_SIZE]
    omega
  have byte : k % SECTOR_SIZE < SECTOR_SIZE := Nat.mod_lt _ (by decide)
  rw [dataWrites, applyWrites_place_inside _ _ _ _ (by simpa using sector)]
  simp only [getElem_map, getElem_range, byteAt, byte, dite_true, sectorAt, Nat.div_add_mod']

section
variable {db : Nat} {cells : Nat → Sector} {log : List (List UInt8)}
variable (rep : Represents db cells log)
include rep

theorem represents_below {other : Nat → Sector} (same : ∀ lba < cursor db log, other lba = cells lba) :
    Represents db other log := by
  have low : dataLba db ≤ cursor db log := Nat.le_add_right _ _
  have headerBelow : db < cursor db log := by unfold dataLba at low; omega
  have mapBelow : db + 1 < cursor db log := by simp only [dataLba, MEMORY_DB_MAP_SECTORS] at low; omega
  refine ⟨rep.region, ?_, ?_, rep.entries.congr ?_ ?_, rep.room⟩
  · rw [same db headerBelow]
    exact rep.header
  · rw [same (db + 1) mapBelow]
    exact rep.counted
  · intro i _ inside
    have bounds := entryLba_bounds db i (by have := rep.count_le; omega)
    rw [mapEntry, mapEntry, same _ (by omega)]
  · intro sector _ below
    exact same sector below

theorem represents_data {writes : List (Nat × Sector)}
    (above : ∀ write ∈ writes, cursor db log ≤ write.1) : Represents db (applyWrites writes cells) log := by
  apply represents_below rep
  intro lba below
  apply applyWrites_apart
  intro write member
  have := above write member
  omega

theorem represents_entry (entry : MemoryDbMapEntry) (free : log.length < memoryDbMapEntryCapacity) :
    Represents db (update cells (entryLba db log.length)
      (patchMapEntry (cells (entryLba db log.length)) (log.length % 32 * 16) entry)) log := by
  have bounds := entryLba_bounds db log.length free
  refine ⟨rep.region, ?_, ?_, rep.entries.congr ?_ ?_, rep.room⟩
  · rw [update_of_ne (by omega)]
    exact rep.header
  · rw [update_of_ne (by omega)]
    exact rep.counted
  · intro i _ inside
    exact mapEntry_patched db cells log.length i entry (by omega)
  · intro sector above _
    exact update_of_ne (by omega) _ _

theorem represents_count {other : List (List UInt8)} (entries : EntriesAt db cells 0 (dataLba db) other)
    (count : other.length ≤ memoryDbMapEntryCapacity) (room : cursor db other ≤ dataEnd db) :
    Represents db (update cells (db + 1) (mapHeaderSector other.length)) other := by
  refine ⟨rep.region, ?_, ?_, entries.congr ?_ ?_, room⟩
  · rw [update_of_ne (by omega)]
    exact rep.header
  · rw [update_self, decodeMapHeader_mapHeaderSector _ count]
  · intro i _ inside
    have bounds := entryLba_bounds db i (by omega)
    exact mapEntry_update_apart db cells _ i _ (by omega)
  · intro sector above _
    simp only [dataLba, MEMORY_DB_MAP_SECTORS] at above
    exact update_of_ne (by omega) _ _

theorem represents_header {state : MemoryDbHeader} (fits : state.Encodable) (placed : Placed db state) :
    Represents db (update cells db (headerSector state)) log := by
  refine ⟨rep.region, ?_, ?_, rep.entries.congr ?_ ?_, rep.room⟩
  · rw [update_self]
    refine ⟨?_, ?_⟩
    · rw [decodeHeader_headerSector state fits, headerFields_headerSector state fits]
    · rw [headerFields_headerSector state fits]
      exact placed
  · rw [update_of_ne (by omega)]
    exact rep.counted
  · intro i _ inside
    have bounds := entryLba_bounds db i (by have := rep.count_le; omega)
    exact mapEntry_update_apart db cells _ i _ (by omega)
  · intro sector above _
    simp only [dataLba] at above
    exact update_of_ne (by omega) _ _

theorem withLog_encodable (other : List (List UInt8)) (small : cursor db other < WORD)
    (count : other.length < WORD) : (withLog db (headerFields (cells db)) other).Encodable := by
  have fits := (decodeHeader_encodable _ _ rep.header.decodes).1
  exact ⟨fits.magic, fits.version, fits.sectorSize, fits.headerLba, fits.dataLba, fits.totalSectors, small,
    fits.lastSsdLba, fits.modelStartLba, fits.modelLastLba, fits.mapLba, count, fits.mapSectors⟩

end

/-! The cut points of an accepted append. -/

section
variable {db capacity : Nat} {cells : Nat → Sector} {log : List (List UInt8)} {payload : List UInt8}
variable (accepted : Accepts db capacity log payload)
include accepted

theorem accepted_room : cursor db log + sectorsForBytes payload.length ≤ dataEnd db :=
  le_trans accepted.2 (Nat.min_le_left _ _)

theorem commitWrites_apart (write : Nat × Sector) (member : write ∈ commitWrites db cells log payload) :
    write.1 ≠ db := by
  have bounds := entryLba_bounds db log.length accepted.1
  have low : dataLba db ≤ cursor db log := Nat.le_add_right _ _
  rcases mem_append.mp member with data | rest
  · have above := (dataWrites_bounds _ _ write data).1
    omega
  · rcases mem_cons.mp rest with entry | count
    · simp only [entry, entryWrite]
      omega
    · simp only [mem_singleton.mp count, countWrite]
      omega

variable (rep : Represents db cells log)
include rep

theorem entry_written (some : 0 < payload.length) :
    Represents db (applyWrites (dataWrites (cursor db log) payload ++ [entryWrite db cells log payload]) cells)
      log ∧
    EntryAt db (applyWrites (dataWrites (cursor db log) payload ++ [entryWrite db cells log payload]) cells)
      log.length (cursor db log) payload := by
  have bounds := entryLba_bounds db log.length accepted.1
  have low : dataLba db ≤ cursor db log := Nat.le_add_right _ _
  have data : Represents db (applyWrites (dataWrites (cursor db log) payload) cells) log :=
    represents_data rep fun write member => (dataWrites_bounds _ _ write member).1
  have sector : applyWrites (dataWrites (cursor db log) payload) cells (entryLba db log.length) =
      cells (entryLba db log.length) := by
    apply applyWrites_apart
    intro write member
    have above := (dataWrites_bounds _ _ write member).1
    omega
  rw [applyWrites_append, applyWrites_cons, applyWrites_nil, entryWrite, ← sector]
  refine ⟨represents_entry data _ accepted.1, ?_⟩
  have start : cursor db log < WORD := by
    have room := accepted_room accepted
    have := dataEnd_lt db
    omega
  have entry := mapEntry_written db (applyWrites (dataWrites (cursor db log) payload) cells) log.length
    (newEntry db log payload) start (payload_small accepted) (show MEMORY_DB_MAP_FLAG_ACTIVE < 2 ^ 32 by decide)
  refine ⟨?_, ?_, ?_, some, ?_⟩
  · rw [entry]
    rfl
  · rw [entry]
    rfl
  · rw [entry]
    change (MEMORY_DB_MAP_FLAG_ACTIVE &&& MEMORY_DB_MAP_FLAG_ACTIVE != 0) = true
    decide
  · intro k inside
    have above : cursor db log ≤ cursor db log + k / SECTOR_SIZE := Nat.le_add_right _ _
    rw [update_of_ne (by omega)]
    exact byteAt_dataWrites (cursor db log) payload cells k inside

theorem represents_uncommitted (some : 0 < payload.length) (k : Nat)
    (early : k ≤ sectorsForBytes payload.length + 1) :
    Represents db (applyWrites ((appendWrites db cells log payload).take k) cells) log := by
  have shape : (appendWrites db cells log payload).take k =
      (dataWrites (cursor db log) payload ++ [entryWrite db cells log payload]).take k := by
    have split : appendWrites db cells log payload =
        (dataWrites (cursor db log) payload ++ [entryWrite db cells log payload]) ++
          [countWrite db log, headerWrite db cells log payload] := by
      simp [appendWrites, commitWrites]
    rw [split, take_append_of_le_length (by simpa using early)]
  rw [shape]
  rcases Nat.lt_or_ge (sectorsForBytes payload.length) k with all | part
  · rw [take_of_length_le (by simp; omega)]
    exact (entry_written accepted rep some).1
  · rw [take_append_of_le_length (by simpa using part)]
    exact represents_data rep fun write member =>
      (dataWrites_bounds _ _ write (mem_of_mem_take member)).1

theorem represents_committed (some : 0 < payload.length) :
    Represents db (applyWrites (commitWrites db cells log payload) cells) (log ++ [payload]) := by
  have split : commitWrites db cells log payload =
      (dataWrites (cursor db log) payload ++ [entryWrite db cells log payload]) ++ [countWrite db log] := by
    simp [commitWrites]
  obtain ⟨old, entry⟩ := entry_written accepted rep some
  have entries := (entriesAt_append db _ 0 (dataLba db) log payload).mpr
    ⟨old.entries, by simpa [cursor] using entry⟩
  have room : cursor db (log ++ [payload]) ≤ dataEnd db := by
    rw [cursor_append]
    exact accepted_room accepted
  have count : (log ++ [payload]).length ≤ memoryDbMapEntryCapacity := by
    simpa using Nat.succ_le_of_lt accepted.1
  have counted := represents_count old entries count room
  rw [split, applyWrites_append]
  simpa [countWrite] using counted

theorem represents_appended (some : 0 < payload.length) :
    Represents db (applyWrites (appendWrites db cells log payload) cells) (log ++ [payload]) ∧
      InStep db (applyWrites (appendWrites db cells log payload) cells) (log ++ [payload]) := by
  have committed := represents_committed accepted rep some
  have small : cursor db (log ++ [payload]) < WORD := lt_of_le_of_lt committed.room (dataEnd_lt db)
  have count : (log ++ [payload]).length < WORD := lt_of_le_of_lt committed.count_le (by decide)
  have fits := withLog_encodable rep (log ++ [payload]) small count
  have placed : Placed db (withLog db (headerFields (cells db)) (log ++ [payload])) :=
    Placed.withLog rep.header.placed _
  rw [appendWrites, applyWrites_append, applyWrites_cons, applyWrites_nil, headerWrite]
  refine ⟨represents_header committed fits placed, ?_⟩
  rw [InStep, update_self, headerFields_headerSector _ fits]
  simp only [withLog]

end

/-! Running an append. -/

theorem appendBody_eq (db capacity : Nat) (state : MemoryDbHeader) (log : List (List UInt8))
    (payload : List UInt8) (region : db + MEMORY_DB_TOTAL_SECTORS < WORD) (placed : Placed db state)
    (accepted : Accepts db capacity log payload) : (do
      let finished ← appendChunks (appendLimit db capacity) payload 0 (withLog db state log).nextAppendLba
      appendCommit (withLog db state log) payload.length finished.2
      pure finished.1 : Driver Nat) = (do
      writeAll (dataWrites (cursor db log) payload)
      let sector ← readBlock (entryLba db log.length)
      writeAll [(entryLba db log.length, patchMapEntry sector (log.length % 32 * 16) (newEntry db log payload)),
        countWrite db log]
      memoryDbWriteHeader (withLog db state (log ++ [payload]))
      pure payload.length) := by
  have fits := accepted.2
  have below : cursor db log ≤ appendLimit db capacity := by omega
  have all : (dataWrites (cursor db log) payload).take (appendLimit db capacity - cursor db log) =
      dataWrites (cursor db log) payload := take_of_length_le (by simp; omega)
  have u32 : tryFrom 32 payload.length = .ok payload.length := if_pos (payload_small accepted)
  simp only [withLog]
  rw [appendChunks_eq _ _ _ _ below, all]
  simp only [fits, if_true, bind_assoc, pure_bind, appendCommit, u32, lift_ok, memoryDbWriteMapEntry,
    memoryDbMapEntryLocation_ok _ accepted.1, readSector, placed.mapLba,
    satAdd_entry db _ region accepted.1, memoryDbWriteMapHeader, Nat.zero_add, writeAll,
    newEntry, countWrite, cursor_append, length_append, length_singleton]

end HermitLocal.Ahci.Append
