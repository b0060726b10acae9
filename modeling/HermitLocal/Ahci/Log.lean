import HermitLocal.Ahci.Plan

/-! The abstract content of a memory database is a list of payloads. `Represents`
ties it to the sectors of a disk: a valid header, a map whose first entries
describe consecutive extents, and the payload bytes in those extents. The
header's own cursor and count are left free, because every reader recomputes
them from the map. -/

namespace HermitLocal.Ahci.Log
open Lib.Wire Lib.BlockProgram Lib.BlockProgram.Program List
open Ahci.Layout Ahci.MemoryDb Ahci.Plan

def dataLba (db : Nat) : Nat := db + 1 + MEMORY_DB_MAP_SECTORS

def entryLba (db index : Nat) : Nat := db + 1 + (index / 32 + 1)

def dataEnd (db : Nat) : Nat := satAdd (dataLba db) MEMORY_DB_TOTAL_SECTORS

def extent (log : List (List UInt8)) : Nat := (log.map fun payload => sectorsForBytes payload.length).sum

def cursor (db : Nat) (log : List (List UInt8)) : Nat := dataLba db + extent log

def mapEntry (db : Nat) (cells : Nat → Sector) (index : Nat) : MemoryDbMapEntry :=
  decodeMapEntry (cells (entryLba db index)) (index % 32 * 16)

@[simp] theorem extent_nil : extent [] = 0 := rfl

@[simp] theorem extent_cons (payload : List UInt8) (rest : List (List UInt8)) :
    extent (payload :: rest) = sectorsForBytes payload.length + extent rest := rfl

theorem extent_append (first second : List (List UInt8)) :
    extent (first ++ second) = extent first + extent second := by
  simp [extent]

theorem cursor_append (db : Nat) (log : List (List UInt8)) (payload : List UInt8) :
    cursor db (log ++ [payload]) = cursor db log + sectorsForBytes payload.length := by
  simp [cursor, extent_append, Nat.add_assoc]

structure EntryAt (db : Nat) (cells : Nat → Sector) (index lba : Nat) (payload : List UInt8) : Prop where
  start : (mapEntry db cells index).startLba = lba
  bytes : (mapEntry db cells index).payloadBytes = payload.length
  active : isActive (mapEntry db cells index) = true
  nonempty : 0 < payload.length
  content : ∀ k < payload.length, byteAt (cells (lba + k / SECTOR_SIZE)) (k % SECTOR_SIZE) = payload.getD k 0

def EntriesAt (db : Nat) (cells : Nat → Sector) : Nat → Nat → List (List UInt8) → Prop
  | _, _, [] => True
  | index, lba, payload :: rest =>
      EntryAt db cells index lba payload ∧
        EntriesAt db cells (index + 1) (lba + sectorsForBytes payload.length) rest

structure Placed (db : Nat) (state : MemoryDbHeader) : Prop where
  headerLba : state.headerLba = db
  dataLba : state.dataLba = Log.dataLba db
  totalSectors : state.totalSectors = MEMORY_DB_TOTAL_SECTORS
  mapLba : state.mapLba = db + 1
  mapSectors : state.mapSectors = MEMORY_DB_MAP_SECTORS

structure HeaderAt (db : Nat) (header : Sector) : Prop where
  decodes : decodeHeader header = .ok (headerFields header)
  placed : Placed db (headerFields header)

structure Represents (db : Nat) (cells : Nat → Sector) (log : List (List UInt8)) : Prop where
  region : db + MEMORY_DB_TOTAL_SECTORS < WORD
  header : HeaderAt db (cells db)
  counted : decodeMapHeader (cells (db + 1)) = .ok (MEMORY_DB_MAP_ENTRY_SIZE, log.length)
  entries : EntriesAt db cells 0 (Log.dataLba db) log
  room : cursor db log ≤ dataEnd db

theorem entriesAt_append (db : Nat) (cells : Nat → Sector) (index lba : Nat)
    (log : List (List UInt8)) (payload : List UInt8) : EntriesAt db cells index lba (log ++ [payload]) ↔
      EntriesAt db cells index lba log ∧
        EntryAt db cells (index + log.length) (lba + extent log) payload := by
  induction log generalizing index lba with
  | nil => simp [EntriesAt]
  | cons first rest ih =>
    simp only [cons_append, EntriesAt, ih, length_cons, extent_cons, and_assoc]
    rw [show index + 1 + rest.length = index + (rest.length + 1) by omega, Nat.add_assoc lba]

variable {index db lba limit : Nat} {world : Disk}

theorem EntriesAt.congr {cells other : Nat → Sector} {log : List (List UInt8)}
    (entries : EntriesAt db cells index lba log)
    (sameMap : ∀ i, index ≤ i → i < index + log.length → mapEntry db other i = mapEntry db cells i)
    (sameData : ∀ sector, lba ≤ sector → sector < lba + extent log → other sector = cells sector) :
    EntriesAt db other index lba log := by
  induction log generalizing index lba with
  | nil => trivial
  | cons payload rest ih =>
    obtain ⟨first, later⟩ := entries
    simp only [length_cons, extent_cons] at sameMap sameData
    refine ⟨⟨?_, ?_, ?_, first.nonempty, ?_⟩, ih later ?_ ?_⟩
    · rw [sameMap index (by omega) (by omega)]
      exact first.start
    · rw [sameMap index (by omega) (by omega)]
      exact first.bytes
    · rw [sameMap index (by omega) (by omega)]
      exact first.active
    · intro k inside
      have sector : k / SECTOR_SIZE < sectorsForBytes payload.length := by
        simp only [sectorsForBytes_eq, SECTOR_SIZE]
        omega
      rw [sameData _ (Nat.le_add_right _ _) (by omega)]
      exact first.content k inside
    · intro i low high
      exact sameMap i (by omega) (by omega)
    · intro sector low high
      exact sameData sector (by omega) (by omega)

theorem Represents.count_le {cells : Nat → Sector} {log : List (List UInt8)} (rep : Represents db cells log) :
    log.length ≤ memoryDbMapEntryCapacity :=
  decodeMapHeader_bound _ _ _ rep.counted

theorem satAdd_map (db : Nat) (region : db + MEMORY_DB_TOTAL_SECTORS < WORD) : satAdd db 1 = db + 1 :=
  satAdd_eq _ _ (by simp only [MEMORY_DB_TOTAL_SECTORS] at region; omega)

theorem satAdd_data (db : Nat) (region : db + MEMORY_DB_TOTAL_SECTORS < WORD) :
    satAdd (db + 1) MEMORY_DB_MAP_SECTORS = dataLba db :=
  satAdd_eq _ _ (by simp only [MEMORY_DB_TOTAL_SECTORS, MEMORY_DB_MAP_SECTORS] at region ⊢; omega)

theorem satAdd_entry (db index : Nat) (region : db + MEMORY_DB_TOTAL_SECTORS < WORD)
    (inside : index < memoryDbMapEntryCapacity) : satAdd (db + 1) (index / 32 + 1) = entryLba db index := by
  apply satAdd_eq
  have bound : index < 992 := inside
  simp only [MEMORY_DB_TOTAL_SECTORS] at region
  omega

theorem dataEnd_ge (db : Nat) (region : db + MEMORY_DB_TOTAL_SECTORS < WORD) :
    db + MEMORY_DB_TOTAL_SECTORS ≤ dataEnd db := by
  simp only [dataEnd, satAdd, dataLba, MEMORY_DB_MAP_SECTORS, MEMORY_DB_TOTAL_SECTORS, WORD] at region ⊢
  omega

def entryAt (cells : Nat → Sector) (mapLba index : Nat) : MemoryDbMapEntry :=
  decodeMapEntry (cells (satAdd mapLba (index / 32 + 1))) (index % 32 * 16)

theorem run_readMapEntry (faults : Faults) (mapLba : Nat) {index : Nat} (world : Disk)
    (inside : index < memoryDbMapEntryCapacity) : run faults (memoryDbReadMapEntry mapLba index) world =
      (if faults.reads world.reads then .error () else .ok (entryAt world.cells mapLba index), world.tick 1) := by
  simp only [memoryDbReadMapEntry, memoryDbMapEntryLocation_ok index inside, lift_ok, pure_bind, readSector]
  cases works : faults.reads world.reads with
  | true => rw [run_bind_error (run_readBlock_error works _)]; rfl
  | false => rw [run_bind_ok (run_readBlock_ok works _)]; rfl

theorem run_memoryDbReadMapEntry (faults : Faults) (db index : Nat) (world : Disk)
    (region : db + MEMORY_DB_TOTAL_SECTORS < WORD) (inside : index < memoryDbMapEntryCapacity) :
    run faults (memoryDbReadMapEntry (db + 1) index) world =
      (if faults.reads world.reads then .error () else .ok (mapEntry db world.cells index),
        world.tick 1) := by
  rw [run_readMapEntry faults (db + 1) world inside, entryAt, satAdd_entry db index region inside, mapEntry]

theorem run_recoverEntries_step {faults : Faults} {left : Nat} {payload : List UInt8}
    (region : db + MEMORY_DB_TOTAL_SECTORS < WORD) (entry : EntryAt db world.cells index lba payload)
    (room : lba + sectorsForBytes payload.length ≤ limit) (small : limit < WORD)
    (inside : index < memoryDbMapEntryCapacity) (answered : faults.reads world.reads = false) :
    run faults (recoverEntries (db + 1) limit (left + 1) lba index) world =
      run faults (recoverEntries (db + 1) limit left (lba + sectorsForBytes payload.length) (index + 1))
        (world.tick 1) := by
  have read := run_memoryDbReadMapEntry faults db index world region inside
  simp only [answered, Bool.false_eq_true, if_false] at read
  have added : checkedAdd lba (sectorsForBytes payload.length) =
      some (lba + sectorsForBytes payload.length) := if_pos (by omega)
  have positive : payload.length ≠ 0 := entry.nonempty.ne'
  have fits : ¬lba + sectorsForBytes payload.length > limit := by omega
  rw [recoverEntries, run_bind_ok read]
  simp only [entry.active, entry.bytes, entry.start, added, positive, fits, Bool.not_true,
    Bool.false_or, beq_iff_eq, ne_eq, not_true_eq_false, or_self, if_false]

section
variable {rest : List (List UInt8)} (faults : Faults) (region : db + MEMORY_DB_TOTAL_SECTORS < WORD)
  (entries : EntriesAt db world.cells index lba rest) (room : lba + extent rest ≤ limit) (small : limit < WORD)
  (count : index + rest.length ≤ memoryDbMapEntryCapacity)

include region entries room small count

theorem run_recoverEntries_ok (works : ∀ i < rest.length, faults.reads (world.reads + i) = false) :
    run faults (recoverEntries (db + 1) limit rest.length lba index) world =
      (.ok (lba + extent rest, index + rest.length), world.tick rest.length) := by
  induction rest generalizing index lba world with
  | nil => rfl
  | cons payload rest ih =>
    obtain ⟨first, later⟩ := entries
    simp only [length_cons, extent_cons] at room count works ⊢
    rw [run_recoverEntries_step region first (by omega) small (by omega) (works 0 (by omega))]
    have kept : EntriesAt db (world.tick 1).cells (index + 1) (lba + sectorsForBytes payload.length) rest :=
      later
    rw [ih kept (by omega) (by omega) (reads_next works)]
    simp only [World.tick_tick, Nat.add_assoc, Nat.add_comm 1]

theorem run_recoverEntries_error {k : Nat} (inside : k < rest.length)
    (works : ∀ i < k, faults.reads (world.reads + i) = false) (fails : faults.reads (world.reads + k) = true) :
    run faults (recoverEntries (db + 1) limit rest.length lba index) world =
      (.error (), world.tick (k + 1)) := by
  induction rest generalizing index lba world k with
  | nil => simp at inside
  | cons payload rest ih =>
    obtain ⟨first, later⟩ := entries
    simp only [length_cons, extent_cons] at room count inside ⊢
    cases k with
    | zero =>
      have refused : faults.reads world.reads = true := fails
      have read := run_memoryDbReadMapEntry faults db index world region (by omega)
      simp only [refused, if_true] at read
      rw [recoverEntries, run_bind_error read]
    | succ k =>
      rw [run_recoverEntries_step region first (by omega) small (by omega) (works 0 (by omega))]
      have kept : EntriesAt db (world.tick 1).cells (index + 1) (lba + sectorsForBytes payload.length) rest :=
        later
      rw [ih kept (by omega) (by omega) (by omega) (reads_next works) (read_next fails)]
      simp only [World.tick_tick, Nat.add_comm 1]

end

end HermitLocal.Ahci.Log
