import HermitLocal.Ahci.Log

/-! What the readers of a database see: recovery finds the log in the map, opening
combines it with the header, and reading returns the bytes of the log. -/

namespace HermitLocal.Ahci.Recovery
open Lib.Wire Lib.BlockProgram Lib.BlockProgram.Program List
open Ahci.Layout Ahci.MemoryDb Ahci.Plan Ahci.Log

def withLog (db : Nat) (state : MemoryDbHeader) (log : List (List UInt8)) : MemoryDbHeader :=
  { state with nextAppendLba := cursor db log, mapEntriesUsed := log.length }

def InStep (db : Nat) (cells : Nat → Sector) (log : List (List UInt8)) : Prop :=
  withLog db (headerFields (cells db)) log = headerFields (cells db)

variable {db index : Nat} {world : Disk} {faults : Faults}

theorem Placed.withLog {state : MemoryDbHeader} (placed : Placed db state) (log : List (List UInt8)) :
    Placed db (withLog db state log) :=
  { placed with }

theorem dataEnd_lt (db : Nat) : dataEnd db < WORD := satAdd_lt _ _

theorem run_readMapHeader (faults : Faults) {log : List (List UInt8)} (rep : Represents db world.cells log) :
    run faults (memoryDbReadMapHeader (db + 1)) world =
      (if faults.reads world.reads then .error ()
        else .ok (MEMORY_DB_MAP_ENTRY_SIZE, log.length), world.tick 1) := by
  rw [memoryDbReadMapHeader, readSector]
  cases answered : faults.reads world.reads with
  | true => rw [run_bind_error (run_readBlock_error answered _)]; rfl
  | false =>
    rw [run_bind_ok (run_readBlock_ok answered _), rep.counted]
    rfl

section
variable {faults : Faults} {db : Nat} {log : List (List UInt8)} {world : Disk} {state : MemoryDbHeader}
variable (placed : Placed db state)
include placed

theorem run_recover (faults : Faults) : run faults (memoryDbRecoverFromMap state) world =
      match run faults (do
          let mapHeader ← memoryDbReadMapHeader (db + 1)
          recoverEntries (db + 1) (dataEnd db) (min mapHeader.2 memoryDbMapEntryCapacity) (dataLba db) 0)
        world with
      | (.ok (found, recovered), after) =>
        (.ok (decide (¬(found < dataLba db ∨ found > dataEnd db)),
          { state with nextAppendLba := found, mapEntriesUsed := recovered }), after)
      | (.error _, after) => (.ok (false, state), after) := by
  have guard : ¬(state.mapLba = 0 ∨ state.mapSectors ≠ MEMORY_DB_MAP_SECTORS) := by
    simp [placed.mapLba, placed.mapSectors]
  rw [memoryDbRecoverFromMap, if_neg guard, placed.mapLba, placed.dataLba, placed.totalSectors]
  simp only [run_bind, run_attempt, dataEnd]
  rcases run faults (memoryDbReadMapHeader (db + 1)) world with ⟨_ | header, middle⟩
  · rfl
  · simp only
    rcases run faults (recoverEntries (db + 1) (satAdd (dataLba db) MEMORY_DB_TOTAL_SECTORS)
      (min header.2 memoryDbMapEntryCapacity) (dataLba db) 0) middle with ⟨_ | ⟨found, recovered⟩, after⟩ <;> rfl

variable (rep : Represents db world.cells log)
include rep

theorem run_recover_ok (works : ∀ i < log.length + 1, faults.reads (world.reads + i) = false) :
    run faults (memoryDbRecoverFromMap state) world =
      (.ok (true, withLog db state log), world.tick (log.length + 1)) := by
  have header := run_readMapHeader faults rep
  have answered : faults.reads world.reads = false := works 0 (by omega)
  simp only [answered, Bool.false_eq_true, if_false] at header
  have kept : EntriesAt db (world.tick 1).cells 0 (dataLba db) log := rep.entries
  have walk := run_recoverEntries_ok faults rep.region kept rep.room (dataEnd_lt db)
    (by simpa using rep.count_le) (reads_next works)
  have all : min log.length memoryDbMapEntryCapacity = log.length := Nat.min_eq_left rep.count_le
  have inside : decide (¬(dataLba db + extent log < dataLba db ∨ dataLba db + extent log > dataEnd db)) =
      true := by
    have room := rep.room
    unfold cursor at room
    exact decide_eq_true (by omega)
  rw [run_recover placed, run_bind_ok header, all, walk]
  simp only [inside, withLog, cursor, World.tick_tick, Nat.add_comm 1, Nat.zero_add]

theorem run_recover_error {k : Nat} (bound : k < log.length + 1)
    (works : ∀ i < k, faults.reads (world.reads + i) = false) (fails : faults.reads (world.reads + k) = true) :
    run faults (memoryDbRecoverFromMap state) world = (.ok (false, state), world.tick (k + 1)) := by
  have header := run_readMapHeader faults rep
  rw [run_recover placed]
  cases k with
  | zero =>
    have refused : faults.reads world.reads = true := fails
    simp only [refused, if_true] at header
    rw [run_bind_error header]
  | succ k =>
    have answered : faults.reads world.reads = false := works 0 (by omega)
    simp only [answered, Bool.false_eq_true, if_false] at header
    have kept : EntriesAt db (world.tick 1).cells 0 (dataLba db) log := rep.entries
    have walk := run_recoverEntries_error faults rep.region kept rep.room (dataEnd_lt db)
      (by simpa using rep.count_le) (by omega) (reads_next works) (read_next fails)
    have all : min log.length memoryDbMapEntryCapacity = log.length := Nat.min_eq_left rep.count_le
    rw [run_bind_ok header, all, walk]
    simp only [World.tick_tick, Nat.add_comm 1]

end

section
variable {faults : Faults} {db : Nat} {log : List (List UInt8)} {world : Disk}
variable (rep : Represents db world.cells log)
include rep

theorem run_readHeader (faults : Faults) : run faults (memoryDbReadHeader db) world =
      (if faults.reads world.reads then .error () else .ok (headerFields (world.cells db)),
        world.tick 1) := by
  rw [memoryDbReadHeader, readSector]
  cases answered : faults.reads world.reads with
  | true => rw [run_bind_error (run_readBlock_error answered _)]; rfl
  | false =>
    rw [run_bind_ok (run_readBlock_ok answered _), rep.header.decodes]
    rfl

theorem run_open (faults : Faults) (answered : faults.reads world.reads = false) :
    run faults (memoryDbOpen db) world =
      run faults (memoryDbRecoverFromMap (headerFields (world.cells db)) >>= fun recovery =>
        pure recovery.2) (world.tick 1) := by
  have header := run_readHeader rep faults
  simp only [answered, Bool.false_eq_true, if_false] at header
  have guard : ¬((headerFields (world.cells db)).mapLba ≠ satAdd db 1 ∨
      (headerFields (world.cells db)).mapSectors ≠ MEMORY_DB_MAP_SECTORS) := by
    simp [rep.header.placed.mapLba, rep.header.placed.mapSectors, satAdd_map db rep.region]
  rw [memoryDbOpen, run_bind_ok header, if_neg guard]

theorem run_open_ok (works : ∀ i < log.length + 2, faults.reads (world.reads + i) = false) :
    run faults (memoryDbOpen db) world =
      (.ok (withLog db (headerFields (world.cells db)) log), world.tick (log.length + 2)) := by
  have kept : Represents db (world.tick 1).cells log := rep
  rw [run_open rep faults (works 0 (by omega)),
    run_bind_ok (run_recover_ok rep.header.placed kept (reads_next works))]
  simp only [run_pure, World.tick_tick, Nat.add_comm 1, Nat.add_assoc]

theorem run_open_fallback {k : Nat} (bound : k < log.length + 1)
    (works : ∀ i < k + 1, faults.reads (world.reads + i) = false)
    (fails : faults.reads (world.reads + (k + 1)) = true) : run faults (memoryDbOpen db) world =
      (.ok (headerFields (world.cells db)), world.tick (k + 2)) := by
  have kept : Represents db (world.tick 1).cells log := rep
  have recovered := run_recover_error rep.header.placed kept bound (reads_next works) (read_next fails)
  rw [run_open rep faults (works 0 (by omega)), run_bind_ok recovered]
  simp only [run_pure, World.tick_tick, Nat.add_comm 1, Nat.add_assoc]

end

/-! Reading the log back. -/

theorem slice_content {cells : Nat → Sector} {lba : Nat} {payload : List UInt8}
    (entry : EntryAt db cells index lba payload) (offset count : Nat) (aligned : offset % SECTOR_SIZE = 0)
    (small : count ≤ SECTOR_SIZE) (inside : offset + count ≤ payload.length) :
    slice (cells (lba + offset / SECTOR_SIZE)) 0 count = (payload.drop offset).take count := by
  apply ext_getElem
  · simp only [slice_length, length_take, length_drop]
    omega
  · intro i low high
    simp only [slice_length] at low
    have content := entry.content (offset + i) (by omega)
    have sector : (offset + i) / SECTOR_SIZE = offset / SECTOR_SIZE := by
      simp only [SECTOR_SIZE] at aligned small ⊢
      omega
    have byte : (offset + i) % SECTOR_SIZE = i := by
      simp only [SECTOR_SIZE] at aligned small ⊢
      omega
    rw [sector, byte] at content
    have here : offset + i < payload.length := by omega
    simp only [slice, getElem_map, getElem_range, Nat.zero_add, content, getElem_take,
      getElem_drop]
    simp [getElem?_eq_getElem here]

theorem run_readEntryBytes (works : faults.ReadsWork) {lba usableTail : Nat} {payload : List UInt8}
    (entry : EntryAt db world.cells index lba payload)
    (room : lba + sectorsForBytes payload.length ≤ usableTail)
    (small : lba + sectorsForBytes payload.length ≤ WORD) (offset remaining : Nat)
    (aligned : offset % SECTOR_SIZE = 0 ∨ payload.length ≤ offset ∨ remaining = 0) :
    ∃ count, run faults (readEntryBytes (mapEntry db world.cells index) usableTail offset remaining) world =
      (.ok ((payload.drop offset).take remaining), world.tick count) := by
  induction size : remaining using Nat.strong_induction_on generalizing offset remaining world with
  | _ total ih =>
  subst size
  rw [readEntryBytes, entry.bytes, entry.start]
  by_cases more : offset < payload.length ∧ remaining > 0
  · have start : offset % SECTOR_SIZE = 0 := by omega
    have sectorInside : offset / SECTOR_SIZE < sectorsForBytes payload.length := by
      simp only [sectorsForBytes_eq, SECTOR_SIZE]
      omega
    have added : checkedAdd lba (offset / SECTOR_SIZE) = some (lba + offset / SECTOR_SIZE) :=
      if_pos (by omega)
    have below : ¬lba + offset / SECTOR_SIZE ≥ usableTail := by omega
    generalize toCopyIs : min (min (payload.length - offset) remaining) SECTOR_SIZE = toCopy
    have toCopyPos : 0 < toCopy := by simp only [SECTOR_SIZE] at toCopyIs; omega
    have copied := slice_content entry offset toCopy start (by omega) (by omega)
    have aligned' : (offset + toCopy) % SECTOR_SIZE = 0 ∨ payload.length ≤ offset + toCopy ∨
        remaining - toCopy = 0 := by
      simp only [SECTOR_SIZE] at toCopyIs start ⊢
      omega
    have kept : EntryAt db (world.tick 1).cells index lba payload := entry
    obtain ⟨count, later⟩ := ih (remaining - toCopy) (by omega) kept (offset + toCopy)
      (remaining - toCopy) aligned' rfl
    refine ⟨1 + count, ?_⟩
    have split : (payload.drop offset).take remaining = (payload.drop offset).take toCopy ++
        (payload.drop (offset + toCopy)).take (remaining - toCopy) := by
      have sum : remaining = toCopy + (remaining - toCopy) := by omega
      conv_lhs => rw [sum, take_add, drop_drop]
    simp only [more, added, below, and_self, dite_true, if_false, readSector]
    rw [run_bind_ok (run_readBlock_ok (works _) _)]
    change run faults (readEntryBytes (mapEntry db (world.tick 1).cells index) usableTail (offset + toCopy)
      (remaining - toCopy) >>= _) _ = _
    rw [run_bind_ok later, run_pure, copied, split, World.tick_tick]
  · have none : (payload.drop offset).take remaining = [] := by
      rcases Nat.lt_or_ge offset payload.length with inside | past
      · have zero : remaining = 0 := by omega
        simp [zero]
      · simp [drop_of_length_le past]
    exact ⟨0, by simp [more, none]⟩

theorem run_readEntries (works : faults.ReadsWork) {lba usableTail used : Nat} {rest : List (List UInt8)}
    (region : db + MEMORY_DB_TOTAL_SECTORS < WORD) (entries : EntriesAt db world.cells index lba rest)
    (room : lba + extent rest ≤ usableTail) (small : lba + extent rest ≤ WORD)
    (count : used = index + rest.length) (bound : used ≤ memoryDbMapEntryCapacity) (remaining : Nat) :
    ∃ ticks, run faults (readEntries (db + 1) used usableTail rest.length remaining) world =
      (.ok (rest.flatten.take remaining), world.tick ticks) := by
  induction rest generalizing index lba world remaining with
  | nil => exact ⟨0, by simp [readEntries]⟩
  | cons payload rest ih =>
    obtain ⟨first, later⟩ := entries
    simp only [length_cons, extent_cons] at room small count ⊢
    rw [readEntries]
    by_cases stop : remaining = 0
    · exact ⟨0, by simp [stop]⟩
    have here : used - (rest.length + 1) = index := by omega
    have read := run_memoryDbReadMapEntry faults db index world region (by omega)
    simp only [works world.reads, Bool.false_eq_true, if_false] at read
    have kept : EntryAt db (world.tick 1).cells index lba payload := first
    have roomHere : lba + sectorsForBytes payload.length ≤ usableTail := by omega
    obtain ⟨ticks, bytes⟩ := run_readEntryBytes works kept roomHere (by omega) 0 remaining (by simp)
    have keptRest : EntriesAt db ((world.tick 1).tick ticks).cells (index + 1)
        (lba + sectorsForBytes payload.length) rest := later
    obtain ⟨more, tail⟩ := ih keptRest (by omega) (by omega) (by omega)
      (remaining - ((payload.drop 0).take remaining).length)
    refine ⟨1 + ticks + more, ?_⟩
    have positive : payload.length ≠ 0 := first.nonempty.ne'
    have enter : (!isActive (mapEntry db world.cells index) ||
        (mapEntry db world.cells index).payloadBytes == 0) = false := by
      simp [first.active, first.bytes, positive]
    rw [if_neg stop, here, run_bind_ok read, enter]
    change run faults (readEntryBytes (mapEntry db (world.tick 1).cells index) usableTail 0 remaining >>= _) _ = _
    rw [run_bind_ok bytes, run_bind_ok tail]
    have cut : remaining - min remaining payload.length = remaining - payload.length := by omega
    simp [World.tick_tick, take_append, cut]

theorem run_readMemoryDb (works : faults.ReadsWork) {capacity : Nat} {log : List (List UInt8)}
    (rep : Represents db world.cells log) (statics : world.statics = ⟨some capacity, some db⟩) (bufLen : Nat) :
    ∃ ticks, run faults (readMemoryDb bufLen) world =
      (.ok (log.flatten.take bufLen), world.tick ticks) := by
  rw [readMemoryDb, run_bind_ok (run_getStatics faults world), statics]
  by_cases stop : bufLen = 0
  · exact ⟨0, by simp [stop]⟩
  have opened := run_open_ok rep fun i (_ : i < log.length + 2) => works _
  have placed := rep.header.placed
  have room := rep.room
  have inside : ¬(cursor db log < dataLba db ∨ cursor db log > dataEnd db) := by
    unfold cursor at room ⊢
    omega
  have all : min log.length memoryDbMapEntryCapacity = log.length := Nat.min_eq_left rep.count_le
  have usable : dataLba db + extent log ≤ if capacity > dataEnd db then capacity else dataEnd db := by
    unfold cursor at room
    split <;> omega
  have end_ := dataEnd_lt db
  have kept : EntriesAt db (world.tick (log.length + 2)).cells 0 (dataLba db) log := rep.entries
  obtain ⟨ticks, bytes⟩ := run_readEntries works rep.region kept usable (by unfold cursor at room; omega)
    (Nat.zero_add _).symm rep.count_le bufLen
  refine ⟨log.length + 2 + ticks, ?_⟩
  simp only [stop, if_false]
  rw [run_bind_ok opened]
  simp only [withLog, placed.dataLba, placed.totalSectors, placed.mapLba, all]
  rw [← dataEnd, if_neg inside, bytes, World.tick_tick]

/-! None of the readers writes, on any disk content. -/

theorem readMapHeader_readOnly (mapLba : Nat) : (memoryDbReadMapHeader mapLba).ReadOnly :=
  readOnly_bind (readOnly_readBlock _) fun _ => readOnly_lift _

theorem readMapEntry_readOnly (mapLba index : Nat) : (memoryDbReadMapEntry mapLba index).ReadOnly :=
  readOnly_bind (readOnly_lift _) fun _ => readOnly_bind (readOnly_readBlock _) fun _ => readOnly_pure _

theorem readHeader_readOnly (dbLba : Nat) : (memoryDbReadHeader dbLba).ReadOnly :=
  readOnly_bind (readOnly_readBlock _) fun _ => readOnly_lift _

theorem recoverEntries_readOnly (mapLba limit left found recovered : Nat) :
    (recoverEntries mapLba limit left found recovered).ReadOnly := by
  induction left generalizing found recovered with
  | zero => exact readOnly_pure _
  | succ left ih =>
    refine readOnly_bind (readMapEntry_readOnly _ _) fun entry => ?_
    split
    · exact readOnly_pure _
    · split
      · exact readOnly_fail
      · split
        · exact readOnly_pure _
        · exact ih _ _

theorem recover_readOnly (state : MemoryDbHeader) : (memoryDbRecoverFromMap state).ReadOnly := by
  rw [memoryDbRecoverFromMap]
  split
  · exact readOnly_pure _
  · refine readOnly_bind (readOnly_attempt (readOnly_bind (readMapHeader_readOnly _) fun _ =>
      recoverEntries_readOnly _ _ _ _ _)) fun found => ?_
    rcases found with _ | ⟨found, recovered⟩
    · exact readOnly_pure _
    · exact readOnly_pure _

theorem open_readOnly (dbLba : Nat) : (memoryDbOpen dbLba).ReadOnly := by
  refine readOnly_bind (readHeader_readOnly _) fun state => ?_
  split
  · exact readOnly_fail
  · exact readOnly_bind (recover_readOnly _) fun _ => readOnly_pure _

theorem appendOpen_readOnly (dbLba : Nat) : (appendOpen dbLba).ReadOnly := by
  refine readOnly_bind (open_readOnly _) fun state => readOnly_bind readOnly_getStatics fun statics => ?_
  split
  · exact readOnly_fail
  · split
    · exact readOnly_fail
    · simp only
      split
      · exact readOnly_fail
      · exact readOnly_pure _

theorem readEntryBytes_readOnly (entry : MemoryDbMapEntry) (usableTail offset remaining : Nat) :
    (readEntryBytes entry usableTail offset remaining).ReadOnly := by
  induction size : remaining using Nat.strong_induction_on generalizing offset remaining with
  | _ total ih =>
  rw [readEntryBytes]
  split
  · rename_i more
    split
    · exact readOnly_fail
    · split
      · exact readOnly_fail
      · refine readOnly_bind (readOnly_readBlock _) fun _ => readOnly_bind ?_ fun _ => readOnly_pure _
        exact ih _ (by simp only [SECTOR_SIZE]; omega) _ _ rfl
  · exact readOnly_pure _

theorem readEntries_readOnly (mapLba used usableTail left remaining : Nat) :
    (readEntries mapLba used usableTail left remaining).ReadOnly := by
  induction left generalizing remaining with
  | zero => exact readOnly_pure _
  | succ left ih =>
    rw [readEntries]
    split
    · exact readOnly_pure _
    · refine readOnly_bind (readMapEntry_readOnly _ _) fun entry => ?_
      split
      · exact readOnly_pure _
      · exact readOnly_bind (readEntryBytes_readOnly _ _ _ _) fun _ =>
          readOnly_bind (ih _) fun _ => readOnly_pure _

theorem readMemoryDb_readOnly (bufLen : Nat) : (readMemoryDb bufLen).ReadOnly := by
  refine readOnly_bind readOnly_getStatics fun statics => ?_
  split
  · exact readOnly_fail
  · split
    · exact readOnly_pure _
    · refine readOnly_bind (open_readOnly _) fun state => ?_
      split
      · exact readOnly_fail
      · simp only
        split
        · exact readOnly_fail
        · exact readEntries_readOnly _ _ _ _ _

end HermitLocal.Ahci.Recovery
