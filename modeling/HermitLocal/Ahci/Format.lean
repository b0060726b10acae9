import HermitLocal.Ahci.AppendRun

/-! Formatting, reopening and erasing: `ensure_memory_db` either keeps what its
checks accept, rewriting both headers from the map, or writes an empty database
over it; `erase_memory_db` zeroes the reserved range and starts anew. -/

namespace HermitLocal.Ahci.Format
open Lib.Wire Lib.BlockProgram Lib.BlockProgram.Program Function
open Ahci.Layout Ahci.MemoryDb Ahci.Plan Ahci.Log
open Ahci.Recovery Ahci.Append Ahci.AppendRun

structure Site (db capacity : Nat) : Prop where
  fits : db + MEMORY_DB_TOTAL_SECTORS ≤ capacity
  word : capacity < WORD

def boot (capacity : Nat) (cells : Nat → Sector) : Disk := ⟨cells, 0, [], ⟨some capacity, none⟩⟩

def register (db : Nat) (world : Disk) : Disk :=
  { world with statics :=
      { world.statics with memoryDbHeaderLba := world.statics.memoryDbHeaderLba.or (some db) } }

def Opens (db capacity : Nat) (world : Disk) : Prop :=
  world.statics = ⟨some capacity, none⟩ ∨ world.statics = ⟨some capacity, some db⟩

def freshWrites (db capacity modelStartLba modelLastLba : Nat) : List (Nat × Sector) :=
  place (db + 1) (List.replicate MEMORY_DB_MAP_SECTORS zeros) ++
    [(db + 1, mapHeaderSector 0),
      (db, headerSector (freshHeader db (db + 1) (dataLba db) capacity modelStartLba modelLastLba))]

def keptHeader (db : Nat) (header : Sector) (log : List (List UInt8)) (modelStartLba modelLastLba : Nat) :
    MemoryDbHeader :=
  withLog db { headerFields header with modelStartLba := modelStartLba, modelLastLba := modelLastLba } log

def keepWrites (db : Nat) (cells : Nat → Sector) (log : List (List UInt8))
    (modelStartLba modelLastLba : Nat) : List (Nat × Sector) :=
  [(db + 1, mapHeaderSector log.length),
    (db, headerSector (keptHeader db (cells db) log modelStartLba modelLastLba))]

variable {db capacity modelStartLba modelLastLba : Nat} {world : Disk} {state : MemoryDbHeader}
  {cells : Nat → Sector} {log : List (List UInt8)}

theorem Site.region (site : Site db capacity) : db + MEMORY_DB_TOTAL_SECTORS < WORD :=
  lt_of_le_of_lt site.fits site.word

theorem Site.appendLimit_ge (site : Site db capacity) :
    db + MEMORY_DB_TOTAL_SECTORS ≤ appendLimit db capacity :=
  le_min (dataEnd_ge db site.region)
    (le_min (le_trans site.fits (Nat.le_succ _)) (Nat.le_sub_one_of_lt site.region))

theorem placed_setModel (placed : Placed db state) (modelStartLba modelLastLba : Nat) :
    Placed db { state with modelStartLba := modelStartLba, modelLastLba := modelLastLba } :=
  { placed with }

theorem dataLba_lt (db : Nat) : dataLba db < db + MEMORY_DB_TOTAL_SECTORS := by
  simp only [dataLba, MEMORY_DB_MAP_SECTORS, MEMORY_DB_TOTAL_SECTORS]
  omega

theorem run_registerState (faults : Faults) (db : Nat) (world : Disk) :
    run faults (memoryDbRegisterState db) world = (.ok (), register db world) := rfl

theorem Opens.ssd (opens : Opens db capacity world) : world.statics.ssdSectorCount = some capacity := by
  rcases opens with statics | statics <;> rw [statics]

theorem register_statics (opens : Opens db capacity world) :
    (register db world).statics = ⟨some capacity, some db⟩ := by
  rcases opens with statics | statics <;> simp [register, statics]

theorem run_ensure (faults : Faults) (site : Site db capacity)
    (ssd : world.statics.ssdSectorCount = some capacity) (modelStartLba modelLastLba : Nat) :
    run faults (ensureMemoryDb db modelStartLba modelLastLba) world = run faults (do
      let preserved ← ensurePreserved db (db + 1) (dataLba db) (db + MEMORY_DB_TOTAL_SECTORS) modelStartLba
        modelLastLba
      if preserved then pure ()
      else ensureFresh db (db + 1) (dataLba db) capacity modelStartLba modelLastLba) world := by
  have added : checkedAdd db MEMORY_DB_TOTAL_SECTORS = some (db + MEMORY_DB_TOTAL_SECTORS) :=
    if_pos site.region
  have guard : ¬(db + MEMORY_DB_TOTAL_SECTORS > capacity ∨ dataLba db ≥ db + MEMORY_DB_TOTAL_SECTORS) := by
    have fits := site.fits
    have low := dataLba_lt db
    omega
  rw [ensureMemoryDb, run_bind_ok (run_getStatics faults world), ssd, added]
  simp only [satAdd_map db site.region, satAdd_data db site.region, guard, if_false]

theorem represents_empty (region : db + MEMORY_DB_TOTAL_SECTORS < WORD) (fits : state.Encodable)
    (placed : Placed db state) (header : cells db = headerSector state)
    (count : cells (db + 1) = mapHeaderSector 0) : Represents db cells [] := by
  refine ⟨region, ?_, ?_, trivial, ?_⟩
  · rw [header]
    refine ⟨?_, ?_⟩
    · rw [decodeHeader_headerSector state fits, headerFields_headerSector state fits]
    · rw [headerFields_headerSector state fits]
      exact placed
  · rw [count]
    exact decodeMapHeader_mapHeaderSector 0 (Nat.zero_le _)
  · have low := dataLba_lt db
    have high := dataEnd_ge db region
    simp only [cursor, extent_nil]
    omega

theorem inStep_empty (fits : state.Encodable) (header : cells db = headerSector state)
    (start : state.nextAppendLba = dataLba db) (none : state.mapEntriesUsed = 0) : InStep db cells [] := by
  rw [InStep, header, headerFields_headerSector state fits, withLog, cursor, extent_nil, Nat.add_zero, ← start,
    List.length_nil, ← none]

theorem ensureFresh_eq (db capacity modelStartLba modelLastLba : Nat) :
    ensureFresh db (db + 1) (dataLba db) capacity modelStartLba modelLastLba = (do
      writeAll (freshWrites db capacity modelStartLba modelLastLba)
      let verify ← readSector db
      if slice verify 0 8 ≠ MEMORY_DB_MAGIC then fail
      else memoryDbRegisterState db) := by
  simp only [ensureFresh, freshWrites, writeAll_append, writeAll, memoryDbWriteMapHeader, bind_assoc,
    pure_bind]

theorem headers_written {writes front : List (Nat × Sector)} {count : Sector}
    (written : writes = front ++ [(db + 1, count), (db, headerSector state)]) (cells : Nat → Sector) :
    applyWrites writes cells db = headerSector state ∧ applyWrites writes cells (db + 1) = count := by
  rw [written, applyWrites_append]
  simp

theorem freshHeader_placed :
    Placed db (freshHeader db (db + 1) (dataLba db) capacity modelStartLba modelLastLba) :=
  ⟨rfl, rfl, rfl, rfl, rfl⟩

section
variable {db capacity modelStartLba modelLastLba : Nat} (site : Site db capacity)
variable (start : modelStartLba < WORD) (last : modelLastLba < WORD)
include site start last

theorem freshHeader_encodable :
    (freshHeader db (db + 1) (dataLba db) capacity modelStartLba modelLastLba).Encodable := by
  have region := site.region
  have word := site.word
  have low := dataLba_lt db
  have total : MEMORY_DB_TOTAL_SECTORS < WORD := by decide
  have map : MEMORY_DB_MAP_SECTORS < WORD := by decide
  have zero : 0 < WORD := by decide
  simp only [MEMORY_DB_TOTAL_SECTORS] at region low
  refine ⟨rfl, rfl, rfl, ?_, ?_, total, ?_, ?_, start, last, ?_, zero, map⟩ <;>
    simp only [freshHeader] <;> omega

theorem represents_fresh {writes front : List (Nat × Sector)} (cells : Nat → Sector)
    (written : writes = front ++ [(db + 1, mapHeaderSector 0),
      (db, headerSector (freshHeader db (db + 1) (dataLba db) capacity modelStartLba modelLastLba))]) :
    Represents db (applyWrites writes cells) [] ∧ InStep db (applyWrites writes cells) [] := by
  have fits := freshHeader_encodable site start last
  obtain ⟨header, count⟩ := headers_written written cells
  exact ⟨represents_empty site.region fits freshHeader_placed header count, inStep_empty fits header rfl rfl⟩

theorem run_ensureFresh {faults : Faults} (writes : faults.WritesWork) :
    run faults (ensureFresh db (db + 1) (dataLba db) capacity modelStartLba modelLastLba) world =
      if faults.reads world.reads then
        (.error (), (world.store (freshWrites db capacity modelStartLba modelLastLba)).tick 1)
      else (.ok (), register db
        ((world.store (freshWrites db capacity modelStartLba modelLastLba)).tick 1)) := by
  have header : (world.store (freshWrites db capacity modelStartLba modelLastLba)).cells db =
      headerSector (freshHeader db (db + 1) (dataLba db) capacity modelStartLba modelLastLba) :=
    (headers_written rfl world.cells).1
  have magic : slice (headerSector (freshHeader db (db + 1) (dataLba db) capacity modelStartLba modelLastLba))
      0 8 = MEMORY_DB_MAGIC :=
    congrArg MemoryDbHeader.magic (headerFields_headerSector _ (freshHeader_encodable site start last))
  rw [ensureFresh_eq, run_bind_ok (run_writeAll_ok _ fun i _ => writes _), readSector]
  cases answered : faults.reads world.reads with
  | true =>
    rw [run_bind_error (run_readBlock_error (by simpa using answered) db)]
    rfl
  | false =>
    rw [run_bind_ok (run_readBlock_ok (by simpa using answered) db), header, magic]
    simp [run_registerState]

end

/-! The two ways through `ensure_memory_db`, on any disk content. -/

def HeaderOk (db : Nat) (header : Sector) : Prop :=
  ∀ state, decodeHeader header = .ok state → Placed db state

theorem headerOk_of_placed {header : Sector} (placed : Placed db (headerFields header)) :
    HeaderOk db header := by
  intro state decoded
  rw [(decodeHeader_encodable header state decoded).2]
  exact placed

theorem headerOk_of_error {header : Sector} (rejected : decodeHeader header = .error ()) :
    HeaderOk db header := by
  intro state decoded
  simp [rejected] at decoded

theorem headerOk_headerSector (region : db + MEMORY_DB_TOTAL_SECTORS < WORD) (placed : Placed db state) :
    HeaderOk db (headerSector state) := by
  have low := dataLba_lt db
  have word : ∀ value < WORD, value % 256 ^ 8 = value := fun _ small => Nat.mod_eq_of_lt small
  have map : db + 1 < WORD := by simp only [MEMORY_DB_TOTAL_SECTORS] at region; omega
  apply headerOk_of_placed
  constructor <;>
    simp (disch := decide) only [headerFields, headerSector, leU64, writeLeU32, writeLeU64,
      field_setField_same, field_setField_apart, placed.headerLba, placed.dataLba, placed.totalSectors,
      placed.mapLba, placed.mapSectors]
  · exact word db (by omega)
  · exact word (dataLba db) (by omega)
  · exact word _ (by decide)
  · exact word (db + 1) map
  · exact word _ (by decide)

theorem recover_placed (faults : Faults) (placed : Placed db state) (world : Disk) :
    ∃ found ticks, run faults (memoryDbRecoverFromMap state) world = (.ok found, world.tick ticks) ∧
      Placed db found.2 := by
  obtain ⟨ticks, reads⟩ := run_readOnly (recover_readOnly state) faults world
  have outcome : run faults (memoryDbRecoverFromMap state) world = _ := run_recover placed faults
  generalize run faults (memoryDbReadMapHeader (db + 1) >>= _) world = inner at outcome
  rcases inner with ⟨_ | ⟨next, recovered⟩, after⟩
  · rw [outcome] at reads
    exact ⟨_, ticks, by rw [outcome, ← reads], placed⟩
  · rw [outcome] at reads
    exact ⟨_, ticks, by rw [outcome, ← reads], { placed with }⟩

theorem run_ensureExisting_rejected (faults : Faults) (db modelStartLba modelLastLba : Nat) (existing : Sector)
    (world : Disk)
    (rejected : ¬HeaderAccepted existing db (db + 1) (dataLba db) (db + MEMORY_DB_TOTAL_SECTORS)) :
    ∃ ticks, run faults (ensureExisting db (db + 1) (dataLba db) (db + MEMORY_DB_TOTAL_SECTORS) modelStartLba
      modelLastLba existing) world = (.ok false, world.tick ticks) := by
  obtain ⟨ticks, probed⟩ := run_readOnly (readMapHeader_readOnly (leU64 existing 72)) faults world
  refine ⟨ticks, ?_⟩
  rw [ensureExisting, run_bind, run_attempt, probed]
  simp only [rejected, false_and, if_false, run_pure]

theorem ensureExisting_paths (faults : Faults) (db modelStartLba modelLastLba : Nat) (existing : Sector)
    (world : Disk) :
    (∃ ticks, run faults (ensureExisting db (db + 1) (dataLba db) (db + MEMORY_DB_TOTAL_SECTORS) modelStartLba
      modelLastLba existing) world = (.ok false, world.tick ticks)) ∨
    ∃ ticks count state, Placed db state ∧ Placed db (headerFields existing) ∧
      run faults (ensureExisting db (db + 1) (dataLba db) (db + MEMORY_DB_TOTAL_SECTORS) modelStartLba
        modelLastLba existing) world = run faults (do
          memoryDbWriteMapHeader (db + 1) count
          memoryDbRegisterState db
          memoryDbWriteHeader state
          pure true) (world.tick ticks) := by
  obtain ⟨probe, probed⟩ := run_readOnly (readMapHeader_readOnly (leU64 existing 72)) faults world
  rw [ensureExisting, run_bind, run_attempt, probed]
  simp only
  split
  · rename_i accepted
    obtain ⟨⟨_, _, _, headerLba, start, mapLba, mapSectors, total, _⟩, _⟩ := accepted
    have here : Placed db (headerFields existing) := ⟨headerLba, start, total, mapLba, mapSectors⟩
    obtain ⟨found, more, recovered, foundPlaced⟩ :=
      recover_placed faults (placed_setModel here modelStartLba modelLastLba) (world.tick probe)
    rw [run_bind_ok recovered, World.tick_tick]
    cases success : found.1 with
    | false => exact .inl ⟨probe + more, by simp⟩
    | true =>
      refine .inr ⟨probe + more, found.2.mapEntriesUsed, found.2, foundPlaced, here, ?_⟩
      simp only [if_true, foundPlaced.mapLba]
  · exact .inl ⟨probe, rfl⟩

theorem run_ensure_paths (faults : Faults) (site : Site db capacity)
    (ssd : world.statics.ssdSectorCount = some capacity) (modelStartLba modelLastLba : Nat) :
    (∃ ticks, run faults (ensureMemoryDb db modelStartLba modelLastLba) world =
      run faults (ensureFresh db (db + 1) (dataLba db) capacity modelStartLba modelLastLba)
        (world.tick ticks)) ∨ ∃ ticks count state, Placed db state ∧ Placed db (headerFields (world.cells db)) ∧
      run faults (ensureMemoryDb db modelStartLba modelLastLba) world = run faults (do
        memoryDbWriteMapHeader (db + 1) count
        memoryDbRegisterState db
        memoryDbWriteHeader state) (world.tick ticks) := by
  rw [run_ensure faults site ssd, run_bind, ensurePreserved, run_bind, run_attempt, readSector, run_readBlock]
  cases faults.reads world.reads with
  | true => exact .inl ⟨1, rfl⟩
  | false =>
    simp only [Bool.false_eq_true, if_false]
    rcases ensureExisting_paths faults db modelStartLba modelLastLba (world.cells db) (world.tick 1) with
      ⟨ticks, ran⟩ | ⟨ticks, count, state, placed, here, ran⟩
    · exact .inl ⟨1 + ticks, by rw [ran, World.tick_tick]; rfl⟩
    · refine .inr ⟨1 + ticks, count, state, placed, here, ?_⟩
      rw [ran, World.tick_tick]
      simp only [run_bind]
      rcases run faults (memoryDbWriteMapHeader (db + 1) count) (world.tick (1 + ticks)) with ⟨_ | _, first⟩
      · rfl
      · simp only [run_registerState]
        rcases run faults (memoryDbWriteHeader state) (register db first) with ⟨_ | _, second⟩ <;> rfl

theorem run_ensure_outside (faults : Faults) (word : capacity < WORD) (outside : ¬Site db capacity)
    (ssd : world.statics.ssdSectorCount = some capacity) (modelStartLba modelLastLba : Nat) :
    run faults (ensureMemoryDb db modelStartLba modelLastLba) world = (.error (), world) := by
  rw [ensureMemoryDb, run_bind_ok (run_getStatics faults world), ssd]
  cases added : checkedAdd db MEMORY_DB_TOTAL_SECTORS with
  | none => rfl
  | some limit =>
    have sum := (checkedAdd_eq_some _ _ _ added).1
    have beyond : limit > capacity := by
      by_contra fits
      exact outside ⟨by omega, word⟩
    simp only [beyond, true_or, if_true, run_fail]

theorem run_ensure_unknown (faults : Faults) (ssd : world.statics.ssdSectorCount = none)
    (db modelStartLba modelLastLba : Nat) :
    run faults (ensureMemoryDb db modelStartLba modelLastLba) world = (.error (), world) := by
  rw [ensureMemoryDb, run_bind_ok (run_getStatics faults world), ssd]
  cases checkedAdd db MEMORY_DB_TOTAL_SECTORS <;> rfl

section
variable (site : Site db capacity) (start : modelStartLba < WORD) (last : modelLastLba < WORD)

include site start last

theorem run_ensure_formats (ssd : world.statics.ssdSectorCount = some capacity)
    (blank : decodeHeader (world.cells db) = .error ()) :
    ∃ ticks, run Faults.none (ensureMemoryDb db modelStartLba modelLastLba) world =
      (.ok (), register db ((world.tick ticks).store (freshWrites db capacity modelStartLba modelLastLba))) := by
  have rejected : ¬HeaderAccepted (world.cells db) db (db + 1) (dataLba db) (db + MEMORY_DB_TOTAL_SECTORS) := by
    rintro ⟨magic, version, size, _⟩
    simp [decodeHeader, magic, version, size] at blank
  obtain ⟨ticks, refused⟩ := run_ensureExisting_rejected Faults.none db modelStartLba modelLastLba (world.cells db)
    (world.tick 1) rejected
  refine ⟨1 + ticks + 1, ?_⟩
  rw [run_ensure Faults.none site ssd, run_bind, ensurePreserved, run_bind, run_attempt, readSector,
    run_readBlock_ok (Faults.none_readsWork _)]
  simp only
  rw [refused]
  simp only [Bool.false_eq_true, if_false]
  rw [run_ensureFresh site start last Faults.none_writesWork]
  simp [Faults.none, World.tick_tick, ← World.tick_store]

theorem run_ensure_blank (cells : Nat → Sector) (blank : decodeHeader (cells db) = .error ()) :
    ∃ ticks, run Faults.none (ensureMemoryDb db modelStartLba modelLastLba) (boot capacity cells) =
      (.ok (), register db (((boot capacity cells).tick ticks).store
        (freshWrites db capacity modelStartLba modelLastLba))) :=
  run_ensure_formats site start last rfl blank

theorem ready_fresh (opens : Opens db capacity world) :
    Ready db capacity [] (register db (world.store (freshWrites db capacity modelStartLba modelLastLba))) := by
  obtain ⟨rep, inStep⟩ := represents_fresh site start last world.cells rfl
  exact ⟨register_statics opens, rep, inStep⟩

end

def sampleDisk : Disk := (run Faults.none (ensureMemoryDb 0 0 0) (boot 200000 fun _ => zeros)).2

theorem sampleSite : Site 0 200000 := ⟨by decide, by decide⟩

theorem sampleDisk_eq :
    ∃ ticks, run Faults.none (ensureMemoryDb 0 0 0) (boot 200000 fun _ => zeros) = (.ok (), sampleDisk) ∧
      sampleDisk = register 0 (((boot 200000 fun _ => zeros).tick ticks).store (freshWrites 0 200000 0 0)) := by
  obtain ⟨ticks, ran⟩ := run_ensure_blank sampleSite (show 0 < WORD by decide) (show 0 < WORD by decide)
    (fun _ => zeros) decodeHeader_zeros
  exact ⟨ticks, by rw [sampleDisk, ran], by rw [sampleDisk, ran]⟩

theorem sampleDisk_issued : sampleDisk.issued = freshWrites 0 200000 0 0 := by
  obtain ⟨ticks, _, formatted⟩ := sampleDisk_eq
  rw [formatted]
  rfl

theorem sampleDisk_ready : Ready 0 200000 [] sampleDisk := by
  obtain ⟨ticks, _, formatted⟩ := sampleDisk_eq
  rw [formatted]
  exact ready_fresh sampleSite (by decide) (by decide) (.inl rfl)

/-! Reopening a disk that represents a log. -/

def Reopens (db : Nat) (header : Sector) : Prop :=
  dataLba db ≤ (headerFields header).nextAppendLba ∧
    (headerFields header).nextAppendLba ≤ db + MEMORY_DB_TOTAL_SECTORS ∧
    (headerFields header).mapEntriesUsed ≤ memoryDbMapEntryCapacity

theorem headerAccepted_iff (rep : Represents db cells log) :
    HeaderAccepted (cells db) db (db + 1) (dataLba db) (db + MEMORY_DB_TOTAL_SECTORS) ↔
      Reopens db (cells db) := by
  have fits := (decodeHeader_encodable _ _ rep.header.decodes).1
  have placed := rep.header.placed
  constructor
  · rintro ⟨_, _, _, _, _, _, _, _, low, high, used⟩
    exact ⟨low, high, used⟩
  · rintro ⟨low, high, used⟩
    exact ⟨fits.magic, fits.version, fits.sectorSize, placed.headerLba, placed.dataLba, placed.mapLba,
      placed.mapSectors, placed.totalSectors, low, high, used⟩

theorem reopens_iff (rep : Represents db cells log) (inStep : InStep db cells log) :
    Reopens db (cells db) ↔ cursor db log ≤ db + MEMORY_DB_TOTAL_SECTORS := by
  have next : (headerFields (cells db)).nextAppendLba = cursor db log :=
    (congrArg MemoryDbHeader.nextAppendLba inStep).symm
  have used : (headerFields (cells db)).mapEntriesUsed = log.length :=
    (congrArg MemoryDbHeader.mapEntriesUsed inStep).symm
  have low : dataLba db ≤ cursor db log := Nat.le_add_right _ _
  have count := rep.count_le
  simp only [Reopens, next, used, low, count, true_and, and_true]

section
variable {faults : Faults} {db capacity : Nat} {log : List (List UInt8)} {world : Disk}
variable (rep : Represents db world.cells log) (modelStartLba modelLastLba : Nat)
include rep

theorem run_ensureExisting_kept (reopens : Reopens db (world.cells db))
    (works : ∀ i < log.length + 2, faults.reads (world.reads + i) = false) :
    run faults (ensureExisting db (db + 1) (dataLba db) (db + MEMORY_DB_TOTAL_SECTORS) modelStartLba
      modelLastLba (world.cells db)) world = run faults (do
        memoryDbWriteMapHeader (db + 1) log.length
        memoryDbRegisterState db
        memoryDbWriteHeader (keptHeader db (world.cells db) log modelStartLba modelLastLba)
        pure true) (world.tick (log.length + 2)) := by
  have accepted := (headerAccepted_iff rep).mpr reopens
  have placed := rep.header.placed
  have mapLba : leU64 (world.cells db) 72 = db + 1 := placed.mapLba
  have header := run_readMapHeader faults rep
  have answered : faults.reads world.reads = false := works 0 (by omega)
  simp only [answered, Bool.false_eq_true, if_false] at header
  have probed : run faults (attempt (memoryDbReadMapHeader (db + 1))) world =
      (.ok (.ok (MEMORY_DB_MAP_ENTRY_SIZE, log.length)), world.tick 1) := by
    rw [run_attempt, header]
  have kept : Represents db (world.tick 1).cells log := rep
  rw [ensureExisting, mapLba, run_bind_ok probed]
  simp only [accepted, Except.isOk, Except.toBool, and_self, if_true]
  rw [run_bind_ok (run_recover_ok (placed_setModel placed modelStartLba modelLastLba) kept (reads_next works)), World.tick_tick]
  simp only [if_true, keptHeader, withLog, placed.mapLba, Nat.add_comm 1, Nat.add_assoc]

theorem run_ensureExisting_refused (reopens : Reopens db (world.cells db)) {k : Nat}
    (bound : k < log.length + 2) (works : ∀ i < k, faults.reads (world.reads + i) = false)
    (fails : faults.reads (world.reads + k) = true) :
    run faults (ensureExisting db (db + 1) (dataLba db) (db + MEMORY_DB_TOTAL_SECTORS) modelStartLba
      modelLastLba (world.cells db)) world = (.ok false, world.tick (k + 1)) := by
  have accepted := (headerAccepted_iff rep).mpr reopens
  have placed := rep.header.placed
  have mapLba : leU64 (world.cells db) 72 = db + 1 := placed.mapLba
  have header := run_readMapHeader faults rep
  rw [ensureExisting, mapLba, run_bind, run_attempt, header]
  cases k with
  | zero =>
    have refused : faults.reads world.reads = true := fails
    simp [refused, Except.isOk, Except.toBool]
  | succ k =>
    have answered : faults.reads world.reads = false := works 0 (by omega)
    have kept : Represents db (world.tick 1).cells log := rep
    have recovered := run_recover_error (placed_setModel placed modelStartLba modelLastLba) kept (by omega)
      (reads_next works) (read_next fails)
    simp only [answered, accepted, Except.isOk, Except.toBool, Bool.false_eq_true, and_self, if_false, if_true]
    rw [run_bind_ok recovered, World.tick_tick]
    simp only [Bool.false_eq_true, if_false, run_pure, Nat.add_comm 1]

end

theorem keptHeader_encodable (rep : Represents db cells log) (start : modelStartLba < WORD)
    (last : modelLastLba < WORD) : (keptHeader db (cells db) log modelStartLba modelLastLba).Encodable := by
  have fits := (decodeHeader_encodable _ _ rep.header.decodes).1
  exact ⟨fits.magic, fits.version, fits.sectorSize, fits.headerLba, fits.dataLba, fits.totalSectors,
    lt_of_le_of_lt rep.room (dataEnd_lt db), fits.lastSsdLba, start, last, fits.mapLba,
    lt_of_le_of_lt rep.count_le (by decide), fits.mapSectors⟩

theorem keptHeader_placed (rep : Represents db cells log) (modelStartLba modelLastLba : Nat) :
    Placed db (keptHeader db (cells db) log modelStartLba modelLastLba) :=
  Placed.withLog (placed_setModel rep.header.placed modelStartLba modelLastLba) log

theorem represents_kept (rep : Represents db cells log) (start : modelStartLba < WORD)
    (last : modelLastLba < WORD) :
    Represents db (applyWrites (keepWrites db cells log modelStartLba modelLastLba) cells) log ∧
      InStep db (applyWrites (keepWrites db cells log modelStartLba modelLastLba) cells) log := by
  have fits := keptHeader_encodable rep start last
  have counted := represents_count rep rep.entries rep.count_le rep.room
  refine ⟨represents_header counted fits (keptHeader_placed rep modelStartLba modelLastLba), ?_⟩
  rw [InStep, keepWrites, applyWrites_cons, applyWrites_cons, applyWrites_nil, update_self,
    headerFields_headerSector _ fits]
  simp only [keptHeader, withLog]

section
variable {faults : Faults} {db capacity : Nat} {log : List (List UInt8)} {world : Disk}
variable (opens : Opens db capacity world) (rep : Represents db world.cells log)
include opens rep

theorem run_ensurePreserved_kept (modelStartLba modelLastLba : Nat) (reopens : Reopens db (world.cells db))
    (works : ∀ i < log.length + 3, faults.reads (world.reads + i) = false) (writes : faults.WritesWork) :
    run faults (ensurePreserved db (db + 1) (dataLba db) (db + MEMORY_DB_TOTAL_SECTORS) modelStartLba
      modelLastLba) world = (.ok true, register db
      ((world.tick (log.length + 3)).store (keepWrites db world.cells log modelStartLba modelLastLba))) := by
  have kept : Represents db (world.tick 1).cells log := rep
  have existing := run_ensureExisting_kept kept modelStartLba modelLastLba reopens (reads_next works)
  simp only [World.tick_cells] at existing
  have registered : (register db (((world.tick 1).tick (log.length + 2)).store
      [(db + 1, mapHeaderSector log.length)])).statics = ⟨some capacity, some db⟩ := register_statics opens
  rw [ensurePreserved, run_bind, run_attempt, readSector, run_readBlock_ok (works 0 (by omega))]
  simp only
  rw [existing, memoryDbWriteMapHeader, run_bind_ok (run_writeBlock_ok (writes _) _ _),
    run_bind_ok (run_registerState _ _ _), run_bind,
    run_writeHeader faults registered (keptHeader_placed rep modelStartLba modelLastLba),
    run_writeBlock_ok (writes _)]
  simp [keepWrites, register, World.store, World.tick, Nat.add_assoc, Nat.add_comm 1]

omit opens in
theorem run_ensurePreserved_lost (modelStartLba modelLastLba : Nat)
    (rejected : ¬(Reopens db (world.cells db) ∧ ∀ i < log.length + 3, faults.reads (world.reads + i) = false)) :
    ∃ ticks, 0 < ticks ∧ run faults (ensurePreserved db (db + 1) (dataLba db) (db + MEMORY_DB_TOTAL_SECTORS)
      modelStartLba modelLastLba) world = (.ok false, world.tick ticks) := by
  rw [ensurePreserved, run_bind, run_attempt, readSector, run_readBlock]
  cases answered : faults.reads world.reads with
  | true => exact ⟨1, by omega, rfl⟩
  | false =>
    simp only [Bool.false_eq_true, if_false]
    have kept : Represents db (world.tick 1).cells log := rep
    by_cases reopens : Reopens db (world.cells db)
    · have failing : ∃ k, k < log.length + 2 ∧ faults.reads ((world.tick 1).reads + k) = true := by
        by_contra none
        refine rejected ⟨reopens, fun i inside => ?_⟩
        cases i with
        | zero => exact answered
        | succ i =>
          have next := not_exists.mp none i
          simpa [show i < log.length + 2 by omega, Nat.add_assoc, Nat.add_comm 1 i] using next
      have least := Nat.find_spec failing
      have earlier : ∀ i < Nat.find failing, faults.reads ((world.tick 1).reads + i) = false := by
        intro i before
        have notYet := Nat.find_min failing before
        have inside : i < log.length + 2 := lt_trans before least.1
        simpa [inside] using notYet
      have refused := run_ensureExisting_refused kept modelStartLba modelLastLba reopens least.1 earlier least.2
      simp only [World.tick_cells] at refused
      exact ⟨1 + (Nat.find failing + 1), by omega, by rw [refused, World.tick_tick]⟩
    · obtain ⟨ticks, refused⟩ := run_ensureExisting_rejected faults db modelStartLba modelLastLba (world.cells db)
        (world.tick 1) (mt (headerAccepted_iff rep).mp reopens)
      exact ⟨1 + ticks, by omega, by rw [refused, World.tick_tick]⟩

variable (site : Site db capacity)
include site

theorem run_ensure_kept (modelStartLba modelLastLba : Nat) (reopens : Reopens db (world.cells db))
    (works : ∀ i < log.length + 3, faults.reads (world.reads + i) = false) (writes : faults.WritesWork) :
    run faults (ensureMemoryDb db modelStartLba modelLastLba) world = (.ok (), register db
      ((world.tick (log.length + 3)).store (keepWrites db world.cells log modelStartLba modelLastLba))) := by
  rw [run_ensure faults site opens.ssd,
    run_bind_ok (run_ensurePreserved_kept opens rep modelStartLba modelLastLba reopens works writes)]
  rfl

theorem run_ensure_reformats (modelStartLba modelLastLba : Nat)
    (rejected : ¬(Reopens db (world.cells db) ∧ ∀ i < log.length + 3, faults.reads (world.reads + i) = false)) :
    ∃ ticks, 0 < ticks ∧ run faults (ensureMemoryDb db modelStartLba modelLastLba) world =
      run faults (ensureFresh db (db + 1) (dataLba db) capacity modelStartLba modelLastLba)
        (world.tick ticks) := by
  obtain ⟨ticks, some, lost⟩ := run_ensurePreserved_lost rep modelStartLba modelLastLba rejected
  exact ⟨ticks, some, by rw [run_ensure faults site opens.ssd, run_bind_ok lost]; rfl⟩

end

/-! Erasing. -/

def erasedHeader (db capacity : Nat) (state : MemoryDbHeader) : MemoryDbHeader :=
  freshHeader db (db + 1) (dataLba db) capacity state.modelStartLba state.modelLastLba

def eraseWrites (db capacity : Nat) (state : MemoryDbHeader) : List (Nat × Sector) :=
  place db (List.replicate MEMORY_DB_TOTAL_SECTORS zeros) ++
    [(db + 1, mapHeaderSector 0), (db, headerSector (erasedHeader db capacity state))]

theorem run_writeAll_headers (faults : Faults) {count : Nat}
    (statics : world.statics = ⟨some capacity, some db⟩) (placed : Placed db state)
    (writes : List (Nat × Sector)) : run faults (do
      writeAll writes
      memoryDbWriteMapHeader (db + 1) count
      memoryDbWriteHeader state) world =
    run faults (writeAll (writes ++ [(db + 1, mapHeaderSector count), (db, headerSector state)])) world := by
  rw [writeAll_append]
  simp only [writeAll, memoryDbWriteMapHeader, bind_pure_unit]
  rcases run_writeAll_cases faults writes world with ⟨_, ran⟩ | ⟨k, _, _, ran⟩
  · rw [run_bind_ok ran, run_bind_ok ran]
    cases refused : faults.writes (world.store writes).issued.length with
    | true =>
      rw [run_bind_error (run_writeBlock_error refused _ _), run_bind_error (run_writeBlock_error refused _ _)]
    | false =>
      rw [run_bind_ok (run_writeBlock_ok refused _ _), run_bind_ok (run_writeBlock_ok refused _ _)]
      exact run_writeHeader faults statics placed
  · rw [run_bind_error ran, run_bind_error ran]

theorem run_erase (faults : Faults) (site : Site db capacity)
    (statics : world.statics = ⟨some capacity, some db⟩) (decoded : decodeHeader (world.cells db) = .ok state)
    (placed : Placed db state) (answered : faults.reads world.reads = false) :
    run faults eraseMemoryDb world = run faults (writeAll (eraseWrites db capacity state)) (world.tick 1) := by
  have added : checkedAdd db MEMORY_DB_TOTAL_SECTORS = some (db + MEMORY_DB_TOTAL_SECTORS) :=
    if_pos site.region
  have inside : ¬db + MEMORY_DB_TOTAL_SECTORS > capacity := Nat.not_lt.mpr site.fits
  have read : run faults (memoryDbReadHeader db) world = (.ok state, world.tick 1) := by
    rw [memoryDbReadHeader, readSector, run_bind_ok (run_readBlock_ok answered db), decoded]
    rfl
  rw [eraseMemoryDb, run_bind_ok (run_getStatics faults world), statics]
  rw [run_bind_ok read]
  simp only [placed.headerLba, placed.mapLba, placed.mapSectors, placed.totalSectors, placed.dataLba,
    satAdd_map db site.region, ne_eq, not_true_eq_false, or_self, if_false, added, inside, eraseChunks_eq,
    Nat.add_sub_cancel_left]
  have fresh : Placed db (erasedHeader db capacity state) := freshHeader_placed
  have kept : (world.tick 1).statics = ⟨some capacity, some db⟩ := statics
  rw [eraseWrites, ← run_writeAll_headers faults kept fresh]
  rfl

theorem run_erase_cases (faults : Faults) (site : Site db capacity)
    (statics : world.statics = ⟨some capacity, some db⟩) (headerOk : HeaderOk db (world.cells db)) :
    run faults eraseMemoryDb world = (.error (), world.tick 1) ∨
      ∃ state, decodeHeader (world.cells db) = .ok state ∧ Placed db state ∧
        run faults eraseMemoryDb world =
          run faults (writeAll (eraseWrites db capacity state)) (world.tick 1) := by
  obtain ⟨next, start⟩ : ∃ next : MemoryDbHeader → Driver Unit,
      run faults eraseMemoryDb world = run faults (memoryDbReadHeader db >>= next) world :=
    ⟨_, by rw [eraseMemoryDb, run_bind_ok (run_getStatics faults world), statics]⟩
  cases answered : faults.reads world.reads with
  | true =>
    left
    rw [start, memoryDbReadHeader, readSector, bind_assoc, run_bind_error (run_readBlock_error answered db)]
  | false =>
    cases decoded : decodeHeader (world.cells db) with
    | error _ =>
      left
      rw [start, memoryDbReadHeader, readSector, bind_assoc, run_bind_ok (run_readBlock_ok answered db), decoded]
      rfl
    | ok state =>
      have placed := headerOk state decoded
      exact .inr ⟨state, rfl, placed, run_erase faults site statics decoded placed answered⟩

theorem erase_ok {faults : Faults} {after : Disk} (site : Site db capacity)
    (statics : world.statics = ⟨some capacity, some db⟩) (headerOk : HeaderOk db (world.cells db))
    (erased : run faults eraseMemoryDb world = (.ok (), after)) :
    ∃ state, decodeHeader (world.cells db) = .ok state ∧
      after = (world.tick 1).store (eraseWrites db capacity state) := by
  rcases run_erase_cases faults site statics headerOk with stopped | ⟨state, decoded, _, wrote⟩
  · rw [stopped] at erased
    cases erased
  · exact ⟨state, decoded, run_writeAll_inv (wrote.symm.trans erased)⟩

theorem represents_erased (site : Site db capacity) (start : state.modelStartLba < WORD)
    (last : state.modelLastLba < WORD) (cells : Nat → Sector) :
    Represents db (applyWrites (eraseWrites db capacity state) cells) [] ∧
      InStep db (applyWrites (eraseWrites db capacity state) cells) [] :=
  represents_fresh site start last cells rfl

theorem erased_zero (db capacity : Nat) (state : MemoryDbHeader) (cells : Nat → Sector) (lba : Nat)
    (low : db + 2 ≤ lba) (high : lba < db + MEMORY_DB_TOTAL_SECTORS) :
    applyWrites (eraseWrites db capacity state) cells lba = zeros := by
  rw [eraseWrites, applyWrites_append, applyWrites_cons, applyWrites_cons, applyWrites_nil,
    update_of_ne (by omega), update_of_ne (by omega)]
  obtain ⟨i, rfl⟩ := Nat.exists_eq_add_of_le (show db ≤ lba by omega)
  rw [applyWrites_place_inside _ _ _ _ (by rw [List.length_replicate]; omega), List.getElem_replicate]

theorem erased_outside (db capacity : Nat) (state : MemoryDbHeader) (cells : Nat → Sector) (lba : Nat)
    (outside : db + MEMORY_DB_TOTAL_SECTORS ≤ lba) :
    applyWrites (eraseWrites db capacity state) cells lba = cells lba := by
  have room := dataLba_lt db
  simp only [dataLba] at room
  rw [eraseWrites, applyWrites_append, applyWrites_cons, applyWrites_cons, applyWrites_nil,
    update_of_ne (by omega), update_of_ne (by omega)]
  exact applyWrites_place_outside _ _ _ _ (by rw [List.length_replicate]; omega)

end HermitLocal.Ahci.Format
