import HermitLocal.Ahci.Recovery
import Mathlib.Order.Bounds.Basic

/-! The map on any disk content. Its entries form an array apart from the map header, each record is read back as it was
written, and recovery finds the longest run of entries that follow one another. -/

namespace HermitLocal.Ahci.EntryMap
open Lib.Wire Lib.BlockProgram Lib.BlockProgram.Program Function
open Ahci.Layout Ahci.MemoryDb Ahci.Log Ahci.Recovery

structure Encodable (entry : MemoryDbMapEntry) : Prop where
  startLba : entry.startLba < WORD
  payloadBytes : entry.payloadBytes < 2 ^ 32
  flags : entry.flags < 2 ^ 32

def EntrySector (mapLba lba : Nat) : Prop := mapLba < lba ∧ lba < mapLba + MEMORY_DB_MAP_SECTORS

section Codecs
variable {mapLba index other : Nat} {faults : Faults} {world : Disk} {entry : MemoryDbMapEntry}

theorem run_writeMapEntry (inside : index < memoryDbMapEntryCapacity) (read : faults.reads world.reads = false)
    (written : faults.writes world.issued.length = false) :
    run faults (memoryDbWriteMapEntry mapLba index entry) world =
      (.ok (), (world.tick 1).store [(satAdd mapLba (index / 32 + 1),
        patchMapEntry (world.cells (satAdd mapLba (index / 32 + 1))) (index % 32 * 16) entry)]) := by
  simp only [memoryDbWriteMapEntry, memoryDbMapEntryLocation_ok index inside, lift_ok, pure_bind, readSector]
  rw [run_bind_ok (run_readBlock_ok read _)]
  have answered : faults.writes (world.tick 1).issued.length = false := written
  exact run_writeBlock_ok answered _ _

theorem run_readBack {Record : Type} (read : faults.reads world.reads = false) (lba : Nat) (sector : Sector)
    (decode : Sector → Except Unit Record) :
    (run faults (readSector lba >>= fun found => lift (decode found)) (world.store [(lba, sector)])).1 = decode sector := by
  have answered : faults.reads (world.store [(lba, sector)]).reads = false := read
  rw [readSector, run_bind_ok (run_readBlock_ok answered _), World.store_cells, applyWrites_cons, applyWrites_nil,
    update_self]
  rfl

variable (addressed : mapLba + MEMORY_DB_MAP_SECTORS ≤ WORD)
include addressed

theorem satAdd_sector (inside : index < memoryDbMapEntryCapacity) :
    satAdd mapLba (index / 32 + 1) = mapLba + (index / 32 + 1) := by
  have bound : index < 992 := inside
  apply satAdd_eq
  simp only [MEMORY_DB_MAP_SECTORS] at addressed
  omega

theorem entryAt_written (fits : Encodable entry) (inside : index < memoryDbMapEntryCapacity)
    (otherInside : other < memoryDbMapEntryCapacity) (cells : Nat → Sector) :
    entryAt (update cells (satAdd mapLba (index / 32 + 1))
      (patchMapEntry (cells (satAdd mapLba (index / 32 + 1))) (index % 32 * 16) entry)) mapLba other =
      if other = index then entry else entryAt cells mapLba other := by
  unfold entryAt
  rw [satAdd_sector addressed inside, satAdd_sector addressed otherInside]
  by_cases sector : other / 32 = index / 32
  · rw [sector, update_self]
    split
    next same =>
      rw [same]
      exact decodeMapEntry_patch_same _ _ _ (by simp only [SECTOR_SIZE]; omega) fits.startLba fits.payloadBytes fits.flags
    next apart => exact decodeMapEntry_patch_apart _ _ _ _ (by omega)
  · rw [update_of_ne (by omega), if_neg (by rintro rfl; exact sector rfl)]

theorem accesses_inside (index : Nat) (entry : MemoryDbMapEntry) :
    (memoryDbReadMapEntry mapLba index).Within (EntrySector mapLba) ∧
      (memoryDbWriteMapEntry mapLba index entry).Within (EntrySector mapLba) := by
  unfold memoryDbReadMapEntry memoryDbWriteMapEntry
  by_cases inside : index < memoryDbMapEntryCapacity
  · have bound : index < 992 := inside
    have sector : EntrySector mapLba (satAdd mapLba (index / 32 + 1)) := by
      rw [satAdd_sector addressed inside, EntrySector, MEMORY_DB_MAP_SECTORS]
      omega
    rw [memoryDbMapEntryLocation_ok index inside]
    constructor
    · exact ⟨sector, fun reply => by cases reply <;> trivial⟩
    · refine ⟨sector, fun reply => ?_⟩
      cases reply with
      | none => trivial
      | some block => exact ⟨sector, fun reply => by cases reply <;> trivial⟩
  · have refused : memoryDbMapEntryLocation index = .error () := if_pos (Nat.not_lt.mp inside)
    rw [refused]
    exact ⟨trivial, trivial⟩

end Codecs

theorem decodeMapHeader_overfull {used : Nat} (small : used < WORD) (beyond : memoryDbMapEntryCapacity < used) :
    decodeMapHeader (mapHeaderSector used) = .error () := by
  have count : leU64 (mapHeaderSector used) 16 = used := by
    rw [leU64, mapHeaderSector, writeLeU64, field_setField_same _ _ _ _ (by decide)]
    exact Nat.mod_eq_of_lt small
  cases decoded : decodeMapHeader (mapHeaderSector used) with
  | error error => rfl
  | ok fields =>
    unfold decodeMapHeader at decoded
    split_ifs at decoded
    omega

/-- What the codecs do on a disk that answers, and which sectors they touch. -/
theorem map_codecs_exact {mapLba : Nat} (addressed : mapLba + MEMORY_DB_MAP_SECTORS ≤ WORD) (faults : Faults) (world : Disk)
    (read : faults.reads world.reads = false) (again : faults.reads (world.reads + 1) = false)
    (written : faults.writes world.issued.length = false) :
    (∀ i < memoryDbMapEntryCapacity, ∀ j < memoryDbMapEntryCapacity, ∀ entry, Encodable entry → ∃ after,
      run faults (memoryDbWriteMapEntry mapLba i entry) world = (.ok (), after) ∧
        (run faults (memoryDbReadMapEntry mapLba j) after).1 =
          if j = i then .ok entry else (run faults (memoryDbReadMapEntry mapLba j) world).1) ∧
    (∀ i entry, (memoryDbReadMapEntry mapLba i).Within (EntrySector mapLba) ∧
      (memoryDbWriteMapEntry mapLba i entry).Within (EntrySector mapLba)) ∧
    (∀ state : MemoryDbHeader, state.Encodable → world.statics.memoryDbHeaderLba = some state.headerLba → ∃ after,
      run faults (memoryDbWriteHeader state) world = (.ok (), after) ∧
        (run faults (memoryDbReadHeader state.headerLba) after).1 = .ok state) ∧
    ∀ used < WORD, ∃ after, run faults (memoryDbWriteMapHeader mapLba used) world = (.ok (), after) ∧
      (run faults (memoryDbReadMapHeader mapLba) after).1 =
        if used ≤ memoryDbMapEntryCapacity then .ok (MEMORY_DB_MAP_ENTRY_SIZE, used) else .error () := by
  refine ⟨?_, accesses_inside addressed, ?_, ?_⟩
  · intro i inside j otherInside entry fits
    refine ⟨_, run_writeMapEntry inside read written, ?_⟩
    rw [run_readMapEntry faults mapLba _ otherInside, run_readMapEntry faults mapLba world otherInside]
    simp only [World.store_reads, World.tick_reads, again, read, World.store_cells, World.tick_cells, applyWrites_cons,
      applyWrites_nil, entryAt_written addressed fits inside otherInside, Bool.false_eq_true, if_false]
    split <;> rfl
  · intro state fits registered
    have wrote : run faults (memoryDbWriteHeader state) world =
        (.ok (), world.store [(state.headerLba, headerSector state)]) := by
      rw [memoryDbWriteHeader, run_bind_ok (run_getStatics faults world), registered]
      dsimp only
      rw [if_neg (by simp)]
      exact run_writeBlock_ok written _ _
    refine ⟨_, wrote, ?_⟩
    exact (run_readBack read _ _ decodeHeader).trans (decodeHeader_headerSector state fits)
  · intro used small
    refine ⟨_, run_writeBlock_ok written _ _, (run_readBack read _ _ decodeMapHeader).trans ?_⟩
    split
    next bound => exact decodeMapHeader_mapHeaderSector used bound
    next beyond => exact decodeMapHeader_overfull small (Nat.not_le.mp beyond)

theorem written_entry_read : 1 + MEMORY_DB_MAP_SECTORS ≤ WORD ∧ ∃ after : Disk,
    run Faults.none (memoryDbWriteMapEntry 1 33 ⟨5, 6, 1⟩) ⟨fun _ => zeros, 0, [], none, none⟩ = (.ok (), after) ∧
      (run Faults.none (memoryDbReadMapEntry 1 33) after).1 = .ok ⟨5, 6, 1⟩ := by
  have addressed : 1 + MEMORY_DB_MAP_SECTORS ≤ WORD := by decide
  exact ⟨addressed, (map_codecs_exact addressed Faults.none _ rfl rfl rfl).1 33 (by decide) 33 (by decide) ⟨5, 6, 1⟩
    ⟨by decide, by decide, by decide⟩⟩

theorem overfull_refused_last_shared : (∃ after : Disk,
    run Faults.none (memoryDbWriteMapHeader 1 993) ⟨fun _ => zeros, 0, [], none, none⟩ = (.ok (), after) ∧
      (run Faults.none (memoryDbReadMapHeader 1) after).1 = .error ()) ∧
    ¬ (memoryDbReadMapEntry (WORD - 1) 0).Within fun lba => lba ≠ WORD - 1 := by
  constructor
  · exact ⟨_, run_writeBlock_ok rfl _ _, (run_readBack rfl _ _ decodeMapHeader).trans
      (decodeMapHeader_overfull (by decide) (by decide))⟩
  · exact fun elsewhere => elsewhere.1 rfl

/-! Recovery. -/

section Recovery
variable (cells : Nat → Sector) (state : MemoryDbHeader)

def endBefore : Nat → Nat
  | 0 => state.dataLba
  | index + 1 => (entryAt cells state.mapLba index).startLba +
      sectorsForBytes (entryAt cells state.mapLba index).payloadBytes

structure Follows (index : Nat) : Prop where
  active : isActive (entryAt cells state.mapLba index) = true
  nonempty : (entryAt cells state.mapLba index).payloadBytes ≠ 0
  start : (entryAt cells state.mapLba index).startLba = endBefore cells state index
  within : endBefore cells state (index + 1) ≤ state.dataLba + state.totalSectors

structure Recovers (result : MemoryDbHeader) : Prop where
  longest : ∃ entrySize used, decodeMapHeader (cells state.mapLba) = .ok (entrySize, used) ∧
    IsGreatest {k | k ≤ used ∧ ∀ i < k, Follows cells state i} result.mapEntriesUsed
  result : result = { state with
    nextAppendLba := endBefore cells state result.mapEntriesUsed, mapEntriesUsed := result.mapEntriesUsed }

variable {cells state}

theorem Recovers.follows {result : MemoryDbHeader} (recovers : Recovers cells state result) :
    ∀ i < result.mapEntriesUsed, Follows cells state i := by
  obtain ⟨entrySize, used, -, greatest⟩ := recovers.longest
  exact greatest.1.2

theorem Recovers.same {first second : MemoryDbHeader} (one : Recovers cells state first)
    (two : Recovers cells state second) : first = second := by
  obtain ⟨entrySize, used, decoded, greatest⟩ := one.longest
  obtain ⟨otherSize, otherUsed, otherDecoded, otherGreatest⟩ := two.longest
  rw [decoded] at otherDecoded
  cases otherDecoded
  rw [one.result, two.result, greatest.unique otherGreatest]

theorem Recovers.original {next used : Nat} {result : MemoryDbHeader}
    (recovers : Recovers cells { state with nextAppendLba := next, mapEntriesUsed := used } result) :
    Recovers cells state result := by
  have same (i : Nat) : Follows cells { state with nextAppendLba := next, mapEntriesUsed := used } i ↔
      Follows cells state i := by
    constructor <;>
      exact fun follows => { follows with }
  have longest := recovers.longest
  simp only [same] at longest
  exact ⟨longest, recovers.result⟩

theorem ordered {count : Nat} (follows : ∀ i < count, Follows cells state i) {i j : Nat} (before : i < j)
    (inside : j < count) : endBefore cells state (i + 1) ≤ (entryAt cells state.mapLba j).startLba := by
  induction j, before using Nat.le_induction with
  | base => exact (follows (i + 1) inside).start.ge
  | succ j later ih =>
    rw [(follows (j + 1) inside).start]
    exact (ih (by omega)).trans (Nat.le_add_right _ _)

theorem endBefore_ge {count : Nat} (follows : ∀ i < count, Follows cells state i) :
    state.dataLba ≤ endBefore cells state count := by
  induction count with
  | zero => exact le_rfl
  | succ count ih =>
    have earlier := ih fun i inside => follows i (by omega)
    rw [endBefore, (follows count (by omega)).start]
    exact earlier.trans (Nat.le_add_right _ _)

theorem run_recoverEntries {faults : Faults} {world after : Disk} {index left last count : Nat}
    (inside : index + left ≤ memoryDbMapEntryCapacity) (earlier : ∀ i < index, Follows world.cells state i)
    (reached : endBefore world.cells state index ≤ satAdd state.dataLba state.totalSectors)
    (ran : run faults (recoverEntries state.mapLba (satAdd state.dataLba state.totalSectors) left
      (endBefore world.cells state index) index) world = (.ok (last, count), after)) :
    count ≤ index + left ∧ (∀ i < count, Follows world.cells state i) ∧ last = endBefore world.cells state count ∧
      last ≤ satAdd state.dataLba state.totalSectors ∧
      (count < index + left → ¬ Follows world.cells state count) := by
  induction left generalizing index world with
  | zero =>
    cases ran
    exact ⟨le_rfl, earlier, rfl, reached, fun below => absurd below (Nat.lt_irrefl _)⟩
  | succ left ih =>
    have read := run_readMapEntry faults state.mapLba world (by omega : index < memoryDbMapEntryCapacity)
    rw [recoverEntries] at ran
    cases refused : faults.reads world.reads with
    | true =>
      rw [refused, if_pos rfl] at read
      rw [run_bind_error read] at ran
      cases ran
    | false =>
      rw [refused, if_neg (by decide)] at read
      rw [run_bind_ok read] at ran
      have stop (apart : ¬ Follows world.cells state index)
          (stopped : run faults (pure (endBefore world.cells state index, index)) (world.tick 1) =
            (.ok (last, count), after)) : count ≤ index + (left + 1) ∧ (∀ i < count, Follows world.cells state i) ∧
            last = endBefore world.cells state count ∧ last ≤ satAdd state.dataLba state.totalSectors ∧
            (count < index + (left + 1) → ¬ Follows world.cells state count) := by
        cases stopped
        exact ⟨Nat.le_add_right _ _, earlier, rfl, reached, fun _ => apart⟩
      split at ran
      next unused =>
        refine stop (fun follows => ?_) ran
        simp [follows.active, follows.nonempty] at unused
      next used =>
        split at ran
        · cases ran
        next nextCursor added =>
          obtain ⟨rfl, small⟩ := checkedAdd_eq_some _ _ _ added
          split at ran
          next invalid =>
            refine stop (fun follows => ?_) ran
            have within := follows.within
            have start := follows.start
            rw [endBefore, start] at within
            unfold satAdd at invalid
            omega
          next valid =>
            have start : (entryAt world.cells state.mapLba index).startLba = endBefore world.cells state index := by
              by_contra differs
              exact valid (.inl differs)
            have step : endBefore world.cells state (index + 1) = endBefore world.cells state index +
                sectorsForBytes (entryAt world.cells state.mapLba index).payloadBytes := by
              rw [endBefore, start]
            have follows : Follows world.cells state index := by
              refine ⟨?_, ?_, start, ?_⟩
              · by_contra inactive
                simp [inactive] at used
              · intro empty
                simp [empty] at used
              · rw [step]
                unfold satAdd at valid
                omega
            rw [← step] at ran
            have all : ∀ i < index + 1, Follows (world.tick 1).cells state i := by
              intro i below
              rcases Nat.lt_succ_iff_lt_or_eq.mp below with sooner | rfl
              · exact earlier i sooner
              · exact follows
            have rest := ih (by omega) all (by rw [World.tick_cells, step]; omega) ran
            rwa [Nat.add_right_comm] at rest

theorem run_recoverFromMap (faults : Faults) (world : Disk) (addressed : 0 < state.mapLba)
    (sized : state.mapSectors = MEMORY_DB_MAP_SECTORS) (word : state.dataLba < WORD) :
    ∃ ok result after, run faults (memoryDbRecoverFromMap state) world = (.ok (ok, result), after) ∧
      (ok = true → Recovers world.cells state result) ∧ (ok = false → result = state) := by
  rw [memoryDbRecoverFromMap, if_neg (by simp [addressed.ne', sized])]
  simp only [run_bind, run_attempt]
  rw [memoryDbReadMapHeader, readSector, run_bind, run_readBlock]
  cases refused : faults.reads world.reads with
  | true => exact ⟨false, state, _, rfl, by simp, fun _ => rfl⟩
  | false =>
    cases decoded : decodeMapHeader (world.cells state.mapLba) with
    | error error =>
      simp only [Bool.false_eq_true, if_false, decoded]
      exact ⟨false, state, _, rfl, by simp, fun _ => rfl⟩
    | ok header =>
      obtain ⟨entrySize, used⟩ := header
      have bound := decodeMapHeader_bound _ _ _ decoded
      simp only [Bool.false_eq_true, if_false, decoded, lift_ok, run_pure, Nat.min_eq_left bound]
      rcases scanned : run faults (recoverEntries state.mapLba (satAdd state.dataLba state.totalSectors) used state.dataLba 0)
        (world.tick 1) with ⟨error | ⟨last, count⟩, after⟩
      · exact ⟨false, state, after, rfl, by simp, fun _ => rfl⟩
      · have reached : state.dataLba ≤ satAdd state.dataLba state.totalSectors := by
          unfold satAdd
          omega
        obtain ⟨low, follows, rfl, most, stops⟩ :=
          run_recoverEntries (by omega) (fun i below => absurd below (Nat.not_lt_zero i)) reached scanned
        have greatest : IsGreatest {k | k ≤ used ∧ ∀ i < k, Follows world.cells state i} count := by
          refine ⟨⟨by omega, follows⟩, ?_⟩
          intro k longer
          by_contra above
          have shorter := longer.1
          exact stops (by omega) (longer.2 count (by omega))
        refine ⟨_, _, after, rfl, fun _ => ⟨⟨entrySize, used, decoded, greatest⟩, rfl⟩, fun outside => ?_⟩
        -- the cursor stays within the data, so the last check of the source never fails
        have least := endBefore_ge follows
        rw [decide_eq_false_iff_not] at outside
        exact absurd (by omega) outside

/-- Recovery on any disk: what `Ok` records, and that nothing else changes. -/
theorem recovery_is_longest_run (faults again : Faults) (world : Disk) (state : MemoryDbHeader)
    (addressed : 0 < state.mapLba) (sized : state.mapSectors = MEMORY_DB_MAP_SECTORS) (word : state.dataLba < WORD) :
    ∃ ok result after, run faults (memoryDbRecoverFromMap state) world = (.ok (ok, result), after) ∧
      after.cells = world.cells ∧ (ok = false → result = state) ∧
      (ok = true → Recovers world.cells state result ∧
        (∀ i j, i < j → j < result.mapEntriesUsed →
          endBefore world.cells state (i + 1) ≤ (entryAt world.cells state.mapLba j).startLba) ∧
        ∃ second, (run again (memoryDbRecoverFromMap result) after).1 = .ok (second, result)) := by
  obtain ⟨ok, result, after, ran, success, failure⟩ := run_recoverFromMap faults world addressed sized word
  obtain ⟨count, ticked⟩ := run_readOnly (recover_readOnly state) faults world
  rw [ran] at ticked
  have kept : after.cells = (world.tick count).cells := congrArg World.cells ticked
  refine ⟨ok, result, after, ran, kept, failure, fun succeeded => ?_⟩
  have recovers := success succeeded
  refine ⟨recovers, fun i j => ordered recovers.follows, ?_⟩
  have place : result.mapLba = state.mapLba ∧ result.mapSectors = state.mapSectors ∧ result.dataLba = state.dataLba := by
    rw [recovers.result]
    exact ⟨rfl, rfl, rfl⟩
  obtain ⟨second, last, later, reran, succeeds, fails⟩ := run_recoverFromMap again after (by rwa [place.1])
    (place.2.1.trans sized) (by rwa [place.2.2])
  refine ⟨second, ?_⟩
  rw [reran]
  cases second with
  | false => rw [fails rfl]
  | true =>
    have rerecovers := succeeds rfl
    rw [kept, World.tick_cells, recovers.result] at rerecovers
    rw [recovers.same rerecovers.original]

end Recovery

def oneHeader : MemoryDbHeader := ⟨[], 2, 512, 0, 33, 10, 0, 0, 0, 0, 1, 0, MEMORY_DB_MAP_SECTORS⟩

def oneEntry : Disk where
  cells := update (update (fun _ => zeros) 1 (mapHeaderSector 1)) 2 (patchMapEntry zeros 0 ⟨33, 5, 1⟩)
  reads := 0
  issued := []
  statics := ⟨none, none⟩

theorem one_entry_recovered : ∃ result after,
    run Faults.none (memoryDbRecoverFromMap oneHeader) oneEntry = (.ok (true, result), after) ∧
    result.mapEntriesUsed = 1 ∧ ∃ second, (run Faults.none (memoryDbRecoverFromMap result) after).1 = .ok (second, result) := by
  obtain ⟨ok, result, after, ran, -, -, success⟩ :=
    recovery_is_longest_run Faults.none Faults.none oneEntry oneHeader (by decide) rfl (by decide)
  have outcome : (run Faults.none (memoryDbRecoverFromMap oneHeader) oneEntry).1 =
      .ok (true, ⟨[], 2, 512, 0, 33, 10, 34, 0, 0, 0, 1, 1, MEMORY_DB_MAP_SECTORS⟩) := by
    decide +kernel
  rw [ran] at outcome
  cases outcome
  exact ⟨_, after, ran, rfl, (success rfl).2.2⟩

end HermitLocal.Ahci.EntryMap
