import HermitLocal.Ahci.ModelCache
import HermitLocal.Lib.Align

/-! Loading the cached model at boot. The loader checks the header, opens the memory
database behind the model, and reads the model in chunks of up to 4 MiB into an
allocation that is a multiple of 4 MiB. Returning `false` is the program's failure. -/

namespace HermitLocal.Ahci.ModelLoad
open Lib.Wire Lib.BlockProgram Lib.BlockProgram.Program List
open Ahci.Layout Ahci.MemoryDb Ahci.Format
open Ahci.Confinement Lib.Align Ahci.ModelCache

def probeExtent (lastLba nextFreeLba : Nat) : Driver Unit := do
  let _ ← readSector lastLba
  let statics ← getStatics
  match statics.ssdSectorCount with
  | none => pure ()
  | some capacitySectors =>
    if nextFreeLba < capacitySectors then do
      let _ ← attempt (readSector nextFreeLba)
      pure ()
    else pure ()

def verifyRawModelExtent (dataLba modelSize : Nat) : Driver (Except Unit Unit) := do
  let sectorCount := sectorsForBytes modelSize
  if sectorCount = 0 then fail
  else do
    let lastLba := dataLba + sectorCount - 1
    let nextFreeLba := dataLba + sectorCount
    probeExtent lastLba nextFreeLba
    attempt (ensureMemoryDb nextFreeLba dataLba lastLba)

def openRawModel : Driver (Nat × Except Unit Unit) := do
  let cacheLba := MODEL_FIXED_CACHE_LBA
  let header ← readSector cacheLba
  if slice header 0 8 ≠ MODEL_MAGIC_READY then fail
  else if slice header MODEL_CACHE_TAG_OFFSET MODEL_CACHE_TAG.length ≠ MODEL_CACHE_TAG then fail
  else
    let modelSize := leU64 header 8
    let dataLba := leU64 header 16
    if dataLba ≠ cacheLba + MODEL_HEADER_SECTORS then fail
    else if modelSize = 0 then fail
    else if ¬(MIN_RAW_MODEL_SIZE ≤ modelSize ∧ modelSize ≤ MAX_RAW_MODEL_SIZE) then fail
    else do
      let statics ← getStatics
      if !rawModelRangeFits statics.ssdSectorCount dataLba modelSize then fail
      else do
        let ensured ← verifyRawModelExtent dataLba modelSize
        pure (modelSize, ensured)

def readSectors (lba : Nat) : Nat → Driver (List Sector)
  | 0 => pure []
  | count + 1 => do
      let sector ← readSector lba
      let rest ← readSectors (lba + 1) count
      pure (sector :: rest)

def storeSectors (ram : Ram) (offset : Nat) (sectors : List Sector) : Ram := fun i =>
  if offset ≤ i ∧ i < offset + sectors.length * SECTOR_SIZE then
    byteAt (sectors.getD ((i - offset) / SECTOR_SIZE) zeros) ((i - offset) % SECTOR_SIZE)
  else ram i

structure Placement where
  ram : Ram
  chunks : List (Nat × Nat)

def loadModelChunks (dataLba modelSize offset : Nat) (placed : Placement) : Driver Placement :=
  if _more : offset < modelSize then do
    let sectors := chunkSectors modelSize offset
    let chunk ← readSectors (dataLba + offset / SECTOR_SIZE) sectors
    let ram := storeSectors placed.ram offset chunk
    if offset = 0 ∧ (range 4).map ram ≠ GGUF_MAGIC then fail
    else
      loadModelChunks dataLba modelSize (offset + chunkSectors modelSize offset * SECTOR_SIZE)
        ⟨ram, placed.chunks ++ [(offset, sectors * SECTOR_SIZE)]⟩
  else pure placed
termination_by modelSize - offset
decreasing_by exact chunk_advances _more

def allocSize (modelSize : Nat) : Nat := alignUp modelSize (MODEL_IO_SECTORS * SECTOR_SIZE)

structure Loaded where
  address : Nat
  modelSize : Nat
  placed : Placement

def tryLoadRawModel (modelInfo : Bool) (alloc : Nat → Option Nat) (heap : Ram) : Driver (Option Loaded) :=
  if modelInfo then pure none
  else do
    let opened ← openRawModel
    match alloc (allocSize opened.1) with
    | none => fail
    | some targetBase => do
      let placed ← loadModelChunks (MODEL_FIXED_CACHE_LBA + MODEL_HEADER_SECTORS) opened.1 0 ⟨heap, []⟩
      pure (some ⟨targetBase, opened.1, placed⟩)

/-! What the writer leaves on the disk. -/

structure Cached (cells : Nat → Sector) (model : Ram) (modelSize : Nat) : Prop where
  header : cells MODEL_FIXED_CACHE_LBA = modelHeader MODEL_MAGIC_READY modelSize MODEL_DATA_LBA
  sectors : ∀ i < sectorsForBytes modelSize, cells (MODEL_DATA_LBA + i) = ramSector model (i * SECTOR_SIZE)

theorem cached_protocol (cells : Nat → Sector) (model : Ram) (modelSize : Nat) :
    Cached (applyWrites (protocolWrites model modelSize) cells) model modelSize :=
  ⟨protocol_header model modelSize cells, fun _ inside => protocol_sector model modelSize cells inside⟩

variable {modelSize : Nat}

theorem Cached.below {cells after : Nat → Sector} {model : Ram} (cached : Cached cells model modelSize)
    (kept : ∀ lba < MODEL_DATA_LBA + sectorsForBytes modelSize, after lba = cells lba) :
    Cached after model modelSize := by
  constructor
  · rw [kept _ (Nat.lt_add_right _ (by decide)), cached.header]
  · intro i inside
    rw [kept _ (Nat.add_lt_add_left inside _), cached.sectors i inside]

theorem format_outside {db : Nat} {world after : Disk} (extended : Extends (AllowedFormat db) world after) (lba : Nat)
    (outside : lba < db ∨ db + MEMORY_DB_TOTAL_SECTORS ≤ lba) : after.cells lba = world.cells lba := by
  obtain ⟨new, -, allowed, changed⟩ := extended
  rcases changed lba with same | written
  · exact same
  · obtain ⟨low, high, -⟩ := allowed _ written
    omega

section Writer
variable {faults : Faults} {world : Disk} {model : Ram} {modelSize : Nat}
  (word : ∀ capacity, world.statics.ssdSectorCount = some capacity → capacity < WORD)
include word

theorem ensureBehind_below (lba : Nat) (below : lba < MODEL_DATA_LBA + sectorsForBytes modelSize) :
    (run faults (ensureBehind modelSize) world).2.cells lba = world.cells lba :=
  format_outside (ensureBehind_extends faults word modelSize) lba (.inl below)

theorem cached_written (returned : (run faults (writeRawModelCache model modelSize) world).1 = .ok ()) :
    Cached (run faults (writeRawModelCache model modelSize) world).2.cells model modelSize := by
  rw [writeRawModelCache, run_bind] at returned
  rw [run_writeRawModelCache]
  rcases run_cacheModel faults world model modelSize with ⟨_, _, _, _, after, failed, _⟩ | reached
  · rw [failed] at returned
    cases returned
  · rw [reached, run_attempt]
    have known : ∀ capacity, ((world.store (protocolWrites model modelSize)).tick 1).statics.ssdSectorCount =
        some capacity → capacity < WORD := word
    exact (cached_protocol world.cells model modelSize).below fun lba below => ensureBehind_below known lba below

end Writer

/-! What the loader reads. -/

theorem storeSectors_model (ram model : Ram) (start count i : Nat) : storeSectors ram (start * SECTOR_SIZE)
        ((range count).map fun k => ramSector model ((start + k) * SECTOR_SIZE)) i =
      if start * SECTOR_SIZE ≤ i ∧ i < (start + count) * SECTOR_SIZE then model i else ram i := by
  simp only [storeSectors, length_map, length_range, ← Nat.add_mul]
  split
  next inside =>
    have index : (i - start * SECTOR_SIZE) / SECTOR_SIZE < count := by
      rw [Nat.div_lt_iff_lt_mul (by decide), Nat.sub_lt_iff_lt_add' inside.1, ← Nat.add_mul]
      exact inside.2
    have bound : (i - start * SECTOR_SIZE) % SECTOR_SIZE < SECTOR_SIZE := Nat.mod_lt _ (by decide)
    have place : (start + (i - start * SECTOR_SIZE) / SECTOR_SIZE) * SECTOR_SIZE +
        (i - start * SECTOR_SIZE) % SECTOR_SIZE = i := by
      rw [Nat.add_mul, Nat.add_assoc, Nat.div_add_mod', Nat.add_sub_cancel' inside.1]
    rw [getD_eq_getElem?_getD, getElem?_map, getElem?_range index, Option.map_some, Option.getD_some,
      byteAt, dif_pos bound, ramSector, place]
  · rfl

structure Loading (model : Ram) (modelSize start : Nat) (placed : Placement) : Prop where
  aligned : MODEL_IO_SECTORS ∣ start ∨ modelSize ≤ start * SECTOR_SIZE
  front : ∀ i < start * SECTOR_SIZE, i < modelSize → placed.ram i = model i
  inside : ∀ chunk ∈ placed.chunks, chunk.1 + chunk.2 ≤ allocSize modelSize

variable {start : Nat}

theorem chunk_bounds (aligned : MODEL_IO_SECTORS ∣ start ∨ modelSize ≤ start * SECTOR_SIZE)
    (more : start * SECTOR_SIZE < modelSize) :
    (MODEL_IO_SECTORS ∣ start + chunkSectors modelSize (start * SECTOR_SIZE) ∨
      modelSize ≤ (start + chunkSectors modelSize (start * SECTOR_SIZE)) * SECTOR_SIZE) ∧
      start * SECTOR_SIZE + chunkSectors modelSize (start * SECTOR_SIZE) * SECTOR_SIZE ≤ allocSize modelSize ∧
      start + chunkSectors modelSize (start * SECTOR_SIZE) ≤ sectorsForBytes modelSize := by
  simp only [chunkSectors_eq, sectorsForBytes, allocSize, alignUp, MODEL_IO_SECTORS, SECTOR_SIZE] at aligned more ⊢
  omega

def modelChunk (model : Ram) (modelSize start : Nat) : List Sector :=
  (range (chunkSectors modelSize (start * SECTOR_SIZE))).map fun k => ramSector model ((start + k) * SECTOR_SIZE)

theorem loading_next {model : Ram} {placed : Placement}
    (loading : Loading model modelSize start placed) (more : start * SECTOR_SIZE < modelSize) :
    Loading model modelSize (start + chunkSectors modelSize (start * SECTOR_SIZE))
      ⟨storeSectors placed.ram (start * SECTOR_SIZE) (modelChunk model modelSize start),
        placed.chunks ++ [(start * SECTOR_SIZE, chunkSectors modelSize (start * SECTOR_SIZE) * SECTOR_SIZE)]⟩ := by
  obtain ⟨aligned, bound, -⟩ := chunk_bounds loading.aligned more
  refine ⟨aligned, ?_, ?_⟩
  · intro i low small
    dsimp only
    rw [modelChunk, storeSectors_model]
    split
    · rfl
    next outside => exact loading.front i (by omega) small
  · intro chunk member
    rcases mem_append.mp member with earlier | last
    · exact loading.inside chunk earlier
    · rw [mem_singleton.mp last]
      exact bound

section Loader
variable {faults : Faults} (reads : faults.ReadsWork)
include reads

theorem run_readSectors (lba count : Nat) (world : Disk) : run faults (readSectors lba count) world =
      (.ok ((range count).map fun i => world.cells (lba + i)), world.tick count) := by
  induction count generalizing lba world with
  | zero => rfl
  | succ count ih =>
    have shift : (fun i => world.cells (lba + 1 + i)) = (fun i => world.cells (lba + i)) ∘ Nat.succ := by
      funext i
      rw [Function.comp_apply, Nat.add_right_comm, Nat.add_assoc]
    rw [readSectors, readSector, run_bind_ok (run_readBlock_ok (reads _) lba), run_bind_ok (ih (lba + 1) (world.tick 1)),
      run_pure, World.tick_tick, World.tick_cells, Nat.add_comm 1 count, range_succ_eq_map, map_cons, map_map,
      shift]
    rfl

theorem run_probeExtent (lastLba nextFreeLba : Nat) (world : Disk) :
    ∃ ticks, run faults (probeExtent lastLba nextFreeLba) world = (.ok (), world.tick ticks) := by
  rw [probeExtent, readSector, run_bind_ok (run_readBlock_ok (reads _) lastLba), run_bind_ok (run_getStatics _ _)]
  cases (world.tick 1).statics.ssdSectorCount with
  | none => exact ⟨1, rfl⟩
  | some capacity =>
    dsimp only
    split
    · refine ⟨1 + 1, ?_⟩
      rw [run_bind, run_attempt, readSector, run_readBlock_ok (reads _) nextFreeLba]
      rfl
    · exact ⟨1, rfl⟩

variable {world : Disk} {model : Ram} {modelSize capacity : Nat}

theorem run_openRawModel (word : capacity < WORD) (ssd : world.statics.ssdSectorCount = some capacity)
    (header : world.cells MODEL_FIXED_CACHE_LBA = modelHeader MODEL_MAGIC_READY modelSize MODEL_DATA_LBA)
    (large : MIN_RAW_MODEL_SIZE ≤ modelSize) (small : modelSize ≤ MAX_RAW_MODEL_SIZE)
    (fits : MODEL_DATA_LBA + sectorsForBytes modelSize ≤ capacity) : ∃ ticks, run faults openRawModel world =
      (.ok (modelSize, (run faults (ensureBehind modelSize) (world.tick ticks)).1),
        (run faults (ensureBehind modelSize) (world.tick ticks)).2) := by
  have sized : modelSize < WORD := lt_of_le_of_lt small (by decide)
  have fields := modelHeader_fields MODEL_MAGIC_READY sized (show MODEL_DATA_LBA < WORD by decide)
  have ready := modelHeader_slices MODEL_MAGIC_READY rfl modelSize MODEL_DATA_LBA
  have tag : MODEL_CACHE_TAG.length = 8 := rfl
  have same : MODEL_DATA_LBA = MODEL_FIXED_CACHE_LBA + MODEL_HEADER_SECTORS := rfl
  have positive : modelSize ≠ 0 := by
    intro zero
    rw [zero] at large
    cases large
  have range : rawModelRangeFits world.statics.ssdSectorCount MODEL_DATA_LBA modelSize = true := by
    have sum : checkedAdd MODEL_DATA_LBA (sectorsForBytes modelSize) =
        some (MODEL_DATA_LBA + sectorsForBytes modelSize) := if_pos (by omega)
    simp [rawModelRangeFits, ssd, sum, fits]
  have count : sectorsForBytes modelSize ≠ 0 := by
    simp only [sectorsForBytes, SECTOR_SIZE]
    omega
  have last : MODEL_DATA_LBA + sectorsForBytes modelSize - 1 = MODEL_DATA_LBA + (sectorsForBytes modelSize - 1) := by
    omega
  obtain ⟨ticks, probed⟩ := run_probeExtent reads (MODEL_DATA_LBA + sectorsForBytes modelSize - 1)
    (MODEL_DATA_LBA + sectorsForBytes modelSize) (world.tick 1)
  rw [World.tick_tick] at probed
  have verified : run faults (verifyRawModelExtent MODEL_DATA_LBA modelSize) (world.tick 1) =
      (.ok (run faults (ensureBehind modelSize) (world.tick (1 + ticks))).1,
        (run faults (ensureBehind modelSize) (world.tick (1 + ticks))).2) := by
    rw [verifyRawModelExtent, if_neg count, run_bind_ok probed, run_attempt, last]
    rfl
  refine ⟨1 + ticks, ?_⟩
  rw [openRawModel, readSector, run_bind_ok (run_readBlock_ok (reads _) MODEL_FIXED_CACHE_LBA), header]
  simp only [ready.1, ready.2, tag, fields.1, fields.2, positive, large, small, ne_eq, not_true_eq_false, and_self,
    if_false]
  rw [if_neg (not_not.mpr same), run_bind_ok (run_getStatics _ _), World.tick_statics, range]
  simp only [Bool.not_true, Bool.false_eq_true, if_false]
  rw [run_bind_ok verified, run_pure]

theorem run_loadModelChunks (gguf : (range 4).map model = GGUF_MAGIC)
    (sectors : ∀ i < sectorsForBytes modelSize, world.cells (MODEL_DATA_LBA + i) = ramSector model (i * SECTOR_SIZE))
    {placed : Placement} (loading : Loading model modelSize start placed) :
    ∃ result ticks,
      run faults (loadModelChunks MODEL_DATA_LBA modelSize (start * SECTOR_SIZE) placed) world =
        (.ok result, world.tick ticks) ∧
      (∀ i < modelSize, result.ram i = model i) ∧ ∀ chunk ∈ result.chunks, chunk.1 + chunk.2 ≤ allocSize modelSize := by
  induction left : modelSize - start * SECTOR_SIZE using Nat.strong_induction_on generalizing start placed world with
  | _ left ih =>
  subst left
  rw [loadModelChunks]
  split
  next more =>
    have next := loading_next loading more
    have smaller := chunk_advances more
    have here : start * SECTOR_SIZE / SECTOR_SIZE = start := Nat.mul_div_cancel _ (by decide)
    have chunk : ((range (chunkSectors modelSize (start * SECTOR_SIZE))).map fun i =>
        world.cells (MODEL_DATA_LBA + start + i)) = modelChunk model modelSize start := by
      apply map_congr_left
      intro k member
      have low := mem_range.mp member
      have total := (chunk_bounds loading.aligned more).2.2
      rw [Nat.add_assoc, sectors (start + k) (by omega)]
    have magic : ¬(start * SECTOR_SIZE = 0 ∧ (range 4).map (storeSectors placed.ram (start * SECTOR_SIZE)
        (modelChunk model modelSize start)) ≠ GGUF_MAGIC) := by
      rintro ⟨first, other⟩
      apply other
      rw [← gguf]
      apply map_congr_left
      intro i member
      have low := mem_range.mp member
      have some := chunkSectors_pos more
      rw [modelChunk, storeSectors_model, if_pos]
      simp only [SECTOR_SIZE] at first some ⊢
      omega
    rw [here, run_bind_ok (run_readSectors reads _ _ _), chunk, if_neg magic]
    rw [← Nat.add_mul] at smaller ⊢
    obtain ⟨result, ticks, ran, same, chunks⟩ := ih _ smaller (show ∀ i < sectorsForBytes modelSize,
      (world.tick (chunkSectors modelSize (start * SECTOR_SIZE))).cells (MODEL_DATA_LBA + i) = _ from sectors) next rfl
    rw [World.tick_tick] at ran
    exact ⟨result, _, ran, same, chunks⟩
  next done => exact ⟨placed, 0, rfl, fun i small => loading.front i (by omega) small, loading.inside⟩

end Loader

/-! The round trip. -/

/-- What a writer that returned `Ok` has cached, the next boot loads byte for byte. -/
theorem cached_model_loads {capacity modelSize base : Nat} (word : capacity < WORD) (faults next : Faults) (world : Disk)
    (ssd : world.statics.ssdSectorCount = some capacity) (model heap : Ram) (alloc : Nat → Option Nat)
    (large : MIN_RAW_MODEL_SIZE ≤ modelSize) (small : modelSize ≤ MAX_RAW_MODEL_SIZE)
    (fits : MODEL_DATA_LBA + sectorsForBytes modelSize ≤ capacity) (gguf : (range 4).map model = GGUF_MAGIC)
    (returned : (run faults (writeRawModelCache model modelSize) world).1 = .ok ()) (reads : next.ReadsWork)
    (allocated : alloc (allocSize modelSize) = some base) : ∃ loaded after,
      run next (tryLoadRawModel false alloc heap)
        (boot capacity (run faults (writeRawModelCache model modelSize) world).2.cells) = (.ok (some loaded), after) ∧
      loaded.address = base ∧ loaded.modelSize = modelSize ∧ (∀ i < modelSize, loaded.placed.ram i = model i) ∧
      ∀ chunk ∈ loaded.placed.chunks, chunk.1 + chunk.2 ≤ allocSize modelSize := by
  have known : ∀ found, world.statics.ssdSectorCount = some found → found < WORD := by
    intro found same
    cases ssd.symm.trans same
    exact word
  have cached := cached_written known returned
  generalize (run faults (writeRawModelCache model modelSize) world).2.cells = cells at cached
  have booted : Cached (boot capacity cells).cells model modelSize := cached
  obtain ⟨before, ran⟩ := run_openRawModel reads word rfl booted.header large small fits
  have wide : ∀ found, ((boot capacity cells).tick before).statics.ssdSectorCount = some found → found < WORD := by
    rintro found ⟨⟩
    exact word
  have kept : Cached (run next (ensureBehind modelSize) ((boot capacity cells).tick before)).2.cells model modelSize :=
    booted.below fun lba below => ensureBehind_below wide lba below
  have start : Loading model modelSize 0 ⟨heap, []⟩ := ⟨.inl (dvd_zero _), fun i low => by omega, by simp⟩
  obtain ⟨result, ticks, loaded, same, chunks⟩ := run_loadModelChunks reads gguf kept.sectors start
  rw [Nat.zero_mul] at loaded
  refine ⟨⟨base, modelSize, result⟩,
    (run next (ensureBehind modelSize) ((boot capacity cells).tick before)).2.tick ticks, ?_, rfl, rfl, same, chunks⟩
  have data : MODEL_FIXED_CACHE_LBA + MODEL_HEADER_SECTORS = MODEL_DATA_LBA := rfl
  rw [tryLoadRawModel, if_neg (by decide), run_bind_ok ran]
  simp only [allocated, data]
  rw [run_bind_ok loaded, run_pure]

theorem writeRawModelCache_returns {faults : Faults} (writes : faults.WritesWork) (reads : faults.ReadsWork)
    {world : Disk}
    (fits : rawModelRangeFits world.statics.ssdSectorCount MODEL_DATA_LBA modelSize = true) (model : Ram) :
    (run faults (writeRawModelCache model modelSize) world).1 = .ok () := by
  rw [writeRawModelCache, run_bind, run_cacheModel_ok writes reads fits, run_attempt]
  rfl

def ggufModel : Ram := fun i => GGUF_MAGIC.getD i 0

theorem cached_model_loads_smallest : ∃ loaded after,
      run Faults.none (tryLoadRawModel false (fun _ => some 0x10000000) fun _ => 0)
        (boot 3000000 (run Faults.none (writeRawModelCache ggufModel MIN_RAW_MODEL_SIZE)
          (boot 3000000 fun _ => zeros)).2.cells) = (.ok (some loaded), after) ∧
      loaded.address = 0x10000000 ∧ loaded.modelSize = MIN_RAW_MODEL_SIZE ∧
      (∀ i < MIN_RAW_MODEL_SIZE, loaded.placed.ram i = ggufModel i) ∧
      ∀ chunk ∈ loaded.placed.chunks, chunk.1 + chunk.2 ≤ allocSize MIN_RAW_MODEL_SIZE := by
  have fits : rawModelRangeFits (boot 3000000 fun _ => zeros).statics.ssdSectorCount MODEL_DATA_LBA
      MIN_RAW_MODEL_SIZE = true := by decide
  have returned := writeRawModelCache_returns Faults.none_writesWork Faults.none_readsWork fits ggufModel
  exact cached_model_loads (by decide) _ _ _ rfl _ _ _ le_rfl (by decide) (by decide) (by decide) returned
    Faults.none_readsWork rfl

end HermitLocal.Ahci.ModelLoad
