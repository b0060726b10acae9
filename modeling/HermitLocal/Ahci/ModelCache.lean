import HermitLocal.Ahci.Confinement

/-! The raw model cache of `ahci.rs`: a header sector at a fixed place, the model's
sectors behind it, and the memory database behind these. The writer marks the
header as being written before it touches the data and as ready after it. -/

namespace HermitLocal.Ahci.ModelCache
open Lib.Wire Lib.BlockProgram Lib.BlockProgram.Program Function List
open Ahci.Layout Ahci.MemoryDb Ahci.Format
open Ahci.Confinement

def MODEL_FIXED_CACHE_LBA : Nat := 2048
def MODEL_HEADER_SECTORS : Nat := 8
def MIN_RAW_MODEL_SIZE : Nat := 1024 * 1024 * 1024
def MAX_RAW_MODEL_SIZE : Nat := 8 * 1024 * 1024 * 1024
def MODEL_MAGIC_READY : List UInt8 := ascii "BITNET01"
def MODEL_MAGIC_WRITING : List UInt8 := ascii "BITNET00"
def MODEL_CACHE_TAG : List UInt8 := ascii "BITNET2B"
def MODEL_CACHE_TAG_OFFSET : Nat := 24
def MODEL_DATA_LBA : Nat := MODEL_FIXED_CACHE_LBA + MODEL_HEADER_SECTORS

abbrev Ram := Nat → UInt8

def ramSector (ram : Ram) (offset : Nat) : Sector := fun i => ram (offset + i.val)

def modelHeader (magic : List UInt8) (modelSize dataLba : Nat) : Sector :=
  let header := patch zeros 0 magic
  let header := writeLeU64 header 8 modelSize
  let header := writeLeU64 header 16 dataLba
  patch header MODEL_CACHE_TAG_OFFSET MODEL_CACHE_TAG

def rawModelRangeFits (ssdSectorCount : Option Nat) (dataLba modelSize : Nat) : Bool :=
  match ssdSectorCount with
  | none => true
  | some capacitySectors =>
    match checkedAdd dataLba (sectorsForBytes modelSize) with
    | none => false
    | some endExclusive => !decide (endExclusive > capacitySectors)

def smokeSector (testLba : Nat) : Sector := writeLeU64 (patch zeros 0 (ascii "HSMOKE01")) 8 testLba

def smokeTestRawModelCache (cacheLba : Nat) : Driver Unit := do
  let testLba := cacheLba + 1
  writeBlock testLba (smokeSector testLba)
  let readBuf ← readSector testLba
  if slice readBuf 0 16 ≠ slice (smokeSector testLba) 0 16 then fail else pure ()

def writeSectorsFrom (lba count : Nat) (ram : Ram) (offset : Nat) : Driver Unit :=
  writeAll (place lba ((range count).map fun i => ramSector ram (offset + i * SECTOR_SIZE)))

variable {modelSize : Nat}

def writeModelChunks (dataLba : Nat) (model : Ram) (modelSize offset : Nat) : Driver Unit :=
  if _more : offset < modelSize then do
    writeSectorsFrom (dataLba + offset / SECTOR_SIZE) (chunkSectors modelSize offset) model offset
    writeModelChunks dataLba model modelSize (offset + chunkSectors modelSize offset * SECTOR_SIZE)
  else pure ()
termination_by modelSize - offset
decreasing_by exact chunk_advances _more

def cacheModel (model : Ram) (modelSize : Nat) : Driver (Except Unit Unit) := do
  let cacheLba := MODEL_FIXED_CACHE_LBA
  let dataLba := cacheLba + MODEL_HEADER_SECTORS
  let statics ← getStatics
  if !rawModelRangeFits statics.ssdSectorCount dataLba modelSize then fail
  else do
    smokeTestRawModelCache cacheLba
    writeBlock cacheLba (modelHeader MODEL_MAGIC_WRITING modelSize dataLba)
    writeModelChunks dataLba model modelSize 0
    writeBlock cacheLba (modelHeader MODEL_MAGIC_READY modelSize dataLba)
    let sectorCount := sectorsForBytes modelSize
    attempt (ensureMemoryDb (dataLba + sectorCount) dataLba (dataLba + (sectorCount - 1)))

def writeRawModelCache (model : Ram) (modelSize : Nat) : Driver Unit := do
  let _ ← cacheModel model modelSize
  pure ()

/-! What the writer writes. -/

section Writes

def modelSectors (model : Ram) (modelSize : Nat) : List Sector :=
  (range (sectorsForBytes modelSize)).map fun i => ramSector model (i * SECTOR_SIZE)

@[simp] theorem modelSectors_length (model : Ram) (modelSize : Nat) :
    (modelSectors model modelSize).length = sectorsForBytes modelSize := by
  simp [modelSectors]

theorem writeModelChunks_eq (dataLba : Nat) (model : Ram) (modelSize start : Nat) :
    writeModelChunks dataLba model modelSize (start * SECTOR_SIZE) =
      writeAll (place (dataLba + start) ((range (sectorsForBytes (modelSize - start * SECTOR_SIZE))).map
        fun i => ramSector model ((start + i) * SECTOR_SIZE))) := by
  induction left : modelSize - start * SECTOR_SIZE using Nat.strong_induction_on generalizing start with
  | _ left ih =>
  subst left
  rw [writeModelChunks]
  split
  next more =>
    have here : start * SECTOR_SIZE / SECTOR_SIZE = start := Nat.mul_div_cancel _ (by decide)
    have next : start * SECTOR_SIZE + chunkSectors modelSize (start * SECTOR_SIZE) * SECTOR_SIZE =
        (start + chunkSectors modelSize (start * SECTOR_SIZE)) * SECTOR_SIZE := by rw [Nat.add_mul]
    have total : sectorsForBytes (modelSize - start * SECTOR_SIZE) = chunkSectors modelSize (start * SECTOR_SIZE) +
        sectorsForBytes (modelSize - (start + chunkSectors modelSize (start * SECTOR_SIZE)) * SECTOR_SIZE) := by
      simp only [chunkSectors_eq, sectorsForBytes, MODEL_IO_SECTORS, SECTOR_SIZE]
      omega
    have smaller := chunk_advances more
    rw [next] at smaller ⊢
    rw [ih _ smaller _ rfl, here, total, range_add, map_append, place_append, writeAll_append,
      writeSectorsFrom]
    simp only [map_map, length_map, length_range, comp_def, Nat.add_mul, Nat.add_assoc]
  next done =>
    have none : sectorsForBytes (modelSize - start * SECTOR_SIZE) = 0 := by
      simp only [sectorsForBytes, SECTOR_SIZE] at done ⊢
      omega
    rw [none]
    rfl

def protocolWrites (model : Ram) (modelSize : Nat) : List (Nat × Sector) :=
  (MODEL_FIXED_CACHE_LBA + 1, smokeSector (MODEL_FIXED_CACHE_LBA + 1)) ::
    (MODEL_FIXED_CACHE_LBA, modelHeader MODEL_MAGIC_WRITING modelSize MODEL_DATA_LBA) ::
      (place MODEL_DATA_LBA (modelSectors model modelSize) ++
        [(MODEL_FIXED_CACHE_LBA, modelHeader MODEL_MAGIC_READY modelSize MODEL_DATA_LBA)])

def ensureBehind (modelSize : Nat) : Driver Unit :=
  ensureMemoryDb (MODEL_DATA_LBA + sectorsForBytes modelSize) MODEL_DATA_LBA
    (MODEL_DATA_LBA + (sectorsForBytes modelSize - 1))

theorem cacheModel_eq (model : Ram) (modelSize : Nat) : cacheModel model modelSize = (do
    let statics ← getStatics if !rawModelRangeFits statics.ssdSectorCount MODEL_DATA_LBA modelSize then fail
    else do
      smokeTestRawModelCache MODEL_FIXED_CACHE_LBA
      writeAll (protocolWrites model modelSize).tail
      attempt (ensureBehind modelSize)) := by
  have chunks := writeModelChunks_eq MODEL_DATA_LBA model modelSize 0
  simp only [Nat.zero_mul, Nat.sub_zero, Nat.add_zero, Nat.zero_add] at chunks
  have body : writeAll (protocolWrites model modelSize).tail = (do
      writeBlock MODEL_FIXED_CACHE_LBA (modelHeader MODEL_MAGIC_WRITING modelSize MODEL_DATA_LBA)
      writeModelChunks MODEL_DATA_LBA model modelSize 0
      writeBlock MODEL_FIXED_CACHE_LBA (modelHeader MODEL_MAGIC_READY modelSize MODEL_DATA_LBA) : Driver Unit) := by
    rw [protocolWrites, tail_cons, writeAll, writeAll_append, chunks, modelSectors]
    simp [writeAll]
  simp only [body, bind_assoc]
  rfl

variable {world : Disk}

theorem run_smokeTest_ok {faults : Faults} (writes : faults.writes world.issued.length = false)
    (reads : faults.reads world.reads = false) (cacheLba : Nat) :
    run faults (smokeTestRawModelCache cacheLba) world =
      (.ok (), (world.store [(cacheLba + 1, smokeSector (cacheLba + 1))]).tick 1) := by
  have back : (world.store [(cacheLba + 1, smokeSector (cacheLba + 1))]).cells (cacheLba + 1) =
      smokeSector (cacheLba + 1) := update_self ..
  have unread : faults.reads (world.store [(cacheLba + 1, smokeSector (cacheLba + 1))]).reads = false := reads
  rw [smokeTestRawModelCache, run_bind_ok (run_writeBlock_ok writes _ _), readSector,
    run_bind_ok (run_readBlock_ok unread _), back]
  simp

theorem run_smokeTest (faults : Faults) (world : Disk) (cacheLba : Nat) :
    (∃ stored ≤ 1, ∃ after, run faults (smokeTestRawModelCache cacheLba) world = (.error (), after) ∧
      after.statics = world.statics ∧
      after.cells = applyWrites ([(cacheLba + 1, smokeSector (cacheLba + 1))].take stored) world.cells ∧
      after.issued = world.issued ++ [(cacheLba + 1, smokeSector (cacheLba + 1))]) ∨
    run faults (smokeTestRawModelCache cacheLba) world =
      (.ok (), (world.store [(cacheLba + 1, smokeSector (cacheLba + 1))]).tick 1) := by
  cases refused : faults.writes world.issued.length with
  | true =>
    rw [smokeTestRawModelCache, run_bind_error (run_writeBlock_error refused _ _)]
    exact .inl ⟨0, by omega, _, rfl, rfl, rfl, rfl⟩
  | false =>
    cases unread : faults.reads world.reads with
    | true =>
      have reread : faults.reads (world.store [(cacheLba + 1, smokeSector (cacheLba + 1))]).reads = true := unread
      rw [smokeTestRawModelCache, run_bind_ok (run_writeBlock_ok refused _ _), readSector,
        run_bind_error (run_readBlock_error reread _)]
      exact .inl ⟨1, le_rfl, _, rfl, rfl, rfl, rfl⟩
    | false => exact .inr (run_smokeTest_ok refused unread cacheLba)

theorem run_cacheModel_ok {faults : Faults} (writes : faults.WritesWork) (reads : faults.ReadsWork)
    (fits : rawModelRangeFits world.statics.ssdSectorCount MODEL_DATA_LBA modelSize = true)
    (model : Ram) : run faults (cacheModel model modelSize) world =
      run faults (attempt (ensureBehind modelSize)) ((world.store (protocolWrites model modelSize)).tick 1) := by
  rw [cacheModel_eq, run_bind_ok (run_getStatics faults world), if_neg (by simp [fits]),
    run_bind_ok (run_smokeTest_ok (writes _) (reads _) _), run_bind_ok (run_writeAll_ok _ fun _ _ => writes _),
    World.tick_store, World.store_store]
  rfl

theorem run_cacheModel (faults : Faults) (world : Disk) (model : Ram) (modelSize : Nat) :
    (∃ stored issued, stored ≤ issued ∧ stored < (protocolWrites model modelSize).length ∧ ∃ after,
      run faults (cacheModel model modelSize) world = (.error (), after) ∧ after.statics = world.statics ∧
        after.cells = applyWrites ((protocolWrites model modelSize).take stored) world.cells ∧
        after.issued = world.issued ++ (protocolWrites model modelSize).take issued) ∨
    run faults (cacheModel model modelSize) world =
      run faults (attempt (ensureBehind modelSize)) ((world.store (protocolWrites model modelSize)).tick 1) := by
  have long : 1 < (protocolWrites model modelSize).length := by simp [protocolWrites]
  have whole : protocolWrites model modelSize =
      (MODEL_FIXED_CACHE_LBA + 1, smokeSector (MODEL_FIXED_CACHE_LBA + 1)) :: (protocolWrites model modelSize).tail := rfl
  generalize (protocolWrites model modelSize).tail = rest at whole
  rw [cacheModel_eq, run_bind_ok (run_getStatics faults world)]
  split
  · exact .inl ⟨0, 0, le_rfl, by omega, world, rfl, rfl, rfl, by simp⟩
  rcases run_smokeTest faults world MODEL_FIXED_CACHE_LBA with
    ⟨stored, few, after, failed, statics, cells, issued⟩ | passed
  · rw [run_bind_error failed]
    refine .inl ⟨stored, 1, few, by omega, after, rfl, statics, ?_, ?_⟩
    · rw [cells, whole]
      rcases Nat.le_one_iff_eq_zero_or_eq_one.mp few with rfl | rfl <;> rfl
    · rw [issued, whole]
      rfl
  · rw [run_bind_ok passed, whole, tail_cons]
    rcases run_writeAll_cases faults rest
        ((world.store [(MODEL_FIXED_CACHE_LBA + 1, smokeSector (MODEL_FIXED_CACHE_LBA + 1))]).tick 1) with
      ⟨_, stored⟩ | ⟨reached, inside, _, failed⟩
    · rw [run_bind_ok stored, World.tick_store, World.store_store]
      exact .inr rfl
    · rw [run_bind_error failed]
      refine .inl ⟨reached + 1, reached + 2, by omega, by simpa using inside, _, rfl, rfl, ?_, ?_⟩
      · rfl
      · rw [take_succ_cons, take_succ_eq_append_getElem inside]
        simp only [World.issue_issued, World.store_issued, World.tick_issued, append_assoc, cons_append,
          nil_append]

end Writes

/-! Power cuts. -/

section Cuts

def HeaderReady (header : Sector) : Prop :=
  slice header 0 8 = MODEL_MAGIC_READY ∧ slice header MODEL_CACHE_TAG_OFFSET 8 = MODEL_CACHE_TAG

instance (header : Sector) : Decidable (HeaderReady header) := by
  unfold HeaderReady
  infer_instance

def InExtent (dataLba modelSize lba : Nat) : Prop := dataLba ≤ lba ∧ lba < dataLba + sectorsForBytes modelSize

def Describes (header : Sector) (lba : Nat) : Prop := InExtent (leU64 header 16) (leU64 header 8) lba

def extentByte (cells : Nat → Sector) (dataLba index : Nat) : UInt8 :=
  byteAt (cells (dataLba + index / SECTOR_SIZE)) (index % SECTOR_SIZE)

def HoldsModel (cells : Nat → Sector) (dataLba : Nat) (model : Ram) (modelSize : Nat) : Prop :=
  ∀ index < modelSize, extentByte cells dataLba index = model index

structure Complete (disk : Nat → Sector) (model : Ram) (modelSize : Nat) : Prop where
  start : leU64 (disk MODEL_FIXED_CACHE_LBA) 16 = MODEL_DATA_LBA
  size : leU64 (disk MODEL_FIXED_CACHE_LBA) 8 = modelSize
  holds : HoldsModel disk MODEL_DATA_LBA model modelSize

structure Untouched (before : Nat → Sector) (cut : List (Nat × Sector)) (modelSize : Nat) : Prop where
  elsewhere : ∀ write ∈ cut, write.1 ≠ MODEL_FIXED_CACHE_LBA ∧
    ¬Describes (before MODEL_FIXED_CACHE_LBA) write.1 ∧ ¬InExtent MODEL_DATA_LBA modelSize write.1
  header : applyWrites cut before MODEL_FIXED_CACHE_LBA = before MODEL_FIXED_CACHE_LBA
  extent : ∀ lba, Describes (before MODEL_FIXED_CACHE_LBA) lba → applyWrites cut before lba = before lba

theorem modelHeader_slices (magic : List UInt8) (length : magic.length = 8) (modelSize dataLba : Nat) :
    slice (modelHeader magic modelSize dataLba) 0 8 = magic ∧
      slice (modelHeader magic modelSize dataLba) MODEL_CACHE_TAG_OFFSET 8 = MODEL_CACHE_TAG := by
  have start := slice_patch_same (zeros : Sector) 0 8 magic length (by decide)
  constructor
  · simp (disch := decide) only [modelHeader, writeLeU64, slice_patch_apart, slice_setField_apart, start]
  · exact slice_patch_same _ _ _ _ (by decide) (by decide)

theorem modelHeader_fields (magic : List UInt8) {dataLba : Nat} (sized : modelSize < WORD)
    (placed : dataLba < WORD) : leU64 (modelHeader magic modelSize dataLba) 8 = modelSize ∧
      leU64 (modelHeader magic modelSize dataLba) 16 = dataLba := by
  have size : modelSize % 256 ^ 8 = modelSize := Nat.mod_eq_of_lt sized
  have lba : dataLba % 256 ^ 8 = dataLba := Nat.mod_eq_of_lt placed
  constructor
  · simp (disch := decide) only [modelHeader, writeLeU64, leU64, field_patch_apart, field_setField_apart,
      field_setField_same, size]
  · simp (disch := decide) only [modelHeader, writeLeU64, leU64, field_patch_apart, field_setField_same, lba]

theorem modelHeader_ready (modelSize dataLba : Nat) : HeaderReady (modelHeader MODEL_MAGIC_READY modelSize dataLba) :=
  modelHeader_slices _ rfl _ _

theorem modelHeader_writing (modelSize dataLba : Nat) :
    ¬HeaderReady (modelHeader MODEL_MAGIC_WRITING modelSize dataLba) := by
  rintro ⟨magic, -⟩
  rw [(modelHeader_slices MODEL_MAGIC_WRITING rfl _ _).1] at magic
  exact absurd magic (by decide)

variable (model : Ram) (modelSize : Nat) (cells : Nat → Sector)

theorem holdsModel_of_sectors {disk : Nat → Sector}
    (sectors : ∀ i < sectorsForBytes modelSize, disk (MODEL_DATA_LBA + i) = ramSector model (i * SECTOR_SIZE)) :
    HoldsModel disk MODEL_DATA_LBA model modelSize := by
  intro index inside
  have sector : index / SECTOR_SIZE < sectorsForBytes modelSize := by
    simp only [sectorsForBytes, SECTOR_SIZE] at inside ⊢
    omega
  have bound : index % SECTOR_SIZE < SECTOR_SIZE := Nat.mod_lt _ (by decide)
  rw [extentByte, sectors _ sector, byteAt, dif_pos bound, ramSector, Nat.div_add_mod']

theorem protocol_header : applyWrites (protocolWrites model modelSize) cells MODEL_FIXED_CACHE_LBA =
    modelHeader MODEL_MAGIC_READY modelSize MODEL_DATA_LBA := by
  rw [protocolWrites, applyWrites_cons, applyWrites_cons, applyWrites_append, applyWrites_cons, applyWrites_nil,
    update_self]

theorem protocol_sector {i : Nat} (inside : i < sectorsForBytes modelSize) :
    applyWrites (protocolWrites model modelSize) cells (MODEL_DATA_LBA + i) = ramSector model (i * SECTOR_SIZE) := by
  have other : MODEL_DATA_LBA + i ≠ MODEL_FIXED_CACHE_LBA := by
    unfold MODEL_DATA_LBA MODEL_HEADER_SECTORS
    omega
  have written := applyWrites_place_inside MODEL_DATA_LBA (modelSectors model modelSize)
  rw [protocolWrites, applyWrites_cons, applyWrites_cons, applyWrites_append, applyWrites_cons, applyWrites_nil,
    update_of_ne other, written _ i (by rwa [modelSectors_length])]
  simp [modelSectors]

theorem complete_protocol (sized : modelSize < WORD) {behind : List (Nat × Sector)}
    (later : ∀ write ∈ behind, MODEL_DATA_LBA + sectorsForBytes modelSize ≤ write.1) :
    HeaderReady (applyWrites (protocolWrites model modelSize ++ behind) cells MODEL_FIXED_CACHE_LBA) ∧
      Complete (applyWrites (protocolWrites model modelSize ++ behind) cells) model modelSize := by
  have kept (lba : Nat) (low : lba < MODEL_DATA_LBA + sectorsForBytes modelSize) :
      applyWrites (protocolWrites model modelSize ++ behind) cells lba =
        applyWrites (protocolWrites model modelSize) cells lba := by
    rw [applyWrites_append]
    apply applyWrites_apart
    intro write member
    have bound := later write member
    omega
  have header : applyWrites (protocolWrites model modelSize ++ behind) cells MODEL_FIXED_CACHE_LBA =
      modelHeader MODEL_MAGIC_READY modelSize MODEL_DATA_LBA := by
    rw [kept _ (Nat.lt_add_right _ (by decide)), protocol_header]
  have fields := modelHeader_fields MODEL_MAGIC_READY sized (show MODEL_DATA_LBA < WORD by decide)
  rw [← header] at fields
  refine ⟨by rw [header]; exact modelHeader_ready _ _, fields.2, fields.1, ?_⟩
  apply holdsModel_of_sectors
  intro i inside
  rw [kept _ (Nat.add_lt_add_left inside _), protocol_sector model modelSize cells inside]

theorem untouched_smoke (apart : ¬Describes (cells MODEL_FIXED_CACHE_LBA) (MODEL_FIXED_CACHE_LBA + 1))
    {cut : List (Nat × Sector)}
    (smoke : ∀ write ∈ cut, write.1 = MODEL_FIXED_CACHE_LBA + 1) : Untouched cells cut modelSize := by
  have elsewhere : ∀ write ∈ cut, write.1 ≠ MODEL_FIXED_CACHE_LBA ∧
      ¬Describes (cells MODEL_FIXED_CACHE_LBA) write.1 ∧ ¬InExtent MODEL_DATA_LBA modelSize write.1 := by
    intro write member
    rw [smoke write member]
    refine ⟨by decide, apart, fun inside => ?_⟩
    exact absurd inside.1 (by decide)
  refine ⟨elsewhere, ?_, fun lba described => ?_⟩
  · exact applyWrites_apart _ _ _ fun write member => (elsewhere write member).1
  · apply applyWrites_apart
    intro write member same
    exact (elsewhere write member).2.1 (same ▸ described)

theorem writing_header (count : Nat) : ¬HeaderReady (applyWrites
    ((MODEL_FIXED_CACHE_LBA + 1, smokeSector (MODEL_FIXED_CACHE_LBA + 1)) ::
      (MODEL_FIXED_CACHE_LBA, modelHeader MODEL_MAGIC_WRITING modelSize MODEL_DATA_LBA) ::
        (place MODEL_DATA_LBA (modelSectors model modelSize)).take count) cells MODEL_FIXED_CACHE_LBA) := by
  rw [applyWrites_cons, applyWrites_cons, applyWrites_apart]
  · exact modelHeader_writing _ _
  · intro write member
    have bounds := place_bounds _ _ write (mem_of_mem_take member)
    unfold MODEL_DATA_LBA MODEL_HEADER_SECTORS at bounds
    omega

theorem cut_truthful (sized : modelSize < WORD) (apart : HeaderReady (cells MODEL_FIXED_CACHE_LBA) →
      ¬Describes (cells MODEL_FIXED_CACHE_LBA) (MODEL_FIXED_CACHE_LBA + 1)) {behind : List (Nat × Sector)}
    (later : ∀ write ∈ behind, MODEL_DATA_LBA + sectorsForBytes modelSize ≤ write.1) (count : Nat)
    (ready : HeaderReady (applyWrites ((protocolWrites model modelSize ++ behind).take count) cells
      MODEL_FIXED_CACHE_LBA)) :
    Complete (applyWrites ((protocolWrites model modelSize ++ behind).take count) cells) model modelSize ∨
      Untouched cells ((protocolWrites model modelSize ++ behind).take count) modelSize := by
  by_cases early : count ≤ 1
  · -- only the smoke test can have been written, so the old header is still there
    have smoke : ∀ write ∈ (protocolWrites model modelSize ++ behind).take count,
        write.1 = MODEL_FIXED_CACHE_LBA + 1 := by
      intro write member
      have first : write ∈ (protocolWrites model modelSize ++ behind).take 1 :=
        take_subset_take_left _ early member
      rw [protocolWrites, cons_append, take_succ_cons, take_zero, mem_singleton] at first
      rw [first]
    have header := applyWrites_apart _ cells MODEL_FIXED_CACHE_LBA fun write member => by
      rw [smoke write member]
      decide
    rw [header] at ready
    exact .inr (untouched_smoke modelSize cells (apart ready) smoke)
  by_cases late : (protocolWrites model modelSize).length ≤ count
  · have whole : (protocolWrites model modelSize ++ behind).take count =
        protocolWrites model modelSize ++ behind.take (count - (protocolWrites model modelSize).length) := by
      rw [take_append, take_of_length_le late]
    rw [whole]
    exact .inl (complete_protocol model modelSize cells sized fun write member =>
      later write (mem_of_mem_take member)).2
  · obtain ⟨more, rfl⟩ : ∃ more, count = more + 2 := ⟨count - 2, by omega⟩
    have length : (protocolWrites model modelSize).length = sectorsForBytes modelSize + 1 + 2 := by
      simp [protocolWrites]
    have short : more ≤ (place MODEL_DATA_LBA (modelSectors model modelSize)).length := by
      rw [place_length, modelSectors_length]
      omega
    have inside : (protocolWrites model modelSize ++ behind).take (more + 2) =
        (MODEL_FIXED_CACHE_LBA + 1, smokeSector (MODEL_FIXED_CACHE_LBA + 1)) ::
          (MODEL_FIXED_CACHE_LBA, modelHeader MODEL_MAGIC_WRITING modelSize MODEL_DATA_LBA) ::
            (place MODEL_DATA_LBA (modelSectors model modelSize)).take more := by
      rw [take_append_of_le_length (by omega), protocolWrites, take_succ_cons, take_succ_cons,
        take_append_of_le_length short]
    rw [inside] at ready
    exact absurd ready (writing_header model modelSize cells more)

def cacheWrites (faults : Faults) (model : Ram) (modelSize : Nat) (world : Disk) : List (Nat × Sector) :=
  (run faults (writeRawModelCache model modelSize) world).2.issued.drop world.issued.length

theorem run_writeRawModelCache (faults : Faults) (model : Ram) (modelSize : Nat) (world : Disk) :
    (run faults (writeRawModelCache model modelSize) world).2 = (run faults (cacheModel model modelSize) world).2 :=
  run_discard faults _ world

theorem ensureBehind_extends (faults : Faults)
    (word : ∀ capacity, world.statics.ssdSectorCount = some capacity → capacity < WORD) (modelSize : Nat) :
    Extends (AllowedFormat (MODEL_DATA_LBA + sectorsForBytes modelSize)) world
      (run faults (ensureBehind modelSize) world).2 := by
  cases ssd : world.statics.ssdSectorCount with
  | none =>
    rw [ensureBehind, run_ensure_unknown faults ssd]
    exact Extends.same rfl rfl
  | some capacity => exact (ensure_extends faults (word capacity ssd) ssd _ _ _).1

theorem cacheWrites_shape (faults : Faults) (model : Ram) (modelSize : Nat) (world : Disk)
    (word : ∀ capacity, world.statics.ssdSectorCount = some capacity → capacity < WORD) :
    ∃ behind count, (∀ write ∈ behind, MODEL_DATA_LBA + sectorsForBytes modelSize ≤ write.1) ∧
      cacheWrites faults model modelSize world = (protocolWrites model modelSize ++ behind).take count := by
  rw [cacheWrites, run_writeRawModelCache]
  rcases run_cacheModel faults world model modelSize with ⟨_, count, _, _, after, failed, _, _, issued⟩ | reached
  · refine ⟨[], count, by simp, ?_⟩
    rw [failed, issued, drop_left, append_nil]
  · have known : ∀ capacity, ((world.store (protocolWrites model modelSize)).tick 1).statics.ssdSectorCount =
        some capacity → capacity < WORD := word
    obtain ⟨behind, issued, allowed, -⟩ := ensureBehind_extends faults known modelSize
    refine ⟨behind, (protocolWrites model modelSize ++ behind).length, fun write member => (allowed write member).1, ?_⟩
    rw [reached, run_attempt, issued, take_length, World.tick_issued, World.store_issued, append_assoc,
      drop_left]

/-- After a power cut a ready header describes the whole new model, or nothing was touched. -/
theorem ready_header_truthful (faults : Faults) (world : Disk) (model : Ram) (modelSize : Nat)
    (word : ∀ capacity, world.statics.ssdSectorCount = some capacity → capacity < WORD) (sized : modelSize < WORD)
    (apart : HeaderReady (world.cells MODEL_FIXED_CACHE_LBA) →
      ¬Describes (world.cells MODEL_FIXED_CACHE_LBA) (MODEL_FIXED_CACHE_LBA + 1)) (count : Nat)
    (ready : HeaderReady (applyWrites ((cacheWrites faults model modelSize world).take count) world.cells
      MODEL_FIXED_CACHE_LBA)) :
    Complete (applyWrites ((cacheWrites faults model modelSize world).take count) world.cells) model modelSize ∨
      Untouched world.cells ((cacheWrites faults model modelSize world).take count) modelSize := by
  obtain ⟨behind, all, later, shape⟩ := cacheWrites_shape faults model modelSize world word
  rw [shape, take_take] at ready ⊢
  exact cut_truthful model modelSize world.cells sized apart later _ ready

theorem described_apart {header : Sector} (start : leU64 header 16 = MODEL_DATA_LBA) :
    ¬Describes header (MODEL_FIXED_CACHE_LBA + 1) := by
  rintro ⟨low, -⟩
  rw [start] at low
  exact absurd low (by decide)

def readyDisk (dataLba : Nat) : Disk :=
  boot 200000 fun lba =>
    if lba = MODEL_FIXED_CACHE_LBA then modelHeader MODEL_MAGIC_READY 512 dataLba else zeros

theorem readyDisk_header (dataLba : Nat) :
    (readyDisk dataLba).cells MODEL_FIXED_CACHE_LBA = modelHeader MODEL_MAGIC_READY 512 dataLba := by
  simp only [readyDisk, boot, if_true]

def sampleModel : Ram := fun _ => 7

theorem readyDisk_writes (dataLba : Nat) :
    ∃ behind, cacheWrites Faults.none sampleModel 512 (readyDisk dataLba) =
      protocolWrites sampleModel 512 ++ behind := by
  have fits : rawModelRangeFits (readyDisk dataLba).statics.ssdSectorCount MODEL_DATA_LBA 512 = true := rfl
  have known : ∀ capacity, (((readyDisk dataLba).store (protocolWrites sampleModel 512)).tick 1).statics.ssdSectorCount =
      some capacity → capacity < WORD := by
    rintro capacity ⟨⟩
    decide
  have ran := run_cacheModel_ok Faults.none_writesWork Faults.none_readsWork fits sampleModel
  obtain ⟨behind, issued, -, -⟩ := ensureBehind_extends Faults.none known 512
  refine ⟨behind, ?_⟩
  rw [cacheWrites, run_writeRawModelCache, ran, run_attempt, issued]
  rfl

theorem ready_header_truthful_overwritten :
    HeaderReady (applyWrites ((cacheWrites Faults.none sampleModel 512 (readyDisk MODEL_DATA_LBA)).take 4)
        (readyDisk MODEL_DATA_LBA).cells MODEL_FIXED_CACHE_LBA) ∧
      (Complete (applyWrites ((cacheWrites Faults.none sampleModel 512 (readyDisk MODEL_DATA_LBA)).take 4)
          (readyDisk MODEL_DATA_LBA).cells) sampleModel 512 ∨
        Untouched (readyDisk MODEL_DATA_LBA).cells
          ((cacheWrites Faults.none sampleModel 512 (readyDisk MODEL_DATA_LBA)).take 4) 512) := by
  have ready : HeaderReady (applyWrites ((cacheWrites Faults.none sampleModel 512 (readyDisk MODEL_DATA_LBA)).take 4)
      (readyDisk MODEL_DATA_LBA).cells MODEL_FIXED_CACHE_LBA) := by
    obtain ⟨behind, writes⟩ := readyDisk_writes MODEL_DATA_LBA
    rw [writes]
    exact modelHeader_ready _ _
  refine ⟨ready, ready_header_truthful _ _ _ _ ?_ (by decide) ?_ 4 ready⟩
  · rintro capacity ⟨⟩
    decide
  · intro _
    exact described_apart (modelHeader_fields _ (by decide) (by decide)).2

theorem smoke_test_overwrites_extent :
    HeaderReady (applyWrites ((cacheWrites Faults.none sampleModel 512 (readyDisk 2049)).take 1)
        (readyDisk 2049).cells MODEL_FIXED_CACHE_LBA) ∧
      Describes (applyWrites ((cacheWrites Faults.none sampleModel 512 (readyDisk 2049)).take 1)
        (readyDisk 2049).cells MODEL_FIXED_CACHE_LBA) 2049 ∧
      applyWrites ((cacheWrites Faults.none sampleModel 512 (readyDisk 2049)).take 1) (readyDisk 2049).cells 2049 ≠
        (readyDisk 2049).cells 2049 ∧
      ¬HoldsModel (applyWrites ((cacheWrites Faults.none sampleModel 512 (readyDisk 2049)).take 1)
        (readyDisk 2049).cells) 2049 sampleModel 512 := by
  obtain ⟨behind, writes⟩ := readyDisk_writes 2049
  have first : (cacheWrites Faults.none sampleModel 512 (readyDisk 2049)).take 1 = [(2049, smokeSector 2049)] := by
    rw [writes]
    rfl
  have header : applyWrites [(2049, smokeSector 2049)] (readyDisk 2049).cells MODEL_FIXED_CACHE_LBA =
      modelHeader MODEL_MAGIC_READY 512 2049 := by
    rw [applyWrites_cons, applyWrites_nil, update_of_ne (by decide), readyDisk_header]
  have fields := modelHeader_fields MODEL_MAGIC_READY (show 512 < WORD by decide) (show 2049 < WORD by decide)
  have tested : applyWrites [(2049, smokeSector 2049)] (readyDisk 2049).cells 2049 = smokeSector 2049 := by
    rw [applyWrites_cons, applyWrites_nil, update_self]
  have marked : byteAt (smokeSector 2049) 0 = 72 := by decide
  rw [first, header]
  refine ⟨modelHeader_ready _ _, ?_, ?_, ?_⟩
  · exact ⟨le_rfl, by decide⟩
  · rw [tested]
    intro same
    rw [same] at marked
    cases marked
  · intro holds
    have byte : byteAt (applyWrites [(2049, smokeSector 2049)] (readyDisk 2049).cells 2049) 0 = 7 :=
      holds 0 (by decide)
    cases byte

end Cuts

end HermitLocal.Ahci.ModelCache
