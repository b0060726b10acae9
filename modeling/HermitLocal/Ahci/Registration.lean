import HermitLocal.Ahci.ModelLoad
import HermitLocal.Lib.Simulation

/-! Which memory database a boot uses. Both the loader and the writer of the model cache
open the database behind their model, and the first database opened stays
registered for the whole boot, whatever becomes of the model it was opened for. -/

namespace HermitLocal.Ahci.Registration
open Lib.Wire Lib.BlockProgram Lib.BlockProgram.Program Lib.Simulation List
open Ahci.Layout Ahci.MemoryDb Ahci.Log Ahci.Recovery
open Ahci.Format Ahci.Confinement Ahci.ModelCache
open Ahci.ModelLoad

def firstFreeLba (modelSize : Nat) : Nat := MODEL_DATA_LBA + sectorsForBytes modelSize

inductive Action where
  | load (faults : Faults) (alloc : Nat → Option Nat) (heap : Ram)
  | cache (faults : Faults) (model : Ram) (modelSize : Nat)
  | append (faults : Faults) (data : List UInt8)
  | read (faults : Faults) (bufLen : Nat)
  | erase (faults : Faults)

structure Boot where
  world : Disk
  modelInfo : Bool
  ensured : List Nat

def powerOn (ssdSectorCount : Option Nat) (cells : Nat → Sector) : Boot :=
  ⟨⟨cells, 0, [], ⟨ssdSectorCount, none⟩⟩, false, []⟩

def recordEnsured (ensured : List Nat) : Except Unit (Nat × Except Unit Unit) → List Nat
  | .ok (modelSize, .ok _) => modelSize :: ensured
  | _ => ensured

namespace Boot

def load (boot : Boot) (faults : Faults) (alloc : Nat → Option Nat) (heap : Ram) : Boot :=
  let result := run faults (tryLoadRawModel boot.modelInfo alloc heap) boot.world
  { world := result.2
    modelInfo := boot.modelInfo || result.1.isOk
    ensured := if boot.modelInfo then boot.ensured
      else recordEnsured boot.ensured (run faults openRawModel boot.world).1 }

def cache (boot : Boot) (faults : Faults) (model : Ram) (modelSize : Nat) : Boot :=
  { boot with
    world := (run faults (writeRawModelCache model modelSize) boot.world).2
    ensured := recordEnsured boot.ensured
      ((run faults (cacheModel model modelSize) boot.world).1.map fun outcome => (modelSize, outcome)) }

def step (boot : Boot) : Action → Boot
  | .load faults alloc heap => boot.load faults alloc heap
  | .cache faults model modelSize => boot.cache faults model modelSize
  | .append faults data => { boot with world := (run faults (appendMemoryDb data) boot.world).2 }
  | .read faults bufLen => { boot with world := (run faults (readMemoryDb bufLen) boot.world).2 }
  | .erase faults => { boot with world := (run faults eraseMemoryDb boot.world).2 }

end Boot

/-! One call of `ensure_memory_db`. -/

variable {world after : Disk} {capacity modelSize : Nat} {boot : Boot}

theorem ensure_registers {faults : Faults} {db modelStartLba modelLastLba : Nat} (word : capacity < WORD)
    (ssd : world.statics.ssdSectorCount = some capacity)
    (returned : run faults (ensureMemoryDb db modelStartLba modelLastLba) world = (.ok (), after)) :
    after.statics = (register db world).statics := by
  have quiet {α : Type} {program : Driver α} {before middle : Disk} {value : α}
      (emits : program.Emits fun _ _ => True) (ran : run faults program before = (.ok value, middle)) :
      middle.statics = before.statics := by
    have kept := (run_emits emits faults before).2
    rwa [ran] at kept
  by_cases site : Site db capacity
  · rcases run_ensure_paths faults site ssd modelStartLba modelLastLba with
      ⟨ticks, fresh⟩ | ⟨ticks, count, state, placed, -, kept⟩
    · rw [fresh, ensureFresh_eq] at returned
      obtain ⟨_, written, wrote, returned⟩ := run_bind_inv returned
      obtain ⟨verify, reread, read, returned⟩ := run_bind_inv returned
      have first := quiet (emits_writeAll fun _ _ => trivial) wrote
      have second := quiet (emits_readBlock _ db) read
      split at returned
      · cases returned
      · cases returned
        rw [register, second, first]
        rfl
    · rw [kept] at returned
      obtain ⟨_, counted, wrote, returned⟩ := run_bind_inv returned
      obtain ⟨_, registered, ran, returned⟩ := run_bind_inv returned
      have first := quiet (emits_writeBlock trivial) wrote
      have last := quiet (emits_writeHeader placed trivial) returned
      cases ran
      rw [last, register, first]
      rfl
  · rw [run_ensure_outside faults word site ssd] at returned
    cases returned

structure Sound (world : Disk) : Prop where
  word : ∀ capacity, world.statics.ssdSectorCount = some capacity → capacity < WORD
  headers : ∀ db, world.statics.memoryDbHeaderLba = some db →
    ∃ capacity, world.statics.ssdSectorCount = some capacity ∧ Site db capacity ∧ HeaderOk db (world.cells db)

theorem Sound.invariant (sound : Sound world) (ssd : world.statics.ssdSectorCount = some capacity) :
    Invariant capacity world := by
  refine ⟨ssd, fun db registered => ?_⟩
  obtain ⟨found, same, site, headerOk⟩ := sound.headers db registered
  cases ssd.symm.trans same
  exact ⟨site, headerOk⟩

theorem Sound.kept (sound : Sound world) (statics : after.statics = world.statics)
    (headers : ∀ db, world.statics.memoryDbHeaderLba = some db → HeaderOk db (after.cells db)) : Sound after := by
  constructor
  · rw [statics]
    exact sound.word
  · rw [statics]
    intro db registered
    obtain ⟨capacity, ssd, site, -⟩ := sound.headers db registered
    exact ⟨capacity, ssd, site, headers db registered⟩

theorem Sound.headerOk (sound : Sound world) {db : Nat}
    (registered : world.statics.memoryDbHeaderLba = some db) : HeaderOk db (world.cells db) := by
  obtain ⟨-, -, -, headerOk⟩ := sound.headers db registered
  exact headerOk

theorem Sound.ticked (sound : Sound world) (ticks : Nat) : Sound (world.tick ticks) :=
  sound.kept (World.tick_statics _ _) fun _ registered => sound.headerOk registered

def Matches (world : Disk) (modelSize : Nat) : Prop :=
  world.statics.memoryDbHeaderLba = none ∨ world.statics.memoryDbHeaderLba = some (firstFreeLba modelSize)

theorem ensureBehind_sound {faults : Faults} {outcome : Except Unit Unit} (sound : Sound world)
    (ran : run faults (ensureBehind modelSize) world = (outcome, after)) :
    Sound after ∧
      (∀ db, world.statics.memoryDbHeaderLba = some db → after.statics.memoryDbHeaderLba = some db) ∧
      (Matches world modelSize → outcome = .ok () →
        after.statics.memoryDbHeaderLba = some (firstFreeLba modelSize)) := by
  cases ssd : world.statics.ssdSectorCount with
  | none =>
    rw [ensureBehind, run_ensure_unknown faults ssd] at ran
    cases ran
    exact ⟨sound, fun _ registered => registered, fun _ returned => by cases returned⟩
  | some capacity =>
    have word := sound.word capacity ssd
    have inv := (ensure_step faults word (sound.invariant ssd) (firstFreeLba modelSize) MODEL_DATA_LBA
      (MODEL_DATA_LBA + (sectorsForBytes modelSize - 1))).2.1
    have statics := (ensure_extends faults word ssd (firstFreeLba modelSize) MODEL_DATA_LBA
      (MODEL_DATA_LBA + (sectorsForBytes modelSize - 1))).2
    have ensured : run faults (ensureMemoryDb (firstFreeLba modelSize) MODEL_DATA_LBA
      (MODEL_DATA_LBA + (sectorsForBytes modelSize - 1))) world = (outcome, after) := ran
    rw [ensured] at inv statics
    refine ⟨⟨?_, ?_⟩, ?_, ?_⟩
    · intro found same
      cases inv.ssd.symm.trans same
      exact word
    · intro db registered
      exact ⟨capacity, inv.ssd, inv.registered db registered⟩
    · intro db registered
      rcases statics with same | ⟨same, -⟩
      · rw [same, registered]
      · rw [same]
        simp [register, registered]
    · intro matching returned
      cases returned
      rw [ensure_registers word ssd ensured]
      rcases matching with none | own
      · simp [register, none]
      · simp [register, own]

/-! The loader. -/

theorem readSectors_readOnly (lba count : Nat) : (readSectors lba count).ReadOnly := by
  induction count generalizing lba with
  | zero => trivial
  | succ count ih =>
    exact readOnly_bind (readOnly_readBlock lba) fun _ => readOnly_bind (ih (lba + 1)) fun _ => readOnly_pure _

theorem loadModelChunks_readOnly (dataLba modelSize offset : Nat) (placed : Placement) :
    (loadModelChunks dataLba modelSize offset placed).ReadOnly := by
  fun_induction loadModelChunks dataLba modelSize offset placed with
  | case1 offset placed more sectors ih =>
    apply readOnly_bind (readSectors_readOnly _ _)
    intro chunk
    dsimp only
    split
    · exact readOnly_fail
    · exact ih chunk
  | case2 => exact readOnly_pure _

theorem probeExtent_readOnly (lastLba nextFreeLba : Nat) : (probeExtent lastLba nextFreeLba).ReadOnly := by
  apply readOnly_bind (readOnly_readBlock _)
  intro _
  apply readOnly_bind readOnly_getStatics
  intro statics
  cases statics.ssdSectorCount with
  | none => exact readOnly_pure _
  | some capacity =>
    dsimp only
    split
    · exact readOnly_bind (readOnly_attempt (readOnly_readBlock _)) fun _ => readOnly_pure _
    · exact readOnly_pure _

theorem verifyRawModelExtent_cases (faults : Faults) (world : Disk) (modelSize : Nat) :
    (∃ ticks, run faults (verifyRawModelExtent MODEL_DATA_LBA modelSize) world = (.error (), world.tick ticks)) ∨
    ∃ ticks, run faults (verifyRawModelExtent MODEL_DATA_LBA modelSize) world =
      (.ok (run faults (ensureBehind modelSize) (world.tick ticks)).1,
        (run faults (ensureBehind modelSize) (world.tick ticks)).2) := by
  by_cases empty : sectorsForBytes modelSize = 0
  · rw [verifyRawModelExtent, if_pos empty]
    exact .inl ⟨0, rfl⟩
  · have last : MODEL_DATA_LBA + sectorsForBytes modelSize - 1 = MODEL_DATA_LBA + (sectorsForBytes modelSize - 1) := by
      omega
    obtain ⟨ticks, probed⟩ := run_readOnly (probeExtent_readOnly (MODEL_DATA_LBA + sectorsForBytes modelSize - 1)
      (MODEL_DATA_LBA + sectorsForBytes modelSize)) faults world
    rw [verifyRawModelExtent, if_neg empty]
    rcases ran : run faults (probeExtent (MODEL_DATA_LBA + sectorsForBytes modelSize - 1)
      (MODEL_DATA_LBA + sectorsForBytes modelSize)) world with ⟨_ | _, after⟩
    · rw [ran] at probed
      rw [run_bind_error ran]
      exact .inl ⟨ticks, by rw [← probed]⟩
    · rw [ran] at probed
      rw [run_bind_ok ran, run_attempt, last, show after = world.tick ticks from probed]
      exact .inr ⟨ticks, rfl⟩

theorem openRawModel_cases (faults : Faults) (world : Disk) :
    (∃ ticks, run faults openRawModel world = (.error (), world.tick ticks)) ∨
    HeaderReady (world.cells MODEL_FIXED_CACHE_LBA) ∧ ∃ ticks, run faults openRawModel world =
      (.ok (leU64 (world.cells MODEL_FIXED_CACHE_LBA) 8,
        (run faults (ensureBehind (leU64 (world.cells MODEL_FIXED_CACHE_LBA) 8)) (world.tick ticks)).1),
        (run faults (ensureBehind (leU64 (world.cells MODEL_FIXED_CACHE_LBA) 8)) (world.tick ticks)).2) := by
  cases unread : faults.reads world.reads with
  | true => exact .inl ⟨1, by rw [openRawModel, readSector, run_bind_error (run_readBlock_error unread _)]⟩
  | false =>
    rw [openRawModel, readSector, run_bind_ok (run_readBlock_ok unread _)]
    generalize world.cells MODEL_FIXED_CACHE_LBA = header
    split
    · exact .inl ⟨1, rfl⟩
    next magic =>
    split
    · exact .inl ⟨1, rfl⟩
    next tag =>
    dsimp only
    split
    · exact .inl ⟨1, rfl⟩
    next same =>
    split
    · exact .inl ⟨1, rfl⟩
    split
    · exact .inl ⟨1, rfl⟩
    rw [run_bind_ok (run_getStatics _ _)]
    split
    · exact .inl ⟨1, rfl⟩
    rw [not_not.mp same]
    rcases verifyRawModelExtent_cases faults (world.tick 1) (leU64 header 8) with ⟨ticks, failed⟩ | ⟨ticks, verified⟩
    · exact .inl ⟨1 + ticks, by rw [← World.tick_tick]; exact run_bind_error failed _⟩
    · exact .inr ⟨⟨not_not.mp magic, not_not.mp tag⟩, 1 + ticks, by
        rw [← World.tick_tick]
        exact run_bind_ok verified _⟩

theorem run_tryLoad (faults : Faults) (alloc : Nat → Option Nat) (heap : Ram) (world : Disk) :
    ∃ ticks, (run faults (tryLoadRawModel false alloc heap) world).2 = (run faults openRawModel world).2.tick ticks := by
  rw [tryLoadRawModel, if_neg (by decide), run_bind]
  rcases run faults openRawModel world with ⟨_ | ⟨modelSize, _⟩, opened⟩
  · exact ⟨0, rfl⟩
  · dsimp only
    cases alloc (allocSize modelSize) with
    | none => exact ⟨0, rfl⟩
    | some base =>
      apply run_readOnly
      exact readOnly_bind (loadModelChunks_readOnly _ _ _ _) fun _ => readOnly_pure _

/-! Appends and erases. -/

def Above (db lba : Nat) (block : Sector) : Prop := db ≤ lba ∧ (lba = db → HeaderOk db block)

section Memory
variable {faults : Faults} {capacity db : Nat} {world : Disk} (inv : Invariant capacity world)
  (registered : world.statics.memoryDbHeaderLba = some db)
include inv registered

theorem append_above (data : List UInt8) : Extends (Above db) world (run faults (appendMemoryDb data) world).2 ∧
      (run faults (appendMemoryDb data) world).2.statics = world.statics := by
  obtain ⟨site, headerOk⟩ := inv.registered db registered
  apply append_extends_in inv registered
  intro opened after content opening
  obtain ⟨placed, free, low, below⟩ := appendOpen_ok headerOk opening
  simp only [dataLba] at low
  apply emits_append_in site.region placed free below
  · intro lba block first last
    exact ⟨by omega, by omega⟩
  · intro lba block first last
    exact ⟨by omega, by omega⟩
  · intro moved movedPlaced
    exact ⟨le_rfl, fun _ => headerOk_headerSector site.region movedPlaced⟩

theorem erase_above : Extends (Above db) world (run faults eraseMemoryDb world).2 ∧
      (run faults eraseMemoryDb world).2.statics = world.statics := by
  obtain ⟨⟨new, issued, allowed, changed⟩, statics⟩ := erase_extends faults inv registered
  exact ⟨⟨new, issued, fun write member => ⟨(allowed write member).1, (allowed write member).2.2⟩, changed⟩, statics⟩

end Memory

structure Stays (world after : Disk) : Prop where
  sound : Sound after
  statics : after.statics = world.statics
  above : ∀ db, world.statics.memoryDbHeaderLba = some db →
    ∀ write ∈ after.issued.drop world.issued.length, db ≤ write.1

theorem memory_stays (sound : Sound world)
    (unregistered : world.statics.memoryDbHeaderLba = none → after = world)
    (result : ∀ capacity db, Invariant capacity world → world.statics.memoryDbHeaderLba = some db →
      Extends (Above db) world after ∧ after.statics = world.statics) : Stays world after := by
  cases registered : world.statics.memoryDbHeaderLba with
  | none =>
    rw [unregistered registered]
    refine ⟨sound, rfl, ?_⟩
    simp [registered]
  | some db =>
    obtain ⟨capacity, ssd, -, headerOk⟩ := sound.headers db registered
    obtain ⟨wrote, statics⟩ := result capacity db (sound.invariant ssd) registered
    refine ⟨sound.kept statics fun other same => ?_, statics, ?_⟩
    · cases registered.symm.trans same
      obtain ⟨new, -, allowed, changed⟩ := wrote
      rcases changed db with kept | written
      · rw [kept]
        exact headerOk
      · exact (allowed _ written).2 rfl
    · intro other same write member
      cases registered.symm.trans same
      exact (wrote.dropped write member).1

theorem append_stays (sound : Sound world) (faults : Faults) (data : List UInt8) :
    Stays world (run faults (appendMemoryDb data) world).2 := by
  apply memory_stays sound
  · intro none
    rw [appendMemoryDb, run_bind_ok (run_getStatics faults world), none]
    rfl
  · exact fun capacity db inv registered => append_above inv registered data

theorem erase_stays (sound : Sound world) (faults : Faults) : Stays world (run faults eraseMemoryDb world).2 := by
  apply memory_stays sound
  · intro none
    rw [eraseMemoryDb, run_bind_ok (run_getStatics faults world), none]
    rfl
  · exact fun capacity db inv registered => erase_above inv registered

/-! Whole boots. -/

def Fitting (boot : Boot) : Action → Prop
  | .load _ _ _ => boot.modelInfo = false → HeaderReady (boot.world.cells MODEL_FIXED_CACHE_LBA) →
      Matches boot.world (leU64 (boot.world.cells MODEL_FIXED_CACHE_LBA) 8)
  | .cache _ _ modelSize => Matches boot.world modelSize
  | _ => True

structure Tracked (boot : Boot) : Prop where
  sound : Sound boot.world
  ensured : ∀ modelSize ∈ boot.ensured, boot.world.statics.memoryDbHeaderLba = some (firstFreeLba modelSize)

theorem Tracked.kept {modelInfo : Bool} (tracked : Tracked boot) (sound : Sound world)
    (statics : world.statics = boot.world.statics) : Tracked ⟨world, modelInfo, boot.ensured⟩ := by
  refine ⟨sound, fun modelSize member => ?_⟩
  rw [statics]
  exact tracked.ensured modelSize member

theorem tracked_ensure (faults : Faults) (ticks : Nat) {ensured : List Nat} {modelInfo : Bool}
    (sound : Sound world)
    (earlier : ∀ size ∈ ensured, world.statics.memoryDbHeaderLba = some (firstFreeLba size))
    (matching : Matches world modelSize) :
    Tracked ⟨(run faults (ensureBehind modelSize) world).2.tick ticks, modelInfo,
      recordEnsured ensured (.ok (modelSize, (run faults (ensureBehind modelSize) world).1))⟩ := by
  rcases ran : run faults (ensureBehind modelSize) world with ⟨outcome, after⟩
  obtain ⟨kept, older, registers⟩ := ensureBehind_sound sound ran
  refine ⟨kept.ticked ticks, fun size member => ?_⟩
  cases outcome with
  | error _ => exact older _ (earlier size member)
  | ok _ =>
    rcases mem_cons.mp member with rfl | member
    · exact registers matching rfl
    · exact older _ (earlier size member)

theorem tracked_load (faults : Faults) (alloc : Nat → Option Nat) (heap : Ram) (tracked : Tracked boot)
    (fitting : Fitting boot (.load faults alloc heap)) : Tracked (boot.load faults alloc heap) := by
  obtain ⟨world, modelInfo, ensured⟩ := boot
  cases modelInfo with
  | true => exact { tracked with }
  | false =>
    obtain ⟨more, after⟩ := run_tryLoad faults alloc heap world
    simp only [Boot.load, Bool.false_eq_true, if_false, after]
    rcases openRawModel_cases faults world with ⟨ticks, stopped⟩ | ⟨ready, ticks, opened⟩
    · rw [stopped]
      exact tracked.kept ((tracked.sound.ticked ticks).ticked more) rfl
    · rw [opened]
      exact tracked_ensure faults more (tracked.sound.ticked ticks) tracked.ensured (fitting rfl ready)

theorem protocol_below (model : Ram) (modelSize : Nat) :
    ∀ write ∈ protocolWrites model modelSize, write.1 < firstFreeLba modelSize := by
  have low : MODEL_FIXED_CACHE_LBA + 1 < firstFreeLba modelSize := Nat.lt_add_right _ (by decide)
  intro write member
  rcases mem_cons.mp member with rfl | member
  · exact low
  rcases mem_cons.mp member with rfl | member
  · exact Nat.lt_of_succ_lt low
  rcases mem_append.mp member with data | last
  · have bounds := place_bounds _ _ _ data
    rw [modelSectors_length] at bounds
    exact bounds.2
  · rw [mem_singleton.mp last]
    exact Nat.lt_of_succ_lt low

theorem sound_written {model : Ram} (count : Nat) (sound : Sound world) (matching : Matches world modelSize)
    (statics : after.statics = world.statics)
    (cells : after.cells = applyWrites ((protocolWrites model modelSize).take count) world.cells) : Sound after := by
  apply sound.kept statics
  intro db registered
  have own : db = firstFreeLba modelSize := by
    rcases matching with none | some
    · rw [none] at registered
      cases registered
    · rw [some] at registered
      exact (Option.some.inj registered).symm
  rw [cells, own, applyWrites_apart]
  · rw [← own]
    exact sound.headerOk registered
  · intro write member
    exact Nat.ne_of_lt (protocol_below model modelSize write (mem_of_mem_take member))

theorem tracked_cache (faults : Faults) (model : Ram) (modelSize : Nat) (tracked : Tracked boot)
    (matching : Matches boot.world modelSize) : Tracked (boot.cache faults model modelSize) := by
  rw [Boot.cache, run_writeRawModelCache]
  rcases run_cacheModel faults boot.world model modelSize with
    ⟨stored, _, _, _, after, failed, statics, cells, _⟩ | reached
  · rw [failed]
    exact tracked.kept (sound_written stored tracked.sound matching statics cells) statics
  · have written : Sound ((boot.world.store (protocolWrites model modelSize)).tick 1) :=
      sound_written (protocolWrites model modelSize).length tracked.sound matching rfl
        (by rw [take_length]; rfl)
    rw [reached, run_attempt]
    exact tracked_ensure faults 0 written tracked.ensured matching

theorem tracked_step (boot : Boot) (action : Action) (tracked : Tracked boot)
    (fitting : Fitting boot action) : Tracked (boot.step action) := by
  cases action with
  | load faults alloc heap => exact tracked_load faults alloc heap tracked fitting
  | cache faults model modelSize => exact tracked_cache faults model modelSize tracked fitting
  | append faults data =>
    obtain ⟨sound, statics, -⟩ := append_stays tracked.sound faults data
    exact tracked.kept sound statics
  | read faults bufLen =>
    obtain ⟨ticks, reads⟩ := run_readOnly (readMemoryDb_readOnly bufLen) faults boot.world
    rw [Boot.step, reads]
    exact tracked.kept (tracked.sound.ticked ticks) rfl
  | erase faults =>
    obtain ⟨sound, statics, -⟩ := erase_stays tracked.sound faults
    exact tracked.kept sound statics

theorem tracked_powerOn {ssdSectorCount : Option Nat}
    (word : ∀ capacity, ssdSectorCount = some capacity → capacity < WORD) (cells : Nat → Sector) :
    Tracked (powerOn ssdSectorCount cells) :=
  ⟨⟨word, fun db registered => by cases registered⟩, fun modelSize member => by cases member⟩

structure Belongs (boot : Boot) (modelSize : Nat) : Prop where
  registered : boot.world.statics.memoryDbHeaderLba = some (firstFreeLba modelSize)
  append : ∀ faults data, ∀ write ∈ (run faults (appendMemoryDb data) boot.world).2.issued.drop
    boot.world.issued.length, firstFreeLba modelSize ≤ write.1
  erase : ∀ faults, ∀ write ∈ (run faults eraseMemoryDb boot.world).2.issued.drop boot.world.issued.length,
    firstFreeLba modelSize ≤ write.1

/-- With one model size in a boot, the database in use is the one behind that model. -/
theorem registered_db_belongs {ssdSectorCount : Option Nat}
    (word : ∀ capacity, ssdSectorCount = some capacity → capacity < WORD) (cells : Nat → Sector) (actions : List Action)
    (fitting : Guarded Boot.step Fitting (powerOn ssdSectorCount cells) actions) :
    ∀ modelSize ∈ (actions.foldl Boot.step (powerOn ssdSectorCount cells)).ensured,
      Belongs (actions.foldl Boot.step (powerOn ssdSectorCount cells)) modelSize := by
  intro modelSize ensured
  have tracked := fitting.preserves tracked_step (tracked_powerOn word cells)
  have registered := tracked.ensured modelSize ensured
  refine ⟨registered, fun faults data => ?_, fun faults => ?_⟩
  · exact (append_stays tracked.sound faults data).above _ registered
  · exact (erase_stays tracked.sound faults).above _ registered

structure Current (cells : Nat → Sector) (modelSize : Nat) : Prop where
  ready : HeaderReady (cells MODEL_FIXED_CACHE_LBA)
  start : leU64 (cells MODEL_FIXED_CACHE_LBA) 16 = MODEL_DATA_LBA
  size : leU64 (cells MODEL_FIXED_CACHE_LBA) 8 = modelSize

section Formats
variable (ssd : boot.world.statics.ssdSectorCount = some capacity) (site : Site (firstFreeLba modelSize) capacity)
  (blank : decodeHeader (boot.world.cells (firstFreeLba modelSize)) = .error ())

include ssd site blank

omit boot ssd blank in
theorem ensureBehind_formats (ssd : world.statics.ssdSectorCount = some capacity)
    (blank : decodeHeader (world.cells (firstFreeLba modelSize)) = .error ()) :
    ∃ after, run Faults.none (ensureBehind modelSize) world = (.ok (), after) ∧
      after.statics = (register (firstFreeLba modelSize) world).statics ∧
      ∀ lba, lba < firstFreeLba modelSize ∨ firstFreeLba modelSize + MEMORY_DB_TOTAL_SECTORS ≤ lba →
        after.cells lba = world.cells lba := by
  have word : ∀ found, world.statics.ssdSectorCount = some found → found < WORD := by
    intro found known
    cases ssd.symm.trans known
    exact site.word
  have last : MODEL_DATA_LBA + (sectorsForBytes modelSize - 1) < WORD := by
    have region := site.region
    rw [firstFreeLba] at region
    omega
  obtain ⟨ticks, formatted⟩ := run_ensure_formats site (show MODEL_DATA_LBA < WORD by decide) last ssd blank
  have ensured : run Faults.none (ensureBehind modelSize) world = _ := formatted
  have outside := format_outside (ensureBehind_extends Faults.none word modelSize)
  rw [ensured] at outside
  exact ⟨_, ensured, rfl, outside⟩

theorem cache_formats (model : Ram) (sized : modelSize < WORD) :
    (boot.cache Faults.none model modelSize).ensured = modelSize :: boot.ensured ∧
      Current (boot.cache Faults.none model modelSize).world.cells modelSize ∧
      (boot.cache Faults.none model modelSize).world.statics.memoryDbHeaderLba =
        boot.world.statics.memoryDbHeaderLba.or (some (firstFreeLba modelSize)) := by
  have range : rawModelRangeFits boot.world.statics.ssdSectorCount MODEL_DATA_LBA modelSize = true := by
    have below : firstFreeLba modelSize ≤ capacity := le_trans (Nat.le_add_right _ _) site.fits
    have sum : checkedAdd MODEL_DATA_LBA (sectorsForBytes modelSize) = some (firstFreeLba modelSize) :=
      if_pos (lt_of_le_of_lt (Nat.le_add_right (firstFreeLba modelSize) _) site.region)
    simp [rawModelRangeFits, ssd, sum, below]
  have noHeader : decodeHeader (((boot.world.store (protocolWrites model modelSize)).tick 1).cells
      (firstFreeLba modelSize)) = .error () := by
    rw [World.tick_cells, World.store_cells, applyWrites_apart, blank]
    exact fun write member => Nat.ne_of_lt (protocol_below model modelSize write member)
  obtain ⟨after, ensured, statics, outside⟩ := ensureBehind_formats site
    (show ((boot.world.store (protocolWrites model modelSize)).tick 1).statics.ssdSectorCount = _ from ssd) noHeader
  have ran := run_cacheModel_ok Faults.none_writesWork Faults.none_readsWork range model
  have kept := outside MODEL_FIXED_CACHE_LBA (.inl (Nat.lt_add_right _ (by decide)))
  have fields := modelHeader_fields MODEL_MAGIC_READY sized (show MODEL_DATA_LBA < WORD by decide)
  rw [World.tick_cells, World.store_cells, (cached_protocol boot.world.cells model modelSize).header] at kept
  rw [run_attempt, ensured] at ran
  rw [Boot.cache, run_writeRawModelCache, ran]
  refine ⟨rfl, ⟨?_, ?_, ?_⟩, congrArg Statics.memoryDbHeaderLba statics⟩
  · rw [kept]
    exact modelHeader_ready _ _
  · rw [kept]
    exact fields.2
  · rw [kept]
    exact fields.1

theorem load_formats (alloc : Nat → Option Nat) (heap : Ram) (unloaded : boot.modelInfo = false)
    (header : boot.world.cells MODEL_FIXED_CACHE_LBA = modelHeader MODEL_MAGIC_READY modelSize MODEL_DATA_LBA)
    (large : MIN_RAW_MODEL_SIZE ≤ modelSize) (small : modelSize ≤ MAX_RAW_MODEL_SIZE) :
    (boot.load Faults.none alloc heap).world.statics = (register (firstFreeLba modelSize) boot.world).statics ∧
      ∀ lba, firstFreeLba modelSize + MEMORY_DB_TOTAL_SECTORS ≤ lba →
        (boot.load Faults.none alloc heap).world.cells lba = boot.world.cells lba := by
  have fits : firstFreeLba modelSize ≤ capacity := le_trans (Nat.le_add_right _ _) site.fits
  obtain ⟨more, after⟩ := run_tryLoad Faults.none alloc heap boot.world
  obtain ⟨ticks, opened⟩ := run_openRawModel Faults.none_readsWork site.word ssd header large small fits
  obtain ⟨last, ensured, statics, outside⟩ := ensureBehind_formats site
    (show (boot.world.tick ticks).statics.ssdSectorCount = _ from ssd) blank
  have world : (boot.load Faults.none alloc heap).world =
      (run Faults.none (tryLoadRawModel boot.modelInfo alloc heap) boot.world).2 := rfl
  rw [unloaded, after, opened, ensured] at world
  rw [world]
  exact ⟨statics, fun lba high => outside lba (.inr high)⟩

end Formats

def cacheThenUse : List Action :=
  [.cache Faults.none sampleModel 512, .append Faults.none [1, 2, 3], .erase Faults.none, .append Faults.none [4]]

theorem registered_db_belongs_fresh :
    512 ∈ (cacheThenUse.foldl Boot.step (powerOn (some 200000) fun _ => zeros)).ensured ∧
      Belongs (cacheThenUse.foldl Boot.step (powerOn (some 200000) fun _ => zeros)) 512 := by
  have site : Site (firstFreeLba 512) 200000 := ⟨by decide, by decide⟩
  have ssd : (powerOn (some 200000) fun _ => zeros).world.statics.ssdSectorCount = some 200000 := rfl
  have cached := (cache_formats ssd site decodeHeader_zeros sampleModel (by decide)).1
  have appended (boot : Boot) (data : List UInt8) : (boot.step (.append Faults.none data)).ensured = boot.ensured := rfl
  have erased (boot : Boot) : (boot.step (.erase Faults.none)).ensured = boot.ensured := rfl
  have member : 512 ∈ (cacheThenUse.foldl Boot.step (powerOn (some 200000) fun _ => zeros)).ensured := by
    rw [cacheThenUse, foldl_cons, foldl_cons, foldl_cons, foldl_cons, foldl_nil, appended, erased, appended, Boot.step, cached]
    exact mem_cons_self
  refine ⟨member, registered_db_belongs ?_ _ _ ?_ 512 member⟩
  · rintro capacity ⟨⟩
    decide
  · exact ⟨.inl rfl, trivial, trivial, trivial, trivial⟩

def staleCells (lba : Nat) : Sector :=
  if lba = MODEL_FIXED_CACHE_LBA then modelHeader MODEL_MAGIC_READY MIN_RAW_MODEL_SIZE MODEL_DATA_LBA else zeros

def staleBoot : Boot :=
  [Action.load Faults.none (fun _ => none) fun _ => 0, .cache Faults.none sampleModel (2 * MIN_RAW_MODEL_SIZE)].foldl
    Boot.step (powerOn (some 5000000) staleCells)

theorem failed_load_registers_stale_db :
    2 * MIN_RAW_MODEL_SIZE ∈ staleBoot.ensured ∧ Current staleBoot.world.cells (2 * MIN_RAW_MODEL_SIZE) ∧
      staleBoot.world.statics.memoryDbHeaderLba = some (firstFreeLba MIN_RAW_MODEL_SIZE) ∧
      firstFreeLba MIN_RAW_MODEL_SIZE ≠ firstFreeLba (2 * MIN_RAW_MODEL_SIZE) ∧
      InExtent MODEL_DATA_LBA (2 * MIN_RAW_MODEL_SIZE) (firstFreeLba MIN_RAW_MODEL_SIZE) := by
  have blank : ∀ lba, lba ≠ MODEL_FIXED_CACHE_LBA → (powerOn (some 5000000) staleCells).world.cells lba = zeros := by
    intro lba apart
    change staleCells lba = zeros
    rw [staleCells, if_neg apart]
  have stale : (powerOn (some 5000000) staleCells).world.cells MODEL_FIXED_CACHE_LBA =
      modelHeader MODEL_MAGIC_READY MIN_RAW_MODEL_SIZE MODEL_DATA_LBA := by
    change staleCells MODEL_FIXED_CACHE_LBA = _
    rw [staleCells, if_pos rfl]
  obtain ⟨statics, behind⟩ := load_formats rfl ⟨by decide, by decide⟩
    (by rw [blank _ (by decide), decodeHeader_zeros]) (fun _ => none) (fun _ => 0) rfl stale le_rfl (by decide)
  have site : Site (firstFreeLba (2 * MIN_RAW_MODEL_SIZE)) 5000000 := ⟨by decide, by decide⟩
  obtain ⟨ensured, current, registered⟩ := cache_formats (by rw [statics]; rfl) site
    (by rw [behind _ (by decide), blank _ (by decide), decodeHeader_zeros]) sampleModel (by decide)
  refine ⟨?_, current, ?_, by decide, by decide, by decide⟩
  · have member : 2 * MIN_RAW_MODEL_SIZE ∈ staleBoot.ensured ↔ _ := Iff.of_eq (congrArg (_ ∈ ·) ensured)
    exact member.mpr mem_cons_self
  · exact registered

end HermitLocal.Ahci.Registration
