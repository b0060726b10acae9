import HermitLocal.Ahci.Format

/-! Where the operations write, on any disk content and with any access failing.
The invariant over whole runs is that the sector of the registered header is no
header at all or one that locates the registered database; from it every
operation stays in its reserved range, provided an append fits that range. -/

namespace HermitLocal.Ahci.Confinement
open Lib.Wire Lib.BlockProgram Lib.BlockProgram.Program List
open Ahci.Layout Ahci.MemoryDb Ahci.Plan Ahci.Log
open Ahci.Recovery Ahci.Append Ahci.AppendRun Ahci.Format

inductive Operation where
  | append (data : List UInt8)
  | read (bufLen : Nat)
  | erase
  | ensure (dbLba modelStartLba modelLastLba : Nat)
  | reboot

def rebootMachine : Driver Unit := do
  let statics ← getStatics
  setStatics { statics with memoryDbHeaderLba := none }

def Operation.program : Operation → Driver Unit
  | .append data => do
      let _ ← appendMemoryDb data
      pure ()
  | .read bufLen => do
      let _ ← readMemoryDb bufLen
      pure ()
  | .erase => eraseMemoryDb
  | .ensure dbLba modelStartLba modelLastLba => ensureMemoryDb dbLba modelStartLba modelLastLba
  | .reboot => rebootMachine

structure Call where
  operation : Operation
  faults : Faults

def Call.step (call : Call) (world : Disk) : Disk := (run call.faults call.operation.program world).2

def Call.writes (call : Call) (world : Disk) : List (Nat × Sector) :=
  (call.step world).issued.drop world.issued.length

def Operation.target (operation : Operation) (statics : Statics) : Option Nat :=
  match operation with
  | .ensure dbLba _ _ => some dbLba
  | _ => statics.memoryDbHeaderLba

def Inside (db capacity lba : Nat) : Prop :=
  db ≤ lba ∧ lba < db + MEMORY_DB_TOTAL_SECTORS ∧ lba < capacity

def RunConfined (capacity : Nat) : List Call → Disk → Prop
  | [], _ => True
  | call :: rest, world =>
      (∀ write ∈ call.writes world, ∃ db, call.operation.target world.statics = some db ∧
        Inside db capacity write.1) ∧ RunConfined capacity rest (call.step world)

def Call.Fits (call : Call) (world : Disk) : Prop :=
  ∀ data db opened after, call.operation = .append data → 0 < data.length →
    world.statics.memoryDbHeaderLba = some db → run call.faults (appendOpen db) world = (.ok opened, after) →
    opened.1.nextAppendLba + sectorsForBytes data.length ≤ db + MEMORY_DB_TOTAL_SECTORS

def AppendsFit : List Call → Disk → Prop
  | [], _ => True
  | call :: rest, world => call.Fits world ∧ AppendsFit rest (call.step world)

structure Invariant (capacity : Nat) (world : Disk) : Prop where
  ssd : world.statics.ssdSectorCount = some capacity
  registered : ∀ db, world.statics.memoryDbHeaderLba = some db →
    Site db capacity ∧ HeaderOk db (world.cells db)

def Allowed (db lba : Nat) (block : Sector) : Prop :=
  db ≤ lba ∧ lba < db + MEMORY_DB_TOTAL_SECTORS ∧ (lba = db → HeaderOk db block)

variable {db capacity : Nat} {state : MemoryDbHeader} {allowed : Nat → Sector → Prop} {world after : Disk}
  {faults : Faults} {data payload : List UInt8}

theorem emits_writeHeader (placed : Placed db state) (fine : allowed db (headerSector state)) :
    (memoryDbWriteHeader state).Emits allowed := by
  apply emits_bind (show Emits allowed getStatics from fun _ => trivial)
  intro statics
  cases statics.memoryDbHeaderLba with
  | none => trivial
  | some dbLba =>
    dsimp only
    split
    · trivial
    next same =>
      rw [← not_not.mp same, placed.headerLba]
      exact emits_writeBlock fine

theorem open_ok (headerOk : HeaderOk db (world.cells db))
    (ran : run faults (memoryDbOpen db) world = (.ok state, after)) : Placed db state := by
  obtain ⟨found, middle, header, rest⟩ := run_bind_inv ran
  obtain ⟨sector, read, gotSector, decoded⟩ := run_bind_inv header
  have placed : Placed db found := by
    rw [readSector, run_readBlock] at gotSector
    simp only [Prod.mk.injEq] at gotSector
    split at gotSector
    · exact absurd gotSector.1 (by simp)
    · rw [← Except.ok.inj gotSector.1] at decoded
      exact headerOk found (congrArg Prod.fst decoded)
  split at rest
  · cases rest
  · obtain ⟨recovery, _, recovered, done⟩ := run_bind_inv rest
    obtain ⟨other, ticks, same, otherPlaced⟩ := recover_placed faults placed middle
    rw [same] at recovered
    cases recovered
    cases done
    exact otherPlaced

theorem appendOpen_ok {opened : MemoryDbHeader × Nat} (headerOk : HeaderOk db (world.cells db))
    (ran : run faults (appendOpen db) world = (.ok opened, after)) :
    Placed db opened.1 ∧ opened.1.mapEntriesUsed < memoryDbMapEntryCapacity ∧
      dataLba db ≤ opened.1.nextAppendLba ∧ opened.1.nextAppendLba ≤ opened.2 := by
  obtain ⟨state, middle, header, rest⟩ := run_bind_inv ran
  have placed := open_ok headerOk header
  rw [run_bind_ok (run_getStatics faults middle)] at rest
  split at rest
  · cases rest
  · rename_i free
    split at rest
    · cases rest
    · simp only at rest
      split at rest
      · cases rest
      · rename_i inside
        obtain ⟨notBelow, notAbove⟩ := not_or.mp inside
        cases rest
        rw [← placed.dataLba]
        exact ⟨placed, Nat.not_le.mp free, Nat.not_lt.mp notBelow, (Nat.not_le.mp notAbove).le⟩

section
variable (region : db + MEMORY_DB_TOTAL_SECTORS < WORD) (placed : Placed db state)
  (free : state.mapEntriesUsed < memoryDbMapEntryCapacity)

include region placed free

theorem emits_append_in {limit : Nat} (below : state.nextAppendLba ≤ limit)
    (payload : ∀ lba block, state.nextAppendLba ≤ lba → lba < state.nextAppendLba + sectorsForBytes data.length →
      allowed lba block) (map : ∀ lba block, db < lba → lba < db + MEMORY_DB_TOTAL_SECTORS → allowed lba block)
    (header : ∀ moved, Placed db moved → allowed db (headerSector moved)) : Emits allowed (do
      let finished ← appendChunks limit data 0 state.nextAppendLba
      appendCommit state data.length finished.2
      pure finished.1 : Driver Nat) := by
  have room := dataLba_lt db
  have bounds := entryLba_bounds db state.mapEntriesUsed free
  have chunks : (appendChunks limit data 0 state.nextAppendLba).Emits allowed := by
    rw [appendChunks_eq _ _ _ _ below]
    refine emits_bind (emits_writeAll fun write member => ?_) fun _ => ?_
    · have inside := dataWrites_bounds _ _ write (mem_of_mem_take member)
      exact payload _ _ inside.1 inside.2
    · split <;> trivial
  refine emits_bind chunks fun finished => emits_bind ?_ fun _ => trivial
  refine emits_bind trivial fun payload => emits_bind ?_ fun _ => ?_
  · simp only [memoryDbWriteMapEntry, memoryDbMapEntryLocation_ok _ free, placed.mapLba, lift_ok, pure_bind,
      readSector]
    refine emits_bind (emits_readBlock _ _) fun sector => emits_writeBlock ?_
    rw [satAdd_entry db _ region free]
    exact map _ _ (by omega) (by omega)
  · have moved : Placed db { state with
        mapEntriesUsed := state.mapEntriesUsed + 1, nextAppendLba := finished.2 } :=
      { placed with }
    refine emits_bind ?_ fun _ => emits_writeHeader moved (header _ moved)
    rw [moved.mapLba]
    exact emits_writeBlock (map _ _ (by omega) (by omega))

theorem emits_append {limit : Nat} (low : dataLba db ≤ state.nextAppendLba)
    (below : state.nextAppendLba ≤ limit)
    (fits : state.nextAppendLba + sectorsForBytes data.length ≤ db + MEMORY_DB_TOTAL_SECTORS) :
    Emits (Allowed db) (do
      let finished ← appendChunks limit data 0 state.nextAppendLba
      appendCommit state data.length finished.2
      pure finished.1 : Driver Nat) := by
  have room := dataLba_lt db
  simp only [dataLba] at low room
  apply emits_append_in region placed free below
  · intro lba block first last
    exact ⟨by omega, by omega, by omega⟩
  · intro lba block first last
    exact ⟨by omega, last, by omega⟩
  · intro moved movedPlaced
    exact ⟨le_rfl, by omega, fun _ => headerOk_headerSector region movedPlaced⟩

end

/-! One operation. -/

theorem Invariant.statics (inv : Invariant capacity world)
    (registered : world.statics.memoryDbHeaderLba = some db) : world.statics = ⟨some capacity, some db⟩ := by
  rw [← inv.ssd, ← registered]

theorem Invariant.kept (inv : Invariant capacity world) (statics : after.statics = world.statics)
    (headers : ∀ db, world.statics.memoryDbHeaderLba = some db → HeaderOk db (after.cells db)) :
    Invariant capacity after := by
  refine ⟨by rw [statics, inv.ssd], fun db registered => ?_⟩
  rw [statics] at registered
  exact ⟨(inv.registered db registered).1, headers db registered⟩

theorem Invariant.ticked (inv : Invariant capacity world) (ticks : Nat) :
    Invariant capacity (world.tick ticks) :=
  inv.kept rfl fun db registered => (inv.registered db registered).2

theorem allowed_header (extended : Extends (Allowed db) world after) (headerOk : HeaderOk db (world.cells db)) :
    HeaderOk db (after.cells db) := by
  obtain ⟨new, _, fine, changed⟩ := extended
  rcases changed db with same | written
  · rw [same]
    exact headerOk
  · exact (fine _ written).2.2 rfl

theorem append_extends_in (inv : Invariant capacity world)
    (registered : world.statics.memoryDbHeaderLba = some db)
    (emits : ∀ opened after, 0 < data.length → run faults (appendOpen db) world = (.ok opened, after) →
      Emits allowed (do
        let finished ← appendChunks opened.2 data 0 opened.1.nextAppendLba
        appendCommit opened.1 data.length finished.2
        pure finished.1 : Driver Nat)) : Extends allowed world (run faults (appendMemoryDb data) world).2 ∧
      (run faults (appendMemoryDb data) world).2.statics = world.statics := by
  have statics := inv.statics registered
  rcases Nat.eq_zero_or_pos data.length with empty | content
  · rw [length_eq_zero_iff.mp empty, run_append_nil faults statics]
    exact ⟨Extends.same rfl rfl, rfl⟩
  · rw [run_append_registered faults statics content]
    obtain ⟨ticks, reads⟩ := run_readOnly (appendOpen_readOnly db) faults world
    rcases opening : run faults (appendOpen db) world with ⟨_ | opened, after⟩
    · rw [run_bind_error opening]
      rw [opening] at reads
      rw [reads]
      exact ⟨Extends.same rfl rfl, rfl⟩
    · rw [run_bind_ok opening]
      rw [opening] at reads
      simp only at reads
      obtain ⟨later, kept⟩ := run_emits (emits opened after content opening) faults after
      rw [reads] at later kept ⊢
      exact ⟨(Extends.same rfl rfl).trans later, kept⟩

theorem append_extends (inv : Invariant capacity world) (registered : world.statics.memoryDbHeaderLba = some db)
    (fits : ∀ opened after, 0 < data.length → run faults (appendOpen db) world = (.ok opened, after) →
      opened.1.nextAppendLba + sectorsForBytes data.length ≤ db + MEMORY_DB_TOTAL_SECTORS) :
    Extends (Allowed db) world (run faults (appendMemoryDb data) world).2 ∧
      (run faults (appendMemoryDb data) world).2.statics = world.statics := by
  obtain ⟨site, headerOk⟩ := inv.registered db registered
  apply append_extends_in inv registered
  intro opened after content opening
  obtain ⟨placed, free, low, below⟩ := appendOpen_ok headerOk opening
  exact emits_append site.region placed free low below (fits opened after content opening)

theorem emits_zeros_headers {start count : Nat} {first second : Nat × Sector}
    (zeroed : ∀ lba, start ≤ lba → lba < start + count → allowed lba zeros) (one : allowed first.1 first.2)
    (two : allowed second.1 second.2) :
    (writeAll (place start (replicate count zeros) ++ [first, second]) : Driver Unit).Emits allowed := by
  apply emits_writeAll
  intro write member
  rcases mem_append.mp member with among | headers
  · have bounds := place_bounds _ _ _ among
    rw [length_replicate] at bounds
    rw [eq_of_mem_replicate (place_values _ _ _ among)]
    exact zeroed write.1 bounds.1 bounds.2
  · rcases mem_cons.mp headers with rfl | last
    · exact one
    · rw [mem_singleton.mp last]
      exact two

theorem emits_erase (site : Site db capacity) :
    (writeAll (eraseWrites db capacity state) : Driver Unit).Emits (Allowed db) := by
  have room := dataLba_lt db
  simp only [dataLba] at room
  apply emits_zeros_headers
  · exact fun lba low high => ⟨low, high, fun _ => headerOk_of_error decodeHeader_zeros⟩
  · exact ⟨by omega, by omega, by omega⟩
  · exact ⟨le_rfl, by omega, fun _ => headerOk_headerSector site.region freshHeader_placed⟩

theorem erase_extends (faults : Faults) (inv : Invariant capacity world)
    (registered : world.statics.memoryDbHeaderLba = some db) :
    Extends (Allowed db) world (run faults eraseMemoryDb world).2 ∧
      (run faults eraseMemoryDb world).2.statics = world.statics := by
  obtain ⟨site, headerOk⟩ := inv.registered db registered
  rcases run_erase_cases faults site (inv.statics registered) headerOk with stopped | ⟨state, _, _, wrote⟩
  · rw [stopped]
    exact ⟨Extends.same rfl rfl, rfl⟩
  · rw [wrote]
    obtain ⟨later, kept⟩ := run_emits (emits_erase site) faults (world.tick 1)
    exact ⟨(Extends.same rfl rfl).trans later, kept⟩

def AllowedFormat (db lba : Nat) (block : Sector) : Prop :=
  db ≤ lba ∧ lba < db + MEMORY_DB_TOTAL_SECTORS ∧ HeaderOk lba block

theorem format_header {other : Nat} (extended : Extends (AllowedFormat db) world after)
    (headerOk : HeaderOk other (world.cells other)) : HeaderOk other (after.cells other) := by
  obtain ⟨new, _, fine, changed⟩ := extended
  rcases changed other with same | written
  · rw [same]
    exact headerOk
  · exact (fine _ written).2.2

theorem allowedFormat_mapHeader (db count : Nat) : AllowedFormat db (db + 1) (mapHeaderSector count) := by
  have room := dataLba_lt db
  simp only [dataLba] at room
  exact ⟨by omega, by omega, headerOk_of_error (decodeHeader_mapHeaderSector count)⟩

theorem allowedFormat_header (site : Site db capacity) (placed : Placed db state) :
    AllowedFormat db db (headerSector state) := by
  have room := dataLba_lt db
  simp only [dataLba] at room
  exact ⟨le_rfl, by omega, headerOk_headerSector site.region placed⟩

theorem emits_freshWrites (site : Site db capacity) (modelStartLba modelLastLba : Nat) :
    (writeAll (freshWrites db capacity modelStartLba modelLastLba) : Driver Unit).Emits (AllowedFormat db) := by
  have room := dataLba_lt db
  simp only [dataLba] at room
  apply emits_zeros_headers
  · exact fun lba low high => ⟨by omega, by omega, headerOk_of_error decodeHeader_zeros⟩
  · exact allowedFormat_mapHeader db 0
  · exact allowedFormat_header site freshHeader_placed

theorem fresh_extends {modelStartLba modelLastLba : Nat} {outcome : Except Unit Unit} (site : Site db capacity)
    (ran : run faults (ensureFresh db (db + 1) (dataLba db) capacity modelStartLba modelLastLba) world =
      (outcome, after)) : Extends (AllowedFormat db) world after ∧ (after.statics = world.statics ∨
      after.statics = (register db world).statics ∧ HeaderOk db (after.cells db)) := by
  obtain ⟨wrote, kept⟩ := run_emits (emits_freshWrites site modelStartLba modelLastLba) faults world
  rw [ensureFresh_eq] at ran
  rcases run_writeAll_cases faults (freshWrites db capacity modelStartLba modelLastLba) world with
    ⟨_, stored⟩ | ⟨k, _, _, failed⟩
  · rw [run_bind_ok stored, readSector] at ran
    rw [stored] at wrote
    have reread : Extends (AllowedFormat db) world
        ((world.store (freshWrites db capacity modelStartLba modelLastLba)).tick 1) :=
      wrote.trans (Extends.same rfl rfl)
    cases answered : faults.reads (world.store (freshWrites db capacity modelStartLba modelLastLba)).reads with
    | true =>
      rw [run_bind_error (run_readBlock_error answered db)] at ran
      cases ran
      exact ⟨reread, .inl rfl⟩
    | false =>
      rw [run_bind_ok (run_readBlock_ok answered db)] at ran
      split at ran
      · cases ran
        exact ⟨reread, .inl rfl⟩
      · cases ran
        refine ⟨reread, .inr ⟨rfl, ?_⟩⟩
        change HeaderOk db (applyWrites _ world.cells db)
        rw [freshWrites, (headers_written rfl _).1]
        exact headerOk_headerSector site.region freshHeader_placed
  · rw [run_bind_error failed] at ran
    rw [failed] at wrote kept
    cases ran
    exact ⟨wrote, .inl kept⟩

theorem keep_extends {count : Nat} {outcome : Except Unit Unit} (site : Site db capacity)
    (placed : Placed db state) (here : HeaderOk db (world.cells db)) (ran : run faults (do
      memoryDbWriteMapHeader (db + 1) count
      memoryDbRegisterState db
      memoryDbWriteHeader state) world = (outcome, after)) :
    Extends (AllowedFormat db) world after ∧ (after.statics = world.statics ∨
      after.statics = (register db world).statics ∧ HeaderOk db (after.cells db)) := by
  have counting : (memoryDbWriteMapHeader (db + 1) count).Emits (AllowedFormat db) :=
    emits_writeBlock (allowedFormat_mapHeader db count)
  obtain ⟨counted, kept⟩ := run_emits counting faults world
  rcases first : run faults (memoryDbWriteMapHeader (db + 1) count) world with ⟨_ | _, middle⟩
  · rw [run_bind_error first] at ran
    rw [first] at counted kept
    cases ran
    exact ⟨counted, .inl kept⟩
  · rw [run_bind_ok first, run_bind_ok (run_registerState _ _ _)] at ran
    rw [first] at counted kept
    obtain ⟨wrote, same⟩ := run_emits (emits_writeHeader placed (allowedFormat_header site placed)) faults
      (register db middle)
    rw [ran] at wrote same
    have all : Extends (AllowedFormat db) world after :=
      counted.trans ((Extends.same rfl rfl).trans wrote)
    refine ⟨all, .inr ⟨?_, format_header all here⟩⟩
    rw [same, register, register, kept]

theorem ensure_extends (faults : Faults) (word : capacity < WORD)
    (ssd : world.statics.ssdSectorCount = some capacity) (db modelStartLba modelLastLba : Nat) :
    Extends (AllowedFormat db) world (run faults (ensureMemoryDb db modelStartLba modelLastLba) world).2 ∧
      ((run faults (ensureMemoryDb db modelStartLba modelLastLba) world).2.statics = world.statics ∨
        (run faults (ensureMemoryDb db modelStartLba modelLastLba) world).2.statics = (register db world).statics ∧
          Site db capacity ∧
          HeaderOk db ((run faults (ensureMemoryDb db modelStartLba modelLastLba) world).2.cells db)) := by
  by_cases site : Site db capacity
  · rcases ran : run faults (ensureMemoryDb db modelStartLba modelLastLba) world with ⟨outcome, after⟩
    have result : Extends (AllowedFormat db) world after ∧ (after.statics = world.statics ∨
        after.statics = (register db world).statics ∧ HeaderOk db (after.cells db)) := by
      rcases run_ensure_paths faults site ssd modelStartLba modelLastLba with
        ⟨ticks, fresh⟩ | ⟨ticks, count, state, placed, here, kept⟩
      · obtain ⟨wrote, statics⟩ := fresh_extends site (fresh.symm.trans ran)
        exact ⟨(Extends.same rfl rfl).trans wrote, statics⟩
      · have found : HeaderOk db ((world.tick ticks).cells db) := headerOk_of_placed here
        obtain ⟨wrote, statics⟩ := keep_extends site placed found (kept.symm.trans ran)
        exact ⟨(Extends.same rfl rfl).trans wrote, statics⟩
    exact ⟨result.1, result.2.imp_right fun registered => ⟨registered.1, site, registered.2⟩⟩
  · rw [run_ensure_outside faults word site ssd]
    exact ⟨Extends.same rfl rfl, .inl rfl⟩

theorem ensure_step (faults : Faults) (word : capacity < WORD) (inv : Invariant capacity world)
    (db modelStartLba modelLastLba : Nat) :
    (Extends (AllowedFormat db) world (run faults (ensureMemoryDb db modelStartLba modelLastLba) world).2 ∧
      (Site db capacity ∨ (run faults (ensureMemoryDb db modelStartLba modelLastLba) world).2 = world)) ∧
      Invariant capacity (run faults (ensureMemoryDb db modelStartLba modelLastLba) world).2 ∧
      ∀ other, (run faults (ensureMemoryDb db modelStartLba modelLastLba) world).2.statics.memoryDbHeaderLba =
        some other → some db = some other ∨ world.statics.memoryDbHeaderLba = some other := by
  obtain ⟨wrote, statics⟩ := ensure_extends faults word inv.ssd db modelStartLba modelLastLba
  have place : Site db capacity ∨ (run faults (ensureMemoryDb db modelStartLba modelLastLba) world).2 = world := by
    by_cases site : Site db capacity
    · exact .inl site
    · exact .inr (by rw [run_ensure_outside faults word site inv.ssd])
  refine ⟨⟨wrote, place⟩, ?_⟩
  generalize (run faults (ensureMemoryDb db modelStartLba modelLastLba) world).2 = after at wrote statics
  have older : ∀ other, world.statics.memoryDbHeaderLba = some other → HeaderOk other (after.cells other) :=
    fun other registered => format_header wrote (inv.registered other registered).2
  rcases statics with same | ⟨registered, site, headerOk⟩
  · exact ⟨inv.kept same older, fun other found => .inr (by rw [← same]; exact found)⟩
  · -- the first registration wins, so the database registered now was there before or is this one
    have origin : ∀ other, after.statics.memoryDbHeaderLba = some other →
        some db = some other ∨ world.statics.memoryDbHeaderLba = some other := by
      intro other found
      rw [registered] at found
      cases earlier : world.statics.memoryDbHeaderLba with
      | none => exact .inl (by simpa [register, earlier] using found)
      | some first => exact .inr (by simpa [register, earlier] using found)
    refine ⟨⟨by rw [registered]; exact inv.ssd, fun other found => ?_⟩, origin⟩
    rcases origin other found with here | earlier
    · cases here
      exact ⟨site, headerOk⟩
    · exact ⟨(inv.registered other earlier).1, older other earlier⟩

/-! Whole runs. -/

theorem registered_step (inv : Invariant capacity world)
    (unregistered : world.statics.memoryDbHeaderLba = none → after = world)
    (result : ∀ db, world.statics.memoryDbHeaderLba = some db →
      Extends (Allowed db) world after ∧ after.statics = world.statics) :
    (∀ write ∈ after.issued.drop world.issued.length, ∃ db, world.statics.memoryDbHeaderLba = some db ∧
      Inside db capacity write.1) ∧ Invariant capacity after ∧ after.statics = world.statics := by
  cases registered : world.statics.memoryDbHeaderLba with
  | none =>
    rw [unregistered registered]
    exact ⟨by simp, inv, rfl⟩
  | some db =>
    obtain ⟨wrote, statics⟩ := result db registered
    obtain ⟨site, headerOk⟩ := inv.registered db registered
    refine ⟨fun write member => ⟨db, rfl, ?_⟩, inv.kept statics fun other found => ?_, statics⟩
    · obtain ⟨low, high, _⟩ := wrote.dropped write member
      exact ⟨low, high, lt_of_lt_of_le high site.fits⟩
    · cases registered.symm.trans found
      exact allowed_header wrote headerOk

theorem call_step (word : capacity < WORD) (inv : Invariant capacity world) (call : Call)
    (fits : call.Fits world) :
    (∀ write ∈ call.writes world, ∃ db, call.operation.target world.statics = some db ∧
      Inside db capacity write.1) ∧ Invariant capacity (call.step world) ∧
      ∀ other, (call.step world).statics.memoryDbHeaderLba = some other →
        call.operation.target world.statics = some other ∨ world.statics.memoryDbHeaderLba = some other := by
  obtain ⟨operation, faults⟩ := call
  simp only [Call.writes, Call.step, Operation.target]
  cases operation with
  | append data =>
    simp only [Operation.program, run_discard]
    have unregistered : world.statics.memoryDbHeaderLba = none →
        (run faults (appendMemoryDb data) world).2 = world := by
      intro registered
      rw [appendMemoryDb, run_bind_ok (run_getStatics faults world), registered]
      rfl
    obtain ⟨inside, kept, statics⟩ := registered_step inv unregistered fun db registered =>
      append_extends inv registered fun opened after content ran =>
        fits data db opened after rfl content registered ran
    exact ⟨inside, kept, fun other found => .inr (by rwa [statics] at found)⟩
  | read bufLen =>
    simp only [Operation.program, run_discard]
    obtain ⟨ticks, reads⟩ := run_readOnly (readMemoryDb_readOnly bufLen) faults world
    rw [reads]
    exact ⟨by simp, inv.ticked ticks, fun _ found => .inr found⟩
  | erase =>
    simp only [Operation.program]
    have unregistered : world.statics.memoryDbHeaderLba = none →
        (run faults eraseMemoryDb world).2 = world := by
      intro registered
      rw [eraseMemoryDb, run_bind_ok (run_getStatics faults world), registered]
      rfl
    obtain ⟨inside, kept, statics⟩ := registered_step inv unregistered fun db registered =>
      erase_extends faults inv registered
    exact ⟨inside, kept, fun other found => .inr (by rwa [statics] at found)⟩
  | ensure dbLba modelStartLba modelLastLba =>
    obtain ⟨⟨wrote, site⟩, kept, origin⟩ := ensure_step faults word inv dbLba modelStartLba modelLastLba
    refine ⟨fun write member => ⟨dbLba, rfl, ?_⟩, kept, origin⟩
    rcases site with site | unchanged
    · obtain ⟨low, high, _⟩ := wrote.dropped write member
      exact ⟨low, high, lt_of_lt_of_le high site.fits⟩
    · simp [Operation.program, unchanged] at member
  | reboot =>
    have forgotten : run faults rebootMachine world =
        (.ok (), { world with statics := { world.statics with memoryDbHeaderLba := none } }) := rfl
    simp only [Operation.program, forgotten]
    exact ⟨by simp, ⟨inv.ssd, by simp⟩, by simp⟩

theorem run_confined (word : capacity < WORD) (calls : List Call) (inv : Invariant capacity world)
    (fit : AppendsFit calls world) : RunConfined capacity calls world := by
  induction calls generalizing world with
  | nil => trivial
  | cons call rest ih =>
    obtain ⟨inside, kept, _⟩ := call_step word inv call fit.1
    exact ⟨inside, ih kept fit.2⟩

theorem boot_invariant (capacity : Nat) (cells : Nat → Sector) : Invariant capacity (boot capacity cells) :=
  ⟨rfl, fun db found => by simp [boot] at found⟩

/-- Whatever the disk holds, while the appends fit, every write stays in the reserved range. -/
theorem writes_confined (capacity : Nat) (word : capacity < WORD) (cells : Nat → Sector) (calls : List Call)
    (fit : AppendsFit calls (boot capacity cells)) : RunConfined capacity calls (boot capacity cells) :=
  run_confined word calls (boot_invariant capacity cells) fit

theorem appendCall_writes {log : List (List UInt8)} (ready : Ready db capacity log world)
    (content : 0 < payload.length) (accepted : Accepts db capacity log payload) :
    Call.writes ⟨.append payload, Faults.none⟩ world = appendWrites db world.cells log payload := by
  simp only [Call.writes, Call.step, Operation.program, run_discard,
    run_append_ready ready content accepted, World.store_issued, World.tick_issued, drop_left]

theorem data_sector_written (db : Nat) (cells : Nat → Sector) (log : List (List UInt8)) {i : Nat}
    (inside : i < sectorsForBytes payload.length) :
    ∃ block, (cursor db log + i, block) ∈ appendWrites db cells log payload := by
  have member := place_mem (cursor db log)
    ((range (sectorsForBytes payload.length)).map (sectorAt payload)) i (by simpa using inside)
  exact ⟨_, mem_append_left _ (mem_append_left _ member)⟩

theorem append_overruns {log : List (List UInt8)} (ready : Ready db capacity log world)
    (content : 0 < payload.length) (accepted : Accepts db capacity log payload)
    (beyond : db + MEMORY_DB_TOTAL_SECTORS < cursor db log + sectorsForBytes payload.length) :
    ∃ write ∈ Call.writes ⟨.append payload, Faults.none⟩ world, ¬Inside db capacity write.1 := by
  have sectors := sectorsForBytes_pos _ content
  obtain ⟨block, last⟩ := data_sector_written db world.cells log
    (show sectorsForBytes payload.length - 1 < sectorsForBytes payload.length by omega)
  refine ⟨(cursor db log + (sectorsForBytes payload.length - 1), block), ?_, fun inside => ?_⟩
  · rw [appendCall_writes ready content accepted]
    exact last
  · have high := inside.2.1
    omega

def formatCall : Call := ⟨.ensure 0 0 0, Faults.none⟩

theorem format_step : formatCall.step (boot 200000 fun _ => zeros) = sampleDisk := rfl

theorem full_append_overruns :
    ¬RunConfined 200000 [formatCall, ⟨.append (replicate 67092480 0), Faults.none⟩]
      (boot 200000 fun _ => zeros) := by
  intro confined
  have length : (replicate 67092480 (0 : UInt8)).length = 67092480 := length_replicate
  have accepted : Accepts 0 200000 [] (replicate 67092480 0) := by
    rw [Accepts, length]
    decide
  obtain ⟨write, member, outside⟩ := append_overruns sampleDisk_ready (by rw [length]; decide) accepted
    (by rw [length]; decide)
  obtain ⟨db, target, inside⟩ := confined.2.1 write member
  simp only [Operation.target, format_step, sampleDisk_ready.statics] at target
  cases target
  exact outside inside

theorem sample_fit :
    AppendsFit [formatCall, ⟨.append [1, 2, 3], Faults.none⟩] (boot 200000 fun _ => zeros) := by
  refine ⟨?_, ?_, trivial⟩
  · intro data db opened after isAppend
    simp [formatCall] at isAppend
  · intro data db opened after isAppend _ registered ran
    rw [format_step] at registered ran
    rw [sampleDisk_ready.statics] at registered
    cases registered
    cases isAppend
    rw [appendOpen_ready sampleDisk_ready ran]
    decide

theorem writes_confined_short :
    RunConfined 200000 [formatCall, ⟨.append [1, 2, 3], Faults.none⟩] (boot 200000 fun _ => zeros) :=
  writes_confined 200000 (by decide) _ _ sample_fit

end HermitLocal.Ahci.Confinement
