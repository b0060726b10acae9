import HermitLocal.Ahci.Confinement
import HermitLocal.Ahci.Reboot

/-! Erasing after any history of one database: with appends that stayed in the
reserved range nothing of them is left, and the database cannot be told from a
freshly formatted one. -/

namespace HermitLocal.Ahci.Erase
open Lib.Wire Lib.BlockProgram Lib.BlockProgram.Program List
open Ahci.Layout Ahci.MemoryDb Ahci.Plan Ahci.Log
open Ahci.Append Ahci.AppendRun Ahci.Format
open Ahci.Service Ahci.Reboot Ahci.Confinement

def runCalls : List Call → Disk → Disk
  | [], world => world
  | call :: rest, world => runCalls rest (call.step world)

def isAppend : Operation → Bool
  | .append _ => true
  | _ => false

def appendRecords : List Call → Disk → List (Nat × Sector)
  | [], _ => []
  | call :: rest, world =>
      (if isAppend call.operation then call.writes world else []) ++
        appendRecords rest (call.step world)

def About (db : Nat) (calls : List Call) : Prop :=
  ∀ call ∈ calls, ∀ dbLba modelStartLba modelLastLba,
    call.operation = .ensure dbLba modelStartLba modelLastLba → dbLba = db

def Registers (db : Nat) (world : Disk) : Prop :=
  ∀ other, world.statics.memoryDbHeaderLba = some other → other = db

theorem call_registers {db capacity : Nat} {world : Disk} (word : capacity < WORD)
    (inv : Invariant capacity world) (registers : Registers db world) {call : Call} (fits : call.Fits world)
    (about : ∀ dbLba modelStartLba modelLastLba,
      call.operation = .ensure dbLba modelStartLba modelLastLba → dbLba = db) :
    Registers db (call.step world) ∧ Invariant capacity (call.step world) ∧
      ∀ write ∈ call.writes world, Inside db capacity write.1 := by
  obtain ⟨inside, kept, origin⟩ := call_step word inv call fits
  have target : ∀ other, call.operation.target world.statics = some other → other = db := by
    intro other found
    unfold Operation.target at found
    split at found
    · rename_i dbLba modelStartLba modelLastLba same
      rw [← Option.some.inj found]
      exact about dbLba modelStartLba modelLastLba same
    · exact registers other found
  refine ⟨fun other found => ?_, kept, fun write member => ?_⟩
  · exact (origin other found).elim (target other) (registers other)
  · obtain ⟨other, found, within⟩ := inside write member
    rwa [target other found] at within

theorem history {db capacity : Nat} (word : capacity < WORD) (calls : List Call) {world : Disk}
    (inv : Invariant capacity world) (registers : Registers db world) (about : About db calls)
    (fit : AppendsFit calls world) :
    Registers db (runCalls calls world) ∧ Invariant capacity (runCalls calls world) ∧
      ∀ write ∈ appendRecords calls world, Inside db capacity write.1 := by
  induction calls generalizing world with
  | nil => exact ⟨registers, inv, by simp [appendRecords]⟩
  | cons call rest ih =>
    obtain ⟨registersNext, invNext, inside⟩ :=
      call_registers word inv registers fit.1 (about call mem_cons_self)
    obtain ⟨registersLast, invLast, later⟩ := ih invNext registersNext
      (fun other member => about other (mem_cons_of_mem _ member)) fit.2
    refine ⟨registersLast, invLast, fun write member => ?_⟩
    rcases mem_append.mp member with here | there
    · split at here
      · exact inside write here
      · cases here
    · exact later write there

/-- No later request tells an erased database from one formatted afresh. -/
theorem erase_complete {db capacity : Nat} (word : capacity < WORD) (cells : Nat → Sector) (calls : List Call)
    (about : About db calls) (fit : AppendsFit calls (boot capacity cells)) (faults : Faults) (after : Disk)
    (erased : run faults eraseMemoryDb (runCalls calls (boot capacity cells)) = (.ok (), after)) :
    (∀ write ∈ appendRecords calls (boot capacity cells), write.1 = db ∨ write.1 = db + 1 ∨
      after.cells write.1 = zeros) ∧ (∀ bufLen, readBack after bufLen = .ok []) ∧
    ∀ modelStartLba modelLastLba other fresh, modelStartLba < WORD → modelLastLba < WORD →
      run Faults.none (ensureMemoryDb db modelStartLba modelLastLba) (boot capacity other) = (.ok (), fresh) →
      fresh.issued = freshWrites db capacity modelStartLba modelLastLba →
      ∀ requests, driver.trace after requests = driver.trace fresh requests := by
  have unregistered : Registers db (boot capacity cells) := fun other found => by cases found
  obtain ⟨registers, inv, inside⟩ :=
    history word calls (boot_invariant capacity cells) unregistered about fit
  have registered : (runCalls calls (boot capacity cells)).statics.memoryDbHeaderLba = some db := by
    cases found : (runCalls calls (boot capacity cells)).statics.memoryDbHeaderLba with
    | none =>
      rw [eraseMemoryDb, run_bind_ok (run_getStatics _ _), found] at erased
      cases erased
    | some other => rw [registers other found]
  obtain ⟨site, headerOk⟩ := inv.registered db registered
  have statics := inv.statics registered
  obtain ⟨state, decoded, result⟩ := erase_ok site statics headerOk erased
  have fits := (decodeHeader_encodable _ _ decoded).1
  have ready : Ready db capacity [] after := by
    rw [result]
    exact ready_stored statics (represents_erased site fits.modelStartLba fits.modelLastLba _) 1
  refine ⟨fun write member => ?_, fun bufLen => ?_, ?_⟩
  · obtain ⟨low, high, _⟩ := inside write member
    by_cases headers : write.1 = db ∨ write.1 = db + 1
    · exact headers.imp id .inl
    · refine .inr (.inr ?_)
      rw [result, World.store_cells]
      exact erased_zero db capacity state _ write.1 (by omega) high
  · rw [readBack_represents ready.statics ready.rep]
    simp
  · intro modelStartLba modelLastLba other fresh start last formatted wrote requests
    exact (driver_refines site).indistinguishable requests ready
      (formatted_ready word start last formatted wrote).2

theorem sample_calls (payload : List UInt8) :
    runCalls [formatCall, ⟨.append payload, Faults.none⟩] (boot 200000 fun _ => zeros) = sampleFilled payload := by
  rw [runCalls, runCalls, runCalls, format_step, Call.step, Operation.program, run_discard, sampleFilled]

theorem erase_complete_sample :
    ∃ after, (∀ write ∈ appendRecords [formatCall, ⟨.append [1, 2, 3], Faults.none⟩] (boot 200000 fun _ => zeros),
        write.1 = 0 ∨ write.1 = 1 ∨ after.cells write.1 = zeros) ∧
      ∀ bufLen, readBack after bufLen = .ok [] := by
  obtain ⟨after, erased, _⟩ :=
    run_erase_ready sampleSite (sampleFilled_ready (show 0 < [1, 2, 3].length by decide) (by decide))
  rw [← sample_calls] at erased
  have about : About 0 [formatCall, ⟨.append [1, 2, 3], Faults.none⟩] := by
    intro call member dbLba modelStartLba modelLastLba opened
    simp only [mem_cons, not_mem_nil, or_false] at member
    rcases member with same | same
    · rw [same, formatCall] at opened
      cases opened
      rfl
    · rw [same] at opened
      cases opened
  obtain ⟨zeroed, empty, _⟩ :=
    erase_complete (by decide) (fun _ => zeros) _ about sample_fit Faults.none after erased
  exact ⟨after, zeroed, empty⟩

theorem overrun_survives_erase {payload : List UInt8} (content : 0 < payload.length)
    (accepted : Accepts 0 200000 [] payload) {i : Nat} (inside : i * SECTOR_SIZE < payload.length)
    (outside : 0 + MEMORY_DB_TOTAL_SECTORS ≤ cursor 0 [] + i) :
    ∃ after block, run Faults.none eraseMemoryDb (runCalls [formatCall, ⟨.append payload, Faults.none⟩]
        (boot 200000 fun _ => zeros)) = (.ok (), after) ∧
      (cursor 0 [] + i, block) ∈ appendRecords [formatCall, ⟨.append payload, Faults.none⟩]
        (boot 200000 fun _ => zeros) ∧
      byteAt (after.cells (cursor 0 [] + i)) 0 = payload.getD (i * SECTOR_SIZE) 0 := by
  have ready := sampleFilled_ready content accepted
  have sectors : i < sectorsForBytes payload.length := by
    simp only [sectorsForBytes_eq, SECTOR_SIZE] at inside ⊢
    omega
  obtain ⟨block, written⟩ := data_sector_written 0 sampleDisk.cells [] sectors
  have erased : run Faults.none eraseMemoryDb (sampleFilled payload) =
      (.ok (), ((sampleFilled payload).tick 1).store
        (eraseWrites 0 200000 (headerFields ((sampleFilled payload).cells 0)))) := by
    rw [run_erase Faults.none sampleSite ready.statics ready.rep.header.decodes ready.rep.header.placed
      (Faults.none_readsWork _)]
    exact run_writeAll_ok _ fun i _ => Faults.none_writesWork _
  refine ⟨((sampleFilled payload).tick 1).store
    (eraseWrites 0 200000 (headerFields ((sampleFilled payload).cells 0))), block, ?_, ?_, ?_⟩
  · rw [sample_calls]
    exact erased
  · have record := appendCall_writes sampleDisk_ready content accepted
    rw [← format_step] at record written
    simp only [appendRecords, record, isAppend, if_true, append_nil]
    exact mem_append_right _ written
  · have kept := ready.rep.entries.1.content (i * SECTOR_SIZE) inside
    rw [Nat.mul_div_cancel i (by decide), Nat.mul_mod_left] at kept
    rw [World.store_cells, erased_outside 0 200000 _ _ _ outside]
    exact kept

theorem full_append_survives_erase : ∃ after block, run Faults.none eraseMemoryDb (runCalls
        [formatCall, ⟨.append (replicate 67092480 1), Faults.none⟩] (boot 200000 fun _ => zeros)) =
          (.ok (), after) ∧
      (131072, block) ∈ appendRecords [formatCall, ⟨.append (replicate 67092480 1), Faults.none⟩]
        (boot 200000 fun _ => zeros) ∧
      byteAt (after.cells 131072) 0 = 1 := by
  have length : (replicate 67092480 (1 : UInt8)).length = 67092480 := length_replicate
  have accepted : Accepts 0 200000 [] (replicate 67092480 1) := by
    rw [Accepts, length]
    decide
  have byte : (replicate 67092480 (1 : UInt8)).getD (131039 * SECTOR_SIZE) 0 = 1 := by
    rw [getD_eq_getElem?_getD, getElem?_replicate]
    rfl
  have address : cursor 0 [] + 131039 = 131072 := by decide
  have result := overrun_survives_erase (by rw [length]; decide) accepted
    (show 131039 * SECTOR_SIZE < (replicate 67092480 (1 : UInt8)).length by rw [length]; decide) (by decide)
  rwa [address, byte] at result

end HermitLocal.Ahci.Erase
