import HermitLocal.Ahci.Format
import HermitLocal.Lib.Simulation

/-! What the memory database is for: a log of payloads with three requests. The
driver on a disk that answers everything refines this log, request by request. -/

namespace HermitLocal.Ahci.Service
open Lib.Wire Lib.BlockProgram Lib.BlockProgram.Program List
open Lib.Simulation
open Ahci.Layout Ahci.MemoryDb
open Ahci.Recovery Ahci.Append Ahci.AppendRun Ahci.Format

inductive Request where
  | append (data : List UInt8)
  | read (bufLen : Nat)
  | erase

inductive Reply where
  | stored (count : Nat)
  | copied (bytes : List UInt8)
  | erased
  deriving DecidableEq

def Request.program : Request → Driver Reply
  | .append data => Reply.stored <$> appendMemoryDb data
  | .read bufLen => Reply.copied <$> readMemoryDb bufLen
  | .erase => (fun _ => Reply.erased) <$> eraseMemoryDb

def driver : Machine Disk Request (Except Unit Reply) where
  step world request := run Faults.none request.program world

def logMachine (db capacity : Nat) : Machine (List (List UInt8)) Request (Except Unit Reply) where
  step log request :=
    match request with
    | .append data =>
      if data.length = 0 then (.ok (.stored 0), log)
      else if Accepts db capacity log data then (.ok (.stored data.length), log ++ [data])
      else (.error (), log)
    | .read bufLen => (.ok (.copied (log.flatten.take bufLen)), log)
    | .erase => (.ok .erased, [])

theorem run_map (faults : Faults) {α γ : Type} (f : α → γ) (program : Driver α) (world : Disk) :
    run faults (f <$> program) world =
      ((run faults program world).1.map f, (run faults program world).2) := by
  rw [← bind_pure_comp, run_bind]
  rcases run faults program world with ⟨_ | _, after⟩ <;> rfl

variable {capacity db : Nat} {world : Disk}

theorem ready_ticked {log : List (List UInt8)} (ready : Ready db capacity log world) (ticks : Nat) :
    Ready db capacity log (world.tick ticks) :=
  { ready with }

theorem run_erase_ready {log : List (List UInt8)} (site : Site db capacity)
    (ready : Ready db capacity log world) :
    ∃ after, run Faults.none eraseMemoryDb world = (.ok (), after) ∧ Ready db capacity [] after := by
  have decoded := ready.rep.header.decodes
  have fits := (decodeHeader_encodable _ _ decoded).1
  refine ⟨(world.tick 1).store (eraseWrites db capacity (headerFields (world.cells db))), ?_, ?_⟩
  · rw [run_erase Faults.none site ready.statics decoded ready.rep.header.placed (Faults.none_readsWork _)]
    exact run_writeAll_ok _ fun i _ => Faults.none_writesWork _
  · exact ready_stored ready.statics
      (represents_erased site fits.modelStartLba fits.modelLastLba world.cells) 1

theorem driver_refines (site : Site db capacity) :
    Refines driver (logMachine db capacity) fun world log => Ready db capacity log world := by
  have step : ∀ world log request, Ready db capacity log world →
      (driver.step world request).1 = ((logMachine db capacity).step log request).1 ∧
        Ready db capacity ((logMachine db capacity).step log request).2 (driver.step world request).2 := by
    intro world log request ready
    cases request with
    | append data =>
      simp only [driver, logMachine, Request.program, run_map]
      rcases Nat.eq_zero_or_pos data.length with empty | content
      · rw [length_eq_zero_iff.mp empty, run_append_nil Faults.none ready.statics]
        exact ⟨rfl, ready⟩
      · rw [if_neg content.ne']
        by_cases accepted : Accepts db capacity log data
        · rw [if_pos accepted, run_append_ready ready content accepted]
          exact ⟨rfl, ready_appended ready content accepted _⟩
        · obtain ⟨failed, kept⟩ := run_append_full ready content accepted
          rw [if_neg accepted, failed]
          exact ⟨rfl, kept⟩
    | read bufLen =>
      obtain ⟨ticks, bytes⟩ := run_readMemoryDb Faults.none_readsWork ready.rep ready.statics bufLen
      simp only [driver, logMachine, Request.program, run_map, bytes]
      exact ⟨rfl, ready_ticked ready ticks⟩
    | erase =>
      obtain ⟨after, ran, empty⟩ := run_erase_ready site ready
      simp only [driver, logMachine, Request.program, run_map, ran]
      exact ⟨rfl, empty⟩
  exact ⟨fun world log request ready => (step world log request ready).1,
    fun world log request ready => (step world log request ready).2⟩

/-! Appends and reads from a fresh database. -/

def appended (requests : List Request) : List (List UInt8) :=
  requests.filterMap fun
    | .append data => some data
    | _ => none

theorem logMachine_final (db capacity : Nat) (log : List (List UInt8)) (requests : List Request)
    (keeps : Request.erase ∉ requests) (accepted : .error () ∉ (logMachine db capacity).trace log requests) :
    (logMachine db capacity).final log requests =
      log ++ (appended requests).filter fun data => !data.isEmpty := by
  induction requests generalizing log with
  | nil => simp [Machine.final, appended]
  | cons request rest ih =>
    have later := ih ((logMachine db capacity).step log request).2
      (fun member => keeps (mem_cons_of_mem _ member))
      (fun member => accepted (mem_cons_of_mem _ member))
    have first : ((logMachine db capacity).step log request).1 ≠ .error () := fun same =>
      accepted (same ▸ mem_cons_self)
    rw [Machine.final, later]
    cases request with
    | append data =>
      simp only [logMachine, length_eq_zero_iff] at first ⊢
      rcases data with _ | ⟨byte, tail⟩
      · simp [appended]
      · by_cases fits : Accepts db capacity log (byte :: tail)
        · simp [fits, appended]
        · simp [fits] at first
    | read bufLen => simp [logMachine, appended]
    | erase => exact absurd mem_cons_self keeps

theorem formatted_ready {modelStartLba modelLastLba : Nat} (word : capacity < WORD)
    (start : modelStartLba < WORD) (last : modelLastLba < WORD) {cells : Nat → Sector}
    (formatted : run Faults.none (ensureMemoryDb db modelStartLba modelLastLba) (boot capacity cells) =
      (.ok (), world)) (fresh : world.issued = freshWrites db capacity modelStartLba modelLastLba) :
    Site db capacity ∧ Ready db capacity [] world := by
  have site : Site db capacity := by
    by_contra outside
    rw [run_ensure_outside Faults.none word outside rfl] at formatted
    cases formatted
  refine ⟨site, ?_⟩
  rcases run_ensure_paths Faults.none site (rfl : (boot capacity cells).statics.ssdSectorCount = some capacity)
    modelStartLba modelLastLba with ⟨ticks, path⟩ | ⟨ticks, count, state, placed, _, path⟩
  · rw [path, run_ensureFresh site start last Faults.none_writesWork] at formatted
    cases formatted
    exact ready_ticked (ready_fresh site start last (.inl rfl)) 1
  · have registered : (register db (((boot capacity cells).tick ticks).store
        [(db + 1, mapHeaderSector count)])).statics = ⟨some capacity, some db⟩ := rfl
    rw [path, memoryDbWriteMapHeader, run_bind_ok (run_writeBlock_ok (Faults.none_writesWork _) _ _),
      run_bind_ok (run_registerState _ _ _), run_writeHeader Faults.none registered placed,
      run_writeBlock_ok (Faults.none_writesWork _)] at formatted
    cases formatted
    have short := congrArg length fresh
    simp [freshWrites, register, boot, MEMORY_DB_MAP_SECTORS] at short

/-- A read returns the front of what the accepted appends were given. -/
theorem reads_return_appends {db capacity modelStartLba modelLastLba : Nat} (word : capacity < WORD)
    (start : modelStartLba < WORD) (last : modelLastLba < WORD) (cells : Nat → Sector) (world : Disk)
    (formatted : run Faults.none (ensureMemoryDb db modelStartLba modelLastLba) (boot capacity cells) =
      (.ok (), world)) (fresh : world.issued = freshWrites db capacity modelStartLba modelLastLba)
    (requests : List Request) (keeps : Request.erase ∉ requests)
    (accepted : .error () ∉ driver.trace world requests) (bufLen : Nat) :
    (run Faults.none (readMemoryDb bufLen) (driver.final world requests)).1 =
      .ok ((appended requests).flatten.take bufLen) := by
  obtain ⟨site, ready⟩ := formatted_ready word start last formatted fresh
  have refines := driver_refines site
  rw [refines.trace requests ready] at accepted
  have after : Ready db capacity ((logMachine db capacity).final [] requests) (driver.final world requests) :=
    refines.final requests ready
  obtain ⟨ticks, bytes⟩ := run_readMemoryDb Faults.none_readsWork after.rep after.statics bufLen
  rw [bytes, logMachine_final db capacity [] requests keeps accepted, nil_append,
    flatten_filter_not_isEmpty]

theorem reads_return_appends_blank : (run Faults.none (readMemoryDb 4)
      (driver.final sampleDisk [.append [1, 2], .read 1, .append [3], .append [4, 5]])).1 =
      .ok [1, 2, 3, 4] := by
  obtain ⟨ticks, formatted, _⟩ := sampleDisk_eq
  refine reads_return_appends (by decide) (by decide) (by decide) _ _ formatted sampleDisk_issued _ (by simp) ?_ 4
  rw [(driver_refines sampleSite).trace _ sampleDisk_ready]
  decide

end HermitLocal.Ahci.Service
