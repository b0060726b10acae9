import HermitLocal.Ahci.Service
import Mathlib.Data.List.Infix

/-! What a restart finds: after a power cut inside an append, after a run of
successful appends, and when the disk refuses reads while the database is reopened. -/

namespace HermitLocal.Ahci.Reboot
open Lib.Wire Lib.BlockProgram Lib.BlockProgram.Program List
open Ahci.Layout Ahci.MemoryDb Ahci.Plan Ahci.Log
open Ahci.Recovery Ahci.Append Ahci.AppendRun Ahci.Format
open Ahci.Service

def restart (faults : Faults) (db capacity modelStartLba modelLastLba : Nat) (cells : Nat → Sector) :
    Except Unit Unit × Disk :=
  run faults (ensureMemoryDb db modelStartLba modelLastLba) (boot capacity cells)

def readBack (world : Disk) (bufLen : Nat) : Except Unit (List UInt8) :=
  (run Faults.none (readMemoryDb bufLen) world).1

theorem readBack_represents {db capacity : Nat} {log : List (List UInt8)} {world : Disk}
    (statics : world.statics = ⟨some capacity, some db⟩) (rep : Represents db world.cells log) (bufLen : Nat) :
    readBack world bufLen = .ok (log.flatten.take bufLen) := by
  obtain ⟨ticks, bytes⟩ := run_readMemoryDb Faults.none_readsWork rep statics bufLen
  rw [readBack, bytes]

section
variable {faults : Faults} {db capacity modelStartLba modelLastLba : Nat} {cells : Nat → Sector}
  {log : List (List UInt8)}
variable (site : Site db capacity) (start : modelStartLba < WORD) (last : modelLastLba < WORD)
variable (rep : Represents db cells log)
include site start last rep

theorem restart_kept (reopens : Reopens db (cells db))
    (works : ∀ i < log.length + 3, faults.reads i = false) (writes : faults.WritesWork) :
    (restart faults db capacity modelStartLba modelLastLba cells).1 = .ok () ∧
      Ready db capacity log (restart faults db capacity modelStartLba modelLastLba cells).2 := by
  have opens : Opens db capacity (boot capacity cells) := .inl rfl
  have repBoot : Represents db (boot capacity cells).cells log := rep
  have worksBoot : ∀ i < log.length + 3, faults.reads ((boot capacity cells).reads + i) = false := by
    intro i inside
    have answered := works i inside
    rwa [← Nat.zero_add i] at answered
  rw [restart, run_ensure_kept opens repBoot site modelStartLba modelLastLba reopens worksBoot writes]
  obtain ⟨repAfter, inStep⟩ := represents_kept repBoot start last
  exact ⟨rfl, register_statics opens, repAfter, inStep⟩

theorem restart_formats (writes : faults.WritesWork)
    (rejected : ¬(Reopens db (cells db) ∧ ∀ i < log.length + 3, faults.reads i = false)) :
    ∃ ticks, 0 < ticks ∧ (restart faults db capacity modelStartLba modelLastLba cells).1 =
        (if faults.reads ticks then .error () else .ok ()) ∧
      Represents db (restart faults db capacity modelStartLba modelLastLba cells).2.cells [] ∧
      InStep db (restart faults db capacity modelStartLba modelLastLba cells).2.cells [] ∧
      (faults.reads ticks = false →
        Ready db capacity [] (restart faults db capacity modelStartLba modelLastLba cells).2) := by
  have opens : Opens db capacity (boot capacity cells) := .inl rfl
  have repBoot : Represents db (boot capacity cells).cells log := rep
  have rejectedBoot : ¬(Reopens db ((boot capacity cells).cells db) ∧
      ∀ i < log.length + 3, faults.reads ((boot capacity cells).reads + i) = false) := by
    intro accepted
    refine rejected ⟨accepted.1, fun i inside => ?_⟩
    have answered := accepted.2 i inside
    rwa [show (boot capacity cells).reads = 0 from rfl, Nat.zero_add] at answered
  obtain ⟨ticks, some, fresh⟩ := run_ensure_reformats opens repBoot site modelStartLba modelLastLba rejectedBoot
  obtain ⟨repFresh, inStep⟩ := represents_fresh site start last cells rfl
  have position : ((boot capacity cells).tick ticks).reads = ticks := Nat.zero_add ticks
  refine ⟨ticks, some, ?_⟩
  rw [restart, fresh, run_ensureFresh site start last writes, position]
  cases faults.reads ticks with
  | true => exact ⟨rfl, repFresh, inStep, fun answered => by cases answered⟩
  | false => exact ⟨rfl, repFresh, inStep, fun _ => ready_ticked (ready_fresh site start last (.inl rfl)) 1⟩

end

/-! Power cuts. -/

def appendRecord (payload : List UInt8) (world : Disk) : List (Nat × Sector) :=
  (run Faults.none (appendMemoryDb payload) world).2.issued.drop world.issued.length

section
variable {db capacity : Nat} {log : List (List UInt8)} {world : Disk} {payload : List UInt8}
variable (statics : world.statics = ⟨some capacity, some db⟩) (rep : Represents db world.cells log)
include statics rep

theorem appendRecord_accepted (content : 0 < payload.length) (accepted : Accepts db capacity log payload) :
    appendRecord payload world = appendWrites db world.cells log payload := by
  rw [appendRecord, run_append_works statics rep content accepted, World.store_issued, World.tick_issued,
    drop_left]

theorem appendRecord_full (full : memoryDbMapEntryCapacity ≤ log.length) : appendRecord payload world = [] := by
  rcases Nat.eq_zero_or_pos payload.length with empty | content
  · rw [appendRecord, length_eq_zero_iff.mp empty, run_append_nil Faults.none statics]
    simp
  · have checks := run_appendOpen rep statics
      (run_open_ok rep fun i (_ : i < log.length + 2) => Faults.none_readsWork _)
    simp only [Nat.not_lt.mpr full, false_and, if_false] at checks
    rw [appendRecord, run_append_registered Faults.none statics content, run_bind_error checks]
    simp

theorem cut_represents (site : Site db capacity) (reopens : Reopens db (world.cells db))
    (stays : cursor db (log ++ [payload]) ≤ db + MEMORY_DB_TOTAL_SECTORS) (k : Nat) :
    ∃ kept, (kept = log ∨ kept = log ++ [payload]) ∧
      Represents db (applyWrites ((appendRecord payload world).take k) world.cells) kept ∧
      Reopens db (applyWrites ((appendRecord payload world).take k) world.cells db) := by
  by_cases nothing : appendRecord payload world = []
  · exact ⟨log, .inl rfl, by simpa [nothing] using rep, by simpa [nothing] using reopens⟩
  have free : log.length < memoryDbMapEntryCapacity := by
    by_contra full
    exact nothing (appendRecord_full statics rep (Nat.le_of_not_lt full))
  have content : 0 < payload.length := by
    by_contra empty
    rw [appendRecord, length_eq_zero_iff.mp (Nat.eq_zero_of_not_pos empty),
      run_append_nil Faults.none statics] at nothing
    simp at nothing
  have accepted : Accepts db capacity log payload := by
    rw [cursor_append] at stays
    exact ⟨free, le_trans stays site.appendLimit_ge⟩
  rw [appendRecord_accepted statics rep content accepted]
  rcases Nat.lt_or_ge k (sectorsForBytes payload.length + 3) with partly | all
  · have headerKept : applyWrites ((appendWrites db world.cells log payload).take k) world.cells db =
        world.cells db := by
      rw [appendWrites, take_append_of_le_length (by rw [commitWrites_length]; omega)]
      exact applyWrites_apart _ _ _ fun write member =>
        commitWrites_apart accepted write (mem_of_mem_take member)
    rw [headerKept]
    rcases Nat.lt_or_ge k (sectorsForBytes payload.length + 2) with early | late
    · exact ⟨log, .inl rfl, represents_uncommitted accepted rep content k (by omega), reopens⟩
    · have cut : (appendWrites db world.cells log payload).take k = commitWrites db world.cells log payload := by
        rw [appendWrites, take_append_of_le_length (by rw [commitWrites_length]; omega),
          take_of_length_le (by rw [commitWrites_length]; omega)]
      exact ⟨log ++ [payload], .inr rfl, by rw [cut]; exact represents_committed accepted rep content, reopens⟩
  · have whole : (appendWrites db world.cells log payload).take k = appendWrites db world.cells log payload :=
      take_of_length_le (by simp [appendWrites, commitWrites_length]; omega)
    obtain ⟨repAll, inStep⟩ := represents_appended accepted rep content
    rw [whole]
    exact ⟨log ++ [payload], .inr rfl, repAll, (reopens_iff repAll inStep).mpr stays⟩

end

/-- A power cut during an append costs the new payload or nothing. -/
theorem append_crash_atomic {db capacity modelStartLba modelLastLba : Nat} {log : List (List UInt8)} {world : Disk}
    (site : Site db capacity) (start : modelStartLba < WORD) (last : modelLastLba < WORD)
    (statics : world.statics = ⟨some capacity, some db⟩) (rep : Represents db world.cells log)
    (reopens : Reopens db (world.cells db)) (payload : List UInt8)
    (stays : cursor db (log ++ [payload]) ≤ db + MEMORY_DB_TOTAL_SECTORS) (k : Nat) :
    ∃ kept, (kept = log.flatten ∨ kept = log.flatten ++ payload) ∧
      (restart Faults.none db capacity modelStartLba modelLastLba
        (applyWrites ((appendRecord payload world).take k) world.cells)).1 = .ok () ∧
      ∀ bufLen, readBack (restart Faults.none db capacity modelStartLba modelLastLba
        (applyWrites ((appendRecord payload world).take k) world.cells)).2 bufLen = .ok (kept.take bufLen) := by
  obtain ⟨kept, which, repCut, reopensCut⟩ := cut_represents statics rep site reopens stays k
  obtain ⟨succeeded, ready⟩ := restart_kept site start last repCut reopensCut
    (fun i _ => Faults.none_readsWork i) Faults.none_writesWork
  refine ⟨kept.flatten, ?_, succeeded, readBack_represents ready.statics ready.rep⟩
  rcases which with old | extended
  · exact .inl (by rw [old])
  · exact .inr (by rw [extended]; simp)

theorem append_crash_atomic_sample : ∃ kept, (kept = [] ∨ kept = [1, 2, 3]) ∧
      (restart Faults.none 0 200000 0 0
        (applyWrites ((appendRecord [1, 2, 3] sampleDisk).take 1) sampleDisk.cells)).1 = .ok () ∧
      ∀ bufLen, readBack (restart Faults.none 0 200000 0 0
        (applyWrites ((appendRecord [1, 2, 3] sampleDisk).take 1) sampleDisk.cells)).2 bufLen =
          .ok (kept.take bufLen) :=
  append_crash_atomic sampleSite (by decide) (by decide) sampleDisk_ready.statics sampleDisk_ready.rep
    ((reopens_iff sampleDisk_ready.rep sampleDisk_ready.inStep).mpr (by decide)) [1, 2, 3] (by decide) 1

/-! Whole lives of a disk. -/

inductive Event where
  | request (request : Request)
  | powerCut (payload : List UInt8) (writes : Nat)

section
variable (db capacity modelStartLba modelLastLba : Nat)

def live (world : Disk) : Event → Disk
  | .request request => (driver.step world request).2
  | .powerCut payload writes => (restart Faults.none db capacity modelStartLba modelLastLba
      (applyWrites ((appendRecord payload world).take writes) world.cells)).2

def survivors : List (List UInt8) → List Event → List (List (List UInt8))
  | log, [] => [log]
  | log, .request request :: rest => survivors ((logMachine db capacity).step log request).2 rest
  | log, .powerCut payload _ :: rest => [log, log ++ [payload]].flatMap fun kept => survivors kept rest

variable {db capacity modelStartLba modelLastLba} {log : List (List UInt8)} {world : Disk} {events : List Event}
variable (site : Site db capacity) (start : modelStartLba < WORD) (last : modelLastLba < WORD)
  (ready : Ready db capacity log world) (stays : ∀ past, past <+: events → ∀ kept ∈ survivors db capacity log past,
    cursor db kept ≤ db + MEMORY_DB_TOTAL_SECTORS)
include site start last ready stays

theorem live_ready : ∃ kept ∈ survivors db capacity log events,
    Ready db capacity kept (events.foldl (live db capacity modelStartLba modelLastLba) world) := by
  induction events generalizing log world with
  | nil => exact ⟨log, mem_singleton_self log, ready⟩
  | cons event rest ih =>
    have later past (early : past <+: rest) := stays (event :: past) (cons_prefix_cons.mpr ⟨rfl, early⟩)
    cases event with
    | request request => exact ih ((driver_refines site).next world log request ready) later
    | powerCut payload writes =>
      have now := stays [] nil_prefix log (mem_singleton_self log)
      have stored := later [] nil_prefix (log ++ [payload]) (by simp [survivors])
      obtain ⟨kept, which, rep, opens⟩ := cut_represents ready.statics ready.rep site
        ((reopens_iff ready.rep ready.inStep).mpr now) stored writes
      obtain ⟨-, after⟩ := restart_kept site start last rep opens (fun i _ => Faults.none_readsWork i)
        Faults.none_writesWork
      have branch (past final) (member : final ∈ survivors db capacity kept past) :
          final ∈ survivors db capacity log (.powerCut payload writes :: past) :=
        mem_flatMap.mpr ⟨kept, by simpa using which, member⟩
      obtain ⟨final, member, done⟩ := ih after fun past early final member =>
        later past early final (branch past final member)
      rw [foldl_cons]
      exact ⟨final, branch rest final member, done⟩

/-- Whatever the requests and power cuts, what is left is answered as by one log. -/
theorem life_leaves_log : ∃ kept ∈ survivors db capacity log events, ∀ requests,
    driver.trace (events.foldl (live db capacity modelStartLba modelLastLba) world) requests =
      (logMachine db capacity).trace kept requests := by
  obtain ⟨kept, member, after⟩ := live_ready site start last ready stays
  exact ⟨kept, member, fun requests => (driver_refines site).trace requests after⟩

end

theorem life_leaves_log_sample :
    ∃ kept ∈ survivors 0 200000 [] [.request (.append [1]), .powerCut [2] 2, .request (.append [3])], ∀ requests,
      driver.trace ([.request (.append [1]), .powerCut [2] 2, .request (.append [3])].foldl (live 0 200000 0 0) sampleDisk)
        requests = (logMachine 0 200000).trace kept requests := by
  apply life_leaves_log sampleSite (by decide) (by decide) sampleDisk_ready
  simp only [← mem_inits]
  decide

/-! Restarts after successful appends. -/

inductive Filled (db capacity : Nat) : List (List UInt8) → Disk → Prop where
  | fresh {modelStartLba modelLastLba : Nat} {cells : Nat → Sector} {world : Disk}
      (start : modelStartLba < WORD) (last : modelLastLba < WORD)
      (formatted : run Faults.none (ensureMemoryDb db modelStartLba modelLastLba) (boot capacity cells) =
        (.ok (), world))
      (wrote : world.issued = freshWrites db capacity modelStartLba modelLastLba) : Filled db capacity [] world
  | append {payloads : List (List UInt8)} {payload : List UInt8} {count : Nat} {world after : Disk}
      (filled : Filled db capacity payloads world)
      (stored : run Faults.none (appendMemoryDb payload) world = (.ok count, after)) :
      Filled db capacity (payloads ++ [payload]) after

def entriesOf (payloads : List (List UInt8)) : List (List UInt8) := payloads.filter fun payload => !payload.isEmpty

theorem entriesOf_flatten (payloads : List (List UInt8)) : (entriesOf payloads).flatten = payloads.flatten :=
  flatten_filter_not_isEmpty

theorem cursor_entriesOf (db : Nat) (payloads : List (List UInt8)) :
    cursor db (entriesOf payloads) = cursor db payloads := by
  have extents : extent (entriesOf payloads) = extent payloads := by
    induction payloads with
    | nil => rfl
    | cons payload rest ih =>
      cases payload with
      | nil => simpa [entriesOf, sectorsForBytes_eq] using ih
      | cons byte tail => simpa [entriesOf] using ih
  rw [cursor, cursor, extents]

theorem Filled.ready {db capacity : Nat} {payloads : List (List UInt8)} {world : Disk} (word : capacity < WORD)
    (filled : Filled db capacity payloads world) :
    Site db capacity ∧ Ready db capacity (entriesOf payloads) world := by
  induction filled with
  | fresh start last formatted wrote => exact formatted_ready word start last formatted wrote
  | @append payloads payload count world after filled stored ih =>
    obtain ⟨site, ready⟩ := ih
    refine ⟨site, ?_⟩
    rcases Nat.eq_zero_or_pos payload.length with empty | content
    · rw [length_eq_zero_iff.mp empty, run_append_nil Faults.none ready.statics] at stored
      cases stored
      rw [length_eq_zero_iff.mp empty]
      simpa [entriesOf] using ready
    · have entry : entriesOf (payloads ++ [payload]) = entriesOf payloads ++ [payload] := by
        cases payload with
        | nil => simp at content
        | cons byte tail => simp [entriesOf]
      rw [entry]
      by_cases accepted : Accepts db capacity (entriesOf payloads) payload
      · rw [run_append_ready ready content accepted] at stored
        cases stored
        exact ready_appended ready content accepted _
      · rw [Prod.ext_iff] at stored
        rw [(run_append_full ready content accepted).1] at stored
        cases stored.1

def sampleFilled (payload : List UInt8) : Disk := (run Faults.none (appendMemoryDb payload) sampleDisk).2

section
variable {payload : List UInt8} (content : 0 < payload.length) (accepted : Accepts 0 200000 [] payload)
include content accepted

theorem sampleFilled_filled : Filled 0 200000 [payload] (sampleFilled payload) := by
  obtain ⟨ticks, formatted, _⟩ := sampleDisk_eq
  have fresh : Filled 0 200000 [] sampleDisk := Filled.fresh (by decide) (by decide) formatted sampleDisk_issued
  have stored := run_append_ready sampleDisk_ready content accepted
  rw [sampleFilled, stored]
  exact fresh.append stored

theorem sampleFilled_ready : Ready 0 200000 [payload] (sampleFilled payload) := by
  rw [sampleFilled, run_append_ready sampleDisk_ready content accepted]
  exact ready_appended sampleDisk_ready content accepted _

end

section
variable {db capacity modelStartLba modelLastLba : Nat} {payloads : List (List UInt8)} {world : Disk}

/-- A restart keeps the log exactly while its cursor is within the reserved range. -/
theorem restart_keeps_appends_iff (word : capacity < WORD) (start : modelStartLba < WORD)
    (last : modelLastLba < WORD) (filled : Filled db capacity payloads world) :
    ((run Faults.none (ensurePreserved db (db + 1) (dataLba db) (db + MEMORY_DB_TOTAL_SECTORS) modelStartLba
        modelLastLba) (boot capacity world.cells)).1 = .ok true ∧
      ∀ bufLen, readBack (restart Faults.none db capacity modelStartLba modelLastLba world.cells).2 bufLen =
        readBack world bufLen) ↔ cursor db payloads ≤ db + MEMORY_DB_TOTAL_SECTORS := by
  obtain ⟨site, ready⟩ := filled.ready word
  have opens : Opens db capacity (boot capacity world.cells) := .inl rfl
  have rep : Represents db (boot capacity world.cells).cells (entriesOf payloads) := ready.rep
  have reopens := reopens_iff ready.rep ready.inStep
  rw [cursor_entriesOf] at reopens
  constructor
  · rintro ⟨preserved, _⟩
    by_contra beyond
    have rejected : ¬(Reopens db (world.cells db) ∧ ∀ i < (entriesOf payloads).length + 3,
        Faults.none.reads ((boot capacity world.cells).reads + i) = false) := fun both => beyond (reopens.mp both.1)
    obtain ⟨ticks, _, lost⟩ := run_ensurePreserved_lost rep modelStartLba modelLastLba rejected
    rw [lost] at preserved
    cases preserved
  · intro stays
    have accepted := reopens.mpr stays
    obtain ⟨_, readyAfter⟩ := restart_kept site start last ready.rep accepted
      (fun i _ => Faults.none_readsWork i) Faults.none_writesWork
    refine ⟨?_, fun bufLen => ?_⟩
    · rw [run_ensurePreserved_kept opens rep modelStartLba modelLastLba accepted
        (fun i _ => Faults.none_readsWork _) Faults.none_writesWork]
    · rw [readBack_represents readyAfter.statics readyAfter.rep, readBack_represents ready.statics ready.rep]

theorem restart_keeps_appends_sample :
    (run Faults.none (ensurePreserved 0 1 (dataLba 0) (0 + MEMORY_DB_TOTAL_SECTORS) 0 0)
        (boot 200000 (sampleFilled [1, 2, 3]).cells)).1 = .ok true ∧
      ∀ bufLen, readBack (restart Faults.none 0 200000 0 0 (sampleFilled [1, 2, 3]).cells).2 bufLen =
        readBack (sampleFilled [1, 2, 3]) bufLen :=
  (restart_keeps_appends_iff (by decide) (by decide) (by decide)
    (sampleFilled_filled (by decide) (by decide))).mpr (by decide)

theorem full_append_reformatted :
    Filled 0 200000 [replicate 67092480 0] (sampleFilled (replicate 67092480 0)) ∧
      readBack (sampleFilled (replicate 67092480 0)) 1 = .ok [0] ∧
      (restart Faults.none 0 200000 0 0 (sampleFilled (replicate 67092480 0)).cells).1 = .ok () ∧
      readBack (restart Faults.none 0 200000 0 0 (sampleFilled (replicate 67092480 0)).cells).2 1 =
        .ok [] := by
  have length : (replicate 67092480 (0 : UInt8)).length = 67092480 := length_replicate
  have content : 0 < (replicate 67092480 (0 : UInt8)).length := by rw [length]; decide
  have accepted : Accepts 0 200000 [] (replicate 67092480 0) := by
    rw [Accepts, length]
    decide
  have ready := sampleFilled_ready content accepted
  have beyond : ¬Reopens 0 ((sampleFilled (replicate 67092480 0)).cells 0) := by
    rw [reopens_iff ready.rep ready.inStep, cursor, extent_cons, length]
    decide
  obtain ⟨ticks, _, succeeded, _, _, lost⟩ := restart_formats sampleSite (show 0 < WORD by decide)
    (show 0 < WORD by decide) ready.rep Faults.none_writesWork fun both => beyond both.1
  refine ⟨sampleFilled_filled content accepted, ?_, succeeded, ?_⟩
  · rw [readBack_represents ready.statics ready.rep, flatten_singleton, take_replicate]
    rfl
  · rw [readBack_represents (lost rfl).statics (lost rfl).rep]
    rfl

/-- Reads that are refused while the database is reopened cost the whole log. -/
theorem restart_survives_iff (word : capacity < WORD) (start : modelStartLba < WORD)
    (last : modelLastLba < WORD) (filled : Filled db capacity payloads world)
    (stays : cursor db payloads ≤ db + MEMORY_DB_TOTAL_SECTORS) (faults : Faults) (writes : faults.WritesWork) :
    (((restart faults db capacity modelStartLba modelLastLba world.cells).1 = .error () ∨
        ∀ bufLen, readBack (restart faults db capacity modelStartLba modelLastLba world.cells).2 bufLen =
          readBack world bufLen) ∧
      ∀ bufLen, readBack (restart Faults.none db capacity modelStartLba modelLastLba
        (restart faults db capacity modelStartLba modelLastLba world.cells).2.cells).2 bufLen =
          readBack world bufLen) ↔
      (payloads.flatten = [] ∨ ∀ i < (entriesOf payloads).length + 3, faults.reads i = false) := by
  obtain ⟨site, ready⟩ := filled.ready word
  have before : ∀ bufLen, readBack world bufLen = .ok (payloads.flatten.take bufLen) := fun bufLen => by
    rw [readBack_represents ready.statics ready.rep, entriesOf_flatten]
  have reopens := reopens_iff ready.rep ready.inStep
  rw [cursor_entriesOf] at reopens
  have accepted := reopens.mpr stays
  simp only [before]
  by_cases works : ∀ i < (entriesOf payloads).length + 3, faults.reads i = false
  · obtain ⟨_, kept⟩ := restart_kept site start last ready.rep accepted works writes
    obtain ⟨_, again⟩ := restart_kept site start last kept.rep
      ((reopens_iff kept.rep kept.inStep).mpr (by rwa [cursor_entriesOf]))
      (fun i _ => Faults.none_readsWork i) Faults.none_writesWork
    refine iff_of_true ⟨.inr fun bufLen => ?_, fun bufLen => ?_⟩ (.inr works)
    · rw [readBack_represents kept.statics kept.rep, entriesOf_flatten]
    · rw [readBack_represents again.statics again.rep, entriesOf_flatten]
  · obtain ⟨ticks, _, outcome, rep, inStep, readyAfter⟩ := restart_formats site start last ready.rep writes
      fun both => works both.2
    obtain ⟨_, again⟩ := restart_kept site start last rep
      ((reopens_iff rep inStep).mpr (dataLba_lt db).le) (fun i _ => Faults.none_readsWork i) Faults.none_writesWork
    simp only [works, or_false]
    constructor
    · rintro ⟨_, intact⟩
      have all := intact payloads.flatten.length
      rw [readBack_represents again.statics again.rep, take_length] at all
      simpa using (Except.ok.inj all).symm
    · intro empty
      refine ⟨?_, fun bufLen => ?_⟩
      · cases answered : faults.reads ticks with
        | true => exact .inl (by rw [outcome, answered]; rfl)
        | false =>
          refine .inr fun bufLen => ?_
          rw [readBack_represents (readyAfter answered).statics (readyAfter answered).rep, empty]
          rfl
      · rw [readBack_represents again.statics again.rep, empty]
        rfl

theorem restart_survives_sample :
    ((restart Faults.none 0 200000 0 0 (sampleFilled [1, 2, 3]).cells).1 = .error () ∨
        ∀ bufLen, readBack (restart Faults.none 0 200000 0 0 (sampleFilled [1, 2, 3]).cells).2 bufLen =
          readBack (sampleFilled [1, 2, 3]) bufLen) ∧
      ∀ bufLen, readBack (restart Faults.none 0 200000 0 0
        (restart Faults.none 0 200000 0 0 (sampleFilled [1, 2, 3]).cells).2.cells).2 bufLen =
          readBack (sampleFilled [1, 2, 3]) bufLen :=
  (restart_survives_iff (by decide) (by decide) (by decide) (sampleFilled_filled (by decide) (by decide))
    (by decide) Faults.none Faults.none_writesWork).mpr (.inr fun i _ => Faults.none_readsWork i)

def headerRefused : Faults := ⟨fun i => i == 0, fun _ => false⟩

theorem refused_header_read_erases : readBack (sampleFilled [1, 2, 3]) 3 = .ok [1, 2, 3] ∧
      (restart headerRefused 0 200000 0 0 (sampleFilled [1, 2, 3]).cells).1 = .ok () ∧
      readBack (restart headerRefused 0 200000 0 0 (sampleFilled [1, 2, 3]).cells).2 3 = .ok [] ∧
      readBack (restart Faults.none 0 200000 0 0
        (restart headerRefused 0 200000 0 0 (sampleFilled [1, 2, 3]).cells).2.cells).2 3 = .ok [] := by
  have ready := sampleFilled_ready (show 0 < [1, 2, 3].length by decide) (by decide)
  obtain ⟨ticks, later, outcome, rep, inStep, lost⟩ := restart_formats sampleSite (show 0 < WORD by decide)
    (show 0 < WORD by decide) ready.rep (show headerRefused.WritesWork from fun _ => rfl)
    fun both => absurd (both.2 0 (by decide)) (by decide)
  have answered : headerRefused.reads ticks = false := beq_eq_false_iff_ne.mpr later.ne'
  obtain ⟨_, again⟩ := restart_kept sampleSite (show 0 < WORD by decide) (show 0 < WORD by decide) rep
    ((reopens_iff rep inStep).mpr (by decide)) (fun i _ => Faults.none_readsWork i) Faults.none_writesWork
  refine ⟨?_, by rw [outcome, answered]; rfl, ?_, ?_⟩
  · rw [readBack_represents ready.statics ready.rep]
    rfl
  · rw [readBack_represents (lost answered).statics (lost answered).rep]
    rfl
  · rw [readBack_represents again.statics again.rep]
    rfl

end

end HermitLocal.Ahci.Reboot
