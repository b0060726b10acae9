import HermitLocal.Ahci.Append

/-! Running an append on a disk that represents a log, for every choice of failing
accesses: it commits exactly when it is accepted, its one read is answered and
every write up to the map header succeeds. -/

namespace HermitLocal.Ahci.AppendRun
open Lib.BlockProgram Lib.BlockProgram.Program List
open Ahci.Layout Ahci.MemoryDb Ahci.Plan Ahci.Log
open Ahci.Recovery Ahci.Append

structure Kept (db : Nat) (log : List (List UInt8)) (world after : Disk) : Prop where
  rep : Represents db after.cells log
  header : after.cells db = world.cells db
  statics : after.statics = world.statics
  record : ∃ new, after.issued = world.issued ++ new ∧ ∀ write ∈ new, write.1 ≠ db

variable {world after : Disk} {db capacity : Nat}

theorem kept_store {log : List (List UInt8)} {writes : List (Nat × Sector)}
    (apart : ∀ write ∈ writes, write.1 ≠ db) (rep : Represents db (applyWrites writes world.cells) log)
    (ticks : Nat) : Kept db log world ((world.tick ticks).store writes) :=
  ⟨rep, applyWrites_apart _ _ _ apart, rfl, writes, rfl, apart⟩

theorem Kept.issue {log : List (List UInt8)} (kept : Kept db log world after) {lba : Nat} (block : Sector)
    (apart : lba ≠ db) : Kept db log world (after.issue lba block) := by
  obtain ⟨new, issued, fine⟩ := kept.record
  refine ⟨kept.rep, kept.header, kept.statics, new ++ [(lba, block)], by simp [issued], ?_⟩
  intro write member
  rcases mem_append.mp member with earlier | here
  · exact fine write earlier
  · rw [mem_singleton.mp here]
    exact apart

theorem run_append_registered (faults : Faults) {payload : List UInt8}
    (statics : world.statics = ⟨some capacity, some db⟩) (content : 0 < payload.length) :
    run faults (appendMemoryDb payload) world = run faults (do
      let opened ← appendOpen db
      let finished ← appendChunks opened.2 payload 0 opened.1.nextAppendLba
      appendCommit opened.1 payload.length finished.2
      pure finished.1) world := by
  rw [appendMemoryDb, run_bind_ok (run_getStatics faults world), statics]
  simp only [content.ne', if_false]

theorem run_append_nil (faults : Faults) (statics : world.statics = ⟨some capacity, some db⟩) :
    run faults (appendMemoryDb []) world = (.ok 0, world) := by
  rw [appendMemoryDb, run_bind_ok (run_getStatics faults world), statics]
  rfl

theorem run_writeHeader (faults : Faults) {state : MemoryDbHeader}
    (statics : world.statics = ⟨some capacity, some db⟩) (placed : Placed db state) :
    run faults (memoryDbWriteHeader state) world = run faults (writeBlock db (headerSector state)) world := by
  rw [memoryDbWriteHeader, run_bind_ok (run_getStatics faults world), statics]
  simp only [placed.headerLba, ne_eq, not_true_eq_false, if_false]

section
variable {faults : Faults} {db capacity ticks : Nat} {world : Disk} {log : List (List UInt8)}
  {payload : List UInt8}

theorem run_readEntrySector (accepted : Accepts db capacity log payload)
    (answered : faults.reads (world.reads + ticks) = false) : run faults (readBlock (entryLba db log.length))
      ((world.tick ticks).store (dataWrites (cursor db log) payload)) =
      (.ok (world.cells (entryLba db log.length)),
        ((world.tick ticks).store (dataWrites (cursor db log) payload)).tick 1) := by
  have sector : applyWrites (dataWrites (cursor db log) payload) world.cells (entryLba db log.length) =
      world.cells (entryLba db log.length) := by
    have bounds := entryLba_bounds db log.length accepted.1
    apply applyWrites_apart
    intro write member
    have above := (dataWrites_bounds _ _ write member).1
    simp only [cursor] at above
    omega
  rw [run_readBlock_ok (by simpa using answered)]
  simp only [World.store_cells, World.tick_cells, sector]

theorem commitWrites_take (cells : Nat → Sector) (k : Nat) :
    (commitWrites db cells log payload).take (sectorsForBytes payload.length + k) =
      dataWrites (cursor db log) payload ++ [entryWrite db cells log payload, countWrite db log].take k := by
  rw [commitWrites, take_append, dataWrites_length, take_of_length_le (by simp), Nat.add_sub_cancel_left]

theorem kept_cut (rep : Represents db world.cells log) (content : 0 < payload.length)
    (accepted : Accepts db capacity log payload) {k : Nat} (early : k ≤ sectorsForBytes payload.length + 1)
    (count : Nat) :
    Kept db log world ((world.tick count).store ((commitWrites db world.cells log payload).take k)) := by
  have cut : (appendWrites db world.cells log payload).take k = (commitWrites db world.cells log payload).take k :=
    take_append_of_le_length (by rw [commitWrites_length]; omega)
  apply kept_store
  · intro write member
    exact commitWrites_apart accepted write (mem_of_mem_take member)
  · rw [← cut]
    exact represents_uncommitted accepted rep content k early

variable (rep : Represents db world.cells log) (statics : world.statics = ⟨some capacity, some db⟩)
variable (opened : run faults (memoryDbOpen db) world =
  (.ok (withLog db (headerFields (world.cells db)) log), world.tick ticks))
include rep statics opened

theorem run_appendOpen : run faults (appendOpen db) world =
      (if log.length < memoryDbMapEntryCapacity ∧ cursor db log < appendLimit db capacity then
        .ok (withLog db (headerFields (world.cells db)) log, appendLimit db capacity)
      else .error (), world.tick ticks) := by
  have placed := rep.header.placed
  have low : ¬cursor db log < dataLba db := Nat.not_lt.mpr (Nat.le_add_right _ _)
  rw [appendOpen, run_bind_ok opened, run_bind_ok (run_getStatics faults _), World.tick_statics, statics]
  simp only [withLog, placed.dataLba, placed.totalSectors, low, false_or]
  rw [← dataEnd, ← appendLimit]
  by_cases free : log.length < memoryDbMapEntryCapacity
  · by_cases below : cursor db log < appendLimit db capacity
    · simp only [free, below, Nat.not_le.mpr free, Nat.not_le.mpr below, if_false, and_self, if_true]
      rfl
    · simp only [below, Nat.not_le.mpr free, Nat.le_of_not_lt below, if_false, and_false, if_true]
      rfl
  · simp only [free, Nat.le_of_not_lt free, ge_iff_le, if_false, false_and, if_true]
    rfl

variable (content : 0 < payload.length)
include content

theorem run_append_accepted (accepted : Accepts db capacity log payload) :
    run faults (appendMemoryDb payload) world = run faults (do
      writeAll (dataWrites (cursor db log) payload)
      let sector ← readBlock (entryLba db log.length)
      writeAll [(entryLba db log.length, patchMapEntry sector (log.length % 32 * 16) (newEntry db log payload)),
        countWrite db log]
      memoryDbWriteHeader (withLog db (headerFields (world.cells db)) (log ++ [payload]))
      pure payload.length) (world.tick ticks) := by
  have sectors := sectorsForBytes_pos _ content
  have below : cursor db log < appendLimit db capacity := by
    have fits := accepted.2
    omega
  have checks := run_appendOpen rep statics opened
  simp only [accepted.1, below, and_self, if_true] at checks
  rw [run_append_registered faults statics content, run_bind_ok checks]
  rw [← appendBody_eq db capacity _ log payload rep.region rep.header.placed accepted]

theorem run_append_rejected (rejected : ¬Accepts db capacity log payload) :
    (run faults (appendMemoryDb payload) world).1 = .error () ∧
      Kept db log world (run faults (appendMemoryDb payload) world).2 := by
  have checks := run_appendOpen rep statics opened
  rw [run_append_registered faults statics content]
  by_cases started : log.length < memoryDbMapEntryCapacity ∧ cursor db log < appendLimit db capacity
  · have beyond : ¬cursor db log + sectorsForBytes payload.length ≤ appendLimit db capacity :=
      fun fits => rejected ⟨started.1, fits⟩
    simp only [started, and_self, if_true] at checks
    rw [run_bind_ok checks]
    simp only [withLog]
    rw [appendChunks_eq _ _ _ _ started.2.le]
    simp only [beyond, if_false, bind_assoc, fail_bind]
    generalize batch : (dataWrites (cursor db log) payload).take (appendLimit db capacity - cursor db log) = writes
    -- whether or not a sector is refused, all that reached the disk lies past the cursor
    have above : ∀ write ∈ writes, cursor db log ≤ write.1 := fun write member =>
      (dataWrites_bounds _ _ write (mem_of_mem_take (batch ▸ member))).1
    have apart : ∀ write ∈ writes, write.1 ≠ db := by
      intro write member
      have low := above write member
      simp only [cursor, dataLba] at low
      omega
    rcases run_writeAll_cases faults writes (world.tick ticks) with ⟨_, ran⟩ | ⟨k, inside, _, ran⟩
    · rw [run_bind_ok ran]
      exact ⟨rfl, kept_store apart (represents_data rep above) ticks⟩
    · rw [run_bind_error ran]
      have cut : Represents db (applyWrites (writes.take k) world.cells) log :=
        represents_data rep fun write member => above write (mem_of_mem_take member)
      have cutKept := kept_store (fun write member => apart write (mem_of_mem_take member)) cut ticks
      exact ⟨rfl, cutKept.issue _ (apart _ (getElem_mem inside))⟩
  · simp only [started, if_false] at checks
    rw [run_bind_error checks]
    exact ⟨rfl, rep, rfl, rfl, [], by simp, by simp⟩

theorem run_append_committed (accepted : Accepts db capacity log payload)
    (answered : faults.reads (world.reads + ticks) = false)
    (works : ∀ i < sectorsForBytes payload.length + 2, faults.writes (world.issued.length + i) = false) :
    run faults (appendMemoryDb payload) world =
      if faults.writes (world.issued.length + (sectorsForBytes payload.length + 2)) then
        (.error (), ((world.tick (ticks + 1)).store (commitWrites db world.cells log payload)).issue db
          (headerWrite db world.cells log payload).2)
      else (.ok payload.length, (world.tick (ticks + 1)).store (appendWrites db world.cells log payload)) := by
  have data : run faults (writeAll (dataWrites (cursor db log) payload)) (world.tick ticks) =
      (.ok (), (world.tick ticks).store (dataWrites (cursor db log) payload)) :=
    run_writeAll_ok _ fun i inside => works i (by simp at inside; omega)
  have read := run_readEntrySector accepted answered
  have maps : run faults (writeAll [entryWrite db world.cells log payload, countWrite db log])
      (((world.tick ticks).store (dataWrites (cursor db log) payload)).tick 1) =
      (.ok (), (world.tick (ticks + 1)).store (commitWrites db world.cells log payload)) := by
    rw [run_writeAll_ok]
    · rw [World.tick_store, World.store_store, ← World.tick_store, World.tick_tick, commitWrites]
    · intro i inside
      have later := works (sectorsForBytes payload.length + i) (by simp at inside; omega)
      simpa [Nat.add_assoc] using later
  have placed : Placed db (withLog db (headerFields (world.cells db)) (log ++ [payload])) :=
    Placed.withLog rep.header.placed _
  have registered : ((world.tick (ticks + 1)).store (commitWrites db world.cells log payload)).statics =
      ⟨some capacity, some db⟩ := statics
  have position : ((world.tick (ticks + 1)).store (commitWrites db world.cells log payload)).issued.length =
      world.issued.length + (sectorsForBytes payload.length + 2) := by
    simp [commitWrites_length]
  rw [run_append_accepted rep statics opened content accepted, run_bind_ok data, run_bind_ok read,
    ← entryWrite, run_bind_ok maps, run_bind, run_writeHeader faults registered placed]
  cases refused : faults.writes (world.issued.length + (sectorsForBytes payload.length + 2)) with
  | true =>
    rw [run_writeBlock_error (by rw [position]; exact refused)]
    rfl
  | false =>
    rw [run_writeBlock_ok (by rw [position]; exact refused), World.store_store]
    rfl

theorem run_append_uncommitted (accepted : Accepts db capacity log payload)
    (stopped : ¬(faults.reads (world.reads + ticks) = false ∧
      ∀ i < sectorsForBytes payload.length + 2, faults.writes (world.issued.length + i) = false)) :
    (run faults (appendMemoryDb payload) world).1 = .error () ∧
      Kept db log world (run faults (appendMemoryDb payload) world).2 := by
  have apart : ∀ write ∈ commitWrites db world.cells log payload, write.1 ≠ db := commitWrites_apart accepted
  rw [run_append_accepted rep statics opened content accepted]
  rcases run_writeAll_cases faults (dataWrites (cursor db log) payload) (world.tick ticks) with
    ⟨dataWorks, data⟩ | ⟨k, inside, _, data⟩
  · rw [run_bind_ok data]
    cases answered : faults.reads (world.reads + ticks) with
    | true =>
      have early : sectorsForBytes payload.length + 0 ≤ sectorsForBytes payload.length + 1 := by omega
      have cutKept := kept_cut rep content accepted early (ticks + 1)
      rw [commitWrites_take, take_zero, append_nil] at cutKept
      rw [run_bind_error (run_readBlock_error (by simpa using answered) _)]
      exact ⟨rfl, cutKept⟩
    | false =>
      rw [run_bind_ok (run_readEntrySector accepted answered), ← entryWrite]
      rcases run_writeAll_cases faults [entryWrite db world.cells log payload, countWrite db log]
          (((world.tick ticks).store (dataWrites (cursor db log) payload)).tick 1) with
        ⟨mapWorks, _⟩ | ⟨k, inside, _, maps⟩
      · refine absurd ⟨answered, fun i bound => ?_⟩ stopped
        rcases Nat.lt_or_ge i (sectorsForBytes payload.length) with first | later
        · exact dataWorks i (by simpa using first)
        · have works := mapWorks (i - sectorsForBytes payload.length) (by simp; omega)
          simp only [World.tick_issued, World.store_issued, length_append, dataWrites_length] at works
          rwa [Nat.add_assoc, Nat.add_sub_cancel' later] at works
      · have early : sectorsForBytes payload.length + k ≤ sectorsForBytes payload.length + 1 := by
          simp at inside
          omega
        have cutKept := kept_cut rep content accepted early (ticks + 1)
        rw [commitWrites_take, ← World.store_store] at cutKept
        rw [run_bind_error maps]
        exact ⟨rfl, cutKept.issue _ (apart _ (mem_append_right _ (getElem_mem inside)))⟩
  · have cut : (commitWrites db world.cells log payload).take k =
        (dataWrites (cursor db log) payload).take k := take_append_of_le_length inside.le
    have early : k ≤ sectorsForBytes payload.length + 1 := by
      simp at inside
      omega
    have cutKept := kept_cut rep content accepted early ticks
    rw [cut] at cutKept
    rw [run_bind_error data]
    exact ⟨rfl, cutKept.issue _ (apart _ (mem_append_left _ (getElem_mem inside)))⟩

end

/-! A registered database on a disk that answers everything. -/

structure Ready (db capacity : Nat) (log : List (List UInt8)) (world : Disk) : Prop where
  statics : world.statics = ⟨some capacity, some db⟩
  rep : Represents db world.cells log
  inStep : InStep db world.cells log

section
variable {db capacity : Nat} {world : Disk} {log : List (List UInt8)} {payload : List UInt8}

section
variable (ready : Ready db capacity log world)

include ready

theorem Ready.kept (kept : Kept db log world after) : Ready db capacity log after := by
  refine ⟨kept.statics.trans ready.statics, kept.rep, ?_⟩
  rw [InStep, kept.header]
  exact ready.inStep

omit ready in
theorem ready_stored {writes : List (Nat × Sector)} (statics : world.statics = ⟨some capacity, some db⟩)
    (result : Represents db (applyWrites writes world.cells) log ∧ InStep db (applyWrites writes world.cells) log)
    (ticks : Nat) : Ready db capacity log ((world.tick ticks).store writes) :=
  ⟨statics, result.1, result.2⟩

omit ready in
theorem run_append_works (statics : world.statics = ⟨some capacity, some db⟩)
    (rep : Represents db world.cells log) (content : 0 < payload.length)
    (accepted : Accepts db capacity log payload) : run Faults.none (appendMemoryDb payload) world =
      (.ok payload.length,
        (world.tick (log.length + 3)).store (appendWrites db world.cells log payload)) := by
  have opened := run_open_ok rep fun i (_ : i < log.length + 2) => Faults.none_readsWork _
  rw [run_append_committed rep statics opened content accepted (Faults.none_readsWork _)
    fun i _ => Faults.none_writesWork _]
  rfl

theorem run_append_ready (content : 0 < payload.length) (accepted : Accepts db capacity log payload) :
    run Faults.none (appendMemoryDb payload) world =
      (.ok payload.length,
        (world.tick (log.length + 3)).store (appendWrites db world.cells log payload)) :=
  run_append_works ready.statics ready.rep content accepted

theorem appendOpen_ready {opened : MemoryDbHeader × Nat}
    (ran : run Faults.none (appendOpen db) world = (.ok opened, after)) :
    opened.1.nextAppendLba = cursor db log := by
  have checks := run_appendOpen ready.rep ready.statics
    (run_open_ok ready.rep fun i (_ : i < log.length + 2) => Faults.none_readsWork _)
  rw [checks] at ran
  have outcome := congrArg Prod.fst ran
  split at outcome
  · rw [← Except.ok.inj outcome]
    rfl
  · cases outcome

theorem ready_appended (content : 0 < payload.length) (accepted : Accepts db capacity log payload)
    (ticks : Nat) : Ready db capacity (log ++ [payload])
      ((world.tick ticks).store (appendWrites db world.cells log payload)) :=
  ready_stored ready.statics (represents_appended accepted ready.rep content) ticks

theorem run_append_full (content : 0 < payload.length) (rejected : ¬Accepts db capacity log payload) :
    (run Faults.none (appendMemoryDb payload) world).1 = .error () ∧
      Ready db capacity log (run Faults.none (appendMemoryDb payload) world).2 := by
  have opened := run_open_ok ready.rep fun i (_ : i < log.length + 2) => Faults.none_readsWork _
  obtain ⟨failed, kept⟩ := run_append_rejected ready.rep ready.statics opened content rejected
  exact ⟨failed, ready.kept kept⟩

end

end

end HermitLocal.Ahci.AppendRun
