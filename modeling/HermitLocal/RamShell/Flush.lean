import HermitLocal.Ahci.Reboot
import HermitLocal.Syscalls

/-! Flushing the session delta of `hermit_app.rs` on a disk that may refuse any
access. A flush that fails keeps the delta and appends it again later, so an append
that fails after its commit point stores the delta twice. -/

namespace HermitLocal.RamShell.Flush
open Lib.BlockProgram Lib.BlockProgram.Program List
open Ahci.Layout Ahci.MemoryDb Ahci.Log
open Ahci.Recovery Ahci.Append Ahci.AppendRun Ahci.Format
open Ahci.Reboot Syscalls

def bitappFlushMemoryDb (sessionDelta : List UInt8) : Driver (List UInt8) :=
  if sessionDelta.length = 0 then pure sessionDelta
  else do
    let ret ← sysAppendMemoryDb (some sessionDelta)
    if ret < 0 then pure sessionDelta else pure []

theorem run_flush (faults : Faults) {delta : List UInt8} (content : 0 < delta.length) (world : Disk) :
    run faults (bitappFlushMemoryDb delta) world =
      (.ok (match (run faults (appendMemoryDb delta) world).1 with
        | .ok _ => []
        | .error _ => delta), (run faults (appendMemoryDb delta) world).2) := by
  rw [bitappFlushMemoryDb, if_neg content.ne', run_bind_ok (run_sysAppend faults delta world)]
  cases (run faults (appendMemoryDb delta) world).1 with
  | ok written => simp [Int.not_lt.mpr (i32Count_nonneg written)]
  | error _ => rfl

/-! The three ways an append can end. -/

/-- How many sectors are read to open the database: the header, then the map until a read fails. -/
def openReads (faults : Faults) (world : Disk) (entries : Nat) : Nat :=
  ((range (entries + 1)).find? fun k => faults.reads (world.reads + (k + 1))).getD entries + 2

/-- An append of the payload comes to its last write, that of the header, and only this one is refused. -/
structure HeaderRefused (db : Nat) (faults : Faults) (payload : List UInt8) (world : Disk) : Prop where
  content : 0 < payload.length
  headerRead : faults.reads world.reads = false
  entries : (headerFields (world.cells db)).mapEntriesUsed < memoryDbMapEntryCapacity
  fits : ∃ capacity ∈ world.statics.ssdSectorCount,
    (headerFields (world.cells db)).nextAppendLba + sectorsForBytes payload.length ≤ appendLimit db capacity
  mapRead : faults.reads (world.reads + openReads faults world (headerFields (world.cells db)).mapEntriesUsed) = false
  committed : ∀ i < sectorsForBytes payload.length + 2, faults.writes (world.issued.length + i) = false
  refused : faults.writes (world.issued.length + (sectorsForBytes payload.length + 2)) = true

variable {db capacity : Nat} {bytes : List UInt8}

section
variable {log : List (List UInt8)} {world : Disk} {payload : List UInt8}

theorem run_open_inStep {faults : Faults} (rep : Represents db world.cells log) (inStep : InStep db world.cells log)
    (answered : faults.reads world.reads = false) : run faults (memoryDbOpen db) world =
      (.ok (withLog db (headerFields (world.cells db)) log), world.tick (openReads faults world log.length)) := by
  unfold openReads
  cases failing : (range (log.length + 1)).find? fun k => faults.reads (world.reads + (k + 1)) with
  | none =>
    apply run_open_ok rep
    intro i inside
    cases i with
    | zero => exact answered
    | succ i => simpa using find?_range_eq_none.mp failing i (by omega)
  | some k =>
    obtain ⟨fails, inside, before⟩ := find?_range_eq_some.mp failing
    rw [inStep, Option.getD_some]
    refine run_open_fallback rep (mem_range.mp inside) (fun i early => ?_) fails
    cases i with
    | zero => exact answered
    | succ i => simpa using before i (by omega)

theorem headerRefused_iff (ready : Ready db capacity log world) (faults : Faults) :
    HeaderRefused db faults payload world ↔ 0 < payload.length ∧ faults.reads world.reads = false ∧
      Accepts db capacity log payload ∧ (faults.reads (world.reads + openReads faults world log.length) = false ∧
        ∀ i < sectorsForBytes payload.length + 2, faults.writes (world.issued.length + i) = false) ∧
      faults.writes (world.issued.length + (sectorsForBytes payload.length + 2)) = true := by
  have used : log.length = (headerFields (world.cells db)).mapEntriesUsed := congrArg MemoryDbHeader.mapEntriesUsed ready.inStep
  have next : cursor db log = (headerFields (world.cells db)).nextAppendLba :=
    congrArg MemoryDbHeader.nextAppendLba ready.inStep
  constructor
  · rintro ⟨content, headerRead, entries, ⟨size, known, fits⟩, mapRead, committed, refused⟩
    rw [ready.statics] at known
    cases known
    rw [← used] at entries mapRead
    rw [← next] at fits
    exact ⟨content, headerRead, ⟨entries, fits⟩, ⟨mapRead, committed⟩, refused⟩
  · rintro ⟨content, headerRead, ⟨entries, fits⟩, ⟨mapRead, committed⟩, refused⟩
    rw [used] at entries mapRead
    rw [next] at fits
    refine ⟨content, headerRead, entries, ⟨capacity, ?_, fits⟩, mapRead, committed, refused⟩
    rw [ready.statics]
    rfl

theorem append_outcome (ready : Ready db capacity log world) (content : 0 < payload.length) (faults : Faults) :
    ((run faults (appendMemoryDb payload) world).1 = .error () ∧ ¬HeaderRefused db faults payload world ∧
      Ready db capacity log (run faults (appendMemoryDb payload) world).2) ∨
    ((run faults (appendMemoryDb payload) world).1 = .error () ∧ HeaderRefused db faults payload world ∧
      (run faults (appendMemoryDb payload) world).2.statics = ⟨some capacity, some db⟩ ∧
      Represents db (run faults (appendMemoryDb payload) world).2.cells (log ++ [payload])) ∨
    ((run faults (appendMemoryDb payload) world).1 = .ok payload.length ∧ ¬HeaderRefused db faults payload world ∧
      Ready db capacity (log ++ [payload]) (run faults (appendMemoryDb payload) world).2) := by
  rw [headerRefused_iff ready]
  cases answered : faults.reads world.reads with
  | true =>
    have closed : run faults (memoryDbOpen db) world = (.error (), world.tick 1) := by
      have header := run_readHeader ready.rep faults
      simp only [answered, if_true] at header
      rw [memoryDbOpen, run_bind_error header]
    have stopped : run faults (appendMemoryDb payload) world = (.error (), world.tick 1) := by
      rw [run_append_registered faults ready.statics content, appendOpen, bind_assoc, run_bind_error closed]
    rw [stopped]
    exact .inl ⟨rfl, by simp, ready.kept ⟨ready.rep, rfl, rfl, [], by simp, by simp⟩⟩
  | false =>
    have opened := run_open_inStep ready.rep ready.inStep answered
    by_cases accepted : Accepts db capacity log payload
    swap
    · obtain ⟨failed, kept⟩ := run_append_rejected ready.rep ready.statics opened content accepted
      exact .inl ⟨failed, fun all => accepted all.2.2.1, ready.kept kept⟩
    by_cases committed : faults.reads (world.reads + openReads faults world log.length) = false ∧
        ∀ i < sectorsForBytes payload.length + 2, faults.writes (world.issued.length + i) = false
    swap
    · obtain ⟨failed, kept⟩ := run_append_uncommitted ready.rep ready.statics opened content accepted committed
      exact .inl ⟨failed, fun all => committed all.2.2.2.1, ready.kept kept⟩
    right
    rw [run_append_committed ready.rep ready.statics opened content accepted committed.1 committed.2]
    cases refused : faults.writes (world.issued.length + (sectorsForBytes payload.length + 2)) with
    | true =>
      left
      exact ⟨rfl, ⟨content, rfl, accepted, committed, rfl⟩, ready.statics, represents_committed accepted ready.rep content⟩
    | false =>
      right
      refine ⟨rfl, ?_, ready_appended ready content accepted _⟩
      rintro ⟨-, -, -, -, fails⟩
      cases fails

end

/-! Sessions that produce bytes and flush them. -/

structure Session where
  delta : List UInt8
  disk : Disk

inductive Event where
  | produce (bytes : List UInt8)
  | flush (faults : Faults)

def Event.step (session : Session) : Event → Session
  | .produce bytes => ⟨session.delta ++ bytes, session.disk⟩
  | .flush faults =>
      match run faults (bitappFlushMemoryDb session.delta) session.disk with
      | (.ok delta, disk) => ⟨delta, disk⟩
      | (.error _, disk) => ⟨session.delta, disk⟩

variable {session : Session}

theorem step_flush (faults : Faults) (content : 0 < session.delta.length) : Event.step session (.flush faults) =
      ⟨match (run faults (appendMemoryDb session.delta) session.disk).1 with
        | .ok _ => []
        | .error _ => session.delta, (run faults (appendMemoryDb session.delta) session.disk).2⟩ := by
  rw [Event.step, run_flush faults content]

def play : List Event → Session → Session
  | [], session => session
  | event :: rest, session => play rest (event.step session)

def produced : List Event → List UInt8
  | [] => []
  | .produce bytes :: rest => bytes ++ produced rest
  | .flush _ :: rest => produced rest

def Event.Invisible (session : Session) : Event → Prop
  | .produce _ => True
  | .flush faults =>
      (run faults (appendMemoryDb session.delta) session.disk).1 = .error () →
        ∀ bufLen, readBack (run faults (appendMemoryDb session.delta) session.disk).2 bufLen =
          readBack session.disk bufLen

def AllInvisible : List Event → Session → Prop
  | [], _ => True
  | event :: rest, session => event.Invisible session ∧ AllInvisible rest (event.step session)

def Event.Refused (db : Nat) (session : Session) : Event → Prop
  | .produce _ => False
  | .flush faults => HeaderRefused db faults session.delta session.disk

def NeverRefused (db : Nat) : List Event → Session → Prop
  | [], _ => True
  | event :: rest, session => ¬event.Refused db session ∧ NeverRefused db rest (event.step session)

def Holds (db capacity : Nat) (bytes : List UInt8) (session : Session) : Prop :=
  ∃ log, Ready db capacity log session.disk ∧ log.flatten ++ session.delta = bytes

section
variable (holds : Holds db capacity bytes session)

include holds

theorem event_step (event : Event) (accepted : ¬event.Refused db session) :
    event.Invisible session ∧ Holds db capacity (bytes ++ produced [event]) (event.step session) := by
  obtain ⟨log, ready, total⟩ := holds
  cases event with
  | produce more =>
    refine ⟨trivial, log, ready, ?_⟩
    simp [Event.step, produced, ← total]
  | flush faults =>
    simp only [produced, append_nil, Event.Invisible, Event.step]
    rcases Nat.eq_zero_or_pos session.delta.length with empty | content
    · have nothing : session.delta = [] := length_eq_zero_iff.mp empty
      refine ⟨?_, log, ?_, ?_⟩
      · rw [nothing, run_append_nil faults ready.statics]
        exact fun failed => by cases failed
      · simpa [bitappFlushMemoryDb, nothing] using ready
      · simpa [bitappFlushMemoryDb, nothing] using total
    · rw [run_flush faults content]
      rcases append_outcome ready content faults with
        ⟨failed, _, kept⟩ | ⟨_, refused, _⟩ | ⟨succeeded, _, grown⟩
      · refine ⟨fun _ bufLen => ?_, log, kept, ?_⟩
        · rw [readBack_represents kept.statics kept.rep, readBack_represents ready.statics ready.rep]
        · rw [failed]
          exact total
      · exact absurd refused accepted
      · refine ⟨fun failed => ?_, log ++ [session.delta], grown, ?_⟩
        · rw [succeeded] at failed
          cases failed
        · rw [succeeded]
          simpa using total

theorem refused_visible (event : Event) (refused : event.Refused db session) : ¬event.Invisible session := by
  obtain ⟨log, ready, _⟩ := holds
  cases event with
  | produce more => exact refused.elim
  | flush faults =>
    rcases append_outcome ready refused.content faults with
      ⟨_, accepted, _⟩ | ⟨failed, _, statics, grown⟩ | ⟨_, accepted, _⟩
    · exact absurd refused accepted
    · intro invisible
      have same := invisible failed (log.flatten.length + session.delta.length)
      have content := refused.content
      rw [readBack_represents statics grown, readBack_represents ready.statics ready.rep] at same
      have lengths := congrArg length (Except.ok.inj same)
      simp only [length_take, flatten_append, flatten_singleton, length_append] at lengths
      omega
    · exact absurd refused accepted

theorem play_holds (events : List Event) (accepted : NeverRefused db events session) :
    AllInvisible events session ∧ Holds db capacity (bytes ++ produced events) (play events session) := by
  induction events generalizing bytes session with
  | nil => exact ⟨trivial, by simpa [produced, play] using holds⟩
  | cons event rest ih =>
    obtain ⟨invisible, next⟩ := event_step holds event accepted.1
    obtain ⟨others, last⟩ := ih next accepted.2
    refine ⟨⟨invisible, others⟩, ?_⟩
    have split : produced (event :: rest) = produced [event] ++ produced rest := by
      cases event <;> simp [produced]
    rw [split, ← append_assoc]
    exact last

theorem invisible_accepted (events : List Event) (invisible : AllInvisible events session) :
    NeverRefused db events session := by
  induction events generalizing bytes session with
  | nil => trivial
  | cons event rest ih =>
    have accepted : ¬event.Refused db session := fun refused => refused_visible holds event refused invisible.1
    exact ⟨accepted, ih (event_step holds event accepted).2 invisible.2⟩

end

/-- Each byte is kept once exactly if no append has its header write refused. -/
theorem failed_appends_invisible_iff {db capacity : Nat} {log : List (List UInt8)} (session : Session)
    (ready : Ready db capacity log session.disk) (events : List Event) :
    (AllInvisible events session ∧ ∃ stored,
        stored ++ (play events session).delta = log.flatten ++ session.delta ++ produced events ∧
        ∀ bufLen, readBack (play events session).disk bufLen = .ok (stored.take bufLen)) ↔
      NeverRefused db events session := by
  have holds : Holds db capacity (log.flatten ++ session.delta) session := ⟨log, ready, rfl⟩
  constructor
  · exact fun both => invisible_accepted holds events both.1
  · intro accepted
    obtain ⟨invisible, final, finalReady, total⟩ := play_holds holds events accepted
    exact ⟨invisible, final.flatten, total, readBack_represents finalReady.statics finalReady.rep⟩

def firstRefused : Faults := ⟨fun _ => false, fun i => i == 34⟩

def failThenFlush : List Event := [.produce [4], .flush firstRefused, .produce [5], .flush Faults.none]

theorem failed_appends_invisible_sample :
    (run firstRefused (appendMemoryDb [1, 2, 3, 4]) sampleDisk).1 = .error () ∧
      AllInvisible failThenFlush ⟨[1, 2, 3], sampleDisk⟩ ∧ ∃ stored,
        stored ++ (play failThenFlush ⟨[1, 2, 3], sampleDisk⟩).delta = [1, 2, 3, 4, 5] ∧
        ∀ bufLen, readBack (play failThenFlush ⟨[1, 2, 3], sampleDisk⟩).disk bufLen = .ok (stored.take bufLen) := by
  refine ⟨by decide +kernel, (failed_appends_invisible_iff ⟨[1, 2, 3], sampleDisk⟩ sampleDisk_ready failThenFlush).mpr ?_⟩
  refine ⟨id, ?_, id, ?_, trivial⟩
  · intro refused
    have first : firstRefused.writes (sampleDisk.issued.length + 0) = false := refused.committed 0 (by omega)
    exact absurd first (by decide)
  · intro refused
    cases refused.refused

def fourthRefused : Faults := ⟨fun _ => false, fun i => i == 37⟩

theorem refused_header_write_duplicates : readBack sampleDisk 6 = .ok [] ∧
      (run fourthRefused (appendMemoryDb [1, 2, 3]) sampleDisk).1 = .error () ∧
      readBack (run fourthRefused (appendMemoryDb [1, 2, 3]) sampleDisk).2 6 = .ok [1, 2, 3] ∧
      readBack (play [.flush fourthRefused, .flush Faults.none] ⟨[1, 2, 3], sampleDisk⟩).disk 6 =
        .ok [1, 2, 3, 1, 2, 3] := by
  have ready := sampleDisk_ready
  have content : 0 < [(1 : UInt8), 2, 3].length := by decide
  have length : sampleDisk.issued.length = 34 := by
    decide
  have opened := run_open_ok ready.rep fun i (_ : i < [].length + 2) =>
    (rfl : fourthRefused.reads (sampleDisk.reads + i) = false)
  have first := run_append_committed ready.rep ready.statics opened content (by decide) rfl fun i inside => by
    simp only [fourthRefused, beq_eq_false_iff_ne]
    have bound : i < 3 := inside
    omega
  have position : fourthRefused.writes
      (sampleDisk.issued.length + (sectorsForBytes [(1 : UInt8), 2, 3].length + 2)) = true := by
    decide
  simp only [position, if_true] at first
  have stored : Represents 0 (run fourthRefused (appendMemoryDb [1, 2, 3]) sampleDisk).2.cells [[1, 2, 3]] := by
    rw [first]
    exact represents_committed (show Accepts 0 200000 [] [1, 2, 3] by decide) ready.rep content
  have statics : (run fourthRefused (appendMemoryDb [1, 2, 3]) sampleDisk).2.statics = ⟨some 200000, some 0⟩ := by
    rw [first]
    exact ready.statics
  refine ⟨?_, by rw [first], ?_, ?_⟩
  · rfl
  · rw [readBack_represents statics stored]
    rfl
  · -- the header is stale now, but recovery reads the map
    have accepted : Accepts 0 200000 [[1, 2, 3]] [1, 2, 3] := by decide
    have again := run_append_works statics stored content accepted
    have twice := ready_stored statics (represents_appended accepted stored content) ([[(1 : UInt8), 2, 3]].length + 3)
    have kept : Event.step ⟨[1, 2, 3], sampleDisk⟩ (.flush fourthRefused) =
        ⟨[1, 2, 3], (run fourthRefused (appendMemoryDb [1, 2, 3]) sampleDisk).2⟩ := by
      rw [step_flush fourthRefused content, first]
    have flushed : (play [.flush fourthRefused, .flush Faults.none] ⟨[1, 2, 3], sampleDisk⟩).disk =
        (run Faults.none (appendMemoryDb [1, 2, 3])
          (run fourthRefused (appendMemoryDb [1, 2, 3]) sampleDisk).2).2 := by
      rw [play, play, play, kept, step_flush Faults.none content]
    rw [flushed, again, readBack_represents twice.statics twice.rep]
    rfl

end HermitLocal.RamShell.Flush
