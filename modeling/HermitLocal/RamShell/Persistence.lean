import HermitLocal.RamShell.Bounds
import HermitLocal.RamShell.Flush
import HermitLocal.RamShell.Replay

/-! The assistant's memory across boots: sessions of prompts and forgets, flushes of
their deltas to the database on a working disk, and the history that the next boot
loads from the first 64 KiB of the log. -/

namespace HermitLocal.RamShell.Persistence
open Lib.Wire Lib.BlockProgram Lib.BlockProgram.Program List Option
open Ahci.Layout Ahci.MemoryDb Ahci.Plan Ahci.Log
open Ahci.Recovery Ahci.Append Ahci.AppendRun Ahci.Format
open Ahci.Service Ahci.Reboot Syscalls RamShell.Flush
open RamShell.Text RamShell.History RamShell.Bounds RamShell.Parser
open RamShell.Replay

/-! What an edit does to one record. -/

def Drops (edit : Edit) (record : QaRecord) : Prop :=
  match edit with
  | .upsert newer => ∃ key, qaRecordKey newer = some key ∧ qaRecordKey record = some key
  | .forget key => recordMatchesForgetPhrase record key = true

def Survives (record : QaRecord) (later : List Edit) : Prop := ∀ edit ∈ later, ¬Drops edit record

variable {record : QaRecord} {history : Records} {edits : List Edit}

theorem mem_apply {edit : Edit} (member : record ∈ edit.apply history) :
    record ∈ history ∨ edit = .upsert record := by
  cases edit with
  | upsert newer =>
    have either : record ∈ history ∨ record = newer := by
      simp only [Edit.apply, upsertHistoryRecord] at member
      split at member
      · rcases mem_append.mp member with kept | last
        · exact .inl (mem_of_mem_filter kept)
        · exact .inr (mem_singleton.mp last)
      · simpa using member
    exact either.imp_right fun same => by rw [same]
  | forget key => exact .inl (mem_of_mem_filter member)

theorem apply_keeps {edit : Edit} (member : record ∈ history) (kept : ¬Drops edit record) :
    record ∈ edit.apply history := by
  cases edit with
  | upsert newer =>
    simp only [Edit.apply, upsertHistoryRecord]
    split
    next key keyed =>
      have other : qaRecordKey record ≠ some key := fun same => kept ⟨key, keyed, same⟩
      exact mem_append_left _ (mem_filter.mpr ⟨member, by simpa using other⟩)
    · exact mem_append_left _ member
  | forget key =>
    have unmatched : recordMatchesForgetPhrase record key = false := by simpa [Drops] using kept
    exact mem_filter.mpr ⟨member, by simp [unmatched]⟩

theorem upserted (history : Records) (record : QaRecord) : record ∈ (Edit.upsert record).apply history := by
  simp only [Edit.apply, upsertHistoryRecord]
  split <;> simp

theorem replay_append (start : Records) (first second : List Edit) :
    replay start (first ++ second) = replay (replay start first) second := foldl_append

theorem replay_cons (start : Records) (edit : Edit) (rest : List Edit) :
    replay start (edit :: rest) = replay (edit.apply start) rest := rfl

theorem mem_replay {start : Records} (member : record ∈ replay start edits) :
    record ∈ start ∨ .upsert record ∈ edits := by
  induction edits generalizing start with
  | nil => exact .inl member
  | cons edit rest ih =>
    rcases ih member with earlier | later
    · rcases mem_apply earlier with old | new
      · exact .inl old
      · exact .inr (new ▸ mem_cons_self)
    · exact .inr (mem_cons_of_mem _ later)

theorem replay_keeps {start : Records} (member : record ∈ start) (survives : Survives record edits) :
    record ∈ replay start edits := by
  induction edits generalizing start with
  | nil => exact member
  | cons edit rest ih =>
    exact ih (apply_keeps member (survives edit mem_cons_self)) fun other later =>
      survives other (mem_cons_of_mem _ later)

def MostRecent (edits : List Edit) (record : QaRecord) : Prop :=
  ∃ before after, edits = before ++ .upsert record :: after ∧ Survives record after ∧
    ∀ between newer rest, after = between ++ .upsert newer :: rest → ¬Survives newer rest

structure Entry where
  edit : Edit
  removed : Records

def Remembers (trace : List Entry) (history : Records) : Prop :=
  (∀ record, MostRecent (trace.map Entry.edit) record → record ∈ history) ∧
    ∀ before entry after, trace = before ++ entry :: after → ∀ record ∈ entry.removed, record ∈ history →
      .upsert record ∈ after.map Entry.edit

def Truthful (trace : List Entry) : Prop :=
  ∀ entry ∈ trace, ∀ record ∈ entry.removed,
    ∃ key, entry.edit = .forget key ∧ recordMatchesForgetPhrase record key = true

theorem remembers_replay {trace : List Entry} (truthful : Truthful trace) :
    Remembers trace (replay [] (trace.map Entry.edit)) := by
  constructor
  · rintro record ⟨before, after, split, survives, -⟩
    rw [split, replay_append, replay_cons]
    exact replay_keeps (upserted _ record) survives
  · intro before entry after split record removed member
    have inTrace : entry ∈ trace := by simp [split]
    obtain ⟨key, edit, matching⟩ := truthful entry inTrace record removed
    rw [split, map_append, map_cons, edit, replay_append, replay_cons] at member
    rcases mem_replay member with left | again
    · have unmatched := of_mem_filter left
      rw [matching] at unmatched
      cases unmatched
    · exact again

/-! Loading. -/

def scratch (copied : Bytes) : Bytes :=
  (copied ++ replicate (RAM_SHELL_HISTORY_CAP_BYTES - copied.length) 0).take RAM_SHELL_HISTORY_CAP_BYTES

def loadedBytes (ret : Int) (copied : Bytes) : Bytes :=
  (scratch copied).take (min ret.toNat (scratch copied).length)

theorem loadedBytes_fits (ret : Int) (copied : Bytes) : (loadedBytes ret copied).length < WORD := by
  have small : RAM_SHELL_HISTORY_CAP_BYTES < WORD := by decide
  simp only [loadedBytes, scratch, length_take]
  omega

def loadHistory (history : Records) (reply : Int × Bytes) : Option Records :=
  if reply.1 < 0 then some history
  else if reply.1.toNat = 0 then some history
  else (parseStructuredQaRecords (loadedBytes reply.1 reply.2) (loadedBytes_fits _ _) history).map (shrinkRecords 0)

def bitappLoadMemoryDbHistory (history : Records) : Driver (Option Records) := do
  let reply ← sysReadMemoryDb (some RAM_SHELL_HISTORY_CAP_BYTES)
  pure (loadHistory history reply)

section
variable {copied : Bytes} (short : copied.length ≤ RAM_SHELL_HISTORY_CAP_BYTES)
include short

theorem i32Count_window : i32Count copied.length = copied.length := by
  have small : RAM_SHELL_HISTORY_CAP_BYTES < 2 ^ 31 := by decide
  rw [i32Count, if_pos (by omega)]

theorem loadedBytes_copied : loadedBytes copied.length copied = copied := by
  have all : scratch copied = copied ++ replicate (RAM_SHELL_HISTORY_CAP_BYTES - copied.length) 0 := by
    apply take_of_length_le
    simp only [length_append, length_replicate]
    omega
  have count : min copied.length (scratch copied).length = copied.length := by
    rw [all, length_append]
    omega
  rw [loadedBytes, Int.toNat_natCast, count, all, take_left]

theorem loadHistory_copied (fits : copied.length < WORD) : loadHistory [] (i32Count copied.length, copied) =
      (parseStructuredQaRecords copied fits []).map (shrinkRecords 0) := by
  have sign : ¬((copied.length : Int) < 0) := Int.not_lt.mpr (Int.natCast_nonneg _)
  simp only [loadHistory, i32Count_window short, sign, if_false, loadedBytes_copied short, Int.toNat_natCast]
  split
  next empty =>
    have nothing := length_eq_zero_iff.mp empty
    subst nothing
    rw [parse_framed framed_nil]
    rfl
  · rfl

end

theorem run_load {db capacity : Nat} {log : List Bytes} {world : Disk} (ready : Ready db capacity log world)
    (fits : (log.flatten.take RAM_SHELL_HISTORY_CAP_BYTES).length < WORD) :
    ∃ ticks, run Faults.none (bitappLoadMemoryDbHistory []) world =
      (.ok ((parseStructuredQaRecords (log.flatten.take RAM_SHELL_HISTORY_CAP_BYTES) fits []).map (shrinkRecords 0)),
        world.tick ticks) := by
  obtain ⟨ticks, bytes⟩ := run_readMemoryDb Faults.none_readsWork ready.rep ready.statics RAM_SHELL_HISTORY_CAP_BYTES
  have reply : run Faults.none (sysReadMemoryDb (some RAM_SHELL_HISTORY_CAP_BYTES)) world =
      (.ok (i32Count (log.flatten.take RAM_SHELL_HISTORY_CAP_BYTES).length,
        log.flatten.take RAM_SHELL_HISTORY_CAP_BYTES), world.tick ticks) := by
    rw [sysReadMemoryDb, if_neg (by decide), run_bind, run_attempt, bytes]
    rfl
  refine ⟨ticks, ?_⟩
  rw [bitappLoadMemoryDbHistory, run_bind_ok reply, loadHistory_copied (length_take_le _ _) fits]
  rfl

/-! The cap does not bite on what fits the window. -/

theorem historyPayloadLen_apply (history : Records) (edit : Edit) :
    historyPayloadLen (edit.apply history) ≤ historyPayloadLen history + edit.serialize.length := by
  cases edit with
  | upsert record =>
    exact le_trans (historyPayloadLen_upsert history record) (Nat.add_le_add_left (qaRecordPayloadLen_le record) _)
  | forget key => exact le_trans (historyPayloadLen_filter _ _) (Nat.le_add_right _ _)

theorem historyPayloadLen_replay (start : Records) (pieces : List Piece) :
    historyPayloadLen (replay start (pieces.map Piece.edit)) ≤ historyPayloadLen start + (logBytes pieces).length := by
  induction pieces generalizing start with
  | nil => exact Nat.le_add_right _ _
  | cons piece rest ih =>
    have own : piece.edit.serialize.length ≤ piece.bytes.length := by
      rw [Piece.bytes, length_append]
      exact Nat.le_add_left _ _
    calc historyPayloadLen (replay (piece.edit.apply start) (rest.map Piece.edit))
      _ ≤ historyPayloadLen (piece.edit.apply start) + (logBytes rest).length := ih _
      _ ≤ historyPayloadLen start + piece.bytes.length + (logBytes rest).length :=
        Nat.add_le_add_right (le_trans (historyPayloadLen_apply start piece.edit) (Nat.add_le_add_left own _)) _
      _ = historyPayloadLen start + (logBytes (piece :: rest)).length := by
        simp [logBytes, Nat.add_assoc]

theorem historyPayloadLen_framed {bytes : Bytes} (framed : Framed bytes edits) :
    historyPayloadLen (replay [] edits) ≤ bytes.length := by
  obtain ⟨pieces, -, rfl, rfl⟩ := framed
  simpa [historyPayloadLen] using historyPayloadLen_replay [] pieces

theorem shrinkRecords_keeps (small : historyPayloadLen history ≤ RAM_SHELL_HISTORY_CAP_BYTES) :
    shrinkRecords 0 history = history := by
  cases history with
  | nil => rfl
  | cons record rest =>
    rw [shrinkRecords, if_neg]
    simp only [satAdd]
    omega

/-! The whole machine. -/

structure Install where
  db : Nat
  capacity : Nat
  modelStartLba : Nat
  modelLastLba : Nat
  site : Site db capacity
  start : modelStartLba < WORD
  last : modelLastLba < WORD

inductive Action where
  | prompt (prompt answer : Bytes)
  | forget (phrase : Bytes)
  | flush
  | reboot

structure System where
  world : Disk
  shell : Shell
  payloads : List Bytes
  trace : List Entry

namespace System

def prompt (system : System) (prompt answer : Bytes) : System :=
  { system with
    shell := appendToHistory system.shell prompt answer
    trace := system.trace ++ [⟨.upsert ⟨prompt, answer⟩, []⟩] }

def forget (system : System) (phrase : Bytes) : System :=
  if trimAscii phrase = [] then system
  else
    let key := forgetKey (trimAscii phrase)
    { system with
      shell := (appendForgetToHistory system.shell phrase).1
      trace := system.trace ++
        [⟨.forget key, system.shell.history.filter fun record => recordMatchesForgetPhrase record key⟩] }

def flush (system : System) : System :=
  let result := run Faults.none (bitappFlushMemoryDb system.shell.sessionDelta) system.world
  let delta := result.1.toOption.getD system.shell.sessionDelta
  { system with
    world := result.2
    shell := { system.shell with sessionDelta := delta }
    payloads :=
      if delta.isEmpty ∧ ¬system.shell.sessionDelta.isEmpty then system.payloads ++ [system.shell.sessionDelta]
      else system.payloads }

def started (flushed : System) : Except Unit (Option Records) × Disk → Option System
  | (.ok (some history), world) => some { flushed with world := world, shell := ⟨history, []⟩ }
  | _ => none

def reboot (install : Install) (system : System) : Option System :=
  let booted := restart Faults.none install.db install.capacity install.modelStartLba install.modelLastLba
    system.flush.world.cells
  system.flush.started (run Faults.none (bitappLoadMemoryDbHistory []) booted.2)

def step (install : Install) (system : System) : Action → Option System
  | .prompt prompt answer => some (system.prompt prompt answer)
  | .forget phrase => some (system.forget phrase)
  | .flush => some system.flush
  | .reboot => system.reboot install

end System

structure Consistent (install : Install) (system : System) : Prop where
  ready : Ready install.db install.capacity system.payloads system.world
  framed : Framed (system.payloads.flatten ++ system.shell.sessionDelta) (system.trace.map Entry.edit)
  truthful : Truthful system.trace

section
variable {install : Install} {system : System}

theorem flush_empty (empty : system.shell.sessionDelta = []) : system.flush = system := by
  obtain ⟨world, ⟨history, delta⟩, payloads, trace⟩ := system
  cases empty
  rfl

section
variable (consistent : Consistent install system)

include consistent

theorem flush_stored (content : 0 < system.shell.sessionDelta.length)
    (accepted : Accepts install.db install.capacity system.payloads system.shell.sessionDelta) :
    ∃ world, Ready install.db install.capacity (system.payloads ++ [system.shell.sessionDelta]) world ∧
      system.flush = ⟨world, ⟨system.shell.history, []⟩, system.payloads ++ [system.shell.sessionDelta],
        system.trace⟩ := by
  have stored := run_append_ready consistent.ready content accepted
  have nonempty : system.shell.sessionDelta.isEmpty = false := by
    simpa using ne_nil_of_length_pos content
  refine ⟨_, ready_appended consistent.ready content accepted (system.payloads.length + 3), ?_⟩
  simp only [System.flush, run_flush Faults.none content, stored, Except.toOption, getD_some, nonempty,
    isEmpty_nil, Bool.false_eq_true, not_false_eq_true, and_self, if_true]

theorem flush_refused (content : 0 < system.shell.sessionDelta.length)
    (rejected : ¬Accepts install.db install.capacity system.payloads system.shell.sessionDelta) :
    ∃ world, Ready install.db install.capacity system.payloads world ∧
      system.flush = { system with world := world } := by
  obtain ⟨failed, ready⟩ := run_append_full consistent.ready content rejected
  have nonempty : system.shell.sessionDelta.isEmpty = false := by
    simpa using ne_nil_of_length_pos content
  refine ⟨_, ready, ?_⟩
  simp only [System.flush, run_flush Faults.none content, failed, Except.toOption, getD_some, nonempty,
    Bool.false_eq_true, false_and, if_false]

theorem flush_consistent : Consistent install system.flush := by
  rcases Nat.eq_zero_or_pos system.shell.sessionDelta.length with empty | content
  · rwa [flush_empty (length_eq_zero_iff.mp empty)]
  by_cases accepted : Accepts install.db install.capacity system.payloads system.shell.sessionDelta
  · obtain ⟨world, ready, flushed⟩ := flush_stored consistent content accepted
    rw [flushed]
    refine ⟨ready, ?_, consistent.truthful⟩
    simpa using consistent.framed
  · obtain ⟨world, ready, flushed⟩ := flush_refused consistent content accepted
    rw [flushed]
    exact ⟨ready, consistent.framed, consistent.truthful⟩

omit consistent in
theorem truthful_extend {trace : List Entry} {entry : Entry} (truthful : Truthful trace)
    (own : ∀ record ∈ entry.removed, ∃ key, entry.edit = .forget key ∧ recordMatchesForgetPhrase record key = true) :
    Truthful (trace ++ [entry]) := by
  intro other member
  rcases mem_append.mp member with earlier | last
  · exact truthful other earlier
  · rw [mem_singleton.mp last]
    exact own

theorem prompt_consistent {prompt answer : Bytes}
    (untrimmed : shrinkBytes system.shell.sessionDelta (appendNeeded prompt answer) = system.shell.sessionDelta) :
    Consistent install (system.prompt prompt answer) := by
  refine ⟨consistent.ready, ?_, truthful_extend consistent.truthful (by simp)⟩
  simp only [System.prompt, appendToHistory, untrimmed, appendSerializedQa_eq, map_append, map_cons,
    map_nil]
  exact framed_extend _ trivial consistent.framed

theorem forget_consistent {phrase : Bytes}
    (untrimmed : trimAscii phrase ≠ [] →
      shrinkBytes system.shell.sessionDelta (forgetNeeded (forgetKey (trimAscii phrase))) = system.shell.sessionDelta) :
    Consistent install (system.forget phrase) := by
  unfold System.forget
  split
  · exact consistent
  next content =>
    have filled : (trimAscii phrase).isEmpty = false := by simpa using content
    refine ⟨consistent.ready, ?_, truthful_extend consistent.truthful ?_⟩
    · simp only [appendForgetToHistory, filled, Bool.false_eq_true, if_false, untrimmed content,
        appendSerializedForget_eq, map_append, map_cons, map_nil]
      exact framed_extend _ (forgetKey_trimmed (trimAscii_trimAscii phrase) content) consistent.framed
    · intro record removed
      exact ⟨forgetKey (trimAscii phrase), rfl, (mem_filter.mp removed).2⟩

theorem reboot_loads (stays : cursor install.db system.flush.payloads ≤ install.db + MEMORY_DB_TOTAL_SECTORS)
    (fits : (system.flush.payloads.flatten.take RAM_SHELL_HISTORY_CAP_BYTES).length < WORD) :
    ∃ world, Ready install.db install.capacity system.flush.payloads world ∧
      system.reboot install = ((parseStructuredQaRecords
        (system.flush.payloads.flatten.take RAM_SHELL_HISTORY_CAP_BYTES) fits []).map (shrinkRecords 0)).map
          fun history => { system.flush with world := world, shell := ⟨history, []⟩ } := by
  have ready := (flush_consistent consistent).ready
  have reopens := (reopens_iff ready.rep ready.inStep).mpr stays
  obtain ⟨-, booted⟩ := restart_kept install.site install.start install.last ready.rep reopens
    (fun i _ => Faults.none_readsWork i) Faults.none_writesWork
  obtain ⟨ticks, loaded⟩ := run_load booted fits
  refine ⟨_, ready_ticked booted ticks, ?_⟩
  rw [System.reboot, loaded]
  cases Option.map (shrinkRecords 0) (parseStructuredQaRecords _ fits []) with
  | none => rfl
  | some history => rfl

omit consistent in
theorem extent_le (log : List Bytes) : extent log ≤ log.flatten.length := by
  induction log with
  | nil => exact le_rfl
  | cons payload rest ih =>
    rw [extent_cons, flatten_cons, length_append, sectorsForBytes_eq]
    omega

theorem reboot_remembers (flushed : system.flush.shell.sessionDelta = [])
    (window : system.flush.payloads.flatten.length ≤ RAM_SHELL_HISTORY_CAP_BYTES) :
    ∃ next, system.reboot install = some next ∧ Consistent install next ∧ Remembers next.trace next.shell.history := by
  have after := flush_consistent consistent
  have framed := after.framed
  rw [flushed, append_nil] at framed
  have stays : cursor install.db system.flush.payloads ≤ install.db + MEMORY_DB_TOTAL_SECTORS := by
    have sectors := extent_le system.flush.payloads
    simp only [cursor, dataLba, MEMORY_DB_TOTAL_SECTORS, RAM_SHELL_HISTORY_CAP_BYTES, MEMORY_DB_MAP_SECTORS] at *
    omega
  have whole : system.flush.payloads.flatten.take RAM_SHELL_HISTORY_CAP_BYTES = system.flush.payloads.flatten :=
    take_of_length_le window
  have fits : (system.flush.payloads.flatten.take RAM_SHELL_HISTORY_CAP_BYTES).length < WORD := by
    rw [whole]
    exact lt_of_le_of_lt window (by decide)
  obtain ⟨world, ready, loads⟩ := reboot_loads consistent stays fits
  have parsed : parseStructuredQaRecords (system.flush.payloads.flatten.take RAM_SHELL_HISTORY_CAP_BYTES) fits [] =
      some (replay [] (system.flush.trace.map Entry.edit)) := parse_framed (whole.symm ▸ framed) fits []
  have small := le_trans (historyPayloadLen_framed framed) window
  rw [parsed, map_some, shrinkRecords_keeps small] at loads
  refine ⟨_, loads, ⟨ready, ?_, after.truthful⟩, remembers_replay after.truthful⟩
  rwa [append_nil]

end

end

variable {next : System}

section Sessions
variable {install : Install} {system : System}

theorem started_shape {flushed : System} {loaded : Except Unit (Option Records) × Disk}
    (running : flushed.started loaded = some next) :
    next.payloads = flushed.payloads ∧ next.trace = flushed.trace ∧ next.shell.sessionDelta = [] := by
  unfold System.started at running
  split at running
  · cases running
    exact ⟨rfl, rfl, rfl⟩
  · cases running

theorem reboot_shape (rebooted : system.reboot install = some next) :
    next.payloads = system.flush.payloads ∧ next.trace = system.flush.trace ∧ next.shell.sessionDelta = [] := by
  rw [System.reboot] at rebooted
  exact started_shape rebooted

theorem prompt_flush (consistent : Consistent install system) (booted : system.shell.sessionDelta = [])
    (record : QaRecord)
    (accepted : Accepts install.db install.capacity system.payloads (Edit.upsert record).serialize) :
    Consistent install (system.prompt record.question record.answer) ∧
      (system.prompt record.question record.answer).flush.shell.sessionDelta = [] ∧
      (system.prompt record.question record.answer).flush.payloads =
        system.payloads ++ [(Edit.upsert record).serialize] ∧
      (system.prompt record.question record.answer).flush.trace = system.trace ++ [⟨.upsert record, []⟩] := by
  have delta : (system.prompt record.question record.answer).shell.sessionDelta = (Edit.upsert record).serialize := by
    simp only [System.prompt, appendToHistory, booted, shrinkBytes_nil]
    rfl
  have prompted : Consistent install (system.prompt record.question record.answer) :=
    prompt_consistent consistent (by rw [booted, shrinkBytes_nil])
  have content : 0 < (Edit.upsert record).serialize.length := by
    simp [Edit.serialize, appendSerializedQa]
  obtain ⟨world, ready, flushed⟩ := flush_stored prompted (by rwa [delta]) (by rw [delta]; exact accepted)
  rw [flushed, delta]
  exact ⟨prompted, rfl, rfl, rfl⟩

theorem accepts_small (install : Install) {payloads : List Bytes} {payload : Bytes}
    (few : payloads.length < memoryDbMapEntryCapacity)
    (small : payloads.flatten.length + payload.length ≤ 2 * RAM_SHELL_HISTORY_CAP_BYTES - 1024) :
    Accepts install.db install.capacity payloads payload ∧
      cursor install.db (payloads ++ [payload]) ≤ install.db + MEMORY_DB_TOTAL_SECTORS := by
  have sectors := extent_le payloads
  have stays : cursor install.db (payloads ++ [payload]) ≤ install.db + MEMORY_DB_TOTAL_SECTORS := by
    rw [cursor_append]
    simp only [cursor, dataLba, sectorsForBytes_eq, MEMORY_DB_TOTAL_SECTORS, RAM_SHELL_HISTORY_CAP_BYTES,
      MEMORY_DB_MAP_SECTORS] at *
    omega
  refine ⟨⟨few, ?_⟩, stays⟩
  rw [← cursor_append]
  exact le_trans stays install.site.appendLimit_ge

end Sessions

section Runs
variable (install : Install)

def Smooth (system : System) : Action → Prop
  | .prompt prompt answer =>
    shrinkBytes system.shell.sessionDelta (appendNeeded prompt answer) = system.shell.sessionDelta
  | .forget phrase => trimAscii phrase ≠ [] →
    shrinkBytes system.shell.sessionDelta (forgetNeeded (forgetKey (trimAscii phrase))) = system.shell.sessionDelta
  | .flush => True
  | .reboot => system.flush.shell.sessionDelta = [] ∧
    system.flush.payloads.flatten.length ≤ RAM_SHELL_HISTORY_CAP_BYTES

def AllSmooth : System → List Action → Prop
  | _, [] => True
  | system, action :: rest =>
    Smooth system action ∧ ∀ next, system.step install action = some next → AllSmooth next rest

def AllRemembered : System → List Action → Prop
  | _, [] => True
  | system, action :: rest => ∃ next, system.step install action = some next ∧
    (action = .reboot → Remembers next.trace next.shell.history) ∧ AllRemembered next rest

variable {install}

variable {system : System}

theorem step_consistent (consistent : Consistent install system) (action : Action)
    (smooth : Smooth system action) : ∃ next, system.step install action = some next ∧ Consistent install next ∧
      (action = .reboot → Remembers next.trace next.shell.history) := by
  cases action with
  | prompt prompt answer => exact ⟨_, rfl, prompt_consistent consistent smooth, by simp⟩
  | forget phrase => exact ⟨_, rfl, forget_consistent consistent smooth, by simp⟩
  | flush => exact ⟨_, rfl, flush_consistent consistent, by simp⟩
  | reboot =>
    obtain ⟨next, rebooted, after, remembers⟩ := reboot_remembers consistent smooth.1 smooth.2
    exact ⟨next, rebooted, after, fun _ => remembers⟩

theorem run_remembers (consistent : Consistent install system) (actions : List Action)
    (smooth : AllSmooth install system actions) : AllRemembered install system actions := by
  induction actions generalizing system with
  | nil => trivial
  | cons action rest ih =>
    obtain ⟨next, stepped, after, remembers⟩ := step_consistent consistent action smooth.1
    exact ⟨next, stepped, remembers, ih after (smooth.2 next stepped)⟩

/-- Every boot remembers all, while the deltas are stored whole and fit the loader's window. -/
theorem memory_persists {world : Disk} (erased : Ready install.db install.capacity [] world) (actions : List Action)
    (smooth : AllSmooth install ⟨world, ⟨[], []⟩, [], []⟩ actions) :
    AllRemembered install ⟨world, ⟨[], []⟩, [], []⟩ actions := by
  have consistent : Consistent install ⟨world, ⟨[], []⟩, [], []⟩ := ⟨erased, framed_nil, by simp [Truthful]⟩
  exact run_remembers consistent actions smooth

def sampleInstall : Install := ⟨0, 200000, 0, 0, sampleSite, by decide, by decide⟩

theorem sampleInstall_consistent : Consistent sampleInstall ⟨sampleDisk, ⟨[], []⟩, [], []⟩ :=
  ⟨sampleDisk_ready, framed_nil, by simp [Truthful]⟩

theorem memory_persists_short :
    AllRemembered sampleInstall ⟨sampleDisk, ⟨[], []⟩, [], []⟩ [.prompt (ascii "hi") (ascii "ho"), .reboot] := by
  have length : (Edit.upsert ⟨ascii "hi", ascii "ho"⟩).serialize.length = 25 := by
    simp [Edit.serialize, appendSerializedQa, appendDecimal, decimalDigits, pushSeparator, ascii, RAMQA, ANSWER_MARKER]
  have accepted : Accepts 0 200000 [] (Edit.upsert ⟨ascii "hi", ascii "ho"⟩).serialize :=
    (accepts_small sampleInstall (by decide) (by rw [length]; decide)).1
  obtain ⟨-, flushed, payloads, -⟩ := prompt_flush sampleInstall_consistent rfl _ accepted
  refine memory_persists sampleDisk_ready _ ⟨shrinkBytes_nil _, fun next stepped => ?_⟩
  cases stepped
  refine ⟨⟨flushed, ?_⟩, fun _ _ => trivial⟩
  rw [payloads]
  simp [length, RAM_SHELL_HISTORY_CAP_BYTES]

def sessions (records : List QaRecord) : List Action :=
  records.flatMap fun record => [.prompt record.question record.answer, .reboot]

theorem foldlM_session {rest : List QaRecord}
    (rebooted : (system.prompt record.question record.answer).reboot install = some next) :
    (sessions (record :: rest)).foldlM (System.step install) system =
      (sessions rest).foldlM (System.step install) next := by
  have prompting : system.step install (.prompt record.question record.answer) =
      some (system.prompt record.question record.answer) := rfl
  have booting : (system.prompt record.question record.answer).step install .reboot = some next := rebooted
  have unfolded : sessions (record :: rest) = .prompt record.question record.answer :: .reboot :: sessions rest := rfl
  rw [unfolded, foldlM_cons, prompting, bind_eq_bind, bind_some, foldlM_cons, booting,
    bind_eq_bind, bind_some]

theorem sessions_stored (records : List QaRecord) (consistent : Consistent install system)
    (booted : system.shell.sessionDelta = [])
    (few : system.payloads.length + records.length ≤ memoryDbMapEntryCapacity)
    (window : (system.payloads ++ records.map fun record => (Edit.upsert record).serialize).flatten.length ≤
      RAM_SHELL_HISTORY_CAP_BYTES) :
    ∃ next, (sessions records).foldlM (System.step install) system = some next ∧ Consistent install next ∧
      next.shell.sessionDelta = [] ∧
      next.payloads = system.payloads ++ records.map (fun record => (Edit.upsert record).serialize) ∧
      next.trace = system.trace ++ records.map fun record => ⟨.upsert record, []⟩ := by
  induction records generalizing system with
  | nil => exact ⟨system, rfl, consistent, booted, by simp, by simp⟩
  | cons record rest ih =>
    simp only [map_cons, flatten_append, flatten_cons, length_append,
      length_cons] at window few
    have accepted : Accepts install.db install.capacity system.payloads (Edit.upsert record).serialize :=
      (accepts_small install (by omega) (by simp only [RAM_SHELL_HISTORY_CAP_BYTES] at window ⊢; omega)).1
    obtain ⟨prompted, flushed, payloads, trace⟩ := prompt_flush consistent booted record accepted
    have fits : (system.prompt record.question record.answer).flush.payloads.flatten.length ≤
        RAM_SHELL_HISTORY_CAP_BYTES := by
      rw [payloads, flatten_append, length_append, flatten_singleton]
      omega
    obtain ⟨next, rebooted, after, -⟩ := reboot_remembers prompted flushed fits
    obtain ⟨nextPayloads, nextTrace, nextDelta⟩ := reboot_shape rebooted
    rw [payloads] at nextPayloads
    rw [trace] at nextTrace
    obtain ⟨final, ran, finalConsistent, finalDelta, finalPayloads, finalTrace⟩ := ih after nextDelta
      (by rw [nextPayloads, length_append, length_singleton]; omega)
      (by
        rw [nextPayloads]
        simp only [flatten_append, flatten_singleton, length_append]
        omega)
    refine ⟨final, ?_, finalConsistent, finalDelta, ?_, ?_⟩
    · rw [foldlM_session rebooted]
      exact ran
    · rw [finalPayloads, nextPayloads, append_assoc]
      rfl
    · rw [finalTrace, nextTrace, append_assoc]
      rfl

theorem session_beyond_window (consistent : Consistent install system) (booted : system.shell.sessionDelta = [])
    (full : system.payloads.flatten.length = RAM_SHELL_HISTORY_CAP_BYTES)
    (few : system.payloads.length < memoryDbMapEntryCapacity) (record : QaRecord)
    (small : (Edit.upsert record).serialize.length ≤ RAM_SHELL_HISTORY_CAP_BYTES - 1024) :
    ∃ next, (system.prompt record.question record.answer).reboot install = some next ∧
      next.payloads = system.payloads ++ [(Edit.upsert record).serialize] ∧
      next.trace = system.trace ++ [⟨.upsert record, []⟩] ∧
      next.shell.history = shrinkRecords 0 (replay [] (system.trace.map Entry.edit)) := by
  obtain ⟨accepted, stays⟩ := accepts_small install few
    (show system.payloads.flatten.length + (Edit.upsert record).serialize.length ≤ _ by
      simp only [RAM_SHELL_HISTORY_CAP_BYTES] at full small ⊢
      omega)
  obtain ⟨prompted, -, payloads, trace⟩ := prompt_flush consistent booted record accepted
  have window : (system.prompt record.question record.answer).flush.payloads.flatten.take
      RAM_SHELL_HISTORY_CAP_BYTES = system.payloads.flatten := by
    rw [payloads, flatten_append, ← full, take_left]
  have fits : ((system.prompt record.question record.answer).flush.payloads.flatten.take
      RAM_SHELL_HISTORY_CAP_BYTES).length < WORD := by
    rw [window, full]
    decide
  have framed := consistent.framed
  rw [booted, append_nil, ← window] at framed
  obtain ⟨world, -, loads⟩ := reboot_loads prompted (by rwa [payloads]) fits
  rw [parse_framed framed fits []] at loads
  exact ⟨_, loads, payloads, trace, rfl⟩

@[irreducible] def chatAnswer : Bytes := replicate 999 45

theorem chatAnswer_length : chatAnswer.length = 999 := by
  rw [chatAnswer, length_replicate]

def chatRecord (index : Nat) : QaRecord := ⟨[UInt8.ofNat (33 + index), QUESTION_MARK], chatAnswer⟩

theorem chatRecord_length (index : Nat) : (Edit.upsert (chatRecord index)).serialize.length = 1024 := by
  simp [Edit.serialize, appendSerializedQa, chatRecord, appendDecimal, decimalDigits, pushSeparator, ascii, RAMQA,
    ANSWER_MARKER, chatAnswer_length]

theorem chatRecords_length (count : Nat) :
    (((range count).map chatRecord).map fun record => (Edit.upsert record).serialize).flatten.length =
      count * 1024 := by
  simp [length_flatten, Function.comp_def, chatRecord_length]

theorem chatRecord_fresh {index : Nat} (earlier : index < 64) : chatRecord index ≠ chatRecord 64 := by
  intro same
  revert index
  decide

theorem window_forgets_latest :
    ∃ final, (sessions ((range 64).map chatRecord ++ [chatRecord 64])).foldlM (System.step sampleInstall)
        ⟨sampleDisk, ⟨[], []⟩, [], []⟩ = some final ∧
      final.payloads.length = 65 ∧ MostRecent (final.trace.map Entry.edit) (chatRecord 64) ∧
      chatRecord 64 ∉ final.shell.history := by
  have total := chatRecords_length 64
  obtain ⟨system, ran, consistent, delta, payloads, trace⟩ := sessions_stored ((range 64).map chatRecord)
    sampleInstall_consistent rfl (by rw [length_map, length_range]; decide)
    (by rw [nil_append, total]; decide)
  rw [nil_append] at payloads trace
  have count : system.payloads.length = 64 := by
    rw [payloads, length_map, length_map, length_range]
  obtain ⟨final, rebooted, finalPayloads, finalTrace, history⟩ := session_beyond_window consistent delta
    (by rw [payloads, total]; rfl) (by rw [count]; decide) (chatRecord 64) (by rw [chatRecord_length]; decide)
  refine ⟨final, ?_, ?_, ?_, ?_⟩
  · rw [sessions, flatMap_append, foldlM_append]
    rw [sessions] at ran
    rw [ran, bind_eq_bind, bind_some]
    exact foldlM_session rebooted
  · rw [finalPayloads, length_append, count, length_singleton]
  · refine ⟨system.trace.map Entry.edit, [], ?_, by simp [Survives], by simp⟩
    rw [finalTrace, map_append]
    rfl
  · intro member
    rw [history] at member
    rcases mem_replay ((shrinkRecords_suffix _ _).subset member) with start | stored
    · cases start
    · rw [trace] at stored
      obtain ⟨index, earlier, same⟩ : ∃ index < 64, chatRecord index = chatRecord 64 := by simpa using stored
      exact chatRecord_fresh earlier same

end Runs

end HermitLocal.RamShell.Persistence
