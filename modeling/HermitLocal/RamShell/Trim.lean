import HermitLocal.RamShell.Persistence

/-! Trimming the session delta. The cap cuts bytes off the front of the delta wherever
they end, so the reader may start inside a record; what it makes of the rest of that
record depends on the texts the record held. -/

namespace HermitLocal.RamShell.Trim
open Lib.Wire Lib.Simulation RamShell.Text RamShell.History List
open RamShell.Parser RamShell.Replay RamShell.Persistence

variable {layout : Layout} {edit : Edit}

section Layout

structure Layout where
  lead : Bytes
  pieces : List Piece

def Layout.bytes (layout : Layout) : Bytes := layout.lead ++ logBytes layout.pieces

def dropPieces : Nat → List Piece → Layout
  | _, [] => ⟨[], []⟩
  | count, piece :: rest =>
    if count ≤ piece.separator.length then ⟨[], ⟨piece.separated && count == 0, piece.edit⟩ :: rest⟩
    else if count < piece.bytes.length then ⟨piece.bytes.drop count, rest⟩
    else dropPieces (count - piece.bytes.length) rest

def Layout.drop (layout : Layout) (count : Nat) : Layout :=
  if count ≤ layout.lead.length then ⟨layout.lead.drop count, layout.pieces⟩
  else dropPieces (count - layout.lead.length) layout.pieces

def Layout.push (layout : Layout) (edit : Edit) : Layout :=
  ⟨layout.lead, layout.pieces ++ [⟨!layout.bytes.isEmpty, edit⟩]⟩

theorem logBytes_cons (piece : Piece) (rest : List Piece) :
    logBytes (piece :: rest) = piece.bytes ++ logBytes rest := rfl

theorem dropPieces_bytes (pieces : List Piece) (count : Nat) :
    (dropPieces count pieces).bytes = (logBytes pieces).drop count := by
  induction pieces generalizing count with
  | nil => simp [dropPieces, Layout.bytes, logBytes]
  | cons piece rest ih =>
    rw [dropPieces, logBytes_cons]
    split_ifs with inSeparator inText
    · obtain ⟨separated, edit⟩ := piece
      have cases : count = 0 ∨ (separated = true ∧ count = 1) := by
        cases separated
        · exact .inl (Nat.le_zero.mp inSeparator)
        · exact (Nat.le_one_iff_eq_zero_or_eq_one.mp inSeparator).imp_right fun one => ⟨rfl, one⟩
      rcases cases with none | ⟨rfl, rfl⟩
      · simp [none, Layout.bytes, logBytes_cons]
      · rfl
    · rw [drop_append_of_le_length (Nat.le_of_lt inText)]
      rfl
    · rw [ih, drop_append, drop_eq_nil_of_le (Nat.le_of_not_lt inText), nil_append]

theorem drop_bytes (layout : Layout) (count : Nat) : (layout.drop count).bytes = layout.bytes.drop count := by
  unfold Layout.drop
  split_ifs with inLead
  · rw [Layout.bytes, Layout.bytes, drop_append_of_le_length inLead]
  · rw [dropPieces_bytes, Layout.bytes, drop_append, drop_eq_nil_of_le (Nat.le_of_not_le inLead),
      nil_append]

theorem push_bytes (layout : Layout) (edit : Edit) :
    (layout.push edit).bytes = pushSeparator layout.bytes ++ edit.serialize := by
  have separator : pushSeparator layout.bytes = layout.bytes ++ Piece.separator ⟨!layout.bytes.isEmpty, edit⟩ := by
    cases layout.bytes <;> rfl
  calc (layout.push edit).bytes
    _ = layout.bytes ++ Piece.bytes ⟨!layout.bytes.isEmpty, edit⟩ := by
      simp [Layout.push, Layout.bytes, logBytes]
    _ = pushSeparator layout.bytes ++ edit.serialize := by
      rw [separator, Piece.bytes, append_assoc]

structure Layout.Joined (layout : Layout) : Prop where
  wellformed : ∀ piece ∈ layout.pieces, piece.edit.Wellformed
  behind : layout.lead ≠ [] → ∀ piece ∈ layout.pieces, piece.separated = true
  between : ∀ piece ∈ layout.pieces.tail, piece.separated = true

theorem joined_nil : Layout.Joined ⟨[], []⟩ := ⟨by simp, by simp, by simp⟩

theorem joined_dropPieces (pieces : List Piece) (count : Nat) (joined : Layout.Joined ⟨[], pieces⟩) :
    (dropPieces count pieces).Joined ∧
      ∀ piece ∈ (dropPieces count pieces).pieces, ∃ old ∈ pieces, old.edit = piece.edit := by
  induction pieces generalizing count with
  | nil => exact ⟨joined_nil, by simp [dropPieces]⟩
  | cons piece rest ih =>
    have later : Layout.Joined ⟨[], rest⟩ :=
      ⟨fun other member => joined.wellformed other (mem_cons_of_mem _ member), fun some => absurd rfl some,
        fun other member => joined.between other (mem_of_mem_tail member)⟩
    rw [dropPieces]
    split_ifs with inSeparator inText
    · refine ⟨⟨?_, fun some => absurd rfl some, joined.between⟩, ?_⟩
      · intro other member
        rcases mem_cons.mp member with same | member
        · rw [same]
          exact joined.wellformed piece mem_cons_self
        · exact later.wellformed other member
      · intro other member
        rcases mem_cons.mp member with same | member
        · exact ⟨piece, mem_cons_self, by rw [same]⟩
        · exact ⟨other, mem_cons_of_mem _ member, rfl⟩
    · refine ⟨⟨later.wellformed, fun _ => joined.between, later.between⟩, ?_⟩
      exact fun other member => ⟨other, mem_cons_of_mem _ member, rfl⟩
    · obtain ⟨kept, old⟩ := ih (count - piece.bytes.length) later
      refine ⟨kept, fun other member => ?_⟩
      obtain ⟨before, inRest, same⟩ := old other member
      exact ⟨before, mem_cons_of_mem _ inRest, same⟩

theorem joined_drop (joined : layout.Joined) (count : Nat) : (layout.drop count).Joined ∧
      ∀ piece ∈ (layout.drop count).pieces, ∃ old ∈ layout.pieces, old.edit = piece.edit := by
  unfold Layout.drop
  split_ifs with inLead
  · refine ⟨⟨joined.wellformed, fun some => joined.behind ?_, joined.between⟩, ?_⟩
    · intro empty
      exact some (by rw [empty, drop_nil])
    · exact fun piece member => ⟨piece, member, rfl⟩
  · exact joined_dropPieces _ _ ⟨joined.wellformed, fun some => absurd rfl some, joined.between⟩

theorem bytes_nil (nothing : layout.bytes = []) : layout.lead = [] ∧ layout.pieces = [] := by
  obtain ⟨lead, records⟩ := append_eq_nil_iff.mp nothing
  refine ⟨lead, ?_⟩
  cases form : layout.pieces with
  | nil => rfl
  | cons piece rest =>
    rw [form] at records
    have own : piece.edit.serialize = [] := (append_eq_nil_iff.mp (append_eq_nil_iff.mp records).1).2
    cases edit : piece.edit <;>
      simp [edit, Edit.serialize, appendSerializedQa, appendSerializedForget] at own

theorem joined_push (joined : layout.Joined) (wellformed : edit.Wellformed) : (layout.push edit).Joined := by
  have separated (content : layout.bytes ≠ []) : (!layout.bytes.isEmpty) = true := by simpa using content
  constructor
  · intro piece member
    rcases mem_append.mp member with earlier | last
    · exact joined.wellformed piece earlier
    · rw [mem_singleton.mp last]
      exact wellformed
  · intro some piece member
    rcases mem_append.mp member with earlier | last
    · exact joined.behind some piece earlier
    · rw [mem_singleton.mp last]
      exact separated fun nothing => some (bytes_nil nothing).1
  · intro piece member
    cases form : layout.pieces with
    | nil =>
      rw [Layout.push, form] at member
      cases member
    | cons first rest =>
      rw [Layout.push, form] at member
      rcases mem_append.mp member with earlier | last
      · exact joined.between piece (by rw [form]; exact earlier)
      · rw [mem_singleton.mp last]
        apply separated
        intro nothing
        have none := (bytes_nil nothing).2
        rw [form] at none
        cases none

end Layout

section Reading

theorem nextRecord_shift (relQa relDel : Option Nat) (shift : Nat) :
    nextRecord (relQa.map (· + shift)) (relDel.map (· + shift)) =
      (nextRecord relQa relDel).map fun found => (found.1 + shift, found.2) := by
  cases relQa <;> cases relDel <;> simp [nextRecord]
  split <;> rfl

variable {lead : Bytes} {history after : Records}

theorem nextRecord_behind (noQa : findSubslice lead RAMQA = none) (noDel : findSubslice lead RAMDEL = none)
    (edit : Edit) (rest : Bytes) : nextRecord (findSubslice (lead ++ NEWLINE :: (edit.serialize ++ rest)) RAMQA)
      (findSubslice (lead ++ NEWLINE :: (edit.serialize ++ rest)) RAMDEL) = some (lead.length + 1, kind edit) := by
  have first : nextRecord (findSubslice (edit.serialize ++ rest) RAMQA)
      (findSubslice (edit.serialize ++ rest) RAMDEL) = some (0, kind edit) := nextRecord_piece ⟨false, edit⟩ rest
  rw [findSubslice_behind _ _ _ _ (by decide) (by decide) noQa,
    findSubslice_behind _ _ _ _ (by decide) (by decide) noDel, nextRecord_shift, first]
  simp

theorem structuredPass_behind (noQa : findSubslice lead RAMQA = none) (noDel : findSubslice lead RAMDEL = none)
    (legacy : parseLegacyQaRecords (lead ++ [NEWLINE]) history = some after) {rest : Bytes}
    (wellformed : edit.Wellformed) (fits : (lead ++ NEWLINE :: (edit.serialize ++ rest)).length < WORD) :
    structuredPass (lead ++ NEWLINE :: (edit.serialize ++ rest)) 0 history =
      some (.next (lead ++ NEWLINE :: edit.serialize).length (edit.apply after)) := by
  have gap : parseGap (lead ++ NEWLINE :: (edit.serialize ++ rest)) 0 (0 + (lead.length + 1)) history =
      some after := by
    have between := sliceRange_append [] (lead ++ [NEWLINE]) (edit.serialize ++ rest) rfl
    simp only [nil_append, append_assoc, singleton_append, length_nil, length_append,
      length_singleton, Nat.zero_add] at between
    simp [parseGap, between, legacy]
  have shape : lead ++ NEWLINE :: (edit.serialize ++ rest) = lead ++ [NEWLINE] ++ (edit.serialize ++ rest) := by simp
  have start : 0 + (lead.length + 1) = (lead ++ [NEWLINE]).length := by simp
  have reached : (lead ++ NEWLINE :: edit.serialize).length = (lead ++ [NEWLINE] ++ edit.serialize).length := by simp
  have whole := sliceFrom_append [] (lead ++ NEWLINE :: (edit.serialize ++ rest))
  simp only [nil_append, length_nil] at whole
  simp only [structuredPass, whole, bind, Option.bind_some, nextRecord_behind noQa noDel, gap]
  rw [reached, start]
  rw [shape] at fits ⊢
  cases edit with
  | upsert record => exact parseQaAt_serialized _ rest record after fits
  | forget key => exact parseForgetAt_serialized _ key rest after wellformed fits

theorem parse_layout (joined : layout.Joined) (filled : layout.pieces ≠ [])
    (noQa : findSubslice layout.lead RAMQA = none) (noDel : findSubslice layout.lead RAMDEL = none)
    (legacy : parseLegacyQaRecords (layout.lead ++ [NEWLINE]) history = some after)
    (fits : layout.bytes.length < WORD) :
    parseStructuredQaRecords layout.bytes fits history = some (replay after (layout.pieces.map Piece.edit)) := by
  obtain ⟨lead, pieces⟩ := layout
  obtain ⟨first, rest, rfl⟩ := exists_cons_of_ne_nil filled
  by_cases empty : lead = []
  · subst empty
    rw [nil_append, parseLegacy_newline] at legacy
    cases legacy
    exact parseStructuredFrom_pieces [] (first :: rest) history joined.wellformed fits
  · have separated : first.bytes = NEWLINE :: first.edit.serialize := by
      rw [Piece.bytes, Piece.separator, if_pos (joined.behind empty first mem_cons_self)]
      rfl
    have shape : Layout.bytes ⟨lead, first :: rest⟩ = lead ++ NEWLINE :: (first.edit.serialize ++ logBytes rest) := by
      rw [Layout.bytes, logBytes_cons, separated]
      rfl
    have pass := structuredPass_behind noQa noDel legacy (joined.wellformed first mem_cons_self)
      (by rwa [← shape])
    have later := parseStructuredFrom_pieces (lead ++ NEWLINE :: first.edit.serialize) rest (first.edit.apply after)
      (fun piece member => joined.wellformed piece (mem_cons_of_mem _ member)) (by simpa [← shape] using fits)
    have regroup : lead ++ NEWLINE :: first.edit.serialize ++ logBytes rest =
        lead ++ NEWLINE :: (first.edit.serialize ++ logBytes rest) := by simp
    simp only [regroup] at later
    simp only [shape]
    rw [parseStructuredQaRecords, parseStructuredFrom, dif_pos (by simp)]
    split
    next panic => rw [pass] at panic; cases panic
    next stopped => rw [pass] at stopped; cases stopped
    next moved =>
      rw [pass] at moved
      cases moved
      exact later

end Reading

section Session

def trimmedBy (buf : Bytes) (needed : Nat) : Nat := buf.length - (shrinkBytes buf needed).length

theorem shrinkBytes_eq_drop (buf : Bytes) (needed : Nat) :
    shrinkBytes buf needed = buf.drop (trimmedBy buf needed) := by
  unfold trimmedBy shrinkBytes
  dsimp only
  split_ifs
  · rw [Nat.sub_self, drop_zero]
  · rw [length_nil, Nat.sub_zero, drop_length]
  · rw [length_drop, Nat.sub_sub_self (Nat.min_le_right _ _)]

structure Session where
  shell : Shell
  layout : Layout

def Session.start (history : Records) : Session := ⟨⟨history, []⟩, ⟨[], []⟩⟩

def Session.makeRoom (session : Session) (needed : Nat) : Layout :=
  session.layout.drop (trimmedBy session.shell.sessionDelta needed)

def Session.step (session : Session) : Event → Session
  | .prompt prompt answer =>
    ⟨appendToHistory session.shell prompt answer,
      (session.makeRoom (appendNeeded prompt answer)).push (.upsert ⟨prompt, answer⟩)⟩
  | .forget phrase =>
    if trimAscii phrase = [] then session
    else
      ⟨(appendForgetToHistory session.shell phrase).1,
        (session.makeRoom (forgetNeeded (forgetKey (trimAscii phrase)))).push
          (.forget (forgetKey (trimAscii phrase)))⟩
  | .cut => ⟨{ session.shell with sessionDelta := [] }, ⟨[], []⟩⟩

structure Harmless (lead : Bytes) : Prop where
  noQa : findSubslice lead RAMQA = none
  noDel : findSubslice lead RAMDEL = none
  noLegacy : ∀ history, parseLegacyQaRecords (lead ++ [NEWLINE]) history = some history

def CutsHarmlessly (session : Session) : Event → Prop
  | .prompt prompt answer =>
    0 < trimmedBy session.shell.sessionDelta (appendNeeded prompt answer) →
      Harmless (session.makeRoom (appendNeeded prompt answer)).lead
  | .forget phrase =>
    trimAscii phrase ≠ [] →
      0 < trimmedBy session.shell.sessionDelta (forgetNeeded (forgetKey (trimAscii phrase))) →
        Harmless (session.makeRoom (forgetNeeded (forgetKey (trimAscii phrase)))).lead
  | .cut => True

theorem harmless_nil : Harmless [] := ⟨by decide, by decide, parseLegacy_newline⟩

structure Tracked (past : List Event) (session : Session) : Prop where
  delta : session.shell.sessionDelta = session.layout.bytes
  joined : session.layout.Joined
  filled : session.layout.pieces = [] → session.layout.lead = []
  harmless : Harmless session.layout.lead
  passed : ∀ piece ∈ session.layout.pieces, ∀ record, piece.edit = .upsert record →
    .prompt record.question record.answer ∈ past

variable {past : List Event} {session : Session}

theorem tracked_push {next : Session} (event : Event) {needed : Nat} (tracked : Tracked past session)
    (wellformed : edit.Wellformed)
    (cut : 0 < trimmedBy session.shell.sessionDelta needed → Harmless (session.makeRoom needed).lead)
    (delta : next.shell.sessionDelta = pushSeparator (shrinkBytes session.shell.sessionDelta needed) ++ edit.serialize)
    (layout : next.layout = (session.makeRoom needed).push edit)
    (made : ∀ record, edit = .upsert record → event = .prompt record.question record.answer) :
    Tracked (past ++ [event]) next := by
  have room := joined_drop tracked.joined (trimmedBy session.shell.sessionDelta needed)
  constructor
  · rw [delta, layout, push_bytes, Session.makeRoom, drop_bytes, ← tracked.delta, ← shrinkBytes_eq_drop]
  · rw [layout]
    exact joined_push room.1 wellformed
  · rw [layout]
    intro none
    exact absurd none (by simp [Layout.push])
  · rw [layout, Layout.push]
    by_cases trimmed : 0 < trimmedBy session.shell.sessionDelta needed
    · exact cut trimmed
    · have same : session.makeRoom needed = session.layout := by
        rw [Session.makeRoom, Nat.eq_zero_of_not_pos trimmed, Layout.drop, if_pos (Nat.zero_le _), drop_zero]
      rw [same]
      exact tracked.harmless
  · rw [layout]
    intro piece member record isRecord
    rcases mem_append.mp member with earlier | last
    · obtain ⟨old, inside, same⟩ := room.2 piece earlier
      exact mem_append_left _ (tracked.passed old inside record (same.trans isRecord))
    · rw [mem_singleton.mp last] at isRecord
      rw [made record isRecord]
      exact mem_append_right _ mem_cons_self

theorem tracked_step (past : List Event) (session : Session) (event : Event) (tracked : Tracked past session)
    (cut : CutsHarmlessly session event) : Tracked (past ++ [event]) (session.step event) := by
  cases event with
  | prompt prompt answer =>
    have wellformed : (Edit.upsert ⟨prompt, answer⟩).Wellformed := trivial
    apply tracked_push (.prompt prompt answer) tracked wellformed cut
    · exact appendSerializedQa_eq _ _ _
    · rfl
    · intro record same
      cases same
      rfl
  | forget phrase =>
    by_cases empty : trimAscii phrase = []
    · rw [Session.step, if_pos empty]
      exact { tracked with
        passed := fun piece member record isRecord => mem_append_left _ (tracked.passed piece member record isRecord) }
    · have content : (trimAscii phrase).isEmpty = false := by simpa using empty
      rw [Session.step, if_neg empty]
      have wellformed : (Edit.forget (forgetKey (trimAscii phrase))).Wellformed :=
        forgetKey_trimmed (trimAscii_trimAscii phrase) empty
      apply tracked_push (.forget phrase) tracked wellformed (cut empty)
      · simp only [appendForgetToHistory, content, Bool.false_eq_true, if_false, appendSerializedForget_eq]
      · rfl
      · intro record same
        cases same
  | cut =>
    exact ⟨rfl, joined_nil, fun _ => rfl, harmless_nil, by simp [Session.step]⟩

theorem tracked_start (history : Records) : Tracked [] (Session.start history) :=
  ⟨rfl, joined_nil, fun _ => rfl, harmless_nil, by simp [Session.start]⟩

theorem parse_tracked (tracked : Tracked past session) (fits : session.shell.sessionDelta.length < WORD) :
    parseStructuredQaRecords session.shell.sessionDelta fits [] =
      some (replay [] (session.layout.pieces.map Piece.edit)) := by
  simp only [tracked.delta]
  by_cases empty : session.layout.pieces = []
  · have nothing : session.layout.bytes = [] := by
      rw [Layout.bytes, tracked.filled empty, empty]
      rfl
    simp only [nothing, empty]
    exact parse_framed framed_nil _ _
  · exact parse_layout tracked.joined empty tracked.harmless.noQa tracked.harmless.noDel
      (tracked.harmless.noLegacy []) _

/-- The reader takes only stored records, unless a trim leaves a part that can be misread. -/
theorem parsed_records_were_stored (history : Records) (events : List Event)
    (harmless : Guarded Session.step CutsHarmlessly (.start history) events)
    (fits : (events.foldl Session.step (.start history)).shell.sessionDelta.length < WORD) : ∃ produced,
      parseStructuredQaRecords (events.foldl Session.step (.start history)).shell.sessionDelta fits [] =
        some produced ∧
      ∀ record ∈ produced, .prompt record.question record.answer ∈ events := by
  have tracked := harmless.invariant tracked_step (tracked_start history)
  refine ⟨_, parse_tracked tracked fits, ?_⟩
  intro record member
  rcases mem_replay member with earlier | written
  · cases earlier
  · obtain ⟨piece, inside, isRecord⟩ := mem_map.mp written
    exact tracked.passed piece inside record isRecord

end Session

section Runs

def BITNET_OUTPUT_BUF_LEN : Nat := 16 * 1024

structure Script where
  text : Bytes
  long : Bytes
  last : Bytes
  text_length : text.length = 9
  long_length : long.length = BITNET_OUTPUT_BUF_LEN
  last_length : last.length = 16227

def ask (answer : Bytes) : Event := .prompt (ascii "p") answer

def record (answer : Bytes) : Edit := .upsert ⟨ascii "p", answer⟩

def Script.filling (script : Script) : List Event := ask script.text :: replicate 3 (ask script.long)

def Script.events (script : Script) : List Event := script.filling ++ [ask script.last]

theorem decimal_one : decimal 1 = [49] := by simp [decimal, appendDecimal, decimalDigits]

theorem record_serialize (answer : Bytes) : (record answer).serialize =
    RAMQA ++ [49] ++ ANSWER_MARKER ++ decimal answer.length ++ [BRACKET, NEWLINE] ++ ascii "p" ++
      NEWLINE :: (answer ++ [NEWLINE]) := by
  have one : (ascii "p").length = 1 := rfl
  simp [record, Edit.serialize, appendSerializedQa, appendDecimal_eq, pushSeparator, one, decimal_one]

theorem record_length (answer : Bytes) :
    (record answer).serialize.length = 21 + (decimal answer.length).length + answer.length := by
  have marker : RAMQA.length = 12 ∧ ANSWER_MARKER.length = 3 ∧ (ascii "p").length = 1 := by decide
  rw [record_serialize]
  simp only [length_append, length_cons, length_nil, marker]
  omega

variable {answer : Bytes}

theorem appendNeeded_ask (small : answer.length ≤ RAM_SHELL_HISTORY_CAP_BYTES) :
    appendNeeded (ascii "p") answer = answer.length + 65 := by
  have cap : RAM_SHELL_HISTORY_CAP_BYTES + 65 < WORD := by decide
  have one : (ascii "p").length = 1 := rfl
  simp only [appendNeeded, one, satAdd]
  omega

section
variable {session : Session} (laid : session.shell.sessionDelta = session.layout.bytes)
include laid

theorem laid_ask (answer : Bytes) :
    (session.step (ask answer)).shell.sessionDelta = (session.step (ask answer)).layout.bytes := by
  simp only [ask, Session.step, appendToHistory, appendSerializedQa_eq, push_bytes, Session.makeRoom, drop_bytes,
    ← laid, ← shrinkBytes_eq_drop]

theorem trimmedBy_ask (small : answer.length + 65 < RAM_SHELL_HISTORY_CAP_BYTES)
    (held : session.layout.bytes.length ≤ RAM_SHELL_HISTORY_CAP_BYTES) :
    trimmedBy session.shell.sessionDelta (appendNeeded (ascii "p") answer) =
      session.layout.bytes.length + (answer.length + 65) - RAM_SHELL_HISTORY_CAP_BYTES := by
  have cap : RAM_SHELL_HISTORY_CAP_BYTES + RAM_SHELL_HISTORY_CAP_BYTES < WORD := by decide
  rw [appendNeeded_ask (by omega), laid, trimmedBy, shrinkBytes, satAdd_eq _ _ (by omega)]
  split_ifs
  · omega
  · omega
  · rw [length_drop]
    omega

theorem ask_room (room : session.layout.bytes.length + (answer.length + 65) ≤ RAM_SHELL_HISTORY_CAP_BYTES)
    (small : answer.length + 65 < RAM_SHELL_HISTORY_CAP_BYTES) : CutsHarmlessly session (ask answer) ∧
      (session.step (ask answer)).layout = session.layout.push (record answer) := by
  have none := trimmedBy_ask laid small (by omega)
  rw [Nat.sub_eq_zero_of_le room] at none
  constructor
  · intro trimmed
    rw [none] at trimmed
    cases trimmed
  · simp [ask, Session.step, Session.makeRoom, none, Layout.drop, record]

end

variable (script : Script)

def filled (count : Nat) : Layout :=
  ⟨[], ⟨false, record script.text⟩ :: replicate count ⟨true, record script.long⟩⟩

theorem short_length : (Piece.bytes ⟨false, record script.text⟩).length = 31 := by
  have digits : (decimal 9).length = 1 := by simp [decimal, appendDecimal, decimalDigits]
  simp only [Piece.bytes, Piece.separator, length_append, record_length, script.text_length, digits]
  rfl

theorem long_length : (Piece.bytes ⟨true, record script.long⟩).length = 16411 := by
  have digits : (decimal BITNET_OUTPUT_BUF_LEN).length = 5 := by
    simp [decimal, appendDecimal, decimalDigits, BITNET_OUTPUT_BUF_LEN]
  simp only [Piece.bytes, Piece.separator, length_append, record_length, script.long_length, digits]
  rfl

theorem last_length : (Piece.bytes ⟨true, record script.last⟩).length = 16254 := by
  have digits : (decimal 16227).length = 5 := by simp [decimal, appendDecimal, decimalDigits]
  simp only [Piece.bytes, Piece.separator, length_append, record_length, script.last_length, digits]
  rfl

theorem short_cut : (Piece.bytes ⟨false, record script.text⟩).drop 20 = NEWLINE :: (script.text ++ [NEWLINE]) := by
  have digits : (decimal 9).length = 1 := by simp [decimal, appendDecimal, decimalDigits]
  have front : (RAMQA ++ [49] ++ ANSWER_MARKER ++ decimal script.text.length ++ [BRACKET, NEWLINE] ++
      ascii "p").length = 20 := by
    simp only [length_append, script.text_length, digits]
    decide
  have shape : Piece.bytes ⟨false, record script.text⟩ = (record script.text).serialize := rfl
  rw [shape, record_serialize, ← front, drop_left]

theorem filled_length (count : Nat) : (filled script count).bytes.length = 31 + count * 16411 := by
  simp [filled, Layout.bytes, logBytes, short_length, long_length]

section
variable {script} {session : Session} (laid : session.shell.sessionDelta = session.layout.bytes)
include laid

theorem filled_step {count : Nat} (few : count < 3) (layout : session.layout = filled script count) :
    CutsHarmlessly session (ask script.long) ∧
      (session.step (ask script.long)).layout = filled script (count + 1) := by
  have length := filled_length script count
  rw [← layout] at length
  have room : session.layout.bytes.length + (script.long.length + 65) ≤ RAM_SHELL_HISTORY_CAP_BYTES := by
    rw [script.long_length]
    simp only [BITNET_OUTPUT_BUF_LEN, RAM_SHELL_HISTORY_CAP_BYTES]
    omega
  have content : session.layout.bytes.isEmpty = false := by
    apply Bool.eq_false_iff.mpr
    intro empty
    rw [isEmpty_iff.mp empty, length_nil] at length
    omega
  obtain ⟨harmless, next⟩ := ask_room laid room (by rw [script.long_length]; decide)
  refine ⟨harmless, ?_⟩
  rw [next, Layout.push, content, layout, filled, filled, replicate_succ']
  rfl

theorem filled_run (more : Nat) {count : Nat} (few : count + more ≤ 3)
    (layout : session.layout = filled script count) :
    Guarded Session.step CutsHarmlessly session (replicate more (ask script.long)) ∧
      ((replicate more (ask script.long)).foldl Session.step session).layout = filled script (count + more) ∧
      ((replicate more (ask script.long)).foldl Session.step session).shell.sessionDelta =
        ((replicate more (ask script.long)).foldl Session.step session).layout.bytes := by
  induction more generalizing session count with
  | zero => exact ⟨trivial, layout, laid⟩
  | succ more ih =>
    obtain ⟨harmless, next⟩ := filled_step laid (by omega) layout
    obtain ⟨later, final, bytes⟩ := ih (laid_ask laid script.long) (by omega) next
    rw [Nat.add_right_comm] at final
    exact ⟨⟨harmless, later⟩, final, bytes⟩

theorem last_cut (layout : session.layout = filled script 3) :
    session.makeRoom (appendNeeded (ascii "p") script.last) =
      ⟨NEWLINE :: (script.text ++ [NEWLINE]), replicate 3 ⟨true, record script.long⟩⟩ := by
  have length := filled_length script 3
  rw [← layout] at length
  have count := trimmedBy_ask laid (show script.last.length + 65 < _ by rw [script.last_length]; decide)
    (by rw [length]; decide)
  have twenty : 31 + 3 * 16411 + (16227 + 65) - RAM_SHELL_HISTORY_CAP_BYTES = 20 := rfl
  have fromFirst : (filled script 3).drop 20 = dropPieces 20 (filled script 3).pieces :=
    if_neg (Nat.not_succ_le_zero 19)
  rw [length, script.last_length, twenty] at count
  rw [Session.makeRoom, count, layout, fromFirst, filled, dropPieces, if_neg (by simp [Piece.separator]),
    if_pos (by rw [short_length]; decide), short_cut]

end

theorem filling_run : Guarded Session.step CutsHarmlessly (.start []) script.filling ∧
      (script.filling.foldl Session.step (.start [])).layout = filled script 3 ∧
      (script.filling.foldl Session.step (.start [])).shell.sessionDelta =
        (script.filling.foldl Session.step (.start [])).layout.bytes := by
  have empty : (Session.start []).shell.sessionDelta = (Session.start []).layout.bytes := rfl
  have small : script.text.length + 65 < RAM_SHELL_HISTORY_CAP_BYTES := by
    rw [script.text_length]
    decide
  have room : (Session.start []).layout.bytes.length + (script.text.length + 65) ≤ RAM_SHELL_HISTORY_CAP_BYTES := by
    rw [script.text_length]
    decide
  obtain ⟨harmless, first⟩ := ask_room empty room small
  have layout : ((Session.start []).step (ask script.text)).layout = filled script 0 := first
  obtain ⟨later, final, bytes⟩ := filled_run (laid_ask empty script.text) 3 (Nat.le_refl _) layout
  rw [Script.filling, foldl_cons]
  exact ⟨⟨harmless, later⟩, final, bytes⟩

theorem events_layout :
    (script.events.foldl Session.step (.start [])).layout = ⟨NEWLINE :: (script.text ++ [NEWLINE]),
        replicate 3 ⟨true, record script.long⟩ ++ [⟨true, record script.last⟩]⟩ ∧
      (script.events.foldl Session.step (.start [])).shell.sessionDelta =
        (script.events.foldl Session.step (.start [])).layout.bytes := by
  obtain ⟨-, layout, laid⟩ := filling_run script
  rw [Script.events, foldl_append, foldl_cons]
  refine ⟨?_, laid_ask laid script.last⟩
  rw [ask, Session.step, last_cut laid layout]
  rfl

theorem events_fit : (script.events.foldl Session.step (.start [])).shell.sessionDelta.length < WORD := by
  obtain ⟨layout, laid⟩ := events_layout script
  rw [laid, layout]
  simp [Layout.bytes, logBytes, long_length, last_length, script.text_length, WORD]

def Script.of (text : Bytes) (length : text.length = 9) : Script where
  text := text
  long := replicate BITNET_OUTPUT_BUF_LEN 120
  last := replicate 16227 120
  text_length := length
  long_length := length_replicate
  last_length := length_replicate

def plainScript : Script := .of (ascii "no record") rfl

theorem parsed_records_were_stored_trimmed : ∃ fits produced,
      parseStructuredQaRecords (plainScript.events.foldl Session.step (.start [])).shell.sessionDelta fits [] =
        some produced ∧
      ∀ record ∈ produced, .prompt record.question record.answer ∈ plainScript.events := by
  obtain ⟨guarded, layout, laid⟩ := filling_run plainScript
  have harmless : CutsHarmlessly (plainScript.filling.foldl Session.step (.start [])) (ask plainScript.last) := by
    have pass : legacyPass (NEWLINE :: (ascii "no record" ++ [NEWLINE]) ++ [NEWLINE]) = some (none, none) := by decide
    intro _
    rw [last_cut laid layout]
    exact ⟨by decide, by decide, parseLegacy_stops pass⟩
  exact ⟨events_fit _, parsed_records_were_stored [] _ (guarded.concat harmless) (events_fit _)⟩

def quotingScript : Script := .of (ascii "Q: x\nA: y") rfl

def quoted : QaRecord := ⟨ascii "x", ascii "y"⟩

theorem quoted_unkeyed : qaRecordKey quoted = none := by
  have noKey : memoryKeyFromText quoted.question = none ∧ memoryKeyFromText quoted.answer = none := by
    simp [quoted, memoryKeyFromText, containsWordSequence, containsWordSequenceFrom, ascii, isWordByte, isAsciiDigit,
      eqIgnoreAsciiCaseSlice, eqIgnoreAsciiCaseByte, toAsciiLowercase]
  rw [qaRecordKey, noKey.1, noKey.2]
  split <;> rfl

theorem quoted_survives (answer : Bytes) : ¬Drops (record answer) quoted := by
  rintro ⟨key, -, keyed⟩
  rw [quoted_unkeyed] at keyed
  cases keyed

theorem quoted_read : parseLegacyQaRecords (NEWLINE :: (quotingScript.text ++ [NEWLINE]) ++ [NEWLINE]) [] =
    some [quoted] := by
  have first : legacyPass (NEWLINE :: (quotingScript.text ++ [NEWLINE]) ++ [NEWLINE]) =
      some (some quoted, some [NEWLINE]) := by decide
  rw [parseLegacy_moves first, parseLegacy_newline, Option.elim_some, upsertHistoryRecord_nil]

theorem trimming_fabricates_record :
    ∃ (events : List Event) (fits : (events.foldl Session.step (.start [])).shell.sessionDelta.length < WORD)
      (produced : Records),
      (∀ prompt answer, .prompt prompt answer ∈ events →
        prompt.length ≤ 255 ∧ answer.length ≤ BITNET_OUTPUT_BUF_LEN) ∧
      parseStructuredQaRecords (events.foldl Session.step (.start [])).shell.sessionDelta fits [] = some produced ∧
      quoted ∈ produced ∧ .prompt quoted.question quoted.answer ∉ events := by
  obtain ⟨layout, laid⟩ := events_layout quotingScript
  have joined : (quotingScript.events.foldl Session.step (.start [])).layout.Joined := by
    rw [layout]
    exact ⟨by simp [record, Edit.Wellformed], by simp, by simp [replicate_succ]⟩
  have parsed := parse_layout joined (by rw [layout]; simp) (by rw [layout]; decide) (by rw [layout]; decide)
    (by rw [layout]; exact quoted_read) (by rw [← laid]; exact events_fit _)
  simp only [← laid] at parsed
  refine ⟨quotingScript.events, events_fit _, _, ?_, parsed, ?_, ?_⟩
  · intro prompt answer member
    simp [Script.events, Script.filling, ask] at member
    rcases member with ⟨rfl, rfl⟩ | ⟨rfl, rfl⟩ | ⟨rfl, rfl⟩
    · decide
    · rw [Script.long_length]
      decide
    · rw [Script.last_length]
      decide
  · apply replay_keeps mem_cons_self
    intro edit member
    rw [layout] at member
    obtain ⟨answer, rfl⟩ : ∃ answer, edit = record answer := by
      simp at member
      rcases member with rfl | rfl
      · exact ⟨_, rfl⟩
      · exact ⟨_, rfl⟩
    exact quoted_survives answer
  · simp [Script.events, Script.filling, ask, quoted, ascii]

end Runs

end HermitLocal.RamShell.Trim
