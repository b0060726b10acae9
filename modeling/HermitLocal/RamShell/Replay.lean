import HermitLocal.RamShell.Parser

/-! Reading the delta back. Every record the shell serializes is taken by the reader
as one step that makes the same edit, whatever its texts contain, because the
reader stands on a marker at each record boundary. -/

namespace HermitLocal.RamShell.Replay
open Lib.Wire RamShell.Text RamShell.History RamShell.Parser List

section Record

theorem not_digit_newline (value : Nat) : NEWLINE ∉ decimal value := by
  intro member
  exact absurd (decimal_digit value _ member) (by decide)

theorem not_digit_space (value : Nat) : 32 ∉ decimal value := by
  intro member
  exact absurd (decimal_digit value _ member) (by decide)

theorem sliceRange_prefix (first rest : Bytes) : sliceRange (first ++ rest) 0 first.length = some first := by
  simp [sliceRange]

variable {bytes front header rest : Bytes} {start : Nat}

theorem header_line (shape : bytes = front ++ header ++ NEWLINE :: rest) (clean : NEWLINE ∉ header) :
    sliceFrom bytes front.length = some (header ++ NEWLINE :: rest) ∧
      findByte (header ++ NEWLINE :: rest) NEWLINE = some header.length ∧
      sliceRange bytes front.length (front.length + header.length) = some header := by
  subst shape
  refine ⟨?_, findByte_append _ _ _ clean, sliceRange_append _ _ _ rfl⟩
  rw [append_assoc]
  exact sliceFrom_append _ _

theorem sliceRange_text (before after : Bytes) {text : Bytes} (shape : bytes = before ++ text ++ after)
    {stop : Nat} (first : start = before.length) (last : stop = before.length + text.length) :
    sliceRange bytes start stop = some text := by
  rw [shape, first]
  exact sliceRange_append _ _ _ last

theorem text_line (before : Bytes) {text : Bytes} (shape : bytes = before ++ text ++ NEWLINE :: rest)
    (first : start = before.length) (fits : bytes.length < WORD) :
    satAdd start text.length = start + text.length ∧ satAdd (start + text.length) 1 = start + text.length + 1 ∧
      start + text.length + 1 ≤ bytes.length ∧ sliceRange bytes start (start + text.length) = some text := by
  have length : bytes.length = start + text.length + 1 + rest.length := by
    rw [shape, first]
    simp only [length_append, length_cons]
    omega
  refine ⟨satAdd_eq _ _ (by omega), satAdd_eq _ _ (by omega), by omega, ?_⟩
  exact sliceRange_text before (NEWLINE :: rest) shape first (by rw [first])

theorem parseForgetAt_line {digits key : Bytes} (history : Records)
    (shape : bytes = front ++ header ++ NEWLINE :: (key ++ NEWLINE :: rest)) (fits : bytes.length < WORD)
    (marker : front.length = start + RAMDEL.length) (line : header = digits ++ [BRACKET]) (clean : NEWLINE ∉ header)
    (parsed : parseDecimal digits = some key.length) (wellformed : (Edit.forget key).Wellformed) :
    parseForgetAt bytes start history =
      some (.next (front.length + header.length + 1 + key.length + 1) ((Edit.forget key).apply history)) := by
  obtain ⟨taken, found, read⟩ := header_line shape clean
  have number : sliceRange header 0 (header.length - 1) = some digits :=
    sliceRange_text [] [BRACKET] line rfl (by simp [line])
  have closed : header.getLast? = some BRACKET := by
    rw [line]
    exact getLast?_concat
  have keyShape : bytes = (front ++ header ++ [NEWLINE]) ++ key ++ NEWLINE :: rest := by simp [shape]
  have keyStart : front.length + header.length + 1 = (front ++ header ++ [NEWLINE]).length := by simp; omega
  obtain ⟨keyEnd, next, inside, raw⟩ := text_line _ keyShape keyStart fits
  have nonempty : key.isEmpty = false := by simpa using wellformed.2
  simp only [parseForgetAt, ← marker, taken, found, read, closed, number, parsed, keyEnd, next, raw, nonempty,
    wellformed.1, Nat.min_eq_left inside, Nat.not_lt.mpr (Nat.le_of_succ_le inside), bind, Option.bind_some, ne_eq,
    not_true_eq_false, if_false, Edit.apply, Bool.false_eq_true, gt_iff_lt]

theorem parseForgetAt_serialized (pre key rest : Bytes) (history : Records)
    (wellformed : (Edit.forget key).Wellformed)
    (fits : (pre ++ ((Edit.forget key).serialize ++ rest)).length < WORD) :
    parseForgetAt (pre ++ ((Edit.forget key).serialize ++ rest)) pre.length history =
      some (.next (pre ++ (Edit.forget key).serialize).length ((Edit.forget key).apply history)) := by
  generalize line : decimal key.length ++ [BRACKET] = header
  have shape : pre ++ ((Edit.forget key).serialize ++ rest) =
      (pre ++ RAMDEL) ++ header ++ NEWLINE :: (key ++ NEWLINE :: rest) := by
    simp [← line, Edit.serialize, appendSerializedForget, appendDecimal_eq, pushSeparator]
  have clean : NEWLINE ∉ header := by
    rw [← line, mem_append]
    exact fun member => member.elim (not_digit_newline _) (by decide)
  have length := congrArg List.length shape
  simp only [length_append, length_cons] at length fits
  have parsed : parseDecimal (decimal key.length) = some key.length := parseDecimal_decimal _ (by omega)
  rw [parseForgetAt_line history shape (by simpa using fits) length_append line.symm clean parsed wellformed]
  congr 2
  simp only [length_append]
  omega

theorem parseQaAt_line {qDigits aDigits question answer : Bytes} (history : Records)
    (shape : bytes = front ++ header ++ NEWLINE :: (question ++ NEWLINE :: (answer ++ NEWLINE :: rest)))
    (fits : bytes.length < WORD) (marker : front.length = start + RAMQA.length)
    (line : header = qDigits ++ ANSWER_MARKER ++ aDigits ++ [BRACKET]) (clean : NEWLINE ∉ header) (noSpace : 32 ∉ qDigits)
    (qParsed : parseDecimal qDigits = some question.length) (aParsed : parseDecimal aDigits = some answer.length) :
    parseQaAt bytes start history =
      some (.next (front.length + header.length + 1 + question.length + 1 + answer.length + 1)
        ((Edit.upsert ⟨question, answer⟩).apply history)) := by
  obtain ⟨taken, found, read⟩ := header_line shape clean
  have separator : findSubslice header ANSWER_MARKER = some qDigits.length := by
    rw [line, append_assoc, append_assoc]
    exact findSubslice_append qDigits (aDigits ++ [BRACKET]) 32 [97, 61] noSpace
  have qNumber : sliceRange header 0 qDigits.length = some qDigits := by
    rw [line, append_assoc, append_assoc]
    exact sliceRange_prefix _ _
  have aNumber : sliceRange header (qDigits.length + 3) (header.length - 1) = some aDigits :=
    sliceRange_text (qDigits ++ ANSWER_MARKER) [BRACKET] line (by simp [ANSWER_MARKER, ascii]) (by simp [line]; omega)
  have closed : header.getLast? = some BRACKET := by
    rw [line]
    exact getLast?_concat
  have qShape : bytes = (front ++ header ++ [NEWLINE]) ++ question ++ NEWLINE :: (answer ++ NEWLINE :: rest) := by
    simp [shape]
  have aShape : bytes = (front ++ header ++ [NEWLINE] ++ question ++ [NEWLINE]) ++ answer ++ NEWLINE :: rest := by
    simp [shape]
  obtain ⟨qEnd, aStart, -, asked⟩ := text_line _ qShape rfl fits
  obtain ⟨aEnd, next, inside, answered⟩ := text_line _ aShape rfl fits
  simp only [length_append, length_singleton] at qEnd aStart asked aEnd next inside answered
  simp only [parseQaAt, ← marker, taken, found, read, separator, closed, qNumber, aNumber, qParsed, aParsed, qEnd,
    aStart, aEnd, next, asked, answered, Nat.min_eq_left inside, Nat.not_lt.mpr (Nat.le_of_succ_le inside), bind,
    Option.bind_some, ne_eq, not_true_eq_false, if_false, Edit.apply, gt_iff_lt]

theorem parseQaAt_serialized (pre rest : Bytes) (record : QaRecord) (history : Records)
    (fits : (pre ++ ((Edit.upsert record).serialize ++ rest)).length < WORD) :
    parseQaAt (pre ++ ((Edit.upsert record).serialize ++ rest)) pre.length history =
      some (.next (pre ++ (Edit.upsert record).serialize).length ((Edit.upsert record).apply history)) := by
  obtain ⟨question, answer⟩ := record
  generalize line : decimal question.length ++ ANSWER_MARKER ++ decimal answer.length ++ [BRACKET] = header
  have shape : pre ++ ((Edit.upsert ⟨question, answer⟩).serialize ++ rest) =
      (pre ++ RAMQA) ++ header ++ NEWLINE :: (question ++ NEWLINE :: (answer ++ NEWLINE :: rest)) := by
    simp [← line, Edit.serialize, appendSerializedQa, appendDecimal_eq, pushSeparator]
  have clean : NEWLINE ∉ header := by
    rw [← line]
    simp only [mem_append, mem_singleton, not_or]
    exact ⟨⟨⟨not_digit_newline _, by decide⟩, not_digit_newline _⟩, by decide⟩
  have length := congrArg List.length shape
  simp only [length_append, length_cons] at length fits
  have qParsed := parseDecimal_decimal question.length (by omega)
  have aParsed := parseDecimal_decimal answer.length (by omega)
  rw [parseQaAt_line history shape (by simpa using fits) length_append line.symm clean (not_digit_space _) qParsed aParsed]
  congr 2
  simp only [length_append]
  omega

end Record

section Boundary

structure Piece where
  separated : Bool
  edit : Edit

def Piece.separator (piece : Piece) : Bytes := if piece.separated then [NEWLINE] else []

def Piece.bytes (piece : Piece) : Bytes := piece.separator ++ piece.edit.serialize

def kind : Edit → RecordKind
  | .upsert _ => .qa
  | .forget _ => .del

theorem nextRecord_qa {relDel : Option Nat} (later : ∀ other ∈ relDel, start < other) :
    nextRecord (some start) relDel = some (start, .qa) := by
  cases relDel with
  | none => rfl
  | some other =>
    have order := later other rfl
    simp [nextRecord, Nat.not_lt.mpr (Nat.le_of_lt order)]

theorem nextRecord_del {relQa : Option Nat} (later : ∀ other ∈ relQa, start < other) :
    nextRecord relQa (some start) = some (start, .del) := by
  cases relQa with
  | none => rfl
  | some other =>
    have order := later other rfl
    simp [nextRecord, order]

theorem findSubslice_later {byte : UInt8} {needle : Bytes}
    (notHere : needle.isPrefixOf (byte :: rest) = false) (content : needle ≠ [])
    (later : ∀ other ∈ findSubslice rest needle, start ≤ other) :
    ∀ other ∈ findSubslice (byte :: rest) needle, start + 1 ≤ other := by
  intro other found
  rw [findSubslice_cons _ _ _ content, notHere] at found
  obtain ⟨before, here, rfl⟩ := Option.map_eq_some_iff.mp found
  exact Nat.succ_le_succ (later before here)

theorem other_marker_later {piece : Piece} {other text : Bytes} (content : other ≠ [])
    (notNewline : ∀ rest, other.isPrefixOf (NEWLINE :: rest) = false)
    (notHere : ∀ byte rest, text = byte :: rest → other.isPrefixOf (byte :: rest) = false) :
    ∀ found ∈ findSubslice (piece.separator ++ text) other, piece.separator.length < found := by
  have first : ∀ found ∈ findSubslice text other, 0 + 1 ≤ found := by
    cases text with
    | nil => simp [findSubslice_nil]
    | cons byte rest => exact findSubslice_later (notHere byte rest rfl) content fun _ _ => Nat.zero_le _
  unfold Piece.separator
  split
  · exact findSubslice_later (notNewline _) content first
  · exact first

def marker : RecordKind → Bytes
  | .qa => RAMQA
  | .del => RAMDEL

theorem serialize_marked (edit : Edit) (rest : Bytes) :
    ∃ body, edit.serialize ++ rest = marker (kind edit) ++ body := by
  cases edit with
  | upsert record =>
    simp only [Edit.serialize, appendSerializedQa, appendDecimal_eq, pushSeparator, append_assoc,
      isEmpty_nil, if_true, nil_append]
    exact ⟨_, rfl⟩
  | forget key =>
    simp only [Edit.serialize, appendSerializedForget, appendDecimal_eq, pushSeparator, append_assoc,
      isEmpty_nil, if_true, nil_append]
    exact ⟨_, rfl⟩

theorem nextRecord_piece (piece : Piece) (rest : Bytes) :
    nextRecord (findSubslice (piece.bytes ++ rest) RAMQA) (findSubslice (piece.bytes ++ rest) RAMDEL) =
      some (piece.separator.length, kind piece.edit) := by
  have head : 91 ∉ piece.separator := by
    unfold Piece.separator
    split <;> decide
  obtain ⟨body, marked⟩ := serialize_marked piece.edit rest
  rw [Piece.bytes, append_assoc, marked]
  cases kind piece.edit with
  | qa =>
    have here : findSubslice (piece.separator ++ (RAMQA ++ body)) RAMQA = some piece.separator.length :=
      findSubslice_append _ body 91 (ascii "RAMQA v1 q=") head
    rw [marker, here]
    apply nextRecord_qa
    apply other_marker_later (by decide) (fun _ => rfl)
    intro byte tail same
    rw [← same]
    rfl
  | del =>
    have here : findSubslice (piece.separator ++ (RAMDEL ++ body)) RAMDEL = some piece.separator.length :=
      findSubslice_append _ body 91 (ascii "RAMDEL v1 k=") head
    rw [marker, here]
    apply nextRecord_del
    apply other_marker_later (by decide) (fun _ => rfl)
    intro byte tail same
    rw [← same]
    rfl

theorem parseLegacy_newline (history : Records) : parseLegacyQaRecords [NEWLINE] history = some history := by
  have pass : legacyPass [NEWLINE] = some (none, none) := by decide
  exact parseLegacy_stops pass history

theorem structuredPass_piece (pre rest : Bytes) (piece : Piece) (history : Records)
    (wellformed : piece.edit.Wellformed) (fits : (pre ++ (piece.bytes ++ rest)).length < WORD) :
    structuredPass (pre ++ (piece.bytes ++ rest)) pre.length history =
      some (.next (pre ++ piece.bytes).length (piece.edit.apply history)) := by
  have gap : parseGap (pre ++ (piece.bytes ++ rest)) pre.length (pre.length + piece.separator.length) history =
      some history := by
    unfold parseGap Piece.bytes Piece.separator
    cases piece.separated with
    | false => simp
    | true =>
      have between := sliceRange_append pre [NEWLINE] (piece.edit.serialize ++ rest) rfl
      simp only [append_assoc, singleton_append, length_singleton] at between
      simp [between, parseLegacy_newline]
  have shape : pre ++ (piece.bytes ++ rest) = pre ++ piece.separator ++ (piece.edit.serialize ++ rest) := by
    simp [Piece.bytes]
  have start : pre.length + piece.separator.length = (pre ++ piece.separator).length := by simp
  have reached : (pre ++ piece.bytes).length = (pre ++ piece.separator ++ piece.edit.serialize).length := by
    simp [Piece.bytes]
  simp only [structuredPass, sliceFrom_append, bind, Option.bind_some, nextRecord_piece, gap]
  rw [reached, start]
  rw [shape] at fits ⊢
  cases form : piece.edit with
  | upsert record =>
    rw [form] at fits
    exact parseQaAt_serialized _ rest record history fits
  | forget key =>
    rw [form] at fits wellformed
    exact parseForgetAt_serialized _ key rest history wellformed fits

def logBytes (pieces : List Piece) : Bytes := (pieces.map Piece.bytes).flatten

theorem parseStructuredFrom_pieces (pre : Bytes) (pieces : List Piece) (history : Records)
    (wellformed : ∀ piece ∈ pieces, piece.edit.Wellformed) (fits : (pre ++ logBytes pieces).length < WORD) :
    parseStructuredFrom (pre ++ logBytes pieces) fits pre.length history =
      some (replay history (pieces.map Piece.edit)) := by
  induction pieces generalizing pre history with
  | nil =>
    rw [parseStructuredFrom, dif_neg]
    · rfl
    · simp [logBytes]
  | cons piece rest ih =>
    have here : logBytes (piece :: rest) = piece.bytes ++ logBytes rest := rfl
    have content : 0 < piece.bytes.length := by
      cases form : piece.edit <;> simp [Piece.bytes, form, Edit.serialize, appendSerializedQa, appendSerializedForget]
    have pass := structuredPass_piece pre (logBytes rest) piece history (wellformed piece mem_cons_self)
      (by rwa [← here])
    have later := ih (pre ++ piece.bytes) (piece.edit.apply history)
      (fun other member => wellformed other (mem_cons_of_mem _ member))
      (by rwa [append_assoc, ← here])
    simp only [append_assoc] at later
    simp only [here]
    rw [parseStructuredFrom, dif_pos (by simp only [length_append]; omega)]
    split
    next panic => rw [pass] at panic; cases panic
    next stopped => rw [pass] at stopped; cases stopped
    next moved =>
      rw [pass] at moved
      cases moved
      exact later

def Framed (bytes : Bytes) (edits : List Edit) : Prop :=
  ∃ pieces : List Piece, (∀ piece ∈ pieces, piece.edit.Wellformed) ∧ bytes = logBytes pieces ∧
    pieces.map Piece.edit = edits

theorem framed_nil : Framed [] [] := ⟨[], by simp, rfl, rfl⟩

theorem framed_extend {flushed delta : Bytes} {edits : List Edit} (edit : Edit) (wellformed : edit.Wellformed)
    (framed : Framed (flushed ++ delta) edits) :
    Framed (flushed ++ (pushSeparator delta ++ edit.serialize)) (edits ++ [edit]) := by
  obtain ⟨pieces, wellformedAll, bytes, same⟩ := framed
  refine ⟨pieces ++ [⟨!delta.isEmpty, edit⟩], ?_, ?_, by simp [same]⟩
  · intro piece member
    rcases mem_append.mp member with earlier | last
    · exact wellformedAll piece earlier
    · rw [mem_singleton.mp last]
      exact wellformed
  · have separator : pushSeparator delta = delta ++ Piece.separator ⟨!delta.isEmpty, edit⟩ := by
      cases delta <;> rfl
    rw [separator, logBytes, map_append, flatten_append, ← logBytes, ← bytes]
    simp [Piece.bytes]

theorem parse_framed {bytes : Bytes} {edits : List Edit} (framed : Framed bytes edits) (fits : bytes.length < WORD)
    (start : Records) : parseStructuredQaRecords bytes fits start = some (replay start edits) := by
  obtain ⟨pieces, wellformed, rfl, rfl⟩ := framed
  exact parseStructuredFrom_pieces [] pieces start wellformed fits

end Boundary

section Live

inductive Event where
  | prompt (prompt answer : Bytes)
  | forget (phrase : Bytes)
  | cut

structure Live where
  shell : Shell
  flushed : List Bytes

def Live.bytes (live : Live) : Bytes := live.flushed.flatten ++ live.shell.sessionDelta

def Live.step (live : Live) : Event → Live
  | .prompt prompt answer => { live with shell := appendToHistory live.shell prompt answer }
  | .forget phrase => { live with shell := (appendForgetToHistory live.shell phrase).1 }
  | .cut =>
    if live.shell.sessionDelta.isEmpty then live
    else ⟨{ live.shell with sessionDelta := [] }, live.flushed ++ [live.shell.sessionDelta]⟩

theorem cut_history (live : Live) : (live.step .cut).shell.history = live.shell.history := by
  rw [Live.step]
  split <;> rfl

def Keeps (live : Live) : Event → Prop
  | .prompt prompt answer =>
    shrinkRecords (appendNeeded prompt answer) live.shell.history = live.shell.history ∧
      shrinkBytes live.shell.sessionDelta (appendNeeded prompt answer) = live.shell.sessionDelta
  | .forget phrase =>
    trimAscii phrase ≠ [] →
      shrinkBytes live.shell.sessionDelta (forgetNeeded (forgetKey (trimAscii phrase))) = live.shell.sessionDelta
  | .cut => True

def AllKept : Live → List Event → Prop
  | _, [] => True
  | live, event :: rest => Keeps live event ∧ AllKept (live.step event) rest

def Synced (start : Records) (live : Live) : Prop :=
  ∃ edits, Framed live.bytes edits ∧ live.shell.history = replay start edits

variable {live : Live}

theorem synced_extend {start : Records} {next : Live} (edit : Edit) (wellformed : edit.Wellformed)
    (synced : Synced start live) (history : next.shell.history = edit.apply live.shell.history)
    (flushed : next.flushed = live.flushed)
    (delta : next.shell.sessionDelta = pushSeparator live.shell.sessionDelta ++ edit.serialize) :
    Synced start next := by
  obtain ⟨edits, framed, replayed⟩ := synced
  refine ⟨edits ++ [edit], ?_, ?_⟩
  · rw [Live.bytes, flushed, delta]
    exact framed_extend edit wellformed framed
  · rw [history, replayed, replay, replay, foldl_append]
    rfl

theorem synced_step {start : Records} (event : Event) (synced : Synced start live)
    (keeps : Keeps live event) : Synced start (live.step event) := by
  cases event with
  | prompt prompt answer =>
    apply synced_extend (.upsert ⟨prompt, answer⟩) trivial synced
    · simp only [Live.step, appendToHistory, keeps.1, Edit.apply]
    · rfl
    · simp only [Live.step, appendToHistory, keeps.2, appendSerializedQa_eq]
  | forget phrase =>
    by_cases empty : trimAscii phrase = []
    · have same : live.step (.forget phrase) = live := by
        simp [Live.step, appendForgetToHistory, empty]
      rwa [same]
    · have filled : (trimAscii phrase).isEmpty = false := by simpa using empty
      apply synced_extend (.forget (forgetKey (trimAscii phrase)))
        (forgetKey_trimmed (trimAscii_trimAscii phrase) empty) synced
      · simp only [Live.step, appendForgetToHistory, filled, Edit.apply, Bool.false_eq_true, if_false]
      · rfl
      · simp only [Live.step, appendForgetToHistory, filled, keeps empty, appendSerializedForget_eq,
          Bool.false_eq_true, if_false]
  | cut =>
    obtain ⟨edits, framed, replayed⟩ := synced
    refine ⟨edits, ?_, by rw [cut_history, replayed]⟩
    have same : (live.step .cut).bytes = live.bytes := by
      rw [Live.step, Live.bytes, Live.bytes]
      split <;> simp
    rwa [same]

theorem synced_run {start : Records} (events : List Event) (synced : Synced start live)
    (kept : AllKept live events) : Synced start (events.foldl Live.step live) := by
  induction events generalizing live with
  | nil => exact synced
  | cons event rest ih => exact ih (synced_step event synced kept.1) kept.2

/-- Reading back what the shell has written leads to the live history. -/
theorem replay_equals_live (start : Records) (events : List Event) (kept : AllKept ⟨⟨start, []⟩, []⟩ events)
    (fits : (events.foldl Live.step ⟨⟨start, []⟩, []⟩).bytes.length < WORD) :
    parseStructuredQaRecords (events.foldl Live.step ⟨⟨start, []⟩, []⟩).bytes fits start =
      some (events.foldl Live.step ⟨⟨start, []⟩, []⟩).shell.history := by
  have synced : Synced start ⟨⟨start, []⟩, []⟩ := ⟨[], framed_nil, rfl⟩
  obtain ⟨edits, framed, replayed⟩ := synced_run events synced kept
  rw [replayed]
  exact parse_framed framed fits start

def markerEvents : List Event :=
  [.prompt (ascii "[RAMQA v1 q=9 a=9]\nQ: x\nA: y") [], .cut,
    .prompt (ascii "[RAMDEL v1 k=1]\n") (ascii "Q: z\nA: ")]

theorem replay_equals_live_markers :
    ∃ fits, parseStructuredQaRecords (markerEvents.foldl Live.step ⟨⟨[], []⟩, []⟩).bytes fits [] =
      some (markerEvents.foldl Live.step ⟨⟨[], []⟩, []⟩).shell.history := by
  have first : (Live.step ⟨⟨[], []⟩, []⟩ (.prompt (ascii "[RAMQA v1 q=9 a=9]\nQ: x\nA: y") [])).shell.history =
      [⟨ascii "[RAMQA v1 q=9 a=9]\nQ: x\nA: y", []⟩] := upsertHistoryRecord_nil _
  have kept : AllKept ⟨⟨[], []⟩, []⟩ markerEvents := by
    refine ⟨⟨rfl, by decide⟩, trivial, ⟨?_, ?_⟩, trivial⟩
    · rw [cut_history, first]
      decide
    · decide
  have fits : (markerEvents.foldl Live.step ⟨⟨[], []⟩, []⟩).bytes.length < WORD := by
    simp [markerEvents, Live.step, Live.bytes, appendToHistory, appendSerializedQa, appendDecimal, decimalDigits,
      shrinkBytes, ascii, pushSeparator, satAdd, appendNeeded]
    decide
  exact ⟨fits, replay_equals_live [] markerEvents kept fits⟩

end Live

end HermitLocal.RamShell.Replay
