import HermitLocal.RamShell.Text

/-! The assistant's memory while it runs: a list of question and answer records,
edited by prompts and forgets, and the session delta, the text that says which
edits have been made since the last flush. -/

namespace HermitLocal.RamShell.History
open Lib.Wire RamShell.Text

def RAM_SHELL_HISTORY_CAP_BYTES : Nat := 64 * 1024

def RAMQA : Bytes := ascii "[RAMQA v1 q="
def RAMDEL : Bytes := ascii "[RAMDEL v1 k="
def ANSWER_MARKER : Bytes := ascii " a="

structure QaRecord where
  question : Bytes
  answer : Bytes
  deriving DecidableEq, Repr

abbrev Records := List QaRecord

def qaRecordPayloadLen (record : QaRecord) : Nat :=
  satAdd (satAdd record.question.length record.answer.length) 8

def historyPayloadLen (history : Records) : Nat := (history.map qaRecordPayloadLen).sum

def shrinkRecords (needed : Nat) : Records → Records
  | [] => []
  | record :: rest =>
    if satAdd (historyPayloadLen (record :: rest)) needed > RAM_SHELL_HISTORY_CAP_BYTES then
      shrinkRecords needed rest
    else record :: rest

def shrinkBytes (buf : Bytes) (needed : Nat) : Bytes :=
  let required := satAdd buf.length needed
  if required ≤ RAM_SHELL_HISTORY_CAP_BYTES then buf
  else if needed ≥ RAM_SHELL_HISTORY_CAP_BYTES then []
  else buf.drop (min (required - RAM_SHELL_HISTORY_CAP_BYTES) buf.length)

theorem shrinkBytes_nil (needed : Nat) : shrinkBytes [] needed = [] := by
  simp [shrinkBytes]

def pushSeparator (target : Bytes) : Bytes := if target.isEmpty then target else target ++ [NEWLINE]

def appendSerializedQa (target prompt answer : Bytes) : Bytes :=
  let target := pushSeparator target ++ RAMQA
  let target := appendDecimal target prompt.length ++ ANSWER_MARKER
  let target := appendDecimal target answer.length ++ [BRACKET, NEWLINE]
  target ++ prompt ++ [NEWLINE] ++ answer ++ [NEWLINE]

def appendSerializedForget (target key : Bytes) : Bytes :=
  let target := pushSeparator target ++ RAMDEL
  let target := appendDecimal target key.length ++ [BRACKET, NEWLINE]
  target ++ key ++ [NEWLINE]

def memoryKeyFromText (text : Bytes) : Option Bytes :=
  if containsWordSequence text [ascii "secure", ascii "phrase"] ||
      containsWordSequence text [ascii "stored", ascii "secure", ascii "phrase"] ||
      containsWordSequence text [ascii "secured", ascii "stored", ascii "phrase"] then
    some (ascii "secure phrase")
  else if containsWordSequence text [ascii "secret", ascii "phrase"] ||
      containsWordSequence text [ascii "secret", ascii "key"] then
    some (ascii "secret phrase")
  else if containsWordSequence text [ascii "memory", ascii "test", ascii "phrase"] then
    some (ascii "memory test phrase")
  else if containsWordSequence text [ascii "project", ascii "codename"] ||
      containsWordSequence text [ascii "code", ascii "name"] ||
      containsWordSequence text [ascii "codename"] then
    some (ascii "codename")
  else none

def QUESTION_WORDS : List Bytes :=
  ["what", "which", "who", "when", "where", "why", "how", "do", "does", "did", "is", "are", "can",
    "will"].map ascii

def startsWithQuestionWord (text : Bytes) : Bool :=
  let first := (trimAscii text).takeWhile isWordByte
  if first.isEmpty then false else QUESTION_WORDS.any fun word => eqIgnoreAsciiCaseSlice first word

def looksLikeQuestion (text : Bytes) : Bool :=
  text.any (· == QUESTION_MARK) || startsWithQuestionWord text

def qaRecordKey (record : QaRecord) : Option Bytes :=
  if looksLikeQuestion record.question then memoryKeyFromText record.answer
  else (memoryKeyFromText record.question).or (memoryKeyFromText record.answer)

def upsertHistoryRecord (history : Records) (record : QaRecord) : Records :=
  match qaRecordKey record with
  | some key => history.filter (fun existing => qaRecordKey existing != some key) ++ [record]
  | none => history ++ [record]

def recordMentionsKey (record : QaRecord) (key : Bytes) : Bool :=
  memoryKeyFromText record.question == some key || memoryKeyFromText record.answer == some key

def recordMatchesForgetPhrase (record : QaRecord) (phrase : Bytes) : Bool :=
  let phrase := trimAscii phrase
  if phrase.isEmpty then false
  else
    let keyed := match memoryKeyFromText phrase with
      | some key => qaRecordKey record == some key || recordMentionsKey record key
      | none => false
    keyed || containsCaseInsensitive record.question phrase || containsCaseInsensitive record.answer phrase

def forgetHistoryRecords (history : Records) (phrase : Bytes) : Records × Nat :=
  let kept := history.filter fun record => !recordMatchesForgetPhrase record phrase
  (kept, history.length - kept.length)

structure Shell where
  history : Records
  sessionDelta : Bytes
  deriving DecidableEq, Repr

def appendNeeded (prompt answer : Bytes) : Nat := satAdd (satAdd prompt.length answer.length) 64

def appendToHistory (shell : Shell) (prompt answer : Bytes) : Shell where
  history := upsertHistoryRecord (shrinkRecords (appendNeeded prompt answer) shell.history) ⟨prompt, answer⟩
  sessionDelta := appendSerializedQa (shrinkBytes shell.sessionDelta (appendNeeded prompt answer)) prompt answer

def forgetKey (phrase : Bytes) : Bytes := (memoryKeyFromText phrase).getD phrase

def forgetNeeded (key : Bytes) : Nat := satAdd key.length 64

def appendForgetToHistory (shell : Shell) (phrase : Bytes) : Shell × Nat :=
  let phrase := trimAscii phrase
  if phrase.isEmpty then (shell, 0)
  else
    let key := forgetKey phrase
    let forgotten := forgetHistoryRecords shell.history key
    (⟨forgotten.1, appendSerializedForget (shrinkBytes shell.sessionDelta (forgetNeeded key)) key⟩, forgotten.2)

theorem upsertHistoryRecord_nil (record : QaRecord) : upsertHistoryRecord [] record = [record] := by
  unfold upsertHistoryRecord
  split <;> rfl

section Edits

inductive Edit where
  | upsert (record : QaRecord)
  | forget (key : Bytes)
  deriving DecidableEq, Repr

def Edit.apply (history : Records) : Edit → Records
  | .upsert record => upsertHistoryRecord history record
  | .forget key => (forgetHistoryRecords history key).1

def replay (start : Records) (edits : List Edit) : Records := edits.foldl Edit.apply start

def Edit.serialize : Edit → Bytes
  | .upsert record => appendSerializedQa [] record.question record.answer
  | .forget key => appendSerializedForget [] key

def Edit.Wellformed : Edit → Prop
  | .upsert _ => True
  | .forget key => trimAscii key = key ∧ key ≠ []

theorem appendSerializedQa_eq (target prompt answer : Bytes) :
    appendSerializedQa target prompt answer = pushSeparator target ++ (Edit.upsert ⟨prompt, answer⟩).serialize := by
  simp [Edit.serialize, appendSerializedQa, appendDecimal_eq, pushSeparator]

theorem appendSerializedForget_eq (target key : Bytes) :
    appendSerializedForget target key = pushSeparator target ++ (Edit.forget key).serialize := by
  simp [Edit.serialize, appendSerializedForget, appendDecimal_eq, pushSeparator]

variable {phrase : Bytes}

theorem forgetKey_trimmed (trimmed : trimAscii phrase = phrase) (content : phrase ≠ []) :
    trimAscii (forgetKey phrase) = forgetKey phrase ∧ forgetKey phrase ≠ [] := by
  unfold forgetKey memoryKeyFromText
  split_ifs
  all_goals first
    | exact ⟨trimmed, content⟩
    | rw [Option.getD_some]; decide

end Edits

section Operations

inductive Operation where
  | append (prompt answer : Bytes)
  | forget (phrase : Bytes)
  deriving DecidableEq, Repr

def Operation.perform (shell : Shell) : Operation → Shell
  | .append prompt answer => appendToHistory shell prompt answer
  | .forget phrase => (appendForgetToHistory shell phrase).1

def Operation.edit : Operation → Option Edit
  | .append prompt answer => some (.upsert ⟨prompt, answer⟩)
  | .forget phrase => if trimAscii phrase = [] then none else some (.forget (forgetKey (trimAscii phrase)))

theorem perform_blank (shell : Shell) (blank : trimAscii phrase = []) :
    (Operation.forget phrase).perform shell = shell := by
  simp [Operation.perform, appendForgetToHistory, blank]

theorem perform_forget (shell : Shell) (content : trimAscii phrase ≠ []) :
    (Operation.forget phrase).perform shell =
      ⟨(forgetHistoryRecords shell.history (forgetKey (trimAscii phrase))).1,
        appendSerializedForget (shrinkBytes shell.sessionDelta (forgetNeeded (forgetKey (trimAscii phrase))))
          (forgetKey (trimAscii phrase))⟩ := by
  simp [Operation.perform, appendForgetToHistory, content]

end Operations

end HermitLocal.RamShell.History
