import HermitLocal.RamShell.Bounds
import HermitLocal.RamShell.Words
import HermitLocal.RamShell.Replay

/-! What a forget leaves behind. A phrase that names a memory is replaced by the key of
that memory before the history is searched, so a record may mention the phrase and
stay: its own key may be another one, and its text need not hold the key. -/

namespace HermitLocal.RamShell.Forget
open Lib.Wire RamShell.Text RamShell.Words RamShell.History
open RamShell.Bounds RamShell.Parser RamShell.Replay

section Keys

def SECURE_PHRASE : Bytes := ascii "secure phrase"
def SECRET_PHRASE : Bytes := ascii "secret phrase"
def MEMORY_TEST_PHRASE : Bytes := ascii "memory test phrase"
def CODENAME : Bytes := ascii "codename"

def hasWords (text words : List Bytes) : Bool := decide (words <:+: text)

def keyOfWords (text : List Bytes) : Option Bytes :=
  if hasWords text [ascii "secure", ascii "phrase"] || hasWords text [ascii "stored", ascii "secure", ascii "phrase"] ||
      hasWords text [ascii "secured", ascii "stored", ascii "phrase"] then some SECURE_PHRASE
  else if hasWords text [ascii "secret", ascii "phrase"] || hasWords text [ascii "secret", ascii "key"] then
    some SECRET_PHRASE
  else if hasWords text [ascii "memory", ascii "test", ascii "phrase"] then some MEMORY_TEST_PHRASE
  else if hasWords text [ascii "project", ascii "codename"] || hasWords text [ascii "code", ascii "name"] ||
      hasWords text [ascii "codename"] then some CODENAME
  else none

theorem containsWordSequence_eq (text : Bytes) {words : List Bytes} (content : words ≠ [])
    (plain : words.map folded = words)
    (distinct : words.Pairwise fun left right => eqIgnoreAsciiCaseSlice left right = false) :
    containsWordSequence text words = hasWords ((wordRuns text).map folded) words := by
  rw [Bool.eq_iff_iff, containsWordSequence_folded text content distinct, plain, hasWords, decide_eq_true_iff]

theorem memoryKeyFromText_eq (text : Bytes) :
    memoryKeyFromText text = keyOfWords ((wordRuns text).map folded) := by
  unfold memoryKeyFromText keyOfWords
  repeat rw [containsWordSequence_eq text (by decide) (by decide) (by decide)]
  rfl

def MEMORY_KEYS : List Bytes := [SECURE_PHRASE, SECRET_PHRASE, MEMORY_TEST_PHRASE, CODENAME]

variable {text key : Bytes}

theorem memoryKeyFromText_mem (named : memoryKeyFromText text = some key) : key ∈ MEMORY_KEYS := by
  unfold memoryKeyFromText at named
  split_ifs at named
  all_goals
    cases named
    decide

theorem memoryKeyFromText_key : ∀ key ∈ MEMORY_KEYS,
    memoryKeyFromText key = some key ∧ trimAscii key = key ∧ key ≠ [] := by
  simp only [memoryKeyFromText_eq]
  decide

end Keys

section Matching
variable {record : QaRecord} {key phrase : Bytes}

def Mentions (record : QaRecord) (phrase : Bytes) : Prop :=
  containsCaseInsensitive record.question phrase = true ∨ containsCaseInsensitive record.answer phrase = true

def Names (record : QaRecord) (key : Bytes) : Prop :=
  memoryKeyFromText record.question = some key ∨ memoryKeyFromText record.answer = some key ∨ Mentions record key

theorem recordMentionsKey_of_key (keyed : qaRecordKey record = some key) : recordMentionsKey record key = true := by
  unfold qaRecordKey at keyed
  unfold recordMentionsKey
  split at keyed
  · simp [keyed]
  · rcases Option.or_eq_some_iff.mp keyed with question | ⟨-, answer⟩
    · simp [question]
    · simp [answer]

theorem matches_key (member : key ∈ MEMORY_KEYS) : recordMatchesForgetPhrase record key = true ↔ Names record key := by
  obtain ⟨own, trimmed, content⟩ := memoryKeyFromText_key key member
  have filled : key.isEmpty = false := List.isEmpty_eq_false_iff.mpr content
  have keyed : (qaRecordKey record == some key || recordMentionsKey record key) = recordMentionsKey record key := by
    cases mentions : recordMentionsKey record key with
    | true => exact Bool.or_true _
    | false =>
      rw [Bool.or_false, beq_eq_false_iff_ne]
      intro same
      rw [recordMentionsKey_of_key same] at mentions
      cases mentions
  unfold recordMatchesForgetPhrase Names Mentions
  simp only [trimmed, filled, own, keyed, Bool.false_eq_true, if_false]
  simp only [recordMentionsKey, Bool.or_eq_true, beq_iff_eq, or_assoc]

theorem matches_plain (trimmed : trimAscii phrase = phrase) (content : phrase ≠ [])
    (plain : memoryKeyFromText phrase = none) : recordMatchesForgetPhrase record phrase = true ↔ Mentions record phrase := by
  have filled : phrase.isEmpty = false := List.isEmpty_eq_false_iff.mpr content
  unfold recordMatchesForgetPhrase Mentions
  simp only [trimmed, filled, plain, Bool.false_eq_true, if_false, Bool.false_or, Bool.or_eq_true]

end Matching

section Forget
variable {phrase : Bytes}

def Forgotten (history : Records) (phrase : Bytes) : Prop := ∀ record ∈ history, ¬Mentions record (trimAscii phrase)

def Covered (history : Records) (phrase : Bytes) : Prop :=
  ∀ key, memoryKeyFromText (trimAscii phrase) = some key →
    ∀ record ∈ history, Mentions record (trimAscii phrase) → Names record key

theorem forgotten_iff (history : Records) (content : trimAscii phrase ≠ []) :
    Forgotten (forgetHistoryRecords history (forgetKey (trimAscii phrase))).1 phrase ↔ Covered history phrase := by
  have left : Forgotten (forgetHistoryRecords history (forgetKey (trimAscii phrase))).1 phrase ↔
      ∀ record ∈ history, Mentions record (trimAscii phrase) →
        recordMatchesForgetPhrase record (forgetKey (trimAscii phrase)) = true := by
    simp only [Forgotten, forgetHistoryRecords, List.mem_filter, Bool.not_eq_true', and_imp]
    apply forall₂_congr
    intro record _
    rw [← Bool.not_eq_true, not_imp_not]
  rw [left]
  unfold Covered forgetKey
  cases named : memoryKeyFromText (trimAscii phrase) with
  | none =>
    simp only [Option.getD_none, matches_plain (trimAscii_trimAscii phrase) content named]
    exact iff_of_true (fun _ _ mentions => mentions) (fun _ absent => by cases absent)
  | some key =>
    simp only [Option.getD_some, matches_key (memoryKeyFromText_mem named), Option.some_inj, forall_eq']

theorem appendForget_history (shell : Shell) (content : trimAscii phrase ≠ []) :
    (appendForgetToHistory shell phrase).1.history =
      (forgetHistoryRecords shell.history (forgetKey (trimAscii phrase))).1 :=
  congrArg Shell.history (perform_forget shell content)

theorem replay_forget (history : Records) (content : trimAscii phrase ≠ [])
    (fits : (Edit.forget (forgetKey (trimAscii phrase))).serialize.length < WORD) :
    parseStructuredQaRecords (Edit.forget (forgetKey (trimAscii phrase))).serialize fits history =
      some (forgetHistoryRecords history (forgetKey (trimAscii phrase))).1 := by
  have framed : Framed ([] ++ (pushSeparator [] ++ (Edit.forget (forgetKey (trimAscii phrase))).serialize))
      ([] ++ [.forget (forgetKey (trimAscii phrase))]) :=
    framed_extend (.forget _) (forgetKey_trimmed (trimAscii_trimAscii phrase) content) framed_nil
  exact parse_framed framed fits history

end Forget

/-- A phrase is forgotten exactly if all that mention it name the memory it stands for. -/
theorem forget_forgets_iff (shell : Shell) (phrase : Bytes) (content : trimAscii phrase ≠ [])
    (fits : (Edit.forget (forgetKey (trimAscii phrase))).serialize.length < WORD) :
    (Forgotten (appendForgetToHistory shell phrase).1.history phrase ∧
      ∃ replayed, parseStructuredQaRecords (Edit.forget (forgetKey (trimAscii phrase))).serialize fits shell.history =
        some replayed ∧ Forgotten replayed phrase) ↔
      Covered shell.history phrase := by
  rw [appendForget_history shell content, replay_forget shell.history content fits, forgotten_iff shell.history content]
  constructor
  · exact And.left
  · intro covered
    exact ⟨covered, _, rfl, (forgotten_iff shell.history content).mpr covered⟩

def keyQuestion : QaRecord := ⟨ascii "where are my secret keys?", ascii "in the safe"⟩

theorem secret_key_stays :
    (appendForgetToHistory ⟨[keyQuestion], []⟩ (ascii "secret key")).1.history = [keyQuestion] ∧
      containsCaseInsensitive keyQuestion.question (trimAscii (ascii "secret key")) = true := by
  have named : memoryKeyFromText (trimAscii (ascii "secret key")) = some SECRET_PHRASE := by
    rw [memoryKeyFromText_eq]
    decide
  have stays : ¬Names keyQuestion SECRET_PHRASE := by
    unfold Names Mentions
    rw [memoryKeyFromText_eq, memoryKeyFromText_eq]
    decide
  have unmatched : recordMatchesForgetPhrase keyQuestion SECRET_PHRASE = false := by
    rw [← Bool.not_eq_true, matches_key (by decide)]
    exact stays
  rw [appendForget_history _ (by decide), forgetKey, named, Option.getD_some]
  simp only [forgetHistoryRecords, List.filter_cons, unmatched]
  exact ⟨rfl, by decide⟩

theorem forget_fits {phrase : Bytes} (reserve : phrase.length + 64 < RAM_SHELL_HISTORY_CAP_BYTES) :
    (Edit.forget (forgetKey (trimAscii phrase))).serialize.length < WORD := by
  have written := forget_length (forget_reserve reserve)
  have room := forget_reserve reserve
  have cap : RAM_SHELL_HISTORY_CAP_BYTES < WORD := by decide
  omega

theorem forget_forgets_safe : Forgotten (appendForgetToHistory ⟨[keyQuestion], []⟩ (ascii "safe")).1.history (ascii "safe") := by
  apply ((forget_forgets_iff ⟨[keyQuestion], []⟩ (ascii "safe") (by decide) (forget_fits (by decide))).mpr _).1
  have plain : memoryKeyFromText (trimAscii (ascii "safe")) = none := by
    rw [memoryKeyFromText_eq]
    decide
  intro key named
  rw [plain] at named
  cases named

end HermitLocal.RamShell.Forget
