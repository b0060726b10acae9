import HermitLocal.Lib.Restart
import HermitLocal.RamShell.Text

/-! What `contains_word_sequence` finds. A text is a list of words, its maximal runs
of alphanumeric bytes; the scanner takes them one by one, and reports a sequence of
words exactly where it stands as consecutive words of the text. -/

namespace HermitLocal.RamShell.Words
open Lib.Wire Lib.Restart RamShell.Text List

def wordRuns (text : Bytes) : List Bytes :=
  (text.splitOnP fun byte => !isWordByte byte).filter fun run => !run.isEmpty

def folded (word : Bytes) : Bytes := word.map toAsciiLowercase

theorem eqIgnoreAsciiCaseSlice_iff (left right : Bytes) :
    eqIgnoreAsciiCaseSlice left right = true ↔ folded left = folded right := by
  induction left generalizing right with
  | nil => cases right <;> simp [eqIgnoreAsciiCaseSlice, folded]
  | cons byte rest ih =>
    cases right with
    | nil => simp [eqIgnoreAsciiCaseSlice, folded]
    | cons other more =>
      have tails := ih more
      simp only [eqIgnoreAsciiCaseSlice, folded, Bool.and_eq_true, beq_iff_eq] at tails
      simp only [eqIgnoreAsciiCaseSlice, folded, eqIgnoreAsciiCaseByte, length_cons, zip_cons_cons,
        all_cons, Bool.and_eq_true, beq_iff_eq, map_cons, cons.injEq, Nat.add_right_cancel_iff,
        ← tails]
      tauto

section Runs

theorem wordRuns_nil : wordRuns [] = [] := rfl

theorem wordRuns_skip (text : Bytes) : wordRuns (text.dropWhile fun byte => !isWordByte byte) = wordRuns text := by
  induction text with
  | nil => rfl
  | cons byte rest ih =>
    by_cases word : isWordByte byte = true
    · rw [dropWhile_cons_of_neg (by simp [word])]
    · rw [dropWhile_cons_of_pos (by simp [word]), ih]
      simp [wordRuns, splitOnP_cons_eq_if_modifyHead, word]

theorem wordRuns_append (before after : Bytes) {gap : UInt8} (outside : isWordByte gap = false) :
    wordRuns (before ++ gap :: after) = wordRuns before ++ wordRuns after := by
  unfold wordRuns
  rw [splitOnP_append_cons before after (by simp [outside]), filter_append]

theorem wordRuns_word {word : Bytes} (content : word ≠ []) (letters : ∀ byte ∈ word, isWordByte byte = true) :
    wordRuns word = [word] := by
  unfold wordRuns
  rw [splitOnP_eq_singleton (by simpa using letters)]
  simp [content]

theorem wordRuns_cons {text : Bytes} (content : text.takeWhile isWordByte ≠ []) : wordRuns text =
      text.takeWhile isWordByte :: wordRuns (text.drop ((text.takeWhile isWordByte).length + 1)) := by
  have letters : ∀ byte ∈ text.takeWhile isWordByte, isWordByte byte = true := by
    intro byte member
    exact mem_takeWhile_imp member
  have split := takeWhile_append_dropWhile (p := isWordByte) (l := text)
  have stop := head?_dropWhile_not isWordByte text
  generalize text.takeWhile isWordByte = word at *
  cases behind : text.dropWhile isWordByte with
  | nil =>
    rw [behind, append_nil] at split
    rw [← split, wordRuns_word content letters, drop_eq_nil_of_le (Nat.le_succ _), wordRuns_nil]
  | cons gap after =>
    rw [behind] at split stop
    have outside : isWordByte gap = false := by simpa using stop
    rw [← split, wordRuns_append word after outside, wordRuns_word content letters, ← drop_drop,
      drop_left]
    rfl

theorem no_word_left (text : Bytes)
    (none : (text.dropWhile fun byte => !isWordByte byte).takeWhile isWordByte = []) :
    (text.dropWhile fun byte => !isWordByte byte) = [] := by
  have first := head?_dropWhile_not (fun byte => !isWordByte byte) text
  cases fromWord : text.dropWhile fun byte => !isWordByte byte with
  | nil => rfl
  | cons byte rest =>
    rw [fromWord] at first none
    have word : isWordByte byte = true := by simpa using first
    rw [takeWhile_cons_of_pos word] at none
    cases none

end Runs

section Scan
variable {words : List Bytes}

theorem folded_hit (word : Bytes) {wordIndex : Nat} (inside : wordIndex < words.length) :
    eqIgnoreAsciiCaseSlice word (words.getD wordIndex []) = true ↔
      (words.map folded)[wordIndex]? = some (folded word) := by
  rw [eqIgnoreAsciiCaseSlice_iff, getD_eq_getElem?_getD, getElem?_map, getElem?_eq_getElem inside,
    Option.getD_some, Option.map_some, Option.some_inj]
  exact eq_comm

theorem containsWordSequenceFrom_eq (text : Bytes) {wordIndex : Nat} (inside : wordIndex < words.length) :
    containsWordSequenceFrom words wordIndex text =
      scan (words.map folded) wordIndex ((wordRuns text).map folded) := by
  rw [containsWordSequenceFrom]
  split
  next empty => rw [empty, wordRuns_nil, map_nil, scan]
  next more =>
    have shorter := List.IsSuffix.length_le (dropWhile_suffix (l := text) fun byte => !isWordByte byte)
    have positive := length_pos_iff.mpr more
    have ended := no_word_left text
    rw [← wordRuns_skip text]
    generalize text.dropWhile (fun byte => !isWordByte byte) = fromWord at *
    by_cases empty : fromWord.takeWhile isWordByte = []
    · rw [ended empty]
      simp [containsWordSequenceFrom, wordRuns_nil, scan]
    · have next : (fromWord.drop ((fromWord.takeWhile isWordByte).length + 1)).length < text.length := by
        rw [length_drop]
        omega
      rw [wordRuns_cons empty, map_cons, scan]
      simp only [isEmpty_eq_false_iff.mpr empty, Bool.not_false, Bool.true_and, folded_hit _ inside,
        folded_hit _ (Nat.zero_lt_of_lt inside), length_map]
      split_ifs with hit complete again
      · rfl
      · exact containsWordSequenceFrom_eq _ (by omega)
      · have advanced : wordIndex ≠ 0 := by
          rintro rfl
          exact hit again
        exact containsWordSequenceFrom_eq _ (by omega)
      · exact containsWordSequenceFrom_eq _ (by omega)
termination_by text.length

theorem folded_nodup (distinct : words.Pairwise fun left right => eqIgnoreAsciiCaseSlice left right = false) :
    (words.map folded).Nodup := by
  rw [List.Nodup, pairwise_map]
  apply distinct.imp
  intro left right differ same
  rw [(eqIgnoreAsciiCaseSlice_iff left right).mpr same] at differ
  cases differ

theorem containsWordSequence_folded (text : Bytes) (content : words ≠ [])
    (distinct : words.Pairwise fun left right => eqIgnoreAsciiCaseSlice left right = false) :
    containsWordSequence text words = true ↔ words.map folded <:+: (wordRuns text).map folded := by
  have inside : 0 < words.length := length_pos_iff.mpr content
  have entered : containsWordSequence text words = containsWordSequenceFrom words 0 text := by
    simp [containsWordSequence, content]
  rw [entered, containsWordSequenceFrom_eq text inside, scan_iff (folded_nodup distinct) (by simpa using inside),
    take_zero, nil_append]

theorem forall₂_folded (found words : List Bytes) :
    List.Forall₂ (fun run word => eqIgnoreAsciiCaseSlice run word = true) found words ↔
      words.map folded = found.map folded := by
  have pointwise : (found.map folded = words.map folded) = List.Forall₂ Eq (found.map folded) (words.map folded) :=
    congrFun (congrFun forall₂_eq_eq_eq.symm _) _
  rw [eq_comm, pointwise, forall₂_map_left_iff, forall₂_map_right_iff]
  simp only [eqIgnoreAsciiCaseSlice_iff]

end Scan

/-- The scanner finds words exactly where they stand as consecutive words of the text. -/
theorem containsWordSequence_iff (text : Bytes) {words : List Bytes} (content : words ≠ [])
    (distinct : words.Pairwise fun left right => eqIgnoreAsciiCaseSlice left right = false) :
    containsWordSequence text words = true ↔
      ∃ found, found <:+: wordRuns text ∧
        List.Forall₂ (fun run word => eqIgnoreAsciiCaseSlice run word = true) found words := by
  rw [containsWordSequence_folded text content distinct, infix_map_iff]
  simp only [forall₂_folded]

theorem secure_phrase_found : containsWordSequence (ascii "my Secure, Phrase") [ascii "secure", ascii "phrase"] = true :=
  (containsWordSequence_iff (ascii "my Secure, Phrase") (by decide) (by decide)).mpr
    ⟨[ascii "Secure", ascii "Phrase"], by decide, .cons (by decide) (.cons (by decide) .nil)⟩

end HermitLocal.RamShell.Words
