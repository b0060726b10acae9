import HermitLocal.RamShell.History

/-! How large the memory gets. The live history and the session delta are trimmed
before each addition by a reserve that covers the markers and the decimal lengths,
so both stay within the cap; the history loses its oldest records only, and no more
of them than it must. -/

namespace HermitLocal.RamShell.Bounds
open Lib.Wire RamShell.Text RamShell.History List

section Payload

theorem qaRecordPayloadLen_le (record : QaRecord) :
    qaRecordPayloadLen record ≤ (Edit.upsert record).serialize.length := by
  have marker : RAMQA.length = 12 := rfl
  simp only [qaRecordPayloadLen, satAdd, Edit.serialize, appendSerializedQa, appendDecimal_eq, pushSeparator,
    isEmpty_nil, if_true, nil_append, length_append, length_cons, length_nil, marker]
  omega

theorem historyPayloadLen_filter (history : Records) (keep : QaRecord → Bool) :
    historyPayloadLen (history.filter keep) ≤ historyPayloadLen history := by
  unfold historyPayloadLen
  induction history with
  | nil => exact le_rfl
  | cons record rest ih =>
    rw [filter_cons]
    split <;> simp only [map_cons, sum_cons] <;> omega

theorem historyPayloadLen_concat (history : Records) (record : QaRecord) :
    historyPayloadLen (history ++ [record]) = historyPayloadLen history + qaRecordPayloadLen record := by
  simp [historyPayloadLen]

theorem historyPayloadLen_upsert (history : Records) (record : QaRecord) :
    historyPayloadLen (upsertHistoryRecord history record) ≤
      historyPayloadLen history + qaRecordPayloadLen record := by
  unfold upsertHistoryRecord
  split
  · rw [historyPayloadLen_concat]
    exact Nat.add_le_add_right (historyPayloadLen_filter _ _) _
  · rw [historyPayloadLen_concat]

end Payload

section Shrink

structure LongestFitting (needed : Nat) (history kept : Records) : Prop where
  suffix : kept <:+ history
  fits : historyPayloadLen kept + needed ≤ RAM_SHELL_HISTORY_CAP_BYTES
  longest : ∀ other, other <:+ history → historyPayloadLen other + needed ≤ RAM_SHELL_HISTORY_CAP_BYTES →
    other <:+ kept

theorem satAdd_cap (length needed : Nat) :
    satAdd length needed > RAM_SHELL_HISTORY_CAP_BYTES ↔ RAM_SHELL_HISTORY_CAP_BYTES < length + needed := by
  have cap : RAM_SHELL_HISTORY_CAP_BYTES < WORD - 1 := by decide
  unfold satAdd
  omega

theorem shrinkRecords_suffix (needed : Nat) (history : Records) : shrinkRecords needed history <:+ history := by
  induction history with
  | nil => exact suffix_refl _
  | cons record rest ih =>
    rw [shrinkRecords]
    split
    · exact ih.trans (suffix_cons record rest)
    · exact suffix_refl _

theorem shrinkRecords_longest (needed : Nat) (room : needed ≤ RAM_SHELL_HISTORY_CAP_BYTES) (history : Records) :
    LongestFitting needed history (shrinkRecords needed history) := by
  apply LongestFitting.mk (shrinkRecords_suffix needed history)
  · induction history with
    | nil => simpa [shrinkRecords, historyPayloadLen] using room
    | cons record rest ih =>
      rw [shrinkRecords]
      split
      · exact ih
      next short => exact Nat.not_lt.mp (mt (satAdd_cap _ _).mpr short)
  · induction history with
    | nil => exact fun _ suffix _ => suffix
    | cons record rest ih =>
      intro other suffix small
      rw [shrinkRecords]
      split
      next long =>
        -- the whole history does not fit, so what fits is a suffix of its tail
        rw [satAdd_cap] at long
        rcases suffix_cons_iff.mp suffix with whole | inside
        · rw [whole] at small
          omega
        · exact ih other inside small
      · exact suffix

theorem shrinkBytes_suffix (buf : Bytes) (needed : Nat) : shrinkBytes buf needed <:+ buf := by
  unfold shrinkBytes
  dsimp only
  split_ifs
  · exact suffix_refl _
  · exact nil_suffix
  · exact drop_suffix _ _

theorem shrinkBytes_room {buf : Bytes} (needed : Nat) (small : buf.length ≤ RAM_SHELL_HISTORY_CAP_BYTES)
    (room : needed < RAM_SHELL_HISTORY_CAP_BYTES) :
    (shrinkBytes buf needed).length + needed ≤ RAM_SHELL_HISTORY_CAP_BYTES := by
  have required : satAdd buf.length needed = buf.length + needed := by
    apply satAdd_eq
    have cap : RAM_SHELL_HISTORY_CAP_BYTES + RAM_SHELL_HISTORY_CAP_BYTES < WORD := by decide
    omega
  unfold shrinkBytes
  simp only [required]
  split_ifs with fits
  · exact fits
  · omega
  · simp only [length_drop]
    omega

end Shrink

section Serialized

theorem decimal_length {value : Nat} (small : value < RAM_SHELL_HISTORY_CAP_BYTES) : (decimal value).length ≤ 5 := by
  unfold decimal appendDecimal
  split
  · exact Nat.succ_le_succ (Nat.zero_le 4)
  · apply decimalDigits_length
    exact small.trans (by decide)

theorem pushSeparator_length (target : Bytes) : (pushSeparator target).length ≤ target.length + 1 := by
  unfold pushSeparator
  split
  · exact Nat.le_succ _
  · rw [length_append, length_singleton]

theorem digitChar_byte {digit : Nat} (small : digit < 10) :
    UInt8.ofNat (Nat.digitChar digit).toNat = 48 + UInt8.ofNat digit := by
  have each : ∀ digit : Fin 10, UInt8.ofNat (Nat.digitChar digit).toNat = 48 + UInt8.ofNat digit := by decide
  exact each ⟨digit, small⟩

theorem decimalDigits_toDigits (value : Nat) (positive : value ≠ 0) :
    decimalDigits value = (Nat.toDigits 10 value).map fun c => UInt8.ofNat c.toNat := by
  have last := digitChar_byte (Nat.mod_lt value (show 0 < 10 by decide))
  rw [decimalDigits, if_neg positive]
  by_cases single : value < 10
  · rw [Nat.toDigits_of_lt_base single, Nat.div_eq_of_lt single, decimalDigits, if_pos rfl, nil_append, map_singleton,
      ← last, Nat.mod_eq_of_lt single]
  · rw [Nat.toDigits_of_base_le (by decide) (by omega), map_append, map_singleton, last,
      decimalDigits_toDigits (value / 10) (by omega)]
termination_by value
decreasing_by omega

theorem decimal_toString (value : Nat) : decimal value = ascii (toString value) := by
  unfold decimal appendDecimal
  by_cases zero : value = 0
  · rw [zero]
    rfl
  · rw [if_neg zero, nil_append, decimalDigits_toDigits value zero, ascii]
    exact congrArg (map _) String.toList_ofList.symm

def recordText : Edit → Bytes
  | .upsert record =>
      ascii "[RAMQA v1 q=" ++ ascii (toString record.question.length) ++ ascii " a=" ++
        ascii (toString record.answer.length) ++ ascii "]\n" ++ record.question ++ ascii "\n" ++ record.answer ++ ascii "\n"
  | .forget key => ascii "[RAMDEL v1 k=" ++ ascii (toString key.length) ++ ascii "]\n" ++ key ++ ascii "\n"

theorem serialize_eq_recordText (edit : Edit) : edit.serialize = recordText edit := by
  cases edit with
  | upsert record =>
    simp only [Edit.serialize, appendSerializedQa, pushSeparator, isEmpty_nil, if_true, appendDecimal_eq, decimal_toString,
      recordText, nil_append]
    rfl
  | forget key =>
    simp only [Edit.serialize, appendSerializedForget, pushSeparator, isEmpty_nil, if_true, appendDecimal_eq,
      decimal_toString, recordText, nil_append]
    rfl

theorem upsert_length (record : QaRecord)
    (small : record.question.length + record.answer.length + 64 < RAM_SHELL_HISTORY_CAP_BYTES) :
    (Edit.upsert record).serialize.length + 1 ≤ record.question.length + record.answer.length + 64 := by
  have marker : RAMQA.length = 12 := rfl
  have between : ANSWER_MARKER.length = 3 := rfl
  have question := decimal_length (show record.question.length < RAM_SHELL_HISTORY_CAP_BYTES by omega)
  have answer := decimal_length (show record.answer.length < RAM_SHELL_HISTORY_CAP_BYTES by omega)
  simp only [Edit.serialize, appendSerializedQa, appendDecimal_eq, pushSeparator, isEmpty_nil, if_true,
    nil_append, length_append, length_cons, length_nil, marker, between]
  omega

theorem forget_length {key : Bytes} (small : key.length + 64 < RAM_SHELL_HISTORY_CAP_BYTES) :
    (Edit.forget key).serialize.length + 1 ≤ key.length + 64 := by
  have marker : RAMDEL.length = 13 := rfl
  have digits := decimal_length (show key.length < RAM_SHELL_HISTORY_CAP_BYTES by omega)
  simp only [Edit.serialize, appendSerializedForget, appendDecimal_eq, pushSeparator, isEmpty_nil, if_true,
    nil_append, length_append, length_cons, length_nil, marker]
  omega

theorem forgetKey_length (phrase : Bytes) : (forgetKey phrase).length ≤ max phrase.length 18 := by
  unfold forgetKey memoryKeyFromText
  split_ifs
  all_goals first
    | exact le_max_left _ _
    | rw [Option.getD_some]; exact le_max_of_le_right (by decide)

theorem trimAscii_length (bytes : Bytes) : (trimAscii bytes).length ≤ bytes.length :=
  (List.rdropWhile_prefix _ _).length_le.trans (dropWhile_suffix _).length_le

end Serialized

section Operations

def WithinReserve : Operation → Prop
  | .append prompt answer => prompt.length + answer.length + 64 < RAM_SHELL_HISTORY_CAP_BYTES
  | .forget phrase => phrase.length + 64 < RAM_SHELL_HISTORY_CAP_BYTES

structure Within (shell : Shell) : Prop where
  history : historyPayloadLen shell.history ≤ RAM_SHELL_HISTORY_CAP_BYTES
  delta : shell.sessionDelta.length ≤ RAM_SHELL_HISTORY_CAP_BYTES

variable {shell : Shell}

theorem appendNeeded_eq {prompt answer : Bytes}
    (reserve : prompt.length + answer.length + 64 < RAM_SHELL_HISTORY_CAP_BYTES) :
    appendNeeded prompt answer = prompt.length + answer.length + 64 := by
  have cap : RAM_SHELL_HISTORY_CAP_BYTES < WORD := by decide
  have texts := satAdd_eq prompt.length answer.length (by omega)
  unfold appendNeeded
  rw [texts, satAdd_eq _ _ (by omega)]

theorem append_within (within : Within shell) {prompt answer : Bytes}
    (reserve : prompt.length + answer.length + 64 < RAM_SHELL_HISTORY_CAP_BYTES) :
    Within (appendToHistory shell prompt answer) := by
  have needed := appendNeeded_eq reserve
  constructor
  · have kept := (shrinkRecords_longest (appendNeeded prompt answer) (by omega) shell.history).fits
    have own : qaRecordPayloadLen ⟨prompt, answer⟩ ≤ prompt.length + answer.length + 8 := by
      simp only [qaRecordPayloadLen, satAdd]
      omega
    have grown := historyPayloadLen_upsert (shrinkRecords (appendNeeded prompt answer) shell.history) ⟨prompt, answer⟩
    simp only [appendToHistory]
    omega
  · have kept := shrinkBytes_room (appendNeeded prompt answer) within.delta (by omega)
    have separated := pushSeparator_length (shrinkBytes shell.sessionDelta (appendNeeded prompt answer))
    have written := upsert_length ⟨prompt, answer⟩ reserve
    simp only [appendToHistory, appendSerializedQa_eq, length_append] at written ⊢
    omega

theorem forget_reserve {phrase : Bytes} (reserve : phrase.length + 64 < RAM_SHELL_HISTORY_CAP_BYTES) :
    (forgetKey (trimAscii phrase)).length + 64 < RAM_SHELL_HISTORY_CAP_BYTES := by
  have cap : 18 + 64 < RAM_SHELL_HISTORY_CAP_BYTES := by decide
  have key := forgetKey_length (trimAscii phrase)
  have trimmed := trimAscii_length phrase
  omega

theorem forgetNeeded_eq {key : Bytes} (reserve : key.length + 64 < RAM_SHELL_HISTORY_CAP_BYTES) :
    forgetNeeded key = key.length + 64 := by
  have cap : RAM_SHELL_HISTORY_CAP_BYTES < WORD := by decide
  exact satAdd_eq _ _ (by omega)

theorem forget_within (within : Within shell) {phrase : Bytes}
    (reserve : phrase.length + 64 < RAM_SHELL_HISTORY_CAP_BYTES) :
    Within ((Operation.forget phrase).perform shell) := by
  by_cases blank : trimAscii phrase = []
  · rwa [perform_blank shell blank]
  · have room := forget_reserve reserve
    have needed := forgetNeeded_eq room
    rw [perform_forget shell blank]
    constructor
    · exact (historyPayloadLen_filter _ _).trans within.history
    · have kept := shrinkBytes_room (forgetNeeded (forgetKey (trimAscii phrase))) within.delta (by omega)
      have separated := pushSeparator_length
        (shrinkBytes shell.sessionDelta (forgetNeeded (forgetKey (trimAscii phrase))))
      have written := forget_length room
      simp only [appendSerializedForget_eq, length_append]
      omega

theorem perform_within (within : Within shell) {operation : Operation} (reserve : WithinReserve operation) :
    Within (operation.perform shell) := by
  cases operation with
  | append prompt answer => exact append_within within reserve
  | forget phrase => exact forget_within within reserve

theorem run_within (within : Within shell) (operations : List Operation)
    (reserve : ∀ operation ∈ operations, WithinReserve operation) :
    Within (operations.foldl Operation.perform shell) := by
  induction operations generalizing shell with
  | nil => exact within
  | cons operation rest ih =>
    rw [forall_mem_cons] at reserve
    exact ih (perform_within within reserve.1) reserve.2

theorem perform_delta (shell : Shell) (operation : Operation) : ∃ kept, kept <:+ shell.sessionDelta ∧
      (operation.perform shell).sessionDelta =
        operation.edit.elim kept fun edit => (if kept = [] then [] else kept ++ ascii "\n") ++ recordText edit := by
  have separated (kept : Bytes) : pushSeparator kept = if kept = [] then [] else kept ++ ascii "\n" := by
    cases kept with
    | nil => rfl
    | cons first rest => rfl
  cases operation with
  | append prompt answer =>
    refine ⟨_, shrinkBytes_suffix _ (appendNeeded prompt answer), (appendSerializedQa_eq _ prompt answer).trans ?_⟩
    rw [separated, serialize_eq_recordText]
    rfl
  | forget phrase =>
    by_cases blank : trimAscii phrase = []
    · rw [perform_blank shell blank, Operation.edit, if_pos blank]
      exact ⟨_, suffix_refl _, rfl⟩
    · rw [perform_forget shell blank, Operation.edit, if_neg blank]
      refine ⟨_, shrinkBytes_suffix _ (forgetNeeded (forgetKey (trimAscii phrase))), (appendSerializedForget_eq _ _).trans ?_⟩
      rw [separated, serialize_eq_recordText]
      rfl

end Operations

/-- History and delta stay within the cap; what is dropped is the oldest. -/
theorem memory_bounded (shell : Shell) (operations : List Operation)
    (history : historyPayloadLen shell.history ≤ RAM_SHELL_HISTORY_CAP_BYTES)
    (delta : shell.sessionDelta.length ≤ RAM_SHELL_HISTORY_CAP_BYTES)
    (reserve : ∀ operation ∈ operations, WithinReserve operation) :
    ∀ past operation, past ++ [operation] <+: operations →
      let before := past.foldl Operation.perform shell
      let after := operation.perform before
      historyPayloadLen after.history ≤ RAM_SHELL_HISTORY_CAP_BYTES ∧
      after.sessionDelta.length ≤ RAM_SHELL_HISTORY_CAP_BYTES ∧
      (∃ kept, kept <:+ before.sessionDelta ∧
        after.sessionDelta =
          operation.edit.elim kept fun edit => (if kept = [] then [] else kept ++ ascii "\n") ++ recordText edit) ∧
      ∀ prompt answer, operation = .append prompt answer →
        ∃ kept, LongestFitting (appendNeeded prompt answer) before.history kept ∧
          kept = shrinkRecords (appendNeeded prompt answer) before.history ∧
          after.history = upsertHistoryRecord kept ⟨prompt, answer⟩ := by
  intro past operation early before after
  have allowed : ∀ other ∈ past ++ [operation], WithinReserve other := by
    intro other member
    exact reserve other (early.subset member)
  rw [forall_mem_append, forall_mem_singleton] at allowed
  have now := run_within ⟨history, delta⟩ past allowed.1
  have next := perform_within now allowed.2
  apply And.intro next.history
  apply And.intro next.delta
  apply And.intro (perform_delta before operation)
  rintro prompt answer rfl
  have room := appendNeeded_eq allowed.2
  exists shrinkRecords (appendNeeded prompt answer) before.history
  apply And.intro
  · apply shrinkRecords_longest
    exact room.le.trans (Nat.le_of_lt allowed.2)
  · exact ⟨rfl, rfl⟩

theorem shrinkBytes_some {buf : Bytes} {needed : Nat} (more : needed < buf.length)
    (room : needed < RAM_SHELL_HISTORY_CAP_BYTES) (small : buf.length ≤ RAM_SHELL_HISTORY_CAP_BYTES) :
    shrinkBytes buf needed ≠ [] := by
  have cap : RAM_SHELL_HISTORY_CAP_BYTES + RAM_SHELL_HISTORY_CAP_BYTES < WORD := by decide
  intro nothing
  have none := congrArg length nothing
  unfold shrinkBytes at none
  rw [satAdd_eq _ _ (by omega)] at none
  dsimp only at none
  split_ifs at none
  · rw [length_nil] at none
    omega
  · omega
  · rw [length_drop, length_nil] at none
    omega

def fullShell : Shell := ⟨[⟨replicate 65500 120, []⟩], replicate 65530 120⟩

theorem memory_bounded_full :
    let after := (Operation.append (ascii "hi") (ascii "ho")).perform fullShell
    after.history = [⟨ascii "hi", ascii "ho"⟩] ∧ after.sessionDelta.length ≤ RAM_SHELL_HISTORY_CAP_BYTES ∧
      ∃ kept, kept <:+ fullShell.sessionDelta ∧ kept ≠ [] ∧
        after.sessionDelta = kept ++ ascii "\n[RAMQA v1 q=2 a=2]\nhi\nho\n" := by
  have oldLength : (replicate 65500 (120 : UInt8)).length = 65500 := length_replicate
  have deltaLength : (replicate 65530 (120 : UInt8)).length = 65530 := length_replicate
  unfold fullShell
  generalize replicate 65500 (120 : UInt8) = old at oldLength
  generalize replicate 65530 (120 : UInt8) = delta at deltaLength
  have payload : historyPayloadLen [⟨old, []⟩] = 65508 := by
    change satAdd (satAdd old.length 0) 8 + 0 = 65508
    rw [oldLength]
    rfl
  have reserve : ∀ operation ∈ [Operation.append (ascii "hi") (ascii "ho")], WithinReserve operation := by
    rw [forall_mem_singleton]
    unfold WithinReserve
    decide
  obtain ⟨-, bounded, ⟨kept, suffix, written⟩, appended⟩ := memory_bounded ⟨[⟨old, []⟩], delta⟩ _
    (payload.trans_le (by decide)) (deltaLength.trans_le (by decide)) reserve [] (.append (ascii "hi") (ascii "ho"))
    (prefix_refl _)
  obtain ⟨records, longest, -, result⟩ := appended _ _ rfl
  have emptied : records = [] := by
    rcases suffix_cons_iff.mp longest.suffix with whole | inside
    · have fits := longest.fits
      rw [whole, payload] at fits
      exact absurd fits (by decide)
    · exact suffix_nil.mp inside
  have some : kept ≠ [] := by
    rintro rfl
    have same := (appendSerializedQa_eq _ (ascii "hi") (ascii "ho")).symm.trans written
    rw [serialize_eq_recordText] at same
    have nothing : pushSeparator (shrinkBytes delta (appendNeeded (ascii "hi") (ascii "ho"))) = [] :=
      append_cancel_right same
    have left : shrinkBytes delta (appendNeeded (ascii "hi") (ascii "ho")) ≠ [] := by
      apply shrinkBytes_some
      · rw [deltaLength]
        decide
      · decide
      · rw [deltaLength]
        decide
    rw [pushSeparator, isEmpty_eq_false_iff.mpr left] at nothing
    exact append_ne_nil_of_left_ne_nil left _ nothing
  refine ⟨result.trans (by rw [emptied, upsertHistoryRecord_nil]), bounded, kept, suffix, some, ?_⟩
  refine written.trans ?_
  change (if kept = [] then [] else kept ++ ascii "\n") ++ _ = _
  rw [if_neg some, append_assoc]
  congr 1

end HermitLocal.RamShell.Bounds
