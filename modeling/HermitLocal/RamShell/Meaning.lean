import HermitLocal.Lib.Simulation
import HermitLocal.RamShell.History

/-! What the history means. The shell updates its list of records in place; read as a
whole, the list holds the appended records in their order, without those that a
later operation supersedes or forgets. -/

namespace HermitLocal.RamShell.Meaning
open Lib.Wire Lib.Simulation RamShell.Text RamShell.History List

def supersedes (record : QaRecord) : Operation → Bool
  | .append prompt answer => (qaRecordKey ⟨prompt, answer⟩).isSome && qaRecordKey record == qaRecordKey ⟨prompt, answer⟩
  | .forget _ => false

def forgets (record : QaRecord) : Operation → Bool
  | .append _ _ => false
  | .forget phrase => recordMatchesForgetPhrase record (forgetKey (trimAscii phrase))

def removedBy (later : List Operation) (record : QaRecord) : Bool :=
  later.any (supersedes record) || later.any (forgets record)

def remembered : List Operation → Records
  | [] => []
  | .append prompt answer :: later =>
    if removedBy later ⟨prompt, answer⟩ then remembered later else ⟨prompt, answer⟩ :: remembered later
  | .forget _ :: later => remembered later

def DropsNothing (shell : Shell) : Operation → Prop
  | .append prompt answer => shrinkRecords (appendNeeded prompt answer) shell.history = shell.history
  | .forget _ => True

section Steps

theorem removedBy_cons (operation : Operation) (later : List Operation) (record : QaRecord) :
    removedBy (operation :: later) record =
      (supersedes record operation || forgets record operation || removedBy later record) := by
  simp only [removedBy, any_cons]
  ac_rfl

theorem upsertHistoryRecord_eq (history : Records) (prompt answer : Bytes) :
    upsertHistoryRecord history ⟨prompt, answer⟩ =
      history.filter (fun record => !supersedes record (.append prompt answer)) ++ [⟨prompt, answer⟩] := by
  unfold upsertHistoryRecord
  cases key : qaRecordKey ⟨prompt, answer⟩ with
  | none => simp [supersedes, key]
  | some name =>
    simp only [supersedes, key, Option.isSome_some, Bool.true_and]
    rfl

theorem memoryKeyFromText_nil : memoryKeyFromText [] = none := by
  simp [memoryKeyFromText, containsWordSequence, containsWordSequenceFrom]

theorem forgets_blank (record : QaRecord) {phrase : Bytes} (blank : trimAscii phrase = []) :
    forgets record (.forget phrase) = false := by
  simp only [forgets, blank, forgetKey, memoryKeyFromText_nil, Option.getD_none]
  rfl

theorem perform_history {shell : Shell} {operation : Operation} (keeps : DropsNothing shell operation) :
    (operation.perform shell).history =
      shell.history.filter (fun record => !(supersedes record operation || forgets record operation)) ++
        remembered [operation] := by
  cases operation with
  | append prompt answer =>
    have kept : shrinkRecords (appendNeeded prompt answer) shell.history = shell.history := keeps
    simp only [Operation.perform, appendToHistory, kept, upsertHistoryRecord_eq, forgets, Bool.or_false]
    rfl
  | forget phrase =>
    by_cases blank : trimAscii phrase = []
    · rw [perform_blank shell blank]
      simp [forgets_blank _ blank, supersedes, remembered]
    · rw [perform_forget shell blank]
      simp [forgetHistoryRecords, supersedes, forgets, remembered]

theorem remembered_cons (operation : Operation) (later : List Operation) : remembered (operation :: later) =
      (remembered [operation]).filter (fun record => !removedBy later record) ++ remembered later := by
  cases operation with
  | append prompt answer =>
    have alone : remembered [.append prompt answer] = [⟨prompt, answer⟩] := rfl
    rw [alone, remembered]
    by_cases removed : removedBy later ⟨prompt, answer⟩ = true
    · simp [removed]
    · simp [removed]
  | forget phrase => rfl

theorem run_history {shell : Shell} {operations : List Operation}
    (keeps : Guarded Operation.perform DropsNothing shell operations) :
    (operations.foldl Operation.perform shell).history =
      shell.history.filter (fun record => !removedBy operations record) ++ remembered operations := by
  induction operations generalizing shell with
  | nil => simp [removedBy, remembered]
  | cons operation later ih =>
    rw [foldl_cons, ih keeps.2, perform_history keeps.1, filter_append, filter_filter,
      remembered_cons operation later, append_assoc]
    congr 1
    apply filter_congr
    intro record _
    rw [removedBy_cons, Bool.and_comm, ← Bool.not_or]

end Steps

section Consequences

theorem mem_remembered {operations : List Operation} {record : QaRecord} (member : record ∈ remembered operations) :
    .append record.question record.answer ∈ operations := by
  induction operations with
  | nil => cases member
  | cons operation later ih =>
    rw [remembered_cons, mem_append] at member
    rcases member with own | behind
    · cases operation with
      | append prompt answer =>
        rw [mem_singleton.mp (mem_of_mem_filter own)]
        exact mem_cons_self
      | forget phrase => cases own
    · exact mem_cons_of_mem _ (ih behind)

theorem remembered_unique (operations : List Operation) (key : Bytes) :
    ((remembered operations).filter fun record => qaRecordKey record == some key).length ≤ 1 := by
  induction operations with
  | nil => exact Nat.zero_le 1
  | cons operation later ih =>
    cases operation with
    | forget phrase => exact ih
    | append prompt answer =>
      rw [remembered]
      split
      · exact ih
      next stays =>
        rw [filter_cons]
        split
        next keyed =>
          have none : (remembered later).filter (fun record => qaRecordKey record == some key) = [] := by
            rw [filter_eq_nil_iff]
            intro record member same
            have same : qaRecordKey record = some key := by simpa using same
            apply stays
            rw [removedBy, Bool.or_eq_true, any_eq_true]
            apply Or.inl
            exact ⟨_, mem_remembered member, by simp [supersedes, keyed, same]⟩
          rw [none]
          exact le_rfl
        · exact ih

theorem supersedes_keyless {record : QaRecord} (keyless : qaRecordKey record = none) (operation : Operation) :
    supersedes record operation = false := by
  cases operation with
  | append prompt answer =>
    rw [supersedes, keyless]
    cases qaRecordKey ⟨prompt, answer⟩ <;> rfl
  | forget phrase => rfl

theorem mem_remembered_keyless (past later : List Operation) {prompt answer : Bytes}
    (keyless : qaRecordKey ⟨prompt, answer⟩ = none) (kept : later.any (forgets ⟨prompt, answer⟩) = false) :
    ⟨prompt, answer⟩ ∈ remembered (past ++ .append prompt answer :: later) := by
  induction past with
  | nil =>
    have stays : removedBy later ⟨prompt, answer⟩ = false := by
      rw [removedBy, kept, Bool.or_false, any_eq_false]
      intro operation _
      rw [supersedes_keyless keyless]
      exact Bool.false_ne_true
    rw [nil_append, remembered, stays]
    exact mem_cons_self
  | cons operation rest ih =>
    rw [cons_append, remembered_cons]
    exact mem_append_right _ ih

end Consequences

/-- The appended records in order, without those superseded or forgotten later. -/
theorem history_meaning (delta : Bytes) (operations : List Operation)
    (keeps : Guarded Operation.perform DropsNothing ⟨[], delta⟩ operations) :
    (operations.foldl Operation.perform ⟨[], delta⟩).history = remembered operations ∧
    (∀ key, ((operations.foldl Operation.perform ⟨[], delta⟩).history.filter fun record =>
      qaRecordKey record == some key).length ≤ 1) ∧
    ∀ past later prompt answer, operations = past ++ .append prompt answer :: later →
      qaRecordKey ⟨prompt, answer⟩ = none → later.any (forgets ⟨prompt, answer⟩) = false →
      ⟨prompt, answer⟩ ∈ (operations.foldl Operation.perform ⟨[], delta⟩).history := by
  have whole : (operations.foldl Operation.perform ⟨[], delta⟩).history = remembered operations := run_history keeps
  rw [whole]
  apply And.intro rfl
  apply And.intro (remembered_unique operations)
  rintro past later prompt answer rfl keyless kept
  exact mem_remembered_keyless past later keyless kept

theorem history_meaning_twice :
    ([Operation.append (ascii "hi") (ascii "ho"), .append (ascii "hi") (ascii "ha")].foldl Operation.perform
      ⟨[], []⟩).history =
      remembered [.append (ascii "hi") (ascii "ho"), .append (ascii "hi") (ascii "ha")] := by
  have first : ((Operation.append (ascii "hi") (ascii "ho")).perform ⟨[], []⟩).history = [⟨ascii "hi", ascii "ho"⟩] :=
    upsertHistoryRecord_nil _
  apply (history_meaning [] [.append (ascii "hi") (ascii "ho"), .append (ascii "hi") (ascii "ha")] _).1
  apply And.intro rfl
  apply And.intro _ trivial
  rw [DropsNothing, first]
  decide

end HermitLocal.RamShell.Meaning
