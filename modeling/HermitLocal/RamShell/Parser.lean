import HermitLocal.RamShell.History

/-! The reader of the persisted memory. It scans for record headers, takes each
record by its lengths, and gives the bytes between records to an older format's
reader. Both loops are a pass function that is repeated as long as it moves on;
`none` is a panic on a slice outside its bounds. -/

namespace HermitLocal.RamShell.Parser
open Lib.Wire RamShell.Text RamShell.History Option

def LEGACY_QUESTION : Bytes := ascii "Q: "
def LEGACY_ANSWER : Bytes := ascii "A: "

def legacyPass (bytes : Bytes) : Option (Option QaRecord × Option Bytes) :=
  match findSubslice bytes LEGACY_QUESTION with
  | none => some (none, none)
  | some qPos => do
    let bytes ← sliceFrom bytes (qPos + 3)
    match findByte bytes NEWLINE with
    | none => some (none, none)
    | some qEnd => do
      let question ← sliceRange bytes 0 qEnd
      let bytes ← sliceFrom bytes (qEnd + 1)
      if !LEGACY_ANSWER.isPrefixOf bytes then some (none, some bytes)
      else do
        let bytes ← sliceFrom bytes 3
        let aEnd := (findByte bytes NEWLINE).getD bytes.length
        let answer ← sliceRange bytes 0 aEnd
        let question := trimAscii question
        let answer := trimAscii answer
        let found := if !question.isEmpty && !answer.isEmpty then some (QaRecord.mk question answer) else none
        if aEnd ≥ bytes.length then some (found, none)
        else do
          let rest ← sliceFrom bytes (aEnd + 1)
          some (found, some rest)

variable {start offset : Nat} {bytes rest : Bytes} {found : Option QaRecord} {history after : Records}

theorem sliceFrom_length (taken : sliceFrom bytes start = some rest) :
    rest.length = bytes.length - start ∧ start ≤ bytes.length := by
  unfold sliceFrom at taken
  split at taken
  next inside =>
    cases taken
    exact ⟨List.length_drop, inside⟩
  · cases taken

theorem legacyPass_shorter (pass : legacyPass bytes = some (found, some rest)) : rest.length < bytes.length := by
  unfold legacyPass at pass
  split at pass
  · cases pass
  obtain ⟨afterMark, mark, pass⟩ := bind_eq_some_iff.mp pass
  have first := sliceFrom_length mark
  split at pass
  · cases pass
  obtain ⟨question, -, pass⟩ := bind_eq_some_iff.mp pass
  obtain ⟨afterLine, line, pass⟩ := bind_eq_some_iff.mp pass
  have second := sliceFrom_length line
  split at pass
  · cases pass
    omega
  obtain ⟨afterAnswer, answerMark, pass⟩ := bind_eq_some_iff.mp pass
  have third := sliceFrom_length answerMark
  obtain ⟨answer, -, pass⟩ := bind_eq_some_iff.mp pass
  split at pass
  · cases pass
  · obtain ⟨last, taken, pass⟩ := bind_eq_some_iff.mp pass
    have fourth := sliceFrom_length taken
    cases pass
    omega

def parseLegacyQaRecords (bytes : Bytes) (history : Records) : Option Records :=
  match _pass : legacyPass bytes with
  | none => none
  | some (found, none) => some (found.elim history (upsertHistoryRecord history))
  | some (found, some rest) => parseLegacyQaRecords rest (found.elim history (upsertHistoryRecord history))
termination_by bytes.length
decreasing_by exact legacyPass_shorter _pass

theorem parseLegacy_stops (pass : legacyPass bytes = some (found, none)) (history : Records) :
    parseLegacyQaRecords bytes history = some (found.elim history (upsertHistoryRecord history)) := by
  rw [parseLegacyQaRecords]
  split
  next panic => rw [pass] at panic; cases panic
  next stopped => rw [pass] at stopped; cases stopped; rfl
  next moved => rw [pass] at moved; cases moved

theorem parseLegacy_moves (pass : legacyPass bytes = some (found, some rest)) (history : Records) :
    parseLegacyQaRecords bytes history =
      parseLegacyQaRecords rest (found.elim history (upsertHistoryRecord history)) := by
  rw [parseLegacyQaRecords]
  split
  next panic => rw [pass] at panic; cases panic
  next stopped => rw [pass] at stopped; cases stopped
  next moved => rw [pass] at moved; cases moved; rfl

inductive RecordKind where
  | qa
  | del
  deriving DecidableEq, Repr

def nextRecord (relQa relDel : Option Nat) : Option (Nat × RecordKind) :=
  [(relQa, RecordKind.qa), (relDel, RecordKind.del)].foldl (fun next candidate =>
    match candidate.1 with
    | none => next
    | some start =>
      if (next.map fun current => decide (start < current.1)).getD true then some (start, candidate.2)
      else next) none

inductive Pass where
  | stop (history : Records)
  | next (offset : Nat) (history : Records)

def parseForgetAt (bytes : Bytes) (start : Nat) (history : Records) : Option Pass := do
  let headerStart := start + RAMDEL.length
  let tail ← sliceFrom bytes headerStart
  match findByte tail NEWLINE with
  | none => some (.stop history)
  | some headerEndRel => do
    let headerEnd := headerStart + headerEndRel
    let header ← sliceRange bytes headerStart headerEnd
    if header.getLast? ≠ some BRACKET then some (.next (start + 1) history)
    else do
      let digits ← sliceRange header 0 (header.length - 1)
      match parseDecimal digits with
      | none => some (.next (start + 1) history)
      | some keyLen =>
        let keyStart := headerEnd + 1
        let keyEnd := satAdd keyStart keyLen
        if keyEnd > bytes.length then some (.stop history)
        else do
          let raw ← sliceRange bytes keyStart keyEnd
          let key := trimAscii raw
          let history := if key.isEmpty then history else (forgetHistoryRecords history key).1
          some (.next (min (satAdd keyEnd 1) bytes.length) history)

def parseQaAt (bytes : Bytes) (start : Nat) (history : Records) : Option Pass := do
  let headerStart := start + RAMQA.length
  let tail ← sliceFrom bytes headerStart
  match findByte tail NEWLINE with
  | none => some (.stop history)
  | some headerEndRel => do
    let headerEnd := headerStart + headerEndRel
    let header ← sliceRange bytes headerStart headerEnd
    match findSubslice header ANSWER_MARKER with
    | none => some (.next (start + 1) history)
    | some aMarker =>
      if header.getLast? ≠ some BRACKET then some (.next (start + 1) history)
      else do
        let qDigits ← sliceRange header 0 aMarker
        match parseDecimal qDigits with
        | none => some (.next (start + 1) history)
        | some qLen => do
          let aDigits ← sliceRange header (aMarker + 3) (header.length - 1)
          match parseDecimal aDigits with
          | none => some (.next (start + 1) history)
          | some aLen =>
            let qStart := headerEnd + 1
            let qEnd := satAdd qStart qLen
            let aStart := satAdd qEnd 1
            let aEnd := satAdd aStart aLen
            if aEnd > bytes.length then some (.stop history)
            else do
              let question ← sliceRange bytes qStart qEnd
              let answer ← sliceRange bytes aStart aEnd
              some (.next (min (satAdd aEnd 1) bytes.length) (upsertHistoryRecord history ⟨question, answer⟩))

def parseGap (bytes : Bytes) (offset start : Nat) (history : Records) : Option Records :=
  if start > offset then do
    let gap ← sliceRange bytes offset start
    parseLegacyQaRecords gap history
  else some history

def structuredPass (bytes : Bytes) (offset : Nat) (history : Records) : Option Pass := do
  let rest ← sliceFrom bytes offset
  match nextRecord (findSubslice rest RAMQA) (findSubslice rest RAMDEL) with
  | none => do
    let history ← parseLegacyQaRecords rest history
    some (.stop history)
  | some (relStart, kind) => do
    let history ← parseGap bytes offset (offset + relStart) history
    match kind with
    | .del => parseForgetAt bytes (offset + relStart) history
    | .qa => parseQaAt bytes (offset + relStart) history

theorem parseForgetAt_next (fits : bytes.length < WORD)
    (pass : parseForgetAt bytes start history = some (.next offset after)) : start < offset := by
  obtain ⟨tail, taken, pass⟩ := bind_eq_some_iff.mp pass
  have room := (sliceFrom_length taken).2
  have marker : RAMDEL.length = 13 := rfl
  split at pass
  · cases pass
  obtain ⟨header, -, pass⟩ := bind_eq_some_iff.mp pass
  split at pass
  · cases pass
    omega
  obtain ⟨digits, -, pass⟩ := bind_eq_some_iff.mp pass
  split at pass
  · cases pass
    omega
  dsimp only at pass
  split at pass
  · cases pass
  · obtain ⟨raw, -, pass⟩ := bind_eq_some_iff.mp pass
    cases pass
    simp only [satAdd]
    omega

theorem parseQaAt_next (fits : bytes.length < WORD)
    (pass : parseQaAt bytes start history = some (.next offset after)) : start < offset := by
  obtain ⟨tail, taken, pass⟩ := bind_eq_some_iff.mp pass
  have room := (sliceFrom_length taken).2
  have marker : RAMQA.length = 12 := rfl
  split at pass
  · cases pass
  obtain ⟨header, -, pass⟩ := bind_eq_some_iff.mp pass
  split at pass
  · cases pass
    omega
  split at pass
  · cases pass
    omega
  obtain ⟨qDigits, -, pass⟩ := bind_eq_some_iff.mp pass
  split at pass
  · cases pass
    omega
  obtain ⟨aDigits, -, pass⟩ := bind_eq_some_iff.mp pass
  split at pass
  · cases pass
    omega
  dsimp only at pass
  split at pass
  · cases pass
  · obtain ⟨question, -, pass⟩ := bind_eq_some_iff.mp pass
    obtain ⟨answer, -, pass⟩ := bind_eq_some_iff.mp pass
    cases pass
    simp only [satAdd]
    omega

theorem structuredPass_next {next : Nat} (fits : bytes.length < WORD)
    (pass : structuredPass bytes offset history = some (.next next after)) : offset < next := by
  obtain ⟨rest, -, pass⟩ := bind_eq_some_iff.mp pass
  split at pass
  · obtain ⟨legacy, -, pass⟩ := bind_eq_some_iff.mp pass
    cases pass
  next relStart kind _ =>
    obtain ⟨between, -, pass⟩ := bind_eq_some_iff.mp pass
    cases kind with
    | del => exact lt_of_le_of_lt (Nat.le_add_right _ _) (parseForgetAt_next fits pass)
    | qa => exact lt_of_le_of_lt (Nat.le_add_right _ _) (parseQaAt_next fits pass)

def parseStructuredFrom (bytes : Bytes) (fits : bytes.length < WORD) (offset : Nat) (history : Records) :
    Option Records :=
  if _more : offset < bytes.length then
    match _pass : structuredPass bytes offset history with
    | none => none
    | some (.stop history) => some history
    | some (.next next history) => parseStructuredFrom bytes fits next history
  else some history
termination_by bytes.length - offset
decreasing_by
  have advance := structuredPass_next fits _pass
  omega

def parseStructuredQaRecords (bytes : Bytes) (fits : bytes.length < WORD) (history : Records) : Option Records :=
  parseStructuredFrom bytes fits 0 history

section Safety

theorem bind_total {first : Option α} {next : α → Option β} {value : α} (now : first = some value)
    (later : ∃ outcome, next value = some outcome) : ∃ outcome, first >>= next = some outcome := by
  rw [now]
  exact later

theorem legacyPass_total (bytes : Bytes) : ∃ outcome, legacyPass bytes = some outcome := by
  unfold legacyPass
  split
  · exact ⟨_, rfl⟩
  next qPos marked =>
    apply bind_total (sliceFrom_inside (show qPos + 3 ≤ bytes.length from findSubslice_bound marked (by decide)))
    generalize bytes.drop (qPos + 3) = bytes
    split
    · exact ⟨_, rfl⟩
    next qEnd line =>
      have room := findByte_found line
      apply bind_total (sliceRange_inside (Nat.zero_le qEnd) room.le)
      apply bind_total (sliceFrom_inside room)
      generalize bytes.drop (qEnd + 1) = bytes
      split
      · exact ⟨_, rfl⟩
      next answered =>
        have mark : LEGACY_ANSWER <+: bytes := by
          simpa using answered
        apply bind_total (sliceFrom_inside (show 3 ≤ bytes.length from mark.length_le))
        generalize bytes.drop 3 = bytes
        have stop : (findByte bytes NEWLINE).getD bytes.length ≤ bytes.length := by
          cases found : findByte bytes NEWLINE with
          | none => exact le_rfl
          | some aEnd => exact (findByte_found found).le
        apply bind_total (sliceRange_inside (Nat.zero_le _) stop)
        split
        · exact ⟨_, rfl⟩
        next more =>
          apply bind_total (sliceFrom_inside (Nat.lt_of_not_le more))
          exact ⟨_, rfl⟩

theorem parseLegacyQaRecords_total (bytes : Bytes) (history : Records) :
    ∃ after, parseLegacyQaRecords bytes history = some after := by
  obtain ⟨⟨found, rest⟩, pass⟩ := legacyPass_total bytes
  cases rest with
  | none => exact ⟨_, parseLegacy_stops pass history⟩
  | some rest =>
    rw [parseLegacy_moves pass]
    exact parseLegacyQaRecords_total rest _
termination_by bytes.length
decreasing_by exact legacyPass_shorter pass

variable {bytes : Bytes}

theorem header_inside {stopRel : Nat} (room : start ≤ bytes.length)
    (line : findByte (bytes.drop start) NEWLINE = some stopRel) : start + stopRel + 1 ≤ bytes.length := by
  have inside := findByte_found line
  rw [List.length_drop] at inside
  omega

theorem le_satAdd (more : Nat) (small : start < WORD) : start ≤ satAdd start more := by
  unfold satAdd
  omega

theorem parseForgetAt_total (fits : bytes.length < WORD) (history : Records)
    (marked : start + RAMDEL.length ≤ bytes.length) : ∃ pass, parseForgetAt bytes start history = some pass := by
  apply bind_total (sliceFrom_inside marked)
  split
  · exact ⟨_, rfl⟩
  next headerEndRel line =>
    have room := header_inside marked line
    apply bind_total (sliceRange_inside (Nat.le_add_right _ headerEndRel) (Nat.le_of_succ_le room))
    split
    · exact ⟨_, rfl⟩
    · apply bind_total (sliceRange_inside (Nat.zero_le _) (Nat.sub_le _ 1))
      split
      · exact ⟨_, rfl⟩
      next keyLen _ =>
        dsimp only
        split
        · exact ⟨_, rfl⟩
        next short =>
          apply bind_total (sliceRange_inside (le_satAdd keyLen (by omega)) (Nat.not_lt.mp short))
          exact ⟨_, rfl⟩

theorem answer_digits {header : Bytes} {aMarker : Nat} (marked : findSubslice header ANSWER_MARKER = some aMarker)
    (closed : header.getLast? = some BRACKET) : aMarker + 3 ≤ header.length - 1 := by
  have room : aMarker + 3 ≤ header.length := findSubslice_bound marked (by decide)
  have strict : aMarker + 3 ≠ header.length := by
    intro flush
    have whole : ANSWER_MARKER = header.drop aMarker := by
      apply (findSubslice_found marked).eq_of_length
      rw [List.length_drop]
      have marker : ANSWER_MARKER.length = 3 := rfl
      omega
    have last : (header.drop aMarker).getLast? = some BRACKET := by
      rw [List.getLast?_drop, if_neg (by omega), closed]
    rw [← whole] at last
    cases last
  omega

theorem parseQaAt_total (fits : bytes.length < WORD) (history : Records)
    (marked : start + RAMQA.length ≤ bytes.length) : ∃ pass, parseQaAt bytes start history = some pass := by
  apply bind_total (sliceFrom_inside marked)
  split
  · exact ⟨_, rfl⟩
  next headerEndRel line =>
    have room := header_inside marked line
    apply bind_total (sliceRange_inside (Nat.le_add_right _ headerEndRel) (Nat.le_of_succ_le room))
    split
    · exact ⟨_, rfl⟩
    next aMarker found =>
      split
      · exact ⟨_, rfl⟩
      next closed =>
        have digits := answer_digits found (not_not.mp closed)
        apply bind_total (sliceRange_inside (Nat.zero_le _) (by omega))
        split
        · exact ⟨_, rfl⟩
        next qLen _ =>
          apply bind_total (sliceRange_inside digits (Nat.sub_le _ 1))
          split
          · exact ⟨_, rfl⟩
          next aLen _ =>
            dsimp only
            split
            · exact ⟨_, rfl⟩
            next short =>
              have question := le_satAdd qLen (show start + RAMQA.length + headerEndRel + 1 < WORD by omega)
              have gap := le_satAdd 1 (satAdd_lt (start + RAMQA.length + headerEndRel + 1) qLen)
              have answer := le_satAdd aLen (satAdd_lt (satAdd (start + RAMQA.length + headerEndRel + 1) qLen) 1)
              apply bind_total (sliceRange_inside question (by omega))
              apply bind_total (sliceRange_inside answer (Nat.not_lt.mp short))
              exact ⟨_, rfl⟩

theorem parseGap_total (offset : Nat) (history : Records) (inside : start ≤ bytes.length) :
    ∃ after, parseGap bytes offset start history = some after := by
  unfold parseGap
  split
  next ahead =>
    apply bind_total (sliceRange_inside (Nat.le_of_lt ahead) inside)
    exact parseLegacyQaRecords_total _ history
  · exact ⟨_, rfl⟩

theorem nextRecord_found {relQa relDel : Option Nat} {relStart : Nat} {kind : RecordKind}
    (chosen : nextRecord relQa relDel = some (relStart, kind)) : match kind with
    | .qa => relQa = some relStart
    | .del => relDel = some relStart := by
  cases relQa <;> cases relDel <;> simp [nextRecord] at chosen
  · obtain ⟨rfl, rfl⟩ := chosen
    rfl
  · obtain ⟨rfl, rfl⟩ := chosen
    rfl
  · split at chosen
    all_goals
      obtain ⟨rfl, rfl⟩ := chosen
      rfl

theorem marker_inside {relStart : Nat} {marker : Bytes} (content : marker ≠ [])
    (found : findSubslice (bytes.drop offset) marker = some relStart) (inside : offset ≤ bytes.length) :
    offset + relStart + marker.length ≤ bytes.length := by
  have room := findSubslice_bound found content
  rw [List.length_drop] at room
  omega

theorem structuredPass_total (fits : bytes.length < WORD) (inside : offset ≤ bytes.length) (history : Records) :
    ∃ pass, structuredPass bytes offset history = some pass := by
  apply bind_total (sliceFrom_inside inside)
  split
  · obtain ⟨after, legacy⟩ := parseLegacyQaRecords_total (bytes.drop offset) history
    apply bind_total legacy
    exact ⟨_, rfl⟩
  next relStart kind chosen =>
    have found := nextRecord_found chosen
    cases kind with
    | del =>
      have room := marker_inside (by decide) found inside
      obtain ⟨after, gap⟩ := parseGap_total offset history (Nat.le_of_add_right_le room)
      exact bind_total gap (parseForgetAt_total fits after room)
    | qa =>
      have room := marker_inside (by decide) found inside
      obtain ⟨after, gap⟩ := parseGap_total offset history (Nat.le_of_add_right_le room)
      exact bind_total gap (parseQaAt_total fits after room)

theorem parseStructuredFrom_total (fits : bytes.length < WORD) (offset : Nat) (history : Records) :
    ∃ after, parseStructuredFrom bytes fits offset history = some after := by
  rw [parseStructuredFrom]
  split
  next more =>
    obtain ⟨outcome, pass⟩ := structuredPass_total fits more.le history
    split
    next panic =>
      rw [pass] at panic
      cases panic
    · exact ⟨_, rfl⟩
    next next after moved =>
      have advance := structuredPass_next fits moved
      exact parseStructuredFrom_total fits next after
  · exact ⟨_, rfl⟩
termination_by bytes.length - offset

/-- Whatever bytes the disk holds, both readers end without a slice out of bounds. -/
theorem parsers_safe (bytes : Bytes) (fits : bytes.length < WORD) :
    (∀ history, ∃ after, parseStructuredQaRecords bytes fits history = some after) ∧
    (∀ offset history, offset < bytes.length → ∃ pass, structuredPass bytes offset history = some pass ∧
      ∀ next after, pass = .next next after → offset < next) ∧
    (∀ slice history, ∃ after, parseLegacyQaRecords slice history = some after) ∧
    ∀ slice, ∃ found rest, legacyPass slice = some (found, rest) ∧
      ∀ shorter, rest = some shorter → shorter.length < slice.length := by
  apply And.intro (parseStructuredFrom_total fits 0)
  apply And.intro
  · intro offset history more
    obtain ⟨pass, passed⟩ := structuredPass_total fits more.le history
    exists pass, passed
    intro next after moved
    rw [moved] at passed
    exact structuredPass_next fits passed
  · apply And.intro parseLegacyQaRecords_total
    intro slice
    obtain ⟨⟨found, rest⟩, passed⟩ := legacyPass_total slice
    exists found, rest, passed
    intro shorter goesOn
    rw [goesOn] at passed
    exact legacyPass_shorter passed

def damagedRecord : Bytes := ascii "[RAMQA v1 q=18446744073709551615 a=[RAMDEL v1 k=99]"

theorem damagedRecord_fits : damagedRecord.length < WORD := by decide

theorem parsers_safe_damaged :
    ∃ after, parseStructuredQaRecords damagedRecord damagedRecord_fits [⟨[], []⟩] = some after :=
  (parsers_safe damagedRecord damagedRecord_fits).1 [⟨[], []⟩]

end Safety

end HermitLocal.RamShell.Parser
