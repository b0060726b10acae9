import HermitLocal.Lib.Wire
import Mathlib.Data.List.DropRight
import Mathlib.Data.Nat.Digits.Defs

/-! The byte string helpers of `hermit_app.rs`: slices that panic outside their
bounds, decimal numbers, searching, trimming, and the matching of words. -/

namespace HermitLocal.RamShell.Text
open Lib.Wire List Option

abbrev Bytes := List UInt8

def NEWLINE : UInt8 := 10
def BRACKET : UInt8 := 93
def QUESTION_MARK : UInt8 := 63

def sliceFrom (bytes : Bytes) (start : Nat) : Option Bytes :=
  if start ≤ bytes.length then some (bytes.drop start) else none

def sliceRange (bytes : Bytes) (start stop : Nat) : Option Bytes :=
  if start ≤ stop ∧ stop ≤ bytes.length then some ((bytes.take stop).drop start) else none

def decimalDigits (value : Nat) : Bytes :=
  if value = 0 then [] else decimalDigits (value / 10) ++ [48 + UInt8.ofNat (value % 10)]
decreasing_by omega

def appendDecimal (target : Bytes) (value : Nat) : Bytes :=
  if value = 0 then target ++ [48] else target ++ decimalDigits value

def collectDigits (room : Nat) (digits : Bytes) (value : Nat) : Option Bytes :=
  if value = 0 then some digits
  else if digits.length ≥ room then none
  else collectDigits room (digits ++ [48 + UInt8.ofNat (value % 10)]) (value / 10)
decreasing_by omega

def appendDecimalBuffered (target : Bytes) (value : Nat) : Option Bytes :=
  if value = 0 then some (target ++ [48])
  else (collectDigits 20 [] value).map fun digits => target ++ digits.reverse

def isAsciiDigit (byte : UInt8) : Bool := 48 ≤ byte && byte ≤ 57

def parseDigits : Nat → Bytes → Option Nat
  | value, [] => some value
  | value, byte :: rest =>
    if !isAsciiDigit byte then none
    else if value * 10 ≥ WORD then none
    else if value * 10 + (byte - 48).toNat ≥ WORD then none
    else parseDigits (value * 10 + (byte - 48).toNat) rest

def parseDecimal (bytes : Bytes) : Option Nat :=
  if bytes.isEmpty then none else parseDigits 0 bytes

def findByte (bytes : Bytes) (needle : UInt8) : Option Nat := bytes.findIdx? (· == needle)

def windows (size : Nat) : Bytes → List Bytes
  | [] => []
  | byte :: rest => if size ≤ rest.length + 1 then (byte :: rest).take size :: windows size rest else []

def findSubslice (bytes needle : Bytes) : Option Nat :=
  if needle.isEmpty || needle.length > bytes.length then none
  else (windows needle.length bytes).findIdx? (· == needle)

def isTrimmed (byte : UInt8) : Bool := byte == 32 || byte == 9 || byte == 13 || byte == 10

def trimAscii (bytes : Bytes) : Bytes := (bytes.dropWhile isTrimmed).rdropWhile isTrimmed

def isWordByte (byte : UInt8) : Bool :=
  isAsciiDigit byte || (65 ≤ byte && byte ≤ 90) || (97 ≤ byte && byte ≤ 122)

def toAsciiLowercase (byte : UInt8) : UInt8 := if 65 ≤ byte && byte ≤ 90 then byte + 32 else byte

def eqIgnoreAsciiCaseByte (left right : UInt8) : Bool := toAsciiLowercase left == toAsciiLowercase right

def eqIgnoreAsciiCaseSlice (left right : Bytes) : Bool :=
  left.length == right.length && (left.zip right).all fun pair => eqIgnoreAsciiCaseByte pair.1 pair.2

def containsCaseInsensitive (haystack needle : Bytes) : Bool :=
  if needle.isEmpty || needle.length > haystack.length then false
  else (windows needle.length haystack).any fun window =>
    (window.zip needle).all fun pair => eqIgnoreAsciiCaseByte pair.1 pair.2

def containsWordSequenceFrom (words : List Bytes) (wordIndex : Nat) (text : Bytes) : Bool :=
  if _more : text = [] then false
  else
    let fromWord := text.dropWhile fun byte => !isWordByte byte
    let word := fromWord.takeWhile isWordByte
    let rest := fromWord.drop (word.length + 1)
    if !word.isEmpty && eqIgnoreAsciiCaseSlice word (words.getD wordIndex []) then
      if wordIndex + 1 = words.length then true else containsWordSequenceFrom words (wordIndex + 1) rest
    else if !word.isEmpty then
      containsWordSequenceFrom words (if eqIgnoreAsciiCaseSlice word (words.getD 0 []) then 1 else 0) rest
    else containsWordSequenceFrom words wordIndex rest
termination_by text.length
decreasing_by
  all_goals
    have shorter := List.IsSuffix.length_le (List.dropWhile_suffix (l := text) fun byte => !isWordByte byte)
    have some := List.length_pos_iff.mpr _more
    simp only [length_drop]
    omega

def containsWordSequence (text : Bytes) (words : List Bytes) : Bool :=
  if words.isEmpty then false else containsWordSequenceFrom words 0 text

section Slices

theorem sliceFrom_append (first rest : Bytes) : sliceFrom (first ++ rest) first.length = some rest := by
  simp [sliceFrom]

theorem sliceRange_append (first middle rest : Bytes) {stop : Nat} (reach : stop = first.length + middle.length) :
    sliceRange (first ++ middle ++ rest) first.length stop = some middle := by
  subst reach
  simp [sliceRange, take_append]

variable {bytes : Bytes}

theorem sliceFrom_inside {start : Nat} (inside : start ≤ bytes.length) :
    sliceFrom bytes start = some (bytes.drop start) := if_pos inside

theorem sliceRange_inside {start stop : Nat} (ordered : start ≤ stop) (inside : stop ≤ bytes.length) :
    sliceRange bytes start stop = some ((bytes.take stop).drop start) := if_pos ⟨ordered, inside⟩

end Slices

section Decimal

theorem digit_value : ∀ digit < 10,
    isAsciiDigit (48 + UInt8.ofNat digit) = true ∧ (48 + UInt8.ofNat digit - 48).toNat = digit := by
  decide

theorem decimalDigits_digit (value : Nat) : ∀ byte ∈ decimalDigits value, isAsciiDigit byte = true := by
  rw [decimalDigits]
  split
  · simp
  next positive =>
    intro byte member
    rcases mem_append.mp member with earlier | last
    · exact decimalDigits_digit (value / 10) byte earlier
    · rw [mem_singleton.mp last]
      exact (digit_value _ (Nat.mod_lt _ (by decide))).1
termination_by value
decreasing_by omega

theorem parseDigits_decimalDigits (value : Nat) (small : value < WORD) (rest : Bytes) :
    parseDigits 0 (decimalDigits value ++ rest) = parseDigits value rest := by
  rw [decimalDigits]
  split
  next zero => rw [zero, nil_append]
  next positive =>
    have digit := digit_value (value % 10) (Nat.mod_lt _ (by decide))
    have split := Nat.div_add_mod' value 10
    rw [append_assoc, parseDigits_decimalDigits (value / 10) (by omega), singleton_append, parseDigits]
    simp only [digit.1, digit.2, split]
    rw [if_neg (by decide), if_neg (by omega), if_neg (by omega)]
termination_by value
decreasing_by omega

def decimal (value : Nat) : Bytes := appendDecimal [] value

theorem appendDecimal_eq (target : Bytes) (value : Nat) : appendDecimal target value = target ++ decimal value := by
  unfold decimal appendDecimal
  split <;> simp

theorem decimal_digit (value : Nat) : ∀ byte ∈ decimal value, isAsciiDigit byte = true := by
  unfold decimal appendDecimal
  split
  · intro byte member
    rw [mem_singleton.mp member]
    decide
  · exact decimalDigits_digit value

theorem parseDecimal_decimal (value : Nat) (small : value < WORD) : parseDecimal (decimal value) = some value := by
  unfold decimal appendDecimal
  split
  next zero => rw [zero]; decide
  next positive =>
    have digits := parseDigits_decimalDigits value small []
    have nonempty : (decimalDigits value).isEmpty = false := by
      rw [decimalDigits, if_neg positive]
      simp
    rw [append_nil] at digits
    rw [nil_append, parseDecimal, nonempty, digits]
    rfl

theorem decimalDigits_length (digits value : Nat) (small : value < 10 ^ digits) :
    (decimalDigits value).length ≤ digits := by
  induction digits generalizing value with
  | zero =>
    rw [Nat.lt_one_iff.mp small, decimalDigits]
    exact le_rfl
  | succ digits ih =>
    rw [decimalDigits]
    split
    · exact Nat.zero_le _
    · have shorter := ih (value / 10) (by rw [Nat.pow_succ] at small; omega)
      rw [length_append, length_singleton]
      omega

theorem collectDigits_eq (room value : Nat) (digits : Bytes)
    (fits : digits.length + (decimalDigits value).length ≤ room) :
    collectDigits room digits value = some (digits ++ (decimalDigits value).reverse) := by
  rw [decimalDigits] at fits ⊢
  rw [collectDigits]
  split
  · simp
  next positive =>
    rw [if_neg positive, length_append, length_singleton] at fits
    rw [if_neg (by omega), collectDigits_eq room (value / 10) _ (by
      rw [length_append, length_singleton]
      omega), reverse_append, append_assoc]
    rfl
termination_by value
decreasing_by omega

theorem decimalDigits_head (value : Nat) : (decimalDigits value).head? ≠ some 48 := by
  rw [decimalDigits]
  split
  · simp
  next positive =>
    have earlier := decimalDigits_head (value / 10)
    rw [head?_append]
    cases first : (decimalDigits (value / 10)).head? with
    | some digit => rwa [first] at earlier
    | none =>
      -- the last digit is the only one
      have single : value / 10 = 0 := by
        by_contra more
        rw [decimalDigits, if_neg more] at first
        simp at first
      have digit := (digit_value (value % 10) (Nat.mod_lt _ (by decide))).2
      intro zero
      rw [none_or, head?_singleton, some.injEq] at zero
      rw [zero] at digit
      have none : (48 - 48 : UInt8).toNat = 0 := rfl
      omega
termination_by value
decreasing_by omega

def digitsValue (bytes : Bytes) : Nat := Nat.ofDigits 10 (bytes.reverse.map fun byte => (byte - 48).toNat)

theorem digitsValue_cons (byte : UInt8) (rest : Bytes) :
    digitsValue (byte :: rest) = (byte - 48).toNat * 10 ^ rest.length + digitsValue rest := by
  unfold digitsValue
  rw [reverse_cons, map_append, Nat.ofDigits_append, length_map, length_reverse, map_singleton,
    Nat.ofDigits_singleton]
  ring

theorem parseDigits_eq_some (value result : Nat) (bytes : Bytes) (small : value < WORD) :
    parseDigits value bytes = some result ↔ (∀ byte ∈ bytes, isAsciiDigit byte = true) ∧
      value * 10 ^ bytes.length + digitsValue bytes = result ∧ result < WORD := by
  induction bytes generalizing value with
  | nil =>
    have empty : digitsValue [] = 0 := rfl
    simp only [parseDigits, empty, some.injEq, length_nil, not_mem_nil, false_implies, implies_true,
      true_and]
    omega
  | cons byte rest ih =>
    rw [parseDigits, forall_mem_cons, digitsValue_cons, length_cons]
    have shift : value * 10 ^ (rest.length + 1) + ((byte - 48).toNat * 10 ^ rest.length + digitsValue rest) =
        (value * 10 + (byte - 48).toNat) * 10 ^ rest.length + digitsValue rest := by ring
    rw [shift]
    by_cases digit : isAsciiDigit byte = true
    · rw [if_neg (by simp [digit])]
      by_cases room : value * 10 + (byte - 48).toNat < WORD
      · rw [if_neg (by omega), if_neg (by omega), ih _ room, and_assoc]
        exact (and_iff_right digit).symm
      · -- the digits behind do not make the number smaller
        have below := Nat.le_mul_of_pos_right (value * 10 + (byte - 48).toNat) (Nat.pow_pos (by decide) : 0 < 10 ^ rest.length)
        constructor
        · intro parsed
          split_ifs at parsed
          omega
        · rintro ⟨-, same, fits⟩
          omega
    · simp [digit]

theorem parseDecimal_eq_some (bytes : Bytes) (result : Nat) :
    parseDecimal bytes = some result ↔ bytes ≠ [] ∧ (∀ byte ∈ bytes, isAsciiDigit byte = true) ∧
      digitsValue bytes = result ∧ result < WORD := by
  unfold parseDecimal
  cases bytes with
  | nil => simp
  | cons byte rest =>
    have parsed := parseDigits_eq_some 0 result (byte :: rest) (by decide)
    rw [Nat.zero_mul, Nat.zero_add] at parsed
    rw [isEmpty_cons, if_neg (by decide), parsed]
    simp

/-- Every word is written without panic and read back; nothing else is read. -/
theorem decimal_codec (target bytes : Bytes) (value result : Nat) :
    (value < WORD → ∃ encoded, appendDecimalBuffered target value = some (target ++ encoded) ∧
      parseDecimal encoded = some value ∧ (encoded.head? = some 48 → encoded = [48]) ∧ encoded.length ≤ 20) ∧
    (parseDecimal bytes = some result ↔ bytes ≠ [] ∧ (∀ byte ∈ bytes, isAsciiDigit byte = true) ∧
      digitsValue bytes = result ∧ result < WORD) := by
  refine ⟨?_, parseDecimal_eq_some bytes result⟩
  intro small
  refine ⟨decimal value, ?_, parseDecimal_decimal value small, ?_⟩
  · rw [appendDecimalBuffered, ← appendDecimal_eq, appendDecimal]
    split
    · rfl
    · rw [collectDigits_eq 20 value [] (by simpa using decimalDigits_length 20 value (small.trans (by decide)))]
      simp
  · unfold decimal appendDecimal
    split
    · exact ⟨fun _ => rfl, Nat.succ_le_succ (Nat.zero_le 19)⟩
    · exact ⟨fun zero => absurd zero (decimalDigits_head value), decimalDigits_length 20 value (small.trans (by decide))⟩

end Decimal

section Search

theorem findByte_append (first rest : Bytes) (needle : UInt8) (absent : needle ∉ first) :
    findByte (first ++ needle :: rest) needle = some first.length := by
  have missing : first.findIdx? (· == needle) = none := by
    rw [findIdx?_eq_none_iff]
    intro byte member
    have other : byte ≠ needle := fun same => absent (same ▸ member)
    simpa using other
  simp [findByte, findIdx?_append, findIdx?_cons, missing]

theorem windows_short {size : Nat} (short : bytes.length < size) : windows size bytes = [] := by
  cases bytes with
  | nil => rfl
  | cons byte rest =>
    rw [windows, if_neg]
    simp only [length_cons] at short
    omega

theorem findSubslice_cons (byte : UInt8) (rest needle : Bytes) (content : needle ≠ []) :
    findSubslice (byte :: rest) needle =
      if needle.isPrefixOf (byte :: rest) then some 0 else (findSubslice rest needle).map (· + 1) := by
  have nonempty : needle.isEmpty = false := by simpa using content
  unfold findSubslice
  simp only [nonempty, Bool.false_or, decide_eq_true_eq, length_cons]
  by_cases long : needle.length > rest.length + 1
  · have notPrefix : needle.isPrefixOf (byte :: rest) = false := by
      rw [Bool.eq_false_iff]
      intro found
      have bound := (List.isPrefixOf_iff_prefix.mp found).length_le
      simp only [length_cons] at bound
      omega
    simp only [if_pos long, notPrefix, if_pos (show needle.length > rest.length by omega), Bool.false_eq_true,
      if_false, map_none]
  · have front : ((byte :: rest).take needle.length == needle) = needle.isPrefixOf (byte :: rest) := by
      rw [Bool.eq_iff_iff, List.isPrefixOf_iff_prefix, prefix_iff_eq_take, beq_iff_eq]
      exact eq_comm
    rw [if_neg long, windows, if_pos (by omega), findIdx?_cons, front]
    by_cases short : needle.length > rest.length
    · rw [if_pos short, windows_short short]
      rfl
    · rw [if_neg short]

theorem findSubslice_nil (needle : Bytes) : findSubslice [] needle = none := by
  cases needle <;> rfl

theorem findSubslice_append (first rest : Bytes) (head : UInt8) (tail : Bytes) (absent : head ∉ first) :
    findSubslice (first ++ (head :: tail ++ rest)) (head :: tail) = some first.length := by
  induction first with
  | nil =>
    rw [nil_append, cons_append, findSubslice_cons _ _ _ (cons_ne_nil _ _), if_pos]
    · rfl
    · rw [List.isPrefixOf_iff_prefix, ← cons_append]
      exact prefix_append _ _
  | cons byte first ih =>
    have other : (head == byte) = false := by
      simpa using fun same => absent (mem_cons.mpr (.inl same))
    have later : head ∉ first := fun member => absent (mem_cons_of_mem _ member)
    have notHere : (head :: tail).isPrefixOf (byte :: (first ++ (head :: tail ++ rest))) = false := by
      simp [isPrefixOf, other]
    rw [cons_append, findSubslice_cons _ _ _ (cons_ne_nil _ _), notHere, ih later]
    rfl

theorem prefix_before {α : Type} {gap : α} {needle before after : List α} (foreign : gap ∉ needle)
    (found : needle <+: before ++ gap :: after) : needle <+: before := by
  by_cases short : needle.length ≤ before.length
  · exact prefix_of_prefix_length_le found (prefix_append _ _) short
  · have whole : before ++ [gap] <+: before ++ gap :: after := by simp
    have inside : before ++ [gap] <+: needle := by
      apply prefix_of_prefix_length_le whole found
      simp only [length_append, length_singleton]
      omega
    exact absurd (inside.subset (by simp)) foreign

theorem findSubslice_behind (first rest needle : Bytes) (stop : UInt8) (content : needle ≠ [])
    (foreign : stop ∉ needle) (absent : findSubslice first needle = none) :
    findSubslice (first ++ stop :: rest) needle = (findSubslice rest needle).map (· + (first.length + 1)) := by
  induction first with
  | nil =>
    have notHere : needle.isPrefixOf (stop :: rest) = false := by
      rw [Bool.eq_false_iff]
      intro found
      obtain ⟨after, same⟩ := List.isPrefixOf_iff_prefix.mp found
      cases needle with
      | nil => exact content rfl
      | cons head tail =>
        cases same
        exact foreign List.mem_cons_self
    rw [List.nil_append, findSubslice_cons _ _ _ content, notHere]
    rfl
  | cons byte first ih =>
    rw [findSubslice_cons _ _ _ content] at absent
    have notFront : ¬needle.isPrefixOf (byte :: first) = true := by
      intro found
      rw [if_pos found] at absent
      cases absent
    rw [if_neg notFront, Option.map_eq_none_iff] at absent
    have notHere : ¬needle.isPrefixOf (byte :: (first ++ stop :: rest)) = true := by
      intro found
      have front : needle <+: byte :: first ++ stop :: rest := List.isPrefixOf_iff_prefix.mp found
      exact notFront (List.isPrefixOf_iff_prefix.mpr (prefix_before foreign front))
    rw [List.cons_append, findSubslice_cons _ _ _ content, if_neg notHere, ih absent, Option.map_map]
    rfl

variable {position : Nat}

theorem findByte_found {needle : UInt8} (found : findByte bytes needle = some position) :
    position < bytes.length := by
  obtain ⟨inside, -⟩ := findIdx?_eq_some_iff_getElem.mp found
  exact inside

theorem findSubslice_found {needle : Bytes} (found : findSubslice bytes needle = some position) :
    needle <+: bytes.drop position := by
  have content : needle ≠ [] := by
    rintro rfl
    cases found
  induction bytes generalizing position with
  | nil =>
    rw [findSubslice_nil] at found
    cases found
  | cons byte rest ih =>
    rw [findSubslice_cons byte rest needle content] at found
    split at found
    next front =>
      cases found
      exact List.isPrefixOf_iff_prefix.mp front
    · obtain ⟨behind, later, rfl⟩ := map_eq_some_iff.mp found
      exact ih later

theorem findSubslice_bound {needle : Bytes} (found : findSubslice bytes needle = some position)
    (content : needle ≠ []) : position + needle.length ≤ bytes.length := by
  have room := (findSubslice_found found).length_le
  have positive := length_pos_iff.mpr content
  rw [length_drop] at room
  omega

end Search

section Trim

theorem trimAscii_trimAscii (bytes : Bytes) : trimAscii (trimAscii bytes) = trimAscii bytes := by
  have front : (trimAscii bytes).dropWhile isTrimmed = trimAscii bytes := by
    have inside : trimAscii bytes <+: bytes.dropWhile isTrimmed := List.rdropWhile_prefix _ _
    cases trimmed : trimAscii bytes with
    | nil => rfl
    | cons byte rest =>
      rw [trimmed] at inside
      have first : (bytes.dropWhile isTrimmed).head? = some byte := by
        obtain ⟨more, equal⟩ := inside
        rw [← equal]
        rfl
      have kept := head?_dropWhile_not isTrimmed bytes
      rw [first] at kept
      exact dropWhile_cons_of_neg (by simpa using kept)
  unfold trimAscii at front ⊢
  rw [front, rdropWhile_idempotent]

end Trim

end HermitLocal.RamShell.Text
