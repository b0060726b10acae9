import Mathlib.Data.List.Basic
import Mathlib.Tactic.Ring

/-! Fixed-size blocks of bytes with little-endian fields at byte offsets, and
the saturating and checked additions of 64-bit machine words. A block is total
on its indices, so a field read or a field patch never fails. -/

namespace HermitLocal.Lib.Wire
open List

def WORD : Nat := 2 ^ 64

def ascii (text : String) : List UInt8 := text.toList.map fun c => UInt8.ofNat c.toNat

def satAdd (left right : Nat) : Nat := min (left + right) (WORD - 1)

def satMul (left right : Nat) : Nat := min (left * right) (WORD - 1)

def checkedAdd (left right : Nat) : Option Nat :=
  if left + right < WORD then some (left + right) else none

def tryFrom (bits value : Nat) : Except Unit Nat :=
  if value < 2 ^ bits then .ok value else .error ()

theorem checkedAdd_eq_some (left right sum : Nat) (added : checkedAdd left right = some sum) :
    sum = left + right ∧ left + right < WORD := by
  unfold checkedAdd at added
  split at added
  · exact ⟨(Option.some.inj added).symm, by assumption⟩
  · cases added

theorem satAdd_eq (left right : Nat) (small : left + right < WORD) : satAdd left right = left + right := by
  unfold satAdd
  omega

theorem satAdd_lt (left right : Nat) : satAdd left right < WORD := by
  unfold satAdd WORD
  omega

def leValue : List UInt8 → Nat
  | [] => 0
  | byte :: rest => byte.toNat + 256 * leValue rest

def leBytes : Nat → Nat → List UInt8
  | 0, _ => []
  | width + 1, value => UInt8.ofNat value :: leBytes width (value / 256)

@[simp] theorem leBytes_length (width value : Nat) : (leBytes width value).length = width := by
  induction width generalizing value with
  | zero => rfl
  | succ width ih => simp [leBytes, ih]

theorem leValue_leBytes (width value : Nat) : leValue (leBytes width value) = value % 256 ^ width := by
  induction width generalizing value with
  | zero => simp [leBytes, leValue, Nat.mod_one]
  | succ width ih =>
    have head : (UInt8.ofNat value).toNat = value % 256 := UInt8.toNat_ofNat' ..
    have split : value % 256 ^ (width + 1) = value % 256 + 256 * (value / 256 % 256 ^ width) := by
      rw [Nat.pow_succ', Nat.mod_mul]
    rw [leBytes, leValue, ih, head, split]

theorem leValue_lt (bytes : List UInt8) : leValue bytes < 256 ^ bytes.length := by
  induction bytes with
  | nil => simp [leValue]
  | cons byte rest ih =>
    have small := byte.toNat_lt
    simp only [leValue, length_cons, Nat.pow_succ]
    omega

abbrev Block (size : Nat) := Fin size → UInt8

variable {size : Nat}

def zeros : Block size := fun _ => 0

def byteAt (block : Block size) (index : Nat) : UInt8 :=
  if bound : index < size then block ⟨index, bound⟩ else 0

def slice (block : Block size) (offset length : Nat) : List UInt8 :=
  (range length).map fun i => byteAt block (offset + i)

def patch (block : Block size) (offset : Nat) (bytes : List UInt8) : Block size :=
  fun i => if offset ≤ i.val ∧ i.val < offset + bytes.length then bytes.getD (i.val - offset) 0
    else block i

@[simp] theorem slice_length (block : Block size) (offset length : Nat) :
    (slice block offset length).length = length := by
  simp [slice]

theorem byteAt_patch_inside (block : Block size) (offset index : Nat) (bytes : List UInt8)
    (low : offset ≤ index) (high : index < offset + bytes.length) (bound : index < size) :
    byteAt (patch block offset bytes) index = bytes.getD (index - offset) 0 := by
  simp [byteAt, patch, bound, low, high]

theorem byteAt_patch_outside (block : Block size) (offset index : Nat) (bytes : List UInt8)
    (outside : index < offset ∨ offset + bytes.length ≤ index) :
    byteAt (patch block offset bytes) index = byteAt block index := by
  unfold byteAt
  split
  · have missed : ¬(offset ≤ index ∧ index < offset + bytes.length) := by omega
    simp [patch, missed]
  · rfl

theorem slice_patch_same (block : Block size) (offset length : Nat) (bytes : List UInt8)
    (exact : bytes.length = length) (fits : offset + length ≤ size) :
    slice (patch block offset bytes) offset length = bytes := by
  apply ext_getElem
  · simp [exact]
  · intro i _ inside
    simp only [slice, getElem_map, getElem_range]
    rw [byteAt_patch_inside block offset (offset + i) bytes (by omega) (by omega) (by omega)]
    simp [getElem?_eq_getElem inside]

theorem slice_patch_apart (block : Block size) (offset other length : Nat) (bytes : List UInt8)
    (apart : other + length ≤ offset ∨ offset + bytes.length ≤ other) :
    slice (patch block offset bytes) other length = slice block other length := by
  apply map_congr_left
  intro i inside
  have bound := mem_range.mp inside
  exact byteAt_patch_outside block offset (other + i) bytes (by omega)

def field (width : Nat) (block : Block size) (offset : Nat) : Nat :=
  leValue (slice block offset width)

def setField (width : Nat) (block : Block size) (offset value : Nat) : Block size :=
  patch block offset (leBytes width value)

theorem field_lt (width : Nat) (block : Block size) (offset : Nat) :
    field width block offset < 256 ^ width := by
  simpa [field] using leValue_lt (slice block offset width)

theorem field_patch_apart (width : Nat) (block : Block size) (offset other : Nat) (bytes : List UInt8)
    (apart : other + width ≤ offset ∨ offset + bytes.length ≤ other) :
    field width (patch block offset bytes) other = field width block other := by
  rw [field, slice_patch_apart block offset other width bytes apart, field]

theorem field_setField_same (width : Nat) (block : Block size) (offset value : Nat)
    (fits : offset + width ≤ size) :
    field width (setField width block offset value) offset = value % 256 ^ width := by
  rw [field, setField, slice_patch_same _ _ _ _ (leBytes_length width value) fits, leValue_leBytes]

theorem slice_setField_apart (width other length : Nat) (block : Block size) (offset value : Nat)
    (apart : other + length ≤ offset ∨ offset + width ≤ other) :
    slice (setField width block offset value) other length = slice block other length :=
  slice_patch_apart block offset other length _ (by simpa using apart)

theorem field_setField_apart (width other otherWidth : Nat) (block : Block size) (offset value : Nat)
    (apart : other + otherWidth ≤ offset ∨ offset + width ≤ other) :
    field otherWidth (setField width block offset value) other = field otherWidth block other := by
  rw [field, slice_setField_apart width other otherWidth block offset value apart, field]

end HermitLocal.Lib.Wire
