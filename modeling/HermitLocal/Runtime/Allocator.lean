import HermitLocal.Lib.Align
import HermitLocal.Lib.ByteMemory
import Mathlib.Data.Nat.Bitwise

/-! The C allocation functions of `bitapp_runtime.cpp` over the Rust allocator. A
block is asked for with room for a header and for rounding up; the header in front
of the pointer handed out says what has to be given back. All sums are sums of
64-bit machine words. -/

namespace HermitLocal.Runtime.Allocator
open Lib.Align Lib.Wire Lib.ByteMemory

def nextPowerOfTwo (value : Nat) : Nat := if value ≤ 1 then 1 else 2 ^ (Nat.log2 (value - 1) + 1)

def layoutFor (size align : Nat) : Option Layout :=
  Layout.fromSizeAlign (max size 1) (nextPowerOfTwo (max align 8))

abbrev Heap := Layout → Nat

def bitappMalloc (heap : Heap) (size align : Nat) : Nat := (layoutFor size align).elim 0 heap

def bitappFree (ptr size align : Nat) : Option (Nat × Layout) :=
  if ptr = 0 then none else (layoutFor size align).map fun layout => (ptr, layout)

structure AllocHeader where
  raw : Nat
  total : Nat
  align : Nat
  deriving DecidableEq, Repr

def HEADER_SIZE : Nat := 24

def writeHeader (memory : Memory) (place : Nat) (header : AllocHeader) : Memory :=
  storeWord (storeWord (storeWord memory place header.raw) (place + 8) header.total) (place + 16) header.align

def readHeader (memory : Memory) (place : Nat) : AllocHeader :=
  ⟨loadWord memory place, loadWord memory (place + 8), loadWord memory (place + 16)⟩

def alignFor (alignment : Nat) : Nat := max 16 alignment

def payloadFor (size : Nat) : Nat := if size = 0 then 1 else size

def exactTotal (size alignment : Nat) : Nat := HEADER_SIZE + payloadFor size + alignFor alignment - 1

def totalFor (size alignment : Nat) : Nat := exactTotal size alignment % WORD

def alignedStart (raw align : Nat) : Nat :=
  let start := (raw + HEADER_SIZE) % WORD
  (start + align - 1) % WORD &&& (WORD - 1 - (align - 1))

def headerOf (ptr : Nat) : Nat := (ptr + (WORD - HEADER_SIZE)) % WORD

def mallocAligned (memory : Memory) (heap : Heap) (size alignment : Nat) : Nat × Memory :=
  let align := alignFor alignment
  let total := totalFor size alignment
  let raw := bitappMalloc heap total align
  if raw = 0 then (0, memory)
  else
    let aligned := alignedStart raw align
    (aligned, writeHeader memory (headerOf aligned) ⟨raw, total, align⟩)

def malloc (memory : Memory) (heap : Heap) (size : Nat) : Nat × Memory := mallocAligned memory heap size 16

def free (memory : Memory) (ptr : Nat) : Option (Nat × Layout) :=
  if ptr = 0 then none
  else
    let header := readHeader memory (headerOf ptr)
    bitappFree header.raw header.total header.align

def calloc (memory : Memory) (heap : Heap) (count size : Nat) : Nat × Memory :=
  if size ≠ 0 ∧ count > (WORD - 1) / size then (0, memory)
  else
    let total := count * size % WORD
    let result := malloc memory heap total
    if result.1 ≠ 0 then (result.1, store result.2 result.1 (List.replicate total 0)) else result

structure Reallocated where
  ptr : Nat
  memory : Memory
  copied : Option (Nat × Nat)
  released : Option (Nat × Layout)

def realloc (memory : Memory) (heap : Heap) (ptr newSize : Nat) : Reallocated :=
  if ptr = 0 then
    let result := malloc memory heap newSize
    ⟨result.1, result.2, none, none⟩
  else if newSize = 0 then ⟨0, memory, none, free memory ptr⟩
  else
    let header := readHeader memory (headerOf ptr)
    let oldPayload := (header.total + (WORD - HEADER_SIZE)) % WORD
    let next := malloc memory heap newSize
    if next.1 ≠ 0 then
      let count := min oldPayload newSize
      let memory := store next.2 next.1 (load next.2 ptr count)
      ⟨next.1, memory, some (ptr, count), free memory ptr⟩
    else ⟨next.1, next.2, none, none⟩

def posixMemalign (memory : Memory) (heap : Heap) (alignment size : Nat) : Except Nat Nat × Memory :=
  if alignment < 8 ∨ alignment &&& (alignment - 1) ≠ 0 then (.error 22, memory)
  else
    let result := mallocAligned memory heap size alignment
    if result.1 = 0 then (.error 12, result.2) else (.ok result.1, result.2)

section Layouts

theorem nextPowerOfTwo_pow (exponent : Nat) : nextPowerOfTwo (2 ^ exponent) = 2 ^ exponent := by
  unfold nextPowerOfTwo
  cases exponent with
  | zero => rfl
  | succ exponent =>
    have positive := Nat.two_pow_pos exponent
    have log : Nat.log2 (2 ^ (exponent + 1) - 1) = exponent := by
      rw [Nat.log2_eq_iff (by omega)]
      omega
    rw [if_neg (by omega), log]

theorem layoutFor_pow (size : Nat) {exponent : Nat} (wide : 3 ≤ exponent) : layoutFor size (2 ^ exponent) =
      if max size 1 ≤ 2 ^ 63 - 2 ^ exponent then some ⟨max size 1, 2 ^ exponent⟩ else none := by
  have eight : max (2 ^ exponent) 8 = 2 ^ exponent := by
    apply max_eq_left
    exact Nat.pow_le_pow_right Nat.zero_lt_two wide
  unfold layoutFor Layout.fromSizeAlign
  rw [eight, nextPowerOfTwo_pow]
  simp only [show Nat.isPowerOfTwo (2 ^ exponent) from ⟨exponent, rfl⟩, true_and]

end Layouts

section Rounding

theorem mask_eq {value exponent : Nat} (small : value < WORD) (narrow : exponent ≤ 64) :
    value &&& (WORD - 1 - (2 ^ exponent - 1)) = value / 2 ^ exponent * 2 ^ exponent := by
  have below : 2 ^ exponent - 1 < 2 ^ 64 := by
    have bound : 2 ^ exponent ≤ 2 ^ 64 := Nat.pow_le_pow_right Nat.zero_lt_two narrow
    omega
  have mask : WORD - 1 - (2 ^ exponent - 1) = 2 ^ 64 - (2 ^ exponent - 1 + 1) := by
    unfold WORD
    omega
  apply Nat.eq_of_testBit_eq
  intro bit
  rw [mask, Nat.testBit_and, Nat.testBit_two_pow_sub_succ below, Nat.testBit_two_pow_sub_one,
    Nat.testBit_mul_two_pow, Nat.testBit_div_two_pow]
  by_cases high : exponent ≤ bit
  · by_cases beyond : bit < 64
    · simp [high, beyond]
    · have zero : value.testBit bit = false := by
        apply Nat.testBit_lt_two_pow
        exact lt_of_lt_of_le small (Nat.pow_le_pow_right Nat.zero_lt_two (Nat.not_lt.mp beyond))
      simp [high, zero]
  · simp [high, Nat.lt_of_not_le high]

variable {raw exponent : Nat}

theorem alignedStart_eq (narrow : exponent ≤ 64) (room : raw + HEADER_SIZE + 2 ^ exponent ≤ WORD) :
    alignedStart raw (2 ^ exponent) = (raw + HEADER_SIZE + 2 ^ exponent - 1) / 2 ^ exponent * 2 ^ exponent := by
  have positive := Nat.two_pow_pos exponent
  unfold alignedStart
  rw [Nat.mod_eq_of_lt (show raw + HEADER_SIZE < WORD by omega)]
  dsimp only
  rw [Nat.mod_eq_of_lt (by omega)]
  exact mask_eq (by omega) narrow

theorem alignedStart_bounds (narrow : exponent ≤ 64) (room : raw + HEADER_SIZE + 2 ^ exponent ≤ WORD) :
    2 ^ exponent ∣ alignedStart raw (2 ^ exponent) ∧ raw + HEADER_SIZE ≤ alignedStart raw (2 ^ exponent) ∧
      alignedStart raw (2 ^ exponent) ≤ raw + HEADER_SIZE + 2 ^ exponent - 1 := by
  rw [alignedStart_eq narrow room]
  have down := Nat.div_add_mod' (raw + HEADER_SIZE + 2 ^ exponent - 1) (2 ^ exponent)
  exact ⟨Nat.dvd_mul_left _ _, by omega, by omega⟩

end Rounding

section Containment

def Sane (heap : Heap) : Prop :=
  ∀ layout, heap layout ≠ 0 → layout.align ∣ heap layout ∧ heap layout + layout.size ≤ 2 ^ 63

structure Contained (raw total ptr size alignment : Nat) : Prop where
  aligned : alignment ∣ ptr
  header : raw + HEADER_SIZE ≤ ptr
  payload : ptr + size ≤ raw + total

variable {heap : Heap} {size exponent : Nat}

theorem alignFor_pow (exponent : Nat) : alignFor (2 ^ exponent) = 2 ^ max 4 exponent := by
  unfold alignFor
  rcases Nat.le_total 4 exponent with wide | narrow
  · rw [max_eq_right wide, max_eq_right]
    exact Nat.pow_le_pow_right Nat.zero_lt_two wide
  · rw [max_eq_left narrow, max_eq_left]
    · rfl
    · exact Nat.pow_le_pow_right Nat.zero_lt_two narrow

theorem size_le_payloadFor (size : Nat) : size ≤ payloadFor size := by
  unfold payloadFor
  split <;> omega

structure Granted (heap : Heap) (total align : Nat) : Prop where
  layout : layoutFor total align = some ⟨max total 1, align⟩
  bound : bitappMalloc heap total align + max total 1 ≤ 2 ^ 63
  small : align ≤ 2 ^ 62

theorem bitappMalloc_granted (sane : Sane heap) {total exponent : Nat} (wide : 4 ≤ exponent)
    (granted : bitappMalloc heap total (2 ^ exponent) ≠ 0) : Granted heap total (2 ^ exponent) := by
  have layouts := layoutFor_pow total (Nat.le_of_succ_le wide)
  unfold bitappMalloc at granted
  rw [layouts] at granted
  split at granted
  next room =>
    rw [if_pos room] at layouts
    have answer : bitappMalloc heap total (2 ^ exponent) = heap ⟨max total 1, 2 ^ exponent⟩ := by
      rw [bitappMalloc, layouts, Option.elim_some]
    apply Granted.mk layouts
    · rw [answer]
      exact (sane _ granted).2
    · -- the layout leaves room for one byte below 2 ^ 63
      have narrow : exponent < 63 := by
        apply (Nat.pow_lt_pow_iff_right Nat.one_lt_two).mp
        omega
      exact Nat.pow_le_pow_right Nat.zero_lt_two (by omega)
  · exact absurd rfl granted

def rawFor (heap : Heap) (size alignment : Nat) : Nat :=
  bitappMalloc heap (totalFor size alignment) (alignFor alignment)

def startFor (heap : Heap) (size alignment : Nat) : Nat :=
  alignedStart (rawFor heap size alignment) (alignFor alignment)

theorem mallocAligned_refused (memory : Memory) {alignment : Nat} (refused : rawFor heap size alignment = 0) :
    mallocAligned memory heap size alignment = (0, memory) := if_pos refused

theorem mallocAligned_granted (memory : Memory) {alignment : Nat} (granted : rawFor heap size alignment ≠ 0) :
    mallocAligned memory heap size alignment =
      (startFor heap size alignment, writeHeader memory (headerOf (startFor heap size alignment))
        ⟨rawFor heap size alignment, totalFor size alignment, alignFor alignment⟩) := if_neg granted

theorem rawFor_granted (sane : Sane heap) (granted : rawFor heap size (2 ^ exponent) ≠ 0) :
    Granted heap (totalFor size (2 ^ exponent)) (alignFor (2 ^ exponent)) := by
  unfold rawFor at granted
  rw [alignFor_pow] at granted ⊢
  exact bitappMalloc_granted sane (le_max_left 4 exponent) granted

theorem start_bounds (sane : Sane heap) (granted : rawFor heap size (2 ^ exponent) ≠ 0) :
    alignFor (2 ^ exponent) ∣ startFor heap size (2 ^ exponent) ∧
      rawFor heap size (2 ^ exponent) + HEADER_SIZE ≤ startFor heap size (2 ^ exponent) ∧
      startFor heap size (2 ^ exponent) ≤
        rawFor heap size (2 ^ exponent) + HEADER_SIZE + alignFor (2 ^ exponent) - 1 := by
  have known := rawFor_granted sane granted
  have bound := known.bound
  have small := known.small
  change rawFor heap size (2 ^ exponent) + _ ≤ _ at bound
  unfold startFor
  rw [alignFor_pow] at small ⊢
  apply alignedStart_bounds
  · have narrow : max 4 exponent ≤ 62 := (Nat.pow_le_pow_iff_right Nat.one_lt_two).mp small
    omega
  · unfold WORD HEADER_SIZE
    omega

theorem dvd_alignFor (exponent : Nat) : 2 ^ exponent ∣ alignFor (2 ^ exponent) := by
  rw [alignFor_pow]
  exact Nat.pow_dvd_pow 2 (le_max_right 4 exponent)

theorem contained_of_fits (sane : Sane heap) (granted : rawFor heap size (2 ^ exponent) ≠ 0)
    (fits : exactTotal size (2 ^ exponent) < WORD) :
    Contained (rawFor heap size (2 ^ exponent)) (totalFor size (2 ^ exponent)) (startFor heap size (2 ^ exponent)) size
      (2 ^ exponent) := by
  obtain ⟨aligned, above, below⟩ := start_bounds sane granted
  have payload := size_le_payloadFor size
  apply Contained.mk (Nat.dvd_trans (dvd_alignFor exponent) aligned) above
  rw [totalFor, Nat.mod_eq_of_lt fits, exactTotal]
  omega

theorem not_contained_of_wraps (small : size < WORD) (narrow : exponent < 64)
    (wraps : ¬exactTotal size (2 ^ exponent) < WORD) (raw ptr : Nat) :
    ¬Contained raw (totalFor size (2 ^ exponent)) ptr size (2 ^ exponent) := by
  intro contained
  have above := contained.header
  have inside := contained.payload
  have align : alignFor (2 ^ exponent) ≤ 2 ^ 63 := by
    rw [alignFor_pow]
    exact Nat.pow_le_pow_right Nat.zero_lt_two (by omega)
  have payload : payloadFor size = size ∨ payloadFor size = 1 := by
    unfold payloadFor
    split <;> simp
  have total : totalFor size (2 ^ exponent) = exactTotal size (2 ^ exponent) - WORD := by
    have once : exactTotal size (2 ^ exponent) - WORD < WORD := by
      unfold exactTotal HEADER_SIZE WORD at *
      omega
    rw [totalFor, Nat.mod_eq_sub_mod (Nat.not_lt.mp wraps), Nat.mod_eq_of_lt once]
  unfold exactTotal HEADER_SIZE WORD at *
  omega

theorem mallocAligned_contained_iff (memory : Memory) (size exponent : Nat) (sane : Sane heap) (small : size < WORD)
    (narrow : exponent < 64) : ((mallocAligned memory heap size (2 ^ exponent)).1 ≠ 0 →
      Contained (rawFor heap size (2 ^ exponent)) (totalFor size (2 ^ exponent))
        (mallocAligned memory heap size (2 ^ exponent)).1 size (2 ^ exponent)) ↔
      exactTotal size (2 ^ exponent) < WORD ∨ rawFor heap size (2 ^ exponent) = 0 := by
  by_cases refused : rawFor heap size (2 ^ exponent) = 0
  · rw [mallocAligned_refused memory refused]
    exact iff_of_true (fun some => absurd rfl some) (.inr refused)
  · have bounds := start_bounds sane refused
    have positive : startFor heap size (2 ^ exponent) ≠ 0 := by
      omega
    rw [mallocAligned_granted memory refused]
    constructor
    · intro contained
      by_contra wraps
      rw [not_or] at wraps
      exact not_contained_of_wraps small narrow wraps.1 _ _ (contained positive)
    · rintro (fits | null) _
      · exact contained_of_fits sane refused fits
      · exact absurd null refused

theorem product_check {count size : Nat} : (size ≠ 0 ∧ count > (WORD - 1) / size) ↔ WORD ≤ count * size := by
  by_cases zero : size = 0
  · simp [zero, WORD]
  · rw [gt_iff_lt, Nat.div_lt_iff_lt_mul (Nat.pos_of_ne_zero zero)]
    have positive : 0 < WORD := by decide
    omega

theorem calloc_contained_iff (memory : Memory) (count size : Nat) (sane : Sane heap) :
    ((calloc memory heap count size).1 ≠ 0 →
      Contained (rawFor heap (count * size) 16) (totalFor (count * size) 16) (calloc memory heap count size).1
        (count * size) 16) ↔
      WORD ≤ count * size ∨ exactTotal (count * size) 16 < WORD ∨ rawFor heap (count * size) 16 = 0 := by
  unfold calloc
  simp only [product_check]
  split
  next long => exact iff_of_true (fun some => absurd rfl some) (.inl long)
  next short =>
    have product : count * size % WORD = count * size := Nat.mod_eq_of_lt (Nat.not_le.mp short)
    have pointer : (if (malloc memory heap (count * size % WORD)).1 ≠ 0 then
        ((malloc memory heap (count * size % WORD)).1,
          store (malloc memory heap (count * size % WORD)).2 (malloc memory heap (count * size % WORD)).1
            (List.replicate (count * size % WORD) 0))
        else malloc memory heap (count * size % WORD)).1 = (mallocAligned memory heap (count * size) 16).1 := by
      rw [product]
      split <;> rfl
    rw [pointer]
    simp only [short, false_or]
    exact mallocAligned_contained_iff memory (count * size) 4 sane (Nat.not_le.mp short) (by decide)

end Containment

end HermitLocal.Runtime.Allocator
