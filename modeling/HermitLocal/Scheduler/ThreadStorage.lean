import HermitLocal.Lib.Align
import HermitLocal.Lib.Wire
import Mathlib.Data.List.GetD
import Mathlib.Tactic.IntervalCases

/-! The thread-local storage of a new task: the layout of the block, its initialization, and where the thread pointer
goes. The linker puts the image right below the thread pointer, at the size of the segment rounded up to its alignment. -/

namespace HermitLocal.Scheduler.ThreadStorage
open Lib.Align Lib.Wire List Option

def tcbLayout : Layout := ⟨24, 8⟩

structure TlsInfo where
  image : List UInt8
  memsz : Nat
  align : Nat

structure Tls where
  base : Nat
  size : Nat
  threadPtr : Nat
  memory : Nat → UInt8

namespace TlsInfo

def layouts (info : TlsInfo) : Option (Layout × Layout × Nat) :=
  (Layout.fromSizeAlign info.memsz info.align).bind fun data =>
    (data.padToAlign.extend tcbLayout.padToAlign).map fun (layout, tcbOffset) =>
      (data.padToAlign, layout.padToAlign, tcbOffset)

def newTls (info : TlsInfo) (base : Nat) (fresh : Nat → UInt8) : Option Tls :=
  info.layouts.bind fun (data, layout, tcbOffset) =>
    if info.image.length ≤ data.size ∧ data.size ≤ layout.size then
      let threadPtr := base + tcbOffset
      let tcb := leBytes 8 threadPtr ++ leBytes 8 0 ++ leBytes 8 0
      some
        { base := base
          size := layout.size
          threadPtr := threadPtr
          memory := fun address =>
            if threadPtr ≤ address ∧ address < threadPtr + 24 then tcb.getD (address - threadPtr) 0
            else if base ≤ address ∧ address < base + data.size then info.image.getD (address - base) 0
            else fresh address }
    else none

end TlsInfo

structure LaidOut (info : TlsInfo) (tls : Tls) : Prop where
  aligned : info.align ∣ tls.threadPtr ∧ 8 ∣ tls.threadPtr
  image : ∀ k < info.image.length, tls.memory (tls.threadPtr - alignUp info.memsz info.align + k) = info.image.getD k 0
  zeros : ∀ k, info.image.length ≤ k → k < info.memsz → tls.memory (tls.threadPtr - alignUp info.memsz info.align + k) = 0
  self : leValue ((range 8).map fun i => tls.memory (tls.threadPtr + i)) = tls.threadPtr
  inside : tls.base ≤ tls.threadPtr - alignUp info.memsz info.align ∧ alignUp info.memsz info.align ≤ tls.threadPtr ∧
    tls.threadPtr + 8 ≤ tls.base + tls.size

section Built
variable {info : TlsInfo} {data layout : Layout} {tcbOffset : Nat}

theorem layouts_eq (built : info.layouts = some (data, layout, tcbOffset)) : info.align.isPowerOfTwo ∧
    data.size = alignUp info.memsz info.align ∧ tcbOffset = alignUp data.size 8 ∧
    layout = (Layout.mk (tcbOffset + 24) (max info.align 8)).padToAlign := by
  obtain ⟨segment, sized, more⟩ := bind_eq_some_iff.mp built
  obtain ⟨⟨whole, offset⟩, extended, equal⟩ := map_eq_some_iff.mp more
  obtain ⟨rfl, rfl, rfl⟩ : _ ∧ _ ∧ _ := by simpa using equal
  obtain ⟨total, fits, same⟩ := map_eq_some_iff.mp extended
  obtain ⟨rfl, rfl⟩ := Prod.mk.inj same
  unfold Layout.fromSizeAlign at sized fits
  split_ifs at sized fits with power bounded
  cases sized
  cases fits
  exact ⟨power.1, rfl, rfl, rfl⟩

theorem align_cases (power : info.align.isPowerOfTwo) : 8 ∣ info.align ∨ info.align = 1 ∨ info.align = 2 ∨ info.align = 4 := by
  obtain ⟨exponent, equal⟩ := power
  rw [equal]
  match exponent with
  | 0 => exact .inr (.inl rfl)
  | 1 => exact .inr (.inr (.inl rfl))
  | 2 => exact .inr (.inr (.inr rfl))
  | more + 3 => exact .inl (Nat.pow_dvd_pow 2 (by omega : 3 ≤ more + 3))

theorem align_dvd_base {base : Nat} (power : info.align.isPowerOfTwo) (aligned : max info.align 8 ∣ base) :
    info.align ∣ base ∧ 8 ∣ base := by
  rcases align_cases power with large | one | two | four
  · rcases Nat.eq_zero_or_pos info.align with zero | positive
    · obtain ⟨exponent, equal⟩ := power
      exact absurd (equal ▸ zero) (Nat.ne_of_gt (Nat.two_pow_pos exponent))
    · rw [Nat.max_eq_left (Nat.le_of_dvd positive large)] at aligned
      exact ⟨aligned, Nat.dvd_trans large aligned⟩
  · exact ⟨one ▸ Nat.one_dvd base, by simpa [one] using aligned⟩
  · rw [two] at aligned ⊢
    change 8 ∣ base at aligned
    omega
  · rw [four] at aligned ⊢
    change 8 ∣ base at aligned
    omega

theorem newTls_eq {base : Nat} {fresh : Nat → UInt8} (built : info.layouts = some (data, layout, tcbOffset))
    (short : info.image.length ≤ info.memsz) : data.size ≤ tcbOffset ∧ tcbOffset < data.size + 8 ∧
      tcbOffset + 24 ≤ layout.size ∧ info.memsz ≤ data.size ∧ ∃ tls, info.newTls base fresh = some tls ∧ tls.base = base ∧
        tls.size = layout.size ∧ tls.threadPtr = base + tcbOffset ∧
        (∀ i < 8, tls.memory (base + tcbOffset + i) = (leBytes 8 (base + tcbOffset)).getD i 0) ∧
        (∀ k < data.size, tls.memory (base + k) = info.image.getD k 0) ∧
        ∀ k, data.size ≤ k → k < tcbOffset → tls.memory (base + k) = fresh (base + k) := by
  obtain ⟨power, dataSize, offset, whole⟩ := layouts_eq built
  have positive : 0 < info.align := by
    obtain ⟨exponent, equal⟩ := power
    rw [equal]
    exact Nat.two_pow_pos exponent
  have padded : info.memsz ≤ data.size := dataSize ▸ le_alignUp positive info.memsz
  have after : data.size ≤ tcbOffset := offset ▸ le_alignUp (by decide) data.size
  have near : tcbOffset < data.size + 8 := offset ▸ alignUp_lt (by decide) data.size
  have room : tcbOffset + 24 ≤ layout.size := by
    rw [whole]
    exact le_alignUp (Nat.lt_of_lt_of_le (by decide) (Nat.le_max_right _ _)) _
  refine ⟨after, near, room, padded, ?_⟩
  unfold TlsInfo.newTls
  rw [built, bind_some]
  dsimp only
  rw [if_pos ⟨by omega, by omega⟩]
  refine ⟨_, rfl, rfl, rfl, rfl, ?_, ?_, ?_⟩
  · intro i small
    dsimp only
    rw [if_pos ⟨by omega, by omega⟩, Nat.add_sub_cancel_left]
    interval_cases i <;> rfl
  · intro k small
    dsimp only
    rw [if_neg (by omega), if_pos ⟨by omega, by omega⟩, Nat.add_sub_cancel_left]
  · intro k large small
    dsimp only
    rw [if_neg (by omega), if_neg (by omega)]

/-- The block is as the linker expects exactly if the rounded size is a multiple of 8. -/
theorem tls_laid_out_iff {base : Nat} (built : info.layouts = some (data, layout, tcbOffset))
    (short : info.image.length ≤ info.memsz) (aligned : layout.align ∣ base) (bounded : base + layout.size ≤ 2 ^ 64) :
    (∀ fresh, ∃ tls, info.newTls base fresh = some tls ∧ LaidOut info tls) ↔ 8 ∣ alignUp info.memsz info.align := by
  obtain ⟨power, dataSize, offset, total⟩ := layouts_eq built
  have unit : info.align ∣ data.size := dataSize ▸ dvd_alignUp _ _
  have word : 8 ∣ tcbOffset := offset ▸ dvd_alignUp _ _
  rw [← dataSize]
  apply Iff.intro
  · intro laid
    by_contra odd
    -- The last byte is looked for in the padding, which nobody has written.
    obtain ⟨tls, same, good⟩ := laid fun _ => info.image.getD (info.memsz - 1) 0 + 1
    obtain ⟨after, near, -, padded, other, made, -, -, pointer, -, -, padding⟩ := newTls_eq built short
    obtain rfl : other = tls := some.inj (made.symm.trans same)
    have rounded : data.size < info.memsz + info.align := by
      rw [dataSize]
      apply alignUp_lt
      rcases align_cases power with large | small
      · exact absurd (Nat.dvd_trans large unit) odd
      · omega
    have last : 0 < info.memsz ∧ data.size ≤ tcbOffset - data.size + (info.memsz - 1) := by
      rcases align_cases power with large | one | two | four
      · exact absurd (Nat.dvd_trans large unit) odd
      · omega
      · rw [two] at unit rounded
        omega
      · rw [four] at unit rounded
        omega
    have place : other.threadPtr - alignUp info.memsz info.align + (info.memsz - 1) =
        base + (tcbOffset - data.size + (info.memsz - 1)) := by
      omega
    have unwritten := padding _ last.2 (by omega)
    rw [← place] at unwritten
    have expected : other.memory (other.threadPtr - alignUp info.memsz info.align + (info.memsz - 1)) =
        info.image.getD (info.memsz - 1) 0 := by
      by_cases imaged : info.memsz - 1 < info.image.length
      · exact good.image _ imaged
      · rw [good.zeros _ (by omega) (by omega), getD_eq_default _ _ (by omega)]
    rw [expected] at unwritten
    exact absurd unwritten (by simp)
  · intro even fresh
    obtain ⟨-, -, room, padded, tls, made, start, size, pointer, own, filled, -⟩ := newTls_eq built short
    rw [alignUp_of_dvd (by decide) even] at offset
    obtain ⟨unitBase, wordBase⟩ := align_dvd_base power (total ▸ aligned)
    have below (k : Nat) : tls.threadPtr - alignUp info.memsz info.align + k = base + k := by
      rw [pointer, ← dataSize, offset, Nat.add_sub_cancel]
    refine ⟨tls, made, ?_, ?_, ?_, ?_, ?_⟩
    · rw [pointer, offset]
      exact ⟨Nat.dvd_add unitBase unit, Nat.dvd_add wordBase even⟩
    · intro k imaged
      rw [below, filled k (by omega)]
    · intro k behind inside
      rw [below, filled k (by omega), getD_eq_default _ _ behind]
    · have bytes : (range 8).map (fun i => tls.memory (tls.threadPtr + i)) = leBytes 8 (base + tcbOffset) := by
        rw [pointer]
        calc (range 8).map (fun i => tls.memory (base + tcbOffset + i))
            = (range 8).map (fun i => (leBytes 8 (base + tcbOffset)).getD i 0) :=
              map_congr_left fun i member => own i (mem_range.mp member)
          _ = leBytes 8 (base + tcbOffset) := rfl
      rw [bytes, leValue_leBytes, pointer]
      exact Nat.mod_eq_of_lt (by omega)
    · omega

end Built

theorem sixteen_bytes_laid_out : 8 ∣ alignUp 9 16 ∧
    ∀ fresh, ∃ tls, TlsInfo.newTls ⟨[7], 9, 16⟩ 4096 fresh = some tls ∧ LaidOut ⟨[7], 9, 16⟩ tls := by
  have built : TlsInfo.layouts ⟨[7], 9, 16⟩ = some (⟨16, 16⟩, ⟨48, 16⟩, 16) := by
    have power : Nat.isPowerOfTwo 16 := ⟨4, rfl⟩
    simp [TlsInfo.layouts, Layout.fromSizeAlign, Layout.extend, Layout.padToAlign, tcbLayout, alignUp, power]
  have aligned : 8 ∣ alignUp 9 16 := by decide
  exact ⟨aligned, (tls_laid_out_iff built (by decide) (by decide) (by decide)).mpr aligned⟩

theorem four_bytes_too_low : ∃ tls, TlsInfo.newTls ⟨[1, 2, 3, 4], 4, 4⟩ 16 (fun _ => 0) = some tls ∧
    tls.memory (tls.threadPtr - alignUp 4 4) = 0 ∧ tls.memory (tls.threadPtr - 8) = 1 :=
  ⟨_, rfl, rfl, rfl⟩

end HermitLocal.Scheduler.ThreadStorage
