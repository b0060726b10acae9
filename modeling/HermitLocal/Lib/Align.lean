import Mathlib.Algebra.Order.Group.Nat
import Mathlib.Tactic.Common

/-! Rounding to multiples of an alignment, and the layouts of memory blocks. -/

namespace HermitLocal.Lib.Align

def alignDown (value alignment : Nat) : Nat := value / alignment * alignment

def alignUp (value alignment : Nat) : Nat := (value + (alignment - 1)) / alignment * alignment

theorem alignDown_le (value alignment : Nat) : alignDown value alignment ≤ value := Nat.div_mul_le_self _ _

theorem alignDown_div_mul (value alignment : Nat) :
    alignDown value alignment / alignment * alignment = alignDown value alignment :=
  Nat.div_mul_cancel (Nat.dvd_mul_left _ _)

theorem dvd_alignUp (value alignment : Nat) : alignment ∣ alignUp value alignment := Nat.dvd_mul_left _ _

section Positive
variable {alignment value total : Nat} (positive : 0 < alignment)

include positive

theorem alignDown_div (value : Nat) : alignDown value alignment / alignment = value / alignment :=
  Nat.mul_div_cancel _ positive

theorem alignUp_lt (value : Nat) : alignUp value alignment < value + alignment := by
  have division := Nat.div_mul_le_self (value + (alignment - 1)) alignment
  unfold alignUp
  omega

theorem le_alignUp_of_dvd (whole : alignment ∣ total) (short : total < value + alignment) :
    total ≤ alignUp value alignment := by
  obtain ⟨count, rfl⟩ := whole
  rw [Nat.mul_comm]
  apply Nat.mul_le_mul_right
  rw [Nat.le_div_iff_mul_le positive, Nat.mul_comm]
  omega

theorem alignUp_le_of_dvd (whole : alignment ∣ total) (enough : value ≤ total) : alignUp value alignment ≤ total := by
  obtain ⟨count, rfl⟩ := whole
  rw [Nat.mul_comm alignment]
  apply Nat.mul_le_mul_right
  rw [Nat.div_le_iff_le_mul positive, Nat.mul_comm]
  omega

theorem le_alignUp (value : Nat) : value ≤ alignUp value alignment := by
  have division := Nat.div_add_mod (value + (alignment - 1)) alignment
  have remainder := Nat.mod_lt (value + (alignment - 1)) positive
  rw [Nat.mul_comm] at division
  unfold alignUp
  omega

theorem alignUp_of_dvd (whole : alignment ∣ value) : alignUp value alignment = value :=
  Nat.le_antisymm (alignUp_le_of_dvd positive whole le_rfl) (le_alignUp positive value)

end Positive

structure Layout where
  size : Nat
  align : Nat
  deriving DecidableEq, Repr

namespace Layout

def fromSizeAlign (size align : Nat) : Option Layout :=
  if align.isPowerOfTwo ∧ size ≤ 2 ^ 63 - align then some ⟨size, align⟩ else none

def padToAlign (layout : Layout) : Layout := { layout with size := alignUp layout.size layout.align }

def extend (self next : Layout) : Option (Layout × Nat) :=
  let offset := alignUp self.size next.align
  (fromSizeAlign (offset + next.size) (max self.align next.align)).map fun layout => (layout, offset)

end Layout

end HermitLocal.Lib.Align
