import HermitLocal.Usb.ByteCount

/-! The pieces into which `queue_transfer` cuts a buffer. They lie one behind the other, cover
the buffer, and each stays within one 64 KiB page of memory. -/

namespace HermitLocal.Usb.Partition
open Usb.Events Usb.TrbRing Usb.Descriptor Usb.ByteCount

def Covers : Nat → Nat → List Trb → Prop
  | start, stop, [] => start = stop
  | start, stop, trb :: rest => trb.param.toNat = start ∧ Covers (start + trb.transferLength) stop rest

structure Piece (trb : Trb) : Prop where
  normal : trb.trbType = NORMAL.toUInt8
  nonempty : 0 < trb.transferLength
  small : trb.transferLength ≤ 65536
  samePage : trb.param.toNat / 65536 = (trb.param.toNat + trb.transferLength - 1) / 65536

theorem trbType_normalBlock (physAddr : UInt64) (chunk remaining : Nat) :
    (normalBlock physAddr chunk remaining).trbType = NORMAL.toUInt8 := by
  unfold Trb.trbType normalBlock
  dsimp only
  by_cases last : remaining = 0
  · rw [if_pos last]
    decide
  · rw [if_neg last]
    decide

theorem piece_normalBlock (physAddr : UInt64) {remaining : Nat} (some : 0 < remaining) (behind : Nat) :
    Piece (normalBlock physAddr (nextChunk physAddr remaining) behind) := by
  have chunk := nextChunk_eq physAddr remaining
  have length := transferLength_normalBlock physAddr (show nextChunk physAddr remaining ≤ 65536 by omega) behind
  constructor
  · exact trbType_normalBlock _ _ _
  · omega
  · omega
  · change physAddr.toNat / 65536 = (physAddr.toNat + _ - 1) / 65536
    omega

section Blocks
variable {phys : UInt64} {rounds remaining offset : Nat}

theorem blocks_pieces : ∀ trb ∈ blocks phys rounds remaining offset, Piece trb := by
  induction rounds generalizing remaining offset with
  | zero =>
    intro trb inside
    cases inside
  | succ rounds ih =>
    unfold blocks
    by_cases done : remaining = 0
    · rw [if_pos done]
      intro trb inside
      cases inside
    · rw [if_neg done]
      intro trb inside
      rcases List.mem_cons.mp inside with rfl | later
      · exact piece_normalBlock _ (Nat.pos_of_ne_zero done) _
      · exact ih trb later

theorem blocks_cover (enough : remaining ≤ rounds) (fits : phys.toNat + offset + remaining ≤ 2 ^ 64) :
    Covers (phys.toNat + offset) (phys.toNat + offset + remaining) (blocks phys rounds remaining offset) := by
  induction rounds generalizing remaining offset with
  | zero =>
    rw [Nat.le_zero.mp enough]
    rfl
  | succ rounds ih =>
    unfold blocks
    by_cases done : remaining = 0
    · rw [if_pos done, done]
      rfl
    · rw [if_neg done]
      have chunk := nextChunk_eq (phys + offset.toUInt64) remaining
      have length := transferLength_normalBlock (phys + offset.toUInt64)
        (show nextChunk (phys + offset.toUInt64) remaining ≤ 65536 by omega)
      constructor
      · change (phys + offset.toUInt64).toNat = _
        rw [UInt64.toNat_add, UInt64.toNat_ofNat']
        omega
      · rw [length, Nat.add_assoc]
        generalize nextChunk (phys + offset.toUInt64) remaining = taken at chunk ⊢
        have stop : phys.toNat + offset + remaining = phys.toNat + (offset + taken) + (remaining - taken) := by omega
        rw [stop]
        exact ih (by omega) (by omega)

end Blocks

/-- A transfer within the address space is cut into pieces that cover it. -/
theorem queueTransfer_partitions (ring : Ring) (phys : UInt64) (len : Nat) (some : 0 < len) (fits : phys.toNat + len ≤ 2 ^ 64) :
    queueTransfer ring phys len = enqueueAll ring (descriptor phys len) ∧
      Covers phys.toNat (phys.toNat + len) (descriptor phys len) ∧
      (∀ trb ∈ descriptor phys len, Piece trb) ∧
      (descriptor phys len).length ≤ len / 65536 + 2 := by
  have loop : descriptor phys len = blocks phys len len 0 := if_neg (Nat.ne_of_gt some)
  refine ⟨queueTransfer_eq ring phys len, ?_, ?_, ?_⟩
  · rw [loop]
    exact @blocks_cover phys len len 0 (Nat.le_refl len) fits
  · rw [loop]
    exact blocks_pieces
  · rw [descriptor_length]
    unfold pieces
    rw [if_neg (Nat.ne_of_gt some)]
    omega

theorem queueTransfer_partitions_top :
    queueTransfer lateRing 0xfffffffffffefff0 65552 = enqueueAll lateRing (descriptor 0xfffffffffffefff0 65552) ∧
      Covers 0xfffffffffffefff0 (2 ^ 64) (descriptor 0xfffffffffffefff0 65552) ∧
      (descriptor 0xfffffffffffefff0 65552).map (fun trb => (trb.param, trb.transferLength)) =
        [(0xfffffffffffefff0, 16), (0xffffffffffff0000, 65536)] := by
  obtain ⟨queued, covers, -⟩ := queueTransfer_partitions lateRing 0xfffffffffffefff0 65552 (by decide) (by decide)
  exact ⟨queued, covers, by decide +kernel⟩

end HermitLocal.Usb.Partition
