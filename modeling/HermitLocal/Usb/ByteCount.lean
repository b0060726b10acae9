import Mathlib.Algebra.GroupWithZero.Nat
import HermitLocal.Usb.TransferWait

/-! The number of bytes that a wait reports. The event of the controller gives what is missing in the
block on which the descriptor ended; the waits subtract it from the whole request. -/

namespace HermitLocal.Usb.ByteCount
open Usb.Events Usb.TrbRing Usb.Descriptor Usb.TransferWait List

/-! The fields of blocks and events. -/

theorem transferLength_normalBlock (physAddr : UInt64) {chunk : Nat} (small : chunk ≤ 65536) (remaining : Nat) :
    (normalBlock physAddr chunk remaining).transferLength = chunk := by
  unfold Trb.transferLength normalBlock
  generalize (min ((remaining + 511) / 512) 31).toUInt32 = size
  have above : size.toNat * 2 ^ 17 % 2 ^ 32 % 2 ^ 17 = 0 := by omega
  rw [UInt32.toNat_and, UInt32.toNat_or, UInt32.toNat_shiftLeft, Nat.toUInt32_eq,
    UInt32.toNat_ofNat_of_lt' (show chunk < 2 ^ 32 by omega), show (131071 : UInt32).toNat = 2 ^ 17 - 1 from rfl,
    Nat.and_two_pow_sub_one_eq_mod, Nat.or_mod_two_pow, show (17 : UInt32).toNat % 32 = 17 from rfl, Nat.shiftLeft_eq, above,
    Nat.or_zero]
  omega

variable {residue : Nat}

theorem status_eventFor (endpoint : Endpoint) (code : UInt8) (addr : UInt64) (small : residue < 2 ^ 17) :
    (eventFor endpoint code residue.toUInt32 addr).status.toNat = 2 ^ 24 * code.toNat + residue := by
  have bound := code.toNat_lt
  change (code.toUInt32 <<< 24 ||| (residue.toUInt32 &&& 0x1ffff)).toNat = _
  rw [UInt32.toNat_or, UInt32.toNat_shiftLeft, UInt32.toNat_and, Nat.toUInt32_eq,
    UInt32.toNat_ofNat_of_lt' (show residue < 2 ^ 32 by omega), show (131071 : UInt32).toNat = 2 ^ 17 - 1 from rfl,
    Nat.and_two_pow_sub_one_eq_mod, Nat.mod_eq_of_lt small, show (24 : UInt32).toNat % 32 = 24 from rfl, Nat.shiftLeft_eq,
    UInt8.toNat_toUInt32, Nat.mod_eq_of_lt (by omega), Nat.mul_comm, ← Nat.two_pow_add_eq_or_of_lt (by omega)]

theorem control_eventFor (endpoint : Endpoint) (code : UInt8) (residue : UInt32) (addr : UInt64) :
    (eventFor endpoint code residue addr).control.toNat =
      2 ^ 24 * endpoint.slotId.toNat + 2 ^ 16 * endpoint.endpointId.toNat + 2 ^ 15 := by
  have slot := endpoint.slotId.toNat_lt
  have bound := endpoint.inRange
  change (endpoint.slotId.toUInt32 <<< 24 ||| endpoint.endpointId.toUInt32 <<< 16 ||| TRANSFER_EVENT.toUInt32 <<< 10).toNat = _
  rw [UInt32.toNat_or, UInt32.toNat_or, UInt32.toNat_shiftLeft, UInt32.toNat_shiftLeft, UInt8.toNat_toUInt32,
    UInt8.toNat_toUInt32, show (24 : UInt32).toNat % 32 = 24 from rfl, show (16 : UInt32).toNat % 32 = 16 from rfl,
    show (TRANSFER_EVENT.toUInt32 <<< 10).toNat = 2 ^ 15 from rfl, Nat.shiftLeft_eq, Nat.shiftLeft_eq,
    Nat.mod_eq_of_lt (show endpoint.slotId.toNat * 2 ^ 24 < 2 ^ 32 by omega),
    Nat.mod_eq_of_lt (show endpoint.endpointId.toNat * 2 ^ 16 < 2 ^ 32 by omega), Nat.mul_comm,
    ← Nat.two_pow_add_eq_or_of_lt (show endpoint.endpointId.toNat * 2 ^ 16 < 2 ^ 24 by omega)]
  have split : 2 ^ 24 * endpoint.slotId.toNat + endpoint.endpointId.toNat * 2 ^ 16 =
      2 ^ 16 * (2 ^ 8 * endpoint.slotId.toNat + endpoint.endpointId.toNat) := by omega
  rw [split, ← Nat.two_pow_add_eq_or_of_lt (by decide)]
  omega

theorem field_toNat (word mask : UInt32) {shift width : Nat} (small : shift < 32) (narrow : width ≤ 8)
    (low : mask.toNat = 2 ^ width - 1) :
    ((word >>> shift.toUInt32) &&& mask).toUInt8.toNat = word.toNat / 2 ^ shift % 2 ^ width := by
  have fits : 2 ^ width ≤ 2 ^ 8 := Nat.pow_le_pow_right (by decide) narrow
  rw [UInt32.toNat_toUInt8, UInt32.toNat_and, UInt32.toNat_shiftRight, low, Nat.and_two_pow_sub_one_eq_mod, Nat.shiftRight_eq_div_pow,
    Nat.toUInt32_eq, UInt32.toNat_ofNat_of_lt' (show shift < 2 ^ 32 by omega), Nat.mod_eq_of_lt small]
  exact Nat.mod_eq_of_lt (by omega)

theorem accepts_eventFor (endpoint : Endpoint) (code : UInt8) (residue : UInt32) (addr : UInt64) :
    endpoint.accepts (eventFor endpoint code residue addr) = true := by
  have slot := endpoint.slotId.toNat_lt
  have bound := endpoint.inRange
  have control := control_eventFor endpoint code residue addr
  generalize eventFor endpoint code residue addr = evt at control
  have type : evt.trbType = TRANSFER_EVENT := by
    apply UInt8.toNat_inj.mp
    refine (field_toNat evt.control 0x3f (show 10 < 32 by decide) (show 6 ≤ 8 by decide) rfl).trans ?_
    rw [show TRANSFER_EVENT.toNat = 32 from rfl]
    omega
  have slotId : evt.slotId = endpoint.slotId := by
    apply UInt8.toNat_inj.mp
    refine (field_toNat evt.control 0xff (show 24 < 32 by decide) (show 8 ≤ 8 by decide) rfl).trans ?_
    omega
  have endpointId : evt.endpointId = endpoint.endpointId := by
    apply UInt8.toNat_inj.mp
    refine (field_toNat evt.control 0x1f (show 16 < 32 by decide) (show 5 ≤ 8 by decide) rfl).trans ?_
    omega
  unfold Endpoint.accepts ofEndpoint
  rw [type, slotId, endpointId, beq_self_eq_true, beq_self_eq_true, beq_self_eq_true]
  rfl

theorem completionCode_eventFor (endpoint : Endpoint) (code : UInt8) (addr : UInt64) (small : residue < 2 ^ 17) :
    (eventFor endpoint code residue.toUInt32 addr).completionCode = code := by
  have bound := code.toNat_lt
  apply UInt8.toNat_inj.mp
  refine (field_toNat (eventFor endpoint code residue.toUInt32 addr).status 0xff (show 24 < 32 by decide) (show 8 ≤ 8 by decide)
    rfl).trans ?_
  rw [status_eventFor endpoint code addr small]
  omega

theorem transferLength_eventFor (endpoint : Endpoint) (code : UInt8) (addr : UInt64) (small : residue < 2 ^ 17) :
    (eventFor endpoint code residue.toUInt32 addr).transferLength = residue := by
  unfold Trb.transferLength
  rw [UInt32.toNat_and, status_eventFor endpoint code addr small, show (131071 : UInt32).toNat = 2 ^ 17 - 1 from rfl,
    Nat.and_two_pow_sub_one_eq_mod]
  omega

/-! The bytes of the blocks. -/

def bytesBefore (trbs : List Trb) (place : Nat) : Nat := ((trbs.take place).map Trb.transferLength).sum

def lastChunk (phys : UInt64) (len : Nat) : Nat :=
  if phys.toNat % 65536 + len ≤ 65536 then len else (phys.toNat % 65536 + len - 1) % 65536 + 1

theorem bytesBefore_succ (trbs : List Trb) {place : Nat} {trb : Trb} (present : trbs[place]? = some trb) :
    bytesBefore trbs (place + 1) = bytesBefore trbs place + trb.transferLength := by
  unfold bytesBefore
  rw [take_add_one, present, map_append, sum_append]
  rfl

theorem bytesBefore_cons (trb : Trb) (rest : List Trb) (place : Nat) :
    bytesBefore (trb :: rest) (place + 1) = trb.transferLength + bytesBefore rest place := by
  unfold bytesBefore
  rw [take_succ_cons, map_cons, sum_cons]

theorem bytesBefore_mono (trbs : List Trb) {first second : Nat} (order : first ≤ second) :
    bytesBefore trbs first ≤ bytesBefore trbs second := by
  have split := take_append_drop first (trbs.take second)
  rw [take_take, Nat.min_eq_left order] at split
  unfold bytesBefore
  rw [← split, map_append, sum_append]
  exact Nat.le_add_right _ _

section Blocks
variable {phys : UInt64}

theorem blocks_bytes (rounds remaining offset : Nat) (enough : remaining ≤ rounds) :
    bytesBefore (blocks phys rounds remaining offset) (blocks phys rounds remaining offset).length = remaining := by
  induction rounds generalizing remaining offset with
  | zero => exact (Nat.le_zero.mp enough).symm
  | succ rounds ih =>
    unfold blocks
    by_cases done : remaining = 0
    · rw [if_pos done, done]
      rfl
    · rw [if_neg done]
      dsimp only
      have chunk := nextChunk_eq (phys + offset.toUInt64) remaining
      generalize nextChunk (phys + offset.toUInt64) remaining = size at chunk ⊢
      rw [length_cons, bytesBefore_cons, ih _ _ (by omega), transferLength_normalBlock _ (by omega)]
      omega

theorem blocks_bytes_before_last (rounds remaining offset : Nat) (some : 0 < remaining) (enough : remaining ≤ rounds) :
    bytesBefore (blocks phys rounds remaining offset) ((blocks phys rounds remaining offset).length - 1) +
      (if (phys.toNat + offset) % 65536 + remaining ≤ 65536 then remaining
        else ((phys.toNat + offset) % 65536 + remaining - 1) % 65536 + 1) = remaining := by
  induction rounds generalizing remaining offset with
  | zero => omega
  | succ rounds ih =>
    unfold blocks
    rw [if_neg (Nat.ne_of_gt some)]
    dsimp only
    have chunk := nextChunk_eq (phys + offset.toUInt64) remaining
    rw [offset_mod] at chunk
    generalize nextChunk (phys + offset.toUInt64) remaining = size at chunk ⊢
    have length := blocks_length phys rounds (remaining - size) (offset + size) (by omega)
    rw [length_cons, Nat.add_sub_cancel]
    by_cases last : remaining - size = 0
    · rw [if_pos last] at length
      rw [length, if_pos (by omega)]
      exact Nat.zero_add _
    · rw [if_neg last] at length
      have later := ih (remaining - size) (offset + size) (by omega) (by omega)
      generalize blocks phys rounds (remaining - size) (offset + size) = rest at length later ⊢
      obtain ⟨count, whole⟩ : ∃ count, rest.length = count + 1 := ⟨rest.length - 1, by omega⟩
      rw [whole, Nat.add_sub_cancel] at later
      rw [whole, bytesBefore_cons, transferLength_normalBlock _ (by omega)]
      split at later <;> split <;> omega

end Blocks

theorem descriptor_bytes (phys : UInt64) (len : Nat) : bytesBefore (descriptor phys len) (pieces phys len) = len := by
  rw [← descriptor_length]
  unfold descriptor
  by_cases empty : len = 0
  · rw [if_pos empty, empty]
    change (0 &&& 0x1ffff : UInt32).toNat + 0 = 0
    rfl
  · rw [if_neg empty]
    exact blocks_bytes len len 0 (Nat.le_refl _)

theorem descriptor_bytes_before_last (phys : UInt64) (len : Nat) :
    bytesBefore (descriptor phys len) (pieces phys len - 1) + lastChunk phys len = len := by
  rw [← descriptor_length]
  unfold descriptor lastChunk
  by_cases empty : len = 0
  · rw [if_pos empty, empty, if_pos (by omega)]
    rfl
  · rw [if_neg empty]
    exact blocks_bytes_before_last len len 0 (Nat.pos_of_ne_zero empty) (Nat.le_refl _)

theorem transferLength_lt (trb : Trb) : trb.transferLength < 2 ^ 17 := by
  exact Nat.lt_of_le_of_lt Nat.and_le_right (by decide)

/-! The waits. -/

def Ended (phys : UInt64) (len delivered place residue : Nat) : Prop :=
  ∃ trb, (descriptor phys len)[place]? = some trb ∧ residue ≤ trb.transferLength ∧
    delivered + residue = bytesBefore (descriptor phys len) (place + 1)

structure Reports (endpoint : Endpoint) (ring : Ring) (phys : UInt64) (len place residue : Nat) (evt : Trb) : Prop where
  accepted : endpoint.accepts evt = true
  code : evt.completionCode = SUCCESS ∨ evt.completionCode = SHORT_PACKET
  param : (placed ring (descriptor phys len))[place]? = some evt.param
  length : evt.transferLength = residue

def CountsBytes (endpoint : Endpoint) (ring : Ring) (phys : UInt64) (len delivered : Nat) : Prop :=
  ∀ place residue evt, Ended phys len delivered place residue → Reports endpoint ring phys len place residue evt →
    ∀ (Device : Type) (tick : Nat → Device → List Trb × Device) (ctrl : XhciCtrl) (device : Device),
      ((held ctrl ++ arriving tick WAIT_TRANSFER_LOOPS 1 device).find? endpoint.accepts = some evt →
        (waitTransfer tick endpoint len ctrl device).result = .ok delivered) ∧
      ((held ctrl ++ arriving tick WAIT_EVENT_LOOPS 1 device).find? endpoint.accepts = some evt →
        (waitTransferEvent tick endpoint len ctrl device).result = .ok delivered)

theorem waitTransfer_first {Device : Type} {tick : Nat → Device → List Trb × Device} {endpoint : Endpoint} {ctrl : XhciCtrl}
    {device : Device} {evt : Trb} (len : Nat)
    (first : (held ctrl ++ arriving tick WAIT_TRANSFER_LOOPS 1 device).find? endpoint.accepts = some evt)
    (code : evt.completionCode = SUCCESS ∨ evt.completionCode = SHORT_PACKET) :
    (waitTransfer tick endpoint len ctrl device).result = .ok (len - evt.transferLength) := by
  apply pollLoop_first _ _ _ _ first (.inr (by decide))
  unfold judgeTransfer
  rw [if_pos code]

theorem waitTransferEvent_first {Device : Type} {tick : Nat → Device → List Trb × Device} {endpoint : Endpoint}
    {ctrl : XhciCtrl}
    {device : Device} {evt : Trb} (len : Nat)
    (first : (held ctrl ++ arriving tick WAIT_EVENT_LOOPS 1 device).find? endpoint.accepts = some evt)
    (code : evt.completionCode = SUCCESS ∨ evt.completionCode = SHORT_PACKET) :
    (waitTransferEvent tick endpoint len ctrl device).result = .ok (len - evt.transferLength) := by
  apply pollLoop_first _ _ _ _ first (.inr (by decide))
  unfold judgeTransferEvent
  rw [if_pos code]

theorem placed_length (ring : Ring) (trbs : List Trb) : (placed ring trbs).length = trbs.length := by
  induction trbs generalizing ring with
  | nil => rfl
  | cons trb rest ih => exact congrArg Nat.succ (ih _)

theorem ended_before_last (trbs : List Trb) {delivered last : Nat} (bound : last ≤ trbs.length)
    (short : delivered ≤ bytesBefore trbs last) (positive : 0 < last) :
    ∃ place trb residue, place < last ∧ trbs[place]? = some trb ∧ residue ≤ trb.transferLength ∧
      delivered + residue = bytesBefore trbs (place + 1) := by
  induction last with
  | zero => omega
  | succ last ih =>
    have present := getElem?_eq_getElem (show last < trbs.length by omega)
    have sum := bytesBefore_succ trbs present
    by_cases earlier : delivered ≤ bytesBefore trbs last ∧ 0 < last
    · obtain ⟨place, trb, residue, before, rest⟩ := ih (by omega) earlier.1 earlier.2
      exact ⟨place, trb, residue, by omega, rest⟩
    · refine ⟨last, _, bytesBefore trbs (last + 1) - delivered, Nat.lt_succ_self _, present, ?_, by omega⟩
      by_cases first : last = 0
      · subst first
        have none : bytesBefore trbs 0 = 0 := rfl
        omega
      · omega

/-- The waits count right exactly for one block, or if the bytes reach into the last one. -/
theorem counts_bytes_iff (endpoint : Endpoint) (ring : Ring) (phys : UInt64) (len delivered : Nat) :
    CountsBytes endpoint ring phys len delivered ↔ pieces phys len = 1 ∨ len < delivered + lastChunk phys len := by
  have whole := descriptor_bytes phys len
  have before := descriptor_bytes_before_last phys len
  have length := descriptor_length phys len
  have positive := pieces_pos phys len
  constructor
  · intro counts
    by_contra neither
    obtain ⟨several, short⟩ := not_or.mp neither
    obtain ⟨place, trb, residue, early, present, bound, sum⟩ := ended_before_last (descriptor phys len)
      (show pieces phys len - 1 ≤ (descriptor phys len).length by omega) (show delivered ≤ _ by omega) (by omega)
    have small := transferLength_lt trb
    obtain ⟨addr, address⟩ : ∃ addr, (placed ring (descriptor phys len))[place]? = some addr :=
      ⟨_, List.getElem?_eq_getElem (by rw [placed_length, length]; omega)⟩
    have accepted := accepts_eventFor endpoint SHORT_PACKET residue.toUInt32 addr
    have code := completionCode_eventFor endpoint SHORT_PACKET addr (show residue < 2 ^ 17 by omega)
    have missing := transferLength_eventFor endpoint SHORT_PACKET addr (show residue < 2 ^ 17 by omega)
    have reported : (eventFor endpoint SHORT_PACKET residue.toUInt32 addr).param = addr := rfl
    generalize eventFor endpoint SHORT_PACKET residue.toUInt32 addr = evt at accepted code missing reported
    -- A controller that has nothing to report but this event.
    let silent : Nat → Unit → List Trb × Unit := fun _ _ => ([], ())
    have first : (held ⟨[evt], [], [], []⟩ ++ arriving silent WAIT_TRANSFER_LOOPS 1 ()).find? endpoint.accepts = some evt := by
      rw [List.find?_append, show held ⟨[evt], [], [], []⟩ = [evt] from rfl, List.find?_cons_of_pos accepted, Option.some_or]
    have counted := (counts place residue evt ⟨trb, present, bound, sum⟩
      ⟨accepted, .inr code, by rw [address, reported], missing⟩ Unit silent ⟨[evt], [], [], []⟩ ()).1 first
    rw [waitTransfer_first len first (.inr code), missing] at counted
    have same : len - residue = delivered := Except.ok.inj counted
    have earlier := bytesBefore_mono (descriptor phys len) (show place + 1 ≤ pieces phys len - 1 by omega)
    have some : 0 < lastChunk phys len := by
      unfold pieces at several
      unfold lastChunk
      split at several <;> split <;> omega
    omega
  · intro reaches place residue evt ended reports Device tick ctrl device
    obtain ⟨trb, present, bound, sum⟩ := ended
    have inside := (List.getElem?_eq_some_iff.mp present).1
    have last : place + 1 = pieces phys len := by
      by_contra early
      have earlier := bytesBefore_mono (descriptor phys len) (show place + 1 ≤ pieces phys len - 1 by omega)
      omega
    rw [last] at sum
    have result : len - evt.transferLength = delivered := by
      rw [reports.length]
      omega
    constructor
    · intro first
      rw [waitTransfer_first len first reports.code, result]
    · intro first
      rw [waitTransferEvent_first len first reports.code, result]

def shortRead (round : Nat) : List Action := if round = 1 then [.report 0 SHORT_PACKET 65024] else []

theorem short_read_miscounted : Ended 0x200000 70000 512 0 65024 ∧
    ((waitTransfer (fun round => acts bulkIn (shortRead round)) bulkIn 70000 ⟨[], [], [], []⟩
      [placed bulkRing (descriptor 0x200000 70000)]).result = .ok 4976) ∧
    (waitTransferEvent (fun round => acts bulkIn (shortRead round)) bulkIn 70000 ⟨[], [], [], []⟩
      [placed bulkRing (descriptor 0x200000 70000)]).result = .ok 4976 := by
  refine ⟨⟨_, rfl, ?_, ?_⟩, ?_, ?_⟩
  all_goals decide +kernel

end HermitLocal.Usb.ByteCount
