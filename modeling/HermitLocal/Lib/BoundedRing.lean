import Mathlib.Data.Nat.ModEq

/-! A queue in a ring of fixed size that keeps one place free, so that equal indices mean an empty queue. An item that
finds the queue full is dropped. -/

namespace HermitLocal.Lib.BoundedRing
open Function List

variable {α : Type} {size : Nat}

structure Ring (α : Type) (size : Nat) where
  buffer : Fin size → α
  head : Fin size
  tail : Fin size

def behind (place : Fin size) (steps : Nat) : Fin size := ⟨(place + steps) % size, Nat.mod_lt _ place.pos⟩

theorem behind_behind (place : Fin size) (first second : Nat) :
    behind (behind place first) second = behind place (first + second) := by
  apply Fin.ext
  change ((place + first) % size + second) % size = (place + (first + second)) % size
  rw [Nat.mod_add_mod, Nat.add_assoc]

theorem behind_zero (place : Fin size) : behind place 0 = place := Fin.ext (Nat.mod_eq_of_lt place.isLt)

theorem behind_injective (place : Fin size) {first second : Nat} (firstInside : first < size) (secondInside : second < size)
    (same : behind place first = behind place second) : first = second := by
  have equal : (place + first) % size = (place + second) % size := congrArg Fin.val same
  have steps := Nat.ModEq.add_left_cancel' place.val equal
  calc first = first % size := (Nat.mod_eq_of_lt firstInside).symm
    _ = second % size := steps
    _ = second := Nat.mod_eq_of_lt secondInside

namespace Ring
variable (ring : Ring α size)

def pending : Nat := (ring.head + size - ring.tail) % size

def contents : List α := (range ring.pending).map fun steps => ring.buffer (behind ring.tail steps)

def push (item : α) : Ring α size :=
  if behind ring.head 1 = ring.tail then ring
  else ⟨update ring.buffer ring.head item, behind ring.head 1, ring.tail⟩

def pop : Option (α × Ring α size) :=
  if ring.head = ring.tail then none else some (ring.buffer ring.tail, { ring with tail := behind ring.tail 1 })

theorem contents_length : ring.contents.length = ring.pending := by
  unfold contents
  rw [length_map, length_range]

theorem pending_lt : ring.pending < size := Nat.mod_lt _ ring.head.pos

theorem head_behind : ring.head = behind ring.tail ring.pending := by
  apply Fin.ext
  change ring.head.val = (ring.tail + (ring.head + size - ring.tail) % size) % size
  rw [Nat.add_mod_mod, Nat.add_sub_cancel' (by omega), Nat.add_mod_right, Nat.mod_eq_of_lt ring.head.isLt]

theorem pending_eq {count : Nat} (inside : count < size) (head : ring.head = behind ring.tail count) : ring.pending = count :=
  behind_injective ring.tail ring.pending_lt inside (ring.head_behind.symm.trans head)

theorem full_iff : behind ring.head 1 = ring.tail ↔ ring.pending + 1 = size := by
  rw [ring.head_behind, behind_behind]
  constructor
  · intro wrapped
    by_contra room
    have inside : ring.pending + 1 < size := Nat.lt_of_le_of_ne ring.pending_lt room
    have none := behind_injective ring.tail inside ring.tail.pos (wrapped.trans (behind_zero ring.tail).symm)
    exact Nat.succ_ne_zero _ none
  · intro full
    apply Fin.ext
    change (ring.tail.val + (ring.pending + 1)) % size = ring.tail.val
    rw [full, Nat.add_mod_right, Nat.mod_eq_of_lt ring.tail.isLt]

theorem push_full (full : ring.pending + 1 = size) (item : α) : ring.push item = ring := if_pos (ring.full_iff.mpr full)

theorem contents_push (room : ring.pending + 1 ≠ size) (item : α) : (ring.push item).contents = ring.contents ++ [item] := by
  have pushed : ring.push item = ⟨update ring.buffer ring.head item, behind ring.head 1, ring.tail⟩ :=
    if_neg fun full => room (ring.full_iff.mp full)
  have inside : ring.pending + 1 < size := Nat.lt_of_le_of_ne ring.pending_lt room
  have count : (ring.push item).pending = ring.pending + 1 := by
    apply pending_eq _ inside
    rw [pushed]
    rw [ring.head_behind, behind_behind]
  unfold contents
  rw [count, range_succ, map_append, pushed]
  change _ ++ [update ring.buffer ring.head item (behind ring.tail ring.pending)] = _
  rw [← ring.head_behind, update_self]
  congr 1
  apply map_congr_left
  intro steps earlier
  have before := mem_range.mp earlier
  apply update_of_ne
  intro same
  rw [ring.head_behind] at same
  have equal := behind_injective ring.tail (Nat.lt_trans before ring.pending_lt) ring.pending_lt same
  omega

theorem empty_iff : ring.head = ring.tail ↔ ring.contents = [] := by
  rw [← length_eq_zero_iff, contents_length]
  constructor
  · intro same
    rw [ring.head_behind] at same
    exact behind_injective ring.tail ring.pending_lt ring.tail.pos (same.trans (behind_zero ring.tail).symm)
  · intro none
    rw [ring.head_behind, none, behind_zero]

theorem pop_empty (empty : ring.contents = []) : ring.pop = none := if_pos (ring.empty_iff.mpr empty)

theorem pop_contents {item : α} {rest : List α} (first : ring.contents = item :: rest) :
    ∃ shorter, ring.pop = some (item, shorter) ∧ shorter.contents = rest := by
  have count : ring.pending = rest.length + 1 := by rw [← contents_length, first, length_cons]
  have inside := ring.pending_lt
  have some : ring.head ≠ ring.tail := by
    intro same
    rw [ring.empty_iff.mp same] at first
    cases first
  have left : Ring.pending { ring with tail := behind ring.tail 1 } = rest.length := by
    apply pending_eq _ (by omega)
    rw [behind_behind, ring.head_behind, count, Nat.add_comm]
  have all : ring.contents = ring.buffer ring.tail :: Ring.contents { ring with tail := behind ring.tail 1 } := by
    unfold contents
    rw [left, count, range_succ_eq_map, map_cons, map_map, behind_zero]
    congr 1
    apply map_congr_left
    intro steps _
    change ring.buffer (behind ring.tail (steps + 1)) = ring.buffer (behind (behind ring.tail 1) steps)
    rw [behind_behind, Nat.add_comm]
  rw [all] at first
  obtain ⟨same, others⟩ := cons.inj first
  refine ⟨_, ?_, others⟩
  rw [← same]
  exact if_neg some

end Ring

end HermitLocal.Lib.BoundedRing
