import Mathlib.Data.List.Basic

/-! A ring of slots that one side writes in cyclic order. Every item carries a bit that
changes from lap to lap, so that the reading side can tell a new item from one of
the lap before. -/

namespace HermitLocal.Lib.CycleRing

def lapBit (slots place : Nat) : Bool := decide (place / slots % 2 = 0)

variable {slots place : Nat}

theorem lapBit_first (first : place < slots) : lapBit slots place = true := by
  unfold lapBit
  rw [Nat.div_eq_of_lt first]
  rfl

theorem even_succ (lap : Nat) : decide ((lap + 1) % 2 = 0) = !decide (lap % 2 = 0) := by
  rw [← decide_not]
  exact decide_eq_decide.mpr (by omega)

theorem lapBit_next_lap (positive : 0 < slots) (place : Nat) :
    lapBit slots (place + slots) = !lapBit slots place := by
  unfold lapBit
  rw [Nat.add_div_right place positive, even_succ]

theorem next_within (inside : place % slots + 1 < slots) :
    (place + 1) % slots = place % slots + 1 ∧ (place + 1) / slots = place / slots := by
  have split := Nat.div_add_mod place slots
  have again : place + 1 = place % slots + 1 + slots * (place / slots) := by omega
  rw [again, Nat.add_mul_mod_self_left, Nat.mod_eq_of_lt inside, Nat.add_mul_div_left _ _ (by omega),
    Nat.div_eq_of_lt inside, Nat.zero_add]
  exact ⟨rfl, rfl⟩

theorem next_wrap (last : place % slots + 1 = slots) :
    (place + 1) % slots = 0 ∧ (place + 1) / slots = place / slots + 1 := by
  have split := Nat.div_add_mod place slots
  have again : place + 1 = slots * (place / slots + 1) := by
    rw [Nat.mul_add]
    omega
  rw [again, Nat.mul_mod_right, Nat.mul_div_right _ (by omega)]
  exact ⟨rfl, rfl⟩

theorem lapBit_within (inside : place % slots + 1 < slots) : lapBit slots (place + 1) = lapBit slots place := by
  unfold lapBit
  rw [(next_within inside).2]

theorem lapBit_wrap (last : place % slots + 1 = slots) : lapBit slots (place + 1) = !lapBit slots place := by
  unfold lapBit
  rw [(next_wrap last).2, even_succ]

theorem lapBit_lap {start : Nat} (first : start % slots = 0) (after : start ≤ place)
    (near : place < start + slots) : lapBit slots place = lapBit slots start := by
  have split := Nat.div_add_mod start slots
  have again : place = place - start + slots * (start / slots) := by omega
  unfold lapBit
  rw [again, Nat.add_mul_div_left _ _ (by omega), Nat.div_eq_of_lt (by omega), Nat.zero_add]

theorem slot_apart {first second : Nat} (before : first < second) (near : second < first + slots) :
    first % slots ≠ second % slots := by
  intro same
  have whole : slots ∣ second - first := Nat.dvd_of_mod_eq_zero (Nat.sub_mod_eq_zero_of_mod_eq same.symm)
  have zero : second - first = 0 := Nat.eq_zero_of_dvd_of_lt whole (by omega)
  omega

theorem concat_cases {Item : Type} {history : List Item} {last item : Item}
    (present : (history ++ [last])[place]? = some item) :
    place < history.length ∧ history[place]? = some item ∨ place = history.length ∧ last = item := by
  by_cases old : place < history.length
  · rw [List.getElem?_append_left old] at present
    exact .inl ⟨old, present⟩
  · have inside := (List.getElem?_eq_some_iff.mp present).1
    rw [List.length_append, List.length_singleton] at inside
    obtain rfl : place = history.length := by omega
    rw [List.getElem?_concat_length] at present
    exact .inr ⟨rfl, Option.some.inj present⟩

structure Stamp (Item : Type) where
  stamp : Bool → Item → Item
  bit : Item → Bool
  bit_stamp : ∀ (value : Bool) (item : Item), bit (stamp value item) = value

section Written
variable {Item : Type} (mark : Stamp Item) (slots : Nat) (blank : Item)

structure Written (cell : Nat → Option Item) (history : List Item) : Prop where
  recent : ∀ place item, history[place]? = some item → history.length ≤ place + slots →
    cell (place % slots) = some (mark.stamp (lapBit slots place) item)
  fresh : ∀ index, history.length ≤ index → index < slots → cell index = some blank

variable {mark slots blank} {cell changed : Nat → Option Item} {history : List Item}

theorem Written.push (written : Written mark slots blank cell history) (positive : 0 < slots) {item : Item}
    (stored : changed (history.length % slots) = some (mark.stamp (lapBit slots history.length) item))
    (kept : ∀ index < slots, index ≠ history.length % slots → changed index = cell index) :
    Written mark slots blank changed (history ++ [item]) := by
  constructor
  · intro place found present near
    rw [List.length_append, List.length_singleton] at near
    rcases concat_cases present with ⟨old, before⟩ | ⟨rfl, rfl⟩
    · rw [kept _ (Nat.mod_lt _ positive) (slot_apart old (by omega))]
      exact written.recent place found before (by omega)
    · exact stored
  · intro index beyond inside
    rw [List.length_append, List.length_singleton] at beyond
    have small : history.length % slots = history.length := Nat.mod_eq_of_lt (by omega)
    rw [kept index inside (by omega)]
    exact written.fresh index (by omega) inside

theorem Written.stale (written : Written mark slots blank cell history) (positive : 0 < slots)
    (zeroed : mark.bit blank = false) :
    ∃ item, cell (history.length % slots) = some item ∧ mark.bit item = !lapBit slots history.length := by
  by_cases first : history.length < slots
  · refine ⟨blank, ?_, ?_⟩
    · rw [Nat.mod_eq_of_lt first]
      exact written.fresh _ (Nat.le_refl _) first
    · rw [zeroed, lapBit_first first, Bool.not_true]
  · have round : history.length - slots + slots = history.length := by omega
    have present := List.getElem?_eq_getElem (show history.length - slots < history.length by omega)
    have found := written.recent _ _ present (by omega)
    rw [Nat.mod_eq_sub_mod (by omega)]
    refine ⟨_, found, ?_⟩
    calc mark.bit (mark.stamp (lapBit slots (history.length - slots)) _)
        = lapBit slots (history.length - slots) := mark.bit_stamp _ _
      _ = !lapBit slots (history.length - slots + slots) := by rw [lapBit_next_lap positive, Bool.not_not]
      _ = !lapBit slots history.length := by rw [round]

end Written

end HermitLocal.Lib.CycleRing
