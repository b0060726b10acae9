import Mathlib.Data.List.Infix
import Mathlib.Data.List.Nodup

/-! Searching a list for a pattern without repeated letters, in one pass. After a
mismatch the search can only go on from the letter it has just read, since no
earlier letter of a partial match starts the pattern again. -/

namespace HermitLocal.Lib.Restart
open List

variable {α : Type}

def scan [DecidableEq α] (pattern : List α) : Nat → List α → Bool
  | _, [] => false
  | matched, letter :: rest =>
    if pattern[matched]? = some letter then
      if matched + 1 = pattern.length then true else scan pattern (matched + 1) rest
    else scan pattern (if pattern[0]? = some letter then 1 else 0) rest

variable {pattern rest : List α} {letter : α} {matched : Nat}

section
variable (distinct : pattern.Nodup) (inside : matched < pattern.length)

include distinct inside

theorem infix_mismatch (mismatch : pattern[matched]? ≠ some letter) :
    pattern <:+: pattern.take matched ++ letter :: rest ↔ pattern <:+: letter :: rest := by
  constructor
  · rintro ⟨before, after, split⟩
    rw [append_assoc] at split
    have taken : (pattern.take matched).length = matched := length_take_of_le inside.le
    by_cases early : before.length < matched
    · -- the first letter of the occurrence stands again at its place in the pattern
      have here : (pattern.take matched ++ letter :: rest)[before.length]? = pattern[before.length]? := by
        rw [getElem?_append_left (by omega), getElem?_take_of_lt early]
      have first : (before ++ (pattern ++ after))[before.length]? = pattern[0]? := by
        rw [getElem?_append_right le_rfl, Nat.sub_self, getElem?_append_left (by omega)]
      have start : before.length = 0 := by
        apply (getElem?_inj (by omega) distinct).mp
        rw [← here, ← first, split]
      rw [length_eq_zero_iff] at start
      have same : (pattern ++ after)[matched]? = (pattern.take matched ++ letter :: rest)[matched]? := by
        rw [← split, start, nil_append]
      rw [getElem?_append_left inside, getElem?_append_right taken.le, taken, Nat.sub_self] at same
      exact absurd same mismatch
    · obtain ⟨behind, same⟩ : pattern.take matched <+: before := by
        apply prefix_of_prefix_length_le (prefix_append _ (letter :: rest))
        · rw [← split]
          exact prefix_append _ _
        · omega
      rw [← same, append_assoc] at split
      exists behind, after
      rw [append_assoc]
      exact append_cancel_left split
  · intro later
    exact later.trans (suffix_append _ _).isInfix

theorem infix_restart [DecidableEq α] (mismatch : pattern[matched]? ≠ some letter) :
    pattern <:+: pattern.take matched ++ letter :: rest ↔
      pattern <:+: pattern.take (if pattern[0]? = some letter then 1 else 0) ++ rest := by
  rw [infix_mismatch distinct inside mismatch]
  cases pattern with
  | nil => cases inside
  | cons first tail =>
    by_cases again : first = letter
    · simp [again]
    · have notHere : ¬first :: tail <+: letter :: rest := by
        intro front
        exact again (cons_prefix_cons.mp front).1
      simp [again, infix_cons_iff, notHere]

theorem scan_iff [DecidableEq α] (text : List α) :
    scan pattern matched text = true ↔ pattern <:+: pattern.take matched ++ text := by
  induction text generalizing matched with
  | nil =>
    have short : ¬pattern <:+: pattern.take matched ++ [] := by
      intro found
      have bound := found.length_le
      rw [append_nil, length_take] at bound
      omega
    exact iff_of_false Bool.false_ne_true short
  | cons letter rest ih =>
    rw [scan]
    by_cases hit : pattern[matched]? = some letter
    · have grown : pattern.take matched ++ letter :: rest = pattern.take (matched + 1) ++ rest := by
        rw [take_add_one, hit]
        simp
      rw [if_pos hit, grown]
      by_cases complete : matched + 1 = pattern.length
      · rw [if_pos complete, complete, take_length]
        exact iff_of_true rfl (prefix_append _ _).isInfix
      · rw [if_neg complete]
        exact ih (by omega)
    · rw [if_neg hit, infix_restart distinct inside hit]
      apply ih
      split
      next again =>
        have other : matched ≠ 0 := by
          rintro rfl
          exact hit again
        omega
      · omega

end

end HermitLocal.Lib.Restart
