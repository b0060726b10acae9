import Mathlib.Data.List.Basic

/-! Ranges of pages and lists of free pages, seen as sets: what is given back becomes free and what is taken is free no
longer. Which pages an allocation takes is left open. -/

namespace HermitLocal.Lib.Pages

structure PageRange where
  start : Nat
  finish : Nat
  ordered : start < finish
  deriving DecidableEq, Repr

namespace PageRange

def new (pageSize start finish : Nat) : Option PageRange :=
  if ordered : start % pageSize = 0 ∧ finish % pageSize = 0 ∧ start / pageSize < finish / pageSize then
    some ⟨start / pageSize, finish / pageSize, ordered.2.2⟩
  else none

def Contains (range : PageRange) (page : Nat) : Prop := range.start ≤ page ∧ page < range.finish

instance (range : PageRange) (page : Nat) : Decidable (range.Contains page) :=
  inferInstanceAs (Decidable (_ ∧ _))

def Apart (range other : PageRange) : Prop := range.finish ≤ other.start ∨ other.finish ≤ range.start

variable {range : PageRange} {page : Nat}

theorem Apart.not_both {other : PageRange} (apart : range.Apart other) (inside : range.Contains page) :
    ¬ other.Contains page := by
  unfold Apart at apart
  unfold Contains at *
  omega

end PageRange

abbrev FreeList := Nat → Bool

namespace FreeList

def deallocate (free : FreeList) (range : PageRange) : FreeList := fun page => free page || decide (range.Contains page)

def without (free : FreeList) (range : PageRange) : FreeList := fun page => free page && !decide (range.Contains page)

def take (free : FreeList) (taken : Nat) : FreeList := fun page => free page && !decide (page = taken)

variable {free : FreeList}

theorem deallocate_iff : free.deallocate range page = true ↔ free page = true ∨ range.Contains page := by
  simp [deallocate]

theorem without_iff : free.without range page = true ↔ free page = true ∧ ¬ range.Contains page := by
  simp [without]

theorem take_iff {taken : Nat} : free.take taken page = true ↔ free page = true ∧ page ≠ taken := by
  simp [take]

end FreeList

end HermitLocal.Lib.Pages
