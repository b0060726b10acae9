import Mathlib.Algebra.Order.Group.Nat
import Mathlib.Tactic.Common

/-! Radix page tables of 512 entries a table, with pages at every level, and the
address spaces they span. Level 0 holds the smallest pages. The tables of one
level are indexed by the whole page number, so that the entries below an unused
or a leaf entry are present but unreachable. -/

namespace HermitLocal.Lib.PageTable
open Option

def span (level : Nat) : Nat := 4096 * 512 ^ level

theorem span_pos (level : Nat) : 0 < span level := by
  exact Nat.mul_pos (by decide) (Nat.pow_pos (by decide))

theorem span_succ (level : Nat) : span (level + 1) = span level * 512 := by
  simp only [span, Nat.pow_succ, Nat.mul_assoc]

theorem span_dvd {low high : Nat} (order : low ≤ high) : span low ∣ span high := by
  induction high, order using Nat.le_induction with
  | base => exact Nat.dvd_refl _
  | succ high _ ih =>
    rw [span_succ]
    exact Nat.dvd_mul_right_of_dvd ih 512

variable {a level address : Nat} {b : Nat}

theorem index_eq {low high : Nat} (order : low ≤ high) (same : a / span low = b / span low) :
    a / span high = b / span high := by
  obtain ⟨factor, equal⟩ := span_dvd order
  rw [equal, ← Nat.div_div_eq_div_mul, ← Nat.div_div_eq_div_mul, same]

theorem index_succ (level a : Nat) : a / span level / 512 = a / span (level + 1) := by
  rw [span_succ, Nat.div_div_eq_div_mul]

inductive Entry where
  | unused
  | page (frame : Nat)
  | table
  deriving DecidableEq, Repr

abbrev Table := Nat → Nat → Entry

structure Mapping where
  size : Nat
  frame : Nat
  deriving DecidableEq, Repr

def walk (table : Table) (address : Nat) : Nat → Option Mapping
  | 0 =>
    match table 0 (address / span 0) with
    | .page frame => some ⟨span 0, frame⟩
    | _ => none
  | level + 1 =>
    match table (level + 1) (address / span (level + 1)) with
    | .unused => none
    | .page frame => some ⟨span (level + 1), frame⟩
    | .table => walk table address level

theorem walk_leaf {table : Table} {mapping : Mapping} (found : walk table address level = some mapping) :
    ∃ leaf ≤ level, mapping.size = span leaf ∧ table leaf (address / span leaf) = .page mapping.frame := by
  induction level with
  | zero =>
    simp only [walk] at found
    split at found
    next page => cases found; exact ⟨0, le_rfl, rfl, page⟩
    next => cases found
  | succ level ih =>
    simp only [walk] at found
    split at found
    · cases found
    next page => cases found; exact ⟨level + 1, le_rfl, rfl, page⟩
    · obtain ⟨leaf, below, size, page⟩ := ih found
      exact ⟨leaf, Nat.le_succ_of_le below, size, page⟩

theorem walk_congr {first second : Table}
    (same : ∀ step ≤ level, first step (a / span step) = second step (b / span step)) :
    walk first a level = walk second b level := by
  induction level with
  | zero => simp only [walk, same 0 le_rfl]
  | succ level ih =>
    simp only [walk, same (level + 1) le_rfl, ih fun step below => same step (Nat.le_succ_of_le below)]

theorem walk_paged {table : Table} {mapping : Mapping} (found : walk table a level = some mapping)
    (same : a / mapping.size = b / mapping.size) : walk table b level = some mapping := by
  obtain ⟨leaf, below, size, -⟩ := walk_leaf found
  rw [size] at same
  induction level with
  | zero =>
    have leafZero : leaf = 0 := Nat.le_zero.mp below
    subst leafZero
    simpa only [walk, same] using found
  | succ level ih =>
    simp only [walk, index_eq below same] at found ⊢
    split at found
    · cases found
    · exact found
    · obtain ⟨lower, under, lowerSize, -⟩ := walk_leaf found
      have positive := span_pos level
      have smaller : leaf ≤ level := by
        by_contra above
        have top : leaf = level + 1 := by omega
        have tooSmall : span lower ≤ span level := Nat.le_of_dvd positive (span_dvd under)
        rw [← lowerSize, size, top, span_succ] at tooSmall
        omega
      exact ih found smaller

section Editing

def Table.set (table : Table) (level index : Nat) (entry : Entry) : Table :=
  fun l i => if l = level ∧ i = index then entry else table l i

theorem Table.set_same (table : Table) (level index : Nat) (entry : Entry) :
    table.set level index entry level index = entry := by
  simp [Table.set]

variable {index l target frame : Nat} {i : Nat}

theorem Table.set_apart (table : Table) (entry : Entry) (apart : ¬(l = level ∧ i = index)) :
    table.set level index entry l i = table l i := by
  simp [Table.set, apart]

structure Mapper where
  table : Table
  requests : Nat

def Mapper.link (mapper : Mapper) (level index : Nat) : Mapper where
  table := fun l i => if l = level ∧ i = index then .table
    else if l + 1 = level ∧ i / 512 = index then .unused
    else mapper.table l i
  requests := mapper.requests + 1

inductive MapToError where
  | frameAllocationFailed
  | parentEntryHugePage
  | pageAlreadyMapped

def Mapper.fill (mapper : Mapper) (level index frame : Nat) : Except MapToError Mapper :=
  match mapper.table level index with
  | .unused => .ok { mapper with table := mapper.table.set level index (.page frame) }
  | _ => .error .pageAlreadyMapped

def mapTo (frames : Nat → Option Nat) (target address frame : Nat) : Nat → Mapper → Except MapToError Mapper
  | 0, mapper => mapper.fill 0 (address / span 0) frame
  | level + 1, mapper =>
    if level + 1 = target then mapper.fill (level + 1) (address / span (level + 1)) frame
    else
      match mapper.table (level + 1) (address / span (level + 1)) with
      | .page _ => .error .parentEntryHugePage
      | .table => mapTo frames target address frame level mapper
      | .unused =>
        match frames mapper.requests with
        | none => .error .frameAllocationFailed
        | some _ =>
          mapTo frames target address frame level (mapper.link (level + 1) (address / span (level + 1)))

def Table.clear (table : Table) (level index : Nat) : Table :=
  match table level index with
  | .page _ => table.set level index .unused
  | _ => table

def unmap (target address : Nat) (table : Table) : Nat → Table
  | 0 => table.clear 0 (address / span 0)
  | level + 1 =>
    if level + 1 = target then table.clear (level + 1) (address / span (level + 1))
    else
      match table (level + 1) (address / span (level + 1)) with
      | .table => unmap target address table level
      | _ => table

theorem clear_apart (table : Table) (apart : ¬(l = level ∧ i = index)) :
    table.clear level index l i = table l i := by
  cases entry : table level index with
  | page frame => simp only [Table.clear, entry, table.set_apart _ apart]
  | unused | table => simp only [Table.clear, entry]

theorem unmap_apart (table : Table) (below : target ≤ level)
    (apart : ¬(l = target ∧ i = address / span target)) : unmap target address table level l i = table l i := by
  induction level with
  | zero =>
    have targetZero : target = 0 := Nat.le_zero.mp below
    subst targetZero
    exact clear_apart table apart
  | succ level ih =>
    simp only [unmap]
    split
    next top =>
      rw [← top] at apart
      exact clear_apart table apart
    next lower =>
      cases table (level + 1) (address / span (level + 1)) with
      | table => exact ih (by omega)
      | unused => rfl
      | page frame => rfl

theorem walk_unmap (table : Table) (below : target ≤ level) (other : a / span target ≠ address / span target) :
    walk (unmap target address table level) a level = walk table a level := by
  apply walk_congr
  intro step _
  apply unmap_apart table below
  rintro ⟨rfl, same⟩
  exact other same

variable {mapper after : Mapper}

theorem fill_ok (filled : mapper.fill level index frame = .ok after) :
    after = { mapper with table := mapper.table.set level index (.page frame) } := by
  unfold Mapper.fill at filled
  split at filled
  · exact (Except.ok.inj filled).symm
  · cases filled

theorem fill_error {error : MapToError} (refused : mapper.fill level index frame = .error error) :
    mapper.table level index ≠ .unused ∧ error = .pageAlreadyMapped := by
  unfold Mapper.fill at refused
  split at refused
  · cases refused
  next used => exact ⟨used, (Except.error.inj refused).symm⟩

theorem link_above (mapper : Mapper) (above : level < l) (i : Nat) :
    (mapper.link level index).table l i = mapper.table l i := by
  have notSame : ¬(l = level ∧ i = index) := by omega
  have notNext : ¬(l + 1 = level ∧ i / 512 = index) := by omega
  simp [Mapper.link, notSame, notNext]

theorem mapTo_above {frames : Nat → Option Nat}
    (mapped : mapTo frames target address frame level mapper = .ok after) (above : level < l) (i : Nat) :
    after.table l i = mapper.table l i := by
  induction level generalizing mapper with
  | zero =>
    rw [fill_ok mapped]
    exact Table.set_apart _ _ (by omega)
  | succ level ih =>
    simp only [mapTo] at mapped
    split at mapped
    · rw [fill_ok mapped]
      exact Table.set_apart _ _ (by omega)
    · split at mapped
      · cases mapped
      · exact ih mapped (by omega)
      · split at mapped
        · cases mapped
        · rw [ih mapped (by omega), link_above _ above]

theorem link_inside (mapper : Mapper) (inside : a / span (level + 1) = index) :
    (mapper.link (level + 1) index).table level (a / span level) = .unused := by
  simp [Mapper.link, index_succ, inside]

theorem link_outside (mapper : Mapper) (outside : a / span (level + 1) ≠ index) (below : l ≤ level + 1) :
    (mapper.link (level + 1) index).table l (a / span l) = mapper.table l (a / span l) := by
  have notSame : ¬(l = level + 1 ∧ a / span l = index) := by
    rintro ⟨rfl, same⟩
    exact outside same
  have notNext : ¬(l + 1 = level + 1 ∧ a / span l / 512 = index) := by
    rintro ⟨same, covered⟩
    have top : l = level := by omega
    rw [top, index_succ] at covered
    exact outside covered
  simp only [Mapper.link, notSame, notNext, if_false]

theorem walk_link (mapper : Mapper) (level index a : Nat) :
    walk (mapper.link (level + 1) index).table a level =
      if a / span (level + 1) = index then none else walk mapper.table a level := by
  split
  next inside =>
    have entry := link_inside mapper inside
    cases level with
    | zero | succ level => simp only [walk, entry]
  next outside => exact walk_congr fun step below => link_outside mapper outside (Nat.le_succ_of_le below)

theorem walk_fill (filled : mapper.fill level (address / span level) frame = .ok after) (a : Nat) :
    walk after.table a level =
      if a / span level = address / span level then some ⟨span level, frame⟩ else walk mapper.table a level := by
  rw [fill_ok filled]
  split
  next same =>
    cases level with
    | zero | succ level => simp only [walk, same, Table.set_same]
  next other =>
    apply walk_congr
    intro step below
    apply Table.set_apart
    rintro ⟨rfl, same⟩
    exact other same

theorem walk_mapTo {frames : Nat → Option Nat} (below : target ≤ level)
    (mapped : mapTo frames target address frame level mapper = .ok after) (a : Nat) :
    walk after.table a level =
      if a / span target = address / span target then some ⟨span target, frame⟩
      else walk mapper.table a level := by
  induction level generalizing mapper with
  | zero =>
    have targetZero : target = 0 := Nat.le_zero.mp below
    subst targetZero
    exact walk_fill mapped a
  | succ level ih =>
    simp only [mapTo] at mapped
    split at mapped
    next top =>
      subst top
      exact walk_fill mapped a
    next lower =>
      have under : target ≤ level := by omega
      split at mapped
      · cases mapped
      next linked =>
        have entry := mapTo_above mapped (show level < level + 1 by omega) (a / span (level + 1))
        simp only [walk, entry]
        split
        next unused => rw [if_neg fun same => by simp [index_eq below same, linked] at unused]
        next leaf found => rw [if_neg fun same => by simp [index_eq below same, linked] at found]
        next => exact ih under mapped
      next unused =>
        split at mapped
        · cases mapped
        · have entry := mapTo_above mapped (show level < level + 1 by omega) (a / span (level + 1))
          have lowered := ih under mapped
          rw [walk_link] at lowered
          by_cases inside : a / span (level + 1) = address / span (level + 1)
          · have now : after.table (level + 1) (a / span (level + 1)) = .table := by
              rw [entry, inside]
              simp [Mapper.link]
            have before : mapper.table (level + 1) (a / span (level + 1)) = .unused := by rw [inside, unused]
            simp only [walk, now, before, lowered, if_pos inside]
          · have outside : ¬a / span target = address / span target := fun same => inside (index_eq below same)
            have kept := entry.trans (link_outside mapper inside le_rfl)
            simp only [walk, kept, lowered, if_neg inside, if_neg outside]

end Editing

/-! Programs that ask for frames. -/

def Answers (frames : Nat → Option Nat) (first last : Nat) : Prop :=
  ∀ request, first ≤ request → request < last → (frames request).isSome

def Steady (program : (Nat → Option Nat) → Mapper → Option Mapper) : Prop :=
  ∀ frames mapper after, program frames mapper = some after →
    mapper.requests ≤ after.requests ∧ Answers frames mapper.requests after.requests ∧
      ∀ other, Answers other mapper.requests after.requests → program other mapper = some after

theorem Steady.bind {first second : (Nat → Option Nat) → Mapper → Option Mapper} (before : Steady first)
    (behind : Steady second) :
    Steady fun frames mapper => (first frames mapper).bind (second frames) := by
  intro frames mapper after ran
  obtain ⟨middle, start, rest⟩ := bind_eq_some_iff.mp ran
  obtain ⟨grows, answers, again⟩ := before frames mapper middle start
  obtain ⟨growsMore, answersMore, againMore⟩ := behind frames middle after rest
  refine ⟨grows.trans growsMore, ?_, ?_⟩
  · intro request low high
    by_cases early : request < middle.requests
    · exact answers request low early
    · exact answersMore request (Nat.le_of_not_lt early) high
  · intro other answered
    have firstAnswered : Answers other mapper.requests middle.requests :=
      fun request low high => answered request low (high.trans_le growsMore)
    have lastAnswered : Answers other middle.requests after.requests :=
      fun request low high => answered request (grows.trans low) high
    dsimp only
    rw [again other firstAnswered, bind_some, againMore other lastAnswered]

theorem Steady.foldlM {Input : Type} {step : (Nat → Option Nat) → Mapper → Input → Option Mapper}
    (steady : ∀ input, Steady fun frames mapper => step frames mapper input) (inputs : List Input) :
    Steady fun frames mapper => inputs.foldlM (step frames) mapper := by
  induction inputs with
  | nil =>
    intro frames mapper after ran
    cases ran
    exact ⟨le_rfl, fun request low high => absurd (low.trans_lt high) (Nat.lt_irrefl _), fun _ _ => rfl⟩
  | cons input rest ih => exact (steady input).bind ih

theorem toOption_eq_some {Error Value : Type} {result : Except Error Value} {value : Value} :
    result.toOption = some value ↔ result = .ok value := by
  cases result with
  | error _ => exact ⟨nofun, nofun⟩
  | ok _ => rw [Except.toOption, some.injEq, Except.ok.injEq]

theorem fill_steady (level index frame : Nat) : Steady fun _ mapper => (mapper.fill level index frame).toOption := by
  intro frames mapper after filled
  have same : after.requests = mapper.requests := by rw [fill_ok (toOption_eq_some.mp filled)]
  refine ⟨same.ge, ?_, fun _ _ => filled⟩
  intro request low high
  omega

theorem mapTo_steady (target address frame level : Nat) :
    Steady fun frames mapper => (mapTo frames target address frame level mapper).toOption := by
  induction level with
  | zero => exact fill_steady 0 _ frame
  | succ level ih =>
    by_cases top : level + 1 = target
    · simp only [mapTo, if_pos top]
      exact fill_steady (level + 1) _ frame
    · intro frames mapper after mapped
      simp only [mapTo, if_neg top] at mapped ⊢
      cases entry : mapper.table (level + 1) (address / span (level + 1)) with
      | page large =>
        rw [entry] at mapped
        cases mapped
      | table =>
        simp only [entry] at mapped ⊢
        exact ih frames mapper after mapped
      | unused =>
        simp only [entry] at mapped ⊢
        cases answer : frames mapper.requests with
        | none =>
          rw [answer] at mapped
          cases mapped
        | some page =>
          rw [answer] at mapped
          obtain ⟨grows, answers, again⟩ := ih frames _ after mapped
          refine ⟨Nat.le_of_succ_le grows, ?_, ?_⟩
          · intro request low high
            by_cases now : request = mapper.requests
            · rw [now, answer]
              rfl
            · exact answers request (Nat.lt_of_le_of_ne low (Ne.symm now)) high
          · intro other answered
            obtain ⟨otherPage, otherAnswer⟩ := isSome_iff_exists.mp (answered mapper.requests le_rfl grows)
            rw [otherAnswer]
            exact again other fun request low high => answered request (Nat.le_of_succ_le low) high

/-! Which tables are missing. -/

/-- On the way to the entry of the address at level `target` a table has not been made. -/
def Missing (table : Table) (target address : Nat) : Nat → Prop
  | 0 => False
  | level + 1 =>
    target < level + 1 ∧
      match table (level + 1) (address / span (level + 1)) with
      | .unused => True
      | .page _ => False
      | .table => Missing table target address level

theorem missing_congr {first second : Table} {target : Nat}
    (same : ∀ step ≤ level, target < step → first step (a / span step) = second step (b / span step)) :
    Missing first target a level ↔ Missing second target b level := by
  induction level with
  | zero => exact Iff.rfl
  | succ level ih =>
    refine and_congr_right fun above => ?_
    rw [same (level + 1) le_rfl above]
    cases second (level + 1) (b / span (level + 1)) with
    | unused | page frame => exact Iff.rfl
    | table => exact ih fun step below => same step (Nat.le_succ_of_le below)

theorem missing_unused {table : Table} {target : Nat} (unused : table level (address / span level) = .unused) :
    Missing table target address level ↔ target < level := by
  cases level with
  | zero => exact iff_of_false id (Nat.not_lt_zero target)
  | succ level =>
    unfold Missing
    rw [unused, and_true]

section Asking
variable {frames : Nat → Option Nat} {target frame : Nat} {mapper after : Mapper}

/-- Below a missing table nothing stands in the way. -/
theorem mapTo_unused {error : MapToError} (unused : mapper.table level (address / span level) = .unused)
    (refused : mapTo frames target address frame level mapper = .error error) : error = .frameAllocationFailed := by
  induction level generalizing mapper with
  | zero => exact absurd unused (fill_error refused).1
  | succ level ih =>
    simp only [mapTo] at refused
    split at refused
    · exact absurd unused (fill_error refused).1
    rw [unused] at refused
    dsimp only at refused
    split at refused
    · exact (Except.error.inj refused).symm
    · exact ih (link_inside mapper rfl) refused

theorem mapTo_refused {error : MapToError} (refused : mapTo frames target address frame level mapper = .error error)
    (other : error ≠ .frameAllocationFailed) : ¬Missing mapper.table target address level ∧
      ∀ frames, mapTo frames target address frame level mapper = .error error := by
  induction level generalizing mapper with
  | zero => exact ⟨id, fun _ => refused⟩
  | succ level ih =>
    simp only [mapTo, Missing] at refused ⊢
    split at refused
    next top =>
      simp only [if_pos top]
      exact ⟨fun both => absurd both.1 (by omega), fun _ => refused⟩
    next top =>
      simp only [if_neg top]
      cases entry : mapper.table (level + 1) (address / span (level + 1)) with
      | page large =>
        rw [entry] at refused
        exact ⟨And.right, fun _ => refused⟩
      | table =>
        rw [entry] at refused
        exact ⟨fun both => (ih refused).1 both.2, (ih refused).2⟩
      | unused =>
        rw [entry] at refused
        dsimp only at refused
        split at refused
        · exact absurd (Except.error.inj refused).symm other
        · exact absurd (mapTo_unused (link_inside mapper rfl) refused) other

theorem mapTo_requests (mapped : mapTo frames target address frame level mapper = .ok after) (below : target ≤ level) :
    mapper.requests < after.requests ↔ Missing mapper.table target address level := by
  induction level generalizing mapper with
  | zero =>
    rw [fill_ok mapped]
    exact iff_of_false (Nat.lt_irrefl _) id
  | succ level ih =>
    simp only [mapTo, Missing] at mapped ⊢
    split at mapped
    next top =>
      rw [fill_ok mapped]
      exact iff_of_false (Nat.lt_irrefl _) fun both => absurd both.1 (by omega)
    next top =>
      have under : target < level + 1 := by omega
      rw [and_iff_right under]
      cases entry : mapper.table (level + 1) (address / span (level + 1)) with
      | page large =>
        rw [entry] at mapped
        cases mapped
      | table =>
        rw [entry] at mapped
        exact ih mapped (Nat.le_of_lt_succ under)
      | unused =>
        rw [entry] at mapped
        dsimp only at mapped
        split at mapped
        · cases mapped
        · have grows := (mapTo_steady target address frame level _ _ after (toOption_eq_some.mpr mapped)).1
          exact iff_of_true grows trivial

theorem missing_link (mapper : Mapper) (target level index a : Nat) :
    Missing (mapper.link (level + 1) index).table target a level ↔
      if a / span (level + 1) = index then target < level else Missing mapper.table target a level := by
  split
  next inside => exact missing_unused (link_inside mapper inside)
  next outside => exact missing_congr fun step below _ => link_outside mapper outside (Nat.le_succ_of_le below)

theorem missing_mapTo (mapped : mapTo frames target address frame level mapper = .ok after) (below : target ≤ level)
    (a : Nat) : Missing after.table target a level ↔
      Missing mapper.table target a level ∧ a / span (target + 1) ≠ address / span (target + 1) := by
  induction level generalizing mapper with
  | zero => exact iff_of_false id And.left
  | succ level ih =>
    simp only [mapTo] at mapped
    split at mapped
    next top => exact iff_of_false (fun both => absurd both.1 (by omega)) fun both => absurd both.1.1 (by omega)
    next top =>
      have under : target < level + 1 := by omega
      have far := index_eq (a := a) (b := address) under
      have entry (mapper : Mapper) (mapped : mapTo frames target address frame level mapper = .ok after) :
          after.table (level + 1) (a / span (level + 1)) = mapper.table (level + 1) (a / span (level + 1)) :=
        mapTo_above mapped (Nat.lt_succ_self level) _
      simp only [Missing, and_iff_right under]
      split at mapped
      · cases mapped
      next linked =>
        rw [entry mapper mapped]
        split
        next unused => exact iff_of_true trivial ⟨trivial, fun same => by simp [far same, linked] at unused⟩
        next => exact (iff_of_false id And.left)
        next => exact ih mapped (Nat.le_of_lt_succ under)
      next unused =>
        split at mapped
        · cases mapped
        have lowered := ih mapped (Nat.le_of_lt_succ under)
        rw [entry _ mapped]
        rw [missing_link] at lowered
        by_cases inside : a / span (level + 1) = address / span (level + 1)
        · have now : (mapper.link (level + 1) (address / span (level + 1))).table (level + 1) (a / span (level + 1)) =
              .table := by
            simp [Mapper.link, inside]
          have before : mapper.table (level + 1) (a / span (level + 1)) = .unused := by rw [inside, unused]
          rw [if_pos inside] at lowered
          simp only [now, before, lowered, true_and, and_iff_right_iff_imp]
          -- With the target just below, all of the new table is the target's.
          intro apart
          exact Nat.lt_of_le_of_ne (Nat.le_of_lt_succ under) fun same => apart (same ▸ inside)
        · rw [if_neg inside] at lowered
          rw [link_outside mapper inside le_rfl]
          split
          next => exact iff_of_true trivial ⟨trivial, fun same => inside (far same)⟩
          next => exact iff_of_false id And.left
          next => exact lowered

end Asking

/-- An implementation of the two editing functions for tables whose first level is `top`. It asks for a frame only where
a table is missing. -/
structure Paging (top : Nat) where
  mapTo : (Nat → Option Nat) → (target address frame : Nat) → Mapper → Except MapToError Mapper
  unmap : (target address : Nat) → Table → Table
  walk_mapTo : ∀ {frames target address frame mapper after}, target ≤ top →
    mapTo frames target address frame mapper = .ok after → ∀ a, walk after.table a top =
      if a / span target = address / span target then some ⟨span target, frame⟩ else walk mapper.table a top
  walk_unmap : ∀ {target a address} table, target ≤ top → a / span target ≠ address / span target →
    walk (unmap target address table) a top = walk table a top
  steady : ∀ target address frame, Steady fun frames mapper => (mapTo frames target address frame mapper).toOption
  refused : ∀ {frames target address frame mapper error}, mapTo frames target address frame mapper = .error error →
    error ≠ .frameAllocationFailed → ¬Missing mapper.table target address top ∧
      ∀ other, mapTo other target address frame mapper = .error error
  requests : ∀ {frames target address frame mapper after}, mapTo frames target address frame mapper = .ok after →
    target ≤ top → (mapper.requests < after.requests ↔ Missing mapper.table target address top)
  missing : ∀ {frames target address frame mapper after}, mapTo frames target address frame mapper = .ok after →
    target ≤ top → ∀ a, Missing after.table target a top ↔
      Missing mapper.table target a top ∧ a / span (target + 1) ≠ address / span (target + 1)

def radix (top : Nat) : Paging top where
  mapTo frames target address frame := mapTo frames target address frame top
  unmap target address table := unmap target address table top
  walk_mapTo := walk_mapTo
  walk_unmap := walk_unmap
  steady target address frame := mapTo_steady target address frame top
  refused := mapTo_refused
  requests := mapTo_requests
  missing := missing_mapTo

section Space

structure Space where
  mapping : Nat → Option Mapping
  positive : ∀ a m, mapping a = some m → 0 < m.size
  paged : ∀ a b m, mapping a = some m → a / m.size = b / m.size → mapping b = some m

def Table.space (table : Table) (top : Nat) : Space where
  mapping a := walk table a top
  positive a m found := by
    obtain ⟨leaf, -, size, -⟩ := walk_leaf found
    rw [size]
    exact span_pos leaf
  paged _ _ _ found same := walk_paged found same

variable (space : Space)

def Space.translate (a : Nat) : Option Nat := (space.mapping a).map fun m => m.frame + a % m.size

def Space.Linear (start length physical : Nat) : Prop :=
  ∀ k < length, space.translate (start + k) = some (physical + k)

def Space.Mapped (start length : Nat) : Prop := ∀ k < length, (space.mapping (start + k)).isSome

def Space.Adjacent (start length : Nat) : Prop :=
  ∀ last before after, start ≤ last → last + 1 < start + length → space.mapping last = some before →
    space.mapping (last + 1) = some after → (last + 1) % after.size = 0 →
      after.frame = before.frame + before.size

theorem succ_mod_inside {size : Nat} (inside : (a + 1) % size ≠ 0) :
    a / size = (a + 1) / size ∧ a % size + 1 = (a + 1) % size := by
  have quotient : (a + 1) / size = a / size :=
    Nat.succ_div_of_not_dvd fun divides => inside (Nat.mod_eq_zero_of_dvd divides)
  have now := Nat.div_add_mod a size
  have next := Nat.div_add_mod (a + 1) size
  rw [quotient] at next
  omega

theorem succ_mod_boundary {size : Nat} (boundary : (a + 1) % size = 0) : a % size + 1 = size := by
  have quotient : (a + 1) / size = a / size + 1 := Nat.succ_div_of_dvd (Nat.dvd_of_mod_eq_zero boundary)
  have now := Nat.div_add_mod a size
  have next := Nat.div_add_mod (a + 1) size
  rw [quotient, Nat.mul_add] at next
  omega

variable {space}

variable {before after : Mapping} {last physical : Nat}

theorem Space.last_of_page (here : space.mapping last = some before)
    (next : space.mapping (last + 1) = some after) (first : (last + 1) % after.size = 0) :
    last % before.size + 1 = before.size := by
  by_cases boundary : (last + 1) % before.size = 0
  · exact succ_mod_boundary boundary
  · have shared := space.paged _ _ _ here (succ_mod_inside boundary).1
    rw [shared] at next
    cases next
    exact absurd first boundary

theorem Space.same_page (here : space.mapping last = some before)
    (next : space.mapping (last + 1) = some after) (inner : (last + 1) % after.size ≠ 0) : before = after := by
  have shared := space.paged _ _ _ next (succ_mod_inside inner).1.symm
  rw [here] at shared
  exact some.inj shared

theorem Space.translate_some (translated : space.translate a = some physical) :
    ∃ m, space.mapping a = some m ∧ physical = m.frame + a % m.size := by
  obtain ⟨m, found, value⟩ := map_eq_some_iff.mp translated
  exact ⟨m, found, value.symm⟩

theorem Space.translate_eq {m : Mapping} (found : space.mapping a = some m) :
    space.translate a = some (m.frame + a % m.size) := by
  rw [Space.translate, found]
  rfl

theorem Space.translate_succ_iff (here : space.mapping last = some before)
    (next : space.mapping (last + 1) = some after) (translated : space.translate last = some physical) :
    space.translate (last + 1) = some (physical + 1) ↔
      ((last + 1) % after.size = 0 → after.frame = before.frame + before.size) := by
  rw [Space.translate_eq here, some.injEq] at translated
  rw [Space.translate_eq next, some.injEq]
  by_cases first : (last + 1) % after.size = 0
  · have ends := Space.last_of_page here next first
    omega
  · have same := Space.same_page here next first
    subst same
    have step := (succ_mod_inside first).2
    omega

theorem Space.linear_iff {start length : Nat} (mapped : space.Mapped start length)
    (first : space.translate start = some physical) :
    space.Linear start length physical ↔ space.Adjacent start length := by
  constructor
  · intro linear last before after low high here next boundary
    have step := linear (last - start) (by omega)
    have follow := linear (last - start + 1) (by omega)
    rw [show start + (last - start) = last by omega] at step
    rw [show start + (last - start + 1) = last + 1 by omega, ← Nat.add_assoc] at follow
    exact (Space.translate_succ_iff here next step).mp follow boundary
  · intro adjacent k
    induction k with
    | zero => exact fun _ => first
    | succ k ih =>
      intro inside
      have step := ih (by omega)
      obtain ⟨before, here, -⟩ := Space.translate_some step
      obtain ⟨after, next⟩ := isSome_iff_exists.mp (mapped (k + 1) inside)
      exact (Space.translate_succ_iff here next step).mpr
        (adjacent (start + k) before after (by omega) (by omega) here next)

end Space

end HermitLocal.Lib.PageTable
