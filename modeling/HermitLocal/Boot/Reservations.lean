import HermitLocal.Boot.Loader
import HermitLocal.Lib.Pages
import Mathlib.Data.List.Induction

/-! How the kernel takes over the memory that the loader describes: all usable ranges are released and mapped one after the
other, and only then is reserved what must not be given away. -/

namespace HermitLocal.Boot.Reservations
open Boot.Loader Lib.Align Lib.PageTable Lib.Pages Mm.Heap Function Option
open List hiding span

structure Machine where
  isUefi : Bool
  memory : List (Nat × Nat)
  memoryReservations : List (Nat × Nat)
  imageStart : Nat
  imageSize : Nat
  deviceTree : Nat
  totalSize : Nat
  model : Option (Nat × Nat)
  /-- The page tables that the firmware has left. -/
  table : Table

namespace Machine

def imageEnd (machine : Machine) : Nat := machine.imageStart + machine.imageSize

def kernelStartAddress (machine : Machine) : Nat := alignDown machine.imageStart PageSize.large.size

def kernelEndAddress (machine : Machine) : Nat := alignUp machine.imageEnd PageSize.large.size

end Machine

abbrev Frames := Nat → Option Nat

variable (paging : Paging P4)

def identityMap (frames : Frames) (mapper : Mapper) (address : Nat) : Option Mapper :=
  match paging.mapTo frames PageSize.large.level address address mapper with
  | .ok mapped => some mapped
  | .error .pageAlreadyMapped => some mapper
  | .error .parentEntryHugePage =>
    if virtualToPhysical mapper.table address = some address then some mapper else none
  | .error .frameAllocationFailed => none

def largePages (range : PageRange) : List Nat :=
  let start := alignDown (range.start * PAGE_SIZE) PageSize.large.size
  let finish := alignUp (range.finish * PAGE_SIZE) PageSize.large.size
  (List.range ((finish - start) / PageSize.large.size)).map fun index => start + index * PageSize.large.size

def mapFrameRange (frames : Frames) (range : PageRange) (mapper : Mapper) : Option Mapper :=
  (largePages range).foldlM (identityMap paging frames) mapper

def allocateFrames (frames : Frames) (first : Nat) : Nat → FreeList → Option FreeList
  | 0, free => some free
  | count + 1, free => do
    let free ← allocateFrames frames first count free
    let page ← frames (first + count)
    if free page then some (free.take page) else none

structure State where
  free : FreeList
  mapper : Mapper

def claimRange (frames : Frames) (state : State) (range : PageRange) : Option State := do
  let mapper ← mapFrameRange paging frames range state.mapper
  let free ← allocateFrames frames state.mapper.requests (mapper.requests - state.mapper.requests)
    (state.free.deallocate range)
  some ⟨free, mapper⟩

def claim (frames : Frames) (machine : Machine) (state : State) (node : Nat × Nat) : Option State :=
  let endAddress := node.1 + node.2
  if endAddress ≤ machine.kernelEndAddress ∧ ¬ machine.isUefi then some state
  else
    let startAddress := if node.1 ≤ machine.kernelStartAddress ∧ ¬ machine.isUefi then machine.kernelEndAddress else node.1
    (PageRange.new PAGE_SIZE startAddress endAddress).bind (claimRange paging frames state)

def reserve (free : FreeList) (reservation : PageRange) : FreeList := free.without reservation

def containing (start finish : Nat) : Option PageRange :=
  PageRange.new PAGE_SIZE (alignDown start PAGE_SIZE) (alignUp finish PAGE_SIZE)

def pagesOf (node : Nat × Nat) : Option PageRange := PageRange.new PAGE_SIZE node.1 (node.1 + node.2)

def Machine.reservations (machine : Machine) : Option (List PageRange) := do
  let listed ← machine.memoryReservations.mapM pagesOf
  let kernelStart := if machine.isUefi then machine.kernelStartAddress else 0
  let kernelRegion ← PageRange.new PAGE_SIZE kernelStart machine.kernelEndAddress
  let fdtRegion ← containing machine.deviceTree (machine.deviceTree + machine.totalSize)
  let modelRegion ← machine.model.toList.mapM pagesOf
  some (listed ++ [kernelRegion, fdtRegion] ++ modelRegion)

def detectFromFdt (frames : Frames) (machine : Machine) : Option State :=
  if machine.memory = [] then none
  else do
    let claimed ← machine.memory.foldlM (claim paging frames machine) ⟨fun _ => false, ⟨machine.table, 0⟩⟩
    let reservations ← machine.reservations
    some { claimed with free := reservations.foldl reserve claimed.free }

/-! The page tables do not depend on which frames the allocator gives. -/

variable {paging} {table : Table} {frames : Frames} {range : PageRange} {after mapper before : Mapper}
  {first count page : Nat} {free : FreeList} {last : State} {ranges past : List PageRange}

theorem identityMap_refused {address : Nat} {refusal : MapToError}
    (refused : paging.mapTo frames PageSize.large.level address address mapper = .error refusal)
    (mapped : identityMap paging frames mapper address = some after) :
    after = mapper ∧ refusal ≠ .frameAllocationFailed := by
  unfold identityMap at mapped
  rw [refused] at mapped
  cases refusal with
  | frameAllocationFailed => cases mapped
  | pageAlreadyMapped => exact ⟨(some.inj mapped).symm, nofun⟩
  | parentEntryHugePage =>
    dsimp only at mapped
    split at mapped
    · exact ⟨(some.inj mapped).symm, nofun⟩
    · cases mapped

theorem identityMap_steady (address : Nat) : Steady fun frames mapper => identityMap paging frames mapper address := by
  intro frames mapper after mapped
  dsimp only at mapped ⊢
  cases run : paging.mapTo frames PageSize.large.level address address mapper with
  | ok reached =>
    simp only [identityMap, run, some.injEq] at mapped ⊢
    subst mapped
    obtain ⟨grows, answers, again⟩ := paging.steady PageSize.large.level address address frames mapper reached
      (toOption_eq_some.mpr run)
    refine ⟨grows, answers, ?_⟩
    intro other answered
    rw [toOption_eq_some.mp (again other answered)]
  | error refusal =>
    obtain ⟨rfl, failed⟩ := identityMap_refused run mapped
    refine ⟨le_rfl, fun request low high => absurd (low.trans_lt high) (Nat.lt_irrefl _), ?_⟩
    intro other _
    rw [← mapped, identityMap, (paging.refused run failed).2 other, identityMap, run]

theorem mapFrameRange_steady (range : PageRange) : Steady fun frames mapper => mapFrameRange paging frames range mapper :=
  Steady.foldlM identityMap_steady (largePages range)

def always : Frames := fun _ => some 0

theorem mapFrameRange_iff : mapFrameRange paging frames range mapper = some after ↔
      mapFrameRange paging always range mapper = some after ∧ Answers frames mapper.requests after.requests := by
  constructor
  · intro mapped
    obtain ⟨-, answers, again⟩ := mapFrameRange_steady range frames mapper after mapped
    exact ⟨again always fun _ _ _ => rfl, answers⟩
  · rintro ⟨mapped, answers⟩
    exact (mapFrameRange_steady range always mapper after mapped).2.2 frames answers

theorem mapFrameRange_grows (mapped : mapFrameRange paging frames range mapper = some after) :
    mapper.requests ≤ after.requests :=
  (mapFrameRange_steady range frames mapper after mapped).1

/-! Which pages are free. -/

theorem allocateFrames_succ {after : FreeList} : allocateFrames frames first (count + 1) free = some after ↔
      ∃ middle page, allocateFrames frames first count free = some middle ∧ frames (first + count) = some page ∧
        middle page = true ∧ after = middle.take page := by
  constructor
  · intro taken
    obtain ⟨middle, before, taken⟩ := bind_eq_some_iff.mp taken
    obtain ⟨page, answer, taken⟩ := bind_eq_some_iff.mp taken
    split at taken
    · exact ⟨middle, page, before, answer, ‹_›, (some.inj taken).symm⟩
    · cases taken
  · rintro ⟨middle, page, before, answer, free, rfl⟩
    simp only [allocateFrames, before, answer, bind_eq_bind, bind_some, if_pos free]

theorem allocateFrames_iff {after : FreeList} : allocateFrames frames first count free = some after ↔
      (∀ k < count, ∃ page, frames (first + k) = some page ∧ free page = true ∧ ∀ j < k, frames (first + j) ≠ some page) ∧
        ∀ page, after page = true ↔ free page = true ∧ ∀ j < count, frames (first + j) ≠ some page := by
  induction count generalizing after with
  | zero =>
    constructor
    · intro same
      cases same
      simp
    · rintro ⟨-, pages⟩
      refine congrArg some (funext fun page => ?_)
      rw [Bool.eq_iff_iff, pages page]
      simp
  | succ count ih =>
    rw [allocateFrames_succ, Nat.forall_lt_succ_right]
    constructor
    · rintro ⟨middle, last, before, answer, taken, rfl⟩
      obtain ⟨earlier, pages⟩ := ih.mp before
      refine ⟨⟨earlier, last, answer, (pages last).mp taken⟩, fun page => ?_⟩
      rw [FreeList.take_iff, pages page, Nat.forall_lt_succ_right, answer,
        (some_injective Nat).ne_iff, and_assoc, ne_comm]
    · rintro ⟨⟨earlier, last, answer, unused, apart⟩, pages⟩
      have before : allocateFrames frames first count free =
          some fun page => free page && decide (∀ j < count, frames (first + j) ≠ some page) :=
        ih.mpr ⟨earlier, fun page => by simp⟩
      refine ⟨_, last, before, answer, by simpa using ⟨unused, apart⟩, funext fun page => ?_⟩
      rw [Bool.eq_iff_iff, pages page, FreeList.take_iff, (ih.mp before).2 page, Nat.forall_lt_succ_right, answer,
        (some_injective Nat).ne_iff, and_assoc, ne_comm]

theorem forall_from (first count : Nat) (holds : Nat → Prop) :
    (∀ k < count, holds (first + k)) ↔ ∀ k, first ≤ k → k < first + count → holds k := by
  constructor
  · intro all k low high
    have now := all (k - first) (by omega)
    rwa [Nat.add_sub_cancel' low] at now
  · intro all k bound
    exact all (first + k) (by omega) (by omega)

def Given (frames : Frames) (first last page : Nat) : Prop := ∃ k, first ≤ k ∧ k < last ∧ frames k = some page

theorem not_given_iff :
    ¬ Given frames first (first + count) page ↔ ∀ j < count, frames (first + j) ≠ some page := by
  rw [forall_from first count fun j => frames j ≠ some page]
  unfold Given
  push Not
  rfl

theorem allocateFrames_between {last : Nat} (order : first ≤ last) {after : FreeList} :
    allocateFrames frames first (last - first) free = some after ↔
      (∀ k, first ≤ k → k < last → ∃ page, frames k = some page ∧ free page = true ∧ ¬ Given frames first k page) ∧
        ∀ page, after page = true ↔ free page = true ∧ ¬ Given frames first last page := by
  obtain ⟨count, rfl⟩ := Nat.exists_eq_add_of_le order
  rw [Nat.add_sub_cancel_left, allocateFrames_iff, ← forall_from first count fun k => ∃ page, frames k = some page ∧
    free page = true ∧ ¬ Given frames first k page]
  simp only [not_given_iff]

theorem claimRange_iff {state : State} : claimRange paging frames state range = some last ↔
      mapFrameRange paging always range state.mapper = some last.mapper ∧
        (∀ k, state.mapper.requests ≤ k → k < last.mapper.requests → ∃ page, frames k = some page ∧
          (state.free page = true ∨ range.Contains page) ∧ ¬ Given frames state.mapper.requests k page) ∧
        ∀ page, last.free page = true ↔
          (state.free page = true ∨ range.Contains page) ∧ ¬ Given frames state.mapper.requests last.mapper.requests page := by
  simp only [← FreeList.deallocate_iff]
  constructor
  · intro claimed
    obtain ⟨mapper, mapped, claimed⟩ := bind_eq_some_iff.mp claimed
    obtain ⟨free, taken, claimed⟩ := bind_eq_some_iff.mp claimed
    cases claimed
    exact ⟨(mapFrameRange_iff.mp mapped).1, (allocateFrames_between (mapFrameRange_grows mapped)).mp taken⟩
  · rintro ⟨mapped, served⟩
    have answers : Answers frames state.mapper.requests last.mapper.requests := by
      intro request low high
      obtain ⟨page, answer, -⟩ := served.1 request low high
      rw [answer]
      rfl
    simp only [claimRange, mapFrameRange_iff.mpr ⟨mapped, answers⟩, bind_eq_bind, bind_some,
      (allocateFrames_between (mapFrameRange_grows mapped)).mpr served]

/-! The whole memory. -/

def Released (ranges : List PageRange) (page : Nat) : Prop := ∃ range ∈ ranges, range.Contains page

theorem released_concat : Released (ranges ++ [range]) page ↔ Released ranges page ∨ range.Contains page := by
  unfold Released
  simp only [mem_append, mem_singleton, or_and_right, exists_or, exists_eq_left]

variable (paging) in
def mapRanges (table : Table) (ranges : List PageRange) : Option Mapper :=
  (ranges.flatMap largePages).foldlM (identityMap paging always) ⟨table, 0⟩

theorem mapRanges_concat : mapRanges paging table (ranges ++ [range]) = some after ↔
      ∃ before, mapRanges paging table ranges = some before ∧ mapFrameRange paging always range before = some after := by
  unfold mapRanges
  rw [flatMap_append, foldlM_append, bind_eq_bind, bind_eq_some_iff, flatMap_singleton]
  rfl

theorem mapRanges_grows (early : past <+: ranges) (first : mapRanges paging table past = some before)
    (second : mapRanges paging table ranges = some after) : before.requests ≤ after.requests := by
  obtain ⟨rest, rfl⟩ := early
  unfold mapRanges at first second
  rw [flatMap_append, foldlM_append, first] at second
  exact (Steady.foldlM identityMap_steady (rest.flatMap largePages) always before after second).1

/-! Where page tables are missing. -/

def TableMissing (table : Table) (address : Nat) : Prop := Missing table PageSize.large.level address P4

theorem tableMissing_congr {address other : Nat} (same : address / PageSize.huge.size = other / PageSize.huge.size) :
    TableMissing table address ↔ TableMissing table other :=
  missing_congr fun _ _ above => by rw [index_eq above same]

theorem identityMap_asks {address : Nat} (mapped : identityMap paging frames mapper address = some after) :
    (mapper.requests < after.requests ↔ TableMissing mapper.table address) ∧
      ∀ a, TableMissing after.table a ↔
        TableMissing mapper.table a ∧ a / PageSize.huge.size ≠ address / PageSize.huge.size := by
  cases run : paging.mapTo frames PageSize.large.level address address mapper with
  | ok reached =>
    simp only [identityMap, run, some.injEq] at mapped
    subst mapped
    exact ⟨paging.requests run PageSize.large.level_le, paging.missing run PageSize.large.level_le⟩
  | error refusal =>
    obtain ⟨rfl, failed⟩ := identityMap_refused run mapped
    have present : ¬TableMissing after.table address := (paging.refused run failed).1
    refine ⟨iff_of_false (Nat.lt_irrefl _) present, fun a => (and_iff_left_of_imp ?_).symm⟩
    intro absent same
    exact present ((tableMissing_congr same).mp absent)

theorem identityMaps_ask {addresses : List Nat} (mapped : addresses.foldlM (identityMap paging frames) mapper = some after) :
    (mapper.requests < after.requests ↔ ∃ address ∈ addresses, TableMissing mapper.table address) ∧
      ∀ a, TableMissing after.table a ↔ TableMissing mapper.table a ∧
        ∀ address ∈ addresses, a / PageSize.huge.size ≠ address / PageSize.huge.size := by
  induction addresses generalizing mapper with
  | nil =>
    cases mapped
    simp
  | cons address rest ih =>
    obtain ⟨middle, first, mapped⟩ := bind_eq_some_iff.mp mapped
    obtain ⟨asked, missing⟩ := identityMap_asks first
    obtain ⟨askedLater, missingLater⟩ := ih mapped
    have grows := (identityMap_steady address frames mapper middle first).1
    have growsLater := (Steady.foldlM identityMap_steady rest frames middle after mapped).1
    have either : mapper.requests < after.requests ↔ mapper.requests < middle.requests ∨ middle.requests < after.requests := by
      omega
    rw [either, asked, askedLater, exists_mem_cons_iff]
    constructor
    · -- A later address of the same GiB finds the table that the first one has brought.
      constructor
      · rintro (now | ⟨later, member, absent⟩)
        · exact .inl now
        · exact .inr ⟨later, member, ((missing later).mp absent).1⟩
      · rintro (now | ⟨later, member, absent⟩)
        · exact .inl now
        · by_cases same : later / PageSize.huge.size = address / PageSize.huge.size
          · exact .inl ((tableMissing_congr same).mp absent)
          · exact .inr ⟨later, member, (missing later).mpr ⟨absent, same⟩⟩
    · intro a
      rw [missingLater, missing, forall_mem_cons, and_assoc]

theorem released_mono (early : past <+: ranges) (released : Released past page) : Released ranges page := by
  obtain ⟨range, member, inside⟩ := released
  exact ⟨range, early.subset member, inside⟩

theorem request_made (mapped : mapRanges paging table ranges = some mapper) {k : Nat} (bound : k < mapper.requests) :
    ∃ past range rest before after, ranges = past ++ range :: rest ∧ mapRanges paging table past = some before ∧
      mapFrameRange paging always range before = some after ∧ before.requests ≤ k ∧ k < after.requests := by
  induction ranges using reverseRecOn generalizing mapper with
  | nil =>
    cases mapped
    exact absurd bound (Nat.not_lt_zero k)
  | append_singleton ranges range ih =>
    obtain ⟨before, first, last⟩ := mapRanges_concat.mp mapped
    by_cases early : k < before.requests
    · obtain ⟨past, other, rest, found⟩ := ih first early
      obtain ⟨middle, after, rfl, request⟩ := found
      exact ⟨past, other, rest ++ [range], middle, after, by simp, request⟩
    · exact ⟨ranges, range, [], before, mapper, rfl, first, last, Nat.le_of_not_lt early, bound⟩

variable (paging) in
structure Served (table : Table) (frames : Frames) (ranges : List PageRange) (last : State) : Prop where
  mapped : mapRanges paging table ranges = some last.mapper
  given : ∀ past range rest before after, ranges = past ++ range :: rest → mapRanges paging table past = some before →
    mapFrameRange paging always range before = some after → ∀ k, before.requests ≤ k → k < after.requests →
      ∃ page, frames k = some page ∧ Released (past ++ [range]) page ∧ ¬ Given frames 0 k page
  free : ∀ page, last.free page = true ↔ Released ranges page ∧ ¬ Given frames 0 last.mapper.requests page

theorem given_split {middle last : Nat} (low : first ≤ middle) (high : middle ≤ last) :
    Given frames first last page ↔ Given frames first middle page ∨ Given frames middle last page := by
  constructor
  · rintro ⟨k, from_, to_, answer⟩
    by_cases early : k < middle
    · exact .inl ⟨k, from_, early, answer⟩
    · exact .inr ⟨k, Nat.le_of_not_lt early, to_, answer⟩
  · rintro (⟨k, from_, to_, answer⟩ | ⟨k, from_, to_, answer⟩)
    · exact ⟨k, from_, to_.trans_le high, answer⟩
    · exact ⟨k, low.trans from_, to_, answer⟩

section Run
variable {table : Table} {frames : Frames} {ranges : List PageRange} {range : PageRange}

theorem Served.released (served : Served paging table frames ranges last) {k : Nat}
    (bound : k < last.mapper.requests) (answer : frames k = some page) : Released ranges page := by
  obtain ⟨past, range, rest, before, after, split, first, second, low, high⟩ := request_made served.mapped bound
  obtain ⟨given, same, ⟨found, member, inside⟩, -⟩ := served.given past range rest before after split first second k low high
  rw [answer, some.injEq] at same
  subst same
  refine ⟨found, ?_, inside⟩
  rw [split]
  rcases mem_append.mp member with early | now
  · exact mem_append_left _ early
  · rw [mem_singleton.mp now]
    exact mem_append_right _ mem_cons_self

theorem Served.reached {past rest : List PageRange} (served : Served paging table frames ranges last)
    (split : ranges = past ++ range :: rest) : ∃ before after, mapRanges paging table past = some before ∧
      mapFrameRange paging always range before = some after := by
  have mapped := served.mapped
  rw [split, append_cons, mapRanges, flatMap_append, foldlM_append, bind_eq_bind, bind_eq_some_iff] at mapped
  obtain ⟨after, reached, -⟩ := mapped
  obtain ⟨before, first, second⟩ := mapRanges_concat.mp reached
  exact ⟨before, after, first, second⟩

theorem Served.not_given (served : Served paging table frames ranges last)
    (apart : ∀ other ∈ ranges, other.Apart range) (inside : range.Contains page) :
    ¬ Given frames 0 last.mapper.requests page := by
  rintro ⟨k, -, bound, answer⟩
  obtain ⟨other, member, covered⟩ := served.released bound answer
  exact (apart other member).not_both covered inside

theorem Served.free_next (served : Served paging table frames ranges last)
    (apart : ∀ other ∈ ranges, other.Apart range) (page : Nat) : last.free page = true ∨ range.Contains page ↔
      Released (ranges ++ [range]) page ∧ ¬ Given frames 0 last.mapper.requests page := by
  rw [served.free page, released_concat]
  constructor
  · rintro (⟨early, fresh⟩ | inside)
    · exact ⟨.inl early, fresh⟩
    · exact ⟨.inr inside, served.not_given apart inside⟩
  · rintro ⟨early | inside, fresh⟩
    · exact .inl ⟨early, fresh⟩
    · exact .inr inside

theorem Served.concat {middle : State} (served : Served paging table frames ranges middle)
    (apart : ∀ other ∈ ranges, other.Apart range) (claimed : claimRange paging frames middle range = some last) :
    Served paging table frames (ranges ++ [range]) last := by
  obtain ⟨mapped, given, free⟩ := claimRange_iff.mp claimed
  have grows := mapFrameRange_grows mapped
  refine ⟨mapRanges_concat.mpr ⟨middle.mapper, served.mapped, mapped⟩, ?_, ?_⟩
  · intro past now rest before after split first second k low high
    rcases eq_nil_or_concat rest with rfl | ⟨front, final, rfl⟩
    · -- The last range: what was free then is what is released and not yet given.
      obtain ⟨rfl, same⟩ := append_inj' split rfl
      cases same
      rw [served.mapped, some.injEq] at first
      subst first
      rw [mapped, some.injEq] at second
      subst second
      obtain ⟨page, answer, free, fresh⟩ := given k low high
      obtain ⟨released, unused⟩ := (served.free_next apart page).mp free
      refine ⟨page, answer, released, ?_⟩
      rw [given_split (Nat.zero_le _) low, not_or]
      exact ⟨unused, fresh⟩
    · have earlier : ranges = past ++ now :: front := by
        rw [concat_eq_append, ← cons_append, ← append_assoc] at split
        exact (append_inj' split rfl).1
      exact served.given past now front before after earlier first second k low high
  · intro page
    rw [free page, served.free_next apart page, given_split (Nat.zero_le _) grows, not_or, and_assoc]

open Classical in
theorem Served.split (apart : ∀ other ∈ ranges, other.Apart range)
    (served : Served paging table frames (ranges ++ [range]) last) :
    ∃ middle, Served paging table frames ranges middle ∧ claimRange paging frames middle range = some last := by
  obtain ⟨before, first, second⟩ := mapRanges_concat.mp served.mapped
  have early : Served paging table frames ranges
      ⟨fun page => decide (Released ranges page ∧ ¬ Given frames 0 before.requests page), before⟩ := by
    refine ⟨first, ?_, fun page => decide_eq_true_iff⟩
    intro past now rest middle after split
    exact served.given past now (rest ++ [range]) middle after (by rw [split]; simp)
  have grows := mapFrameRange_grows second
  refine ⟨_, early, claimRange_iff.mpr ⟨second, ?_, ?_⟩⟩
  · intro k low high
    obtain ⟨page, answer, released, fresh⟩ := served.given ranges range [] before last.mapper rfl first second k low high
    rw [given_split (Nat.zero_le _) low, not_or] at fresh
    exact ⟨page, answer, (early.free_next apart page).mpr ⟨released, fresh.1⟩, fresh.2⟩
  · intro page
    rw [served.free page, early.free_next apart page, given_split (Nat.zero_le _) grows, not_or, and_assoc]

end Run

theorem claimed_iff (disjoint : ranges.Pairwise PageRange.Apart) :
    ranges.foldlM (claimRange paging frames) ⟨fun _ => false, ⟨table, 0⟩⟩ = some last ↔
      Served paging table frames ranges last := by
  induction ranges using reverseRecOn generalizing last with
  | nil =>
    constructor
    · intro same
      cases same
      refine ⟨rfl, ?_, fun page => ⟨fun free => absurd free Bool.false_ne_true, ?_⟩⟩
      · intro past range rest before after split
        exact absurd split.symm (append_ne_nil_of_right_ne_nil past (cons_ne_nil range rest))
      · rintro ⟨⟨range, member, -⟩, -⟩
        cases member
    · intro served
      obtain ⟨free, mapper⟩ := last
      have none_free : (fun _ => false) = free := by
        funext page
        rw [eq_comm, Bool.eq_false_iff, Ne, served.free page]
        rintro ⟨⟨range, member, -⟩, -⟩
        cases member
      have same : (⟨table, 0⟩ : Mapper) = mapper := some.inj served.mapped
      rw [← none_free, ← same]
      rfl
  | append_singleton ranges range ih =>
    obtain ⟨early, -, apart⟩ := pairwise_append.mp disjoint
    rw [foldlM_append, bind_eq_bind, bind_eq_some_iff]
    simp only [foldlM_cons, foldlM_nil, bind_pure, ih early]
    have apartRange : ∀ other ∈ ranges, other.Apart range := fun other member => apart other member range mem_cons_self
    constructor
    · rintro ⟨middle, served, claimed⟩
      exact served.concat apartRange claimed
    · exact fun served => served.split apartRange

theorem request_late {pastOther : List PageRange} {other : PageRange} (split : past ++ [range] <+: ranges)
    (splitOther : pastOther ++ [other] <+: ranges) (first : mapRanges paging table past = some before)
    (second : mapRanges paging table (pastOther ++ [other]) = some after) (late : before.requests < after.requests) :
    past ++ [range] <+: pastOther ++ [other] := by
  rcases prefix_or_prefix_of_prefix split splitOther with early | early
  · exact early
  · rcases prefix_concat_iff.mp early with same | shorter
    · exact same ▸ prefix_rfl
    · have grows := mapRanges_grows shorter second first
      omega

open Classical in
theorem Served.give_instead {rest : List PageRange} (served : Served paging table frames ranges last)
    (split : ranges = past ++ range :: rest) (first : mapRanges paging table past = some before)
    (released : Released (past ++ [range]) page) (unused : ¬ Given frames 0 last.mapper.requests page) :
    ∃ free, Served paging table (update frames before.requests (some page)) ranges ⟨free, last.mapper⟩ := by
  refine ⟨fun other => decide (Released ranges other ∧
    ¬ Given (update frames before.requests (some page)) 0 last.mapper.requests other), served.mapped, ?_,
    fun other => decide_eq_true_iff⟩
  intro pastOther rangeOther restOther beforeOther afterOther splitOther firstOther secondOther k low high
  obtain ⟨answered, answer, releasedOther, fresh⟩ := served.given pastOther rangeOther restOther beforeOther afterOther
    splitOther firstOther secondOther k low high
  have reached := mapRanges_concat.mpr ⟨beforeOther, firstOther, secondOther⟩
  have isPrefix : past ++ [range] <+: ranges := ⟨rest, by rw [split]; simp⟩
  have isPrefixOther : pastOther ++ [rangeOther] <+: ranges := ⟨restOther, by rw [splitOther]; simp⟩
  have bound : k < last.mapper.requests := high.trans_le (mapRanges_grows isPrefixOther reached served.mapped)
  by_cases now : k = before.requests
  · have later := request_late isPrefix isPrefixOther first reached (now ▸ high)
    refine ⟨page, by rw [now, update_self], released_mono later released, ?_⟩
    rintro ⟨j, -, earlier, same⟩
    rw [update_of_ne (by omega)] at same
    exact unused ⟨j, Nat.zero_le j, earlier.trans bound, same⟩
  · refine ⟨answered, by rw [update_of_ne now]; exact answer, releasedOther, ?_⟩
    rintro ⟨j, -, earlier, same⟩
    by_cases replaced : j = before.requests
    · rw [replaced, update_self, some.injEq] at same
      exact unused ⟨k, Nat.zero_le k, bound, same ▸ answer⟩
    · rw [update_of_ne replaced] at same
      exact fresh ⟨j, Nat.zero_le j, earlier, same⟩

/-! What must not be given away. -/

def Overlaps (page start finish : Nat) : Prop := page * PAGE_SIZE < finish ∧ start < (page + 1) * PAGE_SIZE

instance (page start finish : Nat) : Decidable (Overlaps page start finish) := inferInstanceAs (Decidable (_ ∧ _))

structure UefiMachine extends Machine where
  map : MemoryMap
  pageTables : List Nat
  started : isUefi = true
  described : memory = map.nodes

namespace UefiMachine
variable (machine : UefiMachine)

def KernelImage (page : Nat) : Prop := Overlaps page machine.imageStart machine.imageEnd

def DeviceTree (page : Nat) : Prop := Overlaps page machine.deviceTree (machine.deviceTree + machine.totalSize)

def Model (page : Nat) : Prop := ∃ node ∈ machine.model, Overlaps page node.1 (node.1 + node.2)

def BootStack (page : Nat) : Prop := Overlaps page machine.imageEnd (bootStack machine.imageEnd)

def Protected (page : Nat) : Prop :=
  machine.KernelImage page ∨ machine.DeviceTree page ∨ machine.Model page ∨ machine.BootStack page ∨ page ∈ machine.pageTables

structure Safe (frames : Frames) (last : State) : Prop where
  free : ∀ page, last.free page = true → ¬ machine.Protected page ∧ ¬ Given frames 0 last.mapper.requests page
  given : ∀ k page, k < last.mapper.requests → frames k = some page → ¬ machine.Protected page ∧ ¬ Given frames 0 k page

def usableRanges : List PageRange := machine.memory.filterMap pagesOf

def NeedsFrames (past : List PageRange) (range : PageRange) : Prop :=
  ∃ address ∈ largePages range, TableMissing machine.table address ∧
    ∀ other ∈ past.flatMap largePages, address / PageSize.huge.size ≠ other / PageSize.huge.size

def Reserved (page : Nat) : Prop := ∃ ranges, machine.reservations = some ranges ∧ Released ranges page

end UefiMachine

theorem new_pages {start finish : Nat} (made : PageRange.new PAGE_SIZE start finish = some range) :
    range.start * PAGE_SIZE = start ∧ range.finish * PAGE_SIZE = finish := by
  unfold PageRange.new at made
  split at made
  next aligned =>
    cases made
    exact ⟨Nat.div_mul_cancel (Nat.dvd_of_mod_eq_zero aligned.1), Nat.div_mul_cancel (Nat.dvd_of_mod_eq_zero aligned.2.1)⟩
  · cases made

theorem reserved_iff : ranges.foldl reserve free page = true ↔ free page = true ∧ ¬ Released ranges page := by
  induction ranges generalizing free with
  | nil => simp [Released]
  | cons range rest ih =>
    rw [foldl_cons, ih, reserve, FreeList.without_iff, and_assoc]
    unfold Released
    simp only [mem_cons, exists_eq_or_imp, not_or]

theorem overlaps_contained {start finish low high : Nat}
    (made : PageRange.new PAGE_SIZE low high = some range) (below : low ≤ start) (above : finish ≤ high)
    (overlaps : Overlaps page start finish) : range.Contains page := by
  obtain ⟨first, last⟩ := new_pages made
  obtain ⟨left, right⟩ := overlaps
  have firstPage : range.start * PAGE_SIZE < (page + 1) * PAGE_SIZE := by omega
  have lastPage : page * PAGE_SIZE < range.finish * PAGE_SIZE := by omega
  exact ⟨Nat.le_of_lt_succ (Nat.lt_of_mul_lt_mul_right firstPage), Nat.lt_of_mul_lt_mul_right lastPage⟩

namespace UefiMachine
variable {machine : UefiMachine}

theorem needsFrames_iff (first : mapRanges paging machine.table past = some before)
    (second : mapFrameRange paging always range before = some after) :
    machine.NeedsFrames past range ↔ before.requests < after.requests := by
  rw [(identityMaps_ask second).1]
  simp only [(identityMaps_ask first).2]
  rfl

theorem claim_eq (frames : Frames) (state : State) (node : Nat × Nat) :
    claim paging frames machine.toMachine state node =
      (pagesOf node).bind (claimRange paging frames state) := by
  unfold claim pagesOf
  rw [machine.started]
  simp

theorem usableRanges_disjoint : machine.usableRanges.Pairwise PageRange.Apart := by
  have sorted := (perm_insertionSort (·.physStart ≤ ·.physStart) machine.map.entries).symm.pairwise
    machine.map.disjoint Or.symm
  unfold usableRanges
  rw [machine.described]
  unfold MemoryMap.nodes
  rw [filterMap_map, pairwise_filterMap]
  apply (sorted.filter _).imp
  intro entry other apart range made second secondMade
  obtain ⟨start, finish⟩ := new_pages made
  obtain ⟨secondStart, secondFinish⟩ := new_pages secondMade
  dsimp only at start finish secondStart secondFinish
  have entryEnd : entry.physStart ≤ entry.physEnd := Nat.le_add_right _ _
  have otherEnd : other.physStart ≤ other.physEnd := Nat.le_add_right _ _
  unfold PageRange.Apart
  unfold PAGE_SIZE at start finish secondStart secondFinish
  omega

theorem reserved_of_fixed (listed : machine.reservations = some ranges)
    (fixed : machine.KernelImage page ∨ machine.DeviceTree page ∨ machine.Model page) : Released ranges page := by
  obtain ⟨given, -, listed⟩ := bind_eq_some_iff.mp listed
  obtain ⟨kernelRegion, kernel, listed⟩ := bind_eq_some_iff.mp listed
  obtain ⟨fdtRegion, fdt, listed⟩ := bind_eq_some_iff.mp listed
  obtain ⟨modelRegion, model, listed⟩ := bind_eq_some_iff.mp listed
  cases listed
  rw [machine.started] at kernel
  rcases fixed with image | tree | ⟨node, found, overlaps⟩
  · refine ⟨kernelRegion, by simp, overlaps_contained kernel ?_ ?_ image⟩
    · exact alignDown_le _ _
    · exact le_alignUp PageSize.large.size_pos _
  · refine ⟨fdtRegion, by simp, overlaps_contained fdt ?_ ?_ tree⟩
    · exact alignDown_le _ _
    · exact le_alignUp (by decide) _
  · rw [mem_def.mp found] at model
    obtain ⟨range, made, same⟩ := bind_eq_some_iff.mp model
    cases same
    exact ⟨range, by simp, overlaps_contained made (Nat.le_refl _) (Nat.le_refl _) overlaps⟩

def Valid (nodes : List (Nat × Nat)) : Prop := ∀ node ∈ nodes, (pagesOf node).isSome

theorem claims_iff {nodes : List (Nat × Nat)} {state : State} :
    nodes.foldlM (claim paging frames machine.toMachine) state = some last ↔ Valid nodes ∧
      (nodes.filterMap pagesOf).foldlM (claimRange paging frames) state = some last := by
  induction nodes generalizing state with
  | nil => simp [Valid]
  | cons node rest ih =>
    rw [foldlM_cons, claim_eq]
    cases made : pagesOf node with
    | none =>
      constructor
      · intro absent
        cases absent
      · rintro ⟨valid, -⟩
        have first := valid node mem_cons_self
        rw [made] at first
        cases first
    | some range =>
      have valid : Valid (node :: rest) ↔ Valid rest := by
        unfold Valid
        rw [forall_mem_cons, made]
        simp
      rw [filterMap_cons_some made, foldlM_cons, bind_some, bind_eq_bind, bind_eq_some_iff,
         bind_eq_some_iff, valid]
      simp only [ih]
      constructor
      · rintro ⟨next, claimed, others, reached⟩
        exact ⟨others, next, claimed, reached⟩
      · rintro ⟨others, next, claimed, reached⟩
        exact ⟨next, claimed, others, reached⟩

theorem detect_iff : detectFromFdt paging frames machine.toMachine = some last ↔
      (machine.memory ≠ [] ∧ Valid machine.memory) ∧ ∃ claimed ranges,
        Served paging machine.table frames machine.usableRanges claimed ∧ machine.reservations = some ranges ∧
          last = { claimed with free := ranges.foldl reserve claimed.free } := by
  unfold detectFromFdt
  by_cases empty : machine.memory = []
  · rw [if_pos empty]
    constructor
    · intro absent
      cases absent
    · rintro ⟨⟨nonempty, -⟩, -⟩
      exact absurd empty nonempty
  · rw [if_neg empty, bind_eq_bind, bind_eq_some_iff]
    simp only [claims_iff, bind_eq_bind, bind_eq_some_iff]
    constructor
    · rintro ⟨claimed, ⟨valid, reached⟩, ranges, listed, same⟩
      exact ⟨⟨empty, valid⟩, claimed, ranges, (claimed_iff usableRanges_disjoint).mp reached, listed, (some.inj same).symm⟩
    · rintro ⟨⟨-, valid⟩, claimed, ranges, served, listed, rfl⟩
      exact ⟨claimed, ⟨valid, (claimed_iff usableRanges_disjoint).mpr served⟩, ranges, listed, rfl⟩

def TablesSafe (machine : UefiMachine) : Prop :=
  ∀ past range rest, machine.usableRanges = past ++ range :: rest → machine.NeedsFrames past range →
    ∀ page, Released (past ++ [range]) page → ¬ machine.Protected page

def OthersReserved (machine : UefiMachine) : Prop :=
  ∀ page, machine.BootStack page ∨ page ∈ machine.pageTables → Released machine.usableRanges page → machine.Reserved page

theorem safe_of_conditions (tables : machine.TablesSafe) (others : machine.OthersReserved)
    (booted : detectFromFdt paging frames machine.toMachine = some last) : machine.Safe frames last := by
  obtain ⟨-, claimed, ranges, served, listed, rfl⟩ := detect_iff.mp booted
  constructor
  · intro page free
    obtain ⟨claimedFree, unreserved⟩ := reserved_iff.mp free
    obtain ⟨released, fresh⟩ := (served.free page).mp claimedFree
    refine ⟨?_, fresh⟩
    intro held
    rcases held with image | tree | model | other
    · exact unreserved (reserved_of_fixed listed (.inl image))
    · exact unreserved (reserved_of_fixed listed (.inr (.inl tree)))
    · exact unreserved (reserved_of_fixed listed (.inr (.inr model)))
    · obtain ⟨same, listedSame, reserved⟩ := others page other released
      rw [listed, some.injEq] at listedSame
      exact unreserved (listedSame ▸ reserved)
  · intro k page bound answer
    obtain ⟨past, range, rest, before, after, split, first, second, low, high⟩ := request_made served.mapped bound
    obtain ⟨given, same, released, fresh⟩ := served.given past range rest before after split first second k low high
    rw [answer, some.injEq] at same
    subst same
    exact ⟨tables past range rest split ((needsFrames_iff first second).mpr (by omega)) page released, fresh⟩

theorem conditions_of_safe (booted : detectFromFdt paging frames machine.toMachine = some last)
    (safe : ∀ other after, detectFromFdt paging other machine.toMachine = some after → machine.Safe other after) :
    machine.TablesSafe ∧ machine.OthersReserved := by
  have now := safe frames last booted
  obtain ⟨started, claimed, ranges, served, listed, rfl⟩ := detect_iff.mp booted
  constructor
  · intro past range rest split needed page released held
    obtain ⟨before, after, first, second⟩ := served.reached split
    have needs := (needsFrames_iff first second).mp needed
    by_cases given : Given frames 0 claimed.mapper.requests page
    · obtain ⟨k, -, bound, answer⟩ := given
      exact (now.given k page bound answer).1 held
    · obtain ⟨free, instead⟩ := served.give_instead split first released given
      have again := safe _ _ (detect_iff.mpr ⟨started, _, ranges, instead, listed, rfl⟩)
      have isPrefix : past ++ [range] <+: machine.usableRanges := ⟨rest, by rw [split]; simp⟩
      have bound := needs.trans_le (mapRanges_grows isPrefix (mapRanges_concat.mpr ⟨before, first, second⟩) served.mapped)
      exact (again.given before.requests page bound (update_self ..)).1 held
  · intro page other released
    by_contra unreserved
    have held : machine.Protected page := .inr (.inr (.inr other))
    by_cases given : Given frames 0 claimed.mapper.requests page
    · obtain ⟨k, -, bound, answer⟩ := given
      exact (now.given k page bound answer).1 held
    · have free : ranges.foldl reserve claimed.free page = true :=
        reserved_iff.mpr ⟨(served.free page).mpr ⟨released, given⟩, fun reserved => unreserved ⟨ranges, listed, reserved⟩⟩
      exact (now.free page free).1 held

/-- No page in use is given away exactly if no table is needed early and the rest is reserved. -/
theorem boot_reservations_hold_iff (paging : Paging P4) (machine : UefiMachine) {frames : Frames} {last : State}
    (booted : detectFromFdt paging frames machine.toMachine = some last) :
    (∀ other after, detectFromFdt paging other machine.toMachine = some after → machine.Safe other after) ↔
      machine.TablesSafe ∧ machine.OthersReserved := by
  constructor
  · exact conditions_of_safe booted
  · rintro ⟨tables, others⟩ other after again
    exact safe_of_conditions tables others again

end UefiMachine

/-! A machine whose firmware maps the first GiB, with its tables in the first two usable pages. The kernel ends with a large
page, so that its stack lies in the next one. -/

def firstGiB : Table := fun level index =>
  if level = 3 ∧ index = 0 then .table else if level = 2 ∧ index = 0 then .page 0 else .unused

def twoEntries : MemoryMap where
  entries := [⟨.conventional, 0x40000000, 0x200⟩, ⟨.bootServicesData, 0x100000, 0xf00⟩]
  aligned := by decide
  disjoint := by decide

def laptop : UefiMachine where
  isUefi := true
  memory := twoEntries.nodes
  memoryReservations := []
  imageStart := 0x400000
  imageSize := 0x400000
  deviceTree := 0xa00123
  totalSize := 0x2000
  model := none
  table := firstGiB
  map := twoEntries
  pageTables := [0x100, 0x101]
  started := rfl
  described := rfl

def lowest : Frames := fun request => if request = 0 then some 0x100 else none

theorem laptop_booted :
    (detectFromFdt (radix P4) lowest laptop.toMachine).map (fun last => (last.free 0x101, last.free 0x805, last.mapper.requests)) =
      some (true, true, 1) := by
  decide +kernel

theorem laptop_gives_away_tables_and_stack :
    ∃ last, detectFromFdt (radix P4) lowest laptop.toMachine = some last ∧ 0 < last.mapper.requests ∧
      lowest 0 = some 0x100 ∧ 0x100 ∈ laptop.pageTables ∧ last.free 0x101 = true ∧ 0x101 ∈ laptop.pageTables ∧
      last.free 0x805 = true ∧ laptop.BootStack 0x805 ∧ ¬ laptop.Safe lowest last := by
  obtain ⟨last, booted, values⟩ := map_eq_some_iff.mp laptop_booted
  obtain ⟨table, values⟩ := Prod.mk.inj values
  obtain ⟨stack, requests⟩ := Prod.mk.inj values
  have inTables : (0x101 : Nat) ∈ laptop.pageTables := by decide
  refine ⟨last, booted, by omega, rfl, by decide, table, inTables, stack, ?_, ?_⟩
  · unfold UefiMachine.BootStack
    decide
  · intro safe
    exact (safe.free 0x101 table).1 (.inr (.inr (.inr (.inr inTables))))

theorem laptop_reservations_iff : (∃ last, detectFromFdt (radix P4) lowest laptop.toMachine = some last) ∧
      ((∀ other after, detectFromFdt (radix P4) other laptop.toMachine = some after → laptop.Safe other after) ↔
        laptop.TablesSafe ∧ laptop.OthersReserved) := by
  obtain ⟨last, booted, -⟩ := map_eq_some_iff.mp laptop_booted
  exact ⟨⟨last, booted⟩, UefiMachine.boot_reservations_hold_iff (radix P4) laptop booted⟩

end HermitLocal.Boot.Reservations
