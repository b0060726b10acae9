import HermitLocal.Lib.Align
import HermitLocal.Lib.PageTable

/-! The kernel heap as `mm::init` maps it: large pages up to the first huge page
boundary, then huge, large and base pages as long as the frame allocator answers.
Each page gets whatever frame the allocator returns for it. Page tables are those
of the architecture's four levels; a panic of the source is `none`. -/

namespace HermitLocal.Mm.Heap
open Lib.Align Lib.PageTable Option
open List hiding span

inductive PageSize where
  | base
  | large
  | huge
  deriving DecidableEq, Repr

def PageSize.level : PageSize → Nat
  | .base => 0
  | .large => 1
  | .huge => 2

def PageSize.size (S : PageSize) : Nat := span S.level

def P4 : Nat := 3

def PHYS_LIMIT : Nat := 2 ^ 52

structure FrameAlloc where
  allocate : Nat → Option Nat
  valid : ∀ request frame, allocate request = some frame → frame < PHYS_LIMIT

def virtualToPhysical (table : Table) (virtualAddress : Nat) : Option Nat :=
  (table.space P4).translate virtualAddress

variable (paging : Paging P4) (alloc : FrameAlloc)

def map (S : PageSize) (virtualAddress physicalAddress count : Nat) (mapper : Mapper) : Option Mapper :=
  (range count).foldlM (fun mapper i =>
    let page := alignDown virtualAddress S.size + i * S.size
    let frame := alignDown physicalAddress S.size + i * S.size
    (paging.mapTo alloc.allocate S.level page frame
      { mapper with table := paging.unmap S.level page mapper.table }).toOption) mapper

def mapHeapFrom (S : PageSize) (virtAddr mapCounter : Nat) : Nat → Mapper → Option (Except Nat Unit × Mapper)
  | 0, mapper => some (.ok (), mapper)
  | left + 1, mapper =>
    match alloc.allocate mapper.requests with
    | none => some (.error mapCounter, { mapper with requests := mapper.requests + 1 })
    | some physAddr => do
      let mapper ← map paging alloc S (virtAddr + mapCounter * S.size) physAddr 1
        { mapper with requests := mapper.requests + 1 }
      mapHeapFrom S virtAddr (mapCounter + 1) left mapper

def mapHeap (S : PageSize) (virtAddr count : Nat) (mapper : Mapper) : Option (Except Nat Unit × Mapper) :=
  mapHeapFrom paging alloc S virtAddr 0 count mapper

inductive HeapPolicy where
  | stackReserve
  | mman
  | commonOs
  deriving DecidableEq, Repr

structure Boot where
  totalMem : Nat
  isUefi : Bool
  kernelEnd : Nat
  ramAddress : Nat
  has1gibPages : Bool
  has2mibPages : Bool
  policy : HeapPolicy
  /-- The page range that `PageAlloc` reserves for the heap. -/
  virtAddr : Nat
  aligned : PageSize.large.size ∣ virtAddr

variable (boot : Boot)

def Boot.reservedSpace : Nat :=
  let npages := boot.totalMem / PageSize.base.size
  let npageDiv := PageSize.base.size / 8
  let npage3tables := npages / npageDiv + 1
  let npage2tables := npage3tables / npageDiv + 1
  let npage1tables := npage2tables / npageDiv + 1
  (npage3tables + npage2tables + npage1tables) * PageSize.base.size + 2 * PageSize.large.size

def Boot.minMem : Nat :=
  if boot.isUefi then boot.reservedSpace else boot.kernelEnd - boot.ramAddress + boot.reservedSpace

def Boot.virtSize : Option Nat :=
  if boot.totalMem < boot.minMem then none
  else
    let availMem := alignDown (boot.totalMem - boot.minMem) PageSize.large.size
    let size := match boot.policy with
      | .stackReserve => alignDown (availMem - 512 * 1024 * 1024) PageSize.large.size
      | .mman => alignDown (availMem * 75 / 100) PageSize.large.size
      | .commonOs => alignDown (min (availMem * 75 / 100) 0x04000000) PageSize.large.size
    if size = 0 then none else some size

structure Progress where
  mapAddr : Nat
  mapSize : Nat
  mapper : Mapper

def mapToBoundary (virtSize : Nat) (mapper : Mapper) : Option Progress :=
  if boot.has1gibPages ∧ virtSize > PageSize.huge.size then do
    let boundary := alignUp boot.virtAddr PageSize.huge.size
    let npages := (boundary - boot.virtAddr) / PageSize.large.size
    let mapped ← mapHeap paging alloc .large boot.virtAddr npages mapper
    let mapAddr := match mapped.1 with
      | .error n => boot.virtAddr + n * PageSize.large.size
      | .ok () => boundary
    pure ⟨mapAddr, virtSize - (mapAddr - boot.virtAddr), mapped.2⟩
  else pure ⟨boot.virtAddr, virtSize, mapper⟩

def mapPhase (S : PageSize) (supported : Bool) (progress : Progress) : Option Progress :=
  if supported ∧ progress.mapSize > S.size ∧ progress.mapAddr % S.size = 0 then do
    let size := alignDown progress.mapSize S.size
    let mapped ← mapHeap paging alloc S progress.mapAddr (size / S.size) progress.mapper
    let done := match mapped.1 with
      | .error numPages => numPages * S.size
      | .ok () => size
    pure ⟨progress.mapAddr + done, progress.mapSize - done, mapped.2⟩
  else pure progress

structure KernelHeap where
  start : Nat
  finish : Nat
  table : Table

def init (mapper : Mapper) : Option KernelHeap := do
  let virtSize ← boot.virtSize
  let bounded ← mapToBoundary paging alloc boot virtSize mapper
  let huge ← mapPhase paging alloc .huge boot.has1gibPages bounded
  let large ← mapPhase paging alloc .large boot.has2mibPages huge
  let base ← mapPhase paging alloc .base true large
  pure ⟨boot.virtAddr, base.mapAddr, base.mapper.table⟩

variable {paging} {alloc} {boot}

structure Covers (start finish : Nat) (table : Table) : Prop where
  mapped : ∀ a, start ≤ a → a < finish → (walk table a P4).isSome
  frames : ∀ a m, walk table a P4 = some m → m.frame < PHYS_LIMIT

theorem PageSize.size_pos (S : PageSize) : 0 < S.size := span_pos _

theorem PageSize.level_le (S : PageSize) : S.level ≤ P4 := by cases S <;> decide

variable {mapper after : Mapper} {S : PageSize} {finish start : Nat}

theorem map_page {virtualAddress physicalAddress : Nat}
    (mapped : map paging alloc S virtualAddress physicalAddress 1 mapper = some after) (a : Nat) :
    walk after.table a P4 =
      if a / S.size = virtualAddress / S.size then some ⟨S.size, alignDown physicalAddress S.size⟩
      else walk mapper.table a P4 := by
  simp only [map, range_one, foldlM_cons, foldlM_nil, Nat.zero_mul, Nat.add_zero,
    bind_pure] at mapped
  have walked := paging.walk_mapTo S.level_le (toOption_eq_some.mp mapped) a
  rw [show span S.level = S.size from rfl, alignDown_div S.size_pos] at walked
  rw [walked]
  split
  · rfl
  next other =>
    refine paging.walk_unmap _ S.level_le ?_
    rwa [show span S.level = S.size from rfl, alignDown_div S.size_pos]

/-! The pages that the heap is made of. -/

structure HeapPage where
  pageSize : PageSize
  address : Nat
  frame : Nat

def HeapPage.Holds (page : HeapPage) (a : Nat) : Prop := page.address ≤ a ∧ a < page.address + page.pageSize.size

instance (page : HeapPage) (a : Nat) : Decidable (page.Holds a) := inferInstanceAs (Decidable (_ ∧ _))

def Chained : Nat → List HeapPage → Nat → Prop
  | start, [], finish => start = finish
  | start, page :: rest, finish =>
    page.address = start ∧ page.pageSize.size ∣ start ∧ Chained (start + page.pageSize.size) rest finish

variable {pages : List HeapPage}

theorem Chained.le (chained : Chained start pages finish) : start ≤ finish := by
  induction pages generalizing start with
  | nil => exact Nat.le_of_eq chained
  | cons page rest ih => exact Nat.le_trans (Nat.le_add_right _ _) (ih chained.2.2)

theorem Chained.append {middle : Nat} {more : List HeapPage} (chained : Chained start pages middle)
    (behind : Chained middle more finish) : Chained start (pages ++ more) finish := by
  induction pages generalizing start with
  | nil => exact chained ▸ behind
  | cons page rest ih => exact ⟨chained.1, chained.2.1, ih chained.2.2⟩

def mappingAt (pages : List HeapPage) (a : Nat) : Option Mapping :=
  (pages.find? fun page => page.Holds a).map fun page => ⟨page.pageSize.size, page.frame⟩

theorem mappingAt_append (pages more : List HeapPage) (a : Nat) :
    mappingAt (pages ++ more) a = (mappingAt pages a).or (mappingAt more a) := by
  unfold mappingAt
  rw [find?_append, map_or]

theorem mappingAt_cons (page : HeapPage) (rest : List HeapPage) (a : Nat) : mappingAt (page :: rest) a =
      if page.Holds a then some ⟨page.pageSize.size, page.frame⟩ else mappingAt rest a := by
  unfold mappingAt
  by_cases holds : page.Holds a
  · rw [find?_cons_of_pos (by simpa using holds), if_pos holds, map_some]
  · rw [find?_cons_of_neg (by simpa using holds), if_neg holds]

theorem mem_of_mappingAt {a : Nat} {m : Mapping} (held : mappingAt pages a = some m) :
    ∃ page ∈ pages, (⟨page.pageSize.size, page.frame⟩ : Mapping) = m := by
  obtain ⟨page, found, same⟩ := map_eq_some_iff.mp held
  exact ⟨page, mem_of_find?_eq_some found, same⟩

theorem Chained.mappingAt_isSome (chained : Chained start pages finish) (a : Nat) :
    (mappingAt pages a).isSome ↔ start ≤ a ∧ a < finish := by
  induction pages generalizing start with
  | nil =>
    change false = true ↔ _
    have same : start = finish := chained
    simp only [Bool.false_eq_true, false_iff]
    omega
  | cons page rest ih =>
    obtain ⟨address, -, behind⟩ := chained
    have order := behind.le
    rw [mappingAt_cons]
    by_cases holds : page.Holds a
    · rw [if_pos holds]
      unfold HeapPage.Holds at holds
      simp only [isSome_some, true_iff]
      omega
    · rw [if_neg holds, ih behind]
      unfold HeapPage.Holds at holds
      omega

variable (alloc) in
structure Built (start : Nat) (pages : List HeapPage) (finish : Nat) (before after : Table) : Prop where
  chained : Chained start pages finish
  backed : ∀ page ∈ pages, ∃ request physAddr, alloc.allocate request = some physAddr ∧
    page.frame = alignDown physAddr page.pageSize.size
  walked : ∀ a, walk after a P4 = (mappingAt pages a).or (walk before a P4)

theorem Built.nil (start : Nat) (table : Table) : Built alloc start [] start table table where
  chained := rfl
  backed _ member := absurd member not_mem_nil
  walked _ := rfl

theorem Built.trans {middle : Nat} {more : List HeapPage} {before between after : Table}
    (first : Built alloc start pages middle before between)
    (second : Built alloc middle more finish between after) :
    Built alloc start (pages ++ more) finish before after where
  chained := first.chained.append second.chained
  backed page member := (mem_append.mp member).elim (first.backed page) (second.backed page)
  walked a := by
    rw [second.walked a, first.walked a, mappingAt_append]
    cases early : mappingAt pages a with
    | none => rfl
    | some mapping =>
      -- An address of the first pages lies before all of the others.
      have inside := (first.chained.mappingAt_isSome a).mp (by rw [early]; rfl)
      have apart : mappingAt more a = none := by
        rw [← not_isSome_iff_eq_none, second.chained.mappingAt_isSome a]
        omega
      rw [apart]
      rfl

theorem map_built {virtualAddress physicalAddress request : Nat} (aligned : S.size ∣ virtualAddress)
    (answer : alloc.allocate request = some physicalAddress)
    (mapped : map paging alloc S virtualAddress physicalAddress 1 mapper = some after) :
    Built alloc virtualAddress [⟨S, virtualAddress, alignDown physicalAddress S.size⟩] (virtualAddress + S.size)
      mapper.table after.table := by
  refine ⟨⟨rfl, aligned, rfl⟩, ?_, ?_⟩
  · intro page member
    rw [mem_singleton.mp member]
    exact ⟨request, physicalAddress, answer, rfl⟩
  · intro a
    obtain ⟨page, rfl⟩ := aligned
    rw [map_page mapped a, mappingAt_cons, Nat.mul_div_cancel_left _ S.size_pos]
    have same : a / S.size = page ↔ (⟨S, S.size * page, alignDown physicalAddress S.size⟩ : HeapPage).Holds a := by
      unfold HeapPage.Holds
      rw [Nat.div_eq_iff S.size_pos, Nat.mul_comm page]
      have positive := S.size_pos
      dsimp only
      omega
    by_cases holds : a / S.size = page
    · rw [if_pos holds, if_pos (same.mp holds)]
      rfl
    · rw [if_neg holds, if_neg (fun inside => holds (same.mpr inside))]
      rfl

theorem mapHeapFrom_built {virtAddr mapCounter left : Nat} {result : Except Nat Unit}
    (aligned : S.size ∣ virtAddr)
    (mapped : mapHeapFrom paging alloc S virtAddr mapCounter left mapper = some (result, after)) :
    ∃ count pages, count ≤ mapCounter + left ∧ (∀ page ∈ pages, page.pageSize = S) ∧
      Built alloc (virtAddr + mapCounter * S.size) pages (virtAddr + count * S.size) mapper.table after.table ∧
      (result = .error count ∨ result = .ok () ∧ count = mapCounter + left) := by
  induction left generalizing mapCounter mapper with
  | zero =>
    cases mapped
    exact ⟨mapCounter, [], le_rfl, by simp, Built.nil _ _, .inr ⟨rfl, rfl⟩⟩
  | succ left ih =>
    simp only [mapHeapFrom] at mapped
    split at mapped
    · cases mapped
      exact ⟨mapCounter, [], by omega, by simp, Built.nil _ _, .inl rfl⟩
    next physAddr answer =>
      obtain ⟨next, page, rest⟩ := bind_eq_some_iff.mp mapped
      obtain ⟨count, pages, bound, sizes, built, outcome⟩ := ih rest
      have step := map_built (Nat.dvd_add aligned (Nat.dvd_mul_left _ _)) answer page
      rw [Nat.add_assoc, ← Nat.succ_mul] at step
      rw [show mapCounter + 1 + left = mapCounter + (left + 1) by omega] at bound outcome
      refine ⟨count, _, bound, ?_, step.trans built, outcome⟩
      intro other member
      rcases mem_cons.mp member with first | behind
      · rw [first]
      · exact sizes other behind

theorem mapHeap_built {virtAddr count : Nat} {result : Except Nat Unit} (aligned : S.size ∣ virtAddr)
    (mapped : mapHeap paging alloc S virtAddr count mapper = some (result, after)) :
    ∃ done pages, done ≤ count ∧ (∀ page ∈ pages, page.pageSize = S) ∧
      Built alloc virtAddr pages (virtAddr + done * S.size) mapper.table after.table ∧
      (result = .error done ∨ result = .ok () ∧ done = count) := by
  have finished := mapHeapFrom_built aligned mapped
  simpa only [Nat.zero_mul, Nat.add_zero, Nat.zero_add] using finished

variable (alloc) in
structure Phase (S : PageSize) (before after : Progress) (pages : List HeapPage) : Prop where
  sizes : ∀ page ∈ pages, page.pageSize = S
  built : Built alloc before.mapAddr pages after.mapAddr before.mapper.table after.mapper.table
  left : after.mapAddr + after.mapSize = before.mapAddr + before.mapSize

theorem Phase.skipped (S : PageSize) (progress : Progress) : Phase alloc S progress progress [] :=
  ⟨by simp, Built.nil _ _, rfl⟩

theorem boundary_eq (boot : Boot) : ∃ npages, alignUp boot.virtAddr PageSize.huge.size =
    boot.virtAddr + npages * PageSize.large.size ∧ npages * PageSize.large.size < PageSize.huge.size := by
  have whole : PageSize.large.size ∣ alignUp boot.virtAddr PageSize.huge.size :=
    Nat.dvd_mul_left_of_dvd (span_dvd (by decide)) _
  have above := le_alignUp PageSize.huge.size_pos boot.virtAddr
  obtain ⟨npages, distance⟩ := Nat.dvd_sub whole boot.aligned
  rw [Nat.mul_comm] at distance
  have short := alignUp_lt PageSize.huge.size_pos boot.virtAddr
  exact ⟨npages, by omega, by omega⟩

theorem mapToBoundary_phase {virtSize : Nat} {progress : Progress}
    (mapped : mapToBoundary paging alloc boot virtSize mapper = some progress) :
    ∃ pages, Phase alloc .large ⟨boot.virtAddr, virtSize, mapper⟩ progress pages := by
  unfold mapToBoundary at mapped
  split at mapped
  next enabled =>
    obtain ⟨npages, boundary, short⟩ := boundary_eq boot
    obtain ⟨⟨result, after⟩, run, finished⟩ := bind_eq_some_iff.mp mapped
    cases finished
    rw [boundary, Nat.add_sub_cancel_left, Nat.mul_div_cancel _ PageSize.large.size_pos] at run
    obtain ⟨done, pages, bound, sizes, built, outcome⟩ := mapHeap_built boot.aligned run
    have fits : done * PageSize.large.size ≤ virtSize :=
      (Nat.mul_le_mul_right _ bound).trans (short.le.trans enabled.2.le)
    refine ⟨pages, sizes, ?_, ?_⟩
    · rcases outcome with rfl | ⟨rfl, rfl⟩
      · exact built
      · exact boundary ▸ built
    · rcases outcome with rfl | ⟨rfl, rfl⟩
      · change boot.virtAddr + done * PageSize.large.size +
          (virtSize - (boot.virtAddr + done * PageSize.large.size - boot.virtAddr)) = boot.virtAddr + virtSize
        omega
      · dsimp only
        omega
  · cases mapped
    exact ⟨[], Phase.skipped .large _⟩

theorem mapPhase_phase {supported : Bool} {progress after : Progress}
    (mapped : mapPhase paging alloc S supported progress = some after) : ∃ pages, Phase alloc S progress after pages := by
  unfold mapPhase at mapped
  split at mapped
  next enabled =>
    obtain ⟨⟨result, mapper⟩, run, finished⟩ := bind_eq_some_iff.mp mapped
    cases finished
    obtain ⟨done, pages, bound, sizes, built, outcome⟩ := mapHeap_built (Nat.dvd_of_mod_eq_zero enabled.2.2) run
    have rounded := alignDown_div_mul progress.mapSize S.size
    have fits : done * S.size ≤ progress.mapSize := by
      calc done * S.size ≤ alignDown progress.mapSize S.size / S.size * S.size := Nat.mul_le_mul_right _ bound
        _ = alignDown progress.mapSize S.size := rounded
        _ ≤ progress.mapSize := alignDown_le _ _
    refine ⟨pages, sizes, ?_, ?_⟩
    · rcases outcome with rfl | ⟨rfl, rfl⟩
      · exact built
      · exact rounded ▸ built
    · rcases outcome with rfl | ⟨rfl, rfl⟩
      · change progress.mapAddr + done * S.size + (progress.mapSize - done * S.size) = _
        omega
      · dsimp only
        omega
  · cases mapped
    exact ⟨[], Phase.skipped S progress⟩

theorem init_phases {heap : KernelHeap} (started : init paging alloc boot mapper = some heap) :
    ∃ virtSize bounded huge large base first second third fourth, boot.virtSize = some virtSize ∧
      mapToBoundary paging alloc boot virtSize mapper = some bounded ∧
      mapPhase paging alloc .huge boot.has1gibPages bounded = some huge ∧
      mapPhase paging alloc .large boot.has2mibPages huge = some large ∧ mapPhase paging alloc .base true large = some base ∧
      Phase alloc .large ⟨boot.virtAddr, virtSize, mapper⟩ bounded first ∧ Phase alloc .huge bounded huge second ∧
      Phase alloc .large huge large third ∧ Phase alloc .base large base fourth ∧
      heap = ⟨boot.virtAddr, base.mapAddr, base.mapper.table⟩ := by
  obtain ⟨virtSize, sized, started⟩ := bind_eq_some_iff.mp started
  obtain ⟨bounded, one, started⟩ := bind_eq_some_iff.mp started
  obtain ⟨huge, two, started⟩ := bind_eq_some_iff.mp started
  obtain ⟨large, three, started⟩ := bind_eq_some_iff.mp started
  obtain ⟨base, four, started⟩ := bind_eq_some_iff.mp started
  cases started
  obtain ⟨first, firstPhase⟩ := mapToBoundary_phase one
  obtain ⟨second, secondPhase⟩ := mapPhase_phase two
  obtain ⟨third, thirdPhase⟩ := mapPhase_phase three
  obtain ⟨fourth, fourthPhase⟩ := mapPhase_phase four
  exact ⟨virtSize, bounded, huge, large, base, first, second, third, fourth, sized, one, two, three, four, firstPhase,
    secondPhase, thirdPhase, fourthPhase, rfl⟩

theorem init_covers {heap : KernelHeap} (valid : ∀ a m, walk mapper.table a P4 = some m → m.frame < PHYS_LIMIT)
    (started : init paging alloc boot mapper = some heap) : Covers heap.start heap.finish heap.table := by
  obtain ⟨_, _, _, _, _, first, second, third, fourth, -, -, -, -, -, one, two, three, four, rfl⟩ := init_phases started
  have whole := ((one.built.trans two.built).trans three.built).trans four.built
  refine ⟨fun a above below => ?_, fun a m walked => ?_⟩
  · have held := (whole.chained.mappingAt_isSome a).mpr ⟨above, below⟩
    rw [whole.walked a, isSome_or, held, Bool.true_or]
  · rw [whole.walked a, or_eq_some_iff] at walked
    rcases walked with held | ⟨-, earlier⟩
    · obtain ⟨page, member, rfl⟩ := mem_of_mappingAt held
      obtain ⟨request, physAddr, allocated, frame⟩ := whole.backed page member
      calc page.frame = alignDown physAddr page.pageSize.size := frame
        _ ≤ physAddr := alignDown_le _ _
        _ < PHYS_LIMIT := alloc.valid _ _ allocated
    · exact valid a m earlier

/-- The heap is just the pages that the four phases have mapped, one after the other. -/
theorem heap_is_what_was_mapped {mapper : Mapper} {heap : KernelHeap} (started : init paging alloc boot mapper = some heap) :
    ∃ virtSize bounded huge large base, boot.virtSize = some virtSize ∧
      mapToBoundary paging alloc boot virtSize mapper = some bounded ∧
      mapPhase paging alloc .huge boot.has1gibPages bounded = some huge ∧
      mapPhase paging alloc .large boot.has2mibPages huge = some large ∧ mapPhase paging alloc .base true large = some base ∧
      (∀ progress ∈ [bounded, huge, large, base], progress.mapAddr + progress.mapSize = boot.virtAddr + virtSize) ∧
      heap.start = boot.virtAddr ∧ heap.finish = base.mapAddr ∧
      ∃ first second third fourth : List HeapPage,
        (∀ page ∈ first, page.pageSize = .large) ∧ (∀ page ∈ second, page.pageSize = .huge) ∧
        (∀ page ∈ third, page.pageSize = .large) ∧ (∀ page ∈ fourth, page.pageSize = .base) ∧
        Chained heap.start first bounded.mapAddr ∧ Chained bounded.mapAddr second huge.mapAddr ∧
        Chained huge.mapAddr third large.mapAddr ∧ Chained large.mapAddr fourth heap.finish ∧
        (∀ page ∈ first ++ second ++ third ++ fourth, ∃ request physAddr, alloc.allocate request = some physAddr ∧
          page.frame = alignDown physAddr page.pageSize.size) ∧
        (∀ a, walk heap.table a P4 = (mappingAt (first ++ second ++ third ++ fourth) a).or (walk mapper.table a P4)) ∧
        ∀ a, (mappingAt (first ++ second ++ third ++ fourth) a).isSome ↔ heap.start ≤ a ∧ a < heap.finish := by
  obtain ⟨virtSize, bounded, huge, large, base, first, second, third, fourth, sized, one, two, three, four, firstPhase,
    secondPhase, thirdPhase, fourthPhase, rfl⟩ := init_phases started
  have left : ∀ progress ∈ [bounded, huge, large, base], progress.mapAddr + progress.mapSize = boot.virtAddr + virtSize := by
    have firstLeft : bounded.mapAddr + bounded.mapSize = boot.virtAddr + virtSize := firstPhase.left
    have secondLeft := secondPhase.left
    have thirdLeft := thirdPhase.left
    have fourthLeft := fourthPhase.left
    simp only [forall_mem_cons, not_mem_nil, false_imp_iff, implies_true, and_true]
    omega
  have whole := ((firstPhase.built.trans secondPhase.built).trans thirdPhase.built).trans fourthPhase.built
  exact ⟨virtSize, bounded, huge, large, base, sized, one, two, three, four, left, rfl, rfl, first, second, third, fourth,
    firstPhase.sizes, secondPhase.sizes, thirdPhase.sizes, fourthPhase.sizes, firstPhase.built.chained,
    secondPhase.built.chained, thirdPhase.built.chained, fourthPhase.built.chained, whole.backed, whole.walked,
    whole.chained.mappingAt_isSome⟩

def unalignedBoot : Boot where
  totalMem := 1550 * 1024 * 1024
  isUefi := true
  kernelEnd := 0
  ramAddress := 0
  has1gibPages := true
  has2mibPages := true
  policy := .stackReserve
  virtAddr := 2 ^ 46 + 2 ^ 30 - 2 ^ 21
  aligned := by decide

def scarceFrames : FrameAlloc where
  allocate request := if request = 6 ∨ 10 ≤ request then none else some ((request + 1) * 2 ^ 30)
  valid := by
    intro request frame answer
    split at answer
    · cases answer
    · cases answer
      unfold PHYS_LIMIT
      omega

def noTables : Mapper := ⟨fun _ _ => .unused, 0⟩

theorem unaligned_heap_is_mapped : ∃ heap pages, init (radix P4) scarceFrames unalignedBoot noTables = some heap ∧
    heap.start = 2 ^ 46 + 2 ^ 30 - 2 ^ 21 ∧ heap.finish = 2 ^ 46 + 2 ^ 31 + 2 ^ 21 + 2 * 4096 ∧
    (∀ a, walk heap.table a P4 = (mappingAt pages a).or (walk noTables.table a P4)) ∧
    ∀ a, (mappingAt pages a).isSome ↔ heap.start ≤ a ∧ a < heap.finish := by
  have evaluated : (init (radix P4) scarceFrames unalignedBoot noTables).map (fun heap => (heap.start, heap.finish)) =
      some (2 ^ 46 + 2 ^ 30 - 2 ^ 21, 2 ^ 46 + 2 ^ 31 + 2 ^ 21 + 2 * 4096) := by
    decide +kernel
  obtain ⟨heap, started, bounds⟩ := map_eq_some_iff.mp evaluated
  simp only [Prod.mk.injEq] at bounds
  obtain ⟨-, -, -, -, -, -, -, -, -, -, -, -, -, first, second, third, fourth, -, -, -, -, -, -, -, -, -, walked, held⟩ :=
    heap_is_what_was_mapped started
  exact ⟨heap, first ++ second ++ third ++ fourth, started, bounds.1, bounds.2, walked, held⟩

end HermitLocal.Mm.Heap
