import HermitLocal.Lib.Simulation
import HermitLocal.Runtime.Allocator
import Mathlib.Data.List.Pairwise

/-! Runs of the C allocation functions. The blocks handed out and not yet freed are
kept beside the memory; as long as no sum wraps they lie apart, and the header in
front of each still says what was asked for when the block is given back. -/

namespace HermitLocal.Runtime.Blocks
open Lib.Align Lib.Wire Lib.ByteMemory Lib.Simulation Runtime.Allocator List

structure Block where
  size : Nat
  alignment : Nat
  ptr : Nat
  raw : Nat
  total : Nat
  align : Nat
  deriving DecidableEq, Repr

def blockFor (heap : Heap) (size alignment ptr : Nat) : Block :=
  ⟨size, alignment, ptr, rawFor heap size alignment, totalFor size alignment, alignFor alignment⟩

structure Process where
  memory : Memory
  live : List Block

inductive Call where
  | mallocAligned (heap : Heap) (size alignment : Nat)
  | calloc (heap : Heap) (count size : Nat)
  | posixMemalign (heap : Heap) (alignment size : Nat)
  | realloc (heap : Heap) (ptr newSize : Nat)
  | free (ptr : Nat)
  | write (place : Nat) (byte : UInt8)

def handOut (live : List Block) (block : Block) : List Block := if block.ptr = 0 then live else block :: live

def giveBack (live : List Block) (ptr : Nat) : List Block := live.filter fun block => block.ptr ≠ ptr

def step (process : Process) : Call → Process
  | .mallocAligned heap size alignment =>
    let result := mallocAligned process.memory heap size alignment
    ⟨result.2, handOut process.live (blockFor heap size alignment result.1)⟩
  | .calloc heap count size =>
    let result := calloc process.memory heap count size
    ⟨result.2, handOut process.live (blockFor heap (count * size) 16 result.1)⟩
  | .posixMemalign heap alignment size =>
    let result := posixMemalign process.memory heap alignment size
    match result.1 with
    | .ok ptr => ⟨result.2, handOut process.live (blockFor heap size alignment ptr)⟩
    | .error _ => ⟨result.2, process.live⟩
  | .realloc heap ptr newSize =>
    let result := realloc process.memory heap ptr newSize
    let live := if ptr ≠ 0 ∧ (newSize = 0 ∨ result.ptr ≠ 0) then giveBack process.live ptr else process.live
    ⟨result.memory, handOut live (blockFor heap newSize 16 result.ptr)⟩
  | .free ptr => ⟨process.memory, giveBack process.live ptr⟩
  | .write place byte => ⟨store process.memory place [byte], process.live⟩

def Honest (heap : Heap) (live : List Block) : Prop :=
  Sane heap ∧ ∀ layout, heap layout ≠ 0 → ∀ block ∈ live,
    heap layout + layout.size ≤ block.raw ∨ block.raw + block.total ≤ heap layout

def Harmless (live : List Block) (place : Nat) : Prop :=
  ∀ block ∈ live, block.raw ≤ place → place < block.raw + block.total →
    block.ptr ≤ place ∧ place < block.ptr + block.size

def InUse (live : List Block) (ptr : Nat) : Prop := ptr = 0 ∨ ∃ block ∈ live, block.ptr = ptr

def Allowed (process : Process) : Call → Prop
  | .mallocAligned heap size alignment =>
    Honest heap process.live ∧ size < WORD ∧ ∃ exponent < 64, alignment = 2 ^ exponent
  | .calloc heap _ _ => Honest heap process.live
  | .posixMemalign heap alignment size => Honest heap process.live ∧ size < WORD ∧ alignment < WORD
  | .realloc heap ptr newSize => Honest heap process.live ∧ newSize < WORD ∧ InUse process.live ptr
  | .free ptr => InUse process.live ptr
  | .write place _ => Harmless process.live place

def Fits (heap : Heap) (size alignment : Nat) : Prop :=
  exactTotal size alignment < WORD ∨ rawFor heap size alignment = 0

def CallFits : Call → Prop
  | .mallocAligned heap size alignment => Fits heap size alignment
  | .calloc heap count size => WORD ≤ count * size ∨ Fits heap (count * size) 16
  | .posixMemalign heap alignment size => Fits heap size alignment
  | .realloc heap _ newSize => Fits heap newSize 16
  | .free _ => True
  | .write _ _ => True

section Headers
variable {memory : Memory} {place : Nat}

theorem readHeader_writeHeader {header : AllocHeader} (raw : header.raw < WORD) (total : header.total < WORD)
    (align : header.align < WORD) : readHeader (writeHeader memory place header) place = header := by
  unfold readHeader writeHeader
  rw [loadWord_storeWord_apart (by omega), loadWord_storeWord_apart (by omega), loadWord_storeWord raw,
    loadWord_storeWord_apart (by omega), loadWord_storeWord total, loadWord_storeWord align]

theorem writeHeader_outside {start : Nat} {header : AllocHeader}
    (outside : place < start ∨ start + HEADER_SIZE ≤ place) : writeHeader memory start header place = memory place := by
  unfold writeHeader HEADER_SIZE at *
  rw [storeWord_outside (by omega), storeWord_outside (by omega), storeWord_outside (by omega)]

theorem readHeader_congr {other : Memory} {start : Nat}
    (same : ∀ place, start ≤ place → place < start + HEADER_SIZE → memory place = other place) :
    readHeader memory start = readHeader other start := by
  unfold readHeader HEADER_SIZE at *
  rw [loadWord_congr fun place _ _ => same place (by omega) (by omega),
    loadWord_congr fun place _ _ => same place (by omega) (by omega),
    loadWord_congr fun place _ _ => same place (by omega) (by omega)]

variable {ptr : Nat}

theorem headerOf_eq (above : HEADER_SIZE ≤ ptr) (below : ptr < WORD) : headerOf ptr = ptr - HEADER_SIZE := by
  unfold headerOf HEADER_SIZE WORD at *
  omega

end Headers

section Invariant

structure Placed (memory : Memory) (block : Block) : Prop where
  contained : Contained block.raw block.total block.ptr block.size block.alignment
  total : block.total = exactTotal block.size block.alignment
  align : block.align = alignFor block.alignment
  raw : block.raw ≠ 0
  bound : block.raw + block.total ≤ 2 ^ 63
  layout : layoutFor block.total block.align = some ⟨block.total, block.align⟩
  header : readHeader memory (block.ptr - HEADER_SIZE) = ⟨block.raw, block.total, block.align⟩

def Apart (first second : Block) : Prop :=
  first.raw + first.total ≤ second.raw ∨ second.raw + second.total ≤ first.raw

structure Sound (process : Process) : Prop where
  placed : ∀ block ∈ process.live, Placed process.memory block
  apart : process.live.Pairwise Apart

variable {memory other : Memory} {live : List Block} {block : Block} {heap : Heap} {size alignment : Nat}

theorem Placed.congr (placed : Placed memory block)
    (same : ∀ place, block.ptr - HEADER_SIZE ≤ place → place < block.ptr → other place = memory place) :
    Placed other block := by
  have above := placed.contained.header
  refine { placed with header := ?_ }
  rw [← placed.header]
  apply readHeader_congr
  intro place start stop
  exact same place start (by omega)

theorem Sound.congr (sound : Sound ⟨memory, live⟩)
    (harmless : ∀ place, other place ≠ memory place → Harmless live place) : Sound ⟨other, live⟩ := by
  refine ⟨?_, sound.apart⟩
  intro block member
  have placed := sound.placed block member
  apply placed.congr
  intro place start stop
  by_contra changed
  -- a header is inside its block and in front of the bytes asked for
  have above := placed.contained.header
  have inside := placed.contained.payload
  have open_ := harmless place changed block member (by omega) (by omega)
  omega

theorem Sound.sublist {fewer : List Block} (sound : Sound ⟨memory, live⟩) (sublist : fewer.Sublist live) :
    Sound ⟨memory, fewer⟩ :=
  ⟨fun block member => sound.placed block (sublist.subset member), sound.apart.sublist sublist⟩

theorem Sound.giveBack (sound : Sound ⟨memory, live⟩) (ptr : Nat) : Sound ⟨memory, giveBack live ptr⟩ :=
  sound.sublist filter_sublist

instance : Std.Symm Apart := ⟨fun _ _ apart => Or.symm apart⟩

theorem Sound.store (sound : Sound ⟨memory, live⟩) (member : block ∈ live) (bytes : List UInt8)
    (short : bytes.length ≤ block.size) : Sound ⟨store memory block.ptr bytes, live⟩ := by
  apply sound.congr
  intro place changed other present start stop
  have inside : block.ptr ≤ place ∧ place < block.ptr + bytes.length := by
    by_contra outside
    apply changed
    apply store_outside
    omega
  by_cases same : block = other
  · subst same
    omega
  · have apart := sound.apart.forall member present same
    have above := (sound.placed block member).contained.header
    have below := (sound.placed block member).contained.payload
    unfold Apart at apart
    omega

theorem Placed.ptr_ne (placed : Placed memory block) : block.ptr ≠ 0 := by
  have above := placed.contained.header
  unfold HEADER_SIZE at above
  omega

theorem Placed.free (placed : Placed memory block) :
    free memory block.ptr = some (block.raw, ⟨block.total, block.align⟩) := by
  have above := placed.contained.header
  have below : block.ptr < WORD := by
    have inside := placed.contained.payload
    have bound := placed.bound
    unfold WORD
    omega
  unfold Allocator.free
  rw [if_neg placed.ptr_ne, headerOf_eq (by omega) below, placed.header]
  rw [bitappFree, if_neg placed.raw, placed.layout]
  rfl

end Invariant

section Grants
variable {memory : Memory} {live : List Block} {heap : Heap} {size exponent : Nat}

theorem totalFor_eq (fits : exactTotal size (2 ^ exponent) < WORD) :
    totalFor size (2 ^ exponent) = exactTotal size (2 ^ exponent) := Nat.mod_eq_of_lt fits

theorem exactTotal_pos (size alignment : Nat) : 1 ≤ exactTotal size alignment := by
  unfold exactTotal HEADER_SIZE
  omega

theorem grant_bounds (sane : Sane heap) (granted : rawFor heap size (2 ^ exponent) ≠ 0)
    (fits : exactTotal size (2 ^ exponent) < WORD) :
    rawFor heap size (2 ^ exponent) + totalFor size (2 ^ exponent) ≤ 2 ^ 63 ∧
      layoutFor (totalFor size (2 ^ exponent)) (alignFor (2 ^ exponent)) =
        some ⟨totalFor size (2 ^ exponent), alignFor (2 ^ exponent)⟩ ∧
      headerOf (startFor heap size (2 ^ exponent)) = startFor heap size (2 ^ exponent) - HEADER_SIZE := by
  have known := rawFor_granted sane granted
  have whole : max (totalFor size (2 ^ exponent)) 1 = totalFor size (2 ^ exponent) := by
    rw [totalFor_eq fits]
    exact max_eq_left (exactTotal_pos size (2 ^ exponent))
  have bound : rawFor heap size (2 ^ exponent) + totalFor size (2 ^ exponent) ≤ 2 ^ 63 := by
    have all := known.bound
    rwa [whole] at all
  have layout := known.layout
  rw [whole] at layout
  apply And.intro bound
  apply And.intro layout
  have above := (contained_of_fits sane granted fits).header
  have inside := (contained_of_fits sane granted fits).payload
  apply headerOf_eq
  · omega
  · unfold WORD
    omega

theorem placed_new (memory : Memory) (sane : Sane heap) (granted : rawFor heap size (2 ^ exponent) ≠ 0)
    (fits : exactTotal size (2 ^ exponent) < WORD) : Placed (mallocAligned memory heap size (2 ^ exponent)).2
      (blockFor heap size (2 ^ exponent) (startFor heap size (2 ^ exponent))) := by
  obtain ⟨bound, layout, place⟩ := grant_bounds sane granted fits
  have small := (rawFor_granted sane granted).small
  have total := totalFor_eq fits
  rw [mallocAligned_granted memory granted]
  refine ⟨contained_of_fits sane granted fits, total, rfl, granted, bound, layout, ?_⟩
  rw [place]
  apply readHeader_writeHeader
  · unfold WORD
    dsimp only
    omega
  · rw [total]
    exact fits
  · unfold WORD
    dsimp only
    omega

theorem mallocAligned_frame (memory : Memory) (sane : Sane heap) (granted : rawFor heap size (2 ^ exponent) ≠ 0)
    (fits : exactTotal size (2 ^ exponent) < WORD)
    (changed : (mallocAligned memory heap size (2 ^ exponent)).2 place ≠ memory place) :
    startFor heap size (2 ^ exponent) - HEADER_SIZE ≤ place ∧ place < startFor heap size (2 ^ exponent) := by
  have above := (contained_of_fits sane granted fits).header
  rw [mallocAligned_granted memory granted] at changed
  by_contra outside
  apply changed
  rw [(grant_bounds sane granted fits).2.2]
  apply writeHeader_outside
  omega

theorem apart_new (honest : Honest heap live) (granted : rawFor heap size (2 ^ exponent) ≠ 0)
    (fits : exactTotal size (2 ^ exponent) < WORD) (ptr : Nat) :
    ∀ block ∈ live, Apart (blockFor heap size (2 ^ exponent) ptr) block := by
  intro block member
  have layout := (grant_bounds honest.1 granted fits).2.1
  have answer : rawFor heap size (2 ^ exponent) =
      heap ⟨totalFor size (2 ^ exponent), alignFor (2 ^ exponent)⟩ := by
    rw [rawFor, bitappMalloc, layout, Option.elim_some]
  dsimp only [blockFor]
  rw [answer] at granted ⊢
  exact honest.2 _ granted block member

theorem sound_malloc (exponent : Nat) (sound : Sound ⟨memory, live⟩) (honest : Honest heap live)
    (fits : Fits heap size (2 ^ exponent)) : Sound ⟨(mallocAligned memory heap size (2 ^ exponent)).2,
      handOut live (blockFor heap size (2 ^ exponent) (mallocAligned memory heap size (2 ^ exponent)).1)⟩ := by
  by_cases refused : rawFor heap size (2 ^ exponent) = 0
  · rw [mallocAligned_refused memory refused]
    exact sound
  · have exact_ := fits.resolve_right refused
    have contained := contained_of_fits honest.1 refused exact_
    have apart := apart_new honest refused exact_ (startFor heap size (2 ^ exponent))
    have placed := placed_new memory honest.1 refused exact_
    have kept : Sound ⟨(mallocAligned memory heap size (2 ^ exponent)).2, live⟩ := by
      apply sound.congr
      intro place changed block member start stop
      -- the new header lies in the new block, which no block in use touches
      have inside := mallocAligned_frame memory honest.1 refused exact_ changed
      have above := contained.header
      have below := contained.payload
      have between := apart block member
      simp only [Apart, blockFor] at between
      omega
    have positive : startFor heap size (2 ^ exponent) ≠ 0 := by
      have above := contained.header
      omega
    have pointer : (mallocAligned memory heap size (2 ^ exponent)).1 = startFor heap size (2 ^ exponent) := by
      rw [mallocAligned_granted memory refused]
    have added : handOut live (blockFor heap size (2 ^ exponent) (startFor heap size (2 ^ exponent))) =
        blockFor heap size (2 ^ exponent) (startFor heap size (2 ^ exponent)) :: live := if_neg positive
    rw [pointer, added]
    apply Sound.mk
    · rw [forall_mem_cons]
      exact ⟨placed, kept.placed⟩
    · exact List.Pairwise.cons apart sound.apart

theorem sound_filled (sound : Sound ⟨memory, live⟩) (honest : Honest heap live) (fits : Fits heap size 16)
    (present : (malloc memory heap size).1 ≠ 0) (bytes : List UInt8) (short : bytes.length ≤ size) :
    Sound ⟨store (malloc memory heap size).2 (malloc memory heap size).1 bytes,
      blockFor heap size 16 (malloc memory heap size).1 :: live⟩ := by
  have added : handOut live (blockFor heap size 16 (malloc memory heap size).1) =
      blockFor heap size 16 (malloc memory heap size).1 :: live := if_neg present
  have next : Sound ⟨(malloc memory heap size).2,
      handOut live (blockFor heap size 16 (malloc memory heap size).1)⟩ := sound_malloc 4 sound honest fits
  rw [added] at next
  exact next.store mem_cons_self bytes short

theorem calloc_eq (memory : Memory) (heap : Heap) {count : Nat} (short : count * size < WORD) :
    calloc memory heap count size =
      if (malloc memory heap (count * size)).1 ≠ 0 then
        ((malloc memory heap (count * size)).1, store (malloc memory heap (count * size)).2
          (malloc memory heap (count * size)).1 (replicate (count * size) 0))
      else malloc memory heap (count * size) := by
  have passes : ¬(size ≠ 0 ∧ count > (WORD - 1) / size) := by
    rw [product_check]
    exact Nat.not_le.mpr short
  unfold calloc
  rw [if_neg passes, Nat.mod_eq_of_lt short]

theorem sound_calloc (sound : Sound ⟨memory, live⟩) (honest : Honest heap live) {count : Nat}
    (fits : WORD ≤ count * size ∨ Fits heap (count * size) 16) : Sound ⟨(calloc memory heap count size).2,
      handOut live (blockFor heap (count * size) 16 (calloc memory heap count size).1)⟩ := by
  by_cases long : WORD ≤ count * size
  · have refused : calloc memory heap count size = (0, memory) := if_pos (product_check.mpr long)
    rw [refused]
    exact sound
  · have room := fits.resolve_left long
    rw [calloc_eq memory heap (Nat.not_le.mp long)]
    split
    next present =>
      have added : handOut live (blockFor heap (count * size) 16 (malloc memory heap (count * size)).1) =
          blockFor heap (count * size) 16 (malloc memory heap (count * size)).1 :: live := if_neg present
      dsimp only
      rw [added]
      exact sound_filled sound honest room present _ (length_replicate ..).le
    · exact sound_malloc 4 sound honest room

def oldPayload (memory : Memory) (ptr : Nat) : Nat :=
  ((readHeader memory (headerOf ptr)).total + (WORD - HEADER_SIZE)) % WORD

variable {newSize : Nat}

theorem realloc_refused (memory : Memory) (present : ptr ≠ 0) (some : newSize ≠ 0)
    (refused : (malloc memory heap newSize).1 = 0) :
    realloc memory heap ptr newSize = ⟨0, (malloc memory heap newSize).2, none, none⟩ := by
  unfold realloc
  rw [if_neg present, if_neg some]
  rw [if_neg (not_not.mpr refused), refused]

theorem realloc_granted (memory : Memory) (present : ptr ≠ 0) (some : newSize ≠ 0)
    (granted : (malloc memory heap newSize).1 ≠ 0) : realloc memory heap ptr newSize =
      ⟨(malloc memory heap newSize).1,
        store (malloc memory heap newSize).2 (malloc memory heap newSize).1
          (load (malloc memory heap newSize).2 ptr (min (oldPayload memory ptr) newSize)),
        Option.some (ptr, min (oldPayload memory ptr) newSize),
        free (store (malloc memory heap newSize).2 (malloc memory heap newSize).1
          (load (malloc memory heap newSize).2 ptr (min (oldPayload memory ptr) newSize))) ptr⟩ := by
  unfold realloc
  rw [if_neg present, if_neg some]
  exact if_pos granted

theorem sound_realloc (sound : Sound ⟨memory, live⟩) (honest : Honest heap live)
    (fits : Fits heap newSize 16) : Sound (step ⟨memory, live⟩ (.realloc heap ptr newSize)) := by
  have next : Sound ⟨(malloc memory heap newSize).2,
      handOut live (blockFor heap newSize 16 (malloc memory heap newSize).1)⟩ := sound_malloc 4 sound honest fits
  unfold step
  by_cases null : ptr = 0
  · have plain : realloc memory heap ptr newSize =
        ⟨(malloc memory heap newSize).1, (malloc memory heap newSize).2, none, none⟩ := if_pos null
    dsimp only
    rw [plain, if_neg (by simp [null])]
    exact next
  · by_cases zero : newSize = 0
    · have freed : realloc memory heap ptr newSize = ⟨0, memory, none, free memory ptr⟩ := by
        rw [realloc, if_neg null, if_pos zero]
      dsimp only
      rw [freed, if_pos ⟨null, .inl zero⟩]
      exact sound.giveBack ptr
    · by_cases refused : (malloc memory heap newSize).1 = 0
      · rw [refused] at next
        dsimp only
        rw [realloc_refused memory null zero refused, if_neg (by simp [zero])]
        exact next
      · have added : handOut (giveBack live ptr) (blockFor heap newSize 16 (malloc memory heap newSize).1) =
            blockFor heap newSize 16 (malloc memory heap newSize).1 :: giveBack live ptr := if_neg refused
        dsimp only
        rw [realloc_granted memory null zero refused, if_pos ⟨null, .inr refused⟩]
        dsimp only
        rw [added]
        have copied := sound_filled sound honest fits refused
          (load (malloc memory heap newSize).2 ptr (min (oldPayload memory ptr) newSize))
          (by rw [load_length]; exact min_le_right _ _)
        exact copied.sublist (List.Sublist.cons_cons _ filter_sublist)

theorem posixMemalign_power {alignment : Nat} (small : alignment < WORD)
    (passes : ¬(alignment < 8 ∨ alignment &&& (alignment - 1) ≠ 0)) : ∃ exponent < 64, alignment = 2 ^ exponent := by
  rw [not_or, not_not] at passes
  obtain ⟨exponent, power⟩ := (Nat.and_sub_one_eq_zero_iff_isPowerOfTwo (by omega)).mp passes.2
  exists exponent
  apply And.intro _ power
  rw [power] at small
  exact (Nat.pow_lt_pow_iff_right Nat.one_lt_two).mp small

theorem sound_posixMemalign (sound : Sound ⟨memory, live⟩) (honest : Honest heap live) {alignment : Nat}
    (small : alignment < WORD) (fits : Fits heap size alignment) :
    Sound (step ⟨memory, live⟩ (.posixMemalign heap alignment size)) := by
  unfold step posixMemalign
  dsimp only
  by_cases invalid : alignment < 8 ∨ alignment &&& (alignment - 1) ≠ 0
  · rw [if_pos invalid]
    exact sound
  · obtain ⟨exponent, narrow, rfl⟩ := posixMemalign_power small invalid
    have next := sound_malloc exponent sound honest fits
    rw [if_neg invalid]
    by_cases refused : (mallocAligned memory heap size (2 ^ exponent)).1 = 0
    · rw [if_pos refused]
      rw [refused] at next
      exact next
    · rw [if_neg refused]
      exact next

end Grants

section Runs

theorem sound_step {process : Process} {call : Call} (sound : Sound process) (allowed : Allowed process call)
    (fits : CallFits call) : Sound (step process call) := by
  cases call with
  | mallocAligned heap size alignment =>
    obtain ⟨honest, -, exponent, -, rfl⟩ := allowed
    exact sound_malloc exponent sound honest fits
  | calloc heap count size => exact sound_calloc sound allowed fits
  | posixMemalign heap alignment size => exact sound_posixMemalign sound allowed.1 allowed.2.2 fits
  | realloc heap ptr newSize => exact sound_realloc sound allowed.1 fits
  | free ptr => exact sound.giveBack ptr
  | write place byte =>
    apply Sound.congr sound
    intro other changed
    have here : other = place := by
      by_contra elsewhere
      apply changed
      apply store_outside
      rw [length_singleton]
      omega
    rw [here]
    exact allowed

theorem sound_run {process : Process} {calls : List Call} (sound : Sound process)
    (guarded : Guarded step (fun process call => Allowed process call ∧ CallFits call) process calls) :
    Sound (calls.foldl step process) :=
  Guarded.preserves (fun _ _ now permitted => sound_step now permitted.1 permitted.2) sound guarded

end Runs

/-- A pointer is contained in its block exactly if its request does not wrap or is refused. -/
theorem allocations_contained (memory : Memory) (heap : Heap) :
    (∀ size exponent, Sane heap → size < WORD → exponent < 64 →
      (((mallocAligned memory heap size (2 ^ exponent)).1 ≠ 0 →
        Contained (rawFor heap size (2 ^ exponent)) (totalFor size (2 ^ exponent))
          (mallocAligned memory heap size (2 ^ exponent)).1 size (2 ^ exponent)) ↔
        exactTotal size (2 ^ exponent) < WORD ∨ rawFor heap size (2 ^ exponent) = 0)) ∧
    (∀ count size, Sane heap →
      (((calloc memory heap count size).1 ≠ 0 →
        Contained (rawFor heap (count * size) 16) (totalFor (count * size) 16) (calloc memory heap count size).1
          (count * size) 16) ↔
        WORD ≤ count * size ∨ exactTotal (count * size) 16 < WORD ∨ rawFor heap (count * size) 16 = 0)) ∧
    ∀ calls, Guarded step (fun process call => Allowed process call ∧ CallFits call) ⟨memory, []⟩ calls →
      ∀ block ∈ (calls.foldl step ⟨memory, []⟩).live,
        Contained block.raw block.total block.ptr block.size block.alignment ∧
        free (calls.foldl step ⟨memory, []⟩).memory block.ptr = some (block.raw, ⟨block.total, block.align⟩) := by
  apply And.intro
  · intro size exponent sane small narrow
    exact mallocAligned_contained_iff memory size exponent sane small narrow
  apply And.intro
  · intro count size sane
    exact calloc_contained_iff memory count size sane
  · intro calls guarded block member
    have start : Sound ⟨memory, []⟩ := ⟨fun _ absent => absurd absent not_mem_nil, List.Pairwise.nil⟩
    have placed := (sound_run start guarded).placed block member
    exact ⟨placed.contained, placed.free⟩

def oneBlock (layout : Layout) (raw : Nat) : Heap := fun asked => if asked = layout then raw else 0

theorem oneBlock_sane {layout : Layout} {raw : Nat} (aligned : layout.align ∣ raw) (inside : raw + layout.size ≤ 2 ^ 63) :
    Sane (oneBlock layout raw) := by
  intro asked granted
  unfold oneBlock at granted ⊢
  split at granted
  next same =>
    rw [if_pos same, same]
    exact ⟨aligned, inside⟩
  · exact absurd rfl granted

theorem oneBlock_honest {layout : Layout} {raw : Nat} {live : List Block} (aligned : layout.align ∣ raw)
    (inside : raw + layout.size ≤ 2 ^ 63)
    (apart : ∀ block ∈ live, raw + layout.size ≤ block.raw ∨ block.raw + block.total ≤ raw) :
    Honest (oneBlock layout raw) live := by
  refine ⟨oneBlock_sane aligned inside, ?_⟩
  intro asked granted block member
  unfold oneBlock at granted ⊢
  split at granted
  next same =>
    rw [if_pos same, same]
    exact apart block member
  · exact absurd rfl granted

def twoRequests : List Call :=
  [.mallocAligned (oneBlock ⟨187, 64⟩ 4096) 100 64, .mallocAligned (oneBlock ⟨187, 64⟩ 8192) 100 64]

theorem twoRequests_guarded : Guarded step (fun process call => Allowed process call ∧ CallFits call) ⟨fun _ => 0, []⟩
    twoRequests := by
  have fits (raw : Nat) : Fits (oneBlock ⟨187, 64⟩ raw) 100 64 := .inl (by decide)
  refine ⟨⟨⟨?_, by decide, 6, by decide, rfl⟩, fits 4096⟩, ⟨⟨?_, by decide, 6, by decide, rfl⟩, fits 8192⟩, trivial⟩
  · exact oneBlock_honest (by decide) (by decide) (fun _ absent => absurd absent not_mem_nil)
  · exact oneBlock_honest (by decide) (by decide) (by decide)

theorem twoRequests_live : (twoRequests.foldl step ⟨fun _ => 0, []⟩).live =
    [⟨100, 64, 8256, 8192, 187, 64⟩, ⟨100, 64, 4160, 4096, 187, 64⟩] := by decide

theorem allocations_contained_two : Contained 4096 187 4160 100 64 ∧ Contained 8192 187 8256 100 64 ∧
    free (twoRequests.foldl step ⟨fun _ => 0, []⟩).memory 4160 = some (4096, ⟨187, 64⟩) := by
  obtain ⟨granted, -, run⟩ := allocations_contained (fun _ => 0) (oneBlock ⟨187, 64⟩ 4096)
  have later := run twoRequests twoRequests_guarded
  rw [twoRequests_live] at later
  refine ⟨?_, (later _ mem_cons_self).1, (later _ (mem_cons_of_mem _ mem_cons_self)).2⟩
  exact (granted 100 6 (oneBlock_sane (by decide) (by decide)) (by decide) (by decide)).mpr (.inl (by decide)) (by decide)

/-- Between two blocks in use there is a whole header. -/
theorem live_blocks_apart (memory : Memory) (calls : List Call)
    (guarded : Guarded step (fun process call => Allowed process call ∧ CallFits call) ⟨memory, []⟩ calls) :
    (calls.foldl step ⟨memory, []⟩).live.Pairwise fun first second =>
      first.ptr + first.size + HEADER_SIZE ≤ second.ptr ∨ second.ptr + second.size + HEADER_SIZE ≤ first.ptr := by
  have start : Sound ⟨memory, []⟩ := ⟨fun _ absent => absurd absent not_mem_nil, List.Pairwise.nil⟩
  have sound := sound_run start guarded
  apply sound.apart.imp_of_mem
  intro first second one other apart
  obtain ⟨-, before, within⟩ := (sound.placed first one).contained
  obtain ⟨-, between, behind⟩ := (sound.placed second other).contained
  unfold Apart at apart
  omega

theorem live_blocks_apart_two : (twoRequests.foldl step ⟨fun _ => 0, []⟩).live.length = 2 ∧
    (twoRequests.foldl step ⟨fun _ => 0, []⟩).live.Pairwise fun first second =>
      first.ptr + first.size + HEADER_SIZE ≤ second.ptr ∨ second.ptr + second.size + HEADER_SIZE ≤ first.ptr :=
  ⟨by decide, live_blocks_apart _ _ twoRequests_guarded⟩

theorem huge_request_granted : Sane (oneBlock ⟨31, 16⟩ 4096) ∧
    (mallocAligned (fun _ => 0) (oneBlock ⟨31, 16⟩ 4096) (2 ^ 64 - 8) 16).1 = 4128 ∧
    rawFor (oneBlock ⟨31, 16⟩ 4096) (2 ^ 64 - 8) 16 = 4096 ∧ totalFor (2 ^ 64 - 8) 16 = 31 ∧
    ¬4128 + (2 ^ 64 - 8) ≤ 4096 + 31 :=
  ⟨oneBlock_sane (by decide) (by decide), by decide, by decide, by decide, by decide⟩

end HermitLocal.Runtime.Blocks
