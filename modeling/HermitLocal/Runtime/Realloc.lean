import HermitLocal.Runtime.Blocks

/-! What `realloc` does with the old block. It does not know how much was asked for and
takes everything behind the header for payload, the room for rounding included; a
block that grows is therefore copied from beyond its end. -/

namespace HermitLocal.Runtime.Realloc
open Lib.Wire Lib.ByteMemory Lib.Simulation Runtime.Allocator
open Runtime.Blocks

structure Preserves (before : Memory) (block : Block) (newSize : Nat) (result : Reallocated) : Prop where
  contents : result.ptr ≠ 0 →
    load result.memory result.ptr (min block.size newSize) = load before block.ptr (min block.size newSize)
  reads : ∀ start count, result.copied = some (start, count) →
    block.ptr ≤ start ∧ start + count ≤ block.ptr + block.size
  released : result.ptr ≠ 0 → result.released = some (block.raw, ⟨block.total, block.align⟩)
  failure : result.ptr = 0 → result.memory = before ∧ result.released = none

variable {memory : Memory} {live : List Block} {block : Block} {heap : Heap} {newSize : Nat}

theorem oldPayload_eq (placed : Placed memory block) :
    oldPayload memory block.ptr = payloadFor block.size + alignFor block.alignment - 1 := by
  have above := placed.contained.header
  have inside := placed.contained.payload
  have bound := placed.bound
  have total := placed.total
  unfold exactTotal at total
  unfold oldPayload
  rw [headerOf_eq (by omega) (by unfold WORD; omega), placed.header]
  dsimp only
  unfold HEADER_SIZE WORD at *
  omega

theorem size_lt_oldPayload (placed : Placed memory block) : block.size < oldPayload memory block.ptr := by
  have payload := size_le_payloadFor block.size
  have align : 16 ≤ alignFor block.alignment := le_max_left 16 _
  rw [oldPayload_eq placed]
  omega

theorem fits_of_le (placed : Placed memory block) (shrinks : newSize ≤ block.size) (some : 0 < newSize) :
    exactTotal newSize 16 < WORD := by
  have inside := placed.contained.payload
  have bound := placed.bound
  have payload : payloadFor newSize = newSize := if_neg (by omega)
  have align : alignFor 16 = 16 := rfl
  unfold exactTotal HEADER_SIZE WORD at *
  omega

theorem malloc_pos (memory : Memory) (sane : Sane heap) (granted : rawFor heap newSize 16 ≠ 0) :
    (malloc memory heap newSize).1 ≠ 0 := by
  have bounds : rawFor heap newSize 16 + HEADER_SIZE ≤ startFor heap newSize 16 :=
    (start_bounds sane (show rawFor heap newSize (2 ^ 4) ≠ 0 from granted)).2.1
  have pointer : (malloc memory heap newSize).1 = startFor heap newSize 16 :=
    congrArg Prod.fst (mallocAligned_granted memory granted)
  omega

theorem growth_overreads (placed : Placed memory block) (sane : Sane heap) (granted : rawFor heap newSize 16 ≠ 0)
    (grows : block.size < newSize) : ¬Preserves memory block newSize (realloc memory heap block.ptr newSize) := by
  intro preserves
  have longer := size_lt_oldPayload placed
  rw [realloc_granted memory placed.ptr_ne (by omega) (malloc_pos memory sane granted)] at preserves
  have read := (preserves.reads _ _ rfl).2
  omega

section
variable (sound : Sound ⟨memory, live⟩) (member : block ∈ live) (honest : Honest heap live)

include sound member honest

theorem load_malloc (granted : rawFor heap newSize 16 ≠ 0) (fits : exactTotal newSize 16 < WORD) {count : Nat}
    (short : count ≤ block.size) :
    load (malloc memory heap newSize).2 block.ptr count = load memory block.ptr count := by
  have granted : rawFor heap newSize (2 ^ 4) ≠ 0 := granted
  have above := (sound.placed block member).contained.header
  have below := (sound.placed block member).contained.payload
  have contained := contained_of_fits honest.1 granted fits
  have newAbove := contained.header
  have newBelow := contained.payload
  have apart := apart_new honest granted fits 0 block member
  simp only [Apart, blockFor] at apart
  apply load_congr
  intro place start stop
  by_contra changed
  have inside := mallocAligned_frame memory honest.1 granted fits changed
  omega

theorem granted_keeps (positive : 0 < newSize) (granted : rawFor heap newSize 16 ≠ 0) (fits : exactTotal newSize 16 < WORD) :
    load (realloc memory heap block.ptr newSize).memory (realloc memory heap block.ptr newSize).ptr
        (min block.size newSize) = load memory block.ptr (min block.size newSize) ∧
      (realloc memory heap block.ptr newSize).released = some (block.raw, ⟨block.total, block.align⟩) := by
  have placed : Placed memory block := sound.placed block member
  have longer := size_lt_oldPayload placed
  have present := malloc_pos memory honest.1 granted
  rw [realloc_granted memory placed.ptr_ne (by omega) present]
  generalize counted : min (oldPayload memory block.ptr) newSize = count
  have enough : min block.size newSize ≤ count := by omega
  apply And.intro
  · have stored := load_store_same (malloc memory heap newSize).2 (malloc memory heap newSize).1
      (load (malloc memory heap newSize).2 block.ptr count)
    rw [load_length] at stored
    rw [← load_take enough, stored, load_take enough]
    exact load_malloc sound member honest granted fits (min_le_left _ _)
  · -- the old block is still in place when its header is read
    have copied := sound_filled sound honest (.inl fits) present (load (malloc memory heap newSize).2 block.ptr count)
      (by rw [load_length]; omega)
    have still := copied.placed block (List.mem_cons_of_mem _ member)
    dsimp only at still
    exact still.free

theorem shrink_preserves (positive : 0 < newSize) (granted : rawFor heap newSize 16 ≠ 0) (shrinks : newSize ≤ block.size) :
    Preserves memory block newSize (realloc memory heap block.ptr newSize) := by
  have placed : Placed memory block := sound.placed block member
  have present := malloc_pos memory honest.1 granted
  have kept := granted_keeps sound member honest positive granted (fits_of_le placed shrinks positive)
  apply Preserves.mk (fun _ => kept.1) _ (fun _ => kept.2)
  · rw [realloc_granted memory placed.ptr_ne (by omega) present]
    exact fun failed => absurd failed present
  · rw [realloc_granted memory placed.ptr_ne (by omega) present]
    intro start count copied
    cases copied
    apply And.intro le_rfl
    omega

end

theorem refusal_preserves (placed : Placed memory block) (positive : 0 < newSize)
    (refused : rawFor heap newSize 16 = 0) :
    Preserves memory block newSize (realloc memory heap block.ptr newSize) := by
  have failed : malloc memory heap newSize = (0, memory) := mallocAligned_refused memory refused
  have result : realloc memory heap block.ptr newSize = ⟨0, memory, none, none⟩ := by
    rw [realloc_refused memory placed.ptr_ne (by omega) (by rw [failed]), failed]
  rw [result]
  apply Preserves.mk
  · exact absurd rfl
  · intro start count copied
    cases copied
  · exact absurd rfl
  · exact fun _ => ⟨rfl, rfl⟩

/-- Resizing preserves a block exactly if it does not grow or is refused. -/
theorem realloc_preserves_iff (memory : Memory) (calls : List Call)
    (guarded : Guarded step (fun process call => Allowed process call ∧ CallFits call) ⟨memory, []⟩ calls)
    (block : Block) (member : block ∈ (calls.foldl step ⟨memory, []⟩).live) (heap : Heap)
    (honest : Honest heap (calls.foldl step ⟨memory, []⟩).live) (newSize : Nat) (positive : 0 < newSize) :
    Preserves (calls.foldl step ⟨memory, []⟩).memory block newSize
        (realloc (calls.foldl step ⟨memory, []⟩).memory heap block.ptr newSize) ↔
      newSize ≤ block.size ∨ rawFor heap newSize 16 = 0 := by
  have start : Sound ⟨memory, []⟩ := ⟨fun _ absent => absurd absent List.not_mem_nil, List.Pairwise.nil⟩
  have sound := sound_run start guarded
  have placed := sound.placed block member
  by_cases refused : rawFor heap newSize 16 = 0
  · exact iff_of_true (refusal_preserves placed positive refused) (.inr refused)
  · constructor
    · intro preserves
      by_contra grows
      rw [not_or] at grows
      exact growth_overreads placed honest.1 refused (Nat.not_le.mp grows.1) preserves
    · rintro (shrinks | null)
      · exact shrink_preserves sound member honest positive refused shrinks
      · exact absurd null refused

def tenBytes : Call := .mallocAligned (oneBlock ⟨49, 16⟩ 4096) 10 16

theorem tenBytes_guarded :
    Guarded step (fun process call => Allowed process call ∧ CallFits call) ⟨fun _ => 0, []⟩ [tenBytes] := by
  apply And.intro _ trivial
  apply And.intro
  · apply And.intro
    · exact ⟨oneBlock_sane (by decide) (by decide), fun _ _ _ absent => absurd absent List.not_mem_nil⟩
    · exact ⟨by decide, 4, by decide, rfl⟩
  · exact .inl (by decide)

theorem tenBytes_live : ([tenBytes].foldl step ⟨fun _ => 0, []⟩).live = [⟨10, 16, 4128, 4096, 49, 16⟩] := by decide

theorem realloc_preserves_five :
    Preserves ([tenBytes].foldl step ⟨fun _ => 0, []⟩).memory ⟨10, 16, 4128, 4096, 49, 16⟩ 5
      (realloc ([tenBytes].foldl step ⟨fun _ => 0, []⟩).memory (oneBlock ⟨44, 16⟩ 8192) 4128 5) := by
  apply (realloc_preserves_iff (fun _ => 0) [tenBytes] tenBytes_guarded ⟨10, 16, 4128, 4096, 49, 16⟩ _ _ _ 5
    (by decide)).mpr (.inl (by decide))
  · exact List.mem_cons_self
  · rw [tenBytes_live]
    apply And.intro (oneBlock_sane (by decide) (by decide))
    intro layout granted block member
    rw [List.mem_singleton.mp member]
    unfold oneBlock at granted ⊢
    split at granted
    next same => simp [same]
    · exact absurd rfl granted

theorem growth_reads_beyond_block :
    (realloc ([tenBytes].foldl step ⟨fun _ => 0, []⟩).memory (oneBlock ⟨139, 16⟩ 8192) 4128 100).ptr = 8224 ∧
    (realloc ([tenBytes].foldl step ⟨fun _ => 0, []⟩).memory (oneBlock ⟨139, 16⟩ 8192) 4128 100).copied =
      some (4128, 25) ∧ 4128 + 10 < 4128 + 25 ∧ 4096 + 49 < 4128 + 25 := by
  decide

end HermitLocal.Runtime.Realloc
