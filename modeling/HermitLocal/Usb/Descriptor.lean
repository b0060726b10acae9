import HermitLocal.Usb.TrbRing

/-! The transfer descriptor that `queue_transfer` puts on a ring: a chain of normal blocks, none of
which crosses a 64 KiB boundary. A controller walks it over the link at the end of
the ring. -/

namespace HermitLocal.Usb.Descriptor
open Usb.Events Usb.TrbRing List

def NORMAL : UInt32 := 1
def ISP : UInt32 := 4
def CHAIN : UInt32 := 16
def IOC : UInt32 := 32

def chain (trb : Trb) : Bool := trb.control &&& CHAIN != 0

def ioc (trb : Trb) : Bool := trb.control &&& IOC != 0

def nextChunk (physAddr : UInt64) (remaining : Nat) : Nat :=
  let next64kBoundary := (physAddr + 65536) &&& ~~~65535
  min (min remaining 65536) (next64kBoundary - physAddr).toNat

def normalBlock (physAddr : UInt64) (chunk remaining : Nat) : Trb where
  param := physAddr
  status := chunk.toUInt32 ||| (min ((remaining + 511) / 512) 31).toUInt32 <<< 17
  control := if remaining = 0 then NORMAL <<< 10 ||| IOC else NORMAL <<< 10 ||| CHAIN ||| ISP

def queueLoop (phys : UInt64) : Nat → Nat → Nat → Ring → Ring
  | 0, _, _, ring => ring
  | rounds + 1, remaining, offset, ring =>
      if remaining = 0 then ring
      else
        let physAddr := phys + offset.toUInt64
        let chunk := nextChunk physAddr remaining
        queueLoop phys rounds (remaining - chunk) (offset + chunk)
          (ring.enqueue (normalBlock physAddr chunk (remaining - chunk))).2

def queueTransfer (ring : Ring) (phys : UInt64) (len : Nat) : Ring :=
  if len = 0 then (ring.enqueue ⟨phys, 0, NORMAL <<< 10 ||| IOC⟩).2 else queueLoop phys len len 0 ring

/-! The blocks of a descriptor. -/

def blocks (phys : UInt64) : Nat → Nat → Nat → List Trb
  | 0, _, _ => []
  | rounds + 1, remaining, offset =>
      if remaining = 0 then []
      else
        let physAddr := phys + offset.toUInt64
        let chunk := nextChunk physAddr remaining
        normalBlock physAddr chunk (remaining - chunk) :: blocks phys rounds (remaining - chunk) (offset + chunk)

def descriptor (phys : UInt64) (len : Nat) : List Trb :=
  if len = 0 then [⟨phys, 0, NORMAL <<< 10 ||| IOC⟩] else blocks phys len len 0

def enqueueAll (ring : Ring) (trbs : List Trb) : Ring := trbs.foldl (fun ring trb => (ring.enqueue trb).2) ring

theorem queueLoop_eq (phys : UInt64) (rounds remaining offset : Nat) (ring : Ring) :
    queueLoop phys rounds remaining offset ring = enqueueAll ring (blocks phys rounds remaining offset) := by
  induction rounds generalizing remaining offset ring with
  | zero => rfl
  | succ rounds ih =>
    unfold queueLoop blocks
    by_cases done : remaining = 0
    · rw [if_pos done, if_pos done]
      rfl
    · rw [if_neg done, if_neg done]
      exact ih _ _ _

theorem queueTransfer_eq (ring : Ring) (phys : UInt64) (len : Nat) :
    queueTransfer ring phys len = enqueueAll ring (descriptor phys len) := by
  unfold queueTransfer descriptor
  by_cases empty : len = 0
  · rw [if_pos empty, if_pos empty]
    rfl
  · rw [if_neg empty, if_neg empty]
    exact queueLoop_eq phys len len 0 ring

theorem clear_low (value : UInt64) : (value &&& ~~~65535).toNat = value.toNat - value.toNat % 65536 := by
  have low : (value &&& 65535).toNat = value.toNat % 65536 := by
    exact Nat.and_two_pow_sub_one_eq_mod value.toNat 16
  have whole : (value &&& ~~~65535).toBitVec + (value &&& 65535).toBitVec = value.toBitVec := by
    rw [UInt64.toBitVec_and, UInt64.toBitVec_and, UInt64.toBitVec_not, BitVec.add_eq_or_of_and_eq_zero]
    · ext index inside
      grind
    · ext index inside
      grind
  have sum := congrArg BitVec.toNat whole
  have small : (value &&& ~~~65535).toNat ≤ value.toNat := by
    exact Nat.and_le_left
  rw [BitVec.toNat_add, UInt64.toNat_toBitVec, UInt64.toNat_toBitVec, UInt64.toNat_toBitVec] at sum
  omega

theorem nextChunk_eq (physAddr : UInt64) (remaining : Nat) :
    nextChunk physAddr remaining = min remaining (65536 - physAddr.toNat % 65536) := by
  have bound := physAddr.toNat_lt
  have boundary : (((physAddr + 65536) &&& ~~~65535) - physAddr).toNat = 65536 - physAddr.toNat % 65536 := by
    rw [UInt64.toNat_sub, clear_low, UInt64.toNat_add, show (65536 : UInt64).toNat = 65536 from rfl]
    omega
  unfold nextChunk
  dsimp only
  omega

theorem offset_mod (phys : UInt64) (offset : Nat) : (phys + offset.toUInt64).toNat % 65536 = (phys.toNat + offset) % 65536 := by
  rw [UInt64.toNat_add, UInt64.toNat_ofNat']
  omega

def pieces (phys : UInt64) (len : Nat) : Nat := if len = 0 then 1 else (phys.toNat % 65536 + len + 65535) / 65536

theorem blocks_length (phys : UInt64) (rounds remaining offset : Nat) (enough : remaining ≤ rounds) :
    (blocks phys rounds remaining offset).length =
      if remaining = 0 then 0 else ((phys.toNat + offset) % 65536 + remaining + 65535) / 65536 := by
  induction rounds generalizing remaining offset with
  | zero =>
    rw [if_pos (Nat.le_zero.mp enough)]
    rfl
  | succ rounds ih =>
    unfold blocks
    by_cases done : remaining = 0
    · rw [if_pos done, if_pos done]
      rfl
    · rw [if_neg done, if_neg done]
      dsimp only
      rw [nextChunk_eq, offset_mod, length_cons, ih _ _ (by omega)]
      split <;> omega

theorem descriptor_length (phys : UInt64) (len : Nat) : (descriptor phys len).length = pieces phys len := by
  unfold descriptor pieces
  by_cases empty : len = 0
  · rw [if_pos empty, if_pos empty]
    rfl
  · rw [if_neg empty, if_neg empty, blocks_length phys len len 0 (Nat.le_refl _), if_neg empty]
    rfl

inductive Chained : List Trb → Prop
  | last {trb : Trb} (interrupts : ioc trb = true) (ends : chain trb = false) : Chained [trb]
  | more {trb : Trb} {rest : List Trb} (goesOn : chain trb = true) (chained : Chained rest) : Chained (trb :: rest)

theorem chain_setCycle (trb : Trb) (cycle : Bool) : chain (trb.setCycle cycle) = chain trb := by
  unfold chain
  rw [control_setCycle trb cycle rfl rfl]

theorem ioc_setCycle (trb : Trb) (cycle : Bool) : ioc (trb.setCycle cycle) = ioc trb := by
  unfold ioc
  rw [control_setCycle trb cycle rfl rfl]

variable {trbs : List Trb} {ring : Ring} {index : Nat}

theorem Chained.setCycle (chained : Chained trbs) (cycle : Bool) :
    Chained (trbs.map fun trb => trb.setCycle cycle) := by
  induction chained with
  | last interrupts ends =>
    apply Chained.last
    · rwa [ioc_setCycle]
    · rwa [chain_setCycle]
  | more goesOn _ ih =>
    apply Chained.more _ ih
    rwa [chain_setCycle]

theorem normalBlock_last (physAddr : UInt64) (chunk : Nat) {remaining : Nat} (last : remaining = 0) :
    ioc (normalBlock physAddr chunk remaining) = true ∧ chain (normalBlock physAddr chunk remaining) = false := by
  unfold ioc chain normalBlock
  dsimp only
  rw [if_pos last]
  decide

theorem normalBlock_chain (physAddr : UInt64) (chunk : Nat) {remaining : Nat} (more : ¬remaining = 0) :
    chain (normalBlock physAddr chunk remaining) = true := by
  unfold chain normalBlock
  dsimp only
  rw [if_neg more]
  decide

theorem blocks_chained (phys : UInt64) (rounds remaining offset : Nat) (some : 0 < remaining) (enough : remaining ≤ rounds) :
    Chained (blocks phys rounds remaining offset) := by
  induction rounds generalizing remaining offset with
  | zero => omega
  | succ rounds ih =>
    unfold blocks
    rw [if_neg (Nat.ne_of_gt some)]
    dsimp only
    have progress : 0 < nextChunk (phys + offset.toUInt64) remaining := by
      rw [nextChunk_eq]
      omega
    generalize nextChunk (phys + offset.toUInt64) remaining = chunk at progress ⊢
    by_cases last : remaining - chunk = 0
    · have nothing : blocks phys rounds (remaining - chunk) (offset + chunk) = [] := by
        apply length_eq_zero_iff.mp
        rw [blocks_length _ _ _ _ (by omega), if_pos last]
      rw [nothing]
      exact Chained.last (normalBlock_last _ _ last).1 (normalBlock_last _ _ last).2
    · apply Chained.more (normalBlock_chain _ _ last)
      exact ih _ _ (by omega) (by omega)

theorem descriptor_chained (phys : UInt64) (len : Nat) : Chained (descriptor phys len) := by
  unfold descriptor
  by_cases empty : len = 0
  · rw [if_pos empty]
    apply Chained.last
    · change ((NORMAL <<< 10 ||| IOC) &&& IOC != 0) = true
      decide
    · change ((NORMAL <<< 10 ||| IOC) &&& CHAIN != 0) = false
      decide
  · rw [if_neg empty]
    exact blocks_chained phys len len 0 (Nat.pos_of_ne_zero empty) (Nat.le_refl _)

theorem normalBlock_plain (physAddr : UInt64) (chunk remaining : Nat) :
    togglesCycle (normalBlock physAddr chunk remaining) = false := by
  unfold togglesCycle Trb.trbType normalBlock
  dsimp only
  by_cases last : remaining = 0
  · rw [if_pos last]
    decide
  · rw [if_neg last]
    decide

theorem blocks_plain (phys : UInt64) (rounds remaining offset : Nat) :
    ∀ trb ∈ blocks phys rounds remaining offset, togglesCycle trb = false := by
  induction rounds generalizing remaining offset with
  | zero =>
    intro trb inside
    cases inside
  | succ rounds ih =>
    unfold blocks
    by_cases done : remaining = 0
    · rw [if_pos done]
      intro trb inside
      cases inside
    · rw [if_neg done]
      intro trb inside
      rcases mem_cons.mp inside with rfl | later
      · exact normalBlock_plain _ _ _
      · exact ih _ _ trb later

theorem descriptor_plain (phys : UInt64) (len : Nat) : ∀ trb ∈ descriptor phys len, togglesCycle trb = false := by
  unfold descriptor
  by_cases empty : len = 0
  · rw [if_pos empty]
    intro trb inside
    rw [mem_singleton.mp inside]
    change (((NORMAL <<< 10 ||| IOC) >>> 10 &&& 0x3f).toUInt8 == LINK.toUInt8 && (NORMAL <<< 10 ||| IOC) &&& TOGGLE_CYCLE != 0) = false
    decide
  · rw [if_neg empty]
    exact blocks_plain phys len len 0

/-! What a controller walks over. -/

def walk (ring : Ring) : Nat → Consumer → List Trb
  | 0, _ => []
  | steps + 1, consumer =>
      match ring.read consumer.dequeue with
      | none => []
      | some trb =>
          if trb.cycle ≠ consumer.cycle then []
          else if togglesCycle trb then trb :: walk ring steps ⟨trb.param, !consumer.cycle⟩
          else trb :: walk ring steps { consumer with dequeue := consumer.dequeue + 16 }

def spanned (ring : Ring) (count : Nat) : Nat := count + (ring.enqueueIndex + count - 1) / (ring.size - 1)

def descriptorWalk (ring : Ring) (phys : UInt64) (len : Nat) : List Trb :=
  walk (queueTransfer ring phys len) (spanned ring (pieces phys len)) ⟨ring.address ring.enqueueIndex, ring.cycle⟩

structure Unbroken (ring : Ring) (phys : UInt64) (len : Nat) : Prop where
  whole : (descriptorWalk ring phys len).length = spanned ring (pieces phys len)
  chained : Chained (descriptorWalk ring phys len)

theorem enqueueAll_base (ring : Ring) (trbs : List Trb) : (enqueueAll ring trbs).base = ring.base := by
  induction trbs generalizing ring with
  | nil => rfl
  | cons trb rest ih => exact (ih _).trans (enqueue_base ring trb)

theorem enqueueAll_size (ring : Ring) (trbs : List Trb) : (enqueueAll ring trbs).size = ring.size := by
  induction trbs generalizing ring with
  | nil => rfl
  | cons trb rest ih => exact (ih _).trans (enqueue_size ring trb)

def PlainAt (ring : Ring) (index : Nat) : Prop := ∃ trb, ring.slots[index]? = some trb ∧ togglesCycle trb = false

def Linked (ring : Ring) : Prop := ∃ cycle, ring.slots[ring.room]? = some (ring.link.setCycle cycle)

theorem index_lt_room (ring : Ring) : ring.enqueueIndex < ring.room := by
  have := ring.index_lt
  unfold Ring.room
  omega

theorem plainAt_enqueue (inside : index < ring.room) (plainAt : PlainAt ring index) {trb : Trb}
    (plain : togglesCycle trb = false) : PlainAt (ring.enqueue trb).2 index := by
  by_cases written : index = ring.enqueueIndex
  · rw [written]
    refine ⟨_, enqueue_stored ring trb, ?_⟩
    rwa [togglesCycle_setCycle]
  · obtain ⟨found, stored, other⟩ := plainAt
    refine ⟨found, ?_, other⟩
    rwa [enqueue_kept ring trb inside written]

theorem linked_enqueue (linked : Linked ring) (trb : Trb) : Linked (ring.enqueue trb).2 := by
  obtain ⟨cycle, stored⟩ := linked
  unfold Linked
  rw [enqueue_room, enqueue_link]
  by_cases last : ring.enqueueIndex + 1 = ring.room
  · exact ⟨_, (enqueue_wraps ring trb last).2.2⟩
  · have := index_lt_room ring
    refine ⟨cycle, ?_⟩
    rw [(enqueue_within ring trb (by omega)).2.2, stored]

theorem enqueueAll_keeps (plain : ∀ trb ∈ trbs, togglesCycle trb = false) (ring : Ring) :
    (∀ index < ring.room, PlainAt ring index → PlainAt (enqueueAll ring trbs) index) ∧
      (Linked ring → Linked (enqueueAll ring trbs)) := by
  induction trbs generalizing ring with
  | nil => exact ⟨fun _ _ plainAt => plainAt, fun linked => linked⟩
  | cons trb rest ih =>
    obtain ⟨slots, link⟩ := ih (fun other inside => plain other (mem_cons_of_mem _ inside)) (ring.enqueue trb).2
    rw [enqueue_room] at slots
    constructor
    · intro index inside plainAt
      exact slots index inside (plainAt_enqueue inside plainAt (plain trb mem_cons_self))
    · intro linked
      exact link (linked_enqueue linked trb)

theorem enqueueAll_reaches (plain : ∀ trb ∈ trbs, togglesCycle trb = false) (ring : Ring)
    (reaches : ring.room ≤ ring.enqueueIndex + trbs.length) :
    (∀ index, ring.enqueueIndex ≤ index → index < ring.room → PlainAt (enqueueAll ring trbs) index) ∧
      Linked (enqueueAll ring trbs) := by
  induction trbs generalizing ring with
  | nil =>
    have := index_lt_room ring
    rw [length_nil] at reaches
    omega
  | cons trb rest ih =>
    rw [length_cons] at reaches
    have bound := index_lt_room ring
    have others := fun other inside => plain other (mem_cons_of_mem trb inside)
    have first : PlainAt (ring.enqueue trb).2 ring.enqueueIndex := by
      refine ⟨_, enqueue_stored ring trb, ?_⟩
      rw [togglesCycle_setCycle]
      exact plain trb mem_cons_self
    obtain ⟨slots, link⟩ := enqueueAll_keeps others (ring.enqueue trb).2
    rw [enqueue_room] at slots
    by_cases last : ring.enqueueIndex + 1 = ring.room
    · constructor
      · intro index after inside
        rw [show index = ring.enqueueIndex by omega]
        exact slots _ bound first
      · apply link
        refine ⟨ring.cycle, ?_⟩
        rw [enqueue_room, enqueue_link]
        exact (enqueue_wraps ring trb last).2.2
    · have next := (enqueue_within ring trb (by omega)).1
      obtain ⟨later, linked⟩ := ih others (ring.enqueue trb).2 (by rw [enqueue_room, next]; omega)
      rw [enqueue_room] at later
      refine ⟨?_, linked⟩
      intro index after inside
      by_cases same : index = ring.enqueueIndex
      · rw [same]
        exact slots _ bound first
      · exact later index (by omega) inside

theorem enqueueAll_stored (trbs : List Trb) (ring : Ring) (fits : ring.enqueueIndex + trbs.length ≤ ring.room) :
    (∀ index < ring.enqueueIndex, (enqueueAll ring trbs).slots[index]? = ring.slots[index]?) ∧
      ∀ place trb, trbs[place]? = some trb →
        (enqueueAll ring trbs).slots[ring.enqueueIndex + place]? = some (trb.setCycle ring.cycle) := by
  induction trbs generalizing ring with
  | nil => exact ⟨fun _ _ => rfl, fun _ _ present => by cases present⟩
  | cons first rest ih =>
    rw [length_cons] at fits
    have kept : ∀ index < ring.enqueueIndex, (ring.enqueue first).2.slots[index]? = ring.slots[index]? :=
      fun index before => enqueue_kept ring first (by omega) (by omega)
    by_cases last : ring.enqueueIndex + 1 = ring.room
    · have none : rest = [] := List.length_eq_zero_iff.mp (by omega)
      subst none
      refine ⟨kept, ?_⟩
      intro place trb present
      have zero : place = 0 := Nat.lt_one_iff.mp (List.getElem?_eq_some_iff.mp present).1
      subst zero
      cases present
      exact enqueue_stored ring first
    · obtain ⟨next, cycle, _⟩ := enqueue_within ring first (by omega)
      obtain ⟨before, stored⟩ := ih (ring.enqueue first).2 (by rw [next, enqueue_room]; omega)
      rw [next] at before stored
      constructor
      · intro index earlier
        exact (before index (by omega)).trans (kept index earlier)
      · intro place trb present
        cases place with
        | zero =>
          cases present
          exact (before _ (Nat.lt_succ_self _)).trans (enqueue_stored ring first)
        | succ place =>
          rw [← cycle, show ring.enqueueIndex + (place + 1) = ring.enqueueIndex + 1 + place by omega]
          exact stored place trb present

/-! The walk, slot by slot. -/

theorem walk_plain (inside : index < ring.room) {trb : Trb} (stored : ring.slots[index]? = some trb)
    (plain : togglesCycle trb = false) (steps : Nat) (cycle : Bool) :
    walk ring (steps + 1) ⟨ring.address index, cycle⟩ =
      if trb.cycle ≠ cycle then [] else trb :: walk ring steps ⟨ring.address (index + 1), cycle⟩ := by
  have size : ring.room ≤ ring.size := Nat.sub_le _ _
  rw [walk, read_address ring (by omega), stored]
  dsimp only
  rw [plain, if_neg Bool.false_ne_true, address_succ]

theorem walk_blocks {cycle : Bool} (trbs : List Trb) (plain : ∀ trb ∈ trbs, togglesCycle trb = false)
    (index : Nat) (fits : index + trbs.length ≤ ring.room)
    (stored : ∀ place trb, trbs[place]? = some trb → ring.slots[index + place]? = some (trb.setCycle cycle)) :
    walk ring trbs.length ⟨ring.address index, cycle⟩ = trbs.map fun trb => trb.setCycle cycle := by
  induction trbs generalizing index with
  | nil => rfl
  | cons first rest ih =>
    rw [length_cons] at fits
    have here : ring.slots[index]? = some (first.setCycle cycle) := stored 0 first rfl
    have other : togglesCycle (first.setCycle cycle) = false := by
      rw [togglesCycle_setCycle]
      exact plain first mem_cons_self
    have later := ih (fun trb inside => plain trb (mem_cons_of_mem _ inside)) (index + 1) (by omega) (by
      intro place trb present
      rw [show index + 1 + place = index + (place + 1) by omega]
      exact stored (place + 1) trb present)
    rw [length_cons, walk_plain (by omega) here other, if_neg (not_not_intro (cycle_setCycle _ _)), later, map_cons]

theorem walk_reaches_link {cycle : Bool} (ahead : Nat) {steps : Nat} (distance : index + ahead = ring.room)
    (plain : ∀ other, index ≤ other → other < ring.room → PlainAt ring other) (enough : ahead < steps)
    (whole : (walk ring steps ⟨ring.address index, cycle⟩).length = steps) :
    (walk ring steps ⟨ring.address index, cycle⟩)[ahead]? = ring.slots[ring.room]? := by
  have := ring.index_lt
  induction ahead generalizing index steps with
  | zero =>
    obtain ⟨rest, rfl⟩ : ∃ rest, steps = rest + 1 := ⟨steps - 1, by omega⟩
    have read := read_address ring (show ring.room < ring.size by unfold Ring.room; omega)
    subst distance
    unfold walk at whole ⊢
    rw [read] at whole ⊢
    cases stored : ring.slots[ring.room]? with
    | none =>
      rw [stored] at whole
      cases whole
    | some trb =>
      rw [stored] at whole
      dsimp only at whole ⊢
      by_cases foreign : trb.cycle ≠ cycle
      · rw [if_pos foreign] at whole
        cases whole
      · rw [if_neg foreign]
        split <;> rfl
  | succ ahead ih =>
    obtain ⟨rest, rfl⟩ : ∃ rest, steps = rest + 1 := ⟨steps - 1, by omega⟩
    obtain ⟨trb, stored, other⟩ := plain index (Nat.le_refl _) (by omega)
    rw [walk_plain (by omega) stored other] at whole ⊢
    by_cases foreign : trb.cycle ≠ cycle
    · rw [if_pos foreign] at whole
      cases whole
    · rw [if_neg foreign] at whole ⊢
      exact ih (by omega) (fun next after inside => plain next (by omega) inside) (by omega) (Nat.succ.inj whole)

theorem Chained.chain_before_last (chained : Chained trbs) {place : Nat} {trb : Trb}
    (present : trbs[place]? = some trb) (before : place + 1 < trbs.length) : chain trb = true := by
  induction chained generalizing place with
  | last => exact absurd (Nat.lt_of_succ_lt_succ before) (Nat.not_lt_zero _)
  | more goesOn _ ih =>
    cases place with
    | zero =>
      cases present
      exact goesOn
    | succ place =>
      exact ih present (Nat.lt_of_succ_lt_succ before)

theorem link_unchained (ring : Ring) (cycle : Bool) : chain (ring.link.setCycle cycle) = false := by
  rw [chain_setCycle]
  change ((LINK <<< 10 ||| 2) &&& CHAIN != 0) = false
  decide

theorem pieces_pos (phys : UInt64) (len : Nat) : 0 < pieces phys len := by
  unfold pieces
  split <;> omega

/-- The controller finds one chain exactly if the descriptor ends before the link. -/
theorem descriptor_unbroken_iff (ring : Ring) (phys : UInt64) (len : Nat) :
    Unbroken ring phys len ↔ ring.enqueueIndex + pieces phys len ≤ ring.size - 1 := by
  have positive := pieces_pos phys len
  have bound := index_lt_room ring
  have length := descriptor_length phys len
  have room : (enqueueAll ring (descriptor phys len)).room = ring.room := by
    unfold Ring.room
    rw [enqueueAll_size]
  have address : (enqueueAll ring (descriptor phys len)).address = ring.address := by
    funext index
    unfold Ring.address
    rw [enqueueAll_base]
  change _ ↔ ring.enqueueIndex + pieces phys len ≤ ring.room
  constructor
  · intro ⟨whole, chained⟩
    by_contra crosses
    rw [descriptorWalk, queueTransfer_eq, ← address] at whole chained
    obtain ⟨slots, cycle, stored⟩ := enqueueAll_reaches (descriptor_plain phys len) ring (by rw [length]; omega)
    have more : ring.room - ring.enqueueIndex + 1 < spanned ring (pieces phys len) := by
      have links : 1 ≤ (ring.enqueueIndex + pieces phys len - 1) / ring.room :=
        (Nat.one_le_div_iff (room_pos ring)).mpr (by omega)
      change _ < pieces phys len + (ring.enqueueIndex + pieces phys len - 1) / ring.room
      omega
    have met := walk_reaches_link (ring.room - ring.enqueueIndex) (by rw [room]; omega)
      (by rw [room]; exact slots) (Nat.lt_of_succ_lt more) whole
    rw [stored] at met
    have linked := chained.chain_before_last met (by rw [whole]; exact more)
    rw [link_unchained] at linked
    cases linked
  · intro fits
    have none : (ring.enqueueIndex + pieces phys len - 1) / (ring.size - 1) = 0 :=
      Nat.div_eq_of_lt (by unfold Ring.room at fits; omega)
    have walked : descriptorWalk ring phys len = (descriptor phys len).map fun trb => trb.setCycle ring.cycle := by
      rw [descriptorWalk, queueTransfer_eq, spanned, none, ← address, ← length]
      apply walk_blocks _ (descriptor_plain phys len)
      · rw [length, room]
        exact fits
      · exact (enqueueAll_stored _ ring (by rw [length]; exact fits)).2
    constructor
    · rw [walked, length_map, length, spanned, none]
      rfl
    · rw [walked]
      exact (descriptor_chained phys len).setCycle ring.cycle

theorem two_le_ringSize : 2 ≤ 256 := by decide

theorem ring_fits : (0x10000 : UInt64).toNat + 16 * 256 ≤ 2 ^ 64 := by decide

def lateRing : Ring := enqueueAll (Ring.new 0x10000 256 two_le_ringSize ring_fits) (replicate 254 emptyBlock)

theorem link_breaks_descriptor :
    (descriptorWalk lateRing 0x200000 70000).map (fun trb => (trb.trbType, chain trb)) = [(1, true), (6, false), (1, false)] ∧
      ¬Unbroken lateRing 0x200000 70000 := by
  have walked : (descriptorWalk lateRing 0x200000 70000).map (fun trb => (trb.trbType, chain trb)) =
      [(1, true), (6, false), (1, false)] := by
    decide +kernel
  refine ⟨walked, ?_⟩
  rintro ⟨_, chained⟩
  have length := congrArg length walked
  have second := congrArg (·[1]?) walked
  rw [length_map] at length
  rw [getElem?_map] at second
  obtain ⟨trb, present, flags⟩ := Option.map_eq_some_iff.mp second
  have goesOn := chained.chain_before_last present (by rw [length]; decide)
  rw [(Prod.mk.inj flags).2] at goesOn
  cases goesOn

end HermitLocal.Usb.Descriptor
