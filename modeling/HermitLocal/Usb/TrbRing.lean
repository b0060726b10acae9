import Mathlib.Algebra.Group.Nat.Defs
import HermitLocal.Lib.CycleRing
import HermitLocal.Usb.Events

/-! The ring through which the driver hands transfer request blocks to the controller. The
last slot holds a link back to the first one, rewritten on each lap; the controller
follows the cycle bits. Together they are a queue. -/

namespace HermitLocal.Usb.Events.Trb

def new : Trb := ⟨0, 0, 0⟩

def setCycle (trb : Trb) (cycle : Bool) : Trb :=
  { trb with control := if cycle then trb.control ||| 1 else trb.control &&& ~~~1 }

def cycle (trb : Trb) : Bool := trb.control &&& 1 != 0

end HermitLocal.Usb.Events.Trb

namespace HermitLocal.Usb.TrbRing
open Lib.Simulation Lib.CycleRing Usb.Events
open List

def LINK : UInt32 := 6
def TOGGLE_CYCLE : UInt32 := 2

def togglesCycle (trb : Trb) : Bool := trb.trbType == LINK.toUInt8 && trb.control &&& TOGGLE_CYCLE != 0

structure Ring where
  base : UInt64
  slots : List Trb
  enqueueIndex : Nat
  cycle : Bool
  size : Nat
  slots_length : slots.length = size
  index_lt : enqueueIndex + 1 < size
  fits : base.toNat + 16 * size ≤ 2 ^ 64

namespace Ring

def new (base : UInt64) (trbCount : Nat) (two : 2 ≤ trbCount) (fits : base.toNat + 16 * trbCount ≤ 2 ^ 64) : Ring where
  base := base
  slots := replicate trbCount Trb.new
  enqueueIndex := 0
  cycle := true
  size := trbCount
  slots_length := length_replicate
  index_lt := two
  fits := fits

def address (ring : Ring) (index : Nat) : UInt64 := ring.base + (index * 16).toUInt64

def link (ring : Ring) : Trb := ⟨ring.base, 0, LINK <<< 10 ||| 2⟩

def enqueue (ring : Ring) (trb : Trb) : UInt64 × Ring :=
  if wraps : ring.enqueueIndex + 1 ≥ ring.size - 1 then
    (ring.address ring.enqueueIndex, { ring with
      slots := (ring.slots.set ring.enqueueIndex (trb.setCycle ring.cycle)).set (ring.enqueueIndex + 1)
        (ring.link.setCycle ring.cycle)
      enqueueIndex := 0
      cycle := !ring.cycle
      slots_length := by rw [length_set, length_set, ring.slots_length]
      index_lt := by have := ring.index_lt; omega })
  else
    (ring.address ring.enqueueIndex, { ring with
      slots := ring.slots.set ring.enqueueIndex (trb.setCycle ring.cycle)
      enqueueIndex := ring.enqueueIndex + 1
      slots_length := by rw [length_set, ring.slots_length]
      index_lt := by omega })

def read (ring : Ring) (addr : UInt64) : Option Trb := ring.slots[((addr - ring.base) / 16).toNat]?

end Ring

structure Consumer where
  dequeue : UInt64
  cycle : Bool
deriving DecidableEq

def Consumer.fetch (consumer : Consumer) (ring : Ring) : Option (UInt64 × Trb) × Consumer :=
  match ring.read consumer.dequeue with
  | none => (none, consumer)
  | some trb =>
      if trb.cycle ≠ consumer.cycle then (none, consumer)
      else if togglesCycle trb then (none, ⟨trb.param, !consumer.cycle⟩)
      else (some (consumer.dequeue, trb), { consumer with dequeue := consumer.dequeue + 16 })

structure Session where
  ring : Ring
  consumer : Consumer
  enqueued : List (UInt64 × Trb)
  consumed : List (UInt64 × Trb)

inductive Input where
  | enqueue (trb : Trb)
  | fetch

def Session.step (session : Session) : Input → Session
  | .enqueue trb =>
      { session with
        ring := (session.ring.enqueue trb).2
        enqueued := session.enqueued ++ [((session.ring.enqueue trb).1, trb)] }
  | .fetch =>
      { session with
        consumer := (session.consumer.fetch session.ring).2
        consumed := session.consumed ++ (session.consumer.fetch session.ring).1.toList }

def Session.start (ring : Ring) : Session := ⟨ring, ⟨ring.base, true⟩, [], []⟩

def bare (entry : UInt64 × Trb) : UInt64 × Trb := (entry.1, entry.2.setCycle false)

structure Fifo (session : Session) : Prop where
  inOrder : session.consumed.map bare = (session.enqueued.map bare).take session.consumed.length
  progress : session.consumed.length < session.enqueued.length →
    ∃ entry, (session.step .fetch).consumed = session.consumed ++ [entry] ∨
      ((session.step .fetch).step .fetch).consumed = session.consumed ++ [entry]
  rest : session.consumed.length = session.enqueued.length → (session.step .fetch).consumed = session.consumed

/-! The bits of a block. -/

theorem cycle_setCycle (trb : Trb) (cycle : Bool) : (trb.setCycle cycle).cycle = cycle := by
  unfold Trb.cycle Trb.setCycle
  cases cycle with
  | true =>
    have bit : (trb.control ||| 1) &&& 1 = 1 := by
      apply UInt32.toBitVec_inj.mp
      ext index inside
      simp
      grind
    rw [if_pos rfl, bit]
    rfl
  | false =>
    rw [if_neg Bool.false_ne_true, UInt32.and_assoc, show (~~~1 &&& 1 : UInt32) = 0 from rfl, UInt32.and_zero]
    rfl

theorem setCycle_again (trb : Trb) (first second : Bool) : (trb.setCycle first).setCycle second = trb.setCycle second := by
  unfold Trb.setCycle
  congr 1
  apply UInt32.toBitVec_inj.mp
  ext index inside
  cases first <;> cases second
  all_goals
    simp only [if_true, Bool.false_eq_true, if_false, UInt32.toBitVec_or, UInt32.toBitVec_and, UInt32.toBitVec_not,
      BitVec.getElem_or, BitVec.getElem_and, BitVec.getElem_not]
    grind

theorem control_setCycle (trb : Trb) (cycle : Bool) {mask : UInt32} (apart : 1 &&& mask = 0) (others : ~~~1 &&& mask = mask) :
    (trb.setCycle cycle).control &&& mask = trb.control &&& mask := by
  unfold Trb.setCycle
  cases cycle with
  | true =>
    rw [if_pos rfl]
    have spread : (trb.control ||| 1) &&& mask = (trb.control &&& mask) ||| (1 &&& mask) := by
      apply UInt32.toBitVec_inj.mp
      ext index inside
      simp
      grind
    rw [spread, apart, UInt32.or_zero]
  | false => rw [if_neg Bool.false_ne_true, UInt32.and_assoc, others]

theorem trbType_eq (trb : Trb) : trb.trbType = ((trb.control &&& 0xfc00) >>> 10).toUInt8 := by
  rw [Trb.trbType, UInt32.shiftRight_and, show (0xfc00 : UInt32) >>> 10 = 0x3f from rfl]

theorem trbType_setCycle (trb : Trb) (cycle : Bool) : (trb.setCycle cycle).trbType = trb.trbType := by
  rw [trbType_eq, trbType_eq, control_setCycle trb cycle rfl rfl]

theorem togglesCycle_setCycle (trb : Trb) (cycle : Bool) : togglesCycle (trb.setCycle cycle) = togglesCycle trb := by
  unfold togglesCycle
  rw [trbType_setCycle, control_setCycle trb cycle rfl rfl]

def cycleStamp : Stamp Trb := ⟨fun cycle trb => trb.setCycle cycle, Trb.cycle, fun cycle trb => cycle_setCycle trb cycle⟩

/-! Addresses and slots. -/

section
variable (ring : Ring)

include ring

theorem read_address {index : Nat} (inside : index < ring.size) :
    ring.read (ring.address index) = ring.slots[index]? := by
  have fits := ring.fits
  have back : ((ring.address index - ring.base) / 16).toNat = index := by
    have offset : ring.address index - ring.base = (index * 16).toUInt64 := by
      rw [Ring.address, UInt64.add_comm, UInt64.add_sub_cancel]
    rw [offset, UInt64.toNat_div, UInt64.toNat_ofNat_of_lt' (show index * 16 < 2 ^ 64 by omega)]
    exact Nat.mul_div_cancel index (by decide)
  rw [Ring.read, back]

theorem address_succ (index : Nat) : ring.address index + 16 = ring.address (index + 1) := by
  rw [Ring.address, Ring.address, UInt64.add_assoc, Nat.add_mul, Nat.toUInt64_eq, Nat.toUInt64_eq, UInt64.ofNat_add]
  rfl

theorem address_zero : ring.address 0 = ring.base := by
  exact UInt64.add_zero _

/-! One call of `enqueue`. -/

def Ring.room (ring : Ring) : Nat := ring.size - 1

theorem room_pos : 0 < ring.room := by
  have := ring.index_lt
  unfold Ring.room
  omega

variable (trb : Trb)

theorem enqueue_address : (ring.enqueue trb).1 = ring.address ring.enqueueIndex := by
  unfold Ring.enqueue
  split <;> rfl

theorem enqueue_base : (ring.enqueue trb).2.base = ring.base := by
  unfold Ring.enqueue
  split <;> rfl

theorem enqueue_size : (ring.enqueue trb).2.size = ring.size := by
  unfold Ring.enqueue
  split <;> rfl

theorem enqueue_room : (ring.enqueue trb).2.room = ring.room := by
  unfold Ring.room
  rw [enqueue_size]

theorem enqueue_addresses : (ring.enqueue trb).2.address = ring.address := by
  funext index
  unfold Ring.address
  rw [enqueue_base]

theorem enqueue_link : (ring.enqueue trb).2.link = ring.link := by
  unfold Ring.link
  rw [enqueue_base]

theorem enqueue_stored :
    (ring.enqueue trb).2.slots[ring.enqueueIndex]? = some (trb.setCycle ring.cycle) := by
  have inside : ring.enqueueIndex < ring.slots.length := by
    rw [ring.slots_length]
    exact Nat.lt_of_succ_lt ring.index_lt
  unfold Ring.enqueue
  split
  · rw [getElem?_set_ne (Nat.succ_ne_self _), getElem?_set_self inside]
  · rw [getElem?_set_self inside]

theorem enqueue_kept {index : Nat} (inside : index < ring.room)
    (other : index ≠ ring.enqueueIndex) : (ring.enqueue trb).2.slots[index]? = ring.slots[index]? := by
  unfold Ring.room at inside
  unfold Ring.enqueue
  split
  · rw [getElem?_set_ne (by omega), getElem?_set_ne (Ne.symm other)]
  · rw [getElem?_set_ne (Ne.symm other)]

theorem enqueue_within (inside : ring.enqueueIndex + 1 < ring.room) :
    (ring.enqueue trb).2.enqueueIndex = ring.enqueueIndex + 1 ∧ (ring.enqueue trb).2.cycle = ring.cycle ∧
      (ring.enqueue trb).2.slots[ring.room]? = ring.slots[ring.room]? := by
  unfold Ring.room at inside
  unfold Ring.enqueue
  rw [dif_neg (by omega)]
  refine ⟨rfl, rfl, ?_⟩
  unfold Ring.room
  exact getElem?_set_ne (by omega)

theorem enqueue_wraps (last : ring.enqueueIndex + 1 = ring.room) :
    (ring.enqueue trb).2.enqueueIndex = 0 ∧ (ring.enqueue trb).2.cycle = !ring.cycle ∧
      (ring.enqueue trb).2.slots[ring.room]? = some (ring.link.setCycle ring.cycle) := by
  have inside : ring.enqueueIndex + 1 < ring.slots.length := by
    rw [ring.slots_length]
    exact ring.index_lt
  unfold Ring.enqueue
  rw [dif_pos (by unfold Ring.room at last; omega)]
  refine ⟨rfl, rfl, ?_⟩
  rw [← last]
  exact getElem?_set_self (by rwa [length_set])

end

/-! The ring against the record of a session. -/

def Consumer.At (consumer : Consumer) (ring : Ring) (taken : Nat) : Prop :=
  consumer = ⟨ring.address (taken % ring.room), lapBit ring.room taken⟩ ∨
    0 < taken ∧ taken % ring.room = 0 ∧ consumer = ⟨ring.address ring.room, !lapBit ring.room taken⟩

structure Follows (session : Session) : Prop where
  index : session.ring.enqueueIndex = session.enqueued.length % session.ring.room
  cycle : session.ring.cycle = lapBit session.ring.room session.enqueued.length
  written : Written cycleStamp session.ring.room Trb.new (fun index => session.ring.slots[index]?)
    (session.enqueued.map Prod.snd)
  link : session.ring.room ≤ session.enqueued.length →
    session.ring.slots[session.ring.room]? = some (session.ring.link.setCycle !session.ring.cycle)
  addresses : ∀ place entry, session.enqueued[place]? = some entry →
    entry.1 = session.ring.address (place % session.ring.room)
  plain : ∀ entry ∈ session.enqueued, togglesCycle entry.2 = false
  reading : session.consumer.At session.ring session.consumed.length
  inOrder : session.consumed.map bare = (session.enqueued.map bare).take session.consumed.length
  ahead : session.consumed.length ≤ session.enqueued.length
  near : session.enqueued.length < session.consumed.length + session.ring.room

def Roomy (session : Session) : Input → Prop
  | .enqueue trb => togglesCycle trb = false ∧
      session.enqueued.length + 1 < session.consumed.length + (session.ring.size - 1)
  | .fetch => True

theorem follows_start (base : UInt64) (size : Nat) (two : 2 ≤ size) (fits : base.toNat + 16 * size ≤ 2 ^ 64) :
    Follows (Session.start (Ring.new base size two fits)) := by
  constructor
  · exact (Nat.zero_mod _).symm
  · exact (lapBit_first (room_pos _)).symm
  · constructor
    · intro place item present
      cases present
    · intro index _ inside
      change index < size - 1 at inside
      exact getElem?_replicate_of_lt (by omega)
  · intro full
    exact absurd (room_pos _) (Nat.not_lt.mpr full)
  · intro place entry present
    cases present
  · intro entry inside
    cases inside
  · left
    rw [show (Session.start (Ring.new base size two fits)).consumed.length = 0 from rfl, Nat.zero_mod, address_zero,
      lapBit_first (room_pos _)]
    rfl
  · rfl
  · exact Nat.le_refl 0
  · exact Nat.lt_of_lt_of_le (room_pos _) (Nat.le_add_left _ _)

section NextSlot
variable {ring : Ring} {count : Nat} (index : ring.enqueueIndex = count % ring.room) (trb : Trb)

include index

theorem within_or_last : ring.enqueueIndex + 1 < ring.room ∨ ring.enqueueIndex + 1 = ring.room := by
  have bound : count % ring.room < ring.room := Nat.mod_lt _ (room_pos ring)
  omega

theorem enqueue_next_index : (ring.enqueue trb).2.enqueueIndex = (count + 1) % ring.room := by
  rcases within_or_last index with inside | last
  · rw [(enqueue_within _ _ inside).1, (next_within (by rwa [← index])).1, index]
  · rw [(enqueue_wraps _ _ last).1, (next_wrap (by rwa [← index])).1]

theorem enqueue_next_cycle (cycle : ring.cycle = lapBit ring.room count) :
    (ring.enqueue trb).2.cycle = lapBit ring.room (count + 1) := by
  rcases within_or_last index with inside | last
  · rw [(enqueue_within _ _ inside).2.1, lapBit_within (by rwa [← index]), cycle]
  · rw [(enqueue_wraps _ _ last).2.1, lapBit_wrap (by rwa [← index]), cycle]

theorem enqueue_next_link
    (link : ring.room ≤ count → ring.slots[ring.room]? = some (ring.link.setCycle !ring.cycle))
    (full : ring.room ≤ count + 1) :
    (ring.enqueue trb).2.slots[ring.room]? = some (ring.link.setCycle !(ring.enqueue trb).2.cycle) := by
  rcases within_or_last index with inside | last
  · obtain ⟨_, same, kept⟩ := enqueue_within ring trb inside
    rw [same, kept]
    apply link
    -- The last slot of the first lap wraps, so the ring was already full before.
    by_contra few
    rw [index, Nat.mod_eq_of_lt (by omega)] at inside
    omega
  · obtain ⟨_, flipped, stored⟩ := enqueue_wraps ring trb last
    rw [flipped, stored, Bool.not_not]

end NextSlot

theorem follows_enqueue {session : Session} (follows : Follows session) {trb : Trb} (roomy : Roomy session (.enqueue trb)) :
    Follows (session.step (.enqueue trb)) := by
  obtain ⟨plain, space⟩ := roomy
  have index := follows.index
  have frame := enqueue_room session.ring trb
  have length : (session.step (.enqueue trb)).enqueued.length = session.enqueued.length + 1 :=
    length_append
  constructor
  · rw [length]
    change (session.ring.enqueue trb).2.enqueueIndex = (session.enqueued.length + 1) % (session.ring.enqueue trb).2.room
    rw [frame]
    exact enqueue_next_index index trb
  · rw [length]
    change (session.ring.enqueue trb).2.cycle = lapBit (session.ring.enqueue trb).2.room (session.enqueued.length + 1)
    rw [frame]
    exact enqueue_next_cycle index trb follows.cycle
  · change Written cycleStamp (session.ring.enqueue trb).2.room Trb.new _ ((session.enqueued ++ [_]).map Prod.snd)
    rw [frame, map_append]
    apply follows.written.push (room_pos session.ring)
    · rw [length_map, ← index, ← follows.cycle]
      exact enqueue_stored session.ring trb
    · intro other inside apart
      rw [length_map, ← index] at apart
      exact enqueue_kept session.ring trb inside apart
  · rw [length]
    intro full
    change (session.ring.enqueue trb).2.slots[(session.ring.enqueue trb).2.room]? =
      some ((session.ring.enqueue trb).2.link.setCycle !(session.ring.enqueue trb).2.cycle)
    change (session.ring.enqueue trb).2.room ≤ session.enqueued.length + 1 at full
    rw [frame] at full
    rw [frame, enqueue_link]
    exact enqueue_next_link index trb follows.link full
  · intro place entry present
    change entry.1 = (session.ring.enqueue trb).2.address (place % (session.ring.enqueue trb).2.room)
    change (session.enqueued ++ [_])[place]? = some entry at present
    rw [frame, enqueue_addresses]
    rcases concat_cases present with ⟨-, before⟩ | ⟨rfl, rfl⟩
    · exact follows.addresses place entry before
    · rw [← index, enqueue_address]
  · intro entry inside
    rcases mem_append.mp inside with old | new
    · exact follows.plain entry old
    · rw [mem_singleton.mp new]
      exact plain
  · change session.consumer.At (session.ring.enqueue trb).2 session.consumed.length
    unfold Consumer.At
    rw [frame, enqueue_addresses]
    exact follows.reading
  · change session.consumed.map bare = ((session.enqueued ++ [_]).map bare).take session.consumed.length
    rw [map_append, take_append_of_le_length (by rw [length_map]; exact follows.ahead)]
    exact follows.inOrder
  · rw [length]
    exact Nat.le_succ_of_le follows.ahead
  · rw [length]
    change session.enqueued.length + 1 < session.consumed.length + (session.ring.enqueue trb).2.room
    rw [frame]
    exact space

/-! One look of the controller at the ring. -/

theorem link_toggles (ring : Ring) : togglesCycle ring.link = true := by
  change ((((LINK <<< 10 ||| 2) >>> 10 &&& 0x3f).toUInt8 == LINK.toUInt8) && (LINK <<< 10 ||| 2) &&& TOGGLE_CYCLE != 0) = true
  decide

variable {consumer : Consumer}

theorem fetch_of_read {ring : Ring} {trb : Trb} (found : ring.read consumer.dequeue = some trb) :
    consumer.fetch ring =
      if trb.cycle ≠ consumer.cycle then (none, consumer)
      else if togglesCycle trb then (none, ⟨trb.param, !consumer.cycle⟩)
      else (some (consumer.dequeue, trb), { consumer with dequeue := consumer.dequeue + 16 }) := by
  rw [Consumer.fetch, found]

def AtSlot (session : Session) : Prop :=
  session.consumer = ⟨session.ring.address (session.consumed.length % session.ring.room),
    lapBit session.ring.room session.consumed.length⟩

section Fetch
variable {session : Session}

theorem read_slot (slot : AtSlot session) :
    session.ring.read session.consumer.dequeue = session.ring.slots[session.consumed.length % session.ring.room]? := by
  have inside := Nat.mod_lt session.consumed.length (room_pos session.ring)
  have size : session.ring.room ≤ session.ring.size := Nat.sub_le _ _
  rw [slot]
  exact read_address session.ring (by omega)

variable (follows : Follows session)
include follows

theorem fetch_idle (slot : AtSlot session) (same : session.consumed.length = session.enqueued.length) :
    session.consumer.fetch session.ring = (none, session.consumer) := by
  obtain ⟨trb, stored, stale⟩ := follows.written.stale (room_pos session.ring) rfl
  rw [length_map, ← same] at stored stale
  have found := read_slot slot
  rw [stored] at found
  rw [fetch_of_read found]
  rw [show trb.cycle = _ from stale, slot]
  simp

theorem fetch_block (slot : AtSlot session) {entry : UInt64 × Trb}
    (next : session.enqueued[session.consumed.length]? = some entry) : session.consumer.fetch session.ring =
      (some (entry.1, entry.2.setCycle session.consumer.cycle),
        ⟨session.ring.address (session.consumed.length % session.ring.room + 1), session.consumer.cycle⟩) := by
  have near := follows.near
  have present : (session.enqueued.map Prod.snd)[session.consumed.length]? = some entry.2 := by
    rw [getElem?_map, next, Option.map_some]
  have stored := follows.written.recent _ _ present (by rw [length_map]; omega)
  have own : lapBit session.ring.room session.consumed.length = session.consumer.cycle := by rw [slot]
  have found : session.ring.read session.consumer.dequeue = some (entry.2.setCycle session.consumer.cycle) := by
    rw [read_slot slot, ← own]
    exact stored
  have plain : togglesCycle (entry.2.setCycle session.consumer.cycle) = false := by
    rw [togglesCycle_setCycle]
    exact follows.plain entry (mem_of_getElem? next)
  have address : session.consumer.dequeue = entry.1 := by
    rw [slot, follows.addresses _ _ next]
  rw [fetch_of_read found, if_neg (not_not_intro (cycle_setCycle _ _))]
  rw [plain, if_neg Bool.false_ne_true, ← address_succ, ← follows.addresses _ _ next, ← address]

theorem fetch_link (positive : 0 < session.consumed.length) (wrapped : session.consumed.length % session.ring.room = 0)
    (reading : session.consumer = ⟨session.ring.address session.ring.room, !lapBit session.ring.room session.consumed.length⟩) :
    session.consumer.fetch session.ring =
      (none, ⟨session.ring.address (session.consumed.length % session.ring.room),
        lapBit session.ring.room session.consumed.length⟩) := by
  have ahead := follows.ahead
  have full : session.ring.room ≤ session.enqueued.length :=
    Nat.le_trans (Nat.le_of_dvd positive (Nat.dvd_of_mod_eq_zero wrapped)) ahead
  have inside : session.ring.room < session.ring.size := by
    have := session.ring.index_lt
    unfold Ring.room
    omega
  have own : session.consumer.cycle = !session.ring.cycle := by
    rw [reading, follows.cycle, lapBit_lap wrapped ahead follows.near]
  have found : session.ring.read session.consumer.dequeue = some (session.ring.link.setCycle session.consumer.cycle) := by
    rw [own, ← follows.link full, reading]
    exact read_address session.ring inside
  rw [fetch_of_read found, if_neg (not_not_intro (cycle_setCycle _ _)), togglesCycle_setCycle, link_toggles, if_pos rfl,
    wrapped, address_zero]
  rw [reading, Bool.not_not]
  rfl

theorem fetch_cases : (∃ consumer, session.consumer.fetch session.ring = (none, consumer) ∧
      consumer = ⟨session.ring.address (session.consumed.length % session.ring.room),
        lapBit session.ring.room session.consumed.length⟩) ∨
    ∃ entry cycle, session.enqueued[session.consumed.length]? = some entry ∧
      cycle = lapBit session.ring.room session.consumed.length ∧
      session.consumer.fetch session.ring = (some (entry.1, entry.2.setCycle cycle),
        ⟨session.ring.address (session.consumed.length % session.ring.room + 1), cycle⟩) := by
  rcases follows.reading with slot | ⟨positive, wrapped, reading⟩
  · rcases Nat.lt_or_eq_of_le follows.ahead with fewer | same
    · right
      have next := getElem?_eq_getElem fewer
      have own : session.consumer.cycle = lapBit session.ring.room session.consumed.length := by rw [slot]
      exact ⟨_, _, next, own, fetch_block follows slot next⟩
    · left
      exact ⟨_, fetch_idle follows slot same, slot⟩
  · left
    exact ⟨_, fetch_link follows positive wrapped reading, rfl⟩

omit follows in
theorem step_nothing (nothing : session.consumer.fetch session.ring = (none, consumer)) :
    session.step .fetch = { session with consumer := consumer } := by
  unfold Session.step
  rw [nothing]
  simp

omit follows in
theorem step_taken {entry : UInt64 × Trb}
    (taken : session.consumer.fetch session.ring = (some entry, consumer)) :
    session.step .fetch = { session with consumer := consumer, consumed := session.consumed ++ [entry] } := by
  unfold Session.step
  rw [taken]
  rfl

theorem follows_fetch : Follows (session.step .fetch) := by
  rcases fetch_cases follows with ⟨consumer, nothing, slot⟩ | ⟨entry, cycle, next, own, taken⟩
  · rw [step_nothing nothing]
    exact { follows with reading := .inl slot }
  · have length : (session.consumed ++ [(entry.1, entry.2.setCycle cycle)]).length = session.consumed.length + 1 :=
      length_append
    have inside := (List.getElem?_eq_some_iff.mp next).1
    rw [step_taken taken]
    refine { follows with reading := ?_, inOrder := ?_, ahead := ?_, near := ?_ }
    · rw [length]
      by_cases last : session.consumed.length % session.ring.room + 1 = session.ring.room
      · right
        refine ⟨Nat.succ_pos _, (next_wrap last).1, ?_⟩
        rw [last, lapBit_wrap last, Bool.not_not, own]
      · left
        have within : session.consumed.length % session.ring.room + 1 < session.ring.room := by
          have := Nat.mod_lt session.consumed.length (room_pos session.ring)
          omega
        rw [(next_within within).1, lapBit_within within, own]
    · have stripped : bare (entry.1, entry.2.setCycle cycle) = bare entry := by
        unfold bare
        rw [setCycle_again]
      rw [length, map_append, follows.inOrder, take_add_one, getElem?_map, next, map_singleton, stripped]
      rfl
    · rw [length]
      exact inside
    · rw [length]
      have := follows.near
      change session.enqueued.length < session.consumed.length + 1 + session.ring.room
      omega

theorem fetch_progress (waiting : session.consumed.length < session.enqueued.length) :
    ∃ entry, (session.step .fetch).consumed = session.consumed ++ [entry] ∨
      ((session.step .fetch).step .fetch).consumed = session.consumed ++ [entry] := by
  rcases fetch_cases follows with ⟨consumer, nothing, slot⟩ | ⟨entry, cycle, _, _, taken⟩
  · have later := follows_fetch follows
    rw [step_nothing nothing] at later ⊢
    have taken := fetch_block later slot (getElem?_eq_getElem waiting)
    exact ⟨_, .inr (congrArg Session.consumed (step_taken taken))⟩
  · exact ⟨_, .inl (congrArg Session.consumed (step_taken taken))⟩

theorem fifo_of_follows : Fifo session := by
  refine ⟨follows.inOrder, fetch_progress follows, ?_⟩
  intro same
  rcases fetch_cases follows with ⟨consumer, nothing, _⟩ | ⟨entry, cycle, next, _⟩
  · rw [step_nothing nothing]
  · have inside := (List.getElem?_eq_some_iff.mp next).1
    omega

end Fetch

theorem follows_step (session : Session) (input : Input) (follows : Follows session) (roomy : Roomy session input) :
    Follows (session.step input) := by
  cases input with
  | enqueue trb => exact follows_enqueue follows roomy
  | fetch => exact follows_fetch follows

/-- A ring of any size and its controller are a queue. -/
theorem ring_refines_fifo (base : UInt64) (size : Nat) (large : 3 ≤ size) (fits : base.toNat + 16 * size ≤ 2 ^ 64)
    (inputs : List Input)
    (roomy : Guarded Session.step Roomy (Session.start (Ring.new base size (Nat.le_of_succ_le large) fits)) inputs) :
    Fifo (inputs.foldl Session.step (Session.start (Ring.new base size (Nat.le_of_succ_le large) fits))) := by
  apply fifo_of_follows
  exact roomy.preserves follows_step (follows_start base size (Nat.le_of_succ_le large) fits)

def smallRing : Ring := Ring.new 0x1000 3 (by decide) (by decide)

def emptyBlock : Trb := ⟨0, 0, 0x400⟩

theorem ring_refines_fifo_lap :
    Fifo ([Input.enqueue emptyBlock, .fetch, .enqueue emptyBlock, .fetch, .enqueue emptyBlock, .fetch, .fetch].foldl Session.step
      (Session.start smallRing)) := by
  apply ring_refines_fifo 0x1000 3 (by decide) (by decide)
  exact ⟨⟨by decide, by decide⟩, trivial, ⟨by decide, by decide⟩, trivial, ⟨by decide, by decide⟩, trivial, trivial, trivial⟩

theorem enqueued_link_followed : let link : Trb := ⟨0x1010, 0, LINK <<< 10 ||| TOGGLE_CYCLE⟩
    let session := [Input.enqueue link, .fetch, .fetch].foldl Session.step (Session.start smallRing)
    session.enqueued = [(0x1000, link)] ∧ session.consumed = [(0x1010, Trb.new)] := by
  decide

end HermitLocal.Usb.TrbRing
