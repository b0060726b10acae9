import HermitLocal.Usb.TrbRing

/-! The ring through which the controller hands its events to the driver. It has no link: both
sides turn round behind the last slot, and only the cycle bit tells a new event from one
of the lap before. -/

namespace HermitLocal.Usb.EventQueue
open Lib.Simulation Lib.CycleRing Usb.Events List Option
open Usb.TrbRing (cycle_setCycle setCycle_again cycleStamp emptyBlock)

structure EventRing where
  slots : List Trb
  size : Nat
  dequeue : Nat
  cycle : Bool
  slots_length : slots.length = size
  dequeue_lt : dequeue < size

namespace EventRing

def new (trbCount : Nat) (positive : 0 < trbCount) : EventRing where
  slots := replicate trbCount Trb.new
  size := trbCount
  dequeue := 0
  cycle := true
  slots_length := length_replicate
  dequeue_lt := positive

def head (ring : EventRing) : Trb := ring.slots.get ⟨ring.dequeue, ring.slots_length ▸ ring.dequeue_lt⟩

def tryDequeue (ring : EventRing) : Option Trb × EventRing :=
  if ring.head.cycle = ring.cycle then
    (some ring.head,
      if more : ring.dequeue + 1 < ring.size then { ring with dequeue := ring.dequeue + 1, dequeue_lt := more }
      else { ring with dequeue := 0, cycle := !ring.cycle, dequeue_lt := Nat.zero_lt_of_lt ring.dequeue_lt })
  else (none, ring)

end EventRing

structure Producer where
  index : Nat
  cycle : Bool

def Producer.next (producer : Producer) (size : Nat) : Producer :=
  if producer.index + 1 < size then { producer with index := producer.index + 1 } else ⟨0, !producer.cycle⟩

structure Session where
  ring : EventRing
  producer : Producer
  produced : List Trb
  returned : List Trb

inductive Input where
  | write (event : Trb)
  | dequeue

def Session.step (session : Session) : Input → Session
  | .write event =>
      { session with
        ring := { session.ring with
          slots := session.ring.slots.set session.producer.index (event.setCycle session.producer.cycle)
          slots_length := by rw [length_set, session.ring.slots_length] }
        producer := session.producer.next session.ring.size
        produced := session.produced ++ [event.setCycle session.producer.cycle] }
  | .dequeue =>
      { session with
        ring := session.ring.tryDequeue.2
        returned := session.returned ++ session.ring.tryDequeue.1.toList }

def Session.start (ring : EventRing) : Session := ⟨ring, ⟨0, true⟩, [], []⟩

def Roomy (session : Session) : Input → Prop
  | .write _ => session.produced.length < session.returned.length + session.ring.size
  | .dequeue => True

instance (session : Session) : (input : Input) → Decidable (Roomy session input)
  | .write _ => Nat.decLt _ _
  | .dequeue => instDecidableTrue

structure Exact (session : Session) : Prop where
  inOrder : session.returned <+: session.produced
  next : session.ring.tryDequeue.1 = session.produced[session.returned.length]?
  nothing : session.ring.tryDequeue.1 = none ↔ session.returned = session.produced

/-! One turn of either side. -/

theorem head_eq (ring : EventRing) : ring.slots[ring.dequeue]? = some ring.head :=
  getElem?_eq_getElem (ring.slots_length ▸ ring.dequeue_lt)

theorem producer_next {size count : Nat} (positive : 0 < size) :
    (Producer.mk (count % size) (lapBit size count)).next size = ⟨(count + 1) % size, lapBit size (count + 1)⟩ := by
  have bound := Nat.mod_lt count positive
  unfold Producer.next
  by_cases within : count % size + 1 < size
  · rw [if_pos within, (next_within within).1, lapBit_within within]
  · have last : count % size + 1 = size := by omega
    rw [if_neg within, (next_wrap last).1, lapBit_wrap last]

section TryDequeue
variable {ring : EventRing}

theorem tryDequeue_foreign (foreign : ring.head.cycle ≠ ring.cycle) : ring.tryDequeue = (none, ring) := by
  unfold EventRing.tryDequeue
  rw [if_neg foreign]

theorem tryDequeue_own (own : ring.head.cycle = ring.cycle) : ring.tryDequeue.1 = some ring.head := by
  unfold EventRing.tryDequeue
  rw [if_pos own]

theorem tryDequeue_slots : ring.tryDequeue.2.slots = ring.slots ∧ ring.tryDequeue.2.size = ring.size := by
  unfold EventRing.tryDequeue
  split
  · split <;> exact ⟨rfl, rfl⟩
  · exact ⟨rfl, rfl⟩

theorem tryDequeue_turn (own : ring.head.cycle = ring.cycle) {count : Nat} (index : ring.dequeue = count % ring.size)
    (cycle : ring.cycle = lapBit ring.size count) :
    ring.tryDequeue.2.dequeue = (count + 1) % ring.size ∧ ring.tryDequeue.2.cycle = lapBit ring.size (count + 1) := by
  have bound := ring.dequeue_lt
  unfold EventRing.tryDequeue
  rw [if_pos own]
  by_cases within : ring.dequeue + 1 < ring.size
  · rw [dif_pos within]
    rw [index] at within
    rw [(next_within within).1, lapBit_within within]
    exact ⟨congrArg (· + 1) index, cycle⟩
  · have last : ring.dequeue + 1 = ring.size := by omega
    rw [dif_neg within]
    rw [index] at last
    rw [(next_wrap last).1, lapBit_wrap last]
    exact ⟨rfl, congrArg not cycle⟩

end TryDequeue

/-! The ring against the record of a session. -/

structure Follows (session : Session) : Prop where
  producer : session.producer =
    ⟨session.produced.length % session.ring.size, lapBit session.ring.size session.produced.length⟩
  written : Written cycleStamp session.ring.size Trb.new (fun index => session.ring.slots[index]?) session.produced
  stamped : ∀ (place : Nat) (event : Trb), session.produced[place]? = some event →
    event.setCycle (lapBit session.ring.size place) = event
  index : session.ring.dequeue = session.returned.length % session.ring.size
  cycle : session.ring.cycle = lapBit session.ring.size session.returned.length
  inOrder : session.returned <+: session.produced
  near : session.produced.length ≤ session.returned.length + session.ring.size

theorem follows_start (size : Nat) (positive : 0 < size) : Follows (Session.start (EventRing.new size positive)) := by
  have bit : true = lapBit size 0 := (lapBit_first positive).symm
  constructor
  · change Producer.mk 0 true = ⟨0 % size, lapBit size 0⟩
    rw [Nat.zero_mod, bit]
  · constructor
    · intro place item present
      cases present
    · intro index _ inside
      exact getElem?_replicate_of_lt inside
  · intro place event present
    cases present
  · exact (Nat.zero_mod size).symm
  · exact bit
  · exact prefix_rfl
  · exact Nat.zero_le _

theorem follows_write {session : Session} (follows : Follows session) {event : Trb} (roomy : Roomy session (.write event)) :
    Follows (session.step (.write event)) := by
  have positive : 0 < session.ring.size := Nat.zero_lt_of_lt session.ring.dequeue_lt
  have length : (session.step (.write event)).produced.length = session.produced.length + 1 := length_append
  have slot : session.producer.index = session.produced.length % session.ring.size := by rw [follows.producer]
  have bit : session.producer.cycle = lapBit session.ring.size session.produced.length := by rw [follows.producer]
  have inside : session.producer.index < session.ring.slots.length := by
    rw [slot, session.ring.slots_length]
    exact Nat.mod_lt _ positive
  constructor
  · rw [length]
    change session.producer.next session.ring.size = _
    rw [follows.producer]
    exact producer_next positive
  · apply follows.written.push positive
    · change (session.ring.slots.set _ _)[_]? = some ((event.setCycle _).setCycle _)
      rw [← slot, List.getElem?_set_self inside, setCycle_again, bit]
    · intro other _ apart
      rw [← slot] at apart
      exact List.getElem?_set_ne (Ne.symm apart)
  · intro place found present
    change (session.produced ++ [_])[place]? = some found at present
    change found.setCycle (lapBit session.ring.size place) = found
    rcases concat_cases present with ⟨-, before⟩ | ⟨rfl, rfl⟩
    · exact follows.stamped place found before
    · rw [setCycle_again, bit]
  · exact follows.index
  · exact follows.cycle
  · exact follows.inOrder.trans (prefix_append _ _)
  · rw [length]
    exact roomy

section Dequeue
variable {session : Session} (follows : Follows session)

include follows

theorem head_waiting {event : Trb} (waiting : session.produced[session.returned.length]? = some event) :
    session.ring.head = event ∧ session.ring.head.cycle = session.ring.cycle := by
  have stored := follows.written.recent _ _ waiting follows.near
  have same : event = session.ring.head := by
    have present := head_eq session.ring
    rw [follows.index, stored] at present
    rw [← some.inj present]
    exact (follows.stamped _ _ waiting).symm
  constructor
  · exact same.symm
  · calc session.ring.head.cycle
        = (event.setCycle (lapBit session.ring.size session.returned.length)).cycle := by
          rw [follows.stamped _ _ waiting, same]
      _ = lapBit session.ring.size session.returned.length := cycle_setCycle _ _
      _ = session.ring.cycle := follows.cycle.symm

theorem head_stale (empty : session.produced.length = session.returned.length) :
    session.ring.head.cycle ≠ session.ring.cycle := by
  obtain ⟨item, stored, bit⟩ := follows.written.stale (Nat.zero_lt_of_lt session.ring.dequeue_lt) rfl
  have present := head_eq session.ring
  rw [follows.index, ← empty, stored] at present
  rw [← some.inj present, follows.cycle, ← empty]
  intro same
  rw [show item.cycle = _ from bit] at same
  exact (Bool.not_eq_self _).mp same

theorem tryDequeue_eq : session.ring.tryDequeue.1 = session.produced[session.returned.length]? := by
  cases waiting : session.produced[session.returned.length]? with
  | none =>
    have beyond := getElem?_eq_none_iff.mp waiting
    have empty := Nat.le_antisymm beyond follows.inOrder.length_le
    rw [tryDequeue_foreign (head_stale follows empty)]
  | some event =>
    obtain ⟨same, own⟩ := head_waiting follows waiting
    rw [tryDequeue_own own, same]

theorem follows_dequeue : Follows (session.step .dequeue) := by
  cases waiting : session.produced[session.returned.length]? with
  | none =>
    have beyond := getElem?_eq_none_iff.mp waiting
    have foreign := head_stale follows (Nat.le_antisymm beyond follows.inOrder.length_le)
    have still : session.step .dequeue = session := by
      unfold Session.step
      rw [tryDequeue_foreign foreign]
      rw [toList_none, append_nil]
    rwa [still]
  | some event =>
    obtain ⟨same, own⟩ := head_waiting follows waiting
    have taken : session.ring.tryDequeue.1 = some event := by rw [tryDequeue_own own, same]
    have length : (session.step .dequeue).returned.length = session.returned.length + 1 := by
      change (session.returned ++ session.ring.tryDequeue.1.toList).length = _
      rw [taken, length_append]
      rfl
    have slots : session.ring.tryDequeue.2.slots = session.ring.slots := tryDequeue_slots.1
    have size : (session.step .dequeue).ring.size = session.ring.size := tryDequeue_slots.2
    have turn := tryDequeue_turn own follows.index follows.cycle
    constructor
    · rw [size]
      exact follows.producer
    · rw [size]
      change Written _ _ _ (fun index => session.ring.tryDequeue.2.slots[index]?) _
      rw [slots]
      exact follows.written
    · rw [size]
      exact follows.stamped
    · rw [length, size]
      exact turn.1
    · rw [length, size]
      exact turn.2
    · change session.returned ++ session.ring.tryDequeue.1.toList <+: session.produced
      rw [taken, prefix_iff_eq_take, length_append, toList_some, length_singleton, take_add_one, waiting,
        ← prefix_iff_eq_take.mp follows.inOrder]
      rfl
    · have near := follows.near
      change session.produced.length ≤ _
      omega

theorem exact_of_follows : Exact session := by
  refine ⟨follows.inOrder, tryDequeue_eq follows, ?_⟩
  rw [tryDequeue_eq follows, getElem?_eq_none_iff]
  constructor
  · exact follows.inOrder.eq_of_length_le
  · intro same
    exact Nat.le_of_eq (congrArg length same).symm

end Dequeue

theorem follows_step (session : Session) (input : Input) (follows : Follows session) (roomy : Roomy session input) :
    Follows (session.step input) := by
  cases input with
  | write event => exact follows_write follows roomy
  | dequeue => exact follows_dequeue follows

/-- The driver gets the events that were produced, in order, and no others. -/
theorem eventRing_exact (size : Nat) (positive : 0 < size) (inputs : List Input)
    (roomy : Guarded Session.step Roomy (Session.start (EventRing.new size positive)) inputs) :
    Exact (inputs.foldl Session.step (Session.start (EventRing.new size positive))) := by
  apply exact_of_follows
  exact roomy.preserves follows_step (follows_start size positive)

theorem eventRing_exact_laps :
    Exact ([Input.write emptyBlock, .write Trb.new, .dequeue, .write emptyBlock, .dequeue, .dequeue, .dequeue].foldl Session.step
        (Session.start (EventRing.new 2 Nat.two_pos))) ∧
      Exact ([Input.write emptyBlock, .dequeue, .write Trb.new, .dequeue, .dequeue].foldl Session.step
        (Session.start (EventRing.new 1 Nat.one_pos))) := by
  constructor
  · apply eventRing_exact 2 Nat.two_pos
    exact ⟨by decide, by decide, trivial, by decide, trivial, trivial, trivial, trivial⟩
  · apply eventRing_exact 1 Nat.one_pos
    exact ⟨by decide, trivial, by decide, trivial, trivial, trivial⟩

end HermitLocal.Usb.EventQueue
