import HermitLocal.Runtime.PthreadObjects

/-! Who holds a mutex, who waits for it, and what a signal does. The word of a mutex is one exactly while a thread holds
it. A thread parks only while the word is one, and whoever sets it to zero then wakes one of the parked threads. -/

namespace HermitLocal.Runtime.Pthread
open Function List

theorem woken_parked (pc : Pc) : pc.woken.parkedAt? = none := by
  cases pc <;> rfl

theorem woken_needs (pc : Pc) : pc.woken.needs? = pc.needs? := by
  cases pc <;> rfl

variable {pc : Pc} {object : Address}

theorem woken_running (running : pc.parkedAt? = none) : pc.woken = pc := by
  cases pc with
  | lockParked mutex object | condParked wait mutex => exact absurd running (by simp [Pc.parkedAt?])
  | _ => rfl

theorem woken_wait {wait : Wait} (has : pc.woken.wait? = some wait) : pc.wait? = some wait := by
  cases pc with
  | condParked own mutex => exact absurd has (by simp [Pc.woken, Pc.wait?, Use.wait?])
  | _ => exact has

theorem afterUnlock_running (mutex : Place) (after : Option Wait) :
    (State.afterUnlock mutex after).parkedAt? = none ∧ (State.afterUnlock mutex after).own? = none ∧
      (State.afterUnlock mutex after).needs? = none ∧ (State.afterUnlock mutex after).wait? = after := by
  cases after <;> exact ⟨rfl, rfl, rfl, rfl⟩

section Effects
variable {state next : State} {thread : ThreadId}

variable {other : ThreadId}

section
variable (effect : Effect state thread next)

include effect

theorem Effect.others (another : other ≠ thread) :
    next.pcs other = state.pcs other ∨ next.pcs other = (state.pcs other).woken := by
  have wakes (object : Address) (chosen : List ThreadId) (pc : Pc) :
      ((state.wake object chosen).setPc thread pc).pcs other = state.pcs other ∨
        ((state.wake object chosen).setPc thread pc).pcs other = (state.pcs other).woken := by
    unfold State.setPc State.wake
    dsimp only
    rw [update_of_ne another]
    split
    · exact .inr rfl
    · exact .inl rfl
  cases effect with
  | stay => exact .inl rfl
  | wakeLock choice stands | wakeCond choice stands => exact wakes _ _ _
  | _ => exact .inl (update_of_ne another _ _)

theorem Effect.othersRunning (another : other ≠ thread) (running : (state.pcs other).parkedAt? = none) :
    next.pcs other = state.pcs other := by
  rcases effect.others another with same | woken
  · exact same
  · rw [woken, woken_running running]

theorem Effect.othersParked (another : other ≠ thread) (parked : (next.pcs other).parkedAt? = some object) :
    state.pcs other = next.pcs other := by
  rcases effect.others another with same | woken
  · exact same.symm
  · rw [woken, woken_parked] at parked
    cases parked

structure Carries (state next : State) (thread : ThreadId) (pc : Pc) : Prop where
  needs : ∀ mutex, pc.needs? = some mutex →
    (state.pcs thread).needs? = some mutex ∨ state.holds thread mutex = true
  waits : ∀ wait, pc.wait? = some wait →
    (state.pcs thread).wait? = some wait ∨ wait.seq = state.seqs wait.object
  owns : ∀ object, pc.own? = some object →
    (state.pcs thread).own? = some object ∨ object ∉ state.allocated ∧ next.states object = 0

omit effect in
theorem Carries.update {pcs : ThreadId → Pc} (carries : Carries state next thread pc) :
    Carries state next thread (update pcs thread pc thread) := by
  rwa [update_self]

omit effect in
theorem Carries.less (needs : pc.needs? = none)
    (waits : pc.wait? = none ∨ pc.wait? = (state.pcs thread).wait?) (owns : pc.own? = none) :
    Carries state next thread pc := by
  constructor
  · intro mutex has
    exact absurd (needs.symm.trans has) (by simp)
  · exact fun wait has => .inl (some_of_either waits has)
  · intro object has
    exact absurd (owns.symm.trans has) (by simp)

omit effect in
theorem Carries.same (needs : pc.needs? = (state.pcs thread).needs?)
    (waits : pc.wait? = (state.pcs thread).wait?) (owns : pc.own? = none ∨ pc.own? = (state.pcs thread).own?) :
    Carries state next thread pc := by
  constructor
  · exact fun mutex has => .inl (needs.symm.trans has)
  · exact fun wait has => .inl (waits.symm.trans has)
  · exact fun object has => .inl (some_of_either owns has)

theorem Effect.carriesOn : Carries state next thread (next.pcs thread) := by
  cases effect with
  | stay => exact Carries.same rfl rfl (.inr rfl)
  | move running awake relies own needs waits tries wakes =>
    exact Carries.update ⟨needs, waits, fun object has => .inl (some_of_either own has)⟩
  | allocate stands fresh pointer =>
    apply Carries.update
    constructor
    · exact fun mutex has => .inl (by rwa [stands])
    · exact fun wait has => .inl (by rwa [stands])
    · intro object has
      cases has
      exact .inr ⟨fresh, update_self _ _ _⟩
  | publish stands unchanged =>
    refine Carries.update (Carries.same ?_ ?_ (.inl (resume_rest _ _).1))
    · rw [resume_needs, stands, Pc.needs?]
    · rw [resume_wait, stands, Pc.wait?]
  | discard stands => refine Carries.update (Carries.same ?_ ?_ (.inl rfl)) <;> rw [stands] <;> rfl
  | acquire stands free | parkLock stands locked | wakeCond choice stands | bump stands =>
    exact Carries.update (Carries.less rfl (.inl rfl) rfl)
  | release stands | parkCond stands => exact Carries.update (Carries.less rfl (.inr (by rw [stands]; rfl)) rfl)
  | @wakeLock mutex object after choice stands =>
    obtain ⟨-, own, needs, waits⟩ := afterUnlock_running mutex after
    refine Carries.update (Carries.less needs (.inr ?_) own)
    rw [waits, stands, Pc.wait?]

theorem Effect.carries (other : ThreadId) : Carries state next other (next.pcs other) := by
  by_cases another : other = thread
  · rw [another]
    exact effect.carriesOn
  · rcases effect.others another with same | woken
    · rw [same]
      exact Carries.same rfl rfl (.inr rfl)
    · rw [woken]
      constructor
      · exact fun mutex has => .inl (by rwa [woken_needs] at has)
      · exact fun wait has => .inl (woken_wait has)
      · exact fun object has => .inl (by rwa [woken_own] at has)

theorem Effect.publishes {kind : Kind} {place : Place} (published : Published next.words kind place object) :
    Published state.words kind place object ∨ (state.pcs thread).own? = some object := by
  cases effect with
  | @publish use current made stands unchanged =>
    rcases setWord_published published with ⟨-, rfl⟩ | ⟨-, before⟩
    · rw [stands]
      exact .inr rfl
    · exact .inl before
  | _ => exact .inl published

theorem Effect.seqs (member : object ∈ state.allocated) : state.seqs object ≤ next.seqs object := by
  cases effect with
  | @allocate use current made stands fresh pointer =>
    have apart : object ≠ made := fun same => fresh (same ▸ member)
    exact (update_of_ne apart _ _).ge
  | @bump cond bumped all stands =>
    by_cases same : object = bumped
    · unfold State.bump
      dsimp only
      rw [same, update_self]
      exact Nat.le_succ _
    · exact (update_of_ne same _ _).ge
  | _ => exact le_rfl

inductive Grants (state : State) (thread : ThreadId) : State → Prop
  | same {next : State} (holds : next.holds = state.holds)
      (states : ∀ object ∈ state.allocated, next.states object = state.states object) : Grants state thread next
  | acquires {next : State} {mutex : Place} {object : Address} (published : Published state.words .mutex mutex object)
      (free : state.states object = 0) (words : next.words = state.words)
      (states : next.states = update state.states object 1)
      (holds : next.holds = update state.holds thread (update (state.holds thread) mutex true)) :
      Grants state thread next
  | releases {next : State} {mutex : Place} {object : Address} (published : Published state.words .mutex mutex object)
      (needed : (state.pcs thread).needs? = some mutex) (done : (next.pcs thread).needs? = none)
      (words : next.words = state.words) (states : next.states = update state.states object 0)
      (holds : next.holds = update state.holds thread (update (state.holds thread) mutex false)) :
      Grants state thread next

theorem Effect.grants (relies : Relies state.words (state.pcs thread)) : Grants state thread next := by
  cases effect with
  | @allocate use current made stands fresh pointer =>
    refine Grants.same rfl ?_
    intro object member
    have apart : object ≠ made := fun same => fresh (same ▸ member)
    exact update_of_ne apart _ _
  | acquire stands free =>
    refine Grants.acquires (relies.uses _ _ _ (.inl ?_)) free rfl rfl rfl
    rcases stands with stands | stands <;> rw [stands] <;> rfl
  | release stands =>
    refine Grants.releases (relies.uses _ _ _ (.inl ?_)) ?_ ?_ rfl rfl rfl
    · rw [stands]
      rfl
    · rw [stands]
      rfl
    · unfold State.release State.setPc
      dsimp only
      rw [update_self]
      rfl
  | _ => exact Grants.same rfl fun _ _ => rfl

end

end Effects

/-! The queues of the kernel. -/

def Queued (state : State) : Prop :=
  ∀ thread object, thread ∈ state.queues object ↔ (state.pcs thread).parkedAt? = some object

theorem pick_member {queue : List ThreadId} {choice : Nat} {thread : ThreadId}
    (picked : thread ∈ State.pick queue choice) : thread ∈ queue := by
  unfold State.pick at picked
  rw [Option.mem_toList] at picked
  exact mem_of_getElem? picked

theorem pick_someone {queue : List ThreadId} {thread : ThreadId} (member : thread ∈ queue) (choice : Nat) :
    ∃ picked, picked ∈ State.pick queue choice := by
  have within : choice % queue.length < queue.length := Nat.mod_lt _ (length_pos_of_mem member)
  unfold State.pick
  rw [getElem?_eq_getElem within]
  exact ⟨_, mem_singleton_self _⟩

section Queues
variable {state next : State} {thread : ThreadId}

theorem Queued.setPc (queued : Queued state) (queues : next.queues = state.queues)
    (pcs : next.pcs = update state.pcs thread pc) (running : (state.pcs thread).parkedAt? = none)
    (awake : pc.parkedAt? = none) : Queued next := by
  intro other object
  rw [queues, pcs, queued other object]
  by_cases same : other = thread
  · rw [same, update_self, running, awake]
  · rw [update_of_ne same]

theorem Queued.park (queued : Queued state) (running : (state.pcs thread).parkedAt? = none)
    (parks : pc.parkedAt? = some object) : Queued (state.park thread object pc) := by
  have absent (address : Address) : thread ∉ state.queues address := by
    rw [queued thread address, running]
    simp
  intro other address
  unfold State.park
  dsimp only
  by_cases same : other = thread
  · subst same
    rw [update_self, parks]
    by_cases here : address = object
    · subst here
      simp
    · rw [update_of_ne here]
      simp [absent, Ne.symm here]
  · rw [update_of_ne same, ← queued other address]
    by_cases here : address = object
    · subst here
      rw [update_self, mem_append, mem_singleton]
      exact or_iff_left same
    · rw [update_of_ne here]

theorem Queued.wake {chosen : List ThreadId} (queued : Queued state)
    (within : ∀ other ∈ chosen, other ∈ state.queues object) (running : (state.pcs thread).parkedAt? = none)
    (awake : pc.parkedAt? = none) : Queued ((state.wake object chosen).setPc thread pc) := by
  have unchosen : thread ∉ chosen := by
    intro picked
    have parked := (queued thread object).mp (within thread picked)
    rw [running] at parked
    cases parked
  have woken : Queued (state.wake object chosen) := by
    intro other address
    unfold State.wake
    dsimp only
    by_cases picked : other ∈ chosen
    · rw [if_pos picked, woken_parked]
      rw [update_apply]
      split
      · simp [picked]
      next here =>
        rw [queued other address, (queued other object).mp (within other picked)]
        simp [Ne.symm here]
    · rw [if_neg picked, ← queued other address]
      by_cases here : address = object
      · rw [here, update_self]
        simp [picked]
      · rw [update_of_ne here]
  refine woken.setPc rfl rfl ?_ awake
  unfold State.wake
  dsimp only
  rwa [if_neg unchosen]

theorem Queued.effect (queued : Queued state) (effect : Effect state thread next) : Queued next := by
  cases effect with
  | stay => exact queued
  | move running awake relies own needs waits tries wakes => exact queued.setPc rfl rfl running awake
  | allocate stands fresh pointer | discard stands | release stands | bump stands =>
    exact queued.setPc rfl rfl (by rw [stands]; rfl) rfl
  | publish stands unchanged => exact queued.setPc rfl rfl (by rw [stands]; rfl) (resume_rest _ _).2.1
  | acquire stands free =>
    refine queued.setPc rfl rfl ?_ rfl
    rcases stands with stands | stands <;> rw [stands] <;> rfl
  | parkLock stands locked | parkCond stands => exact queued.park (by rw [stands]; rfl) rfl
  | wakeLock choice stands =>
    apply queued.wake (fun other => pick_member) (by rw [stands]; rfl) (afterUnlock_running _ _).1
  | @wakeCond cond object all choice stands =>
    refine queued.wake ?_ (by rw [stands]; rfl) rfl
    intro other picked
    cases all with
    | false => exact pick_member picked
    | true => exact picked

end Queues

/-! Mutual exclusion. -/

structure Locks (state : State) : Prop where
  needs : ∀ thread mutex, (state.pcs thread).needs? = some mutex → state.holds thread mutex = true
  locked : ∀ thread mutex, state.holds thread mutex = true →
    ∃ object, Published state.words .mutex mutex object ∧ state.states object = 1
  alone : ∀ thread other mutex, state.holds thread mutex = true → state.holds other mutex = true → thread = other
  free : ∀ mutex object, Published state.words .mutex mutex object →
    state.states object = 0 ∨ ∃ thread, state.holds thread mutex = true
  fresh : ∀ thread object, (state.pcs thread).own? = some object → state.states object = 0

section Locking
variable {state next : State} {thread : ThreadId}

theorem Locks.needed (locks : Locks state) (effect : Effect state thread next) (other : ThreadId) (mutex : Place)
    (needs : (next.pcs other).needs? = some mutex) : state.holds other mutex = true :=
  ((effect.carries other).needs mutex needs).elim (locks.needs other mutex) id

variable {mutex : Place}

theorem Objects.mutexes (objects : Objects state) {other : Place}
    (one : Published state.words .mutex mutex object) (two : Published state.words .mutex other object) :
    mutex = other :=
  (objects.apart .mutex mutex object .mutex other one two.1).2

section
variable (locks : Locks state) (objects : Objects state) (effect : Effect state thread next)

include locks objects effect

theorem Locks.sameHolds (holds : next.holds = state.holds)
    (states : ∀ object ∈ state.allocated, next.states object = state.states object) : Locks next := by
  constructor
  · intro other mutex needs
    rw [holds]
    exact locks.needed effect other mutex needs
  · intro other mutex held
    rw [holds] at held
    obtain ⟨object, published, one⟩ := locks.locked other mutex held
    refine ⟨object, (effect.advances objects).published published, ?_⟩
    rw [states object (objects.allocated .mutex mutex object published), one]
  · rw [holds]
    exact locks.alone
  · intro mutex object published
    rw [holds]
    rcases effect.publishes published with before | own
    · rw [states object (objects.allocated .mutex mutex object before)]
      exact locks.free mutex object before
    · rw [states object (objects.own thread object own).1]
      exact .inl (locks.fresh thread object own)
  · intro other object owns
    rcases (effect.carries other).owns object owns with before | ⟨-, zero⟩
    · rw [states object (objects.own other object before).1]
      exact locks.fresh other object before
    · exact zero

theorem Locks.acquires (published : Published state.words .mutex mutex object) (free : state.states object = 0)
    (words : next.words = state.words) (states : next.states = update state.states object 1)
    (holds : next.holds = update state.holds thread (update (state.holds thread) mutex true)) : Locks next := by
  have nobody (other : ThreadId) : ¬ state.holds other mutex = true := by
    intro held
    obtain ⟨own, known, one⟩ := locks.locked other mutex held
    rw [known.same published, free] at one
    cases one
  have held (other : ThreadId) (place : Place) :
      next.holds other place = true ↔ other = thread ∧ place = mutex ∨ state.holds other place = true := by
    rw [holds, update_at]
    split <;> simp [*]
  constructor
  · intro other place needs
    exact (held other place).mpr (.inr (locks.needed effect other place needs))
  · intro other place holding
    rw [words, states]
    rcases (held other place).mp holding with ⟨-, rfl⟩ | before
    · exact ⟨object, published, update_self _ _ _⟩
    · obtain ⟨own, known, one⟩ := locks.locked other place before
      refine ⟨own, known, ?_⟩
      by_cases same : own = object
      · rw [same, update_self]
      · rw [update_of_ne same, one]
  · intro one other place first second
    rcases (held one place).mp first with ⟨oneHere, rfl⟩ | before
    · rcases (held other place).mp second with ⟨otherHere, -⟩ | earlier
      · exact oneHere.trans otherHere.symm
      · exact absurd earlier (nobody other)
    · rcases (held other place).mp second with ⟨-, rfl⟩ | earlier
      · exact absurd before (nobody one)
      · exact locks.alone one other place before earlier
  · intro place own known
    rw [words] at known
    rw [states]
    by_cases same : own = object
    · subst same
      exact .inr ⟨thread, (held thread place).mpr (.inl ⟨rfl, objects.mutexes known published⟩)⟩
    · rw [update_of_ne same]
      rcases locks.free place own known with zero | ⟨other, before⟩
      · exact .inl zero
      · exact .inr ⟨other, (held other place).mpr (.inr before)⟩
  · intro other own owns
    rcases (effect.carries other).owns own owns with before | ⟨-, zero⟩
    · have apart : own ≠ object := by
        rintro rfl
        exact (objects.own other own before).2.2 .mutex mutex published.1
      rw [states, update_of_ne apart]
      exact locks.fresh other own before
    · exact zero

theorem Locks.releases
    (published : Published state.words .mutex mutex object) (needed : (state.pcs thread).needs? = some mutex)
    (done : (next.pcs thread).needs? = none) (words : next.words = state.words)
    (states : next.states = update state.states object 0)
    (holds : next.holds = update state.holds thread (update (state.holds thread) mutex false)) :
    Locks next := by
  have held (other : ThreadId) (place : Place) :
      next.holds other place = true ↔ ¬ (other = thread ∧ place = mutex) ∧ state.holds other place = true := by
    rw [holds, update_at]
    split <;> simp [*]
  constructor
  · intro other place needs
    refine (held other place).mpr ⟨?_, locks.needed effect other place needs⟩
    rintro ⟨rfl, -⟩
    exact absurd (done.symm.trans needs) (by simp)
  · intro other place holding
    obtain ⟨elsewhere, before⟩ := (held other place).mp holding
    obtain ⟨own, known, one⟩ := locks.locked other place before
    have apart : own ≠ object := by
      rintro rfl
      have here := objects.mutexes known published
      subst here
      exact elsewhere ⟨locks.alone other thread place before (locks.needs thread place needed), rfl⟩
    rw [words, states]
    refine ⟨own, known, ?_⟩
    rw [update_of_ne apart, one]
  · intro one other place first second
    exact locks.alone one other place ((held one place).mp first).2 ((held other place).mp second).2
  · intro place own known
    rw [words] at known
    rw [states]
    rw [update_apply]
    split
    · exact .inl rfl
    next same =>
      rcases locks.free place own known with zero | ⟨other, before⟩
      · exact .inl zero
      · refine .inr ⟨other, (held other place).mpr ⟨?_, before⟩⟩
        rintro ⟨-, rfl⟩
        exact same (known.same published)
  · intro other own owns
    rcases (effect.carries other).owns own owns with before | ⟨-, zero⟩
    · rw [states]
      by_cases same : own = object
      · rw [same, update_self]
      · rw [update_of_ne same]
        exact locks.fresh other own before
    · exact zero

end

theorem Locks.effect (locks : Locks state) (objects : Objects state) (effect : Effect state thread next) :
    Locks next := by
  cases effect.grants (objects.relies thread) with
  | same holds states => exact locks.sameHolds objects effect holds states
  | acquires published free words states holds => exact locks.acquires objects effect published free words states holds
  | releases published needed done words states holds =>
    exact locks.releases objects effect published needed done words states holds

end Locking

end HermitLocal.Runtime.Pthread
