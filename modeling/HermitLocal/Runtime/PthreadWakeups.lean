import HermitLocal.Runtime.PthreadLocks

/-! No wakeup is lost. Whenever a mutex is free while threads are parked at it, another thread is about to try it or to
wake one of them. A signal changes the number that a waiter has read, and then wakes one that is parked already. -/

namespace HermitLocal.Runtime.Pthread
open Function

def Pc.Serves (pc : Pc) (mutex : Place) (object : Address) : Prop :=
  pc = .lockExchange mutex object ∨ ∃ after, pc = .unlockWake mutex object after

variable {object : Address} {state : State} {wait : Wait} {thread : ThreadId} {pc : Pc}

theorem Pc.Serves.running {mutex : Place} (serves : pc.Serves mutex object) : pc.parkedAt? = none := by
  rcases serves with rfl | ⟨after, rfl⟩ <;> rfl

def Served (state : State) : Prop :=
  ∀ waiter mutex object, state.pcs waiter = .lockParked mutex object → state.states object = 0 →
    ∃ thread, (state.pcs thread).Serves mutex object

section Serving
variable {state next : State} {thread waiter : ThreadId} {mutex : Place} {object : Address}

theorem Objects.parkedLock (objects : Objects state) (published : Published state.words .mutex mutex object)
    (parked : (state.pcs waiter).parkedAt? = some object) : state.pcs waiter = .lockParked mutex object := by
  have relies := objects.relies waiter
  cases stands : state.pcs waiter with
  | lockParked place own =>
    rw [stands] at relies parked
    cases parked
    rw [objects.mutexes published (relies.uses .mutex place object (.inl rfl))]
  | condParked wait place =>
    rw [stands] at relies parked
    cases parked
    have waited := relies.uses .cond wait.cond wait.object (.inr ⟨wait, rfl, rfl, rfl, rfl⟩)
    exact absurd (objects.apart _ _ _ _ _ waited published.1).1 (by simp)
  | _ =>
    rw [stands] at parked
    exact absurd parked (by simp [Pc.parkedAt?])

theorem another_of_awake (awake : (next.pcs thread).parkedAt? = none)
    (waits : next.pcs waiter = .lockParked mutex object) : waiter ≠ thread := by
  rintro rfl
  rw [waits] at awake
  exact absurd awake (by simp [Pc.parkedAt?])

theorem Effect.waited (effect : Effect state thread next) (another : waiter ≠ thread)
    (waits : next.pcs waiter = .lockParked mutex object) : state.pcs waiter = .lockParked mutex object := by
  have parked : (next.pcs waiter).parkedAt? = some object := by rw [waits]; rfl
  rw [effect.othersParked another parked, waits]

theorem Objects.waited (objects : Objects state) (waits : state.pcs waiter = .lockParked mutex object) :
    Published state.words .mutex mutex object := by
  have relies := objects.relies waiter
  rw [waits] at relies
  exact relies.uses .mutex mutex object (.inl rfl)

theorem Served.keep (served : Served state) (effect : Effect state thread next) (another : waiter ≠ thread)
    (waits : next.pcs waiter = .lockParked mutex object) (zero : state.states object = 0)
    (leaves : ¬ (state.pcs thread).Serves mutex object) : ∃ other, (next.pcs other).Serves mutex object := by
  obtain ⟨other, serves⟩ := served waiter mutex object (effect.waited another waits) zero
  have different : other ≠ thread := by
    rintro rfl
    exact leaves serves
  refine ⟨other, ?_⟩
  rwa [effect.othersRunning different serves.running]

theorem Served.woken {after : Option Wait} (objects : Objects state) (queued : Queued state) (choice : Nat)
    (stands : state.pcs thread = .unlockWake mutex object after)
    (waits : state.pcs waiter = .lockParked mutex object) :
    ∃ other, (((state.wake object (State.pick (state.queues object) choice)).setPc thread
      (State.afterUnlock mutex after)).pcs other).Serves mutex object := by
  have member : waiter ∈ state.queues object := by
    rw [queued waiter object, waits]
    rfl
  obtain ⟨picked, chosen⟩ := pick_someone member choice
  have parked := objects.parkedLock (objects.waited waits) ((queued picked object).mp (pick_member chosen))
  have different : picked ≠ thread := by
    rintro rfl
    exact absurd (stands.symm.trans parked) (by simp)
  refine ⟨picked, .inl ?_⟩
  unfold State.setPc State.wake
  dsimp only
  rw [update_of_ne different, if_pos chosen, parked, Pc.woken]

theorem Served.effect (served : Served state) (objects : Objects state) (queued : Queued state)
    (effect : Effect state thread next) : Served next := by
  intro waiter mutex object waits zero
  have whole := effect
  have awake {pcs : ThreadId → Pc} {pc : Pc} (running : pc.parkedAt? = none) :
      (update pcs thread pc thread).parkedAt? = none := by
    rwa [update_self]
  cases effect with
  | stay => exact served waiter mutex object waits zero
  | move running rests relies own needs reads tries wakes =>
    refine served.keep whole (another_of_awake (awake rests) waits) waits zero ?_
    rintro (trying | ⟨after, waking⟩)
    · exact tries mutex object trying zero
    · exact wakes mutex object after waking
  | @allocate use current made stands fresh pointer =>
    have another := another_of_awake (awake rfl) waits
    have apart : object ≠ made := by
      rintro rfl
      exact fresh (objects.allocated _ _ _ (objects.waited (whole.waited another waits)))
    refine served.keep whole another waits ?_ (by simp [stands, Pc.Serves])
    exact (update_of_ne apart _ _).symm.trans zero
  | publish stands unchanged =>
    have another := another_of_awake (awake (resume_rest _ _).2.1) waits
    exact served.keep whole another waits zero (by simp [stands, Pc.Serves])
  | discard stands | wakeCond choice stands | bump stands =>
    exact served.keep whole (another_of_awake (awake rfl) waits) waits zero (by simp [stands, Pc.Serves])
  | @acquire taken own stands free =>
    have apart : object ≠ own := by
      rintro rfl
      exact absurd ((update_self _ _ _).symm.trans zero) (by simp)
    refine served.keep whole (another_of_awake (awake rfl) waits) waits ?_ ?_
    · exact (update_of_ne apart _ _).symm.trans zero
    · rcases stands with stands | stands
      · simp [stands, Pc.Serves, Ne.symm apart]
      · simp [stands, Pc.Serves]
  | @release given own after stands =>
    have another := another_of_awake (awake rfl) waits
    by_cases same : object = own
    · subst same
      have relies := objects.relies thread
      rw [stands] at relies
      have here := objects.mutexes (objects.waited (whole.waited another waits))
        (relies.uses .mutex given object (.inl rfl))
      rw [here]
      exact ⟨thread, .inr ⟨after, update_self _ _ _⟩⟩
    · refine served.keep whole another waits ?_ (by simp [stands, Pc.Serves])
      exact (update_of_ne same _ _).symm.trans zero
  | @parkLock place own stands locked =>
    have another : waiter ≠ thread := by
      rintro rfl
      have here : Pc.lockParked place own = .lockParked mutex object := (update_self _ _ _).symm.trans waits
      cases here
      exact absurd (locked.symm.trans zero) (by simp)
    exact served.keep whole another waits zero (by simp [stands, Pc.Serves])
  | @parkCond wait place stands =>
    have another : waiter ≠ thread := by
      rintro rfl
      have here : Pc.condParked wait place = .lockParked mutex object := (update_self _ _ _).symm.trans waits
      cases here
    exact served.keep whole another waits zero (by simp [stands, Pc.Serves])
  | @wakeLock given own after choice stands =>
    have another := another_of_awake (awake (afterUnlock_running given after).1) waits
    have waited := whole.waited another waits
    by_cases same : object = own
    · subst same
      have relies := objects.relies thread
      rw [stands] at relies
      have here := objects.mutexes (objects.waited waited) (relies.uses .mutex given object (.inl rfl))
      rw [here] at waited ⊢
      exact Served.woken objects queued choice stands waited
    · exact served.keep whole another waits zero (by simp [stands, Pc.Serves, Ne.symm same])

end Serving

/-! Every run. -/

def Counted (state : State) : Prop :=
  ∀ thread wait, (state.pcs thread).wait? = some wait → wait.seq ≤ state.seqs wait.object

structure Invariant (state : State) : Prop where
  objects : Objects state
  queued : Queued state
  locks : Locks state
  served : Served state
  counted : Counted state

theorem Objects.waitsOn (objects : Objects state) (waits : (state.pcs thread).wait? = some wait) :
    Published state.words .cond wait.cond wait.object :=
  (objects.relies thread).uses .cond wait.cond wait.object (.inr ⟨wait, waits, rfl, rfl, rfl⟩)

theorem Counted.effect {next : State} (counted : Counted state) (objects : Objects state)
    (effect : Effect state thread next) : Counted next := by
  intro other wait waits
  have member : wait.object ∈ state.allocated := by
    rcases effect.publishes ((objects.effect effect).waitsOn waits) with before | own
    · exact objects.allocated .cond wait.cond wait.object before
    · exact (objects.own thread wait.object own).1
  apply le_trans _ (effect.seqs member)
  rcases (effect.carries other).waits wait waits with before | read
  · exact counted other wait before
  · exact read.le

section
variable (invariant : Invariant state)

include invariant

theorem Invariant.effect {next : State} (effect : Effect state thread next) : Invariant next where
  objects := invariant.objects.effect effect
  queued := invariant.queued.effect effect
  locks := invariant.locks.effect invariant.objects effect
  served := invariant.served.effect invariant.objects invariant.queued effect
  counted := invariant.counted.effect invariant.objects effect

theorem Invariant.executed (actions : List (ThreadId × Action)) : Invariant (execute state actions) := by
  induction actions generalizing state with
  | nil => exact invariant
  | cons action actions ih => exact ih (invariant.effect (Effect.of_step invariant.objects action))

theorem Published.executed {kind : Kind} {place : Place} (published : Published state.words kind place object)
    (actions : List (ThreadId × Action)) : Published (execute state actions).words kind place object := by
  induction actions generalizing state with
  | nil => exact published
  | cons action actions ih =>
    have effect := Effect.of_step invariant.objects action
    exact ih (invariant.effect effect) ((effect.advances invariant.objects).published published)

theorem Published.seqs {kind : Kind} {place : Place} (published : Published state.words kind place object)
    (actions : List (ThreadId × Action)) : state.seqs object ≤ (execute state actions).seqs object := by
  induction actions generalizing state with
  | nil => exact le_rfl
  | cons action actions ih =>
    have effect := Effect.of_step invariant.objects action
    have later := ih (invariant.effect effect) ((effect.advances invariant.objects).published published)
    exact (effect.seqs (invariant.objects.allocated kind place object published)).trans later

theorem execute_others (running : (state.pcs thread).parkedAt? = none) (actions : List (ThreadId × Action))
    (others : ∀ action ∈ actions, action.1 ≠ thread) :
    (execute state actions).pcs thread = state.pcs thread := by
  induction actions generalizing state with
  | nil => rfl
  | cons action actions ih =>
    have effect := Effect.of_step invariant.objects action
    have same := effect.othersRunning (others action List.mem_cons_self).symm running
    rw [← same] at running ⊢
    exact ih (invariant.effect effect) running fun later member => others later (List.mem_cons_of_mem _ member)

/-! A signal. -/

def Pc.Waiting (pc : Pc) (wait : Wait) : Prop :=
  (∃ mutex object, pc = .unlockWake mutex object (some wait)) ∨
    ∃ mutex, pc = .condWait wait mutex ∨ pc = .condParked wait mutex

omit invariant in
theorem Pc.Waiting.waits (waiting : pc.Waiting wait) : pc.wait? = some wait := by
  rcases waiting with ⟨mutex, object, rfl⟩ | ⟨mutex, rfl | rfl⟩ <;> rfl

def Heard (before after : State) (waiter : ThreadId) (wait : Wait) (all : Bool) : Prop :=
  (before.pcs waiter).wait? ≠ some wait ∨
    (∃ woken, (all = true → woken = waiter) ∧ (before.pcs woken).parkedAt? = some wait.object ∧
      (after.pcs woken).parkedAt? = none) ∨
    (after.pcs waiter).parkedAt? = none ∧
      ∀ actions mutex choice, (execute after actions).pcs waiter = .condWait wait mutex →
        (execute after actions).seqs wait.object < wait.seq + 2 ^ 32 →
        ((execute after actions).run waiter choice).pcs waiter = .load (.lock mutex)

omit invariant in
theorem condWait_returns {waiter : ThreadId} {mutex : Place} (choice : Nat)
    (stands : state.pcs waiter = .condWait wait mutex) (signalled : wait.seq < state.seqs wait.object)
    (few : state.seqs wait.object < wait.seq + 2 ^ 32) :
    (state.run waiter choice).pcs waiter = .load (.lock mutex) := by
  have differ : state.seqs wait.object % 2 ^ 32 ≠ wait.seq % 2 ^ 32 := by omega
  unfold State.run
  rw [stands]
  dsimp only
  rw [if_neg differ]
  exact update_self _ _ _

omit invariant in
theorem wait_parked (waits : pc.wait? = some wait) : pc.parkedAt? = none ∨ pc.parkedAt? = some wait.object := by
  cases pc with
  | condParked own mutex =>
    cases waits
    exact .inr rfl
  | lockParked mutex object => exact absurd waits (by simp [Pc.wait?])
  | _ => exact .inl rfl

theorem Invariant.wakes {signaller : ThreadId} (waiter : ThreadId) {cond : Place} {all : Bool}
    (stands : state.pcs signaller = .condWake cond wait.object all)
    (signalled : wait.seq < state.seqs wait.object) (choice : Nat) :
    Heard state (step state (signaller, .run choice)) waiter wait all := by
  have effect := Effect.of_step invariant.objects (signaller, .run choice)
  have wakes : step state (signaller, .run choice) = (state.wake wait.object
      (if all then state.queues wait.object else State.pick (state.queues wait.object) choice)).setPc signaller .user := by
    unfold step State.run
    rw [stands]
  by_cases waits : (state.pcs waiter).wait? = some wait
  case neg => exact .inl waits
  have published := invariant.objects.waitsOn waits
  have different (other : ThreadId) (parked : (state.pcs other).parkedAt? = some wait.object) : other ≠ signaller := by
    rintro rfl
    rw [stands] at parked
    exact absurd parked (by simp [Pc.parkedAt?])
  rcases wait_parked waits with running | parked
  · have another : waiter ≠ signaller := by
      rintro rfl
      rw [stands] at waits
      exact absurd waits (by simp [Pc.wait?])
    refine .inr (.inr ⟨?_, ?_⟩)
    · rw [effect.othersRunning another running, running]
    · intro actions mutex wake returns few
      have member := invariant.objects.allocated .cond wait.cond wait.object published
      have later := ((effect.advances invariant.objects).published published).seqs (invariant.effect effect) actions
      exact condWait_returns wake returns ((signalled.trans_le (effect.seqs member)).trans_le later) few
  · have member := (invariant.queued waiter wait.object).mpr parked
    have someone : ∃ woken, woken ∈ (if all then state.queues wait.object
        else State.pick (state.queues wait.object) choice) ∧ (all = true → woken = waiter) ∧
        (state.pcs woken).parkedAt? = some wait.object := by
      cases all with
      | true => exact ⟨waiter, member, fun _ => rfl, parked⟩
      | false =>
        obtain ⟨woken, chosen⟩ := pick_someone member choice
        exact ⟨woken, chosen, by simp, (invariant.queued woken wait.object).mp (pick_member chosen)⟩
    obtain ⟨woken, chosen, self, slept⟩ := someone
    refine .inr (.inl ⟨woken, self, slept, ?_⟩)
    rw [wakes]
    unfold State.setPc State.wake
    dsimp only
    rw [update_of_ne (different woken slept), if_pos chosen, woken_parked]

theorem Invariant.signal {signaller waiter : ThreadId} {cond : Place} {all : Bool}
    (stands : state.pcs signaller = .addSeq cond wait.object all) (waiting : (state.pcs waiter).Waiting wait)
    (choice wake : Nat) (actions : List (ThreadId × Action))
    (others : ∀ action ∈ actions, action.1 ≠ signaller) :
    Heard (execute state ((signaller, .run choice) :: actions))
      (step (execute state ((signaller, .run choice) :: actions)) (signaller, .run wake)) waiter wait all := by
  have bumps : step state (signaller, .run choice) = state.bump signaller cond wait.object all := by
    unfold step State.run
    rw [stands]
  have bumped := invariant.effect (Effect.of_step invariant.objects (signaller, .run choice))
  rw [bumps] at bumped
  have published : Published (state.bump signaller cond wait.object all).words .cond wait.cond wait.object :=
    invariant.objects.waitsOn waiting.waits
  have ready : (state.bump signaller cond wait.object all).pcs signaller = .condWake cond wait.object all :=
    update_self _ _ _
  have count : (state.bump signaller cond wait.object all).seqs wait.object = state.seqs wait.object + 1 :=
    update_self _ _ _
  change Heard (execute (step state (signaller, .run choice)) actions)
    (step (execute (step state (signaller, .run choice)) actions) (signaller, .run wake)) waiter wait all
  rw [bumps]
  apply (bumped.executed actions).wakes waiter
  · rw [execute_others bumped (by rw [ready]; rfl) actions others, ready]
  · have read := invariant.counted waiter wait waiting.waits
    have grows := published.seqs bumped actions
    omega

end

structure Start (state : State) : Prop where
  user : ∀ thread, state.pcs thread = .user
  free : ∀ thread mutex, state.holds thread mutex = false
  empty : ∀ object, state.queues object = []
  allocated : ∀ kind place object, Published state.words kind place object → object ∈ state.allocated
  apart : ∀ kind place object other elsewhere, Published state.words kind place object →
    state.words other elsewhere = object → kind = other ∧ place = elsewhere
  zero : ∀ mutex object, Published state.words .mutex mutex object → state.states object = 0

theorem Start.invariant (start : Start state) : Invariant state := by
  constructor
  · constructor
    · intro thread
      rw [start.user thread]
      exact Relies.user state.words
    · exact start.allocated
    · exact start.apart
    · intro thread object owns
      rw [start.user thread] at owns
      exact absurd owns (by simp [Pc.own?])
    · intro thread other object owns
      rw [start.user thread] at owns
      exact absurd owns (by simp [Pc.own?])
  · intro thread object
    rw [start.empty object, start.user thread]
    simp [Pc.parkedAt?]
  · constructor
    · intro thread mutex needs
      rw [start.user thread] at needs
      exact absurd needs (by simp [Pc.needs?])
    · intro thread mutex held
      exact absurd held (by simp [start.free thread mutex])
    · intro thread other mutex held
      exact absurd held (by simp [start.free thread mutex])
    · exact fun mutex object published => .inl (start.zero mutex object published)
    · intro thread object owns
      rw [start.user thread] at owns
      exact absurd owns (by simp [Pc.own?])
  · intro waiter mutex object waits
    exact absurd ((start.user waiter).symm.trans waits) (by simp)
  · intro thread wait waits
    rw [start.user thread] at waits
    exact absurd waits (by simp [Pc.wait?])

/-- However the threads are interleaved: mutual exclusion, one object each, no lost signal. -/
theorem pthread_layer_correct {start : State} (fresh : Start start) (actions : List (ThreadId × Action)) :
    (∀ thread other mutex, (execute start actions).holds thread mutex = true →
      (execute start actions).holds other mutex = true → thread = other) ∧
    (∀ thread other kind place object another later, ((execute start actions).pcs thread).Uses kind place object →
      ((execute (execute start actions) later).pcs other).Uses kind place another → object = another) ∧
    (∀ waiter mutex object, Published (execute start actions).words .mutex mutex object →
      (∀ thread, (execute start actions).holds thread mutex = false) →
      waiter ∈ (execute start actions).queues object →
      ∃ thread, thread ≠ waiter ∧ ((execute start actions).pcs thread).Serves mutex object) ∧
    ∀ signaller waiter wait cond all choice wake between,
      (execute start actions).pcs signaller = .addSeq cond wait.object all →
      ((execute start actions).pcs waiter).Waiting wait → (∀ action ∈ between, action.1 ≠ signaller) →
      Heard (execute (execute start actions) ((signaller, .run choice) :: between))
        (step (execute (execute start actions) ((signaller, .run choice) :: between)) (signaller, .run wake))
        waiter wait all := by
  have invariant := fresh.invariant.executed actions
  constructor
  · exact invariant.locks.alone
  constructor
  · intro thread other kind place object another later uses reuses
    have published := (invariant.objects.relies thread).uses kind place object uses
    exact (published.executed invariant later).same
      (((invariant.executed later).objects.relies other).uses kind place another reuses)
  constructor
  · intro waiter mutex object published nobody queued
    have waits := invariant.objects.parkedLock published ((invariant.queued waiter object).mp queued)
    have zero : (execute start actions).states object = 0 := by
      rcases invariant.locks.free mutex object published with zero | ⟨thread, held⟩
      · exact zero
      · exact absurd held (by simp [nobody thread])
    obtain ⟨thread, serves⟩ := invariant.served waiter mutex object waits zero
    refine ⟨thread, ?_, serves⟩
    rintro rfl
    have running := serves.running
    rw [waits] at running
    exact absurd running (by simp [Pc.parkedAt?])
  · intro signaller waiter wait cond all choice wake between stands waiting others
    exact invariant.signal stands waiting choice wake between others

def untouched : State where
  words := fun _ _ => 0
  states := fun _ => 0
  seqs := fun _ => 0
  allocated := []
  queues := fun _ => []
  pcs := fun _ => .user
  holds := fun _ _ => false

theorem untouched_start : Start untouched := by
  have unpublished (kind : Kind) (place : Place) (object : Address) : ¬ Published untouched.words kind place object := by
    rintro ⟨rfl, pointer⟩
    change isInitializer kind 0 = false at pointer
    cases kind <;> cases pointer
  constructor
  · exact fun thread => rfl
  · exact fun thread mutex => rfl
  · exact fun object => rfl
  · exact fun kind place object published => absurd published (unpublished kind place object)
  · exact fun kind place object other elsewhere published => absurd published (unpublished kind place object)
  · exact fun mutex object published => absurd published (unpublished .mutex mutex object)

def firstUse : List (ThreadId × Action) :=
  [(1, .call (.lock 8)), (2, .call (.lock 8)), (1, .run 0), (2, .run 0), (1, .run 100), (2, .run 200), (1, .run 0),
    (2, .run 0), (2, .run 0), (2, .run 0), (1, .run 0), (2, .run 0), (2, .run 0), (1, .call (.unlock 8)), (1, .run 0),
    (1, .run 0)]

def signalInTime : List (ThreadId × Action) :=
  [(1, .call (.lock 8)), (1, .run 0), (1, .run 100), (1, .run 0), (1, .run 0), (1, .call (.wait 16 8)), (1, .run 0),
    (1, .run 200), (1, .run 0), (1, .run 0), (1, .run 0), (1, .run 0), (2, .call (.signal 16)), (2, .run 0)]

theorem pthread_layer_correct_firstUse : (execute untouched firstUse).pcs 1 = .unlockWake 8 100 none ∧
    (execute untouched firstUse).pcs 2 = .lockParked 8 100 ∧ (execute untouched firstUse).allocated = [100] ∧
    (∃ thread, thread ≠ 2 ∧ ((execute untouched firstUse).pcs thread).Serves 8 100) ∧
    Heard (execute (execute untouched signalInTime) [(2, .run 0)])
      (step (execute (execute untouched signalInTime) [(2, .run 0)]) (2, .run 0)) 1 ⟨16, 200, 0⟩ false := by
  have published : Published (execute untouched firstUse).words .mutex 8 100 := ⟨by decide +kernel, by decide +kernel⟩
  refine ⟨by decide +kernel, by decide +kernel, by decide +kernel, ?_, ?_⟩
  · apply (pthread_layer_correct untouched_start firstUse).2.2.1 2 8 100 published
    · intro thread
      by_contra held
      obtain ⟨object, known, one⟩ :=
        (untouched_start.invariant.executed firstUse).locks.locked thread 8 (Bool.eq_true_of_not_eq_false held)
      rw [known.same published] at one
      exact absurd one (by decide +kernel)
    · decide +kernel
  · apply (pthread_layer_correct untouched_start signalInTime).2.2.2 2 1 ⟨16, 200, 0⟩ 16 false 0 0 []
    · decide +kernel
    · exact .inl ⟨8, 100, by decide +kernel⟩
    · exact nofun

end HermitLocal.Runtime.Pthread
