import HermitLocal.Runtime.Pthread

/-! Which object a thread uses for a variable. Several threads may find the initializer and allocate an object each; one
of them puts its own into the variable, where it stays, and the others give theirs back and take that one. -/

namespace HermitLocal.Runtime.Pthread
open Function

def Published (words : Kind → Place → Nat) (kind : Kind) (place : Place) (object : Address) : Prop :=
  words kind place = object ∧ isInitializer kind object = false

variable {words before after : Kind → Place → Nat} {place mutex : Place} {kind : Kind} {object : Address}
  {pc : Pc} {use : Use} {state : State} {thread : ThreadId} {current : Nat}

theorem Published.same {first second : Address} (one : Published words kind place first)
    (other : Published words kind place second) : first = second :=
  one.1.symm.trans other.1

structure Relies (words : Kind → Place → Nat) (pc : Pc) : Prop where
  uses : ∀ kind place object, pc.Uses kind place object → Published words kind place object
  seen : ∀ use current, pc.seen? = some (use, current) → isInitializer use.kind current = true ∧
    (words use.kind use.place = current ∨ isInitializer use.kind (words use.kind use.place) = false)
  lost : ∀ use, pc.lost? = some use → isInitializer use.kind (words use.kind use.place) = false

def Advances (before after : Kind → Place → Nat) : Prop :=
  ∀ kind place, after kind place = before kind place ∨
    isInitializer kind (before kind place) = true ∧ isInitializer kind (after kind place) = false

theorem Advances.published (advances : Advances before after) (published : Published before kind place object) :
    Published after kind place object := by
  obtain ⟨rfl, pointer⟩ := published
  rcases advances kind place with same | ⟨initial, -⟩
  · exact ⟨same, pointer⟩
  · exact absurd (pointer.symm.trans initial) (by simp)

theorem Advances.pointer (advances : Advances before after)
    (pointer : isInitializer kind (before kind place) = false) :
    isInitializer kind (after kind place) = false := by
  obtain ⟨same, stays⟩ := advances.published ⟨rfl, pointer⟩
  rwa [same]

theorem Relies.advance (relies : Relies before pc) (advances : Advances before after) : Relies after pc := by
  constructor
  · intro kind place object uses
    exact advances.published (relies.uses kind place object uses)
  · intro use current seen
    obtain ⟨initial, either⟩ := relies.seen use current seen
    refine ⟨initial, ?_⟩
    rcases advances use.kind use.place with same | ⟨-, pointer⟩
    · rwa [same]
    · exact .inr pointer
  · intro use lost
    exact advances.pointer (relies.lost use lost)

theorem Relies.user (words : Kind → Place → Nat) : Relies words .user := by
  constructor
  · rintro kind place object (got | ⟨wait, waits, -⟩)
    · exact absurd got (by simp [Pc.got?])
    · exact absurd waits (by simp [Pc.wait?])
  · intro use current seen
    exact absurd seen (by simp [Pc.seen?])
  · intro use lost
    exact absurd lost (by simp [Pc.lost?])

theorem Relies.next {next : Pc} (relies : Relies words pc)
    (got : ∀ kind place object, next.got? = some (kind, place, object) →
      pc.Uses kind place object ∨ Published words kind place object)
    (waits : ∀ wait, next.wait? = some wait → pc.wait? = some wait ∨ Published words .cond wait.cond wait.object)
    (seen : next.seen? = none) (lost : next.lost? = none) : Relies words next := by
  constructor
  · rintro kind place object (own | ⟨wait, has, rfl, rfl, rfl⟩)
    · rcases got kind place object own with before | published
      · exact relies.uses kind place object before
      · exact published
    · rcases waits wait has with before | published
      · exact relies.uses _ _ _ (.inr ⟨wait, before, rfl, rfl, rfl⟩)
      · exact published
  · intro use current has
    rw [seen] at has
    cases has
  · intro use has
    rw [lost] at has
    cases has

theorem resume_got (use : Use) (object : Address) : (use.resume object).got? = some (use.kind, use.place, object) := by
  cases use <;> rfl

theorem resume_wait (use : Use) (object : Address) : (use.resume object).wait? = use.wait? := by
  cases use <;> rfl

theorem resume_needs (use : Use) (object : Address) : (use.resume object).needs? = use.needs? := by
  cases use <;> rfl

theorem resume_rest (use : Use) (object : Address) : (use.resume object).own? = none ∧
    (use.resume object).parkedAt? = none ∧ (use.resume object).seen? = none ∧ (use.resume object).lost? = none := by
  cases use <;> exact ⟨rfl, rfl, rfl, rfl⟩

theorem searching (searches : pc.use? = some use) :
    pc.wait? = use.wait? ∧ pc.needs? = use.needs? ∧ pc.got? = none ∧ pc.parkedAt? = none := by
  cases pc with
  | load own | calloc own _ | exchange own _ _ | discard own _ | reload own =>
    cases searches
    exact ⟨rfl, rfl, rfl, rfl⟩
  | _ => exact absurd searches (by simp [Pc.use?])

theorem Relies.resume (relies : Relies words pc) (searches : pc.use? = some use)
    (published : Published words use.kind use.place object) : Relies words (use.resume object) := by
  obtain ⟨-, -, seen, lost⟩ := resume_rest use object
  apply relies.next _ _ seen lost
  · intro kind place got found
    rw [resume_got] at found
    cases found
    exact .inr published
  · intro wait has
    rw [resume_wait] at has
    rw [(searching searches).1]
    exact .inl has

theorem Relies.woken (relies : Relies words pc) : Relies words pc.woken := by
  cases pc with
  | lockParked mutex object =>
    apply relies.next _ _ rfl rfl
    · intro kind place got found
      exact .inl (.inl found)
    · intro wait has
      exact absurd has (by simp [Pc.woken, Pc.wait?])
  | condParked wait mutex =>
    apply relies.next _ _ rfl rfl
    · intro kind place got found
      exact absurd found (by simp [Pc.woken, Pc.got?])
    · intro other has
      exact absurd has (by simp [Pc.woken, Pc.wait?, Use.wait?])
  | _ => exact relies

/-! What a step does. -/

inductive Effect (state : State) (thread : ThreadId) : State → Prop
  | stay : Effect state thread state
  | move {next : Pc} (running : (state.pcs thread).parkedAt? = none) (awake : next.parkedAt? = none)
      (relies : Relies state.words next) (own : next.own? = none ∨ next.own? = (state.pcs thread).own?)
      (needs : ∀ mutex, next.needs? = some mutex →
        (state.pcs thread).needs? = some mutex ∨ state.holds thread mutex = true)
      (waits : ∀ wait, next.wait? = some wait →
        (state.pcs thread).wait? = some wait ∨ wait.seq = state.seqs wait.object)
      (tries : ∀ mutex object, state.pcs thread = .lockExchange mutex object → state.states object ≠ 0)
      (wakes : ∀ mutex object after, state.pcs thread ≠ .unlockWake mutex object after) :
      Effect state thread (state.setPc thread next)
  | allocate {use : Use} {current : Nat} {next : Address} (stands : state.pcs thread = .calloc use current)
      (fresh : next ∉ state.allocated) (pointer : isInitializer .mutex next = false) :
      Effect state thread { state with
        states := update state.states next 0
        seqs := update state.seqs next 0
        allocated := next :: state.allocated
        pcs := update state.pcs thread (.exchange use current next) }
  | publish {use : Use} {current : Nat} {next : Address} (stands : state.pcs thread = .exchange use current next)
      (unchanged : state.words use.kind use.place = current) :
      Effect state thread ((state.setWord use.kind use.place next).setPc thread (use.resume next))
  | discard {use : Use} {next : Address} (stands : state.pcs thread = .discard use next) :
      Effect state thread (state.discard thread use next)
  | acquire {mutex : Place} {object : Address}
      (stands : state.pcs thread = .lockExchange mutex object ∨ state.pcs thread = .trylockExchange mutex object)
      (free : state.states object = 0) : Effect state thread (state.acquire thread mutex object)
  | release {mutex : Place} {object : Address} {after : Option Wait}
      (stands : state.pcs thread = .unlockStore mutex object after) :
      Effect state thread (state.release thread mutex object after)
  | parkLock {mutex : Place} {object : Address} (stands : state.pcs thread = .lockWait mutex object)
      (locked : state.states object = 1) : Effect state thread (state.park thread object (.lockParked mutex object))
  | parkCond {wait : Wait} {mutex : Place} (stands : state.pcs thread = .condWait wait mutex) :
      Effect state thread (state.park thread wait.object (.condParked wait mutex))
  | wakeLock {mutex : Place} {object : Address} {after : Option Wait} (choice : Nat)
      (stands : state.pcs thread = .unlockWake mutex object after) :
      Effect state thread ((state.wake object (State.pick (state.queues object) choice)).setPc thread
        (State.afterUnlock mutex after))
  | wakeCond {cond : Place} {object : Address} {all : Bool} (choice : Nat)
      (stands : state.pcs thread = .condWake cond object all) :
      Effect state thread ((state.wake object
        (if all then state.queues object else State.pick (state.queues object) choice)).setPc thread .user)
  | bump {cond : Place} {object : Address} {all : Bool} (stands : state.pcs thread = .addSeq cond object all) :
      Effect state thread (state.bump thread cond object all)

theorem Effect.moves {next : Pc} (stands : state.pcs thread = pc) (running : pc.parkedAt? = none)
    (awake : next.parkedAt? = none) (relies : Relies state.words next)
    (own : next.own? = none ∨ next.own? = pc.own?)
    (needs : ∀ mutex, next.needs? = some mutex → pc.needs? = some mutex ∨ state.holds thread mutex = true)
    (waits : ∀ wait, next.wait? = some wait → pc.wait? = some wait ∨ wait.seq = state.seqs wait.object)
    (tries : ∀ mutex object, pc = .lockExchange mutex object → state.states object ≠ 0)
    (wakes : ∀ mutex object after, pc ≠ .unlockWake mutex object after) :
    Effect state thread (state.setPc thread next) := by
  subst stands
  exact Effect.move running awake relies own needs waits tries wakes

theorem Effect.resumes (stands : state.pcs thread = pc) (searches : pc.use? = some use)
    (tries : ∀ mutex object, pc ≠ .lockExchange mutex object)
    (wakes : ∀ mutex object after, pc ≠ .unlockWake mutex object after)
    (relies : Relies state.words (use.resume object)) : Effect state thread (state.setPc thread (use.resume object)) := by
  obtain ⟨waits, needs, -, running⟩ := searching searches
  obtain ⟨own, awake, -, -⟩ := resume_rest use object
  apply Effect.moves stands running awake relies (.inl own) _ _ _ wakes
  · intro mutex has
    rw [needs, ← resume_needs use object]
    exact .inl has
  · intro wait has
    rw [waits, ← resume_wait use object]
    exact .inl has
  · exact fun mutex own same => absurd same (tries mutex own)

structure Objects (state : State) : Prop where
  relies : ∀ thread, Relies state.words (state.pcs thread)
  allocated : ∀ kind place object, Published state.words kind place object → object ∈ state.allocated
  apart : ∀ kind place object other elsewhere, Published state.words kind place object →
    state.words other elsewhere = object → kind = other ∧ place = elsewhere
  own : ∀ thread object, (state.pcs thread).own? = some object → object ∈ state.allocated ∧
    isInitializer .mutex object = false ∧ ∀ kind place, state.words kind place ≠ object
  ownOnce : ∀ thread other object, (state.pcs thread).own? = some object → (state.pcs other).own? = some object →
    thread = other

theorem isInitializer_cond {value : Nat} (pointer : isInitializer .mutex value = false) (kind : Kind) :
    isInitializer kind value = false := by
  cases kind with
  | mutex => exact pointer
  | cond =>
    unfold isInitializer at pointer ⊢
    rw [Bool.or_eq_false_iff, Bool.or_eq_false_iff] at pointer
    exact pointer.1.1

theorem permits_needs {call : Call} (permitted : state.permits thread call = true)
    (needs : call.use.needs? = some mutex) : state.holds thread mutex = true := by
  unfold State.permits at permitted
  rw [Bool.and_eq_true] at permitted
  cases call with
  | unlock other | wait cond other =>
    cases needs
    exact permitted.2
  | _ => exact absurd needs (by simp [Call.use, Use.needs?])

theorem call_wait (call : Call) : call.use.wait? = none := by
  cases call <;> rfl

theorem call_effect (thread : ThreadId) (call : Call) : Effect state thread (state.call thread call) := by
  unfold State.call
  split
  next entered =>
    obtain ⟨user, permitted⟩ := entered
    have waits (wait : Wait) : (Pc.load call.use).wait? ≠ some wait := by
      change call.use.wait? ≠ some wait
      rw [call_wait]
      exact nofun
    apply Effect.moves user rfl rfl _ (.inl rfl) _ _ nofun nofun
    · apply (Relies.user state.words).next _ _ rfl rfl
      · exact fun kind place object found => absurd found (by simp [Pc.got?])
      · exact fun wait has => absurd has (waits wait)
    · exact fun mutex needs => .inr (permits_needs permitted needs)
    · exact fun wait has => absurd has (waits wait)
  · exact Effect.stay

section Running
variable {state : State} {thread : ThreadId} (relies : Relies state.words (state.pcs thread))

include relies

theorem load_effect (stands : state.pcs thread = .load use) :
    Effect state thread (state.setPc thread (if isInitializer use.kind (state.words use.kind use.place)
      then .calloc use (state.words use.kind use.place) else use.resume (state.words use.kind use.place))) := by
  rw [stands] at relies
  split
  next initial =>
    refine Effect.moves stands rfl rfl ?_ (.inl rfl) (fun _ => .inl) (fun _ => .inl) nofun nofun
    constructor
    · exact relies.uses
    · intro other current seen
      cases seen
      exact ⟨initial, .inl rfl⟩
    · exact fun other lost => absurd lost (by simp [Pc.lost?])
  next pointer =>
    have published : Published state.words use.kind use.place (state.words use.kind use.place) :=
      ⟨rfl, Bool.eq_false_iff.mpr pointer⟩
    exact Effect.resumes stands rfl nofun nofun (relies.resume rfl published)

omit relies in
theorem calloc_effect (stands : state.pcs thread = .calloc use current) (next : Address) :
    Effect state thread (state.calloc thread use current next) := by
  unfold State.calloc
  split
  · exact Effect.moves stands rfl rfl (Relies.user _) (.inl rfl) nofun nofun nofun nofun
  · split
    · exact Effect.stay
    next valid =>
      obtain ⟨fresh, pointer⟩ := not_or.mp valid
      exact Effect.allocate stands fresh (Bool.eq_false_iff.mpr pointer)

variable {next : Address}

theorem exchange_effect (stands : state.pcs thread = .exchange use current next) :
    Effect state thread (state.exchange thread use current next) := by
  rw [stands] at relies
  unfold State.exchange
  split
  next unchanged => exact Effect.publish stands unchanged
  next changed =>
    refine Effect.moves stands rfl rfl ?_ (.inr rfl) (fun _ => .inl) (fun _ => .inl) nofun nofun
    constructor
    · exact relies.uses
    · exact fun other seen => nofun
    · intro other lost
      cases lost
      exact (relies.seen use current rfl).2.resolve_left changed

theorem readSeq_effect {cond : Place} (stands : state.pcs thread = .readSeq cond object mutex) :
    Effect state thread (state.setPc thread (.load (.unlock mutex (some ⟨cond, object, state.seqs object⟩)))) := by
  rw [stands] at relies
  have published := relies.uses .cond cond object (.inl rfl)
  refine Effect.moves stands rfl rfl ?_ (.inl rfl) (fun _ => .inl) ?_ nofun nofun
  · refine relies.next nofun ?_ rfl rfl
    intro wait has
    cases has
    exact .inr published
  · intro wait has
    cases has
    exact .inr rfl

theorem run_effect (choice : Nat) : Effect state thread (state.run thread choice) := by
  unfold State.run
  cases stands : state.pcs thread with
  | user | lockParked mutex object | condParked wait mutex => exact Effect.stay
  | load use => exact load_effect relies stands
  | calloc use current => exact calloc_effect stands choice
  | exchange use current next => exact exchange_effect relies stands
  | discard use next => exact Effect.discard stands
  | readSeq cond object mutex => exact readSeq_effect relies stands
  | unlockStore mutex object after => exact Effect.release stands
  | unlockWake mutex object after => exact Effect.wakeLock choice stands
  | condWake cond object all => exact Effect.wakeCond choice stands
  | addSeq cond object all => exact Effect.bump stands
  | reload use =>
    rw [stands] at relies
    exact Effect.resumes stands rfl nofun nofun (relies.resume rfl ⟨rfl, relies.lost use rfl⟩)
  | lockExchange mutex object =>
    rw [stands] at relies
    dsimp only
    split
    next free => exact Effect.acquire (.inl stands) free
    next locked =>
      refine Effect.moves stands rfl rfl ⟨relies.uses, nofun, nofun⟩ (.inl rfl) nofun nofun ?_ nofun
      intro other own same
      cases same
      exact locked
  | lockWait mutex object =>
    rw [stands] at relies
    dsimp only
    split
    next locked => exact Effect.parkLock stands locked
    · exact Effect.moves stands rfl rfl ⟨relies.uses, nofun, nofun⟩ (.inl rfl) nofun nofun nofun nofun
  | trylockExchange mutex object =>
    dsimp only
    split
    next free => exact Effect.acquire (.inr stands) free
    · exact Effect.moves stands rfl rfl (Relies.user _) (.inl rfl) nofun nofun nofun nofun
  | condWait wait mutex =>
    dsimp only
    split
    · exact Effect.parkCond stands
    · refine Effect.moves stands rfl rfl ?_ (.inl rfl) nofun nofun nofun nofun
      exact (Relies.user state.words).next nofun nofun rfl rfl

end Running

/-! The objects stay apart. -/

theorem woken_own (pc : Pc) : pc.woken.own? = pc.own? := by
  cases pc <;> rfl

theorem some_of_either {α : Type} {after before : Option α} {value : α} (either : after = none ∨ after = before)
    (has : after = some value) : before = some value := by
  rcases either with rfl | rfl
  · cases has
  · exact has

section
variable (objects : Objects state)

include objects

theorem Objects.proceed {next : State} (words : next.words = state.words)
    (allocated : next.allocated = state.allocated) (relies : ∀ thread, Relies state.words (next.pcs thread))
    (own : ∀ thread, (next.pcs thread).own? = none ∨ (next.pcs thread).own? = (state.pcs thread).own?) :
    Objects next := by
  have before {thread : ThreadId} {object : Address} (has : (next.pcs thread).own? = some object) :
      (state.pcs thread).own? = some object := some_of_either (own thread) has
  constructor
  · rwa [words]
  · rw [words, allocated]
    exact objects.allocated
  · rw [words]
    exact objects.apart
  · rw [words, allocated]
    exact fun thread object has => objects.own thread object (before has)
  · exact fun thread other object has shared => objects.ownOnce thread other object (before has) (before shared)

theorem Objects.setPc {next : State} (words : next.words = state.words)
    (allocated : next.allocated = state.allocated) (pcs : next.pcs = update state.pcs thread pc)
    (relies : Relies state.words pc) (own : pc.own? = none ∨ pc.own? = (state.pcs thread).own?) : Objects next := by
  apply objects.proceed words allocated
  · intro other
    rw [pcs]
    rw [update_apply]
    split
    · assumption
    · exact objects.relies other
  · intro other
    rw [pcs]
    by_cases same : other = thread
    · rwa [same, update_self]
    · rw [update_of_ne same]
      exact .inr rfl

theorem Objects.wake {chosen : List ThreadId} (relies : Relies state.words pc) (own : pc.own? = none) :
    Objects ((state.wake object chosen).setPc thread pc) := by
  have woken : Objects (state.wake object chosen) := by
    refine objects.proceed rfl rfl ?_ ?_
    · intro other
      change Relies state.words (if other ∈ chosen then (state.pcs other).woken else state.pcs other)
      split
      · exact (objects.relies other).woken
      · exact objects.relies other
    · intro other
      right
      change (if other ∈ chosen then (state.pcs other).woken else state.pcs other).own? = (state.pcs other).own?
      split
      · exact woken_own _
      · rfl
  exact woken.setPc rfl rfl rfl relies (.inl own)

theorem Objects.allocate (stands : state.pcs thread = .calloc use current)
    (fresh : next ∉ state.allocated) (pointer : isInitializer .mutex next = false) {after : State}
    (words : after.words = state.words) (allocated : after.allocated = next :: state.allocated)
    (pcs : after.pcs = update state.pcs thread (.exchange use current next)) : Objects after := by
  have relies := objects.relies thread
  rw [stands] at relies
  have unpublished (kind : Kind) (place : Place) : state.words kind place ≠ next := by
    rintro rfl
    exact fresh (objects.allocated kind place _ ⟨rfl, isInitializer_cond pointer kind⟩)
  have before {other : ThreadId} {object : Address} (has : (after.pcs other).own? = some object) :
      other = thread ∧ next = object ∨ (state.pcs other).own? = some object ∧ next ≠ object := by
    rw [pcs] at has
    rw [update_apply] at has
    split at has
    next same => exact .inl ⟨same, Option.some.inj has⟩
    · refine .inr ⟨has, ?_⟩
      rintro rfl
      exact fresh (objects.own other next has).1
  constructor
  case relies =>
    intro other
    rw [words, pcs]
    rw [update_apply]
    split
    · exact ⟨relies.uses, relies.seen, nofun⟩
    · exact objects.relies other
  case allocated =>
    intro kind place object published
    rw [words] at published
    rw [allocated]
    exact List.mem_cons_of_mem _ (objects.allocated kind place object published)
  case apart =>
    rw [words]
    exact objects.apart
  case own =>
    intro other object has
    rw [words, allocated]
    rcases before has with ⟨-, rfl⟩ | ⟨had, -⟩
    · exact ⟨List.mem_cons_self, pointer, unpublished⟩
    · obtain ⟨member, rest⟩ := objects.own other object had
      exact ⟨List.mem_cons_of_mem _ member, rest⟩
  case ownOnce =>
    intro one other object has shared
    rcases before has with ⟨oneHere, rfl⟩ | ⟨oneHad, apart⟩
    · rcases before shared with ⟨otherHere, -⟩ | ⟨-, apart⟩
      · exact oneHere.trans otherHere.symm
      · exact absurd rfl apart
    · rcases before shared with ⟨-, same⟩ | ⟨otherHad, -⟩
      · exact absurd same apart
      · exact objects.ownOnce one other object oneHad otherHad

omit objects in
theorem update_at {α β γ : Type} [DecidableEq α] [DecidableEq β] (f : α → β → γ) (a : α) (b : β) (value : γ) (x : α) (y : β) :
    update f a (update (f a) b value) x y = if x = a ∧ y = b then value else f x y := by
  by_cases same : x = a
  · subst same
    simp [update_apply]
  · simp [same]

omit objects in
theorem setWord_self (state : State) (kind : Kind) (place : Place) (value : Nat) :
    (state.setWord kind place value).words kind place = value :=
  (update_at state.words kind place value kind place).trans (if_pos ⟨rfl, rfl⟩)

omit objects in
theorem setWord_other (state : State) (kind : Kind) (place : Place) (value : Nat) {other : Kind} {elsewhere : Place}
    (apart : ¬ (other = kind ∧ elsewhere = place)) :
    (state.setWord kind place value).words other elsewhere = state.words other elsewhere :=
  (update_at state.words kind place value other elsewhere).trans (if_neg apart)

omit objects in
theorem setWord_published {other : Kind} {elsewhere : Place} {value : Nat}
    (published : Published (state.setWord kind place value).words other elsewhere object) :
    (other = kind ∧ elsewhere = place) ∧ object = value ∨
      ¬ (other = kind ∧ elsewhere = place) ∧ Published state.words other elsewhere object := by
  by_cases here : other = kind ∧ elsewhere = place
  · obtain ⟨rfl, rfl⟩ := here
    exact .inl ⟨⟨rfl, rfl⟩, published.1.symm.trans (setWord_self _ _ _ _)⟩
  · exact .inr ⟨here, (setWord_other _ _ _ _ here).symm.trans published.1, published.2⟩

omit objects in
theorem advances_publish (seen : isInitializer use.kind current = true)
    (unchanged : state.words use.kind use.place = current) (pointer : isInitializer .mutex next = false) :
    Advances state.words (state.setWord use.kind use.place next).words := by
  intro kind place
  by_cases here : kind = use.kind ∧ place = use.place
  · obtain ⟨rfl, rfl⟩ := here
    rw [setWord_self, unchanged]
    exact .inr ⟨seen, isInitializer_cond pointer _⟩
  · exact .inl (setWord_other state use.kind use.place next here)

theorem Objects.owned_before {other : ThreadId} (own : (state.pcs thread).own? = some next)
    (without : pc.own? = none) (has : (update state.pcs thread pc other).own? = some object) :
    (state.pcs other).own? = some object ∧ object ≠ next := by
  by_cases same : other = thread
  · rw [same, update_self, without] at has
    cases has
  · rw [update_of_ne same] at has
    refine ⟨has, ?_⟩
    rintro rfl
    exact same (objects.ownOnce other thread object has own)

theorem Objects.publish (stands : state.pcs thread = .exchange use current next)
    (unchanged : state.words use.kind use.place = current) :
    Objects ((state.setWord use.kind use.place next).setPc thread (use.resume next)) := by
  have relies := objects.relies thread
  have own : (state.pcs thread).own? = some next := by rw [stands]; rfl
  obtain ⟨member, pointer, unpublished⟩ := objects.own thread next own
  rw [stands] at relies
  have advances := advances_publish (relies.seen use current rfl).1 unchanged pointer
  have without := (resume_rest use next).1
  constructor
  case relies =>
    intro other
    change Relies (state.setWord use.kind use.place next).words (update state.pcs thread (use.resume next) other)
    rw [update_apply]
    split
    · exact (relies.advance advances).resume rfl ⟨setWord_self _ _ _ _, isInitializer_cond pointer _⟩
    · exact (objects.relies other).advance advances
  case allocated =>
    intro kind place object published
    rcases setWord_published published with ⟨-, rfl⟩ | ⟨-, before⟩
    · exact member
    · exact objects.allocated kind place object before
  case apart =>
    intro kind place object other elsewhere published shared
    change (state.setWord use.kind use.place next).words other elsewhere = object at shared
    by_cases there : other = use.kind ∧ elsewhere = use.place
    · obtain ⟨rfl, rfl⟩ := there
      rw [setWord_self] at shared
      rcases setWord_published published with ⟨here, -⟩ | ⟨-, before⟩
      · exact here
      · exact absurd (before.1.trans shared.symm) (unpublished kind place)
    · rw [setWord_other _ _ _ _ there] at shared
      rcases setWord_published published with ⟨-, rfl⟩ | ⟨-, before⟩
      · exact absurd shared (unpublished other elsewhere)
      · exact objects.apart kind place object other elsewhere before shared
  case own =>
    intro other object has
    obtain ⟨had, different⟩ := objects.owned_before own without has
    obtain ⟨inUse, valid, alone⟩ := objects.own other object had
    refine ⟨inUse, valid, ?_⟩
    intro kind place
    change (state.setWord use.kind use.place next).words kind place ≠ object
    by_cases here : kind = use.kind ∧ place = use.place
    · obtain ⟨rfl, rfl⟩ := here
      rw [setWord_self]
      exact Ne.symm different
    · rw [setWord_other _ _ _ _ here]
      exact alone kind place
  case ownOnce =>
    intro one other object has shared
    exact objects.ownOnce one other object (objects.owned_before own without has).1
      (objects.owned_before own without shared).1

theorem Objects.discard (stands : state.pcs thread = .discard use next) : Objects (state.discard thread use next) := by
  have relies := objects.relies thread
  have own : (state.pcs thread).own? = some next := by rw [stands]; rfl
  have without : (Pc.reload use).own? = none := rfl
  rw [stands] at relies
  have keeps {object : Address} (member : object ∈ state.allocated) (different : object ≠ next) :
      object ∈ (state.discard thread use next).allocated :=
    List.mem_filter.mpr ⟨member, decide_eq_true different⟩
  constructor
  case relies =>
    intro other
    change Relies state.words (update state.pcs thread (.reload use) other)
    rw [update_apply]
    split
    · exact ⟨relies.uses, nofun, relies.lost⟩
    · exact objects.relies other
  case allocated =>
    intro kind place object published
    apply keeps (objects.allocated kind place object published)
    rintro rfl
    exact (objects.own thread object own).2.2 kind place published.1
  case apart => exact objects.apart
  case own =>
    intro other object has
    obtain ⟨had, different⟩ := objects.owned_before own without has
    obtain ⟨member, rest⟩ := objects.own other object had
    exact ⟨keeps member different, rest⟩
  case ownOnce =>
    intro one other object has shared
    exact objects.ownOnce one other object (objects.owned_before own without has).1
      (objects.owned_before own without shared).1

omit objects in
theorem relies_afterUnlock {after : Option Wait} (relies : Relies words (.unlockWake mutex object after)) :
    Relies words (State.afterUnlock mutex after) := by
  cases after with
  | none => exact Relies.user words
  | some wait => exact relies.next nofun (fun _ => .inl) rfl rfl

theorem Objects.effect {next : State} (effect : Effect state thread next) : Objects next := by
  have relies := objects.relies thread
  cases effect with
  | stay => exact objects
  | move running awake goesOn own => exact objects.setPc rfl rfl rfl goesOn own
  | allocate stands fresh pointer => exact objects.allocate stands fresh pointer rfl rfl rfl
  | publish stands unchanged => exact objects.publish stands unchanged
  | discard stands => exact objects.discard stands
  | acquire stands free => exact objects.setPc rfl rfl rfl (Relies.user _) (.inl rfl)
  | release stands | parkLock stands locked | parkCond stands | bump stands =>
    rw [stands] at relies
    exact objects.setPc rfl rfl rfl ⟨relies.uses, nofun, nofun⟩ (.inl rfl)
  | @wakeLock mutex object after choice stands =>
    rw [stands] at relies
    apply objects.wake (relies_afterUnlock relies)
    cases after <;> rfl
  | wakeCond choice stands => exact objects.wake (Relies.user _) rfl

theorem Effect.of_step (action : ThreadId × Action) : Effect state action.1 (step state action) := by
  unfold step
  cases action.2 with
  | call call => exact call_effect action.1 call
  | run choice => exact run_effect (objects.relies action.1) choice

theorem Effect.advances {next : State} (effect : Effect state thread next) :
    Advances state.words next.words := by
  cases effect with
  | publish stands unchanged =>
    have relies := objects.relies thread
    obtain ⟨-, pointer, -⟩ := objects.own thread _ (by rw [stands]; rfl)
    rw [stands] at relies
    exact advances_publish (relies.seen _ _ rfl).1 unchanged pointer
  | _ => exact fun _ _ => .inl rfl

end

end HermitLocal.Runtime.Pthread
