import HermitLocal.Lib.Wire

/-! Mutexes and condition variables of the runtime over futexes. The variable of the client holds an initializer until
the first call that uses it has put an object there. Each step is one atomic access of a thread or one call of the
kernel; the kernel wakes whichever threads it likes of those that wait at an address. -/

namespace HermitLocal.Runtime.Pthread
open Lib.Wire Function

abbrev ThreadId := Nat
abbrev Place := Nat
abbrev Address := Nat

inductive Kind where
  | mutex | cond
deriving DecidableEq, Repr

def isInitializer : Kind → Nat → Bool
  | .mutex, value => value = 0 || value = WORD - 1 || value = WORD - 2 || value = WORD - 3
  | .cond, value => value = 0 || value = WORD - 1

structure Wait where
  cond : Place
  object : Address
  seq : Nat
deriving DecidableEq, Repr

inductive Use where
  | lock (mutex : Place)
  | trylock (mutex : Place)
  | unlock (mutex : Place) (after : Option Wait)
  | wait (cond mutex : Place)
  | signal (cond : Place)
  | broadcast (cond : Place)
deriving DecidableEq, Repr

def Use.kind : Use → Kind
  | .lock _ | .trylock _ | .unlock _ _ => .mutex
  | .wait _ _ | .signal _ | .broadcast _ => .cond

def Use.place : Use → Place
  | .lock mutex | .trylock mutex | .unlock mutex _ => mutex
  | .wait cond _ | .signal cond | .broadcast cond => cond

inductive Pc where
  | user
  /-- In `bitapp_pthread_mutex_get` or `bitapp_pthread_cond_get`. -/
  | load (use : Use)
  | calloc (use : Use) (current : Nat)
  | exchange (use : Use) (current : Nat) (next : Address)
  | discard (use : Use) (next : Address)
  | reload (use : Use)
  | lockExchange (mutex : Place) (object : Address)
  | lockWait (mutex : Place) (object : Address)
  | lockParked (mutex : Place) (object : Address)
  | trylockExchange (mutex : Place) (object : Address)
  | unlockStore (mutex : Place) (object : Address) (after : Option Wait)
  | unlockWake (mutex : Place) (object : Address) (after : Option Wait)
  | readSeq (cond : Place) (object : Address) (mutex : Place)
  | condWait (wait : Wait) (mutex : Place)
  | condParked (wait : Wait) (mutex : Place)
  | addSeq (cond : Place) (object : Address) (all : Bool)
  | condWake (cond : Place) (object : Address) (all : Bool)
deriving DecidableEq, Repr

def Use.resume : Use → Address → Pc
  | .lock mutex, object => .lockExchange mutex object
  | .trylock mutex, object => .trylockExchange mutex object
  | .unlock mutex after, object => .unlockStore mutex object after
  | .wait cond mutex, object => .readSeq cond object mutex
  | .signal cond, object => .addSeq cond object false
  | .broadcast cond, object => .addSeq cond object true

def Pc.woken : Pc → Pc
  | .lockParked mutex object => .lockExchange mutex object
  | .condParked _ mutex => .load (.lock mutex)
  | pc => pc

structure State where
  words : Kind → Place → Nat
  states : Address → Nat
  seqs : Address → Nat
  allocated : List Address
  queues : Address → List ThreadId
  pcs : ThreadId → Pc
  holds : ThreadId → Place → Bool

inductive Call where
  | lock (mutex : Place)
  | trylock (mutex : Place)
  | unlock (mutex : Place)
  | wait (cond mutex : Place)
  | signal (cond : Place)
  | broadcast (cond : Place)

def Call.use : Call → Use
  | .lock mutex => .lock mutex
  | .trylock mutex => .trylock mutex
  | .unlock mutex => .unlock mutex none
  | .wait cond mutex => .wait cond mutex
  | .signal cond => .signal cond
  | .broadcast cond => .broadcast cond

namespace State

def setPc (self : State) (thread : ThreadId) (pc : Pc) : State :=
  { self with pcs := update self.pcs thread pc }

def setWord (self : State) (kind : Kind) (place : Place) (value : Nat) : State :=
  { self with words := update self.words kind (update (self.words kind) place value) }

def setHolds (self : State) (thread : ThreadId) (mutex : Place) (held : Bool) : State :=
  { self with holds := update self.holds thread (update (self.holds thread) mutex held) }

def setState (self : State) (object : Address) (value : Nat) : State :=
  { self with states := update self.states object value }

def permits (self : State) (thread : ThreadId) (call : Call) : Bool :=
  call.use.place ≠ 0 &&
    match call with
    | .unlock mutex => self.holds thread mutex
    | .wait _ mutex => self.holds thread mutex
    | _ => true

def call (self : State) (thread : ThreadId) (call : Call) : State :=
  if self.pcs thread = .user ∧ self.permits thread call = true then self.setPc thread (.load call.use) else self

def calloc (self : State) (thread : ThreadId) (use : Use) (current : Nat) (next : Address) : State :=
  if next = 0 then self.setPc thread .user
  else if next ∈ self.allocated ∨ isInitializer .mutex next = true then self
  else
    { self with
      states := update self.states next 0
      seqs := update self.seqs next 0
      allocated := next :: self.allocated
      pcs := update self.pcs thread (.exchange use current next) }

def exchange (self : State) (thread : ThreadId) (use : Use) (current : Nat) (next : Address) : State :=
  if self.words use.kind use.place = current then
    (self.setWord use.kind use.place next).setPc thread (use.resume next)
  else self.setPc thread (.discard use next)

def discard (self : State) (thread : ThreadId) (use : Use) (next : Address) : State :=
  { self with
    allocated := self.allocated.filter (· ≠ next)
    pcs := update self.pcs thread (.reload use) }

def acquire (self : State) (thread : ThreadId) (mutex : Place) (object : Address) : State :=
  ((self.setState object 1).setHolds thread mutex true).setPc thread .user

def release (self : State) (thread : ThreadId) (mutex : Place) (object : Address) (after : Option Wait) : State :=
  ((self.setState object 0).setHolds thread mutex false).setPc thread (.unlockWake mutex object after)

def park (self : State) (thread : ThreadId) (object : Address) (pc : Pc) : State :=
  { self with
    queues := update self.queues object (self.queues object ++ [thread])
    pcs := update self.pcs thread pc }

def wake (self : State) (object : Address) (chosen : List ThreadId) : State :=
  { self with
    queues := update self.queues object ((self.queues object).filter (· ∉ chosen))
    pcs := fun thread => if thread ∈ chosen then (self.pcs thread).woken else self.pcs thread }

def pick (queue : List ThreadId) (choice : Nat) : List ThreadId := (queue[choice % queue.length]?).toList

def bump (self : State) (thread : ThreadId) (cond : Place) (object : Address) (all : Bool) : State :=
  { self with
    seqs := update self.seqs object (self.seqs object + 1)
    pcs := update self.pcs thread (.condWake cond object all) }

def afterUnlock (mutex : Place) : Option Wait → Pc
  | none => .user
  | some wait => .condWait wait mutex

def run (self : State) (thread : ThreadId) (choice : Nat) : State :=
  match self.pcs thread with
  | .user => self
  | .load use =>
      let current := self.words use.kind use.place
      self.setPc thread (if isInitializer use.kind current then .calloc use current else use.resume current)
  | .calloc use current => self.calloc thread use current choice
  | .exchange use current next => self.exchange thread use current next
  | .discard use next => self.discard thread use next
  | .reload use => self.setPc thread (use.resume (self.words use.kind use.place))
  | .lockExchange mutex object =>
      if self.states object = 0 then self.acquire thread mutex object else self.setPc thread (.lockWait mutex object)
  | .lockWait mutex object =>
      if self.states object = 1 then self.park thread object (.lockParked mutex object)
      else self.setPc thread (.lockExchange mutex object)
  | .lockParked _ _ => self
  | .trylockExchange mutex object =>
      if self.states object = 0 then self.acquire thread mutex object else self.setPc thread .user
  | .unlockStore mutex object after => self.release thread mutex object after
  | .unlockWake mutex object after =>
      (self.wake object (pick (self.queues object) choice)).setPc thread (afterUnlock mutex after)
  | .readSeq cond object mutex =>
      self.setPc thread (.load (.unlock mutex (some ⟨cond, object, self.seqs object⟩)))
  | .condWait wait mutex =>
      if self.seqs wait.object % 2 ^ 32 = wait.seq % 2 ^ 32 then self.park thread wait.object (.condParked wait mutex)
      else self.setPc thread (.load (.lock mutex))
  | .condParked _ _ => self
  | .addSeq cond object all => self.bump thread cond object all
  | .condWake _ object all =>
      (self.wake object (if all then self.queues object else pick (self.queues object) choice)).setPc thread .user

end State

inductive Action where
  | call (call : Call)
  | run (choice : Nat)

def step (self : State) (action : ThreadId × Action) : State :=
  match action.2 with
  | .call call => self.call action.1 call
  | .run choice => self.run action.1 choice

def execute (self : State) (actions : List (ThreadId × Action)) : State := actions.foldl step self

/-! What a thread relies on. -/

def Use.wait? : Use → Option Wait
  | .unlock _ after => after
  | _ => none

def Use.needs? : Use → Option Place
  | .unlock mutex _ | .wait _ mutex => some mutex
  | _ => none

namespace Pc

def use? : Pc → Option Use
  | .load use | .calloc use _ | .exchange use _ _ | .discard use _ | .reload use => some use
  | _ => none

def wait? : Pc → Option Wait
  | .load use | .calloc use _ | .exchange use _ _ | .discard use _ | .reload use => use.wait?
  | .unlockStore _ _ after | .unlockWake _ _ after => after
  | .condWait wait _ | .condParked wait _ => some wait
  | _ => none

def got? : Pc → Option (Kind × Place × Address)
  | .lockExchange mutex object | .lockWait mutex object | .lockParked mutex object => some (.mutex, mutex, object)
  | .trylockExchange mutex object | .unlockStore mutex object _ | .unlockWake mutex object _ => some (.mutex, mutex, object)
  | .readSeq cond object _ | .addSeq cond object _ | .condWake cond object _ => some (.cond, cond, object)
  | _ => none

def needs? : Pc → Option Place
  | .load use | .calloc use _ | .exchange use _ _ | .discard use _ | .reload use => use.needs?
  | .unlockStore mutex _ _ | .readSeq _ _ mutex => some mutex
  | _ => none

def own? : Pc → Option Address
  | .exchange _ _ next | .discard _ next => some next
  | _ => none

def parkedAt? : Pc → Option Address
  | .lockParked _ object => some object
  | .condParked wait _ => some wait.object
  | _ => none

def seen? : Pc → Option (Use × Nat)
  | .calloc use current | .exchange use current _ => some (use, current)
  | _ => none

def lost? : Pc → Option Use
  | .discard use _ | .reload use => some use
  | _ => none

def Uses (pc : Pc) (kind : Kind) (place : Place) (object : Address) : Prop :=
  pc.got? = some (kind, place, object) ∨ ∃ wait, pc.wait? = some wait ∧ kind = .cond ∧ place = wait.cond ∧ object = wait.object

end Pc

end HermitLocal.Runtime.Pthread
