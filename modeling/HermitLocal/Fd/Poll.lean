import HermitLocal.Errno
import Mathlib.Algebra.Group.Nat.Defs
import Mathlib.Data.List.Basic

/-! Waiting for one of several file descriptors: `poll` over the loop of `block_on`, which asks all objects once in each
turn and gives up when the timeout has elapsed. -/

namespace HermitLocal.Fd.Poll
open List

abbrev PollEvent := Int16
abbrev RawFd := Int32

structure PollFd where
  fd : RawFd
  events : PollEvent
  revents : PollEvent
  deriving DecidableEq

abbrev Objects := RawFd → Option (PollEvent → Option (Except Errno PollEvent))

structure Turn where
  objects : Objects
  nowMicros : Nat
  waits : Bool

def reported (objects : Objects) (pollFd : PollFd) : PollEvent :=
  match objects pollFd.fd with
  | none => 0
  | some object =>
      match object pollFd.events with
      | some (.ok events) => events
      | _ => 0

def pollFds (objects : Objects) : List PollFd → Nat × List PollFd
  | [] => (0, [])
  | pollFd :: rest =>
      let (counter, polled) := pollFds objects rest
      let revents := reported objects pollFd
      (if revents = 0 then counter else counter + 1, { pollFd with revents := revents } :: polled)

inductive Outcome where
  | running (fds : List PollFd)
  | returned (result : Except Errno Nat) (fds : List PollFd)
  | panicked

def blockOn (start : Nat) (timeout : Option Nat) : List Turn → List PollFd → Outcome
  | [], fds => .running fds
  | turn :: rest, fds =>
      let (counter, fds) := pollFds turn.objects fds
      if counter > 0 then .returned (.ok counter) fds
      else if timeout.any fun duration => (turn.nowMicros - start) * 1000 ≥ duration then .returned (.error .Time) fds
      else if turn.waits ∧ timeout.any fun duration => duration / 1000 ≥ 2 ^ 64 then .panicked
      else blockOn start timeout rest fds

def poll (start : Nat) (timeout : Option Nat) (turns : List Turn) (fds : List PollFd) : Outcome :=
  match blockOn start timeout turns fds with
  | .returned (.error error) fds =>
      if timeout.isSome ∧ error = .Again then .returned (.ok 0) fds else .returned (.error error) fds
  | outcome => outcome

def Honours : Outcome → Prop
  | .running _ => True
  | .returned result fds => result = .ok (fds.countP fun pollFd => pollFd.revents ≠ 0)
  | .panicked => False

def Turn.Ready (turn : Turn) (fds : List PollFd) : Prop := ∃ pollFd ∈ fds, reported turn.objects pollFd ≠ 0

def Turn.Fails (turn : Turn) (start duration : Nat) : Prop :=
  (turn.nowMicros - start) * 1000 ≥ duration ∨ turn.waits ∧ duration / 1000 ≥ 2 ^ 64

theorem pollFds_eq (objects : Objects) (fds : List PollFd) : pollFds objects fds =
    (fds.countP (fun pollFd => reported objects pollFd ≠ 0),
      fds.map fun pollFd => { pollFd with revents := reported objects pollFd }) := by
  induction fds with
  | nil => rfl
  | cons pollFd rest ih =>
    rw [pollFds, ih]
    by_cases silent : reported objects pollFd = 0
    · simp [silent]
    · simp [silent]

theorem ready_iff (turn : Turn) (fds : List PollFd) : (pollFds turn.objects fds).1 > 0 ↔ turn.Ready fds := by
  rw [pollFds_eq, gt_iff_lt, countP_pos_iff]
  simp only [decide_eq_true_eq]
  rfl

theorem ready_pollFds (turn : Turn) (objects : Objects) (fds : List PollFd) :
    turn.Ready (pollFds objects fds).2 ↔ turn.Ready fds := by
  unfold Turn.Ready
  rw [pollFds_eq]
  simp [reported]

section Turns
variable {start duration : Nat} {turn : Turn} {rest : List Turn} {fds : List PollFd}

theorem poll_ready (ready : turn.Ready fds) : Honours (poll start (some duration) (turn :: rest) fds) := by
  have counted := (ready_iff turn fds).mpr ready
  unfold poll blockOn
  simp only [counted, if_true]
  change Except.ok _ = Except.ok _
  rw [pollFds_eq, countP_map]
  rfl

theorem poll_fails (silent : ¬ turn.Ready fds) (fails : turn.Fails start duration) :
    ¬ Honours (poll start (some duration) (turn :: rest) fds) := by
  have uncounted := mt (ready_iff turn fds).mp silent
  unfold poll blockOn
  by_cases elapsed : (turn.nowMicros - start) * 1000 ≥ duration
  · simp only [uncounted, elapsed, if_false, Option.any_some, decide_true, if_true]
    exact fun same => by cases same
  · have waits := fails.resolve_left elapsed
    simp only [uncounted, elapsed, waits, if_false, Option.any_some, decide_true, decide_false, Bool.false_eq_true,
      and_self, if_true]
    exact id

theorem poll_continues (silent : ¬ turn.Ready fds) (more : ¬ turn.Fails start duration) :
    poll start (some duration) (turn :: rest) fds = poll start (some duration) rest (pollFds turn.objects fds).2 := by
  have uncounted := mt (ready_iff turn fds).mp silent
  obtain ⟨early, short⟩ := not_or.mp more
  unfold poll
  rw [blockOn]
  simp only [uncounted, if_false, Option.any_some, decide_eq_true_eq, early, short]

end Turns

/-- A poll keeps its contract exactly if no turn comes too late. -/
theorem poll_contract_iff (start duration : Nat) (turns : List Turn) (fds : List PollFd) :
    Honours (poll start (some duration) turns fds) ↔
      ∀ before turn after, turns = before ++ turn :: after → (∀ other ∈ before ++ [turn], ¬ other.Ready fds) →
        ¬ turn.Fails start duration := by
  induction turns generalizing fds with
  | nil =>
    refine ⟨fun _ before turn after split => ?_, fun _ => trivial⟩
    exact absurd split (by simp)
  | cons turn rest ih =>
    by_cases ready : turn.Ready fds
    · refine ⟨fun _ before other after split silent => ?_, fun _ => poll_ready ready⟩
      cases before with
      | nil =>
        obtain ⟨rfl, rfl⟩ := cons.inj split
        exact absurd ready (silent turn (by simp))
      | cons first more =>
        obtain ⟨rfl, -⟩ := cons.inj split
        exact absurd ready (silent turn (by simp))
    by_cases fails : turn.Fails start duration
    · refine ⟨fun kept => absurd kept (poll_fails ready fails), fun intime => ?_⟩
      exact absurd fails (intime [] turn rest rfl (by simpa using ready))
    rw [poll_continues ready fails, ih]
    simp only [ready_pollFds]
    apply Iff.intro
    · intro later before other after split silent
      cases before with
      | nil =>
        obtain ⟨rfl, rfl⟩ := cons.inj split
        exact fails
      | cons first more =>
        obtain ⟨rfl, deeper⟩ := cons.inj split
        exact later more other after deeper fun one member => silent one (mem_cons_of_mem _ member)
    · intro all before other after split silent
      apply all (turn :: before) other after (by rw [split, cons_append])
      intro one member
      rcases mem_cons.mp member with rfl | deeper
      · exact ready
      · exact silent one deeper

theorem zero_timeout_is_error : ¬ Honours (poll 0 (some 0) [⟨fun _ => none, 0, false⟩] [⟨3, 1, 0⟩]) := by
  exact poll_fails (by simp [Turn.Ready, reported]) (.inl (Nat.zero_le _))

end HermitLocal.Fd.Poll
