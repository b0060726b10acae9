import Mathlib.Algebra.Group.Int.Defs
import Mathlib.Algebra.Group.Nat.Defs
import Mathlib.Tactic.SplitIfs

/-! The sleeping system calls: the number of microseconds that they pass to `usleep`, and the time at which `usleep` lets the
task go on. Machine words wrap. -/

namespace HermitLocal.Time.Sleep

structure Timespec where
  tvSec : Int
  tvNsec : Int
  secRange : -2 ^ 63 ≤ tvSec ∧ tvSec < 2 ^ 63
  nsecRange : -2 ^ 31 ≤ tvNsec ∧ tvNsec < 2 ^ 31

structure Clocks where
  nowMicros : Nat
  timerTicks : Nat
  timestamp : Nat
  frequency : Nat
  word : nowMicros < 2 ^ 64 ∧ timerTicks < 2 ^ 64

def CLOCK_REALTIME : Int32 := 1
def CLOCK_MONOTONIC : Int32 := 4
def TIMER_ABSTIME : Int32 := 4

def asU64 (value : Int) : Nat := (value % 2 ^ 64).toNat

def requestedMicroseconds (requestedTime : Timespec) : Nat :=
  asU64 (asU64 requestedTime.tvSec * 1000000 + asU64 requestedTime.tvNsec / 1000)

def sleepFor (requestedTime : Timespec) (absolute : Option Nat) : Option Nat :=
  if requestedTime.tvSec < 0 ∨ requestedTime.tvNsec > 999999999 then none
  else some (asU64 (requestedMicroseconds requestedTime - absolute.getD 0))

def sysNanosleep (requestedTime : Timespec) : Option Nat := sleepFor requestedTime none

def Clocks.absolute (clocks : Clocks) (clockId flags : Int32) : Option Nat :=
  if flags &&& TIMER_ABSTIME > 0 then some (if clockId = CLOCK_REALTIME then clocks.nowMicros else clocks.timerTicks)
  else none

def sysClockNanosleep (clocks : Clocks) (clockId flags : Int32) (requestedTime : Timespec) : Option Nat :=
  if clockId = CLOCK_REALTIME ∨ clockId = CLOCK_MONOTONIC then sleepFor requestedTime (clocks.absolute clockId flags)
  else none

inductive Wait where
  | blocked (wakeupTime : Nat)
  | busy (finish : Nat)
  | none
  deriving DecidableEq

def usleep (clocks : Clocks) (usecs : Nat) : Wait :=
  if usecs ≥ 10000 then .blocked (asU64 (clocks.timerTicks + usecs))
  else if usecs > 0 then .busy (asU64 (clocks.timestamp + clocks.frequency * usecs))
  else .none

/-! What the calls should do. -/

def exactMicroseconds (requestedTime : Timespec) (now : Nat) : Int :=
  max 0 ((requestedTime.tvSec * 1000000000 + requestedTime.tvNsec - 1000 * now) / 1000)

def exactWait (clocks : Clocks) (usecs : Nat) : Wait :=
  if usecs ≥ 10000 then .blocked (clocks.timerTicks + usecs)
  else if usecs > 0 then .busy (clocks.timestamp + clocks.frequency * usecs)
  else .none

structure Exact (clocks : Clocks) (requestedTime : Timespec) (now : Nat) (passed : Option Nat) : Prop where
  rejects : requestedTime.tvSec < 0 ∨ requestedTime.tvNsec < 0 ∨ requestedTime.tvNsec > 999999999 → passed = none
  sleeps : ∀ usecs, passed = some usecs →
    (usecs : Int) = exactMicroseconds requestedTime now ∧ usleep clocks usecs = exactWait clocks usecs

def ahead (requestedTime : Timespec) (now : Nat) : Int :=
  requestedTime.tvSec * 1000000 + requestedTime.tvNsec / 1000 - now

structure Fits (clocks : Clocks) (requestedTime : Timespec) (now : Nat) : Prop where
  nsec : 0 ≤ requestedTime.tvNsec
  future : 0 ≤ ahead requestedTime now
  blocked : 10000 ≤ ahead requestedTime now → clocks.timerTicks + ahead requestedTime now < 2 ^ 64
  busy : 0 < ahead requestedTime now → ahead requestedTime now < 10000 →
    clocks.timestamp + clocks.frequency * ahead requestedTime now < 2 ^ 64

theorem usleep_exact_iff (clocks : Clocks) (usecs : Nat) : usleep clocks usecs = exactWait clocks usecs ↔
    (usecs ≥ 10000 → clocks.timerTicks + usecs < 2 ^ 64) ∧
      (0 < usecs → usecs < 10000 → clocks.timestamp + clocks.frequency * usecs < 2 ^ 64) := by
  have word (value : Nat) : asU64 value = value ↔ value < 2 ^ 64 := by
    unfold asU64
    omega
  unfold usleep exactWait
  split_ifs with long short
  · rw [Wait.blocked.injEq, ← Int.natCast_add, word]
    omega
  · rw [Wait.busy.injEq, ← Int.natCast_mul, ← Int.natCast_add, word]
    omega
  · simp only [true_iff]
    omega

theorem requestedMicroseconds_eq {requestedTime : Timespec} (sec : 0 ≤ requestedTime.tvSec)
    (nsec : 0 ≤ requestedTime.tvNsec) : requestedMicroseconds requestedTime =
      asU64 (requestedTime.tvSec * 1000000 + requestedTime.tvNsec / 1000) := by
  have seconds := requestedTime.secRange
  have nanoseconds := requestedTime.nsecRange
  have whole (value : Int) (positive : 0 ≤ value) (small : value < 2 ^ 64) : (asU64 value : Int) = value := by
    unfold asU64
    omega
  rw [requestedMicroseconds, whole _ sec (by omega), whole _ nsec (by omega)]

theorem exactMicroseconds_eq (requestedTime : Timespec) (now : Nat) :
    exactMicroseconds requestedTime now = max 0 (ahead requestedTime now) := by
  unfold exactMicroseconds ahead
  omega

theorem passed_exact_iff {requestedTime : Timespec} (sec : 0 ≤ requestedTime.tvSec) (nsec : 0 ≤ requestedTime.tvNsec)
    {now : Nat} (small : now < 2 ^ 64) :
    (asU64 (requestedMicroseconds requestedTime - now) : Int) = exactMicroseconds requestedTime now ↔
      0 ≤ ahead requestedTime now ∧ ahead requestedTime now < 2 ^ 64 := by
  rw [exactMicroseconds_eq, requestedMicroseconds_eq sec nsec]
  unfold ahead asU64
  omega

theorem fits_iff {clocks : Clocks} {requestedTime : Timespec} {now usecs : Nat} (nsec : 0 ≤ requestedTime.tvNsec)
    (equal : (usecs : Int) = ahead requestedTime now) :
    Fits clocks requestedTime now ↔ usleep clocks usecs = exactWait clocks usecs := by
  rw [usleep_exact_iff]
  constructor
  · intro fits
    have blocked := fits.blocked
    have busy := fits.busy
    rw [← equal] at blocked busy
    refine ⟨fun long => ?_, fun positive short => ?_⟩
    · have bound := blocked (by omega)
      omega
    · have bound := busy (by omega) (by omega)
      exact_mod_cast bound
  · intro ⟨blocked, busy⟩
    refine ⟨nsec, by omega, ?_, ?_⟩
    · rw [← equal]
      intro long
      have bound := blocked (by omega)
      omega
    · rw [← equal]
      intro positive short
      exact_mod_cast busy (by omega) (by omega)

theorem Fits.word {clocks : Clocks} {requestedTime : Timespec} {now : Nat} (fits : Fits clocks requestedTime now) :
    ahead requestedTime now < 2 ^ 64 := by
  have blocked := fits.blocked
  omega

theorem sleepFor_exact_iff (clocks : Clocks) (requestedTime : Timespec) {absolute : Option Nat}
    (small : absolute.getD 0 < 2 ^ 64) :
    Exact clocks requestedTime (absolute.getD 0) (sleepFor requestedTime absolute) ↔
      (0 ≤ requestedTime.tvSec → requestedTime.tvNsec ≤ 999999999 → Fits clocks requestedTime (absolute.getD 0)) := by
  unfold sleepFor
  by_cases refused : requestedTime.tvSec < 0 ∨ requestedTime.tvNsec > 999999999
  · rw [if_pos refused]
    exact ⟨fun _ sec nsec => by omega, fun _ => ⟨fun _ => rfl, fun _ some => by cases some⟩⟩
  rw [if_neg refused]
  have sec : 0 ≤ requestedTime.tvSec := by omega
  generalize absolute.getD 0 = now at small ⊢
  by_cases nsec : 0 ≤ requestedTime.tvNsec
  · have deadline := passed_exact_iff sec nsec small
    constructor
    · intro good _ _
      obtain ⟨equal, wakes⟩ := good.sleeps _ rfl
      have future := (deadline.mp equal).1
      rw [exactMicroseconds_eq, Int.max_eq_right future] at equal
      exact (fits_iff nsec equal).mpr wakes
    · intro accepted
      have fits := accepted sec (by omega)
      refine ⟨fun invalid => by omega, ?_⟩
      intro usecs passed
      have equal := deadline.mpr ⟨fits.future, fits.word⟩
      rw [Option.some.inj passed] at equal
      refine ⟨equal, ?_⟩
      rw [exactMicroseconds_eq, Int.max_eq_right fits.future] at equal
      exact (fits_iff nsec equal).mp fits
  · constructor
    · intro good
      cases good.rejects (.inr (.inl (by omega)))
    · intro accepted
      exact absurd (accepted sec (by omega)).nsec nsec

/-- A sleep is exact exactly if what passes its checks fits the clocks. -/
theorem sleep_exact_iff (clocks : Clocks) (clockId flags : Int32) (requestedTime : Timespec) :
    (Exact clocks requestedTime 0 (sysNanosleep requestedTime) ↔
        (0 ≤ requestedTime.tvSec → requestedTime.tvNsec ≤ 999999999 → Fits clocks requestedTime 0)) ∧
      (Exact clocks requestedTime ((clocks.absolute clockId flags).getD 0)
          (sysClockNanosleep clocks clockId flags requestedTime) ↔
        (clockId = CLOCK_REALTIME ∨ clockId = CLOCK_MONOTONIC → 0 ≤ requestedTime.tvSec →
          requestedTime.tvNsec ≤ 999999999 → Fits clocks requestedTime ((clocks.absolute clockId flags).getD 0))) := by
  refine ⟨sleepFor_exact_iff clocks requestedTime (by decide : (none : Option Nat).getD 0 < 2 ^ 64), ?_⟩
  have word := clocks.word
  unfold sysClockNanosleep
  split_ifs with known
  · rw [forall_prop_of_true known]
    apply sleepFor_exact_iff clocks requestedTime
    unfold Clocks.absolute
    split_ifs <;> simp <;> omega
  · exact ⟨fun _ clock => absurd clock known, fun _ => ⟨fun _ => rfl, fun _ some => by cases some⟩⟩

theorem negative_accepted_past_slept :
    ¬ Exact ⟨1000000, 1000000, 0, 0, by decide⟩ ⟨0, -1, by decide, by decide⟩ 0
        (sysNanosleep ⟨0, -1, by decide, by decide⟩) ∧
      sysClockNanosleep ⟨1000001, 1000000, 0, 0, by decide⟩ CLOCK_REALTIME TIMER_ABSTIME ⟨1, 0, by decide, by decide⟩ =
        some (2 ^ 64 - 1) := by
  refine ⟨fun good => ?_, by decide⟩
  exact absurd (good.rejects (.inr (.inl (by decide)))) (by decide)

end HermitLocal.Time.Sleep
