import HermitLocal.Errno
import HermitLocal.Lib.Simulation
import Mathlib.Algebra.Group.Int.Defs
import Mathlib.Algebra.Group.Nat.Defs
import Mathlib.Logic.Function.Basic
import Mathlib.Order.Basic

/-! Files of the in-memory file system: the operations of `RamFileInterface` on one file through any number of handles,
beside a byte array with a position for each handle. -/

namespace HermitLocal.Fs.RamFile
open Lib.Simulation List Option Function

def ISIZE_MAX : Nat := 2 ^ 63 - 1

structure RamFileInner where
  data : List UInt8
  stSize : Int
  stAtim : Nat
  stMtim : Nat
  stCtim : Nat

structure File where
  inner : RamFileInner
  pos : Nat → Nat

def File.new (now : Nat) : File := ⟨⟨[], 0, now, now, now⟩, fun _ => 0⟩

inductive SeekWhence where
  | Set | Cur | End | Data | Hole
  deriving DecidableEq

inductive Operation where
  | read (len now : Nat)
  | write (buf : List UInt8) (now : Nat)
  | lseek (offset : Int) (whence : SeekWhence)
  | truncate (size : Nat)

inductive Output where
  | bytes (read : List UInt8)
  | count (written : Nat)
  | position (pos : Nat)
  | error (errno : Errno)
  | done
  deriving DecidableEq

def resize (data : List UInt8) (size : Nat) : Option (List UInt8) :=
  if size ≤ ISIZE_MAX then some (data.take size ++ replicate (size - data.length) 0) else none

def asIsize (value : Nat) : Int := if value ≤ ISIZE_MAX then value else value - 2 ^ 64

def checkedAdd (left right : Int) : Except Errno Int :=
  if -2 ^ 63 ≤ left + right ∧ left + right < 2 ^ 63 then .ok (left + right) else .error .Overflow

def newPos (pos length : Int) (offset : Int) : SeekWhence → Except Errno Int
  | .Set => .ok offset
  | .Cur => checkedAdd pos offset
  | .End => checkedAdd length offset
  | _ => .error .Inval

def File.read (self : File) (handle len now : Nat) : Output × File :=
  let inner := { self.inner with stAtim := now }
  let pos := self.pos handle
  if pos ≥ inner.data.length then (.bytes [], ⟨inner, self.pos⟩)
  else
    let len := if inner.data.length - pos < len then inner.data.length - pos else len
    (.bytes ((inner.data.drop pos).take len), ⟨inner, update self.pos handle (pos + len)⟩)

def RamFileInner.grow (self : RamFileInner) (size : Nat) : Option RamFileInner :=
  if size > self.data.length then
    (resize self.data size).map fun data => { self with data, stSize := data.length }
  else some self

def File.write (self : File) (handle : Nat) (buf : List UInt8) (now : Nat) : Option (Output × File) :=
  let pos := self.pos handle
  (self.inner.grow (pos + buf.length)).map fun guard =>
    (.count buf.length,
      ⟨⟨guard.data.take pos ++ buf ++ guard.data.drop (pos + buf.length), guard.stSize, now, now, now⟩,
        update self.pos handle (pos + buf.length)⟩)

def File.lseek (self : File) (handle : Nat) (offset : Int) (whence : SeekWhence) : Option (Output × File) :=
  match newPos (asIsize (self.pos handle)) self.inner.data.length offset whence with
  | .error errno => some (.error errno, self)
  | .ok newPos =>
      if newPos < 0 then some (.error .Inval, self)
      else (self.inner.grow newPos.toNat).map fun guard =>
        (.position newPos.toNat, ⟨guard, update self.pos handle newPos.toNat⟩)

def File.truncate (self : File) (size : Nat) : Option (Output × File) :=
  (resize self.inner.data size).map fun data => (.done, { self with inner.data := data, inner.stSize := size })

def perform (self : File) : Nat × Operation → Option (Output × File)
  | (handle, .read len now) => some (self.read handle len now)
  | (handle, .write buf now) => self.write handle buf now
  | (handle, .lseek offset whence) => self.lseek handle offset whence
  | (_, .truncate size) => self.truncate size

/-! The byte array. -/

structure Reference where
  data : List UInt8
  pos : Nat → Nat

def fill (data : List UInt8) (size : Nat) : List UInt8 := data ++ replicate (size - data.length) 0

def Reference.step (self : Reference) : Nat × Operation → Output × Reference
  | (handle, .read len _) =>
      let slice := (self.data.drop (self.pos handle)).take len
      (.bytes slice, ⟨self.data, update self.pos handle (self.pos handle + slice.length)⟩)
  | (handle, .write buf _) =>
      let pos := self.pos handle
      (.count buf.length, ⟨(fill self.data pos).take pos ++ buf ++ self.data.drop (pos + buf.length),
        update self.pos handle (pos + buf.length)⟩)
  | (handle, .lseek offset whence) =>
      match newPos (self.pos handle) self.data.length offset whence with
      | .error errno => (.error errno, self)
      | .ok newPos =>
          if newPos < 0 then (.error .Inval, self)
          else (.position newPos.toNat, ⟨self.data, update self.pos handle newPos.toNat⟩)
  | (_, .truncate size) => (.done, ⟨(fill self.data size).take size, self.pos⟩)

def File.array (self : File) : Reference := ⟨self.inner.data, self.pos⟩

abbrev Twin := Option File × Reference

def Twin.new (now : Nat) : Twin := (some (File.new now), ⟨[], fun _ => 0⟩)

def Twin.step (twin : Twin) (call : Nat × Operation) : Twin :=
  (twin.1.bind fun self => (perform self call).map Prod.snd, (twin.2.step call).2)

def Agrees (twin : Twin) (call : Nat × Operation) : Prop :=
  ∀ self output next, twin.1 = some self → perform self call = some (output, next) →
    twin.2.step call = (output, next.array) ∧ next.inner.stSize = next.inner.data.length

/-- A seek does not go beyond the end, unless to where no file ends. -/
def File.Inside (self : File) : Nat × Operation → Prop
  | (handle, .lseek offset whence) => ∀ target : Int,
      newPos (self.pos handle) self.inner.data.length offset whence = .ok target → target ≤ ISIZE_MAX →
        target ≤ self.inner.data.length
  | _ => True

def Inside (twin : Twin) (call : Nat × Operation) : Prop := ∀ self, twin.1 = some self → self.Inside call

structure Fits (file : File) : Prop where
  length : file.inner.data.length ≤ ISIZE_MAX
  pos : ∀ handle, file.pos handle ≤ ISIZE_MAX
  size : file.inner.stSize = file.inner.data.length

variable {self next : File} {handle : Nat} {output : Output} {call : Nat × Operation}

theorem resize_eq_some {data after : List UInt8} {size : Nat} :
    resize data size = some after ↔ size ≤ ISIZE_MAX ∧ after = (fill data size).take size := by
  have same : data.take size ++ replicate (size - data.length) 0 = (fill data size).take size := by
    rw [fill, take_append, take_replicate, Nat.min_self]
  unfold resize
  rw [same]
  split
  next small => rw [some.injEq, and_iff_right small, eq_comm]
  next large => exact ⟨nofun, fun both => absurd both.1 large⟩

theorem length_fill (data : List UInt8) (size : Nat) : (fill data size).length = max data.length size := by
  rw [fill, length_append, length_replicate]
  omega

theorem length_fill_take (data : List UInt8) (size : Nat) : ((fill data size).take size).length = size := by
  rw [length_take, length_fill]
  omega

theorem Fits.setPos {inner : RamFileInner} {positions : Nat → Nat} {pos : Nat} (fits : Fits ⟨inner, positions⟩)
    (small : pos ≤ ISIZE_MAX) : Fits ⟨inner, update positions handle pos⟩ := by
  refine ⟨fits.length, fun other => ?_, fits.size⟩
  change update positions handle pos other ≤ _
  rw [update_apply]
  split
  · exact small
  · exact fits.pos other

section
variable (fits : Fits self)

include fits

theorem Fits.setData {inner : RamFileInner} (small : inner.data.length ≤ ISIZE_MAX) (size : inner.stSize = inner.data.length) :
    Fits ⟨inner, self.pos⟩ :=
  ⟨small, fits.pos, size⟩

theorem Fits.grow {size : Nat} {grown : RamFileInner} (grows : self.inner.grow size = some grown) :
    Fits ⟨grown, self.pos⟩ ∧ grown.data = fill self.inner.data size := by
  unfold RamFileInner.grow at grows
  split at grows
  next past =>
    obtain ⟨data, resized, rfl⟩ := map_eq_some_iff.mp grows
    obtain ⟨small, rfl⟩ := resize_eq_some.mp resized
    refine ⟨fits.setData ((length_fill_take _ _).trans_le small) rfl, take_of_length_le ?_⟩
    rw [length_fill]
    omega
  next within =>
    cases grows
    rw [fill, Nat.sub_eq_zero_of_le (Nat.not_lt.mp within), replicate_zero, append_nil]
    exact ⟨fits, rfl⟩

theorem Fits.read {len now : Nat} (ran : self.read handle len now = (output, next)) :
    Fits next ∧ self.array.step (handle, .read len now) = (output, next.array) := by
  have length := fits.length
  have accessed : Fits ⟨{ self.inner with stAtim := now }, self.pos⟩ := fits.setData length fits.size
  unfold File.read at ran
  dsimp only at ran
  split at ran
  next behind =>
    cases ran
    refine ⟨accessed, ?_⟩
    simp [Reference.step, File.array, drop_of_length_le behind]
  next before =>
    generalize taken : (if self.inner.data.length - self.pos handle < len then
      self.inner.data.length - self.pos handle else len) = count at ran
    have bound : count = min len (self.inner.data.length - self.pos handle) := by
      rw [← taken]
      split <;> omega
    have slice : (self.inner.data.drop (self.pos handle)).take len = (self.inner.data.drop (self.pos handle)).take count := by
      rw [take_eq_take_iff, length_drop]
      omega
    cases ran
    refine ⟨accessed.setPos (by omega), ?_⟩
    rw [Reference.step]
    simp only [File.array, slice, length_take, length_drop]
    rw [Nat.min_eq_left (by omega)]

theorem Fits.write {buf : List UInt8} {now : Nat} (ran : self.write handle buf now = some (output, next)) :
    Fits next ∧ self.array.step (handle, .write buf now) = (output, next.array) := by
  obtain ⟨grown, grows, made⟩ := map_eq_some_iff.mp ran
  obtain ⟨sound, filled⟩ := fits.grow grows
  cases made
  have begins : grown.data.take (self.pos handle) = (fill self.inner.data (self.pos handle)).take (self.pos handle) := by
    simp only [filled, fill, take_append, take_replicate]
    congr 2
    omega
  have ends : grown.data.drop (self.pos handle + buf.length) = self.inner.data.drop (self.pos handle + buf.length) := by
    simp only [filled, fill, drop_append, drop_replicate, Nat.sub_self, replicate_zero, append_nil]
  have far : self.pos handle + buf.length ≤ grown.data.length := by
    rw [filled, length_fill]
    exact Nat.le_max_right _ _
  have kept : (grown.data.take (self.pos handle) ++ buf ++ grown.data.drop (self.pos handle + buf.length)).length =
      grown.data.length := by
    simp only [length_append, length_take, length_drop]
    omega
  constructor
  · apply Fits.setPos
    · exact sound.setData (kept.trans_le sound.length) (sound.size.trans (congrArg _ kept.symm))
    · exact Nat.le_trans far sound.length
  · simp only [Reference.step, File.array, begins, ends]

theorem Fits.truncate {size : Nat} (ran : self.truncate size = some (output, next)) :
    Fits next ∧ self.array.step (handle, .truncate size) = (output, next.array) := by
  obtain ⟨data, resized, made⟩ := map_eq_some_iff.mp ran
  obtain ⟨small, rfl⟩ := resize_eq_some.mp resized
  cases made
  have total := length_fill_take self.inner.data size
  exact ⟨fits.setData (total.trans_le small) (congrArg _ total.symm), rfl⟩

theorem Fits.lseek {offset : Int} {whence : SeekWhence} (ran : self.lseek handle offset whence = some (output, next)) :
    Fits next ∧ (self.array.step (handle, .lseek offset whence) = (output, next.array) ↔
      self.Inside (handle, .lseek offset whence)) := by
  have exact : asIsize (self.pos handle) = self.pos handle := if_pos (fits.pos handle)
  unfold File.lseek at ran
  rw [exact] at ran
  unfold Reference.step File.Inside
  dsimp only [File.array]
  cases computed : newPos (self.pos handle) self.inner.data.length offset whence with
  | error errno =>
    rw [computed] at ran
    cases ran
    exact ⟨fits, iff_of_true rfl nofun⟩
  | ok newPos =>
    rw [computed] at ran
    simp only [Except.ok.injEq, forall_eq'] at ran ⊢
    split at ran
    next negative =>
      cases ran
      rw [if_pos negative]
      exact ⟨fits, iff_of_true rfl fun _ => by omega⟩
    next natural =>
      rw [if_neg natural]
      obtain ⟨grown, grows, made⟩ := map_eq_some_iff.mp ran
      obtain ⟨sound, filled⟩ := fits.grow grows
      cases made
      have total : grown.data.length = max self.inner.data.length newPos.toNat := by
        rw [filled, length_fill]
      have small : grown.data.length ≤ ISIZE_MAX := sound.length
      refine ⟨sound.setPos (by omega), ?_⟩
      constructor
      · intro same _
        have unchanged := congrArg (fun outcome => outcome.2.data.length) same
        dsimp only at unchanged
        omega
      · intro inside
        have within : newPos.toNat ≤ self.inner.data.length := by omega
        rw [filled, fill, Nat.sub_eq_zero_of_le within, replicate_zero, append_nil]

/-- The code panics only for want of memory. -/
theorem Fits.inside_of_none (panicked : perform self call = none) : self.Inside call := by
  obtain ⟨handle, operation⟩ := call
  cases operation with
  | lseek offset whence =>
    have exact : asIsize (self.pos handle) = self.pos handle := if_pos (fits.pos handle)
    intro target computed small
    by_contra beyond
    have grows : self.inner.data.length < target.toNat := by omega
    have fitting : target.toNat ≤ ISIZE_MAX := by omega
    simp [perform, File.lseek, exact, computed, RamFileInner.grow, resize, grows, fitting,
      show ¬target < 0 by omega] at panicked
  | _ => trivial

theorem Fits.perform (ran : perform self call = some (output, next)) :
    Fits next ∧ (self.array.step call = (output, next.array) ↔ self.Inside call) := by
  obtain ⟨handle, operation⟩ := call
  cases operation with
  | read len now => exact (fits.read (some.inj ran)).imp_right fun same => iff_of_true same trivial
  | write buf now => exact (fits.write ran).imp_right fun same => iff_of_true same trivial
  | truncate size => exact (fits.truncate ran).imp_right fun same => iff_of_true same trivial
  | lseek offset whence => exact fits.lseek ran

end

def Sound (twin : Twin) : Prop := ∀ self, twin.1 = some self → self.array = twin.2 ∧ Fits self

variable {twin : Twin}

theorem Sound.agrees_iff (sound : Sound twin) : Agrees twin call ↔ Inside twin call := by
  constructor
  · intro agrees self running
    obtain ⟨same, fits⟩ := sound self running
    cases ran : perform self call with
    | none => exact fits.inside_of_none ran
    | some result =>
      have step := (agrees self result.1 result.2 running ran).1
      rwa [← same, (fits.perform ran).2] at step
  · intro inside self output next running ran
    obtain ⟨same, fits⟩ := sound self running
    obtain ⟨after, agrees⟩ := fits.perform ran
    refine ⟨?_, after.size⟩
    rw [← same, agrees]
    exact inside self running

theorem Sound.step (sound : Sound twin) (inside : Inside twin call) : Sound (twin.step call) := by
  intro next stepped
  obtain ⟨self, running, more⟩ := bind_eq_some_iff.mp stepped
  obtain ⟨⟨output, _⟩, ran, rfl⟩ := map_eq_some_iff.mp more
  have agrees := (sound.agrees_iff.mpr inside self output _ running ran).1
  exact ⟨(congrArg Prod.snd agrees).symm, ((sound self running).2.perform ran).1⟩

/-- The file is the array exactly if no seek ends behind the data. -/
theorem ram_file_is_array_iff (now : Nat) (calls : List (Nat × Operation)) :
    Guarded Twin.step Agrees (Twin.new now) calls ↔ Guarded Twin.step Inside (Twin.new now) calls := by
  have start : Sound (Twin.new now) := by
    intro self running
    cases running
    exact ⟨rfl, Nat.zero_le _, fun _ => Nat.zero_le _, rfl⟩
  apply guarded_iff_guarded _ _ start
  · exact fun _ _ => Sound.step
  · exact fun _ _ => Sound.agrees_iff

theorem seek_grows_empty_file : ∃ next, perform (File.new 0) (0, .lseek 1 .Set) = some (.position 1, next) ∧
    next.inner.data = [0] ∧ next.inner.stSize = 1 ∧ ¬Agrees (Twin.new 0) (0, .lseek 1 .Set) := by
  refine ⟨_, rfl, rfl, rfl, fun agrees => ?_⟩
  have same := (agrees _ _ _ rfl rfl).1
  exact absurd (congrArg (fun outcome => outcome.2.data) same) (by decide)

end HermitLocal.Fs.RamFile
