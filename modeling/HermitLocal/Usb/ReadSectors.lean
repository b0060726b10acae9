import HermitLocal.Usb.BulkOnly

/-! Reading device blocks over USB: three attempts for a range of blocks, then the same for
its halves. A read counts as successful when its command does; how many
bytes it brought is not looked at. -/

namespace HermitLocal.Usb.ReadSectors
open Lib.Wire Usb.Events Usb.BulkOnly List

structure Msc (δ : Type) where
  readBlocks : Nat → Nat → List UInt8 → δ → Except UsbError Nat × List UInt8 × δ
  keepsLength : ∀ lba count buf state, (readBlocks lba count buf state).2.1.length = buf.length

structure Reading (δ : Type) where
  ok : Bool
  buf : List UInt8
  state : δ

section Read
variable {δ : Type} (msc : Msc δ)

def readAttempts (lba deviceBlocks : Nat) : Nat → List UInt8 → δ → Reading δ
  | 0, buf, state => ⟨false, buf, state⟩
  | left + 1, buf, state =>
      let answer := msc.readBlocks lba deviceBlocks buf state
      if answer.1.isOk then ⟨true, answer.2.1, answer.2.2⟩
      else readAttempts lba deviceBlocks left answer.2.1 answer.2.2

def readDeviceSectorsOnce (lba deviceBlocks : Nat) (buf : List UInt8) (state : δ) : Reading δ :=
  readAttempts msc lba deviceBlocks 3 buf state

def readDeviceSectors (lba deviceBlocks : Nat) (buf : List UInt8) (state : δ) : Reading δ :=
  if 1 < deviceBlocks then
    let bytesPerBlock := buf.length / deviceBlocks
    let splitBlocks := deviceBlocks / 2
    let splitBytes := splitBlocks * bytesPerBlock
    let whole := readDeviceSectorsOnce msc lba deviceBlocks buf state
    if whole.ok then whole
    else
      let front := readDeviceSectors lba splitBlocks (whole.buf.take splitBytes) whole.state
      if front.ok then
        let back := readDeviceSectors ((lba + splitBlocks) % 2 ^ 32) (deviceBlocks - splitBlocks)
          (whole.buf.drop splitBytes) front.state
        ⟨back.ok, front.buf ++ back.buf, back.state⟩
      else ⟨false, front.buf ++ whole.buf.drop splitBytes, front.state⟩
  else readDeviceSectorsOnce msc lba deviceBlocks buf state
termination_by deviceBlocks
decreasing_by
  all_goals omega

/-! A read keeps the length of its slice. -/

theorem readAttempts_length (lba deviceBlocks left : Nat) (buf : List UInt8) (state : δ) :
    (readAttempts msc lba deviceBlocks left buf state).buf.length = buf.length := by
  induction left generalizing buf state with
  | zero => rfl
  | succ left ih =>
    have kept := msc.keepsLength lba deviceBlocks buf state
    rw [readAttempts]
    split
    · exact kept
    · rw [ih, kept]

theorem readDeviceSectors_length (lba deviceBlocks : Nat) (buf : List UInt8) (state : δ) :
    (readDeviceSectors msc lba deviceBlocks buf state).buf.length = buf.length := by
  fun_induction readDeviceSectors msc lba deviceBlocks buf state with
  | case1 lba deviceBlocks buf state many whole passed =>
    exact readAttempts_length msc lba deviceBlocks 3 buf state
  | case2 lba deviceBlocks buf state many bytesPerBlock splitBlocks splitBytes whole failed front passed back first _ second =>
    have kept : whole.buf.length = buf.length := readAttempts_length msc lba deviceBlocks 3 buf state
    rw [length_append, first, second, ← length_append, take_append_drop, kept]
  | case3 lba deviceBlocks buf state many bytesPerBlock splitBlocks splitBytes whole failed front stopped ih =>
    have kept : whole.buf.length = buf.length := readAttempts_length msc lba deviceBlocks 3 buf state
    rw [length_append, ih, ← length_append, take_append_drop, kept]
  | case4 lba deviceBlocks buf state few => exact readAttempts_length msc lba deviceBlocks 3 buf state

end Read

/-- A device that reads single blocks can be read in any range. -/
theorem halves_reach_blocks {δ : Type} {msc : Msc δ}
    (single : ∀ lba buf state, (readDeviceSectorsOnce msc lba 1 buf state).ok = true) {lba deviceBlocks : Nat}
    {buf : List UInt8} {state : δ} (some : 0 < deviceBlocks) : (readDeviceSectors msc lba deviceBlocks buf state).ok = true := by
  fun_induction readDeviceSectors msc lba deviceBlocks buf state with
  | case1 lba deviceBlocks buf state many whole passed => exact passed
  | case2 lba deviceBlocks buf state many _ _ _ _ _ _ _ _ _ _ back =>
    exact back (Nat.sub_pos_of_lt (Nat.div_lt_self some (by decide)))
  | case3 lba deviceBlocks buf state many _ _ _ _ _ _ stopped front =>
    exact absurd (front (Nat.div_pos many (by decide))) stopped
  | case4 lba deviceBlocks buf state few =>
    obtain rfl : deviceBlocks = 1 := by omega
    exact single lba buf state

def singleBlocks : Msc Unit where
  readBlocks lba count buf _ :=
    if count = 1 then (.ok buf.length, buf.map fun _ => UInt8.ofNat lba, ()) else (.error (.xferFail 1), buf, ())
  keepsLength lba count buf _ := by
    split
    · exact length_map _
    · rfl

theorem halves_reach_blocks_sample :
    (readDeviceSectors singleBlocks 5 3 (replicate 6 0) ()).buf = [5, 5, 6, 6, 7, 7] ∧
      (readDeviceSectors singleBlocks 5 3 (replicate 6 0) ()).ok = true := by
  refine ⟨?_, halves_reach_blocks (fun _ _ _ => rfl) (by decide)⟩
  simp [readDeviceSectors, readDeviceSectorsOnce, readAttempts, singleBlocks, Except.isOk, Except.toBool]

/-! A device with a content, and commands of every outcome. -/

structure Drive where
  blockSize : Nat
  content : Nat → Nat → UInt8

namespace Drive

def byteFrom (drive : Drive) (lba index : Nat) : UInt8 :=
  drive.content ((lba + index / drive.blockSize) % 2 ^ 32) (index % drive.blockSize)

def bytesFrom (drive : Drive) (lba length : Nat) : List UInt8 := (range length).map (drive.byteFrom lba)

end Drive

inductive Outcome where
  | failed (copied : Nat)
  | passed (missing : Nat)

def decodeRead10 (cdb : List UInt8) : Nat × Nat :=
  (leValue ((cdb.drop 2).take 4).reverse, leValue ((cdb.drop 7).take 2).reverse)

namespace Outcome

/-- The length that the wait for the data of a command returns. -/
def moved (requestedLen : Nat) : Outcome → Nat
  | failed copied => copied
  | passed missing => requestedLen - missing

def status : Outcome → UInt8
  | failed _ => 1
  | passed _ => STATUS_PASSED

end Outcome

namespace Drive

/-- The driver in front of the drive; of its state a read sees its slice. -/
def host (drive : Drive) (cdb : List UInt8) (outcome : Outcome) : Host (List UInt8) where
  alloc _ _ := pure 0
  fill _ _ := pure ()
  queueTransfer _ _ _ _ := pure ()
  waitTransfer phase _ len := pure (if phase = .data then outcome.moved len else len)
  copyOut _ len := modify (copyIn (drive.bytesFrom (decodeRead10 cdb).1 len) len)
  readCsw _ := pure ⟨CSW_SIGNATURE, 1, 0, outcome.status⟩
  free _ := pure ()

def respond (drive : Drive) (cdb buf : List UInt8) (outcome : Outcome) : Except UsbError Nat × List UInt8 :=
  match (drive.host cdb outcome).scsiCommand buf.length true buf with
  | .ok (transferred, _) slice => (.ok transferred, slice)
  | .error error slice => (.error error, slice)

theorem respond_eq (drive : Drive) (cdb buf : List UInt8) (outcome : Outcome) :
    drive.respond cdb buf outcome =
      (if outcome.status = STATUS_PASSED then .ok (outcome.moved buf.length) else .error (.xferFail outcome.status),
        copyIn (drive.bytesFrom (decodeRead10 cdb).1 (outcome.moved buf.length)) (outcome.moved buf.length) buf) := by
  cases buf with
  | nil =>
    cases outcome with
    | failed copied => rfl
    | passed missing =>
      change (Except.ok 0, []) = (Except.ok (0 - missing), [])
      rw [Nat.zero_sub]
  | cons byte rest =>
    cases outcome with
    | failed copied => rfl
    | passed missing => rfl

end Drive

theorem copyIn_length (dma : List UInt8) (len : Nat) (buf : List UInt8) : (copyIn dma len buf).length = buf.length :=
  length_mapIdx

def Drive.scripted (drive : Drive) (outcomes : Nat → Outcome) : Msc Nat where
  readBlocks lba count buf issued :=
    let answer := drive.respond (read10 lba count) buf (outcomes issued)
    (answer.1, answer.2, issued + 1)
  keepsLength lba count buf issued := by
    dsimp only
    rw [Drive.respond_eq, copyIn_length]

theorem decodeRead10_read10 {lba count : Nat} (lbaSmall : lba < 2 ^ 32) (countSmall : count < 2 ^ 16) :
    decodeRead10 (read10 lba count) = (lba, count) := by
  simp only [decodeRead10, read10, drop_succ_cons, drop_zero, take_succ_cons, take_zero,
    reverse_cons, reverse_nil, nil_append, cons_append, leValue, UInt8.toNat_ofNat',
    Nat.shiftRight_eq_div_pow, Prod.mk.injEq]
  omega

theorem copyIn_all {dma buf : List UInt8} {len : Nat} (slice : buf.length = len) (filled : dma.length = len) :
    copyIn dma len buf = dma := by
  apply ext_getElem
  · rw [copyIn_length, slice, filled]
  · intro i inside other
    have small : i < len := by rwa [filled] at other
    simp [copyIn, small, getElem?_eq_getElem other]

theorem copyIn_behind (dma : List UInt8) {len index : Nat} (buf : List UInt8) (behind : len ≤ index) :
    (copyIn dma len buf)[index]? = buf[index]? := by
  rw [copyIn, getElem?_mapIdx]
  cases buf[index]? with
  | none => rfl
  | some old => rw [Option.map_some, if_neg (Nat.not_lt.mpr behind)]

section Drive
variable {drive : Drive}

theorem bytesFrom_getElem? {lba length index : Nat} (inside : index < length) :
    (drive.bytesFrom lba length)[index]? = some (drive.byteFrom lba index) := by
  rw [Drive.bytesFrom, getElem?_map, getElem?_range inside, Option.map_some]

theorem bytesFrom_length (lba length : Nat) : (drive.bytesFrom lba length).length = length := by
  simp [Drive.bytesFrom]

theorem bytesFrom_split (positive : 0 < drive.blockSize) (lba first second : Nat) :
    drive.bytesFrom lba (first * drive.blockSize) ++
        drive.bytesFrom ((lba + first) % 2 ^ 32) (second * drive.blockSize) =
      drive.bytesFrom lba ((first + second) * drive.blockSize) := by
  rw [Nat.add_mul, Drive.bytesFrom, Drive.bytesFrom, Drive.bytesFrom, range_add, map_append, map_map]
  congr 1
  apply map_congr_left
  intro index _
  have block : (first * drive.blockSize + index) / drive.blockSize = first + index / drive.blockSize := by
    rw [Nat.mul_comm, Nat.mul_add_div positive]
  have offset : (first * drive.blockSize + index) % drive.blockSize = index % drive.blockSize := by
    rw [Nat.mul_comm, Nat.mul_add_mod]
  simp only [Function.comp_apply, Drive.byteFrom, block, offset, Nat.mod_add_mod, Nat.add_assoc]

end Drive

def Delivers {δ : Type} (drive : Drive) (msc : Msc δ) : Prop :=
  ∀ lba count buf state, lba < 2 ^ 32 → count < 2 ^ 16 → buf.length = count * drive.blockSize →
    (msc.readBlocks lba count buf state).1.isOk →
      (msc.readBlocks lba count buf state).2.1 = drive.bytesFrom lba (count * drive.blockSize)

section Delivers
variable {δ : Type} {drive : Drive} {msc : Msc δ} (delivers : Delivers drive msc)
include delivers

theorem readAttempts_bytes {lba deviceBlocks : Nat} (lbaSmall : lba < 2 ^ 32) (countSmall : deviceBlocks < 2 ^ 16)
    (left : Nat) {buf : List UInt8} (state : δ) (sized : buf.length = deviceBlocks * drive.blockSize)
    (ok : (readAttempts msc lba deviceBlocks left buf state).ok = true) :
    (readAttempts msc lba deviceBlocks left buf state).buf = drive.bytesFrom lba (deviceBlocks * drive.blockSize) := by
  induction left generalizing buf state with
  | zero => cases ok
  | succ left ih =>
    have kept := msc.keepsLength lba deviceBlocks buf state
    rw [readAttempts] at ok ⊢
    split at ok
    next passed =>
      rw [if_pos passed]
      exact delivers lba deviceBlocks buf state lbaSmall countSmall sized passed
    next failed =>
      rw [if_neg failed]
      exact ih _ (kept.trans sized) ok

theorem readDeviceSectors_bytes (positive : 0 < drive.blockSize) {lba deviceBlocks : Nat} (lbaSmall : lba < 2 ^ 32)
    (countSmall : deviceBlocks < 2 ^ 16) {buf : List UInt8} (sized : buf.length = deviceBlocks * drive.blockSize)
    (state : δ) (ok : (readDeviceSectors msc lba deviceBlocks buf state).ok = true) :
    (readDeviceSectors msc lba deviceBlocks buf state).buf =
      drive.bytesFrom lba (deviceBlocks * drive.blockSize) := by
  fun_induction readDeviceSectors msc lba deviceBlocks buf state with
  | case1 lba deviceBlocks buf state many whole passed =>
    exact readAttempts_bytes delivers lbaSmall countSmall 3 state sized ok
  | case2 lba deviceBlocks buf state many bytesPerBlock splitBlocks splitBytes whole failed front passed back first _
      second =>
    have kept : whole.buf.length = buf.length := readAttempts_length _ lba deviceBlocks 3 buf state
    have block : bytesPerBlock = drive.blockSize := by
      change buf.length / deviceBlocks = drive.blockSize
      rw [sized, Nat.mul_div_cancel_left _ (by omega)]
    have half : splitBlocks + (deviceBlocks - splitBlocks) = deviceBlocks := by omega
    have cut : splitBytes = splitBlocks * drive.blockSize := by
      change splitBlocks * bytesPerBlock = _
      rw [block]
    have frontSized : (whole.buf.take splitBytes).length = splitBlocks * drive.blockSize := by
      rw [length_take, kept, sized, cut, Nat.min_eq_left (Nat.mul_le_mul_right _ (by omega))]
    have backSized : (whole.buf.drop splitBytes).length = (deviceBlocks - splitBlocks) * drive.blockSize := by
      rw [length_drop, kept, sized, cut, Nat.sub_mul]
    rw [first lbaSmall (by omega) frontSized passed,
      second (Nat.mod_lt _ (by decide)) (by omega) backSized ok, bytesFrom_split positive, half]
  | case3 => cases ok
  | case4 lba deviceBlocks buf state few => exact readAttempts_bytes delivers lbaSmall countSmall 3 state sized ok

end Delivers

theorem scripted_delivers {drive : Drive} {outcomes : Nat → Outcome}
    (full : ∀ command missing, outcomes command = .passed missing → missing = 0) :
    Delivers drive (drive.scripted outcomes) := by
  intro lba count buf issued lbaSmall countSmall sized passed
  cases outcome : outcomes issued with
  | failed copied =>
    simp only [Drive.scripted, outcome, Drive.respond_eq] at passed
    cases passed
  | passed missing =>
    simp only [Drive.scripted, Drive.respond_eq, outcome, decodeRead10_read10 lbaSmall countSmall, Outcome.moved,
      full issued missing outcome, Nat.sub_zero, sized]
    exact copyIn_all sized (bytesFrom_length _ _)

def NoStaleBytes (drive : Drive) (outcomes : Nat → Outcome) : Prop :=
  ∀ issued lba deviceBlocks buf, lba < 2 ^ 32 → deviceBlocks < 2 ^ 16 → buf.length = deviceBlocks * drive.blockSize →
    (readDeviceSectors (drive.scripted outcomes) lba deviceBlocks buf issued).ok = true →
    (readDeviceSectors (drive.scripted outcomes) lba deviceBlocks buf issued).buf =
      drive.bytesFrom lba (deviceBlocks * drive.blockSize)

theorem read_one_block {drive : Drive} {outcomes : Nat → Outcome} {missing issued : Nat} (buf : List UInt8)
    (passed : outcomes issued = .passed missing) : readDeviceSectors (drive.scripted outcomes) 0 1 buf issued =
      ⟨true, copyIn (drive.bytesFrom 0 (buf.length - missing)) (buf.length - missing) buf, issued + 1⟩ := by
  have answered : (drive.scripted outcomes).readBlocks 0 1 buf issued = (.ok (buf.length - missing),
      copyIn (drive.bytesFrom 0 (buf.length - missing)) (buf.length - missing) buf, issued + 1) := by
    have decoded : decodeRead10 (read10 0 1) = (0, 1) := by decide
    simp only [Drive.scripted, Drive.respond_eq, passed, decoded]
    rfl
  rw [readDeviceSectors, readDeviceSectorsOnce, readAttempts, answered]
  rfl

/-- No read leaves stale bytes exactly when no command passes with a short data phase. -/
theorem no_stale_bytes_iff {blockSize : Nat} (positive : 0 < blockSize) (outcomes : Nat → Outcome) :
    (∀ content, NoStaleBytes ⟨blockSize, content⟩ outcomes) ↔
      ∀ command missing, outcomes command = .passed missing → missing = 0 := by
  constructor
  · intro noStale command missing short
    by_contra some
    -- One block of a device full of ones, read into zeros by the short command.
    have read := noStale (fun _ _ => 1) command 0 1 (replicate blockSize 0) (by decide) (by decide) (by simp)
    rw [read_one_block _ short] at read
    have last := congrArg (·[blockSize - 1]?) (read rfl)
    dsimp only at last
    rw [copyIn_behind _ _ (by rw [length_replicate]; omega), getElem?_replicate_of_lt (by omega),
      bytesFrom_getElem? (by rw [Nat.one_mul]; omega)] at last
    cases last
  · intro full content issued lba deviceBlocks buf lbaSmall countSmall sized ok
    exact readDeviceSectors_bytes (scripted_delivers full) positive lbaSmall countSmall sized issued ok

def ones : Drive := ⟨512, fun _ _ => 1⟩

def flaky (command : Nat) : Outcome := if command % 4 = 3 then .passed 0 else .failed 7

theorem no_stale_bytes_iff_flaky : NoStaleBytes ones flaky := by
  have full : ∀ command missing, flaky command = .passed missing → missing = 0 := by
    intro command missing passed
    unfold flaky at passed
    split at passed
    · exact (Outcome.passed.inj passed).symm
    · cases passed
  exact (no_stale_bytes_iff (by decide) flaky).mpr full _

def oneShort (_ : Nat) : Outcome := .passed 1

theorem short_block_leaves_stale_byte :
    (readDeviceSectors (ones.scripted oneShort) 0 1 (replicate 512 0) 0).ok = true ∧
      (readDeviceSectors (ones.scripted oneShort) 0 1 (replicate 512 0) 0).buf[511]? = some 0 ∧
      (ones.bytesFrom 0 512)[511]? = some 1 := by
  have short : oneShort 0 = .passed 1 := rfl
  rw [read_one_block _ short]
  refine ⟨rfl, ?_, bytesFrom_getElem? (by decide)⟩
  rw [copyIn_behind _ _ (by rw [length_replicate])]
  exact getElem?_replicate_of_lt (by decide)

/-! A device whose failures depend on nothing but the blocks requested. -/

abbrev Faults := Nat → Nat → Option Nat

def Faults.outcome (faults : Faults) (lba count : Nat) : Outcome :=
  match faults lba count with
  | none => .passed 0
  | some copied => .failed copied

def Drive.failing (drive : Drive) (faults : Faults) : Msc Unit where
  readBlocks lba count buf _ :=
    let answer := drive.respond (read10 lba count) buf (faults.outcome lba count)
    (answer.1, answer.2, ())
  keepsLength lba count buf _ := by
    dsimp only
    rw [Drive.respond_eq, copyIn_length]

def Faults.readable (faults : Faults) (lba count : Nat) : Bool :=
  if 1 < count then
    (faults lba count).isNone ||
      (readable faults lba (count / 2) && readable faults ((lba + count / 2) % 2 ^ 32) (count - count / 2))
  else (faults lba count).isNone
termination_by count
decreasing_by
  all_goals omega

section Failing
variable {drive : Drive} {faults : Faults}

theorem failing_isOk (lba count : Nat) (buf : List UInt8) (state : Unit) :
    ((drive.failing faults).readBlocks lba count buf state).1.isOk = (faults lba count).isNone := by
  change (drive.respond (read10 lba count) buf (faults.outcome lba count)).1.isOk = _
  rw [Drive.respond_eq]
  unfold Faults.outcome
  cases faults lba count with
  | none => rfl
  | some copied => rfl

theorem failing_delivers : Delivers drive (drive.failing faults) := by
  intro lba count buf state lbaSmall countSmall sized passed
  rw [failing_isOk, Option.isNone_iff_eq_none] at passed
  simp only [Drive.failing, Faults.outcome, passed, Drive.respond_eq, Outcome.moved, decodeRead10_read10 lbaSmall countSmall,
    Nat.sub_zero, sized]
  exact copyIn_all sized (bytesFrom_length _ _)

theorem failing_once (lba count : Nat) (buf : List UInt8) (state : Unit) :
    (readDeviceSectorsOnce (drive.failing faults) lba count buf state).ok = (faults lba count).isNone := by
  simp only [readDeviceSectorsOnce, readAttempts, failing_isOk]
  cases (faults lba count).isNone with
  | true => rfl
  | false => rfl

theorem failing_ok (lba count : Nat) (buf : List UInt8) (state : Unit) :
    (readDeviceSectors (drive.failing faults) lba count buf state).ok = faults.readable lba count := by
  fun_induction readDeviceSectors (drive.failing faults) lba count buf state with
  | case1 lba count buf state many whole passed =>
    have once : whole.ok = (faults lba count).isNone := failing_once lba count buf state
    rw [Faults.readable, if_pos many, ← once, passed, Bool.true_or]
  | case2 lba count buf state many bytesPerBlock splitBlocks splitBytes whole failed front passed back first _ second =>
    have once : whole.ok = (faults lba count).isNone := failing_once lba count buf state
    rw [Faults.readable, if_pos many, ← once, Bool.eq_false_iff.mpr failed, ← first, ← second, passed, Bool.false_or,
      Bool.true_and]
  | case3 lba count buf state many bytesPerBlock splitBlocks splitBytes whole failed front stopped ih =>
    have once : whole.ok = (faults lba count).isNone := failing_once lba count buf state
    rw [Faults.readable, if_pos many, ← once, Bool.eq_false_iff.mpr failed, ← ih, Bool.eq_false_iff.mpr stopped,
      Bool.false_or, Bool.false_and]
  | case4 lba count buf state few =>
    rw [Faults.readable, if_neg few]
    exact failing_once lba count buf state

end Failing

end HermitLocal.Usb.ReadSectors
