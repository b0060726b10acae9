import HermitLocal.Usb.BulkOnly
import Mathlib.Data.List.Nodup

/-! The DMA buffers of `scsi_command`. A buffer is freed by an explicit call only; every step of the command that can
fail returns at once. What the steps come to is given from outside: each allocation, each transfer that is queued,
each wait, and which descriptors the controller has completed. -/

namespace HermitLocal.Usb.CommandBuffers
open Lib.Program Usb.Events List
open Usb.BulkOnly (Csw Phase Host CBW_LEN CSW_LEN)

structure Outcomes where
  alloc : Phase → Option Nat
  queue : Phase → Bool
  wait : Phase → Except UsbError Nat
  completed : Phase → Bool
  status : Csw
  distinct : ∀ phase other buf, alloc phase = some buf → alloc other = some buf → phase = other

structure Descriptor where
  phase : Phase
  isIn : Bool
  buf : Nat

structure Record where
  allocated : List Nat
  queued : List Descriptor
  freed : List Nat
  early : List Nat

abbrev Driver := EStateM UsbError Record

section Driver
variable (outcomes : Outcomes)

def alloc (phase : Phase) : Driver Nat := fun record =>
  match outcomes.alloc phase with
  | none => .error .ooRam record
  | some buf => .ok buf { record with allocated := record.allocated ++ [buf] }

def queueTransfer (phase : Phase) (isIn : Bool) (buf : Nat) : Driver Unit := fun record =>
  if outcomes.queue phase then .ok () { record with queued := record.queued ++ [⟨phase, isIn, buf⟩] }
  else .error .invEndpoint record

def waitTransfer (phase : Phase) : Driver Nat := fun record =>
  match outcomes.wait phase with
  | .ok len => .ok len record
  | .error error => .error error record

def inFlight (queued : List Descriptor) (buf : Nat) : Bool :=
  queued.any fun descriptor => descriptor.buf == buf && !outcomes.completed descriptor.phase

def free (buf : Nat) : Driver Unit := modify fun record =>
  { record with
    freed := record.freed ++ [buf]
    early := record.early ++ if inFlight outcomes record.queued buf then [buf] else [] }

def host : Host Record where
  alloc phase _ := alloc outcomes phase
  fill _ _ := pure ()
  queueTransfer phase isIn buf _ := queueTransfer outcomes phase isIn buf
  waitTransfer phase _ _ := waitTransfer outcomes phase
  copyOut _ _ := pure ()
  readCsw _ := pure outcomes.status
  free := free outcomes

end Driver

def empty : Record := ⟨[], [], [], []⟩

def recordOf (outcomes : Outcomes) (data : Option (List UInt8)) (directionIn : Bool) : Record :=
  final ((host outcomes).scsiCommand (data.getD []).length directionIn empty)

structure Tidy (record : Record) : Prop where
  once : ∀ buf ∈ record.allocated, record.freed.count buf = 1
  settled : record.early = []

def phases (dataLen : Nat) : List Phase := if 0 < dataLen then [.cbw, .data, .csw] else [.cbw, .csw]

structure Served (outcomes : Outcomes) (phase : Phase) : Prop where
  alloc : ∃ buf, outcomes.alloc phase = some buf
  queue : outcomes.queue phase = true
  wait : ∃ len, outcomes.wait phase = .ok len
  completed : outcomes.completed phase = true

section Steps
variable {outcomes : Outcomes} {phase : Phase} {record after : Record} {error : UsbError} {isIn : Bool} {buf size len : Nat}

theorem alloc_eq_ok : alloc outcomes phase record = .ok buf after ↔
    outcomes.alloc phase = some buf ∧ after = { record with allocated := record.allocated ++ [buf] } := by
  unfold alloc
  cases outcomes.alloc phase with
  | none => simp
  | some other =>
    simp only [EStateM.Result.ok.injEq, Option.some.injEq]
    constructor
    · intro same
      obtain ⟨rfl, rfl⟩ := same
      exact ⟨rfl, rfl⟩
    · intro same
      obtain ⟨rfl, rfl⟩ := same
      exact ⟨rfl, rfl⟩

theorem alloc_eq_error (failed : alloc outcomes phase record = .error error after) :
    outcomes.alloc phase = none ∧ after = record := by
  unfold alloc at failed
  cases given : outcomes.alloc phase with
  | none =>
    rw [given] at failed
    cases failed
    exact ⟨rfl, rfl⟩
  | some buf =>
    rw [given] at failed
    cases failed

theorem transfer_eq_ok (ended : (host outcomes).transfer phase isIn buf size record = .ok len after) :
    outcomes.queue phase = true ∧ outcomes.wait phase = .ok len ∧
      after = { record with queued := record.queued ++ [⟨phase, isIn, buf⟩] } := by
  obtain ⟨value, between, queued, waited⟩ := bind_eq_ok.mp ended
  change queueTransfer outcomes phase isIn buf record = _ at queued
  change waitTransfer outcomes phase between = _ at waited
  unfold queueTransfer at queued
  split at queued
  next accepted =>
    cases queued
    unfold waitTransfer at waited
    split at waited
    next given =>
      cases waited
      exact ⟨accepted, given, rfl⟩
    · cases waited
  · cases queued

theorem transfer_eq_error (failed : (host outcomes).transfer phase isIn buf size record = .error error after) :
    ¬Served outcomes phase ∧ after.allocated = record.allocated ∧ after.freed = record.freed := by
  obtain refused | ⟨value, between, queued, waited⟩ := bind_eq_error.mp failed
  · change queueTransfer outcomes phase isIn buf record = _ at refused
    unfold queueTransfer at refused
    split at refused
    · cases refused
    next rejected =>
      cases refused
      exact ⟨fun served => rejected served.queue, rfl, rfl⟩
  · change queueTransfer outcomes phase isIn buf record = _ at queued
    change waitTransfer outcomes phase between = _ at waited
    unfold queueTransfer at queued
    split at queued
    · cases queued
      unfold waitTransfer at waited
      split at waited
      · cases waited
      next given =>
        cases waited
        refine ⟨?_, rfl, rfl⟩
        intro served
        obtain ⟨len, expected⟩ := served.wait
        rw [given] at expected
        cases expected
    · cases queued

end Steps

structure Leaks (outcomes : Outcomes) (dataLen : Nat) (record : Record) : Prop where
  first : ∃ buf, outcomes.alloc .cbw = some buf
  holds : record.allocated ≠ []
  keeps : record.freed = []
  failed : ∃ phase ∈ phases dataLen, ¬Served outcomes phase

variable {bufs : List Nat} {queued : List Descriptor}

section Command
variable {outcomes : Outcomes} {dataLen : Nat} {directionIn : Bool} {record : Record} {error : UsbError}

variable {phase : Phase}

theorem not_served (absent : outcomes.alloc phase = none) : ¬Served outcomes phase := by
  intro served
  obtain ⟨buf, given⟩ := served.alloc
  rw [absent] at given
  cases given

theorem mem_phases : phase ∈ phases dataLen ↔ phase = .cbw ∨ (phase = .data ∧ 0 < dataLen) ∨ phase = .csw := by
  unfold phases
  split_ifs with some
  · simp [some]
  · simp [some]

theorem cbw_mem : Phase.cbw ∈ phases dataLen := mem_phases.mpr (Or.inl rfl)

theorem csw_mem : Phase.csw ∈ phases dataLen := mem_phases.mpr (Or.inr (Or.inr rfl))

theorem data_mem (some : 0 < dataLen) : Phase.data ∈ phases dataLen := mem_phases.mpr (Or.inr (Or.inl ⟨rfl, some⟩))

structure Allocated (outcomes : Outcomes) (dataLen cbwBuf cswBuf : Nat) (dataBuf : Option Nat) : Prop where
  cbw : outcomes.alloc .cbw = some cbwBuf
  csw : outcomes.alloc .csw = some cswBuf
  data : 0 < dataLen → outcomes.alloc .data = dataBuf ∧ dataBuf.isSome = true
  noData : ¬0 < dataLen → dataBuf = none

theorem allocBuffers_ok {cbwBuf cswBuf : Nat} {dataBuf : Option Nat}
    (ended : (host outcomes).allocBuffers dataLen empty = .ok (cbwBuf, cswBuf, dataBuf) record) :
    Allocated outcomes dataLen cbwBuf cswBuf dataBuf ∧ record = ⟨cbwBuf :: cswBuf :: dataBuf.toList, [], [], []⟩ := by
  obtain ⟨first, afterFirst, cbwRan, ended⟩ := bind_eq_ok.mp ended
  obtain ⟨second, afterSecond, cswRan, ended⟩ := bind_eq_ok.mp ended
  obtain ⟨cbw, rfl⟩ := alloc_eq_ok.mp cbwRan
  obtain ⟨csw, rfl⟩ := alloc_eq_ok.mp cswRan
  split at ended
  next some =>
    obtain ⟨third, afterThird, dataRan, ended⟩ := bind_eq_ok.mp ended
    obtain ⟨data, rfl⟩ := alloc_eq_ok.mp dataRan
    cases ended
    exact ⟨⟨cbw, csw, fun _ => ⟨data, rfl⟩, fun none => absurd some none⟩, rfl⟩
  next none =>
    cases ended
    exact ⟨⟨cbw, csw, fun some => absurd some none, fun _ => rfl⟩, rfl⟩

theorem allocBuffers_error (failed : (host outcomes).allocBuffers dataLen empty = .error error record) :
    (outcomes.alloc .cbw = none ∧ record = empty) ∨ Leaks outcomes dataLen record := by
  obtain refused | ⟨first, afterFirst, cbwRan, failed⟩ := bind_eq_error.mp failed
  · exact Or.inl (alloc_eq_error refused)
  obtain ⟨cbw, rfl⟩ := alloc_eq_ok.mp cbwRan
  apply Or.inr
  obtain refused | ⟨second, afterSecond, cswRan, failed⟩ := bind_eq_error.mp failed
  · obtain ⟨absent, rfl⟩ := alloc_eq_error refused
    exact ⟨⟨first, cbw⟩, cons_ne_nil _ _, rfl, .csw, csw_mem, not_served absent⟩
  obtain ⟨csw, rfl⟩ := alloc_eq_ok.mp cswRan
  split at failed
  next some =>
    obtain refused | ⟨third, afterThird, dataRan, failed⟩ := bind_eq_error.mp failed
    · obtain ⟨absent, rfl⟩ := alloc_eq_error refused
      exact ⟨⟨first, cbw⟩, cons_ne_nil _ _, rfl, .data, data_mem some, not_served absent⟩
    · cases failed
  · cases failed

section Exchange
variable {cbwBuf cswBuf : Nat} {dataBuf : Option Nat} (given : Allocated outcomes dataLen cbwBuf cswBuf dataBuf)

include given

theorem leaks_after (needed : phase ∈ phases dataLen) (unserved : ¬Served outcomes phase)
    (kept : record.allocated = cbwBuf :: cswBuf :: dataBuf.toList) (none : record.freed = []) :
    Leaks outcomes dataLen record where
  first := ⟨cbwBuf, given.cbw⟩
  holds := by
    rw [kept]
    exact cons_ne_nil _ _
  keeps := none
  failed := ⟨phase, needed, unserved⟩

theorem data_needed {buf : Nat} (some : dataBuf = some buf) : 0 < dataLen := by
  by_contra none
  rw [given.noData none] at some
  cases some

end Exchange

def descriptors (cbwBuf cswBuf : Nat) (dataBuf : Option Nat) (directionIn : Bool) : List Descriptor :=
  [⟨.cbw, false, cbwBuf⟩] ++ dataBuf.toList.map (⟨.data, directionIn, ·⟩) ++ [⟨.csw, true, cswBuf⟩]

theorem dataPhase_some (buf : Nat) :
    (host outcomes).dataPhase (some buf) dataLen directionIn = (host outcomes).transfer .data directionIn buf dataLen := by
  cases directionIn with
  | false => rfl
  | true => exact bind_pure _

theorem dataPhase_ok {dataBuf : Option Nat} {after : Record} {len : Nat}
    (ended : (host outcomes).dataPhase dataBuf dataLen directionIn record = .ok len after) :
    (dataBuf.isSome = true → outcomes.queue .data = true ∧ ∃ len, outcomes.wait .data = .ok len) ∧
      after = { record with queued := record.queued ++ dataBuf.toList.map (⟨.data, directionIn, ·⟩) } := by
  cases dataBuf with
  | none =>
    cases ended
    exact ⟨fun some => absurd some (by decide), by rw [Option.toList_none, map_nil, append_nil]⟩
  | some buf =>
    rw [dataPhase_some] at ended
    obtain ⟨queue, wait, after⟩ := transfer_eq_ok ended
    exact ⟨fun _ => ⟨queue, len, wait⟩, after⟩

theorem sendCbw_ok {cbwBuf len : Nat} {after : Record} (ended : (host outcomes).sendCbw cbwBuf record = .ok len after) :
    outcomes.queue .cbw = true ∧ outcomes.wait .cbw = .ok len ∧
      after = { record with queued := record.queued ++ [⟨.cbw, false, cbwBuf⟩] } := by
  change (host outcomes).transfer .cbw false cbwBuf CBW_LEN record = _ at ended
  exact transfer_eq_ok ended

theorem sendCbw_error {cbwBuf : Nat} {after : Record}
    (failed : (host outcomes).sendCbw cbwBuf record = .error error after) :
    ¬Served outcomes .cbw ∧ after.allocated = record.allocated ∧ after.freed = record.freed := by
  change (host outcomes).transfer .cbw false cbwBuf CBW_LEN record = _ at failed
  exact transfer_eq_error failed

theorem exchange_error (failed : (host outcomes).exchange dataLen directionIn empty = .error error record) :
    (outcomes.alloc .cbw = none ∧ record = empty) ∨ Leaks outcomes dataLen record := by
  obtain refused | ⟨⟨cbwBuf, cswBuf, dataBuf⟩, allocated, allocRan, failed⟩ := bind_eq_error.mp failed
  · exact allocBuffers_error refused
  obtain ⟨given, rfl⟩ := allocBuffers_ok allocRan
  apply Or.inr
  obtain refused | ⟨len, sent, cbwRan, failed⟩ := bind_eq_error.mp failed
  · obtain ⟨unserved, kept, none⟩ := sendCbw_error refused
    exact leaks_after given cbw_mem unserved kept none
  obtain ⟨-, -, rfl⟩ := sendCbw_ok cbwRan
  obtain refused | ⟨transferred, moved, dataRan, failed⟩ := bind_eq_error.mp failed
  · cases dataBuf with
    | none => cases refused
    | some buf =>
      rw [dataPhase_some] at refused
      obtain ⟨unserved, kept, none⟩ := transfer_eq_error refused
      exact leaks_after given (data_mem (data_needed given rfl)) unserved kept none
  obtain ⟨-, rfl⟩ := dataPhase_ok dataRan
  obtain refused | ⟨status, received, cswRan, failed⟩ := bind_eq_error.mp failed
  · obtain refused | ⟨len, waited, cswRan, read⟩ := bind_eq_error.mp refused
    · obtain ⟨unserved, kept, none⟩ := transfer_eq_error refused
      exact leaks_after given csw_mem unserved kept none
    · cases read
  · cases failed

structure Exchanged (outcomes : Outcomes) (dataLen : Nat) (bufs : List Nat) (queued : List Descriptor) : Prop where
  alloc : ∀ phase ∈ phases dataLen, ∃ buf, outcomes.alloc phase = some buf
  queue : ∀ phase ∈ phases dataLen, outcomes.queue phase = true
  wait : ∀ phase ∈ phases dataLen, ∃ len, outcomes.wait phase = .ok len
  distinct : bufs.Nodup
  phases : queued.map Descriptor.phase = phases dataLen
  bufs : ∀ descriptor ∈ queued, descriptor.buf ∈ bufs

theorem other_buf {other : Phase} {buf otherBuf : Nat} (given : outcomes.alloc phase = some buf)
    (otherGiven : outcomes.alloc other = some otherBuf) (different : phase ≠ other) : buf ≠ otherBuf := by
  intro same
  subst same
  exact different (outcomes.distinct phase other buf given otherGiven)

section Exchange
variable {cbwBuf cswBuf : Nat} {dataBuf : Option Nat} (given : Allocated outcomes dataLen cbwBuf cswBuf dataBuf)

theorem descriptors_bufs : ∀ descriptor ∈ descriptors cbwBuf cswBuf dataBuf directionIn,
    descriptor.buf ∈ cbwBuf :: cswBuf :: dataBuf.toList := by
  cases dataBuf with
  | none | some buf => simp [descriptors]

include given

theorem bufs_distinct : (cbwBuf :: cswBuf :: dataBuf.toList).Nodup := by
  have wrappers := other_buf given.cbw given.csw (by decide)
  cases dataBuf with
  | none => simp [wrappers]
  | some buf =>
    have data := (given.data (data_needed given rfl)).1
    have first := other_buf given.cbw data (by decide)
    have second := other_buf given.csw data (by decide)
    simp [wrappers, first, second]

theorem descriptors_phases (directionIn : Bool) :
    (descriptors cbwBuf cswBuf dataBuf directionIn).map Descriptor.phase = phases dataLen := by
  cases dataBuf with
  | none =>
    have noData : ¬0 < dataLen := fun some => absurd (given.data some).2 (by decide)
    exact (if_neg noData).symm
  | some buf => exact (if_pos (data_needed given rfl)).symm

end Exchange

theorem exchange_ok {transferred : Nat} {csw : Csw}
    (ended : (host outcomes).exchange dataLen directionIn empty = .ok (bufs, transferred, csw) record) :
    ∃ queued, Exchanged outcomes dataLen bufs queued ∧ record = ⟨bufs, queued, [], []⟩ ∧ csw = outcomes.status := by
  obtain ⟨cbwBuf, cswBuf, dataBuf, allocated, len, sent, moved, allocRan, cbwRan, dataRan, cswRan, rfl⟩ :=
    Host.exchange_ok ended
  obtain ⟨given, rfl⟩ := allocBuffers_ok allocRan
  obtain ⟨cbwQueue, cbwWait, rfl⟩ := sendCbw_ok cbwRan
  obtain ⟨dataServed, rfl⟩ := dataPhase_ok dataRan
  obtain ⟨status, received, cswRan, read⟩ := bind_eq_ok.mp cswRan
  obtain ⟨cswQueue, cswWait, rfl⟩ := transfer_eq_ok cswRan
  cases read
  refine ⟨descriptors cbwBuf cswBuf dataBuf directionIn, ?_, rfl, rfl⟩
  constructor
  · intro phase needed
    obtain rfl | ⟨rfl, some⟩ | rfl := mem_phases.mp needed
    · exact ⟨cbwBuf, given.cbw⟩
    · rw [(given.data some).1]
      exact Option.isSome_iff_exists.mp (given.data some).2
    · exact ⟨cswBuf, given.csw⟩
  · intro phase needed
    obtain rfl | ⟨rfl, some⟩ | rfl := mem_phases.mp needed
    · exact cbwQueue
    · exact (dataServed (given.data some).2).1
    · exact cswQueue
  · intro phase needed
    obtain rfl | ⟨rfl, some⟩ | rfl := mem_phases.mp needed
    · exact ⟨len, cbwWait⟩
    · exact (dataServed (given.data some).2).2
    · exact ⟨status, cswWait⟩
  · exact bufs_distinct given
  · exact descriptors_phases given directionIn
  · exact descriptors_bufs

theorem free_all (bufs : List Nat) (record : Record) : bufs.forM (free outcomes) record = .ok () { record with
      freed := record.freed ++ bufs
      early := record.early ++ bufs.filter (inFlight outcomes record.queued) } := by
  induction bufs generalizing record with
  | nil =>
    rw [filter_nil, append_nil, append_nil]
    rfl
  | cons buf rest ih =>
    change (free outcomes buf >>= fun _ => rest.forM (free outcomes)) record = _
    have first : free outcomes buf record = .ok () { record with
        freed := record.freed ++ [buf]
        early := record.early ++ if inFlight outcomes record.queued buf then [buf] else [] } := rfl
    rw [bind_of_ok first, ih, filter_cons]
    rw [append_assoc, append_assoc]
    split_ifs
    · rfl
    · rfl

theorem settled_iff (inside : ∀ descriptor ∈ queued, descriptor.buf ∈ bufs) :
    bufs.filter (inFlight outcomes queued) = [] ↔ ∀ descriptor ∈ queued, outcomes.completed descriptor.phase = true := by
  rw [filter_eq_nil_iff]
  constructor
  · intro none descriptor member
    by_contra late
    apply none descriptor.buf (inside descriptor member)
    apply any_eq_true.mpr
    exact ⟨descriptor, member, by simp [late]⟩
  · intro completed buf _ found
    obtain ⟨descriptor, member, late⟩ := any_eq_true.mp found
    rw [completed descriptor member, Bool.not_true, Bool.and_false] at late
    cases late

theorem served_iff (exchanged : Exchanged outcomes dataLen bufs queued) :
    (∀ phase ∈ phases dataLen, Served outcomes phase) ↔ ∀ descriptor ∈ queued, outcomes.completed descriptor.phase = true := by
  rw [← exchanged.phases]
  constructor
  · intro served descriptor member
    exact (served descriptor.phase (mem_map_of_mem member)).completed
  · intro completed phase needed
    obtain ⟨descriptor, member, same⟩ := mem_map.mp needed
    rw [exchanged.phases] at needed
    refine ⟨exchanged.alloc phase needed, exchanged.queue phase needed, exchanged.wait phase needed, ?_⟩
    rw [← same]
    exact completed descriptor member

theorem tidy_iff (exchanged : Exchanged outcomes dataLen bufs queued) :
    Tidy ⟨bufs, queued, bufs, bufs.filter (inFlight outcomes queued)⟩ ↔ ∀ phase ∈ phases dataLen, Served outcomes phase := by
  rw [served_iff exchanged, ← settled_iff exchanged.bufs]
  constructor
  · exact Tidy.settled
  · intro settled
    exact ⟨fun buf member => count_eq_one_of_mem exchanged.distinct member, settled⟩

theorem leaks_not_tidy (leaks : Leaks outcomes dataLen record) : ¬Tidy record := by
  intro tidy
  obtain ⟨buf, member⟩ := exists_mem_of_ne_nil _ leaks.holds
  have once := tidy.once buf member
  rw [leaks.keeps] at once
  cases once

end Command

section Record
variable {outcomes : Outcomes} {data : Option (List UInt8)} {directionIn : Bool} {record : Record}

theorem recordOf_ok {transferred : Nat} {csw : Csw}
    (ended : (host outcomes).exchange (data.getD []).length directionIn empty =
      .ok (bufs, transferred, csw) ⟨bufs, queued, [], []⟩) :
    recordOf outcomes data directionIn = ⟨bufs, queued, bufs, bufs.filter (inFlight outcomes queued)⟩ := by
  have freed : bufs.forM (host outcomes).free ⟨bufs, queued, [], []⟩ =
      .ok () ⟨bufs, queued, bufs, bufs.filter (inFlight outcomes queued)⟩ := free_all bufs _
  rw [recordOf, Host.scsiCommand, bind_of_ok ended]
  dsimp only
  rw [bind_of_ok freed]
  split
  · rfl
  · rfl

theorem recordOf_error {error : UsbError}
    (failed : (host outcomes).exchange (data.getD []).length directionIn empty = .error error record) :
    recordOf outcomes data directionIn = record := by
  rw [recordOf, Host.scsiCommand, bind_of_error failed]
  rfl

end Record

/-- Buffers are freed once and after their transfers exactly if there are none or no step fails. -/
theorem buffers_tidy_iff (outcomes : Outcomes) (data : Option (List UInt8)) (directionIn : Bool) :
    Tidy (recordOf outcomes data directionIn) ↔
      outcomes.alloc .cbw = none ∨ ∀ phase ∈ phases (data.getD []).length, Served outcomes phase := by
  cases ran : (host outcomes).exchange (data.getD []).length directionIn empty with
  | ok result record =>
    obtain ⟨queued, exchanged, rfl, -⟩ := exchange_ok ran
    rw [recordOf_ok ran, tidy_iff exchanged]
    constructor
    · exact .inr
    · intro either
      obtain absent | served := either
      · obtain ⟨buf, given⟩ := exchanged.alloc .cbw cbw_mem
        rw [absent] at given
        cases given
      · exact served
  | error error record =>
    rw [recordOf_error ran]
    obtain ⟨absent, rfl⟩ | leaks := exchange_error ran
    · constructor
      · exact fun _ => .inl absent
      · intro _
        refine ⟨?_, rfl⟩
        intro buf member
        cases member
    · constructor
      · intro tidy
        exact absurd tidy (leaks_not_tidy leaks)
      · intro either
        obtain absent | served := either
        · obtain ⟨buf, given⟩ := leaks.first
          rw [absent] at given
          cases given
        · obtain ⟨phase, needed, unserved⟩ := leaks.failed
          exact absurd (served phase needed) unserved

def sample (wait : Phase → Except UsbError Nat) (completed : Phase → Bool) : Outcomes where
  alloc
    | .cbw => some 0x1000
    | .data => some 0x2000
    | .csw => some 0x3000
  queue _ := true
  wait := wait
  completed := completed
  status := ⟨BulkOnly.CSW_SIGNATURE, 1, 0, 0⟩
  distinct := by
    intro phase other buf given otherGiven
    cases phase <;> cases other <;> cases given <;> cases otherGiven <;> rfl

theorem failed_wait_leaks :
    (recordOf (sample (fun _ => .error (.timeout "wait_transfer timeout")) fun _ => false) (some [0]) true).allocated =
        [0x1000, 0x3000, 0x2000] ∧
      (recordOf (sample (fun _ => .error (.timeout "wait_transfer timeout")) fun _ => false) (some [0]) true).freed = [] ∧
      (recordOf (sample (fun _ => .ok 1) (· != .data)) (some [0]) true).freed = [0x1000, 0x3000, 0x2000] ∧
      (recordOf (sample (fun _ => .ok 1) (· != .data)) (some [0]) true).early = [0x2000] := by
  decide

end HermitLocal.Usb.CommandBuffers
