import HermitLocal.Usb.Ingest

/-! The ingestion loop against the plain walk of a cluster chain, which reads one cluster at a
time. The two agree on all files of a disk exactly when each run that the loop may merge
can be read as its clusters can. -/

namespace HermitLocal.Usb.PlainWalk
open Lib.Wire Usb.ReadSectors Usb.Fat32 Usb.Ingest List Option

def InRange (vol : Fat32Volume) : Prop :=
  vol.clusterBlocks * ((USB_MAX_READ_BYTES - 1) / vol.clusterBytes + 1) < 2 ^ 16

section Walk
variable (disk : Disk) (vol : Fat32Volume) (behind : List UInt8)

def runReadable (start clusters : Nat) : Bool :=
  disk.faults.readable (vol.firstDeviceLbaOfCluster start) (vol.clusterBlocks * clusters)

def runBytes (start clusters : Nat) : List UInt8 :=
  (disk.drive vol).bytesFrom (vol.firstDeviceLbaOfCluster start) (clusters * vol.clusterBytes)

def follow (walk : Nat → Option (List UInt8)) (left : Nat) (entry : Option (Option Nat)) : Option (List UInt8) :=
  if left = 0 then some []
  else
    match entry with
    | some (some next) => walk next
    | _ => none

def plainWalk : Nat → Nat → Option (List UInt8)
  | 0, _ => some []
  | left + 1, cluster =>
      if IsData cluster ∧ runReadable disk vol cluster 1 then
        (follow (plainWalk left) left (disk.fatEntry vol behind cluster)).map (runBytes disk vol cluster 1 ++ ·)
      else none

def clustersFor (bytes : Nat) : Nat := (bytes + (vol.clusterBytes - 1)) / vol.clusterBytes

def plainFile (file : Fat32File) : Option (List UInt8) :=
  (plainWalk disk vol behind (clustersFor vol file.size) file.firstCluster).map (·.take file.size)

def EachReadable (start clusters : Nat) : Prop :=
  ∀ further, further < clusters → IsData (start + further) ∧ runReadable disk vol (start + further) 1

def RunsAgree : Prop :=
  ∀ start clusters, IsData start → 0 < clusters → (clusters - 1) * vol.clusterBytes < USB_MAX_READ_BYTES →
    Linked (disk.fatEntry vol behind) start clusters →
    ((disk.fatEntry vol behind (start + (clusters - 1))).isSome ∧ runReadable disk vol start clusters ↔
      EachReadable disk vol start clusters)

end Walk

def obtained (file : Fat32File) (result : Option Bool × Loading Unit) : Option (List UInt8) :=
  if result.1 = some true then some (result.2.heap.slice 0 file.size) else none

section Follow
variable {walk : Nat → Option (List UInt8)} {left : Nat}

theorem follow_zero (entry : Option (Option Nat)) : follow walk 0 entry = some [] := if_pos rfl

theorem follow_next (next : Nat) (needed : left ≠ 0) : follow walk left (some (some next)) = walk next := if_neg needed

theorem follow_failed (needed : left ≠ 0) : follow walk left (some none) = none := if_neg needed

end Follow

variable {start clusters copied : Nat}

section Bytes
variable {disk : Disk} {vol : Fat32Volume}

theorem runBytes_length (start clusters : Nat) : (runBytes disk vol start clusters).length = clusters * vol.clusterBytes :=
  bytesFrom_length _ _

theorem runBytes_add (data : 2 ≤ start) (first second : Nat) :
    runBytes disk vol start (first + second) = runBytes disk vol start first ++ runBytes disk vol (start + first) second := by
  unfold runBytes
  rw [vol.firstLba_add data, vol.clusterBytes_eq, ← Nat.mul_assoc, ← Nat.mul_assoc, ← Nat.mul_assoc]
  have joined := @bytesFrom_split (disk.drive vol) vol.blockPositive (vol.firstDeviceLbaOfCluster start)
    (first * vol.clusterBlocks) (second * vol.clusterBlocks)
  rw [← Nat.add_mul] at joined
  exact joined.symm

end Bytes

section Plain
variable {disk : Disk} {vol : Fat32Volume} {behind : List UInt8}

theorem eachReadable_succ : EachReadable disk vol start (clusters + 1) ↔
      (IsData start ∧ runReadable disk vol start 1) ∧ EachReadable disk vol (start + 1) clusters := by
  constructor
  · intro each
    refine ⟨each 0 (Nat.succ_pos _), fun further inside => ?_⟩
    rw [Nat.add_assoc, Nat.add_comm 1]
    exact each (further + 1) (by omega)
  · rintro ⟨first, rest⟩ further inside
    cases further with
    | zero => exact first
    | succ further =>
      rw [Nat.add_comm further, ← Nat.add_assoc]
      exact rest further (by omega)

theorem eachReadable_zero (start : Nat) : EachReadable disk vol start 0 := fun _ inside => absurd inside (Nat.not_lt_zero _)

theorem plainWalk_run (left : Nat) (positive : 0 < clusters)
    (linked : Linked (disk.fatEntry vol behind) start clusters)
    [Decidable (EachReadable disk vol start clusters)] : plainWalk disk vol behind (clusters + left) start =
      if EachReadable disk vol start clusters then
        (follow (plainWalk disk vol behind left) left (disk.fatEntry vol behind (start + (clusters - 1)))).map
          (runBytes disk vol start clusters ++ ·)
      else none := by
  induction clusters generalizing start with
  | zero => exact absurd positive (Nat.lt_irrefl 0)
  | succ clusters ih =>
    have order : clusters + 1 + left = clusters + left + 1 := by omega
    rw [order, plainWalk]
    by_cases first : IsData start ∧ runReadable disk vol start 1
    · rw [if_pos first]
      by_cases single : clusters = 0
      · subst single
        have each : EachReadable disk vol start 1 := eachReadable_succ.mpr ⟨first, eachReadable_zero _⟩
        rw [if_pos each, Nat.zero_add]
        rfl
      · have entry := linked 0 (by omega)
        have rest : Linked (disk.fatEntry vol behind) (start + 1) clusters := by
          intro further inside
          have next := linked (further + 1) (by omega)
          rwa [Nat.add_comm further, ← Nat.add_assoc] at next
        have last : start + 1 + (clusters - 1) = start + (clusters + 1 - 1) := by omega
        rw [Nat.add_zero] at entry
        rw [entry, follow_next _ (by omega)]
        classical
        rw [ih (by omega) rest, last]
        by_cases each : EachReadable disk vol (start + 1) clusters
        · rw [if_pos each, if_pos (eachReadable_succ.mpr ⟨first, each⟩), Option.map_map, Nat.add_comm clusters,
            runBytes_add first.1.1]
          congr 1
          funext bytes
          exact (List.append_assoc _ _ _).symm
        · rw [if_neg each, if_neg (fun all => each (eachReadable_succ.mp all).2), Option.map_none]
    · rw [if_neg first, if_neg (fun all => first (eachReadable_succ.mp all).1)]

end Plain

theorem write_slice (heap : Heap) {total : Nat} {bytes : List UInt8} (before : copied ≤ total)
    (inside : total ≤ copied + bytes.length) :
    (heap.write copied bytes).slice 0 total = heap.slice 0 copied ++ bytes.take (total - copied) := by
  apply ext_getElem
  · simp only [Heap.slice, length_map, length_range, length_append, length_take]
    omega
  · intro index first second
    simp only [Heap.slice, length_map, length_range] at first
    simp only [Heap.slice, Heap.write, getElem_map, getElem_range, Nat.zero_add, getElem_append,
      length_map, length_range]
    by_cases old : index < copied
    · rw [dif_pos old, if_neg (by omega)]
    · rw [dif_neg old, if_pos (by omega), getElem_take, getD_eq_getElem?_getD,
        getElem?_eq_getElem (by omega), getD_some]

section Runs
variable {disk : Disk} {vol : Fat32Volume} {behind : List UInt8}

theorem inRange_run (inRange : InRange vol) (short : (clusters - 1) * vol.clusterBytes < USB_MAX_READ_BYTES) :
    vol.clusterBlocks * clusters < 2 ^ 16 := by
  have few : clusters - 1 ≤ (USB_MAX_READ_BYTES - 1) / vol.clusterBytes := by
    rw [Nat.le_div_iff_mul_le vol.clusterBytes_pos]
    omega
  exact lt_of_le_of_lt (Nat.mul_le_mul_left _ (by omega)) inRange

theorem clusterDeviceBlocks_inRange (inRange : InRange vol) : vol.clusterDeviceBlocks = vol.clusterBlocks := by
  rw [vol.clusterDeviceBlocks_eq]
  apply Nat.mod_eq_of_lt
  exact lt_of_le_of_lt (Nat.le_mul_of_pos_right _ (Nat.succ_pos _)) inRange

variable (disk) in
theorem readRun_disk (inRange : InRange vol) (short : (clusters - 1) * vol.clusterBytes < USB_MAX_READ_BYTES)
    (copied start : Nat) (loading : Loading Unit) :
    (readRun (disk.msc vol) vol copied start clusters loading).1 = runReadable disk vol start clusters ∧
      (runReadable disk vol start clusters = true →
        (readRun (disk.msc vol) vol copied start clusters loading).2.heap =
          loading.heap.write copied (runBytes disk vol start clusters)) := by
  have blocks := inRange_run inRange short
  have count : vol.clusterDeviceBlocks * clusters % 2 ^ 16 = vol.clusterBlocks * clusters := by
    rw [clusterDeviceBlocks_inRange inRange, Nat.mod_eq_of_lt blocks]
  have length : (loading.heap.slice copied (clusters * vol.clusterBytes)).length = clusters * vol.clusterBytes := by
    rw [Heap.slice, length_map, length_range]
  have sized : (loading.heap.slice copied (clusters * vol.clusterBytes)).length =
      vol.clusterBlocks * clusters * vol.deviceBlockSize := by
    rw [length, vol.clusterBytes_eq, ← Nat.mul_assoc, Nat.mul_comm clusters]
  obtain ⟨after, read, _, bytes⟩ := disk_read disk (vol.firstLba_lt start) blocks sized loading.bus.device
  unfold readRun
  dsimp only
  rw [count, read]
  refine ⟨rfl, fun readable => ?_⟩
  dsimp only
  rw [bytes readable, length, runBytes]

theorem clustersFor_run {bytes : Nat} (positive : 0 < clusters)
    (needed : (clusters - 1) * vol.clusterBytes < bytes) :
    clustersFor vol bytes = clusters + clustersFor vol (bytes - clusters * vol.clusterBytes) := by
  have unit := vol.clusterBytes_pos
  have split : clusters * vol.clusterBytes = (clusters - 1) * vol.clusterBytes + vol.clusterBytes := by
    rw [← Nat.succ_mul, Nat.succ_eq_add_one, Nat.sub_add_cancel positive]
  unfold clustersFor
  by_cases further : clusters * vol.clusterBytes ≤ bytes
  · have parts : bytes + (vol.clusterBytes - 1) =
        vol.clusterBytes * clusters + (bytes - clusters * vol.clusterBytes + (vol.clusterBytes - 1)) := by
      rw [Nat.mul_comm]
      omega
    rw [parts, Nat.mul_add_div unit]
  · have rest : (bytes - clusters * vol.clusterBytes + (vol.clusterBytes - 1)) / vol.clusterBytes = 0 :=
      Nat.div_eq_of_lt (by omega)
    rw [rest, Nat.add_zero]
    apply Nat.div_eq_of_lt_le
    · omega
    · rw [Nat.succ_mul]
      omega

theorem clustersFor_eq_zero {bytes : Nat} : clustersFor vol bytes = 0 ↔ bytes = 0 := by
  have unit := vol.clusterBytes_pos
  rw [clustersFor, Nat.div_eq_zero_iff_lt unit]
  omega

variable {file : Fat32File}

theorem obtained_isSome (result : Option Bool × Loading Unit) : (obtained file result).isSome ↔ result.1 = some true := by
  unfold obtained
  split
  next loaded => exact iff_of_true rfl loaded
  next other => exact iff_of_false nofun other

theorem obtained_failed (loading : Loading Unit) : obtained file (some false, loading) = none := if_neg nofun

theorem run_slice (heap : Heap) {total : Nat} (bytes : List UInt8)
    (enough : copied + clusters * vol.clusterBytes ≤ total) :
    (heap.write copied (runBytes disk vol start clusters)).slice 0 (copied + clusters * vol.clusterBytes) ++
        bytes.take (total - (copied + clusters * vol.clusterBytes)) =
      heap.slice 0 copied ++ (runBytes disk vol start clusters ++ bytes).take (total - copied) := by
  have length : (runBytes disk vol start clusters).length = clusters * vol.clusterBytes := runBytes_length start clusters
  have whole : (runBytes disk vol start clusters).take (clusters * vol.clusterBytes) = runBytes disk vol start clusters :=
    take_of_length_le (Nat.le_of_eq length)
  have covered : (runBytes disk vol start clusters).take (total - copied) = runBytes disk vol start clusters :=
    take_of_length_le (by omega)
  rw [write_slice heap (Nat.le_add_right _ _) (by rw [length]), Nat.add_sub_cancel_left, whole, append_assoc,
    take_append, covered, length, Nat.sub_sub]

theorem ingestLoop_plain (inRange : InRange vol) (runs : RunsAgree disk vol behind) {cluster : Nat}
    (loading : Loading Unit) (bounced : Bounced vol behind loading.bus) (more : copied < file.size) :
    obtained file (ingestLoop (disk.msc vol) vol file cluster copied loading) =
      (plainWalk disk vol behind (clustersFor vol (file.size - copied)) cluster).map fun bytes =>
        loading.heap.slice 0 copied ++ bytes.take (file.size - copied) := by
  induction missing : file.size - copied using Nat.strong_induction_on generalizing cluster copied loading with
  | _ left ih =>
    subst missing
    by_cases data : IsData cluster
    · classical
      obtain ⟨clusters, absorbed, _, turns⟩ := ingestLoop_disk disk file loading bounced more data
      have needed := absorbed.needed
      have agree := runs cluster clusters data absorbed.positive absorbed.short absorbed.linked
      rw [clustersFor_run absorbed.positive (by omega), plainWalk_run _ absorbed.positive absorbed.linked]
      obtain ⟨panicked, turn⟩ | ⟨next, bus, entry, kept, turn⟩ := turns
      · rw [panicked] at agree
        rw [turn, if_neg (fun each => absurd (agree.mpr each).1 nofun)]
        rfl
      · obtain ⟨ok, heap⟩ := readRun_disk disk inRange absorbed.short copied cluster { loading with bus }
        rw [entry] at agree
        rw [turn, entry]
        unfold resume
        by_cases readable : runReadable disk vol cluster clusters = true
        · have heap := heap readable
          rw [if_pos (agree.mp ⟨rfl, readable⟩), if_pos (ok.trans readable), Option.map_map]
          by_cases further : copied + clusters * vol.clusterBytes < file.size
          · have nonzero : clustersFor vol (file.size - copied - clusters * vol.clusterBytes) ≠ 0 := by
              rw [Ne, clustersFor_eq_zero]
              omega
            rw [if_pos further]
            cases next with
            | none =>
              rw [follow_failed nonzero]
              exact obtained_failed _
            | some next =>
              have bytes := Nat.mul_pos absorbed.positive vol.clusterBytes_pos
              rw [follow_next next nonzero, ih _ (by omega) _ (readRun_bounced kept) further rfl, heap, Nat.sub_sub]
              congr 1
              funext bytes
              exact run_slice loading.heap bytes (Nat.le_of_lt further)
          · have zero : clustersFor vol (file.size - copied - clusters * vol.clusterBytes) = 0 := by
              rw [clustersFor_eq_zero]
              omega
            rw [if_neg further, zero, obtained, if_pos rfl, heap]
            congr 1
            rw [write_slice _ (Nat.le_of_lt more) (by rw [runBytes_length]; omega), Function.comp_apply, List.append_nil]
        · rw [if_neg (fun each => readable (agree.mpr each).2), if_neg (fun passed => readable (ok.symm.trans passed))]
          exact obtained_failed _
    · have nonzero : clustersFor vol (file.size - copied) ≠ 0 := by
        rw [Ne, clustersFor_eq_zero]
        omega
      obtain ⟨count, some⟩ := Nat.exists_eq_succ_of_ne_zero nonzero
      rw [ingestLoop_done (fun again => data again.2), some, plainWalk, if_neg (fun first => data first.1),
        decide_eq_false (Nat.not_le.mpr more)]
      exact obtained_failed _

theorem ingestFile_plain (inRange : InRange vol) (runs : RunsAgree disk vol behind) (file : Fat32File) (heap : Heap)
    {bus : Bus Unit} (bounced : Bounced vol behind bus) :
    obtained file (ingestFile (disk.msc vol) vol file bus heap) = plainFile disk vol behind file := by
  rw [ingestFile, ingestLoop_plain inRange runs ⟨bus, heap, []⟩ bounced file.sizePositive]
  rfl

def runFile (vol : Fat32Volume) {start clusters : Nat} (data : IsData start) (positive : 0 < clusters)
    (short : (clusters - 1) * vol.clusterBytes < USB_MAX_READ_BYTES) : Fat32File where
  firstCluster := start
  size := clusters * vol.clusterBytes
  clusterData := data.1
  clusterSmall := lt_trans data.2 (by decide)
  sizePositive := Nat.mul_pos positive vol.clusterBytes_pos
  sizeSmall := by
    have bytes : clusters * vol.clusterBytes = (clusters - 1) * vol.clusterBytes + vol.clusterBytes := by
      rw [← Nat.succ_mul, Nat.succ_eq_add_one, Nat.sub_add_cancel positive]
    have small := vol.clusterBytes_lt
    have limit : USB_MAX_READ_BYTES = 4194304 := rfl
    omega

theorem run_agrees (inRange : InRange vol) (data : IsData start) (positive : 0 < clusters)
    (short : (clusters - 1) * vol.clusterBytes < USB_MAX_READ_BYTES)
    (linked : Linked (disk.fatEntry vol behind) start clusters) {bus : Bus Unit}
    (bounced : Bounced vol behind bus) (agrees : obtained (runFile vol data positive short)
        (ingestFile (disk.msc vol) vol (runFile vol data positive short) bus fun _ => 0) =
      plainFile disk vol behind (runFile vol data positive short)) :
    (disk.fatEntry vol behind (start + (clusters - 1))).isSome ∧ runReadable disk vol start clusters ↔
      EachReadable disk vol start clusters := by
  have needed : (clusters - 1) * vol.clusterBytes < clusters * vol.clusterBytes :=
    Nat.mul_lt_mul_of_pos_right (Nat.sub_lt positive Nat.one_pos) vol.clusterBytes_pos
  have absorbed : Absorbed vol (runFile vol data positive short) (disk.fatEntry vol behind) 0 start clusters :=
    ⟨positive, linked, short, by rwa [Nat.zero_add]⟩
  have walk : (plainFile disk vol behind (runFile vol data positive short)).isSome ↔
      EachReadable disk vol start clusters := by
    classical
    change (Option.map _ (plainWalk disk vol behind (clustersFor vol (clusters * vol.clusterBytes)) start)).isSome ↔ _
    rw [clustersFor_run positive needed, Nat.sub_self, clustersFor_eq_zero.mpr rfl, plainWalk_run 0 positive linked,
      follow_zero]
    by_cases each : EachReadable disk vol start clusters
    · rw [if_pos each]
      exact iff_of_true rfl each
    · rw [if_neg each]
      exact iff_of_false nofun each
  rw [← walk, ← agrees]
  obtain ⟨panicked, turn⟩ | ⟨next, after, entry, turn⟩ :=
    ingestFile_run disk (fun _ => 0) bounced data absorbed (Nat.le_refl _)
  · change disk.fatEntry vol behind (start + (clusters - 1)) = none at panicked
    rw [panicked, turn]
    exact iff_of_false (fun both => absurd both.1 nofun) nofun
  · change disk.fatEntry vol behind (start + (clusters - 1)) = some next at entry
    have ok := (readRun_disk disk inRange short 0 start ⟨after, fun _ => 0, []⟩).1
    rw [entry, turn, obtained_isSome, ← ok, Option.some_inj]
    exact and_iff_right rfl

end Runs

/-- Loop and plain walk agree exactly when each merged run can be read as its clusters can. -/
theorem ingest_plain_iff {vol : Fat32Volume} (inRange : InRange vol) (disk : Disk) {bounce : List UInt8}
    (sized : bounce.length = BOUNCE_BYTES) :
    (∀ file heap, obtained file (ingestFile (disk.msc vol) vol file ⟨(), bounce⟩ heap) =
        plainFile disk vol (bounce.drop vol.bytesPerSector) file) ↔
      RunsAgree disk vol (bounce.drop vol.bytesPerSector) := by
  constructor
  · intro agrees start clusters data positive short linked
    exact run_agrees inRange data positive short linked ⟨sized, rfl⟩ (agrees _ _)
  · intro runs file heap
    exact ingestFile_plain inRange runs file heap ⟨sized, rfl⟩

theorem fatOffset_inside {vol : Fat32Volume} (fits : vol.bytesPerSector ≤ BOUNCE_BYTES) (aligned : vol.bytesPerSector ≠ 4095)
    (cluster : Nat) : (vol.fatLbaForCluster cluster).2 + 4 ≤ BOUNCE_BYTES := by
  change cluster * 4 % 2 ^ 32 % vol.bytesPerSector + 4 ≤ 4096
  have small := Nat.mod_lt (cluster * 4 % 2 ^ 32) vol.sectorPositive
  by_cases even : vol.bytesPerSector = 4094 ∨ vol.bytesPerSector = 4096
  · rcases even with even | even
    all_goals
      rw [even]
      omega
  · change vol.bytesPerSector ≤ 4096 at fits
    omega

def narrowBoot : List UInt8 :=
  replicate 11 0 ++ [0x00, 0x02, 1, 32, 0, 2] ++ replicate 19 0 ++ leBytes 4 0x200000 ++ replicate 4 0 ++
    leBytes 4 2 ++ replicate 34 0 ++ ascii "FAT32   " ++ replicate 420 0 ++ [0x55, 0xaa]

theorem narrowBoot_accepted : ∃ vol, parseFat32Volume 2048 512 narrowBoot = some vol ∧
    vol.bytesPerSector = 512 ∧ vol.sectorsPerCluster = 1 ∧ vol.deviceBlocksPerFsSector = 1 := by
  unfold parseFat32Volume
  rw [if_neg (by decide +kernel)]
  rw [dif_neg (by decide +kernel)]
  exact ⟨_, rfl, by decide +kernel, by decide +kernel, by decide +kernel⟩

theorem ingest_plain_iff_narrow : ∃ vol, parseFat32Volume 2048 512 narrowBoot = some vol ∧
    ((∀ file heap, obtained file (ingestFile ((Disk.mk (fun _ _ => 0) Faults.none).msc vol) vol file
        ⟨(), replicate BOUNCE_BYTES 0⟩ heap) =
          plainFile ⟨fun _ _ => 0, Faults.none⟩ vol ((replicate BOUNCE_BYTES 0).drop vol.bytesPerSector) file) ↔
      RunsAgree ⟨fun _ _ => 0, Faults.none⟩ vol ((replicate BOUNCE_BYTES 0).drop vol.bytesPerSector)) := by
  obtain ⟨vol, parsed, sector, perCluster, blocks⟩ := narrowBoot_accepted
  have inRange : InRange vol := by
    rw [InRange, Fat32Volume.clusterBlocks, Fat32Volume.clusterBytes, sector, perCluster, blocks]
    decide
  exact ⟨vol, parsed, ingest_plain_iff inRange ⟨fun _ _ => 0, Faults.none⟩ length_replicate⟩

def lastEntry : List UInt8 :=
  ascii "GGML    GGU" ++ [0x20] ++ replicate 8 0 ++ leBytes 2 0x0fff ++ replicate 4 0 ++ leBytes 2 0xfff7 ++
    leBytes 4 1024

theorem lastEntry_accepted : ∃ file, fat32FileFromEntry lastEntry = some file ∧
    file.firstCluster = 0x0ffffff7 ∧ file.size = 1024 := by
  exact ⟨_, rfl, by decide +kernel, by decide +kernel⟩

def lastFat : List UInt8 :=
  replicate 476 0 ++ leBytes 4 0x0ffffff8 ++ leBytes 4 0x0fffffff ++ replicate 28 0

def lastDisk (vol : Fat32Volume) : Disk := ⟨plant vol (vol.fatLbaForCluster 0x0ffffff7).1 lastFat, Faults.none⟩

theorem lastDisk_entries {vol : Fat32Volume} (sector : vol.bytesPerSector = 512) (behind : List UInt8) :
    (lastDisk vol).fatEntry vol behind 0x0ffffff7 = some (some 0x0ffffff8) ∧
      (lastDisk vol).fatEntry vol behind 0x0ffffff8 = some (some 0x0fffffff) := by
  have fits : vol.bytesPerSector ≤ BOUNCE_BYTES := by
    rw [sector]
    decide
  have length : lastFat.length = vol.bytesPerSector := by
    rw [sector]
    decide +kernel
  have place (cluster offset : Nat) (same : cluster * 4 % 2 ^ 32 / 512 = 0x0ffffff7 * 4 % 2 ^ 32 / 512)
      (far : cluster * 4 % 2 ^ 32 % 512 = offset) :
      vol.fatLbaForCluster cluster = ((vol.fatLbaForCluster 0x0ffffff7).1, offset) := by
    unfold Fat32Volume.fatLbaForCluster
    dsimp only
    rw [sector, same, far]
  have first := fatEntry_within (place 0x0ffffff7 476 (by decide) (by decide)) behind length fits (by rw [sector]; decide)
  have second := fatEntry_within (place 0x0ffffff8 480 (by decide) (by decide)) behind length fits (by rw [sector]; decide)
  refine ⟨first.trans ?_, second.trans ?_⟩
  · decide +kernel
  · decide +kernel

theorem end_mark_absorbed :
    ∃ vol file, parseFat32Volume 2048 512 narrowBoot = some vol ∧ fat32FileFromEntry lastEntry = some file ∧
      (ingestFile ((lastDisk vol).msc vol) vol file ⟨(), replicate BOUNCE_BYTES 0⟩ fun _ => 0).1 = some true ∧
      plainFile (lastDisk vol) vol ((replicate BOUNCE_BYTES 0).drop vol.bytesPerSector) file = none := by
  obtain ⟨vol, parsed, sector, perCluster, _⟩ := narrowBoot_accepted
  obtain ⟨file, listed, first, size⟩ := lastEntry_accepted
  refine ⟨vol, file, parsed, listed, ?_⟩
  have bytes : vol.clusterBytes = 512 := by rw [Fat32Volume.clusterBytes, sector, perCluster]
  have bounced : Bounced vol ((replicate BOUNCE_BYTES 0).drop vol.bytesPerSector) ⟨(), replicate BOUNCE_BYTES 0⟩ :=
    ⟨length_replicate, rfl⟩
  generalize (replicate BOUNCE_BYTES (0 : UInt8)).drop vol.bytesPerSector = behind at bounced
  obtain ⟨last, mark⟩ := lastDisk_entries sector behind
  have data : IsData file.firstCluster := by
    rw [first]
    decide
  constructor
  · have two : Absorbed vol file ((lastDisk vol).fatEntry vol behind) 0 file.firstCluster 2 := by
      constructor
      · decide
      · intro further inside
        have zero : further = 0 := by omega
        rw [first, zero]
        exact last
      · rw [bytes]
        decide
      · rw [bytes, size]
        decide
    obtain ⟨panicked, _⟩ | ⟨_, _, _, turn⟩ :=
      ingestFile_run (lastDisk vol) (fun _ => 0) bounced data two (by rw [bytes, size])
    · rw [first] at panicked
      cases mark.symm.trans panicked
    · rw [turn, readRun_ok]
      exact congrArg some (none_readable _ _)
  · have count : clustersFor vol file.size = 2 := by rw [clustersFor, bytes, size]
    have walk : plainWalk (lastDisk vol) vol behind 1 0x0ffffff8 = none := by
      rw [plainWalk, if_neg (fun both => absurd both.1 (by decide))]
    rw [plainFile, count, plainWalk, first, last, follow_next _ Nat.one_ne_zero, walk, map_none, ite_self, map_none]

end HermitLocal.Usb.PlainWalk
