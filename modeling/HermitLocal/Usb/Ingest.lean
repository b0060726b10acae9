import HermitLocal.Lib.Align
import HermitLocal.Usb.Fat32

/-! The ingestion of a FAT32 file into the heap: consecutive clusters of its chain are merged
into runs, and each run is read into the buffer by one call. The reads go through
slices made from the address of the buffer, so nothing but the arithmetic keeps them inside it. -/

namespace HermitLocal.Usb.Ingest
open Lib.Align Lib.Wire Usb.ReadSectors Usb.Fat32 List

def MIB : Nat := 1024 * 1024

def USB_MAX_READ_BYTES : Nat := 4 * MIB

def IsData (cluster : Nat) : Prop := 2 ≤ cluster ∧ cluster < 0x0ffffff8

instance (cluster : Nat) : Decidable (IsData cluster) := inferInstanceAs (Decidable (_ ∧ _))

abbrev Heap := Nat → UInt8

def Heap.slice (heap : Heap) (start length : Nat) : List UInt8 := (range length).map fun i => heap (start + i)

def Heap.write (heap : Heap) (start : Nat) (bytes : List UInt8) : Heap := fun address =>
  if start ≤ address ∧ address < start + bytes.length then bytes.getD (address - start) 0 else heap address

structure Run where
  cluster : Nat
  clusters : Nat
  next : Option Nat
  positive : 0 < clusters

structure Loading (δ : Type) where
  bus : Bus δ
  heap : Heap
  slices : List (Nat × Nat)

section Loop
variable {δ : Type} (msc : Msc δ) (vol : Fat32Volume) (file : Fat32File)

def absorb (copied : Nat) (run : Run) (bus : Bus δ) : Option (Run × Bus δ) :=
  if run.clusters * vol.clusterBytes < USB_MAX_READ_BYTES then
    match run.next with
    | some next =>
        if next = run.cluster + 1 ∧ copied + run.clusters * vol.clusterBytes < file.size then
          match readFatEntry msc vol next bus with
          | none => none
          | some (entry, after) => absorb copied ⟨next, run.clusters + 1, entry, Nat.succ_pos _⟩ after
        else some (run, bus)
    | none => some (run, bus)
  else some (run, bus)
termination_by USB_MAX_READ_BYTES - run.clusters * vol.clusterBytes
decreasing_by
  have positive := vol.clusterBytes_pos
  rw [Nat.succ_mul]
  omega

def scanRun (copied cluster : Nat) (bus : Bus δ) : Option (Run × Bus δ) :=
  match readFatEntry msc vol cluster bus with
  | none => none
  | some (next, after) => absorb msc vol file copied ⟨cluster, 1, next, Nat.one_pos⟩ after

def readRun (copied start clusters : Nat) (loading : Loading δ) : Bool × Loading δ :=
  let runBytes := clusters * vol.clusterBytes
  let reading := readDeviceSectors msc (vol.firstDeviceLbaOfCluster start)
    (vol.clusterDeviceBlocks * clusters % 2 ^ 16) (loading.heap.slice copied runBytes) loading.bus.device
  (reading.ok, ⟨⟨reading.state, loading.bus.sectorBuf⟩, loading.heap.write copied reading.buf,
    loading.slices ++ [(copied, runBytes)]⟩)

def ingestLoop (cluster copied : Nat) (loading : Loading δ) : Option Bool × Loading δ :=
  if copied < file.size ∧ IsData cluster then
    match scanRun msc vol file copied cluster loading.bus with
    | none => (none, loading)
    | some (run, bus) =>
        let read := readRun msc vol copied cluster run.clusters { loading with bus }
        if read.1 then
          let copied' := min (copied + run.clusters * vol.clusterBytes) file.size
          if copied' < file.size then
            match run.next with
            | some next => ingestLoop next copied' read.2
            | none => (some (decide (file.size ≤ copied')), read.2)
          else ingestLoop run.cluster copied' read.2
        else (some (decide (file.size ≤ copied)), read.2)
  else (some (decide (file.size ≤ copied)), loading)
termination_by file.size - copied
decreasing_by
  all_goals
    have bytes := Nat.mul_pos run.positive vol.clusterBytes_pos
    omega

def resume (copied : Nat) (next : Option Nat) (read : Bool × Loading δ) : Option Bool × Loading δ :=
  if read.1 then
    if copied < file.size then
      match next with
      | some cluster => ingestLoop msc vol file cluster copied read.2
      | none => (some false, read.2)
    else (some true, read.2)
  else (some false, read.2)

def ingestFile (bus : Bus δ) (heap : Heap) : Option Bool × Loading δ :=
  ingestLoop msc vol file file.firstCluster 0 ⟨bus, heap, []⟩

end Loop

variable {run : Run} {copied cluster start : Nat} {vol : Fat32Volume} {file : Fat32File}

section Step
variable {δ : Type} {msc : Msc δ} {vol : Fat32Volume} {file : Fat32File} {cluster copied : Nat} {loading : Loading δ}

theorem ingestLoop_done (done : ¬(copied < file.size ∧ IsData cluster)) :
    ingestLoop msc vol file cluster copied loading = (some (decide (file.size ≤ copied)), loading) := by
  rw [ingestLoop, if_neg done]

theorem ingestLoop_panic (more : copied < file.size) (data : IsData cluster)
    (panicked : scanRun msc vol file copied cluster loading.bus = none) :
    ingestLoop msc vol file cluster copied loading = (none, loading) := by
  rw [ingestLoop, if_pos ⟨more, data⟩, panicked]

variable {bus : Bus δ}

theorem ingestLoop_run (more : copied < file.size) (data : IsData cluster)
    (scanned : scanRun msc vol file copied cluster loading.bus = some (run, bus)) :
    ingestLoop msc vol file cluster copied loading =
      resume msc vol file (copied + run.clusters * vol.clusterBytes) run.next
        (readRun msc vol copied cluster run.clusters { loading with bus }) := by
  rw [ingestLoop, if_pos ⟨more, data⟩, scanned]
  unfold resume
  dsimp only
  split
  · by_cases further : copied + run.clusters * vol.clusterBytes < file.size
    · rw [Nat.min_eq_left (Nat.le_of_lt further), if_pos further, if_pos further]
      cases run.next with
      | some next => rfl
      | none =>
        rw [decide_eq_false (Nat.not_le.mpr further)]
    · rw [Nat.min_eq_right (Nat.not_lt.mp further), if_neg (Nat.lt_irrefl _), if_neg further,
        ingestLoop_done (fun again => Nat.lt_irrefl _ again.1), decide_eq_true (Nat.le_refl _)]
  · rw [decide_eq_false (Nat.not_le.mpr more)]

end Step

def modelAllocSize (file : Fat32File) : Nat := alignUp file.size USB_MAX_READ_BYTES

def WithinAllocation (vol : Fat32Volume) (file : Fat32File) : Prop :=
  ∀ (δ : Type) (msc : Msc δ) (bus : Bus δ) (heap : Heap), bus.sectorBuf.length = BOUNCE_BYTES →
    ∀ slice ∈ (ingestFile msc vol file bus heap).2.slices, slice.1 + slice.2 ≤ modelAllocSize file

section Slices
variable {δ : Type} {msc : Msc δ} {vol : Fat32Volume} {file : Fat32File}

theorem absorb_needed {result : Run × Bus δ} (absorbed : absorb msc vol file copied run bus = some result)
    (needed : copied + (run.clusters - 1) * vol.clusterBytes < file.size) :
    copied + (result.1.clusters - 1) * vol.clusterBytes < file.size := by
  fun_induction absorb msc vol file copied run bus with
  | case1 => cases absorbed
  | case2 run bus few next linked extend entry after read ih =>
    apply ih absorbed
    exact extend.2
  | case3 => cases absorbed; exact needed
  | case4 => cases absorbed; exact needed
  | case5 => cases absorbed; exact needed

theorem scanRun_needed {result : Run × Bus δ}
    (scanned : scanRun msc vol file copied cluster bus = some result) (more : copied < file.size) :
    copied + (result.1.clusters - 1) * vol.clusterBytes < file.size := by
  unfold scanRun at scanned
  split at scanned
  · cases scanned
  · apply absorb_needed scanned
    rw [Nat.sub_self, Nat.zero_mul]
    exact more

theorem readRun_slices {loading : Loading δ} (whole : vol.clusterBytes ∣ copied)
    (needed : copied + (run.clusters - 1) * vol.clusterBytes < file.size)
    (inside : ∀ slice ∈ loading.slices, slice.1 + slice.2 ≤ alignUp file.size vol.clusterBytes) :
    ∀ slice ∈ (readRun msc vol copied start run.clusters loading).2.slices,
      slice.1 + slice.2 ≤ alignUp file.size vol.clusterBytes := by
  intro slice handed
  rcases mem_append.mp handed with earlier | last
  · exact inside slice earlier
  · rw [mem_singleton.mp last]
    apply le_alignUp_of_dvd vol.clusterBytes_pos
    · exact Nat.dvd_add whole (Nat.dvd_mul_left _ _)
    · have split : run.clusters * vol.clusterBytes = (run.clusters - 1) * vol.clusterBytes + vol.clusterBytes := by
        rw [← Nat.succ_mul, Nat.succ_eq_add_one, Nat.sub_add_cancel run.positive]
      omega

theorem ingestLoop_slices {loading : Loading δ} (whole : copied < file.size → vol.clusterBytes ∣ copied)
    (inside : ∀ slice ∈ loading.slices, slice.1 + slice.2 ≤ alignUp file.size vol.clusterBytes) :
    ∀ slice ∈ (ingestLoop msc vol file cluster copied loading).2.slices,
      slice.1 + slice.2 ≤ alignUp file.size vol.clusterBytes := by
  fun_induction ingestLoop msc vol file cluster copied loading with
  | case1 => exact inside
  | case2 cluster copied loading more run bus scanned read passed copied' further next linked ih =>
    apply ih
    · intro _
      have all : copied' = copied + run.clusters * vol.clusterBytes := by omega
      rw [all]
      exact Nat.dvd_add (whole more.1) (Nat.dvd_mul_left _ _)
    · exact readRun_slices (whole more.1) (scanRun_needed scanned more.1) inside
  | case3 cluster copied loading more run bus scanned read =>
    exact readRun_slices (whole more.1) (scanRun_needed scanned more.1) inside
  | case4 cluster copied loading more run bus scanned read passed copied' done ih =>
    apply ih
    · exact fun further => absurd further done
    · exact readRun_slices (whole more.1) (scanRun_needed scanned more.1) inside
  | case5 cluster copied loading more run bus scanned read =>
    exact readRun_slices (whole more.1) (scanRun_needed scanned more.1) inside
  | case6 => exact inside

end Slices

/-! The loop over a device whose failures depend on nothing but the blocks requested. -/

def Linked (fat : Nat → Option (Option Nat)) (start clusters : Nat) : Prop :=
  ∀ further, further + 1 < clusters → fat (start + further) = some (some (start + further + 1))

structure Absorbed (vol : Fat32Volume) (file : Fat32File) (fat : Nat → Option (Option Nat)) (copied start clusters : Nat) :
    Prop where
  positive : 0 < clusters
  linked : Linked fat start clusters
  short : (clusters - 1) * vol.clusterBytes < USB_MAX_READ_BYTES
  needed : copied + (clusters - 1) * vol.clusterBytes < file.size

def Complete (vol : Fat32Volume) (file : Fat32File) (copied start clusters : Nat) (next : Option Nat) : Prop :=
  USB_MAX_READ_BYTES ≤ clusters * vol.clusterBytes ∨ next ≠ some (start + clusters) ∨
    file.size ≤ copied + clusters * vol.clusterBytes

section Disk
variable {disk : Disk} {vol : Fat32Volume} {file : Fat32File} {behind : List UInt8}

def Ends (disk : Disk) (vol : Fat32Volume) (file : Fat32File) (behind : List UInt8) (copied start clusters : Nat) :
    Option (Run × Bus Unit) → Prop
  | none => disk.fatEntry vol behind (start + (clusters - 1)) = none
  | some (run, bus) => disk.fatEntry vol behind (start + (clusters - 1)) = some run.next ∧ Bounced vol behind bus ∧
      run.cluster = start + (clusters - 1) ∧ run.clusters = clusters ∧
      Complete vol file copied start clusters run.next

variable {clusters : Nat} {bus : Bus Unit}

theorem Absorbed.extend {fat : Nat → Option (Option Nat)}
    (absorbed : Absorbed vol file fat copied start clusters)
    (entry : fat (start + (clusters - 1)) = some (some (start + clusters)))
    (few : clusters * vol.clusterBytes < USB_MAX_READ_BYTES)
    (more : copied + clusters * vol.clusterBytes < file.size) :
    Absorbed vol file fat copied start (clusters + 1) := by
  constructor
  · exact Nat.succ_pos _
  · intro further inside
    by_cases last : further = clusters - 1
    · have positive := absorbed.positive
      rw [last, entry, Nat.add_assoc, Nat.sub_add_cancel positive]
    · exact absorbed.linked further (by omega)
  · exact few
  · exact more

theorem Run.following (run : Run) (last : run.cluster = start + (run.clusters - 1)) :
    run.cluster + 1 = start + run.clusters := by
  have positive := run.positive
  omega

section
variable (bounced : Bounced vol behind bus) (absorbed : Absorbed vol file (disk.fatEntry vol behind) copied start run.clusters)
  (last : run.cluster = start + (run.clusters - 1)) (entry : disk.fatEntry vol behind run.cluster = some run.next)

include bounced absorbed last entry

theorem ends_complete (complete : Complete vol file copied start run.clusters run.next) :
    ∃ clusters, Absorbed vol file (disk.fatEntry vol behind) copied start clusters ∧
      Ends disk vol file behind copied start clusters (some (run, bus)) :=
  ⟨run.clusters, absorbed, last ▸ entry, bounced, last, rfl, complete⟩

theorem absorb_disk : ∃ clusters, Absorbed vol file (disk.fatEntry vol behind) copied start clusters ∧
      Ends disk vol file behind copied start clusters (absorb (disk.msc vol) vol file copied run bus) := by
  fun_induction absorb (disk.msc vol) vol file copied run bus with
  | case1 run bus few next linked extend panicked =>
    have next_eq : next = start + run.clusters := extend.1.trans (run.following last)
    refine ⟨run.clusters + 1, absorbed.extend ?_ few extend.2, ?_⟩
    · rw [← last, entry, linked, next_eq]
    · obtain ⟨after, _, read⟩ := readFatEntry_disk disk next bounced
      rw [read, Option.map_eq_none_iff, next_eq] at panicked
      exact panicked
  | case2 run bus few next linked extend found after read ih =>
    have next_eq : next = start + run.clusters := extend.1.trans (run.following last)
    obtain ⟨other, kept, same⟩ := readFatEntry_disk disk next bounced
    rw [same, Option.map_eq_some_iff] at read
    obtain ⟨value, held, pair⟩ := read
    cases pair
    apply ih kept _ next_eq held
    exact absorbed.extend (by rw [← last, entry, linked, next_eq]) few extend.2
  | case3 run bus few next linked other =>
    apply ends_complete bounced absorbed last entry
    rw [linked, Complete, ← run.following last]
    by_cases same : next = run.cluster + 1
    · exact .inr (.inr (by omega))
    · exact .inr (.inl fun equal => same (Option.some.inj equal))
  | case4 run bus few ended =>
    apply ends_complete bounced absorbed last entry
    rw [ended]
    exact .inr (.inl nofun)
  | case5 run bus many =>
    apply ends_complete bounced absorbed last entry
    exact .inl (Nat.not_lt.mp many)

end

theorem scanRun_disk (bounced : Bounced vol behind bus) (more : copied < file.size) :
    ∃ clusters, Absorbed vol file (disk.fatEntry vol behind) copied start clusters ∧
      Ends disk vol file behind copied start clusters (scanRun (disk.msc vol) vol file copied start bus) := by
  have single : Absorbed vol file (disk.fatEntry vol behind) copied start 1 := by
    constructor
    · exact Nat.one_pos
    · exact fun further inside => absurd inside (by omega)
    · rw [Nat.sub_self, Nat.zero_mul]
      decide
    · rw [Nat.sub_self, Nat.zero_mul]
      exact more
  obtain ⟨after, kept, read⟩ := readFatEntry_disk disk start bounced
  unfold scanRun
  rw [read]
  cases entry : disk.fatEntry vol behind start with
  | none => exact ⟨1, single, entry⟩
  | some next => exact absorb_disk kept single rfl entry

theorem ends_clusters {longest : Nat} {result : Option (Run × Bus Unit)}
    (whole : Absorbed vol file (disk.fatEntry vol behind) copied start longest)
    (full : USB_MAX_READ_BYTES ≤ longest * vol.clusterBytes ∨ file.size ≤ copied + longest * vol.clusterBytes)
    (absorbed : Absorbed vol file (disk.fatEntry vol behind) copied start clusters)
    (ends : Ends disk vol file behind copied start clusters result) : clusters = longest := by
  have positive := absorbed.positive
  rcases Nat.lt_trichotomy clusters longest with less | equal | more
  · have bytes : clusters * vol.clusterBytes ≤ (longest - 1) * vol.clusterBytes := Nat.mul_le_mul_right _ (by omega)
    have entry := whole.linked (clusters - 1) (by omega)
    have short := whole.short
    have needed := whole.needed
    cases result with
    | none => exact absurd (entry.symm.trans ends) nofun
    | some pair =>
      obtain ⟨found, _, _, _, many | other | enough⟩ := ends
      · omega
      · rw [entry, Option.some.injEq] at found
        refine absurd ?_ other
        rw [← found, Nat.add_assoc, Nat.sub_add_cancel positive]
      · omega
  · exact equal
  · have bytes : longest * vol.clusterBytes ≤ (clusters - 1) * vol.clusterBytes := Nat.mul_le_mul_right _ (by omega)
    have short := absorbed.short
    have needed := absorbed.needed
    omega

variable (disk file) in
theorem ingestLoop_disk (loading : Loading Unit) (bounced : Bounced vol behind loading.bus)
    (more : copied < file.size) (data : IsData cluster) :
    ∃ clusters, Absorbed vol file (disk.fatEntry vol behind) copied cluster clusters ∧
      (∀ longest, Absorbed vol file (disk.fatEntry vol behind) copied cluster longest →
        USB_MAX_READ_BYTES ≤ longest * vol.clusterBytes ∨ file.size ≤ copied + longest * vol.clusterBytes →
          clusters = longest) ∧
      ((disk.fatEntry vol behind (cluster + (clusters - 1)) = none ∧
          ingestLoop (disk.msc vol) vol file cluster copied loading = (none, loading)) ∨
        ∃ next bus, disk.fatEntry vol behind (cluster + (clusters - 1)) = some next ∧ Bounced vol behind bus ∧
          ingestLoop (disk.msc vol) vol file cluster copied loading =
            resume (disk.msc vol) vol file (copied + clusters * vol.clusterBytes) next
              (readRun (disk.msc vol) vol copied cluster clusters { loading with bus })) := by
  obtain ⟨clusters, absorbed, ends⟩ := scanRun_disk bounced more
  refine ⟨clusters, absorbed, fun longest whole full => ends_clusters whole full absorbed ends, ?_⟩
  cases scanned : scanRun (disk.msc vol) vol file copied cluster loading.bus with
  | none =>
    rw [scanned] at ends
    exact .inl ⟨ends, ingestLoop_panic more data scanned⟩
  | some pair =>
    obtain ⟨run, bus⟩ := pair
    rw [scanned] at ends
    obtain ⟨entry, kept, _, count, _⟩ := ends
    refine .inr ⟨run.next, bus, entry, kept, ?_⟩
    rw [ingestLoop_run more data scanned, count]

variable (disk) in
theorem ingestFile_run (heap : Heap) (bounced : Bounced vol behind bus) (data : IsData file.firstCluster)
    (whole : Absorbed vol file (disk.fatEntry vol behind) 0 file.firstCluster clusters)
    (full : file.size ≤ clusters * vol.clusterBytes) :
    (disk.fatEntry vol behind (file.firstCluster + (clusters - 1)) = none ∧
        ingestFile (disk.msc vol) vol file bus heap = (none, ⟨bus, heap, []⟩)) ∨
      ∃ next after, disk.fatEntry vol behind (file.firstCluster + (clusters - 1)) = some next ∧
        ingestFile (disk.msc vol) vol file bus heap =
          (some (readRun (disk.msc vol) vol 0 file.firstCluster clusters ⟨after, heap, []⟩).1,
            (readRun (disk.msc vol) vol 0 file.firstCluster clusters ⟨after, heap, []⟩).2) := by
  obtain ⟨_, _, unique, turns⟩ := ingestLoop_disk disk file ⟨bus, heap, []⟩ bounced file.sizePositive data
  have full' : file.size ≤ 0 + clusters * vol.clusterBytes := by rwa [Nat.zero_add]
  rw [unique clusters whole (.inr full')] at turns
  obtain panicked | ⟨next, after, entry, _, turn⟩ := turns
  · exact .inl panicked
  · refine .inr ⟨next, after, entry, ?_⟩
    rw [ingestFile, turn]
    unfold resume
    rw [if_neg (Nat.not_lt.mpr full')]
    cases (readRun (disk.msc vol) vol 0 file.firstCluster clusters ⟨after, heap, []⟩).1 with
    | true => rfl
    | false => rfl

theorem readRun_bounced {loading : Loading Unit} (bounced : Bounced vol behind loading.bus) :
    Bounced vol behind (readRun (disk.msc vol) vol copied start clusters loading).2.bus :=
  { bounced with }

variable (disk vol) in
theorem readRun_ok (copied start clusters : Nat) (loading : Loading Unit) :
    (readRun (disk.msc vol) vol copied start clusters loading).1 =
      disk.faults.readable (vol.firstDeviceLbaOfCluster start) (vol.clusterDeviceBlocks * clusters % 2 ^ 16) :=
  failing_ok _ _ _ _

end Disk

theorem cycle_slices {content : Nat → Nat → UInt8} {behind : List UInt8} (data : IsData cluster)
    (cycle : (Disk.mk content Faults.none).fatEntry vol behind cluster = some (some cluster))
    (loading : Loading Unit) (bounced : Bounced vol behind loading.bus) (more : copied < file.size)
    (whole : vol.clusterBytes ∣ copied) :
    ∃ slice ∈ (ingestLoop ((Disk.mk content Faults.none).msc vol) vol file cluster copied loading).2.slices,
      alignUp file.size vol.clusterBytes ≤ slice.1 + slice.2 := by
  induction missing : file.size - copied using Nat.strong_induction_on generalizing copied loading with
  | _ left ih =>
    obtain ⟨clusters, absorbed, _, turns⟩ := ingestLoop_disk ⟨content, Faults.none⟩ file loading bounced more data
    have single : clusters = 1 := by
      by_contra several
      have positive := absorbed.positive
      have linked := absorbed.linked 0 (by omega)
      rw [Nat.add_zero, cycle] at linked
      simp at linked
    rw [single, Nat.add_zero, cycle, Nat.one_mul] at turns
    obtain ⟨panicked, _⟩ | ⟨next, bus, entry, kept, turn⟩ := turns
    · cases panicked
    · cases entry
      have passed := readRun_ok ⟨content, Faults.none⟩ vol copied cluster 1 { loading with bus }
      rw [none_readable] at passed
      have positive := vol.clusterBytes_pos
      have total : vol.clusterBytes ∣ copied + vol.clusterBytes := Nat.dvd_add whole (Nat.dvd_refl _)
      rw [turn, resume, if_pos passed]
      by_cases further : copied + vol.clusterBytes < file.size
      · rw [if_pos further]
        exact ih _ (by omega) _ (readRun_bounced kept) further total rfl
      · rw [if_neg further]
        refine ⟨(copied, 1 * vol.clusterBytes), mem_append_right _ (mem_singleton_self _), ?_⟩
        rw [Nat.one_mul]
        exact alignUp_le_of_dvd positive total (Nat.not_lt.mp further)

theorem no_entry_slices {δ : Type} {msc : Msc δ} {bus : Bus δ} (heap : Heap)
    (missing : ∀ next after, readFatEntry msc vol file.firstCluster bus ≠ some (some next, after)) :
    ∀ slice ∈ (ingestFile msc vol file bus heap).2.slices,
      vol.bytesPerSector ≤ bus.sectorBuf.length ∧ slice = (0, vol.clusterBytes) := by
  rw [ingestFile]
  by_cases data : IsData file.firstCluster
  · cases read : readFatEntry msc vol file.firstCluster bus with
    | none =>
      rw [ingestLoop_panic file.sizePositive data (by rw [scanRun, read])]
      exact nofun
    | some pair =>
      obtain ⟨next, after⟩ := pair
      cases next with
      | some next => exact absurd read (missing next after)
      | none =>
        have single : scanRun msc vol file 0 file.firstCluster bus = some (⟨file.firstCluster, 1, none, Nat.one_pos⟩, after) := by
          rw [scanRun, read]
          dsimp only
          rw [absorb]
          split
          · rfl
          · rfl
        rw [ingestLoop_run file.sizePositive data single, resume]
        intro slice handed
        have only : slice ∈ (readRun msc vol 0 file.firstCluster 1 ⟨after, heap, []⟩).2.slices := by
          split at handed
          · split at handed
            · exact handed
            · exact handed
          · exact handed
        rw [← Nat.one_mul vol.clusterBytes]
        exact ⟨(readFatEntry_fits read).1, mem_singleton.mp only⟩
  · rw [ingestLoop_done (fun again => data again.2)]
    exact nofun

theorem clusterBytes_le_alloc (file : Fat32File) (fits : vol.bytesPerSector ≤ BOUNCE_BYTES) :
    vol.clusterBytes ≤ modelAllocSize file := by
  have small := vol.clusterSmall
  have positive := file.sizePositive
  calc
    vol.clusterBytes ≤ BOUNCE_BYTES * 2 ^ 8 := Nat.mul_le_mul fits (Nat.le_of_lt small)
    _ ≤ USB_MAX_READ_BYTES := by decide
    _ ≤ modelAllocSize file := le_alignUp_of_dvd (by decide) (Nat.dvd_refl _) (by omega)

theorem cycle_plant (data : IsData cluster) (fits : vol.bytesPerSector ≤ BOUNCE_BYTES)
    (inside : (vol.fatLbaForCluster cluster).2 + 4 ≤ BOUNCE_BYTES) :
    ∃ content behind bus, Bounced vol behind bus ∧
      (Disk.mk content Faults.none).fatEntry vol behind cluster = some (some cluster) := by
  generalize place : vol.fatLbaForCluster cluster = pair at inside
  obtain ⟨lba, off⟩ := pair
  let buffer := replicate off 0 ++ leBytes 4 cluster ++ replicate (BOUNCE_BYTES - 4 - off) 0
  have length : buffer.length = BOUNCE_BYTES := by
    simp only [buffer, length_append, length_replicate, leBytes_length]
    omega
  have entry : leU32 buffer off = cluster := by
    have field : (buffer.drop off).take 4 = leBytes 4 cluster := by
      simp only [buffer, append_assoc]
      rw [drop_left' length_replicate, take_left' (leBytes_length 4 cluster)]
    rw [leU32, field, leValue_leBytes]
    exact Nat.mod_eq_of_lt (lt_trans data.2 (by decide))
  have sector : (buffer.take vol.bytesPerSector).length = vol.bytesPerSector := by
    rw [length_take, length, Nat.min_eq_left fits]
  refine ⟨plant vol lba (buffer.take vol.bytesPerSector),
    buffer.drop vol.bytesPerSector, ⟨(), buffer⟩, ⟨length, rfl⟩, ?_⟩
  rw [fatEntry_plant place _ sector fits inside, take_append_drop, entry]
  have masked : cluster &&& 0x0fffffff = cluster % 2 ^ 28 := Nat.and_two_pow_sub_one_eq_mod cluster 28
  rw [masked, Nat.mod_eq_of_lt (lt_trans data.2 (by decide))]

theorem within_allocation (fit : IsData file.firstCluster → vol.bytesPerSector ≤ BOUNCE_BYTES →
      (vol.fatLbaForCluster file.firstCluster).2 + 4 ≤ BOUNCE_BYTES →
        alignUp file.size vol.clusterBytes ≤ modelAllocSize file) : WithinAllocation vol file := by
  intro δ msc bus heap bounced slice handed
  by_cases found : ∃ next after, readFatEntry msc vol file.firstCluster bus = some (some next, after)
  · obtain ⟨next, after, read⟩ := found
    have fits := readFatEntry_fits read
    rw [bounced] at fits
    by_cases data : IsData file.firstCluster
    · have reached := ingestLoop_slices (fun _ => Nat.dvd_zero _) (forall_mem_nil _) slice handed
      exact reached.trans (fit data fits.1 (fits.2 rfl))
    · rw [ingestFile, ingestLoop_done (fun again => data again.2)] at handed
      cases handed
  · have missing (next : Nat) (after : Bus δ) : readFatEntry msc vol file.firstCluster bus ≠ some (some next, after) :=
      fun read => found ⟨next, after, read⟩
    obtain ⟨fits, rfl⟩ := no_entry_slices heap missing slice handed
    rw [bounced] at fits
    rw [Nat.zero_add]
    exact clusterBytes_le_alloc file fits

/-- The clusters of a file end within its allocation, unless the loop reaches none. -/
theorem within_allocation_iff (vol : Fat32Volume) (file : Fat32File) : WithinAllocation vol file ↔
      (IsData file.firstCluster → vol.bytesPerSector ≤ BOUNCE_BYTES →
        (vol.fatLbaForCluster file.firstCluster).2 + 4 ≤ BOUNCE_BYTES →
          alignUp file.size vol.clusterBytes ≤ modelAllocSize file) := by
  constructor
  · intro within data fits inside
    obtain ⟨content, behind, bus, bounced, cycle⟩ := cycle_plant data fits inside
    obtain ⟨slice, handed, reached⟩ :=
      cycle_slices data cycle ⟨bus, fun _ => 0, []⟩ bounced file.sizePositive (Nat.dvd_zero _)
    exact reached.trans (within Unit _ bus _ bounced.length slice handed)
  · exact within_allocation

def wideBoot : List UInt8 :=
  replicate 11 0 ++ [0x00, 0x10, 255, 32, 0, 2] ++ replicate 19 0 ++ leBytes 4 64 ++ replicate 4 0 ++
    leBytes 4 2 ++ replicate 34 0 ++ ascii "FAT32   " ++ replicate 420 0 ++ [0x55, 0xaa]

def wideEntry : List UInt8 :=
  ascii "GGML    GGU" ++ [0x20] ++ replicate 14 0 ++ leBytes 2 3 ++ leBytes 4 0x400000

def wideFat : List UInt8 :=
  replicate 12 0 ++ leBytes 4 4 ++ leBytes 4 5 ++ leBytes 4 6 ++ leBytes 4 7 ++ leBytes 4 0x0fffffff ++
    replicate 4064 0

theorem wideBoot_accepted : ∃ vol, parseFat32Volume 2048 512 wideBoot = some vol ∧
    vol.bytesPerSector = 4096 ∧ vol.sectorsPerCluster = 255 := by
  unfold parseFat32Volume
  rw [if_neg (by decide +kernel)]
  rw [dif_neg (by decide +kernel)]
  exact ⟨_, rfl, by decide +kernel, by decide +kernel⟩

theorem wideEntry_accepted : ∃ file, fat32FileFromEntry wideEntry = some file ∧
    file.firstCluster = 3 ∧ file.size = 4194304 := by
  exact ⟨_, rfl, by decide +kernel, by decide +kernel⟩

theorem wide_clusters_overrun :
    ∃ vol file, parseFat32Volume 2048 512 wideBoot = some vol ∧ fat32FileFromEntry wideEntry = some file ∧
      modelAllocSize file = 4194304 ∧
      (ingestFile ((Disk.mk (plant vol (vol.deviceLbaForFsSector vol.reservedSectors) wideFat) Faults.none).msc vol)
        vol file ⟨(), replicate BOUNCE_BYTES 0⟩ fun _ => 0).2.slices = [(0, 5222400)] := by
  obtain ⟨vol, parsed, sector, perCluster⟩ := wideBoot_accepted
  obtain ⟨file, listed, first, size⟩ := wideEntry_accepted
  refine ⟨vol, file, parsed, listed, by rw [modelAllocSize, size]; decide, ?_⟩
  have bytes : vol.clusterBytes = 1044480 := by rw [Fat32Volume.clusterBytes, sector, perCluster]
  have length : wideFat.length = vol.bytesPerSector := by
    rw [sector]
    decide +kernel
  generalize diskIs : Disk.mk (plant vol (vol.deviceLbaForFsSector vol.reservedSectors) wideFat) Faults.none = disk
  have entries (cluster : Nat) (low : cluster < 8) :
      disk.fatEntry vol [] cluster = some (some (leU32 wideFat (cluster * 4) &&& 0x0fffffff)) := by
    rw [← diskIs, fatEntry_within (fatLba_first (by omega)) [] length (by rw [sector]; decide) (by omega)]
  have five : Absorbed vol file (disk.fatEntry vol []) 0 file.firstCluster 5 := by
    constructor
    · decide
    · intro further inside
      rw [first, entries _ (by omega)]
      have cases : further = 0 ∨ further = 1 ∨ further = 2 ∨ further = 3 := by omega
      rcases cases with rfl | rfl | rfl | rfl
      all_goals decide +kernel
    · rw [bytes]
      decide
    · rw [bytes, size]
      decide
  have bounced : Bounced vol [] ⟨(), replicate BOUNCE_BYTES 0⟩ := by
    constructor
    · exact length_replicate
    · rw [sector]
      exact drop_replicate
  have data : IsData file.firstCluster := by
    rw [first]
    decide
  obtain ⟨panicked, _⟩ | ⟨next, after, _, turn⟩ :=
    ingestFile_run disk (fun _ => 0) bounced data five (by rw [bytes, size]; decide)
  · rw [first, entries _ (by decide)] at panicked
    cases panicked
  · rw [turn]
    change [(0, 5 * vol.clusterBytes)] = _
    rw [bytes]

end HermitLocal.Usb.Ingest
