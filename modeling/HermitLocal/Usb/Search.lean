import HermitLocal.Usb.PlainWalk

/-! The search for a GGUF file in the directories of a FAT32 volume, and the same search told by
what the directories list. -/

namespace HermitLocal.Usb.Search
open Lib.Wire Usb.ReadSectors Usb.Fat32 Usb.Ingest Usb.PlainWalk List Option

inductive Reason where
  | preferred
  | firstGguf
  | largest
  deriving DecidableEq

structure Found where
  file : Fat32File
  reason : Reason

structure Scan where
  firstGgufFile : Option Fat32File
  largestFile : Option Fat32File
  subdirs : List Nat

inductive Scanned where
  | found (file : Fat32File)
  | ended (scan : Scan)
  | more (pendingLfnIsGguf : Bool) (scan : Scan)

def keepFirst (first : Option Fat32File) (file : Fat32File) (isGguf : Bool) : Option Fat32File :=
  if isGguf && first.isNone then some file else first

def keepLargest (largest : Option Fat32File) (file : Fat32File) : Option Fat32File :=
  if 1024 * 1024 * 1024 < file.size ∧ (largest.all fun current => current.size < file.size) then some file else largest

def pushSubdir (depth : Nat) (subdirs : List Nat) (entry : List UInt8) : List Nat :=
  if depth < 4 ∧ subdirs.length < 16 then
    match fat32DirectoryFromEntry entry with
    | some dirCluster => subdirs ++ [dirCluster]
    | none => subdirs
  else subdirs

def chunksExact (size : Nat) (bytes : List UInt8) : List (List UInt8) :=
  (range (bytes.length / size)).map fun i => (bytes.drop (i * size)).take size

structure Buffers (δ : Type) where
  bus : Bus δ
  clusterBuf : List UInt8

inductive Chain where
  | returned (result : Option Found)
  | scanned (scan : Scan)

section Find
variable {δ : Type} (msc : Msc δ) (vol : Fat32Volume)

def scanEntries (depth : Nat) : List (List UInt8) → Bool → Scan → Bus δ → Option (Scanned × Bus δ)
  | [], pending, scan, bus => some (.more pending scan, bus)
  | entry :: rest, pending, scan, bus =>
      if entry.getD 0 0 = 0x00 then some (.ended scan, bus)
      else if entry.getD 11 0 = 0x0f then
        scanEntries depth rest (pending || fat32LfnEntryHasGgufSuffix entry) scan bus
      else
        match fat32FileFromEntry entry with
        | some file =>
            if fat32EntryIsPreferredBitnetGguf entry then some (.found file, bus)
            else
              let named := keepFirst scan.firstGgufFile file (fat32EntryIsGguf entry || pending)
              match fat32FileHasGgufMagic msc vol file bus with
              | none => none
              | some (magic, after) =>
                  scanEntries depth rest false
                    ⟨keepFirst named file magic, keepLargest scan.largestFile file, scan.subdirs⟩ after
        | none => scanEntries depth rest false { scan with subdirs := pushSubdir depth scan.subdirs entry } bus

def scanChain (depth : Nat) : Nat → Nat → Bool → Scan → Buffers δ → Option (Chain × Buffers δ)
  | 0, _, _, scan, buffers => some (.scanned scan, buffers)
  | left + 1, cluster, pending, scan, buffers =>
      if IsData cluster then
        let reading := readDeviceSectors msc (vol.firstDeviceLbaOfCluster cluster) vol.clusterDeviceBlocks
          (buffers.clusterBuf.take vol.clusterBytes) buffers.bus.device
        let clusterBuf := reading.buf ++ buffers.clusterBuf.drop vol.clusterBytes
        if reading.ok then
          match scanEntries msc vol depth (chunksExact 32 reading.buf) pending scan
              ⟨reading.state, buffers.bus.sectorBuf⟩ with
          | none => none
          | some (.found file, bus) => some (.returned (some ⟨file, .preferred⟩), ⟨bus, clusterBuf⟩)
          | some (.ended scan, bus) => some (.scanned scan, ⟨bus, clusterBuf⟩)
          | some (.more pending scan, bus) =>
              match readFatEntry msc vol cluster bus with
              | none => none
              | some (none, bus) => some (.returned none, ⟨bus, clusterBuf⟩)
              | some (some next, bus) => scanChain depth left next pending scan ⟨bus, clusterBuf⟩
        else some (.returned none, ⟨⟨reading.state, buffers.bus.sectorBuf⟩, clusterBuf⟩)
      else some (.scanned scan, buffers)

def searchSubdirs (find : Nat → Buffers δ → Option (Option Found × Buffers δ)) :
    List Nat → Buffers δ → Option (Option Found × Buffers δ)
  | [], buffers => some (none, buffers)
  | dirCluster :: rest, buffers =>
      match find dirCluster buffers with
      | none => none
      | some (some found, buffers) => some (some found, buffers)
      | some (none, buffers) => searchSubdirs find rest buffers

def Scan.settle (scan : Scan) : Option Found :=
  match scan.firstGgufFile with
  | some file => some ⟨file, .firstGguf⟩
  | none => scan.largestFile.map fun file => ⟨file, .largest⟩

def searchDir (depth : Nat) (search : List Nat → Buffers δ → Option (Option Found × Buffers δ)) (startCluster : Nat)
    (buffers : Buffers δ) : Option (Option Found × Buffers δ) :=
  if buffers.clusterBuf.length < vol.clusterBytes then some (none, buffers)
  else
    match scanChain msc vol depth 4096 startCluster false ⟨none, none, []⟩ buffers with
    | none => none
    | some (.returned result, buffers) => some (result, buffers)
    | some (.scanned scan, buffers) =>
        match search scan.subdirs buffers with
        | none => none
        | some (some found, buffers) => some (some found, buffers)
        | some (none, buffers) => some (scan.settle, buffers)

def findGgufFileInFat32Dir : Nat → Nat → Buffers δ → Option (Option Found × Buffers δ)
  | 0 => searchDir msc vol 4 fun _ buffers => some (none, buffers)
  | deeper + 1 => searchDir msc vol (3 - deeper) (searchSubdirs (findGgufFileInFat32Dir deeper))

def findGgufFileInFat32 (buffers : Buffers δ) : Option (Option Found × Buffers δ) :=
  findGgufFileInFat32Dir msc vol 4 vol.rootCluster buffers

end Find

/-! What a directory lists. -/

structure Listed where
  entry : List UInt8
  pieces : List (List UInt8)

structure Listing where
  listed : List Listed
  pieces : List (List UInt8)
  ended : Bool

def listEntries : List (List UInt8) → List (List UInt8) → Listing
  | [], pieces => ⟨[], pieces, false⟩
  | entry :: rest, pieces =>
      if entry.getD 0 0 = 0x00 then ⟨[], pieces, true⟩
      else if entry.getD 11 0 = 0x0f then listEntries rest (entry :: pieces)
      else
        let listing := listEntries rest []
        { listing with listed := ⟨entry, pieces⟩ :: listing.listed }

namespace Listed

def file (item : Listed) : Option Fat32File := fat32FileFromEntry item.entry

def preferred (item : Listed) : Bool := item.file.isSome && fat32EntryIsPreferredBitnetGguf item.entry

def subdir (item : Listed) : Option Nat := if item.file.isSome then none else fat32DirectoryFromEntry item.entry

end Listed

structure Directory where
  listed : List Listed
  broken : Bool

section Spec
variable (disk : Disk) (vol : Fat32Volume) (behind : List UInt8)

def hasMagic (file : Fat32File) : Bool :=
  (disk.drive vol).bytesFrom (vol.firstDeviceLbaOfCluster file.firstCluster) 4 = ascii "GGUF"

def Listed.recognised (item : Listed) : Bool :=
  item.file.any fun file =>
    fat32EntryIsGguf item.entry || item.pieces.any fat32LfnEntryHasGgufSuffix || hasMagic disk vol file

def Listed.stops (item : Listed) : Bool :=
  item.file.isSome && (item.preferred || decide (BOUNCE_BYTES < vol.bytesPerSector))

def directoryFrom : Nat → Nat → List (List UInt8) → Directory
  | 0, _, _ => ⟨[], false⟩
  | left + 1, cluster, pieces =>
      if IsData cluster then
        let listing := listEntries (chunksExact 32 (runBytes disk vol cluster 1)) pieces
        if listing.ended then ⟨listing.listed, false⟩
        else
          match disk.fatEntry vol behind cluster with
          | some (some next) =>
              let rest := directoryFrom left next listing.pieces
              ⟨listing.listed ++ rest.listed, rest.broken⟩
          | _ => ⟨listing.listed, true⟩
      else ⟨[], false⟩

def directory (startCluster : Nat) : Directory := directoryFrom disk vol behind 4096 startCluster []

def Scan.list (depth : Nat) (scan : Scan) (item : Listed) : Scan :=
  match item.file with
  | some file => ⟨keepFirst scan.firstGgufFile file (item.recognised disk vol), keepLargest scan.largestFile file, scan.subdirs⟩
  | none => { scan with subdirs := pushSubdir depth scan.subdirs item.entry }

def Listing.outcome (listing : Listing) (depth : Nat) (scan : Scan) : Option Scanned :=
  match listing.listed.find? (Listed.stops vol) with
  | some item => if item.preferred then item.file.map .found else none
  | none =>
      let scan := listing.listed.foldl (Scan.list disk vol depth) scan
      some (if listing.ended then .ended scan else .more (listing.pieces.any fat32LfnEntryHasGgufSuffix) scan)

def Directory.outcome (dir : Directory) (depth : Nat) (scan : Scan) : Option Chain :=
  match dir.listed.find? (Listed.stops vol) with
  | some item => if item.preferred then item.file.map fun file => .returned (some ⟨file, .preferred⟩) else none
  | none => if dir.broken then none else some (.scanned (dir.listed.foldl (Scan.list disk vol depth) scan))

def Directory.subdirs (dir : Directory) : List Nat := (dir.listed.filterMap Listed.subdir).take 16

def Directory.largest (dir : Directory) : Option Fat32File := (dir.listed.filterMap Listed.file).foldl keepLargest none

def Directory.firstRecognised (dir : Directory) : Option Fat32File :=
  (dir.listed.find? (Listed.recognised disk vol)).bind Listed.file

def Directory.stops (dir : Directory) : Bool := (dir.listed.find? (Listed.stops vol)).isSome || dir.broken

def Directory.choice (dir : Directory) : Option (Option Found) :=
  match dir.listed.find? (Listed.stops vol) with
  | some item => some (if item.preferred then item.file.map fun file => ⟨file, .preferred⟩ else none)
  | none =>
      if dir.broken then some none
      else
        match dir.firstRecognised disk vol with
        | some file => some (some ⟨file, .firstGguf⟩)
        | none => dir.largest.map fun file => some ⟨file, .largest⟩

def order : Nat → Nat → List Directory
  | 0, startCluster => [directory disk vol behind startCluster]
  | deeper + 1, startCluster =>
      let dir := directory disk vol behind startCluster
      if dir.stops vol then [dir] else dir.subdirs.flatMap (order deeper) ++ [dir]

def answer : Option (Option Found) → Option (Option Found)
  | none => some none
  | some verdict => verdict.map some

end Spec

theorem keepFirst_again (first : Option Fat32File) (file : Fat32File) (named magic : Bool) :
    keepFirst (keepFirst first file named) file magic = keepFirst first file (named || magic) := by
  cases first <;> cases named <;> cases magic <;> rfl

theorem outcome_cons (disk : Disk) (vol : Fat32Volume) (item : Listed) (listing : Listing) (depth : Nat) (scan : Scan) :
    Listing.outcome disk vol { listing with listed := item :: listing.listed } depth scan =
      if item.stops vol then if item.preferred then item.file.map .found else none
      else listing.outcome disk vol depth (scan.list disk vol depth item) := by
  unfold Listing.outcome
  rw [find?_cons]
  cases item.stops vol with
  | true => rfl
  | false => rfl

variable {item : Listed}

section Fold
variable (disk : Disk) (vol : Fat32Volume)

theorem pushSubdir_take (depth : Nat) {subdirs : List Nat} (few : subdirs.length ≤ 16) (entry : List UInt8) :
    pushSubdir depth subdirs entry =
      if depth < 4 then (subdirs ++ (fat32DirectoryFromEntry entry).toList).take 16 else subdirs := by
  unfold pushSubdir
  by_cases shallow : depth < 4
  · rw [if_pos shallow]
    cases fat32DirectoryFromEntry entry with
    | none => simp [take_of_length_le few]
    | some dirCluster =>
      by_cases room : subdirs.length < 16
      · rw [if_pos ⟨shallow, room⟩]
        exact (take_of_length_le (by simp; omega)).symm
      · rw [if_neg (fun both => room both.2), take_append_of_le_length (by omega), take_of_length_le few]
  · rw [if_neg shallow, if_neg (fun both => shallow both.1)]

theorem take_take_append {α : Type} (count : Nat) (front back : List α) :
    (front.take count ++ back).take count = (front ++ back).take count := by
  have left : count - min count front.length = count - front.length := by omega
  rw [take_append, take_append, take_take, Nat.min_self, length_take, left]

theorem keepFirst_or (first rest : Option Fat32File) (file : Fat32File) (isGguf : Bool) :
    (keepFirst first file isGguf).or rest = first.or (if isGguf then some file else rest) := by
  cases first <;> cases isGguf <;> rfl

theorem list_file (depth : Nat) (scan : Scan) {file : Fat32File} (accepted : item.file = some file) :
    scan.list disk vol depth item =
      ⟨keepFirst scan.firstGgufFile file (item.recognised disk vol), keepLargest scan.largestFile file, scan.subdirs⟩ := by
  rw [Scan.list, accepted]

theorem list_other (depth : Nat) (scan : Scan) (other : item.file = none) :
    scan.list disk vol depth item = { scan with subdirs := pushSubdir depth scan.subdirs item.entry } := by
  rw [Scan.list, other]

theorem foldl_list (depth : Nat) (listed : List Listed) (scan : Scan) (few : scan.subdirs.length ≤ 16) :
    listed.foldl (Scan.list disk vol depth) scan =
      ⟨scan.firstGgufFile.or ((listed.find? (Listed.recognised disk vol)).bind Listed.file),
        (listed.filterMap Listed.file).foldl keepLargest scan.largestFile,
        if depth < 4 then (scan.subdirs ++ listed.filterMap Listed.subdir).take 16 else scan.subdirs⟩ := by
  induction listed generalizing scan with
  | nil =>
    have all : (scan.subdirs ++ []).take 16 = scan.subdirs := by
      rw [append_nil, take_of_length_le few]
    change scan = ⟨scan.firstGgufFile.or none, scan.largestFile, if depth < 4 then (scan.subdirs ++ []).take 16 else scan.subdirs⟩
    rw [all, ite_self, or_none]
  | cons item rest ih =>
    rw [foldl_cons]
    cases accepted : item.file with
    | some file =>
      have subdir : item.subdir = none := by rw [Listed.subdir, accepted]; rfl
      have folded := ih (scan.list disk vol depth item)
      rw [list_file disk vol depth scan accepted] at folded ⊢
      rw [folded few, filterMap_cons_some accepted, filterMap_cons_none subdir, foldl_cons, keepFirst_or]
      cases recognised : item.recognised disk vol with
      | true => rw [find?_cons_of_pos recognised, bind_some, accepted, if_pos rfl]
      | false => rw [find?_cons_of_neg (Bool.eq_false_iff.mp recognised), if_neg Bool.false_ne_true]
    | none =>
      have subdir : item.subdir = fat32DirectoryFromEntry item.entry := by rw [Listed.subdir, accepted]; rfl
      have recognised : item.recognised disk vol ≠ true := by rw [Listed.recognised, accepted]; exact nofun
      have still : (pushSubdir depth scan.subdirs item.entry).length ≤ 16 := by
        rw [pushSubdir_take depth few]
        split
        · exact length_take_le _ _
        · exact few
      have folded := ih (scan.list disk vol depth item)
      rw [list_other disk vol depth scan accepted] at folded ⊢
      rw [folded still, filterMap_cons_none accepted, find?_cons_of_neg recognised, pushSubdir_take depth few,
        filterMap_cons, subdir]
      by_cases shallow : depth < 4
      · rw [if_pos shallow, if_pos shallow, if_pos shallow, take_take_append, append_assoc]
        cases fat32DirectoryFromEntry item.entry with
        | none | some dirCluster => rfl
      · rw [if_neg shallow, if_neg shallow, if_neg shallow]

end Fold

section Disk
variable {disk : Disk} {vol : Fat32Volume} {behind : List UInt8} {bus : Bus Unit}

theorem bytesFrom_take (drive : Drive) (lba : Nat) {count length : Nat} (few : count ≤ length) :
    (drive.bytesFrom lba length).take count = drive.bytesFrom lba count := by
  rw [Drive.bytesFrom, Drive.bytesFrom, ← map_take, take_range, Nat.min_eq_left few]

theorem magic_panics (file : Fat32File) (bounced : Bounced vol behind bus) (large : BOUNCE_BYTES < vol.bytesPerSector) :
    fat32FileHasGgufMagic (disk.msc vol) vol file bus = none := by
  rw [fat32FileHasGgufMagic, readSector_panics disk _ bounced (Nat.not_le.mpr large)]

theorem outcome_append {listed : List Listed} (passed : listed.find? (Listed.stops vol) = none) (rest : Directory)
    (depth : Nat) (scan : Scan) : Directory.outcome disk vol ⟨listed ++ rest.listed, rest.broken⟩ depth scan =
      rest.outcome disk vol depth (listed.foldl (Scan.list disk vol depth) scan) := by
  unfold Directory.outcome
  rw [find?_append, passed, none_or, foldl_append]

variable {dir : Directory}

theorem outcome_stopped {listed : List Listed} (found : listed.find? (Listed.stops vol) = some item)
    (goes : ∃ more, listed ++ more = dir.listed) (depth : Nat) (scan : Scan) : dir.outcome disk vol depth scan =
      if item.preferred then item.file.map fun file => .returned (some ⟨file, .preferred⟩) else none := by
  obtain ⟨more, all⟩ := goes
  unfold Directory.outcome
  rw [← all, find?_append, found, some_or]

structure Ready (vol : Fat32Volume) (behind : List UInt8) (buffers : Buffers Unit) : Prop where
  bounced : Bounced vol behind buffers.bus
  sized : buffers.clusterBuf.length = vol.clusterBytes

theorem choice_stopped (found : dir.listed.find? (Listed.stops vol) = some item) :
    dir.choice disk vol = some (if item.preferred then item.file.map fun file => ⟨file, .preferred⟩ else none) := by
  rw [Directory.choice, found]

theorem choice_broken (passed : dir.listed.find? (Listed.stops vol) = none) (broken : dir.broken = true) :
    dir.choice disk vol = some none := by
  rw [Directory.choice, passed]
  exact if_pos broken

theorem choice_settled (depth : Nat) (passed : dir.listed.find? (Listed.stops vol) = none)
    (whole : dir.broken = false) :
    dir.choice disk vol = (dir.listed.foldl (Scan.list disk vol depth) ⟨none, none, []⟩).settle.map some := by
  rw [foldl_list disk vol depth dir.listed ⟨none, none, []⟩ (Nat.zero_le 16), Scan.settle, Option.none_or, Directory.choice, passed]
  rw [if_neg (Bool.eq_false_iff.mp whole), Directory.firstRecognised]
  cases (dir.listed.find? (Listed.recognised disk vol)).bind Listed.file with
  | some file => rfl
  | none =>
    rw [Option.map_map]
    rfl

def Tells {ι : Type} (disk : Disk) (vol : Fat32Volume) (behind : List UInt8)
    (find : ι → Buffers Unit → Option (Option Found × Buffers Unit)) (below : ι → List Directory) : Prop :=
  ∀ start buffers, Ready vol behind buffers → ∃ after, Ready vol behind after ∧
    find start buffers = (answer ((below start).findSome? (Directory.choice disk vol))).map fun result => (result, after)

theorem searchSubdirs_disk {find : Nat → Buffers Unit → Option (Option Found × Buffers Unit)} {below : Nat → List Directory}
    (told : Tells disk vol behind find below) :
    Tells disk vol behind (searchSubdirs find) fun subdirs => subdirs.flatMap below := by
  intro subdirs buffers ready
  induction subdirs generalizing buffers with
  | nil => exact ⟨buffers, ready, rfl⟩
  | cons dirCluster rest ih =>
    obtain ⟨after, kept, first⟩ := told dirCluster buffers ready
    dsimp only
    rw [searchSubdirs, first, flatMap_cons, findSome?_append]
    cases decided : (below dirCluster).findSome? (Directory.choice disk vol) with
    | none => exact ih after kept
    | some verdict =>
      cases verdict with
      | none | some found => exact ⟨after, kept, rfl⟩

variable (healthy : ∀ lba count, disk.faults.readable lba count = true) (wide : 512 ≤ vol.deviceBlockSize)
include healthy

theorem fatEntry_healthy (cluster : Nat) : disk.fatEntry vol behind cluster ≠ some none := by
  unfold Disk.fatEntry
  rw [if_pos (healthy _ _)]
  split
  · split
    · exact nofun
    · exact nofun
  · exact nofun

include wide

theorem magic_disk (file : Fat32File) (bounced : Bounced vol behind bus) (fits : vol.bytesPerSector ≤ BOUNCE_BYTES) :
    ∃ after, Bounced vol behind after ∧
      fat32FileHasGgufMagic (disk.msc vol) vol file bus = some (hasMagic disk vol file, after) := by
  obtain ⟨after, kept, read, bytes⟩ := readSector_disk disk (vol.firstLba_lt file.firstCluster) bounced fits
  have short : 4 ≤ ((disk.drive vol).bytesFrom (vol.firstDeviceLbaOfCluster file.firstCluster) vol.bytesPerSector).length := by
    rw [bytesFrom_length]
    exact Nat.le_trans (by decide) (vol.sector_large wide)
  refine ⟨after, kept, ?_⟩
  rw [fat32FileHasGgufMagic, read, healthy, hasMagic]
  dsimp only
  rw [bytes (healthy _ _), take_append_of_le_length short, bytesFrom_take _ _ (by rwa [bytesFrom_length] at short), Bool.true_and]

theorem scanEntries_disk (depth : Nat) (entries pieces : List (List UInt8)) (scan : Scan) {bus : Bus Unit}
    (bounced : Bounced vol behind bus) : ∃ after, Bounced vol behind after ∧
      scanEntries (disk.msc vol) vol depth entries (pieces.any fat32LfnEntryHasGgufSuffix) scan bus =
        ((listEntries entries pieces).outcome disk vol depth scan).map fun scanned => (scanned, after) := by
  induction entries generalizing pieces scan bus with
  | nil => exact ⟨bus, bounced, rfl⟩
  | cons entry rest ih =>
    rw [scanEntries, listEntries]
    by_cases ended : entry.getD 0 0 = 0x00
    · rw [if_pos ended, if_pos ended]
      exact ⟨bus, bounced, rfl⟩
    · rw [if_neg ended, if_neg ended]
      by_cases lfn : entry.getD 11 0 = 0x0f
      · rw [if_pos lfn, if_pos lfn, Bool.or_comm, ← any_cons]
        exact ih (entry :: pieces) scan bounced
      · rw [if_neg lfn, if_neg lfn]
        rw [outcome_cons]
        cases accepted : fat32FileFromEntry entry with
        | none =>
          have listed : (Listed.mk entry pieces).file = none := accepted
          rw [if_neg (by rw [Listed.stops, listed]; exact nofun), Scan.list, listed]
          exact ih [] _ bounced
        | some file =>
          have listed : (Listed.mk entry pieces).file = some file := accepted
          by_cases wanted : fat32EntryIsPreferredBitnetGguf entry = true
          · have preferred : (Listed.mk entry pieces).preferred = true := by rw [Listed.preferred, listed, wanted]; rfl
            have stops : (Listed.mk entry pieces).stops vol = true := by rw [Listed.stops, listed, preferred]; rfl
            rw [if_pos stops, if_pos preferred, listed]
            dsimp only
            rw [if_pos wanted]
            exact ⟨bus, bounced, rfl⟩
          · have other : (Listed.mk entry pieces).preferred = false := by
              rw [Listed.preferred, listed, Bool.eq_false_iff.mpr wanted]
              rfl
            dsimp only
            rw [if_neg wanted]
            by_cases fits : vol.bytesPerSector ≤ BOUNCE_BYTES
            · have passes : (Listed.mk entry pieces).stops vol = false := by
                rw [Listed.stops, other, decide_eq_false (Nat.not_lt.mpr fits)]
                exact Bool.and_false _
              obtain ⟨after, kept, magic⟩ := magic_disk healthy wide file bounced fits
              rw [magic, passes, Scan.list]
              dsimp only
              rw [keepFirst_again, Listed.recognised, listed]
              exact ih [] _ kept
            · have stops : (Listed.mk entry pieces).stops vol = true := by
                rw [Listed.stops, listed, decide_eq_true (Nat.not_le.mp fits)]
                exact Bool.or_true _
              rw [magic_panics file bounced (Nat.not_le.mp fits), stops, other]
              exact ⟨bus, bounced, rfl⟩

theorem cluster_disk (cluster : Nat) {buf : List UInt8} (sized : buf.length = vol.clusterBytes) (device : Unit) :
    readDeviceSectors (disk.msc vol) (vol.firstDeviceLbaOfCluster cluster) vol.clusterDeviceBlocks buf device =
      ⟨true, runBytes disk vol cluster 1, ()⟩ := by
  have blocks := vol.clusterBlocks_lt wide
  obtain ⟨after, read, _, bytes⟩ := disk_read disk (vol.firstLba_lt cluster) blocks (sized.trans vol.clusterBytes_eq) device
  rw [vol.clusterDeviceBlocks_eq, Nat.mod_eq_of_lt blocks, read, healthy, bytes (healthy _ _), sized, runBytes, Nat.one_mul]

theorem scanChain_disk (depth left cluster : Nat) (pieces : List (List UInt8)) (scan : Scan) {buffers : Buffers Unit}
    (ready : Ready vol behind buffers) : ∃ after, Ready vol behind after ∧
      scanChain (disk.msc vol) vol depth left cluster (pieces.any fat32LfnEntryHasGgufSuffix) scan buffers =
        ((directoryFrom disk vol behind left cluster pieces).outcome disk vol depth scan).map fun chain =>
          (chain, after) := by
  induction left generalizing cluster pieces scan buffers with
  | zero => exact ⟨buffers, ready, rfl⟩
  | succ left ih =>
    rw [scanChain, directoryFrom]
    by_cases data : IsData cluster
    · have whole : (buffers.clusterBuf.take vol.clusterBytes).length = vol.clusterBytes := by
        rw [length_take, ready.sized, Nat.min_self]
      have rest : buffers.clusterBuf.drop vol.clusterBytes = [] := drop_eq_nil_of_le (Nat.le_of_eq ready.sized)
      obtain ⟨bus, kept, scanned⟩ := scanEntries_disk healthy wide depth
        (chunksExact 32 (runBytes disk vol cluster 1)) pieces scan ready.bounced
      have readied : Ready vol behind ⟨bus, runBytes disk vol cluster 1⟩ :=
        ⟨kept, (runBytes_length cluster 1).trans (Nat.one_mul _)⟩
      rw [if_pos data, if_pos data, cluster_disk healthy wide cluster whole, rest]
      dsimp only
      rw [append_nil, scanned]
      generalize listEntries (chunksExact 32 (runBytes disk vol cluster 1)) pieces = listing
      unfold Listing.outcome
      cases found : listing.listed.find? (Listed.stops vol) with
      | some item =>
        refine ⟨_, readied, ?_⟩
        rw [outcome_stopped found]
        · dsimp only
          cases item.preferred with
          | false => rfl
          | true =>
            cases item.file with
            | none | some file => rfl
        · split
          · exact ⟨[], append_nil _⟩
          · split
            · exact ⟨_, rfl⟩
            · exact ⟨[], append_nil _⟩
      | none =>
        dsimp only
        by_cases ended : listing.ended = true
        · rw [if_pos ended, if_pos ended, Directory.outcome, found]
          exact ⟨_, readied, rfl⟩
        · rw [if_neg ended, if_neg ended]
          obtain ⟨after, kept', read⟩ := readFatEntry_disk disk cluster kept
          dsimp only [map_some]
          rw [read]
          cases entry : disk.fatEntry vol behind cluster with
          | none =>
            rw [Directory.outcome, found]
            exact ⟨_, readied, rfl⟩
          | some entry' =>
            cases entry' with
            | none => exact absurd entry (fatEntry_healthy healthy cluster)
            | some next =>
              have again : Ready vol behind ⟨after, runBytes disk vol cluster 1⟩ := ⟨kept', readied.sized⟩
              rw [outcome_append found]
              exact ih next listing.pieces _ again
    · rw [if_neg data, if_neg data]
      exact ⟨buffers, ready, rfl⟩

theorem searchDir_disk (depth : Nat) {search : List Nat → Buffers Unit → Option (Option Found × Buffers Unit)}
    {below : List Nat → List Directory} (told : Tells disk vol behind search below) (startCluster : Nat)
    {buffers : Buffers Unit} (ready : Ready vol behind buffers)
    (opened : directory disk vol behind startCluster = dir) : ∃ after, Ready vol behind after ∧
      searchDir (disk.msc vol) vol depth search startCluster buffers =
        (answer ((if dir.stops vol then [dir] else
          below (dir.listed.foldl (Scan.list disk vol depth) ⟨none, none, []⟩).subdirs ++ [dir]).findSome?
            (Directory.choice disk vol))).map fun result => (result, after) := by
  obtain ⟨after, kept, scanned⟩ := scanChain_disk healthy wide depth 4096 startCluster [] ⟨none, none, []⟩ ready
  rw [any_nil, ← directory, opened] at scanned
  rw [searchDir, ready.sized, if_neg (Nat.lt_irrefl _), scanned]
  unfold Directory.outcome Directory.stops
  cases found : dir.listed.find? (Listed.stops vol) with
  | some item =>
    have decided : Directory.choice disk vol dir = _ := choice_stopped found
    refine ⟨after, kept, ?_⟩
    rw [isSome_some, Bool.true_or, if_pos rfl, findSome?_cons, decided]
    dsimp only
    cases item.preferred with
    | false => rfl
    | true =>
      cases item.file with
      | none => rfl
      | some file => rfl
  | none =>
    rw [isSome_none, Bool.false_or]
    cases broken : dir.broken with
    | true =>
      have decided : Directory.choice disk vol dir = _ := choice_broken found broken
      refine ⟨after, kept, ?_⟩
      rw [if_pos rfl, if_pos rfl, findSome?_cons, decided]
      rfl
    | false =>
      have settled : Directory.choice disk vol dir = _ := choice_settled depth found broken
      generalize dir.listed.foldl (Scan.list disk vol depth) ⟨none, none, []⟩ = scan at settled ⊢
      obtain ⟨last, still, searched⟩ := told scan.subdirs after kept
      refine ⟨last, still, ?_⟩
      rw [if_neg Bool.false_ne_true, if_neg Bool.false_ne_true, findSome?_append, findSome?_cons, settled]
      dsimp only [map_some]
      rw [searched]
      cases (below scan.subdirs).findSome? (Directory.choice disk vol) with
      | some verdict =>
        cases verdict with
        | none | some found => rfl
      | none =>
        cases scan.settle with
        | none | some found => rfl

theorem findDir_disk (deeper : Nat) :
    Tells disk vol behind (findGgufFileInFat32Dir (disk.msc vol) vol deeper) (order disk vol behind deeper) := by
  induction deeper with
  | zero =>
    intro startCluster buffers ready
    have nothing : Tells disk vol behind (fun (_ : List Nat) buffers => some (none, buffers)) fun _ => [] :=
      fun _ buffers ready => ⟨buffers, ready, rfl⟩
    have searched := searchDir_disk healthy wide 4 nothing startCluster ready rfl
    rw [nil_append, ite_self] at searched
    exact searched
  | succ deeper ih =>
    intro startCluster buffers ready
    have shallow : 3 - deeper < 4 := by omega
    have searched := searchDir_disk healthy wide (3 - deeper) (searchSubdirs_disk ih) startCluster ready rfl
    rw [foldl_list disk vol _ _ ⟨none, none, []⟩ (Nat.zero_le 16), if_pos shallow] at searched
    exact searched

end Disk

end HermitLocal.Usb.Search
