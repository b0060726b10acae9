import HermitLocal.Usb.ReadSectors

/-! The FAT32 volume on a USB device: the boot sector, directory entries, and the reads of one
sector that go through the bounce buffer. -/

namespace HermitLocal.Usb.Fat32
open Lib.Wire Usb.ReadSectors List

def leU16 (buf : List UInt8) (off : Nat) : Nat := leValue ((buf.drop off).take 2)

def leU32 (buf : List UInt8) (off : Nat) : Nat := leValue ((buf.drop off).take 4)

theorem leU16_lt (buf : List UInt8) (off : Nat) : leU16 buf off < 2 ^ 16 := by
  have bound := leValue_lt ((buf.drop off).take 2)
  have short : ((buf.drop off).take 2).length ≤ 2 := length_take_le 2 _
  exact lt_of_lt_of_le bound (Nat.pow_le_pow_right (by decide) short)

theorem leU32_lt (buf : List UInt8) (off : Nat) : leU32 buf off < 2 ^ 32 := by
  have bound := leValue_lt ((buf.drop off).take 4)
  have short : ((buf.drop off).take 4).length ≤ 4 := length_take_le 4 _
  exact lt_of_lt_of_le bound (Nat.pow_le_pow_right (by decide) short)

structure Fat32Volume where
  baseLba : Nat
  deviceBlockSize : Nat
  bytesPerSector : Nat
  deviceBlocksPerFsSector : Nat
  sectorsPerCluster : Nat
  reservedSectors : Nat
  numFats : Nat
  fatSizeSectors : Nat
  rootCluster : Nat
  dataStartLba : Nat
  blockPositive : 0 < deviceBlockSize
  sectorPositive : 0 < bytesPerSector
  sectorSmall : bytesPerSector < 2 ^ 16
  wholeBlocks : bytesPerSector = deviceBlocksPerFsSector * deviceBlockSize
  clusterPositive : 0 < sectorsPerCluster
  clusterSmall : sectorsPerCluster < 2 ^ 8
  rootData : 2 ≤ rootCluster

structure Fat32File where
  firstCluster : Nat
  size : Nat
  clusterData : 2 ≤ firstCluster
  clusterSmall : firstCluster < 2 ^ 32
  sizePositive : 0 < size
  sizeSmall : size < 2 ^ 32

variable {cluster lba offset : Nat} {bytes : List UInt8} {vol : Fat32Volume}

namespace Fat32Volume
variable (vol : Fat32Volume)

def deviceLbaForFsSector (fsSector : Nat) : Nat :=
  (vol.baseLba + fsSector * vol.deviceBlocksPerFsSector) % 2 ^ 32

def firstDeviceLbaOfCluster (cluster : Nat) : Nat :=
  vol.deviceLbaForFsSector
    ((vol.reservedSectors + vol.numFats * vol.fatSizeSectors + (cluster - 2) * vol.sectorsPerCluster) % 2 ^ 32)

def fatLbaForCluster (cluster : Nat) : Nat × Nat :=
  let fatOffset := cluster * 4 % 2 ^ 32
  let sector := vol.deviceLbaForFsSector ((vol.reservedSectors + fatOffset / vol.bytesPerSector) % 2 ^ 32)
  (sector, fatOffset % vol.bytesPerSector)

def clusterBytes : Nat := vol.bytesPerSector * vol.sectorsPerCluster

def clusterDeviceBlocks : Nat := vol.clusterBytes / vol.deviceBlockSize % 2 ^ 16

theorem clusterBytes_pos : 0 < vol.clusterBytes := Nat.mul_pos vol.sectorPositive vol.clusterPositive

theorem clusterBytes_lt : vol.clusterBytes < 2 ^ 16 * 2 ^ 8 :=
  Nat.mul_lt_mul'' vol.sectorSmall vol.clusterSmall

def clusterBlocks : Nat := vol.deviceBlocksPerFsSector * vol.sectorsPerCluster

theorem clusterBytes_eq : vol.clusterBytes = vol.clusterBlocks * vol.deviceBlockSize := by
  rw [clusterBytes, clusterBlocks, vol.wholeBlocks, Nat.mul_right_comm]

theorem clusterDeviceBlocks_eq : vol.clusterDeviceBlocks = vol.clusterBlocks % 2 ^ 16 := by
  rw [clusterDeviceBlocks, clusterBytes_eq, Nat.mul_div_cancel _ vol.blockPositive]

theorem sector_large (wide : 512 ≤ vol.deviceBlockSize) : 512 ≤ vol.bytesPerSector := by
  have positive := vol.sectorPositive
  rw [vol.wholeBlocks] at positive ⊢
  exact wide.trans (Nat.le_mul_of_pos_left _ (Nat.pos_of_mul_pos_right positive))

theorem clusterBlocks_lt (wide : 512 ≤ vol.deviceBlockSize) : vol.clusterBlocks < 2 ^ 16 := by
  have small := vol.clusterBytes_lt
  have blocks := Nat.mul_le_mul_left vol.clusterBlocks wide
  rw [clusterBytes_eq] at small
  omega

theorem sectorBlocks_lt : vol.deviceBlocksPerFsSector < 2 ^ 16 := by
  have small := vol.sectorSmall
  rw [vol.wholeBlocks] at small
  exact lt_of_le_of_lt (Nat.le_mul_of_pos_right _ vol.blockPositive) small

theorem deviceLba_lt (fsSector : Nat) : vol.deviceLbaForFsSector fsSector < 2 ^ 32 := Nat.mod_lt _ (by decide)

theorem deviceLba_mod (fsSector : Nat) :
    vol.deviceLbaForFsSector (fsSector % 2 ^ 32) = vol.deviceLbaForFsSector fsSector := by
  unfold deviceLbaForFsSector
  rw [Nat.add_mod, Nat.mul_mod, Nat.mod_mod, ← Nat.mul_mod, ← Nat.add_mod]

theorem fatLba_lt (cluster : Nat) : (vol.fatLbaForCluster cluster).1 < 2 ^ 32 := vol.deviceLba_lt _

theorem firstLba_lt (cluster : Nat) : vol.firstDeviceLbaOfCluster cluster < 2 ^ 32 := vol.deviceLba_lt _

theorem firstLba_add (data : 2 ≤ cluster) (further : Nat) : vol.firstDeviceLbaOfCluster (cluster + further) =
      (vol.firstDeviceLbaOfCluster cluster + further * vol.clusterBlocks) % 2 ^ 32 := by
  have sector : cluster + further - 2 = cluster - 2 + further := by omega
  have blocks : further * vol.clusterBlocks = further * vol.sectorsPerCluster * vol.deviceBlocksPerFsSector := by
    rw [clusterBlocks, Nat.mul_comm vol.deviceBlocksPerFsSector, Nat.mul_assoc]
  unfold firstDeviceLbaOfCluster
  rw [deviceLba_mod, deviceLba_mod, sector, blocks]
  unfold deviceLbaForFsSector
  rw [Nat.mod_add_mod]
  simp only [Nat.add_mul, Nat.add_assoc]

end Fat32Volume

def asciiLowerU16 (ch : Nat) : Nat := if 0x41 ≤ ch ∧ ch ≤ 0x5a then ch + 32 else ch

def asciiUpperU8 (ch : UInt8) : UInt8 := if 0x61 ≤ ch ∧ ch ≤ 0x7a then ch - 32 else ch

def fat32EntryIsGguf (entry : List UInt8) : Bool :=
  if entry.getD 0 0 = 0x00 ∨ entry.getD 0 0 = 0xe5 then false
  else
    let attr := entry.getD 11 0
    if attr = 0x0f ∨ attr &&& 0x08 ≠ 0 ∨ attr &&& 0x10 ≠ 0 then false
    else (entry.drop 8).take 3 = ascii "GGU" || (entry.drop 8).take 3 = ascii "GGF"

def fat32EntryIsPreferredBitnetGguf (entry : List UInt8) : Bool :=
  if fat32EntryIsGguf entry then ((entry.take 4).zip (ascii "GGML")).all fun pair => asciiUpperU8 pair.1 = pair.2
  else false

def LFN_OFFSETS : List Nat := [1, 3, 5, 7, 9, 14, 16, 18, 20, 22, 24, 28, 30]

def lfnSuffix (entry : List UInt8) : List Nat → List Nat → List Nat
  | [], suffix => suffix
  | off :: rest, suffix =>
      let ch := leU16 entry off
      if ch = 0 ∨ ch = 0xffff then suffix
      else lfnSuffix entry rest (if suffix.length < 5 then suffix ++ [ch] else suffix.drop 1 ++ [ch])

def fat32LfnEntryHasGgufSuffix (entry : List UInt8) : Bool :=
  if entry.getD 11 0 ≠ 0x0f then false
  else
    let suffix := lfnSuffix entry LFN_OFFSETS []
    suffix.length = 5 && suffix.getD 0 0 = 0x2e && asciiLowerU16 (suffix.getD 1 0) = 0x67 &&
      asciiLowerU16 (suffix.getD 2 0) = 0x67 && asciiLowerU16 (suffix.getD 3 0) = 0x75 &&
      asciiLowerU16 (suffix.getD 4 0) = 0x66

def entryCluster (entry : List UInt8) : Nat := leU16 entry 20 <<< 16 ||| leU16 entry 26

theorem entryCluster_lt (entry : List UInt8) : entryCluster entry < 2 ^ 32 := by
  apply Nat.or_lt_two_pow
  · rw [Nat.shiftLeft_eq]
    exact Nat.mul_lt_mul_of_pos_right (leU16_lt entry 20) (by decide)
  · exact lt_trans (leU16_lt entry 26) (by decide)

def fat32FileFromEntry (entry : List UInt8) : Option Fat32File :=
  let attr := entry.getD 11 0
  if entry.getD 0 0 = 0x00 ∨ entry.getD 0 0 = 0xe5 ∨ attr = 0x0f ∨ attr &&& 0x08 ≠ 0 ∨ attr &&& 0x10 ≠ 0 then none
  else if accepted : 2 ≤ entryCluster entry ∧ 0 < leU32 entry 28 then
    some ⟨entryCluster entry, leU32 entry 28, accepted.1, entryCluster_lt entry, accepted.2, leU32_lt entry 28⟩
  else none

def fat32DirectoryFromEntry (entry : List UInt8) : Option Nat :=
  let attr := entry.getD 11 0
  if entry.getD 0 0 = 0x00 ∨ entry.getD 0 0 = 0xe5 ∨ entry.getD 0 0 = 0x2e ∨ attr = 0x0f ∨ attr &&& 0x10 = 0 then none
  else if 2 ≤ entryCluster entry then some (entryCluster entry)
  else none

def parseFat32Volume (baseLba deviceBlockSize : Nat) (bootSector : List UInt8) : Option Fat32Volume :=
  if bootSector.length < 512 ∨ bootSector.getD 510 0 ≠ 0x55 ∨ bootSector.getD 511 0 ≠ 0xaa then none
  else
    let bytesPerSector := leU16 bootSector 11
    let sectorsPerCluster := (bootSector.getD 13 0).toNat
    let reservedSectors := leU16 bootSector 14
    let numFats := (bootSector.getD 16 0).toNat
    let fatSizeSectors := leU32 bootSector 36
    let rootCluster := leU32 bootSector 44
    if refused : bytesPerSector = 0 ∨ deviceBlockSize = 0 ∨ bytesPerSector % deviceBlockSize ≠ 0 ∨
        sectorsPerCluster = 0 ∨ reservedSectors = 0 ∨ numFats = 0 ∨ fatSizeSectors = 0 ∨ rootCluster < 2 ∨
        (bootSector.drop 82).take 8 ≠ ascii "FAT32   " then none
    else
      let deviceBlocksPerFsSector := bytesPerSector / deviceBlockSize
      some {
        baseLba, deviceBlockSize, bytesPerSector, deviceBlocksPerFsSector, sectorsPerCluster, reservedSectors, numFats,
        fatSizeSectors, rootCluster
        dataStartLba := (baseLba + (reservedSectors + numFats * fatSizeSectors) * deviceBlocksPerFsSector) % 2 ^ 32
        blockPositive := by omega
        sectorPositive := by omega
        sectorSmall := leU16_lt bootSector 11
        wholeBlocks := (Nat.div_mul_cancel (Nat.dvd_of_mod_eq_zero (by omega))).symm
        clusterPositive := by omega
        clusterSmall := UInt8.toNat_lt _
        rootData := by omega }

structure Bus (δ : Type) where
  device : δ
  sectorBuf : List UInt8

section Sector
variable {δ : Type} (msc : Msc δ) (vol : Fat32Volume)

def readSector (lba : Nat) (bus : Bus δ) : Option (Bool × Bus δ) :=
  if vol.bytesPerSector ≤ bus.sectorBuf.length then
    let reading := readDeviceSectors msc lba (vol.deviceBlocksPerFsSector % 2 ^ 16)
      (bus.sectorBuf.take vol.bytesPerSector) bus.device
    some (reading.ok, ⟨reading.state, reading.buf ++ bus.sectorBuf.drop vol.bytesPerSector⟩)
  else none

def fat32FileHasGgufMagic (file : Fat32File) (bus : Bus δ) : Option (Bool × Bus δ) :=
  match readSector msc vol (vol.firstDeviceLbaOfCluster file.firstCluster) bus with
  | none => none
  | some (ok, after) => some (ok && after.sectorBuf.take 4 = ascii "GGUF", after)

def readFatEntry (cluster : Nat) (bus : Bus δ) : Option (Option Nat × Bus δ) :=
  match readSector msc vol (vol.fatLbaForCluster cluster).1 bus with
  | none => none
  | some (false, after) => some (none, after)
  | some (true, after) =>
      if (vol.fatLbaForCluster cluster).2 + 4 ≤ after.sectorBuf.length then
        some (some (leU32 after.sectorBuf (vol.fatLbaForCluster cluster).2 &&& 0x0fffffff), after)
      else none

variable {msc vol}

theorem readFatEntry_fits {bus after : Bus δ} {entry : Option Nat}
    (read : readFatEntry msc vol cluster bus = some (entry, after)) :
    vol.bytesPerSector ≤ bus.sectorBuf.length ∧
      (entry.isSome → (vol.fatLbaForCluster cluster).2 + 4 ≤ bus.sectorBuf.length) := by
  unfold readFatEntry readSector at read
  by_cases fits : vol.bytesPerSector ≤ bus.sectorBuf.length
  · refine ⟨fits, ?_⟩
    rw [if_pos fits] at read
    have length := readDeviceSectors_length msc (vol.fatLbaForCluster cluster).1 (vol.deviceBlocksPerFsSector % 2 ^ 16)
      (bus.sectorBuf.take vol.bytesPerSector) bus.device
    generalize readDeviceSectors msc _ _ _ _ = reading at read length
    have whole : (reading.buf ++ bus.sectorBuf.drop vol.bytesPerSector).length = bus.sectorBuf.length := by
      rw [length_append, length, ← length_append, take_append_drop]
    cases reading with
    | mk ok buf state =>
      cases ok with
      | false =>
        cases read
        exact nofun
      | true =>
        dsimp only at read
        split at read
        · rw [← whole]
          exact fun _ => ‹_›
        · cases read
  · rw [if_neg fits] at read
    cases read

end Sector

/-! The same reads from a device whose failures depend on nothing but the blocks requested. -/

structure Disk where
  content : Nat → Nat → UInt8
  faults : Faults

def Disk.drive (disk : Disk) (vol : Fat32Volume) : Drive := ⟨vol.deviceBlockSize, disk.content⟩

def Disk.msc (disk : Disk) (vol : Fat32Volume) : Msc Unit := (disk.drive vol).failing disk.faults

def BOUNCE_BYTES : Nat := 4096

structure Bounced (vol : Fat32Volume) (behind : List UInt8) (bus : Bus Unit) : Prop where
  length : bus.sectorBuf.length = BOUNCE_BYTES
  kept : bus.sectorBuf.drop vol.bytesPerSector = behind

def Disk.fatEntry (disk : Disk) (vol : Fat32Volume) (behind : List UInt8) (cluster : Nat) : Option (Option Nat) :=
  if vol.bytesPerSector ≤ BOUNCE_BYTES then
    if disk.faults.readable (vol.fatLbaForCluster cluster).1 vol.deviceBlocksPerFsSector then
      if (vol.fatLbaForCluster cluster).2 + 4 ≤ BOUNCE_BYTES then
        some (some (leU32 ((disk.drive vol).bytesFrom (vol.fatLbaForCluster cluster).1 vol.bytesPerSector ++ behind)
          (vol.fatLbaForCluster cluster).2 &&& 0x0fffffff))
      else none
    else some none
  else none

section Disk
variable (disk : Disk) {vol : Fat32Volume} {behind : List UInt8} {bus : Bus Unit}

theorem disk_read {count : Nat} (lbaSmall : lba < 2 ^ 32) (countSmall : count < 2 ^ 16) {buf : List UInt8}
    (sized : buf.length = count * vol.deviceBlockSize) (device : Unit) :
    ∃ after, readDeviceSectors (disk.msc vol) lba count buf device = ⟨disk.faults.readable lba count, after, ()⟩ ∧
      after.length = buf.length ∧
      (disk.faults.readable lba count = true → after = (disk.drive vol).bytesFrom lba buf.length) := by
  have length := readDeviceSectors_length (disk.msc vol) lba count buf device
  have ok : (readDeviceSectors (disk.msc vol) lba count buf device).ok = _ := failing_ok lba count buf device
  refine ⟨(readDeviceSectors (disk.msc vol) lba count buf device).buf, ?_, length, ?_⟩
  · rw [← ok]
  · intro readable
    rw [sized]
    exact readDeviceSectors_bytes failing_delivers vol.blockPositive lbaSmall countSmall sized device (ok.trans readable)

theorem readSector_panics (lba : Nat) (bounced : Bounced vol behind bus) (large : ¬vol.bytesPerSector ≤ BOUNCE_BYTES) :
    readSector (disk.msc vol) vol lba bus = none := by
  rw [readSector, bounced.length, if_neg large]

theorem readSector_disk (small : lba < 2 ^ 32) (bounced : Bounced vol behind bus)
    (fits : vol.bytesPerSector ≤ BOUNCE_BYTES) : ∃ after, Bounced vol behind after ∧
      readSector (disk.msc vol) vol lba bus = some (disk.faults.readable lba vol.deviceBlocksPerFsSector, after) ∧
      (disk.faults.readable lba vol.deviceBlocksPerFsSector = true →
        after.sectorBuf = (disk.drive vol).bytesFrom lba vol.bytesPerSector ++ behind) := by
  have taken : (bus.sectorBuf.take vol.bytesPerSector).length = vol.bytesPerSector := by
    rw [length_take, bounced.length, Nat.min_eq_left fits]
  obtain ⟨buf, read, length, bytes⟩ := disk_read disk small vol.sectorBlocks_lt
    (taken.trans vol.wholeBlocks) bus.device
  rw [taken] at length bytes
  refine ⟨⟨(), buf ++ bus.sectorBuf.drop vol.bytesPerSector⟩, ⟨?_, ?_⟩, ?_, ?_⟩
  · rw [length_append, length, ← taken, ← length_append, taken, take_append_drop, bounced.length]
  · rw [← bounced.kept]
    exact drop_left' length
  · rw [readSector, bounced.length, if_pos fits, Nat.mod_eq_of_lt vol.sectorBlocks_lt, read]
  · intro readable
    rw [bytes readable, bounced.kept]

theorem readFatEntry_disk (cluster : Nat) (bounced : Bounced vol behind bus) :
    ∃ after, Bounced vol behind after ∧
      readFatEntry (disk.msc vol) vol cluster bus = (disk.fatEntry vol behind cluster).map fun entry => (entry, after) := by
  unfold readFatEntry Disk.fatEntry
  by_cases fits : vol.bytesPerSector ≤ BOUNCE_BYTES
  · obtain ⟨after, kept, read, bytes⟩ := readSector_disk disk (vol.fatLba_lt cluster) bounced fits
    refine ⟨after, kept, ?_⟩
    rw [if_pos fits, read]
    by_cases readable : disk.faults.readable (vol.fatLbaForCluster cluster).1 vol.deviceBlocksPerFsSector
    · rw [if_pos readable, readable]
      dsimp only
      rw [kept.length, bytes readable]
      split
      · rfl
      · rfl
    · rw [if_neg readable, Bool.eq_false_iff.mpr readable]
      rfl
  · refine ⟨bus, bounced, ?_⟩
    rw [if_neg fits, readSector_panics disk _ bounced fits, Option.map_none]

end Disk

/-! Disks with given bytes from a given block on. -/

def plant (vol : Fat32Volume) (lba : Nat) (bytes : List UInt8) (block index : Nat) : UInt8 :=
  bytes.getD ((block + 2 ^ 32 - lba) % 2 ^ 32 * vol.deviceBlockSize + index) 0

theorem plant_bytesFrom (vol : Fat32Volume) (small : lba < 2 ^ 32) (short : bytes.length < 2 ^ 16)
    (faults : Faults) :
    ((Disk.mk (plant vol lba bytes) faults).drive vol).bytesFrom lba bytes.length = bytes := by
  apply ext_getElem
  · exact bytesFrom_length lba bytes.length
  · intro index inside other
    have block : index / vol.deviceBlockSize < 2 ^ 32 := by
      have least := Nat.div_le_self index vol.deviceBlockSize
      omega
    have offset : ((lba + index / vol.deviceBlockSize) % 2 ^ 32 + 2 ^ 32 - lba) % 2 ^ 32 =
        index / vol.deviceBlockSize := by
      generalize index / vol.deviceBlockSize = far at block
      omega
    simp only [Drive.bytesFrom, Drive.byteFrom, Disk.drive, plant, getElem_map, getElem_range, offset]
    rw [Nat.mul_comm, Nat.div_add_mod, getD_eq_getElem?_getD, getElem?_eq_getElem other, Option.getD_some]

def Faults.none : Faults := fun _ _ => .none

theorem none_readable (lba count : Nat) : Faults.none.readable lba count = true := by
  rw [Faults.readable]
  split
  · rfl
  · rfl

theorem fatEntry_plant (place : vol.fatLbaForCluster cluster = (lba, offset)) (behind : List UInt8)
    (sector : bytes.length = vol.bytesPerSector) (fits : vol.bytesPerSector ≤ BOUNCE_BYTES)
    (inside : offset + 4 ≤ BOUNCE_BYTES) :
    (Disk.mk (plant vol lba bytes) Faults.none).fatEntry vol behind cluster =
      some (some (leU32 (bytes ++ behind) offset &&& 0x0fffffff)) := by
  have lbaSmall := vol.fatLba_lt cluster
  have small := vol.sectorSmall
  rw [place] at lbaSmall
  rw [← sector] at small
  rw [Disk.fatEntry, place, if_pos fits, if_pos (none_readable _ _), if_pos inside, ← sector,
    plant_bytesFrom vol lbaSmall small]

theorem leU32_append (behind : List UInt8) (inside : offset + 4 ≤ bytes.length) :
    leU32 (bytes ++ behind) offset = leU32 bytes offset := by
  rw [leU32, leU32, drop_append_of_le_length (by omega),
    take_append_of_le_length (by rw [length_drop]; omega)]

theorem fatEntry_within (place : vol.fatLbaForCluster cluster = (lba, offset)) (behind : List UInt8)
    (sector : bytes.length = vol.bytesPerSector) (fits : vol.bytesPerSector ≤ BOUNCE_BYTES)
    (inside : offset + 4 ≤ vol.bytesPerSector) :
    (Disk.mk (plant vol lba bytes) Faults.none).fatEntry vol behind cluster =
      some (some (leU32 bytes offset &&& 0x0fffffff)) := by
  rw [fatEntry_plant place behind sector fits (inside.trans fits), leU32_append behind (by omega)]

theorem fatLba_first (first : cluster * 4 < vol.bytesPerSector) :
    vol.fatLbaForCluster cluster = (vol.deviceLbaForFsSector vol.reservedSectors, cluster * 4) := by
  have small := vol.sectorSmall
  unfold Fat32Volume.fatLbaForCluster
  dsimp only
  rw [Nat.mod_eq_of_lt (show cluster * 4 < 2 ^ 32 by omega), Nat.mod_eq_of_lt first, Nat.div_eq_of_lt first, Nat.add_zero,
    vol.deviceLba_mod]

end HermitLocal.Usb.Fat32
