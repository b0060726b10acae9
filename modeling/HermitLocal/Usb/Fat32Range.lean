import HermitLocal.Usb.Ingest

/-! The block addresses of a FAT32 volume, computed in 32 bits, against the same addresses
computed in integers. The boot sector is checked for zeros, but not for sizes. -/

namespace HermitLocal.Usb.Fat32Range
open Lib.Wire Usb.Fat32 Usb.Ingest

section Volume
variable (vol : Fat32Volume)

def dataStartSector : Nat := vol.reservedSectors + vol.numFats * vol.fatSizeSectors

def dataSector (cluster : Nat) : Nat := dataStartSector vol + (cluster - 2) * vol.sectorsPerCluster

def fatSector (cluster : Nat) : Nat := vol.reservedSectors + cluster * 4 / vol.bytesPerSector

def exactLba (fsSector : Nat) : Nat := vol.baseLba + fsSector * vol.deviceBlocksPerFsSector

structure Exact (cluster : Nat) : Prop where
  dataStart : vol.dataStartLba = exactLba vol (dataStartSector vol)
  dataLba : vol.deviceLbaForFsSector (dataSector vol cluster) = exactLba vol (dataSector vol cluster)
  fatLba : vol.deviceLbaForFsSector (fatSector vol cluster) = exactLba vol (fatSector vol cluster)
  first : vol.firstDeviceLbaOfCluster cluster = exactLba vol (dataSector vol cluster)
  entry : vol.fatLbaForCluster cluster = (exactLba vol (fatSector vol cluster), cluster * 4 % vol.bytesPerSector)

end Volume

structure Accepted (baseLba deviceBlockSize : Nat) (bootSector : List UInt8) (vol : Fat32Volume) : Prop where
  header : 512 ≤ bootSector.length
  base : vol.baseLba = baseLba
  block : vol.deviceBlockSize = deviceBlockSize
  fats : 0 < vol.numFats
  fatSize : 0 < vol.fatSizeSectors
  dataStart : vol.dataStartLba = exactLba vol (dataStartSector vol) % 2 ^ 32

theorem parse_accepted {baseLba deviceBlockSize : Nat} {bootSector : List UInt8} {vol : Fat32Volume}
    (accepted : parseFat32Volume baseLba deviceBlockSize bootSector = some vol) :
    Accepted baseLba deviceBlockSize bootSector vol := by
  unfold parseFat32Volume at accepted
  split at accepted
  · cases accepted
  next header =>
    dsimp only at accepted
    split at accepted
    · cases accepted
    next checked =>
      cases accepted
      constructor
      · exact Nat.not_lt.mp fun short => header (.inl short)
      · rfl
      · rfl
      · dsimp only
        omega
      · dsimp only
        omega
      · rfl

section Range
variable {vol : Fat32Volume} {fsSector later : Nat}

theorem deviceLba_exact_iff : vol.deviceLbaForFsSector fsSector = exactLba vol fsSector ↔ exactLba vol fsSector < 2 ^ 32 := by
  constructor
  · intro exact
    rw [← exact]
    exact vol.deviceLba_lt fsSector
  · exact Nat.mod_eq_of_lt

theorem exactLba_mono (before : fsSector ≤ later) : exactLba vol fsSector ≤ exactLba vol later :=
  Nat.add_le_add_left (Nat.mul_le_mul_right _ before) _

theorem sector_le_exactLba (fsSector : Nat) : fsSector ≤ exactLba vol fsSector := by
  have positive : 0 < vol.deviceBlocksPerFsSector := by
    have := vol.sectorPositive
    rw [vol.wholeBlocks] at this
    exact Nat.pos_of_mul_pos_right this
  calc
    fsSector ≤ fsSector * vol.deviceBlocksPerFsSector := Nat.le_mul_of_pos_right _ positive
    _ ≤ exactLba vol fsSector := Nat.le_add_left _ _

theorem fatSector_le_dataSector {cluster : Nat} (data : 2 ≤ cluster) (wide : 512 ≤ vol.deviceBlockSize) :
    fatSector vol cluster ≤ dataSector vol cluster := by
  have clusters : cluster - 2 ≤ (cluster - 2) * vol.sectorsPerCluster := Nat.le_mul_of_pos_right _ vol.clusterPositive
  have small : cluster * 4 / vol.bytesPerSector ≤ cluster * 4 / 512 := Nat.div_le_div_left (vol.sector_large wide) (by decide)
  unfold fatSector dataSector dataStartSector
  omega

end Range

/-- The addresses of a cluster are exact exactly if its first block fits 32 bits. -/
theorem fat32_exact_iff {baseLba deviceBlockSize : Nat} {bootSector : List UInt8} {vol : Fat32Volume}
    (accepted : parseFat32Volume baseLba deviceBlockSize bootSector = some vol) (wide : 512 ≤ deviceBlockSize) {cluster : Nat}
    (data : IsData cluster) :
    Exact vol cluster ↔ baseLba + (vol.reservedSectors + vol.numFats * vol.fatSizeSectors +
      (cluster - 2) * vol.sectorsPerCluster) * vol.deviceBlocksPerFsSector < 2 ^ 32 := by
  have fields := parse_accepted accepted
  have lba : baseLba + (vol.reservedSectors + vol.numFats * vol.fatSizeSectors + (cluster - 2) * vol.sectorsPerCluster) *
      vol.deviceBlocksPerFsSector = exactLba vol (dataSector vol cluster) := by
    rw [← fields.base]
    rfl
  rw [lba]
  constructor
  · intro exact
    exact deviceLba_exact_iff.mp exact.dataLba
  · intro fits
    rw [← fields.block] at wide
    have fatFits := Nat.lt_of_le_of_lt (exactLba_mono (fatSector_le_dataSector data.1 wide)) fits
    have startFits := Nat.lt_of_le_of_lt (exactLba_mono (Nat.le_add_right (dataStartSector vol) _)) fits
    have sectorFits := Nat.lt_of_le_of_lt (sector_le_exactLba (dataSector vol cluster)) fits
    have fatSectorFits := Nat.lt_of_le_of_lt (sector_le_exactLba (fatSector vol cluster)) fatFits
    constructor
    · rw [fields.dataStart, Nat.mod_eq_of_lt startFits]
    · exact deviceLba_exact_iff.mpr fits
    · exact deviceLba_exact_iff.mpr fatFits
    · change vol.deviceLbaForFsSector (dataSector vol cluster % 2 ^ 32) = _
      rw [Nat.mod_eq_of_lt sectorFits]
      exact deviceLba_exact_iff.mpr fits
    · have offset : cluster * 4 % 2 ^ 32 = cluster * 4 := Nat.mod_eq_of_lt (by have := data.2; omega)
      unfold Fat32Volume.fatLbaForCluster
      rw [offset]
      change (vol.deviceLbaForFsSector (fatSector vol cluster % 2 ^ 32), _) = _
      rw [Nat.mod_eq_of_lt fatSectorFits, deviceLba_exact_iff.mpr fatFits]

theorem fat32_exact_wide : ∃ vol, parseFat32Volume 2048 512 wideBoot = some vol ∧ Exact vol 3 := by
  have parsed : ∃ vol, parseFat32Volume 2048 512 wideBoot = some vol ∧
      2048 + (vol.reservedSectors + vol.numFats * vol.fatSizeSectors + (3 - 2) * vol.sectorsPerCluster) *
        vol.deviceBlocksPerFsSector < 2 ^ 32 := by
    unfold parseFat32Volume
    rw [if_neg (by decide +kernel)]
    rw [dif_neg (by decide +kernel)]
    exact ⟨_, rfl, by decide +kernel⟩
  obtain ⟨vol, accepted, fits⟩ := parsed
  exact ⟨vol, accepted, (fat32_exact_iff accepted (by decide) (by decide)).mpr fits⟩

def hugeBoot : List UInt8 :=
  List.replicate 11 0 ++ [0x00, 0x02, 1, 32, 0, 2] ++ List.replicate 19 0 ++ leBytes 4 0x80000000 ++ List.replicate 4 0 ++
    leBytes 4 2 ++ List.replicate 34 0 ++ ascii "FAT32   " ++ List.replicate 420 0 ++ [0x55, 0xaa]

theorem hugeBoot_wraps : ∃ vol, parseFat32Volume 2048 512 hugeBoot = some vol ∧ vol.dataStartLba = 2080 ∧
    vol.firstDeviceLbaOfCluster 2 = 2080 ∧ vol.fatLbaForCluster 2 = (2080, 8) ∧ exactLba vol (dataSector vol 2) = 2080 + 2 ^ 32 ∧
    ¬Exact vol 2 := by
  have parsed : ∃ vol, parseFat32Volume 2048 512 hugeBoot = some vol ∧ vol.dataStartLba = 2080 ∧
      vol.firstDeviceLbaOfCluster 2 = 2080 ∧ vol.fatLbaForCluster 2 = (2080, 8) ∧
      exactLba vol (dataSector vol 2) = 2080 + 2 ^ 32 := by
    unfold parseFat32Volume
    rw [if_neg (by decide +kernel)]
    exact ⟨_, rfl, by decide +kernel, by decide +kernel, by decide +kernel, by decide +kernel⟩
  obtain ⟨vol, accepted, start, first, fat, exact⟩ := parsed
  refine ⟨vol, accepted, start, first, fat, exact, ?_⟩
  intro all
  rw [all.first, exact] at first
  cases first

end HermitLocal.Usb.Fat32Range
