import HermitLocal.Usb.Fat32Range
import HermitLocal.Usb.Search

/-! Which file the search returns, against what GGUF files the directories hold. The search takes a
long name for that of a GGUF file when one of its pieces ends in `.gguf`, and it prefers whatever a
subdirectory gives, even a file that is only large, to the GGUF files of its parent. -/

namespace HermitLocal.Usb.GgufChoice
open Lib.Wire Usb.Fat32 Usb.PlainWalk List Option
open Usb.Search

def pieceChars (piece : List UInt8) : List Nat :=
  (LFN_OFFSETS.map (leU16 piece)).takeWhile fun ch => ch ≠ 0 && ch ≠ 0xffff

def longName (pieces : List (List UInt8)) : List Nat :=
  (pieces.filter fun piece => piece.getD 0 0 ≠ 0xe5).flatMap pieceChars

def lastFive (name : List Nat) : List Nat := name.drop (name.length - 5)

def endsInGguf (name : List Nat) : Bool := (lastFive name).map asciiLowerU16 = [0x2e, 0x67, 0x67, 0x75, 0x66]

section Gguf
variable (disk : Disk) (vol : Fat32Volume) (behind : List UInt8)

def isGguf (item : Listed) : Bool :=
  item.file.any fun file =>
    fat32EntryIsGguf item.entry || endsInGguf (longName item.pieces) || (decide (4 ≤ file.size) && hasMagic disk vol file)

def visited : Nat → Nat → List Directory
  | 0, startCluster => [directory disk vol behind startCluster]
  | deeper + 1, startCluster =>
      let dir := directory disk vol behind startCluster
      dir :: dir.subdirs.flatMap (visited deeper)

def GgufFile (file : Fat32File) : Prop :=
  ∃ dir ∈ visited disk vol behind 4 vol.rootCluster, ∃ item ∈ dir.listed, item.file = some file ∧ isGguf disk vol item = true

def decides (dir : Directory) : Bool :=
  dir.stops vol || (dir.firstRecognised disk vol).isSome || dir.largest.isSome

def Leads (dir : Directory) : Prop :=
  match dir.listed.find? (Listed.stops vol) with
  | some item => item.preferred = true
  | none => dir.broken = false ∧ ∃ file, dir.firstRecognised disk vol = some file ∧ GgufFile disk vol behind file

end Gguf

def PrefersGguf (disk : Disk) (vol : Fat32Volume) (bounce : List UInt8) : Prop :=
  (∃ file, GgufFile disk vol (bounce.drop vol.bytesPerSector) file) →
    ∃ found after, findGgufFileInFat32 (disk.msc vol) vol ⟨⟨(), bounce⟩, replicate vol.clusterBytes 0⟩ =
        some (some found, after) ∧
      found.reason ≠ .largest ∧ GgufFile disk vol (bounce.drop vol.bytesPerSector) found.file

section Choice
variable {disk : Disk} {vol : Fat32Volume} {behind : List UInt8}

theorem choice_isSome (dir : Directory) : (dir.choice disk vol).isSome = decides disk vol dir := by
  unfold Directory.choice decides Directory.stops
  cases dir.listed.find? (Listed.stops vol) with
  | some item => rfl
  | none =>
    cases dir.broken with
    | true => rfl
    | false =>
      cases dir.firstRecognised disk vol with
      | some file => rfl
      | none =>
        cases dir.largest with
        | some file | none => rfl

theorem findSome?_eq_bind {α β : Type} (choose : α → Option β) (items : List α) :
    items.findSome? choose = (items.find? fun item => (choose item).isSome).bind choose := by
  induction items with
  | nil => rfl
  | cons item rest ih =>
    rw [findSome?_cons, find?_cons]
    cases chosen : choose item with
    | none => exact ih
    | some value => exact chosen.symm

theorem order_visited (deeper startCluster : Nat) {dir : Directory} (listed : dir ∈ order disk vol behind deeper startCluster) :
    dir ∈ visited disk vol behind deeper startCluster := by
  induction deeper generalizing startCluster with
  | zero => exact listed
  | succ deeper ih =>
    rw [order] at listed
    split at listed
    · rw [mem_singleton.mp listed]
      exact mem_cons_self
    · rcases mem_append.mp listed with below | own
      · obtain ⟨child, inside, found⟩ := mem_flatMap.mp below
        exact mem_cons_of_mem _ (mem_flatMap.mpr ⟨child, inside, ih child found⟩)
      · rw [mem_singleton.mp own]
        exact mem_cons_self

theorem answer_eq_some {decided : Option (Option Found)} {found : Found} :
    answer decided = some (some found) ↔ decided = some (some found) := by
  cases decided with
  | none => exact iff_of_false nofun nofun
  | some verdict =>
    cases verdict with
    | none => exact iff_of_false nofun nofun
    | some other => exact Iff.rfl

theorem preferred_isGguf {item : Listed} {file : Fat32File} (accepted : item.file = some file)
    (preferred : item.preferred = true) : isGguf disk vol item = true := by
  rw [Listed.preferred, accepted, fat32EntryIsPreferredBitnetGguf] at preferred
  have short : fat32EntryIsGguf item.entry = true := by
    by_contra other
    rw [if_neg other] at preferred
    cases preferred
  rw [isGguf, accepted, any_some, short, Bool.true_or, Bool.true_or]

theorem preferred_file {item : Listed} (preferred : item.preferred = true) : ∃ file, item.file = some file :=
  isSome_iff_exists.mp (Bool.and_eq_true_iff.mp preferred).1

theorem leads_iff {dir : Directory} (inside : dir ∈ visited disk vol behind 4 vol.rootCluster) :
    Leads disk vol behind dir ↔
      ∃ found, dir.choice disk vol = some (some found) ∧ found.reason ≠ .largest ∧ GgufFile disk vol behind found.file := by
  unfold Leads
  cases passed : dir.listed.find? (Listed.stops vol) with
  | some item =>
    rw [choice_stopped passed]
    constructor
    · intro preferred
      obtain ⟨file, accepted⟩ := preferred_file preferred
      refine ⟨⟨file, .preferred⟩, ?_, Reason.noConfusion, dir, inside, item, mem_of_find?_eq_some passed, accepted,
        preferred_isGguf accepted preferred⟩
      rw [if_pos preferred, accepted, map_some]
    · rintro ⟨found, chosen, _⟩
      by_contra other
      rw [if_neg other] at chosen
      cases chosen
  | none =>
    cases broken : dir.broken with
    | true =>
      rw [choice_broken passed broken]
      exact iff_of_false (by rintro ⟨sound, _⟩; cases sound) (by rintro ⟨_, chosen, _⟩; cases chosen)
    | false =>
      rw [Directory.choice, passed]
      rw [if_neg (Bool.eq_false_iff.mp broken)]
      cases recognised : dir.firstRecognised disk vol with
      | some file =>
        constructor
        · rintro ⟨_, other, same, gguf⟩
          cases same
          exact ⟨_, rfl, Reason.noConfusion, gguf⟩
        · rintro ⟨found, chosen, _, gguf⟩
          cases chosen
          exact ⟨rfl, file, rfl, gguf⟩
      | none =>
        constructor
        · rintro ⟨_, file, impossible, _⟩
          cases impossible
        · rintro ⟨found, chosen, reason, _⟩
          obtain ⟨file, _, same⟩ := map_eq_some_iff.mp chosen
          cases same
          exact absurd rfl reason

end Choice

theorem parse_wide {baseLba : Nat} {bootSector : List UInt8} {vol : Fat32Volume}
    (accepted : parseFat32Volume baseLba bootSector.length bootSector = some vol) : 512 ≤ vol.deviceBlockSize := by
  have fields := Fat32Range.parse_accepted accepted
  rw [fields.block]
  exact fields.header

/-- GGUF files are preferred exactly when the first directory that decides leads to one. -/
theorem prefers_gguf_iff {baseLba : Nat} {bootSector : List UInt8} {vol : Fat32Volume}
    (accepted : parseFat32Volume baseLba bootSector.length bootSector = some vol) {disk : Disk}
    (healthy : ∀ lba count, disk.faults.readable lba count = true) {bounce : List UInt8}
    (sized : bounce.length = BOUNCE_BYTES) : PrefersGguf disk vol bounce ↔
      (¬∃ file, GgufFile disk vol (bounce.drop vol.bytesPerSector) file) ∨
        ∃ dir, (order disk vol (bounce.drop vol.bytesPerSector) 4 vol.rootCluster).find? (decides disk vol) = some dir ∧
          Leads disk vol (bounce.drop vol.bytesPerSector) dir := by
  obtain ⟨after, _, told⟩ := findDir_disk healthy (parse_wide accepted) 4 vol.rootCluster
    ⟨⟨(), bounce⟩, replicate vol.clusterBytes 0⟩ ⟨⟨sized, rfl⟩, length_replicate⟩
  rw [findSome?_eq_bind, funext choice_isSome] at told
  unfold PrefersGguf findGgufFileInFat32
  rw [told]
  have listed (dir : Directory) := mem_of_find?_eq_some
    (l := order disk vol (bounce.drop vol.bytesPerSector) 4 vol.rootCluster) (p := decides disk vol) (a := dir)
  generalize (order disk vol (bounce.drop vol.bytesPerSector) 4 vol.rootCluster).find? (decides disk vol) = first at listed ⊢
  by_cases gguf : ∃ file, GgufFile disk vol (bounce.drop vol.bytesPerSector) file
  · constructor
    · intro prefers
      obtain ⟨found, last, returned, reason, good⟩ := prefers gguf
      cases first with
      | none => cases returned
      | some dir =>
        refine .inr ⟨dir, rfl, (leads_iff (order_visited _ _ (listed dir rfl))).mpr ⟨found, ?_, reason, good⟩⟩
        obtain ⟨result, told', same⟩ := map_eq_some_iff.mp returned
        cases same
        exact answer_eq_some.mp told'
    · rintro (nothing | ⟨dir, same, leads⟩)
      · exact absurd gguf nothing
      · intro _
        cases same
        obtain ⟨found, chosen, reason, good⟩ := (leads_iff (order_visited _ _ (listed dir rfl))).mp leads
        refine ⟨found, after, ?_, reason, good⟩
        rw [bind_some, chosen]
        rfl
  · exact iff_of_true (fun some => absurd some gguf) (.inl gguf)

def treeVolume : Fat32Volume where
  baseLba := 2048
  deviceBlockSize := 512
  bytesPerSector := 512
  deviceBlocksPerFsSector := 1
  sectorsPerCluster := 1
  reservedSectors := 32
  numFats := 2
  fatSizeSectors := 0x200000
  rootCluster := 2
  dataStartLba := 4196384
  blockPositive := by decide
  sectorPositive := by decide
  sectorSmall := by decide
  wholeBlocks := by decide
  clusterPositive := by decide
  clusterSmall := by decide
  rootData := by decide

theorem treeVolume_accepted : parseFat32Volume 2048 narrowBoot.length narrowBoot = some treeVolume := by
  unfold parseFat32Volume
  rw [if_neg (by decide +kernel)]
  rw [dif_neg (by decide +kernel), some_inj, Fat32Volume.mk.injEq]
  refine ⟨rfl, ?_, ?_, ?_, ?_, ?_, ?_, ?_, ?_, ?_⟩
  all_goals decide +kernel

def dirEntry (name : String) (attr : UInt8) (cluster size : Nat) : List UInt8 :=
  ascii name ++ [attr] ++ replicate 8 0 ++ leBytes 2 (cluster / 2 ^ 16) ++ replicate 4 0 ++
    leBytes 2 cluster ++ leBytes 4 size

def treeBytes : List UInt8 :=
  dirEntry "FILMS      " 0x10 3 0 ++ dirEntry "MODEL   GGU" 0x20 5 1000 ++ replicate 448 0 ++
    dirEntry "FILM    MP4" 0x20 6 0x40000001 ++ replicate 480 0

def treeDisk : Disk := ⟨plant treeVolume (treeVolume.firstDeviceLbaOfCluster 2) treeBytes, Faults.none⟩

theorem prefers_gguf_iff_tree : PrefersGguf treeDisk treeVolume (replicate BOUNCE_BYTES 0) ↔
      (¬∃ file, GgufFile treeDisk treeVolume ((replicate BOUNCE_BYTES 0).drop treeVolume.bytesPerSector) file) ∨
        ∃ dir, (order treeDisk treeVolume ((replicate BOUNCE_BYTES 0).drop treeVolume.bytesPerSector) 4
            treeVolume.rootCluster).find? (decides treeDisk treeVolume) = some dir ∧
          Leads treeDisk treeVolume ((replicate BOUNCE_BYTES 0).drop treeVolume.bytesPerSector) dir :=
  prefers_gguf_iff treeVolume_accepted none_readable length_replicate

theorem tree_holds_gguf :
    ((visited treeDisk treeVolume ((replicate BOUNCE_BYTES 0).drop treeVolume.bytesPerSector) 4 2).any fun dir =>
      dir.listed.any fun item => item.file.isSome && isGguf treeDisk treeVolume item) = true := by
  decide +kernel

theorem tree_decided :
    ((order treeDisk treeVolume ((replicate BOUNCE_BYTES 0).drop treeVolume.bytesPerSector) 4 2).findSome?
      (Directory.choice treeDisk treeVolume)).map (·.map fun found => (found.file.firstCluster, found.reason)) =
        some (some (6, Reason.largest)) := by
  decide +kernel

theorem tree_other_files :
    ((visited treeDisk treeVolume ((replicate BOUNCE_BYTES 0).drop treeVolume.bytesPerSector) 4 2).all fun dir =>
      dir.listed.all fun item => item.file.all fun file => !(file.firstCluster == 6 && isGguf treeDisk treeVolume item)) =
        true := by
  decide +kernel

theorem large_file_before_gguf : parseFat32Volume 2048 narrowBoot.length narrowBoot = some treeVolume ∧
    (∃ file, GgufFile treeDisk treeVolume ((replicate BOUNCE_BYTES 0).drop treeVolume.bytesPerSector) file) ∧
    ∃ found after, findGgufFileInFat32 (treeDisk.msc treeVolume) treeVolume
        ⟨⟨(), replicate BOUNCE_BYTES 0⟩, replicate treeVolume.clusterBytes 0⟩ = some (some found, after) ∧
      found.reason = .largest ∧
      ¬GgufFile treeDisk treeVolume ((replicate BOUNCE_BYTES 0).drop treeVolume.bytesPerSector) found.file := by
  refine ⟨treeVolume_accepted, ?_, ?_⟩
  · obtain ⟨dir, inside, holds⟩ := any_eq_true.mp tree_holds_gguf
    obtain ⟨item, listed, gguf⟩ := any_eq_true.mp holds
    obtain ⟨accepted, gguf⟩ := Bool.and_eq_true_iff.mp gguf
    obtain ⟨file, accepted⟩ := isSome_iff_exists.mp accepted
    exact ⟨file, dir, inside, item, listed, accepted, gguf⟩
  · have healthy : ∀ lba count, treeDisk.faults.readable lba count = true := none_readable
    obtain ⟨after, _, told⟩ := findDir_disk healthy (parse_wide treeVolume_accepted) 4 2
      ⟨⟨(), replicate BOUNCE_BYTES 0⟩, replicate treeVolume.clusterBytes 0⟩
      ⟨⟨length_replicate, rfl⟩, length_replicate⟩
    obtain ⟨verdict, decided, same⟩ := map_eq_some_iff.mp tree_decided
    obtain ⟨found, rfl, named⟩ := map_eq_some_iff.mp same
    obtain ⟨cluster, reason⟩ := Prod.mk.inj named
    rw [decided] at told
    refine ⟨found, after, told, reason, ?_⟩
    rintro ⟨dir, inside, item, listed, accepted, gguf⟩
    have other := all_eq_true.mp (all_eq_true.mp tree_other_files dir inside) item listed
    rw [accepted, all_some, cluster, gguf] at other
    cases other

end HermitLocal.Usb.GgufChoice
