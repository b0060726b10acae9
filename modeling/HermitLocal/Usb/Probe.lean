import HermitLocal.Usb.Fat32Range
import HermitLocal.Usb.Search

/-! The way of a mass storage device from READ CAPACITY to the loaded file. All single blocks and sectors
go through one bounce buffer of 4096 bytes; the lengths of its slices are the block size that the
device reports and the sector size of its volume. -/

namespace HermitLocal.Usb.Probe
open Lib.Wire Usb.ReadSectors Usb.Fat32 Usb.Ingest Usb.PlainWalk List Option
open Usb.Search Usb.Fat32Range

def USB_DEFAULT_DEVICE_BLOCK_SIZE : Nat := 512

def deviceBlockSize (capacity : Option UInt32) : Nat := (capacity.map UInt32.toNat).getD USB_DEFAULT_DEVICE_BLOCK_SIZE

inductive Probed where
  | fat (vol : Fat32Volume) (file : Fat32File)
  | raw (startLba : Nat)
  | nothing

structure Outcome (α : Type) where
  volumes : List Fat32Volume
  result : Option α

def candidates (partType : UInt8) (partStart : Nat) : List Nat :=
  (if (partType = 0x0b ∨ partType = 0x0c) ∧ 0 < partStart then [partStart] else []) ++ [2048]

section Probe
variable {δ : Type} (msc : Msc δ) (blockSize : Nat)

def readBlock (lba : Nat) (bus : Bus δ) : Option (Bool × Bus δ) :=
  if blockSize ≤ bus.sectorBuf.length then
    let reading := readDeviceSectors msc lba 1 (bus.sectorBuf.take blockSize) bus.device
    some (reading.ok, ⟨reading.state, reading.buf ++ bus.sectorBuf.drop blockSize⟩)
  else none

def probeCandidates : List Nat → Bus δ → Outcome (Probed × Bus δ)
  | [], bus => ⟨[], some (.nothing, bus)⟩
  | baseLba :: rest, bus =>
      match readBlock msc blockSize baseLba bus with
      | none => ⟨[], none⟩
      | some (false, bus) => probeCandidates rest bus
      | some (true, bus) =>
          if bus.sectorBuf.take 4 = ascii "GGUF" then ⟨[], some (.raw baseLba, bus)⟩
          else
            match parseFat32Volume baseLba blockSize (bus.sectorBuf.take blockSize) with
            | none => probeCandidates rest bus
            | some vol =>
                match findGgufFileInFat32 msc vol ⟨bus, replicate vol.clusterBytes 0⟩ with
                | none => ⟨[vol], none⟩
                | some (some found, buffers) => ⟨[vol], some (.fat vol found.file, buffers.bus)⟩
                | some (none, buffers) =>
                    let later := probeCandidates rest buffers.bus
                    ⟨vol :: later.volumes, later.result⟩

def probe (bus : Bus δ) : Outcome (Probed × Bus δ) :=
  match readBlock msc blockSize 0 bus with
  | none => ⟨[], none⟩
  | some (true, bus) => probeCandidates msc blockSize (candidates (bus.sectorBuf.getD 450 0) (leU32 bus.sectorBuf 454)) bus
  | some (false, bus) => probeCandidates msc blockSize (candidates 0 0) bus

def load (heap : Heap) : Probed × Bus δ → Option Probed
  | (.fat vol file, bus) => (ingestFile msc vol file bus heap).1.map fun _ => .fat vol file
  | (other, _) => some other

def usbIngest (bus : Bus δ) (heap : Heap) : Outcome Probed :=
  ⟨(probe msc blockSize bus).volumes, (probe msc blockSize bus).result.bind (load msc heap)⟩

end Probe

def Fits (vol : Fat32Volume) : Prop := vol.bytesPerSector ≤ BOUNCE_BYTES ∧ vol.bytesPerSector ≠ 4095

def InBounds (vol : Fat32Volume) : Prop := IsData vol.rootCluster → Fits vol

def Presentable (blockSize : Nat) (vol : Fat32Volume) : Prop :=
  ∃ baseLba bootSector, 0 < baseLba ∧ baseLba < 2 ^ 32 ∧ bootSector.length = blockSize ∧ bootSector.take 4 ≠ ascii "GGUF" ∧
    parseFat32Volume baseLba blockSize bootSector = some vol

/-! Volumes that fit: no step panics, and each keeps the length of the buffer. -/

def Whole {δ : Type} (bus : Bus δ) : Prop := bus.sectorBuf.length = BOUNCE_BYTES

def Goes {δ α : Type} (bus : α → Bus δ) (step : Option α) : Prop := ∃ after, step = some after ∧ Whole (bus after)

variable {blockSize : Nat} {vol : Fat32Volume} {δ : Type}

section Goes
variable {δ : Type} (msc : Msc δ) {vol : Fat32Volume} {bus : Bus δ}

theorem whole_read (lba count : Nat) {length : Nat} (whole : Whole bus) :
    Whole (Bus.mk (readDeviceSectors msc lba count (bus.sectorBuf.take length) bus.device).state
      ((readDeviceSectors msc lba count (bus.sectorBuf.take length) bus.device).buf ++ bus.sectorBuf.drop length)) := by
  unfold Whole
  rw [length_append, readDeviceSectors_length, ← length_append, take_append_drop]
  exact whole

theorem readBlock_goes (small : blockSize ≤ BOUNCE_BYTES) (lba : Nat) (whole : Whole bus) :
    Goes Prod.snd (readBlock msc blockSize lba bus) := by
  have fits : blockSize ≤ bus.sectorBuf.length := by rwa [show bus.sectorBuf.length = _ from whole]
  unfold readBlock
  rw [if_pos fits]
  exact ⟨_, rfl, whole_read msc lba 1 whole⟩

variable (fits : Fits vol)

include fits

theorem readSector_goes (lba : Nat) (whole : Whole bus) : Goes Prod.snd (readSector msc vol lba bus) := by
  have inside : vol.bytesPerSector ≤ bus.sectorBuf.length := by
    rw [show bus.sectorBuf.length = _ from whole]
    exact fits.1
  unfold readSector
  rw [if_pos inside]
  exact ⟨_, rfl, whole_read msc lba _ whole⟩

theorem magic_goes (file : Fat32File) (whole : Whole bus) : Goes Prod.snd (fat32FileHasGgufMagic msc vol file bus) := by
  obtain ⟨⟨ok, after⟩, read, kept⟩ := readSector_goes msc fits (vol.firstDeviceLbaOfCluster file.firstCluster) whole
  unfold fat32FileHasGgufMagic
  rw [read]
  exact ⟨_, rfl, kept⟩

theorem readFatEntry_goes (cluster : Nat) (whole : Whole bus) : Goes Prod.snd (readFatEntry msc vol cluster bus) := by
  obtain ⟨⟨ok, after⟩, read, kept⟩ := readSector_goes msc fits (vol.fatLbaForCluster cluster).1 whole
  have inside := fatOffset_inside fits.1 fits.2 cluster
  unfold readFatEntry
  rw [read]
  cases ok with
  | false => exact ⟨_, rfl, kept⟩
  | true =>
    dsimp only
    rw [if_pos (by rwa [show after.sectorBuf.length = _ from kept])]
    exact ⟨_, rfl, kept⟩

theorem scanEntries_goes (depth : Nat) (entries : List (List UInt8)) (pending : Bool) (scan : Scan) (whole : Whole bus) :
    Goes Prod.snd (scanEntries msc vol depth entries pending scan bus) := by
  induction entries generalizing pending scan bus with
  | nil => exact ⟨_, rfl, whole⟩
  | cons entry rest ih =>
    unfold scanEntries
    split
    · exact ⟨_, rfl, whole⟩
    · split
      · exact ih _ _ whole
      · cases fat32FileFromEntry entry with
        | none => exact ih _ _ whole
        | some file =>
          dsimp only
          split
          · exact ⟨_, rfl, whole⟩
          · obtain ⟨⟨magic, after⟩, checked, kept⟩ := magic_goes msc fits file whole
            rw [checked]
            exact ih _ _ kept

theorem scanChain_goes (depth left cluster : Nat) (pending : Bool) (scan : Scan) {buffers : Buffers δ}
    (whole : Whole buffers.bus) :
    Goes (fun after => after.2.bus) (scanChain msc vol depth left cluster pending scan buffers) := by
  induction left generalizing cluster pending scan buffers with
  | zero => exact ⟨_, rfl, whole⟩
  | succ left ih =>
    unfold scanChain
    split
    · generalize readDeviceSectors msc (vol.firstDeviceLbaOfCluster cluster) vol.clusterDeviceBlocks
        (buffers.clusterBuf.take vol.clusterBytes) buffers.bus.device = reading
      dsimp only
      split
      · have start : Whole (Bus.mk reading.state buffers.bus.sectorBuf) := whole
        obtain ⟨⟨scanned, bus⟩, walked, kept⟩ := scanEntries_goes msc fits depth (chunksExact 32 reading.buf) pending scan start
        rw [walked]
        cases scanned with
        | found file | ended scan => exact ⟨_, rfl, kept⟩
        | more pending scan =>
          obtain ⟨⟨entry, after⟩, looked, same⟩ := readFatEntry_goes msc fits cluster kept
          dsimp only
          rw [looked]
          cases entry with
          | none => exact ⟨_, rfl, same⟩
          | some next => exact ih _ _ _ same
      · exact ⟨_, rfl, whole⟩
    · exact ⟨_, rfl, whole⟩

def SearchGoes (search : List Nat → Buffers δ → Option (Option Found × Buffers δ)) : Prop :=
  ∀ dirs buffers, Whole buffers.bus → Goes (fun after => after.2.bus) (search dirs buffers)

theorem searchDir_goes (depth : Nat) {search : List Nat → Buffers δ → Option (Option Found × Buffers δ)}
    (below : SearchGoes search) (startCluster : Nat) {buffers : Buffers δ} (whole : Whole buffers.bus) :
    Goes (fun after => after.2.bus) (searchDir msc vol depth search startCluster buffers) := by
  unfold searchDir
  split
  · exact ⟨_, rfl, whole⟩
  · obtain ⟨⟨chain, after⟩, walked, kept⟩ := scanChain_goes msc fits depth 4096 startCluster false ⟨none, none, []⟩ whole
    rw [walked]
    cases chain with
    | returned result => exact ⟨_, rfl, kept⟩
    | scanned scan =>
      obtain ⟨⟨found, last⟩, searched, same⟩ := below scan.subdirs after kept
      dsimp only
      rw [searched]
      cases found with
      | some found | none => exact ⟨_, rfl, same⟩

omit fits in
theorem searchSubdirs_goes {find : Nat → Buffers δ → Option (Option Found × Buffers δ)}
    (each : ∀ dir buffers, Whole buffers.bus → Goes (fun after => after.2.bus) (find dir buffers)) :
    SearchGoes (searchSubdirs find) := by
  intro dirs
  induction dirs with
  | nil => exact fun buffers whole => ⟨_, rfl, whole⟩
  | cons dir rest ih =>
    intro buffers whole
    obtain ⟨⟨found, after⟩, searched, kept⟩ := each dir buffers whole
    unfold searchSubdirs
    rw [searched]
    cases found with
    | some found => exact ⟨_, rfl, kept⟩
    | none => exact ih after kept

theorem findDir_goes (deeper startCluster : Nat) (buffers : Buffers δ) (whole : Whole buffers.bus) :
    Goes (fun after => after.2.bus) (findGgufFileInFat32Dir msc vol deeper startCluster buffers) := by
  induction deeper generalizing startCluster buffers with
  | zero => exact searchDir_goes msc fits 4 (fun _ buffers whole => ⟨_, rfl, whole⟩) startCluster whole
  | succ deeper ih => exact searchDir_goes msc fits (3 - deeper) (searchSubdirs_goes ih) startCluster whole

theorem absorb_goes (file : Fat32File) (copied : Nat) (run : Run) (whole : Whole bus) :
    Goes Prod.snd (absorb msc vol file copied run bus) := by
  fun_induction absorb msc vol file copied run bus with
  | case1 run bus _ next _ _ panics =>
    obtain ⟨after, looked, _⟩ := readFatEntry_goes msc fits next whole
    rw [looked] at panics
    cases panics
  | case2 run bus _ next _ _ entry after looked ih =>
    obtain ⟨pair, same, kept⟩ := readFatEntry_goes msc fits next whole
    rw [looked] at same
    rw [← some.inj same] at kept
    exact ih kept
  | case3 | case4 | case5 => exact ⟨_, rfl, whole⟩

theorem scanRun_goes (file : Fat32File) (copied cluster : Nat) (whole : Whole bus) :
    Goes Prod.snd (scanRun msc vol file copied cluster bus) := by
  obtain ⟨⟨next, after⟩, looked, kept⟩ := readFatEntry_goes msc fits cluster whole
  unfold scanRun
  rw [looked]
  exact absorb_goes msc fits file copied _ kept

theorem ingestLoop_goes (file : Fat32File) (cluster copied : Nat) (loading : Loading δ) (whole : Whole loading.bus) :
    (ingestLoop msc vol file cluster copied loading).1 ≠ none := by
  fun_induction ingestLoop msc vol file cluster copied loading with
  | case1 cluster copied loading _ panics =>
    obtain ⟨after, scanned, _⟩ := scanRun_goes msc fits file copied cluster whole
    rw [scanned] at panics
    cases panics
  | case2 cluster copied loading _ run bus scanned read _ copied' _ next _ ih =>
    obtain ⟨pair, same, kept⟩ := scanRun_goes msc fits file copied cluster whole
    rw [scanned] at same
    rw [← some.inj same] at kept
    exact ih kept
  | case4 cluster copied loading _ run bus scanned read _ copied' _ ih =>
    obtain ⟨pair, same, kept⟩ := scanRun_goes msc fits file copied cluster whole
    rw [scanned] at same
    rw [← some.inj same] at kept
    exact ih kept
  | case3 | case5 | case6 => simp

end Goes

/-! The probe of a device whose volumes are in bounds. -/

theorem find_no_root (msc : Msc δ) (noRoot : ¬IsData vol.rootCluster) (bus : Bus δ) :
    findGgufFileInFat32 msc vol ⟨bus, replicate vol.clusterBytes 0⟩ =
      some (none, ⟨bus, replicate vol.clusterBytes 0⟩) := by
  unfold findGgufFileInFat32 findGgufFileInFat32Dir searchDir
  rw [if_neg (by rw [length_replicate]; exact Nat.lt_irrefl _)]
  unfold scanChain
  rw [if_neg noRoot]
  rfl

theorem find_goes (msc : Msc δ) (bounded : InBounds vol) {bus : Bus δ} (whole : Whole bus) :
    ∃ after, findGgufFileInFat32 msc vol ⟨bus, replicate vol.clusterBytes 0⟩ = some after ∧ Whole after.2.bus ∧
      (after.1.isSome → Fits vol) := by
  by_cases root : IsData vol.rootCluster
  · obtain ⟨after, searched, kept⟩ := findDir_goes msc (bounded root) 4 vol.rootCluster
      ⟨bus, replicate vol.clusterBytes 0⟩ whole
    exact ⟨after, searched, kept, fun _ => bounded root⟩
  · exact ⟨_, find_no_root msc root bus, whole, fun some => by cases some⟩

def Ready {δ : Type} : Probed × Bus δ → Prop
  | (.fat vol _, bus) => Fits vol ∧ Whole bus
  | (_, _) => True

section InBounds
variable {δ : Type} (msc : Msc δ) {blockSize : Nat} (small : blockSize ≤ BOUNCE_BYTES) {presented : Fat32Volume → Prop}
  (inBounds : ∀ vol, Presentable blockSize vol → presented vol → InBounds vol)

theorem candidates_place (partType : UInt8) {partStart : Nat} (below : partStart < 2 ^ 32) :
    ∀ baseLba ∈ candidates partType partStart, 0 < baseLba ∧ baseLba < 2 ^ 32 := by
  intro baseLba inside
  rcases mem_append.mp inside with first | second
  · split at first
    next partition =>
      rw [mem_singleton.mp first]
      exact ⟨partition.2, below⟩
    · cases first
  · rw [mem_singleton.mp second]
    decide

include small

variable {bus : Bus δ}

theorem presentable_of_parsed {baseLba : Nat} (whole : Whole bus) (place : 0 < baseLba ∧ baseLba < 2 ^ 32)
    (notRaw : bus.sectorBuf.take 4 ≠ ascii "GGUF")
    (parsed : parseFat32Volume baseLba blockSize (bus.sectorBuf.take blockSize) = some vol) : Presentable blockSize vol := by
  refine ⟨baseLba, bus.sectorBuf.take blockSize, place.1, place.2, ?_, ?_, parsed⟩
  · rw [length_take, show bus.sectorBuf.length = _ from whole]
    exact Nat.min_eq_left small
  · have header := (parse_accepted parsed).header
    rw [length_take] at header
    rwa [take_take, Nat.min_eq_left (by omega)]

include inBounds

theorem probeCandidates_ready {places : List Nat} (place : ∀ baseLba ∈ places, 0 < baseLba ∧ baseLba < 2 ^ 32)
    (whole : Whole bus) (listed : ∀ vol ∈ (probeCandidates msc blockSize places bus).volumes, presented vol) :
    ∃ last, (probeCandidates msc blockSize places bus).result = some last ∧ Ready last := by
  induction places generalizing bus with
  | nil => exact ⟨_, rfl, trivial⟩
  | cons baseLba rest ih =>
    have places : ∀ other ∈ rest, 0 < other ∧ other < 2 ^ 32 := fun other inside => place other (mem_cons_of_mem _ inside)
    obtain ⟨⟨ok, after⟩, read, kept⟩ := readBlock_goes msc small baseLba whole
    unfold probeCandidates at listed ⊢
    rw [read] at listed ⊢
    cases ok with
    | false => exact ih places kept listed
    | true =>
      dsimp only at listed ⊢
      by_cases raw : after.sectorBuf.take 4 = ascii "GGUF"
      · rw [if_pos raw]
        exact ⟨_, rfl, trivial⟩
      · rw [if_neg raw] at listed ⊢
        cases parsed : parseFat32Volume baseLba blockSize (after.sectorBuf.take blockSize) with
        | none =>
          rw [parsed] at listed
          exact ih places kept listed
        | some vol =>
          rw [parsed] at listed
          dsimp only at listed ⊢
          have presentable := presentable_of_parsed small kept (place baseLba mem_cons_self) raw parsed
          have bounded : presented vol → InBounds vol := inBounds vol presentable
          cases searched : findGgufFileInFat32 msc vol ⟨after, replicate vol.clusterBytes 0⟩ with
          | none =>
            rw [searched] at listed
            obtain ⟨result, other, _⟩ := find_goes msc (bounded (listed vol mem_cons_self)) kept
            rw [searched] at other
            cases other
          | some result =>
            obtain ⟨found, buffers⟩ := result
            cases found with
            | some found =>
              rw [searched] at listed
              obtain ⟨result, same, whole, fits⟩ := find_goes msc (bounded (listed vol mem_cons_self)) kept
              rw [searched] at same
              rw [← some.inj same] at whole fits
              exact ⟨_, rfl, fits rfl, whole⟩
            | none =>
              rw [searched] at listed
              obtain ⟨result, same, whole, _⟩ := find_goes msc (bounded (listed vol mem_cons_self)) kept
              rw [searched] at same
              rw [← some.inj same] at whole
              exact ih places whole fun other inside => listed other (mem_cons_of_mem _ inside)

theorem usbIngest_ends (whole : Whole bus) (heap : Heap)
    (listed : ∀ vol ∈ (usbIngest msc blockSize bus heap).volumes, presented vol) :
    (usbIngest msc blockSize bus heap).result ≠ none := by
  have probed : ∃ last, (probe msc blockSize bus).result = some last ∧ Ready last := by
    change ∀ vol ∈ (probe msc blockSize bus).volumes, presented vol at listed
    obtain ⟨⟨ok, after⟩, read, kept⟩ := readBlock_goes msc small 0 whole
    unfold probe at listed ⊢
    rw [read] at listed ⊢
    cases ok with
    | true => exact probeCandidates_ready msc small inBounds (candidates_place _ (leU32_lt _ _)) kept listed
    | false => exact probeCandidates_ready msc small inBounds (candidates_place 0 (by decide)) kept listed
  obtain ⟨⟨result, after⟩, ended, ready⟩ := probed
  change (probe msc blockSize bus).result.bind (load msc heap) ≠ none
  rw [ended, bind_some]
  cases result with
  | fat vol file =>
    have ingested := ingestLoop_goes msc ready.1 file file.firstCluster 0 ⟨after, heap, []⟩ ready.2
    intro none
    exact ingested (map_eq_none_iff.mp none)
  | raw startLba | nothing => simp [load]

end InBounds

/-! A device that answers its reads one by one from a script. -/

def scripted (script : Nat → Nat → UInt8) : Msc Nat where
  readBlocks _ _ buf count := (.ok buf.length, (range buf.length).map (script count), count + 1)
  keepsLength := by
    intro lba count buf state
    rw [length_map, length_range]

section Scripted
variable {script : Nat → Nat → UInt8}

theorem scripted_read (lba blocks : Nat) (buf : List UInt8) (count : Nat) :
    readDeviceSectors (scripted script) lba blocks buf count = ⟨true, (range buf.length).map (script count), count + 1⟩ := by
  rw [readDeviceSectors]
  split
  · rfl
  · rfl

theorem scripted_block (small : blockSize ≤ BOUNCE_BYTES) (lba count : Nat) {buf : List UInt8}
    (whole : buf.length = BOUNCE_BYTES) : readBlock (scripted script) blockSize lba ⟨count, buf⟩ =
      some (true, ⟨count + 1, (range blockSize).map (script count) ++ buf.drop blockSize⟩) := by
  have taken : (buf.take blockSize).length = blockSize := by
    rw [length_take, whole]
    exact Nat.min_eq_left small
  unfold readBlock
  rw [whole, if_pos small, scripted_read, taken]

theorem scripted_sector (fits : vol.bytesPerSector ≤ BOUNCE_BYTES) (lba count : Nat) {buf : List UInt8}
    (whole : buf.length = BOUNCE_BYTES) : readSector (scripted script) vol lba ⟨count, buf⟩ =
      some (true, ⟨count + 1, (range vol.bytesPerSector).map (script count) ++ buf.drop vol.bytesPerSector⟩) := by
  have taken : (buf.take vol.bytesPerSector).length = vol.bytesPerSector := by
    rw [length_take, whole]
    exact Nat.min_eq_left fits
  unfold readSector
  rw [whole, if_pos fits, scripted_read, taken]

theorem scanEntries_deleted (msc : Msc δ) (vol : Fat32Volume) (depth : Nat) {entries : List (List UInt8)}
    (deleted : ∀ entry ∈ entries, entry = replicate 32 0xe5) (scan : Scan) (bus : Bus δ) :
    scanEntries msc vol depth entries false scan bus = some (.more false scan, bus) := by
  induction entries with
  | nil => rfl
  | cons entry rest ih =>
    have same := deleted entry mem_cons_self
    have noFile : fat32FileFromEntry entry = none := by
      rw [same]
      decide
    have noDirectory : pushSubdir depth scan.subdirs entry = scan.subdirs := by
      unfold pushSubdir
      rw [same, show fat32DirectoryFromEntry (replicate 32 0xe5) = none by decide, ite_self]
    unfold scanEntries
    rw [if_neg (by rw [same]; decide), if_neg (by rw [same]; decide), noFile]
    rw [noDirectory]
    exact ih fun later inside => deleted later (mem_cons_of_mem _ inside)

theorem chunks_deleted (length : Nat) :
    ∀ entry ∈ chunksExact 32 ((range length).map fun _ => (0xe5 : UInt8)), entry = replicate 32 0xe5 := by
  intro entry inside
  have filler : (range length).map (fun _ => (0xe5 : UInt8)) = replicate length 0xe5 := by
    rw [map_const', length_range]
  rw [filler] at inside
  unfold chunksExact at inside
  rw [length_replicate] at inside
  obtain ⟨index, inRange, same⟩ := mem_map.mp inside
  have bound := mem_range.mp inRange
  rw [← same, drop_replicate, take_replicate, Nat.min_eq_left (by omega)]

section Deleted
variable {vol : Fat32Volume} {cluster : Nat} (data : IsData cluster) {count : Nat} (deleted : script count = fun _ => 0xe5)
  (depth left : Nat) (scan : Scan) {buf clusterBuf : List UInt8} (sized : clusterBuf.length = vol.clusterBytes)

include data deleted sized

theorem scanChain_panics (panics : readFatEntry (scripted script) vol cluster ⟨count + 1, buf⟩ = none) :
    scanChain (scripted script) vol depth (left + 1) cluster false scan ⟨⟨count, buf⟩, clusterBuf⟩ = none := by
  have taken : (clusterBuf.take vol.clusterBytes).length = vol.clusterBytes := by
    rw [length_take, sized, Nat.min_self]
  rw [scanChain, if_pos data]
  rw [scripted_read, taken, if_pos rfl, deleted, scanEntries_deleted _ vol depth (chunks_deleted vol.clusterBytes)]
  dsimp only
  rw [panics]

theorem scanChain_follows {next : Nat} {bus : Bus Nat}
    (entry : readFatEntry (scripted script) vol cluster ⟨count + 1, buf⟩ = some (some next, bus)) :
    ∃ filled, filled.length = vol.clusterBytes ∧
      scanChain (scripted script) vol depth (left + 1) cluster false scan ⟨⟨count, buf⟩, clusterBuf⟩ =
        scanChain (scripted script) vol depth left next false scan ⟨bus, filled⟩ := by
  have rest : clusterBuf.drop vol.clusterBytes = [] := drop_eq_nil_of_le (Nat.le_of_eq sized)
  have taken : (clusterBuf.take vol.clusterBytes).length = vol.clusterBytes := by
    rw [length_take, sized, Nat.min_self]
  refine ⟨(range vol.clusterBytes).map (script count), by rw [length_map, length_range], ?_⟩
  rw [scanChain, if_pos data]
  dsimp only
  rw [scripted_read, taken, rest, append_nil, if_pos rfl, deleted,
    scanEntries_deleted _ vol depth (chunks_deleted vol.clusterBytes)]
  dsimp only
  rw [entry]

end Deleted

end Scripted

def bootRecord (partStart : Nat) : List UInt8 := replicate 450 0 ++ ([0x0b, 0, 0, 0] ++ leBytes 4 partStart)

def entryAt (offset : Nat) : List UInt8 := replicate offset 0 ++ leBytes 4 2047

def hostile (baseLba : Nat) (bootSector : List UInt8) (offset : Nat) : Nat → Nat → UInt8
  | 0, index => (bootRecord baseLba).getD index 0
  | 1, index => bootSector.getD index 0
  | 3, index => (entryAt offset).getD index 0
  | _, _ => 0xe5

theorem getD_range {bytes : List UInt8} {length : Nat} (short : bytes.length ≤ length) :
    ((range length).map fun index => bytes.getD index 0) = bytes ++ replicate (length - bytes.length) 0 := by
  apply ext_getElem?
  intro index
  rw [getElem?_map]
  by_cases inside : index < length
  · rw [getElem?_range inside, map_some, getD_eq_getElem?_getD]
    by_cases front : index < bytes.length
    · rw [getElem?_append_left front, getElem?_eq_getElem front, getD_some]
    · rw [getElem?_append_right (Nat.not_lt.mp front), getElem?_replicate_of_lt (by omega),
        getElem?_eq_none (Nat.not_lt.mp front), getD_none]
  · rw [getElem?_eq_none (by rw [length_range]; omega), map_none, getElem?_eq_none]
    rw [length_append, length_replicate]
    omega

theorem bootRecord_length (partStart : Nat) : (bootRecord partStart).length = 458 := by
  unfold bootRecord
  rw [length_append, length_replicate]
  rfl

theorem candidates_bootRecord {partStart : Nat} (positive : 0 < partStart) (below : partStart < 2 ^ 32) (rest : List UInt8) :
    candidates ((bootRecord partStart ++ rest).getD 450 0) (leU32 (bootRecord partStart ++ rest) 454) = [partStart, 2048] := by
  have kind : (bootRecord partStart ++ rest).getD 450 0 = 0x0b := by
    unfold bootRecord
    rw [append_assoc, getD_eq_getElem?_getD, getElem?_append_right (by rw [length_replicate]),
      length_replicate]
    rfl
  have start : leU32 (bootRecord partStart ++ rest) 454 = partStart := by
    unfold leU32 bootRecord
    have front : (replicate 450 (0 : UInt8) ++ [0x0b, 0, 0, 0]).length = 454 := by
      rw [length_append, length_replicate]
      rfl
    rw [← append_assoc, append_assoc, drop_left' front, take_left' (leBytes_length _ _), leValue_leBytes]
    exact Nat.mod_eq_of_lt below
  unfold candidates
  rw [kind, start, if_pos ⟨.inl rfl, positive⟩]
  rfl

def oddSector (offset : Nat) : List UInt8 := entryAt offset ++ replicate (BOUNCE_BYTES - (offset + 4)) 0

section OddSector
variable {offset : Nat} (inside : offset + 4 ≤ BOUNCE_BYTES)

theorem entryAt_length (offset : Nat) : (entryAt offset).length = offset + 4 := by
  unfold entryAt
  rw [length_append, length_replicate, leBytes_length]

theorem oddSector_entry (offset : Nat) : leU32 (oddSector offset) offset = 2047 := by
  unfold leU32 oddSector entryAt
  rw [append_assoc, drop_left' length_replicate, take_left' (leBytes_length _ _)]
  rfl

include inside

theorem oddSector_length : (oddSector offset).length = BOUNCE_BYTES := by
  unfold oddSector
  rw [length_append, length_replicate, entryAt_length]
  omega

theorem oddSector_eq : ((range 4095).map fun index => (entryAt offset).getD index 0) ++ [0] = oddSector offset := by
  have last : (entryAt offset).getD 4095 0 = 0 := by
    by_cases short : offset + 4 ≤ 4095
    · rw [getD_eq_getElem?_getD, getElem?_eq_none (by rw [entryAt_length]; exact short), getD_none]
    · have end4 : offset = 4092 := by
        unfold BOUNCE_BYTES at inside
        omega
      unfold entryAt
      rw [end4, getD_eq_getElem?_getD, getElem?_append_right (by rw [length_replicate]; decide),
        length_replicate]
      decide
  have whole := getD_range (show (entryAt offset).length ≤ 4096 by rw [entryAt_length]; exact inside)
  rw [range_succ, map_append, map_singleton, last, entryAt_length] at whole
  exact whole

end OddSector

section Panic
variable {vol : Fat32Volume} (root : IsData vol.rootCluster) {baseLba : Nat} {bootSector buf : List UInt8}
  (whole : buf.length = BOUNCE_BYTES)

theorem find_panics {script : Nat → Nat → UInt8} {count : Nat}
    (scanned : scanChain (scripted script) vol 0 4096 vol.rootCluster false ⟨none, none, []⟩
      ⟨⟨count, buf⟩, replicate vol.clusterBytes 0⟩ = none) :
    findGgufFileInFat32 (scripted script) vol ⟨⟨count, buf⟩, replicate vol.clusterBytes 0⟩ = none := by
  unfold findGgufFileInFat32 findGgufFileInFat32Dir searchDir
  rw [if_neg (by rw [length_replicate]; exact Nat.lt_irrefl _)]
  rw [scanned]

include root whole

theorem find_panics_large (large : ¬vol.bytesPerSector ≤ BOUNCE_BYTES) (offset : Nat) :
    findGgufFileInFat32 (scripted (hostile baseLba bootSector offset)) vol ⟨⟨2, buf⟩, replicate vol.clusterBytes 0⟩ = none := by
  apply find_panics
  apply scanChain_panics root rfl 0 4095 _ length_replicate
  unfold readFatEntry readSector
  rw [whole, if_neg large]

theorem find_panics_odd (odd : vol.bytesPerSector = 4095) (zero : buf.drop 4095 = [0]) :
    findGgufFileInFat32 (scripted (hostile baseLba bootSector (vol.fatLbaForCluster vol.rootCluster).2)) vol
      ⟨⟨2, buf⟩, replicate vol.clusterBytes 0⟩ = none := by
  have fits : vol.bytesPerSector ≤ BOUNCE_BYTES := by
    rw [odd]
    decide
  have looked : ∀ cluster count contents, contents.length = BOUNCE_BYTES →
      ¬(vol.fatLbaForCluster cluster).2 + 4 ≤ BOUNCE_BYTES →
      readFatEntry (scripted (hostile baseLba bootSector (vol.fatLbaForCluster vol.rootCluster).2)) vol cluster
        ⟨count, contents⟩ = none := by
    intro cluster count contents sized outside
    have length : ((range vol.bytesPerSector).map
        (hostile baseLba bootSector (vol.fatLbaForCluster vol.rootCluster).2 count) ++
          contents.drop vol.bytesPerSector).length = BOUNCE_BYTES := by
      rw [length_append, length_map, length_range, length_drop]
      omega
    unfold readFatEntry
    rw [scripted_sector fits _ _ sized]
    dsimp only
    rw [length, if_neg outside]
  apply find_panics
  by_cases inside : (vol.fatLbaForCluster vol.rootCluster).2 + 4 ≤ BOUNCE_BYTES
  · have entry : readFatEntry (scripted (hostile baseLba bootSector (vol.fatLbaForCluster vol.rootCluster).2)) vol
        vol.rootCluster ⟨3, buf⟩ = some (some 2047, ⟨4, oddSector (vol.fatLbaForCluster vol.rootCluster).2⟩) := by
      unfold readFatEntry
      rw [scripted_sector fits _ _ whole, odd, zero]
      dsimp only
      rw [show (range 4095).map (hostile baseLba bootSector (vol.fatLbaForCluster vol.rootCluster).2 3) ++ [0] = _ from
        oddSector_eq inside, oddSector_length inside, if_pos inside, oddSector_entry]
      rfl
    obtain ⟨filled, sized, followed⟩ := scanChain_follows root rfl 0 4095 ⟨none, none, []⟩ length_replicate entry
    rw [followed]
    apply scanChain_panics (by decide) rfl 0 4094 _ sized
    apply looked 2047 5 _ (oddSector_length inside)
    change ¬2047 * 4 % 2 ^ 32 % vol.bytesPerSector + 4 ≤ 4096
    rw [odd]
    decide
  · exact scanChain_panics root rfl 0 4095 _ length_replicate (looked _ _ _ whole inside)

end Panic

section Hostile
variable {baseLba blockSize : Nat} (positive : 0 < baseLba) (below : baseLba < 2 ^ 32) {bootSector : List UInt8}
  (sized : bootSector.length = blockSize) (noMagic : bootSector.take 4 ≠ ascii "GGUF") {vol : Fat32Volume}
  (parsed : parseFat32Volume baseLba blockSize bootSector = some vol) (small : blockSize ≤ BOUNCE_BYTES)

include positive below sized noMagic parsed small

theorem hostile_probe {offset : Nat}
    (panics : findGgufFileInFat32 (scripted (hostile baseLba bootSector offset)) vol
      ⟨⟨2, bootSector ++ replicate (BOUNCE_BYTES - blockSize) 0⟩, replicate vol.clusterBytes 0⟩ = none) :
    probe (scripted (hostile baseLba bootSector offset)) blockSize ⟨0, replicate BOUNCE_BYTES 0⟩ = ⟨[vol], none⟩ := by
  have header : 512 ≤ blockSize := by
    rw [← sized]
    exact (parse_accepted parsed).header
  have record : (range blockSize).map (hostile baseLba bootSector offset 0) =
      bootRecord baseLba ++ replicate (blockSize - (bootRecord baseLba).length) 0 := by
    apply getD_range
    rw [bootRecord_length]
    omega
  have sector : (range blockSize).map (hostile baseLba bootSector offset 1) = bootSector := by
    have filled := getD_range (Nat.le_of_eq sized)
    rw [sized, Nat.sub_self, replicate_zero, append_nil] at filled
    exact filled
  have recordSized : ((range blockSize).map (hostile baseLba bootSector offset 0)).length = blockSize := by
    rw [length_map, length_range]
  have second : ((range blockSize).map (hostile baseLba bootSector offset 0) ++
      (replicate BOUNCE_BYTES (0 : UInt8)).drop blockSize).length = BOUNCE_BYTES := by
    rw [length_append, length_drop, length_replicate]
    omega
  have magic : (bootSector ++ replicate (BOUNCE_BYTES - blockSize) 0).take 4 ≠ ascii "GGUF" := by
    rwa [take_append_of_le_length (by omega)]
  unfold probe
  rw [scripted_block small _ _ length_replicate]
  dsimp only
  rw [record, append_assoc, candidates_bootRecord positive below, ← append_assoc, ← record]
  unfold probeCandidates
  rw [scripted_block small _ _ second, sector, drop_left' recordSized, drop_replicate]
  dsimp only
  rw [if_neg magic, take_left' sized, parsed]
  dsimp only
  rw [panics]

theorem hostile_panics (outside : ¬InBounds vol) (heap : Heap) :
    ∃ offset, usbIngest (scripted (hostile baseLba bootSector offset)) blockSize ⟨0, replicate BOUNCE_BYTES 0⟩ heap =
      ⟨[vol], none⟩ := by
  obtain ⟨root, unfit⟩ := Classical.not_imp.mp outside
  have whole : (bootSector ++ replicate (BOUNCE_BYTES - blockSize) 0).length = BOUNCE_BYTES := by
    rw [length_append, length_replicate]
    omega
  have probed : ∃ offset, probe (scripted (hostile baseLba bootSector offset)) blockSize
      ⟨0, replicate BOUNCE_BYTES 0⟩ = ⟨[vol], none⟩ := by
    by_cases large : vol.bytesPerSector ≤ BOUNCE_BYTES
    · have odd : vol.bytesPerSector = 4095 := by
        by_contra other
        exact unfit ⟨large, other⟩
      have shorter : blockSize ≤ 4095 := by
        have divides : vol.deviceBlockSize ∣ vol.bytesPerSector := Dvd.intro_left _ vol.wholeBlocks.symm
        rw [← (parse_accepted parsed).block, ← odd]
        exact Nat.le_of_dvd vol.sectorPositive divides
      have zero : (bootSector ++ replicate (BOUNCE_BYTES - blockSize) 0).drop 4095 = [0] := by
        rw [drop_append, sized, drop_eq_nil_of_le (by omega), drop_replicate]
        rw [show BOUNCE_BYTES - blockSize - (4095 - blockSize) = 1 by unfold BOUNCE_BYTES; omega]
        rfl
      exact ⟨_, hostile_probe positive below sized noMagic parsed small (find_panics_odd root whole odd zero)⟩
    · exact ⟨0, hostile_probe positive below sized noMagic parsed small (find_panics_large root whole large 0)⟩
  obtain ⟨offset, probed⟩ := probed
  refine ⟨offset, ?_⟩
  unfold usbIngest
  rw [probed]
  rfl

end Hostile

theorem usbIngest_panics (msc : Msc δ) {bus : Bus δ} (whole : Whole bus) (large : ¬blockSize ≤ BOUNCE_BYTES)
    (heap : Heap) : usbIngest msc blockSize bus heap = ⟨[], none⟩ := by
  have refused : readBlock msc blockSize 0 bus = none := by
    unfold readBlock
    rw [show bus.sectorBuf.length = _ from whole, if_neg large]
  unfold usbIngest probe
  rw [refused]
  rfl

/-- No slice is out of range exactly if blocks and sectors fit the bounce buffer. -/
theorem bounce_slices_iff (capacity : Option UInt32) (presented : Fat32Volume → Prop) :
    (∀ (δ : Type) (msc : Msc δ) (bus : Bus δ) (heap : Heap), Whole bus →
        (∀ vol ∈ (usbIngest msc (deviceBlockSize capacity) bus heap).volumes, presented vol) →
        (usbIngest msc (deviceBlockSize capacity) bus heap).result ≠ none) ↔
      deviceBlockSize capacity ≤ BOUNCE_BYTES ∧
        ∀ vol, Presentable (deviceBlockSize capacity) vol → presented vol → InBounds vol := by
  have start : Whole (Bus.mk 0 (replicate BOUNCE_BYTES 0)) := length_replicate
  constructor
  · intro safe
    have small : deviceBlockSize capacity ≤ BOUNCE_BYTES := by
      by_contra large
      have panicked := usbIngest_panics (scripted fun _ _ => 0) start large (fun _ => 0)
      apply safe Nat (scripted fun _ _ => 0) _ (fun _ => 0) start
      · rw [panicked]
        intro vol inside
        cases inside
      · rw [panicked]
    refine ⟨small, ?_⟩
    intro vol presentable allowed
    by_contra outside
    obtain ⟨baseLba, bootSector, positive, below, sized, noMagic, parsed⟩ := presentable
    obtain ⟨offset, panicked⟩ := hostile_panics positive below sized noMagic parsed small outside (fun _ => 0)
    apply safe Nat _ _ (fun _ => 0) start
    · rw [panicked]
      intro other inside
      rwa [mem_singleton.mp inside]
    · rw [panicked]
  · intro bounded δ msc bus heap whole listed
    exact usbIngest_ends msc bounded.1 bounded.2 whole heap listed

def largeBoot : List UInt8 :=
  replicate 11 0 ++ [0x00, 0x20, 1, 32, 0, 2] ++ replicate 19 0 ++ leBytes 4 1024 ++ replicate 4 0 ++
    leBytes 4 2 ++ replicate 34 0 ++ ascii "FAT32   " ++ replicate 420 0 ++ [0x55, 0xaa]

theorem largeBoot_presents : ∃ vol, parseFat32Volume 2048 512 largeBoot = some vol ∧ ¬InBounds vol := by
  have parsed : ∃ vol, parseFat32Volume 2048 512 largeBoot = some vol ∧ IsData vol.rootCluster ∧ vol.bytesPerSector = 8192 := by
    unfold parseFat32Volume
    rw [if_neg (by decide +kernel)]
    rw [dif_neg (by decide +kernel)]
    exact ⟨_, rfl, by decide +kernel, by decide +kernel⟩
  obtain ⟨vol, accepted, root, large⟩ := parsed
  refine ⟨vol, accepted, ?_⟩
  intro bounded
  have fits := (bounded root).1
  rw [large] at fits
  exact absurd fits (by decide)

theorem geometry_panics :
    (∃ (msc : Msc Nat) (bus : Bus Nat), Whole bus ∧ (usbIngest msc (deviceBlockSize (some 512)) bus fun _ => 0).result = none) ∧
      ∃ (msc : Msc Nat) (bus : Bus Nat), Whole bus ∧ (usbIngest msc (deviceBlockSize (some 8192)) bus fun _ => 0).result = none := by
  have start : Whole (Bus.mk 0 (replicate BOUNCE_BYTES 0)) := length_replicate
  constructor
  · obtain ⟨vol, parsed, outside⟩ := largeBoot_presents
    obtain ⟨offset, panicked⟩ := hostile_panics (by decide) (by decide) (by decide +kernel) (by decide +kernel) parsed
      (by decide) outside fun _ => 0
    exact ⟨_, _, start, congrArg Outcome.result panicked⟩
  · have panicked := usbIngest_panics (scripted fun _ _ => 0) start (show ¬deviceBlockSize (some 8192) ≤ BOUNCE_BYTES by decide)
      fun _ => 0
    exact ⟨_, _, start, congrArg Outcome.result panicked⟩

end HermitLocal.Usb.Probe
