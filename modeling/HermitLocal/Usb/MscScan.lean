import Mathlib.Data.List.Basic

/-! The two scanners for mass storage interfaces in a configuration descriptor. Both walk over its
sub-descriptors and collect an interface with its bulk endpoints; the one of `MscDevice::new`
takes the first that is complete, `find_msc_interfaces` lists them all. -/

namespace HermitLocal.Usb.MscScan
open List Option

def INTERFACE : UInt8 := 4
def ENDPOINT : UInt8 := 5
def MASS_STORAGE : UInt8 := 0x08
def BBB : UInt8 := 0x50
def BULK : UInt8 := 2
def INTERFACE_DESC_LEN : Nat := 9
def ENDPOINT_DESC_LEN : Nat := 7

structure InterfaceDesc where
  length : UInt8
  descType : UInt8
  interfaceNumber : UInt8
  alternateSetting : UInt8
  numEndpoints : UInt8
  interfaceClass : UInt8
  interfaceSubclass : UInt8
  interfaceProtocol : UInt8
  interface : UInt8
deriving DecidableEq

structure EndpointDesc where
  length : UInt8
  descType : UInt8
  endpointAddress : UInt8
  attributes : UInt8
  maxPacketSize : UInt16
  interval : UInt8
deriving DecidableEq

namespace InterfaceDesc

def read (bytes : List UInt8) : InterfaceDesc :=
  ⟨bytes.getD 0 0, bytes.getD 1 0, bytes.getD 2 0, bytes.getD 3 0, bytes.getD 4 0, bytes.getD 5 0, bytes.getD 6 0,
    bytes.getD 7 0, bytes.getD 8 0⟩

def fromBytes (bytes : List UInt8) : Option InterfaceDesc :=
  if bytes.length < INTERFACE_DESC_LEN then none else some (read bytes)

end InterfaceDesc

namespace EndpointDesc

def read (bytes : List UInt8) : EndpointDesc :=
  ⟨bytes.getD 0 0, bytes.getD 1 0, bytes.getD 2 0, bytes.getD 3 0,
    (bytes.getD 4 0).toUInt16 ||| (bytes.getD 5 0).toUInt16 <<< 8, bytes.getD 6 0⟩

def fromBytes (bytes : List UInt8) : Option EndpointDesc :=
  if bytes.length < ENDPOINT_DESC_LEN then none else some (read bytes)

def number (ep : EndpointDesc) : UInt8 := ep.endpointAddress &&& 0x0f

def isIn (ep : EndpointDesc) : Bool := ep.endpointAddress &&& 0x80 != 0

def transferType (ep : EndpointDesc) : UInt8 := ep.attributes &&& 0x03

end EndpointDesc

structure MscInterface where
  iface : InterfaceDesc
  epIn : EndpointDesc
  epOut : EndpointDesc
deriving DecidableEq

structure Scan where
  currentIface : Option InterfaceDesc
  epIn : Option EndpointDesc
  epOut : Option EndpointDesc

namespace Scan

def start : Scan := ⟨none, none, none⟩

def complete (scan : Scan) : Option MscInterface :=
  scan.currentIface.bind fun iface => scan.epIn.bind fun epIn => scan.epOut.map fun epOut => ⟨iface, epIn, epOut⟩

def enter (scan : Scan) (iface : InterfaceDesc) (driven : Bool) : Scan :=
  if driven then ⟨some iface, none, none⟩ else { scan with currentIface := none }

def addEndpoint (scan : Scan) (ep : EndpointDesc) : Scan :=
  if ep.transferType = BULK then if ep.isIn then { scan with epIn := some ep } else { scan with epOut := some ep }
  else scan

end Scan

inductive ScanError where
  | parseError
  | notSupported
deriving DecidableEq

def subLength (rest : List UInt8) : Nat := (rest.getD 0 0).toNat

def subType (rest : List UInt8) : UInt8 := rest.getD 1 0

def newLoop (rest : List UInt8) (scan : Scan) : Except ScanError Scan :=
  if rest.length < 2 then .ok scan
  else
    if subLength rest < 2 ∨ rest.length < subLength rest then .ok scan
    else if subType rest = INTERFACE then
      if scan.complete.isSome then .ok scan
      else
        match InterfaceDesc.fromBytes (rest.take (subLength rest)) with
        | none => .error .parseError
        | some iface => newLoop (rest.drop (subLength rest)) (scan.enter iface (iface.interfaceClass == MASS_STORAGE))
    else if subType rest = ENDPOINT ∧ scan.currentIface.isSome then
      match EndpointDesc.fromBytes (rest.take (subLength rest)) with
      | none => .error .parseError
      | some ep => newLoop (rest.drop (subLength rest)) (scan.addEndpoint ep)
    else newLoop (rest.drop (subLength rest)) scan
termination_by rest.length
decreasing_by
  all_goals
    rw [length_drop]
    omega

def select (configDesc : List UInt8) : Except ScanError (UInt8 × MscInterface) :=
  match configDesc[5]? with
  | none => .error .parseError
  | some configValue =>
      match newLoop configDesc Scan.start with
      | .error err => .error err
      | .ok scan =>
          match scan.complete with
          | some found => .ok (configValue, found)
          | none => .error .notSupported

def findLoop (rest : List UInt8) (scan : Scan) (result : List MscInterface) : List MscInterface :=
  if rest.length < 2 then result ++ scan.complete.toList
  else
    if subLength rest = 0 ∨ rest.length < subLength rest then result ++ scan.complete.toList
    else if subType rest = INTERFACE ∧ INTERFACE_DESC_LEN ≤ subLength rest then
      let iface := InterfaceDesc.read rest
      findLoop (rest.drop (subLength rest))
        (scan.enter iface (iface.interfaceClass == MASS_STORAGE && iface.interfaceProtocol == BBB))
        (result ++ scan.complete.toList)
    else if subType rest = ENDPOINT ∧ ENDPOINT_DESC_LEN ≤ subLength rest then
      findLoop (rest.drop (subLength rest))
        (if scan.currentIface.isSome then scan.addEndpoint (EndpointDesc.read rest) else scan) result
    else findLoop (rest.drop (subLength rest)) scan result
termination_by rest.length
decreasing_by
  all_goals
    rw [length_drop]
    omega

def findMscInterfaces (configData : List UInt8) : List MscInterface := findLoop configData Scan.start []

/-! What the two loops do with one sub-descriptor. -/

inductive WellFormed : List UInt8 → Prop
  | done {rest : List UInt8} (cut : rest.length < 2 ∨ rest.length < subLength rest) : WellFormed rest
  | step {rest : List UInt8} (whole : subLength rest ≤ rest.length) (two : 2 ≤ subLength rest)
      (iface : subType rest = INTERFACE → INTERFACE_DESC_LEN ≤ subLength rest)
      (endpoint : subType rest = ENDPOINT → ENDPOINT_DESC_LEN ≤ subLength rest)
      (later : WellFormed (rest.drop (subLength rest))) : WellFormed rest

def Scan.next (driven : InterfaceDesc → Bool) (scan : Scan) (rest : List UInt8) : Scan :=
  if subType rest = INTERFACE then scan.enter (InterfaceDesc.read rest) (driven (InterfaceDesc.read rest))
  else if subType rest = ENDPOINT ∧ scan.currentIface.isSome then scan.addEndpoint (EndpointDesc.read rest)
  else scan

def massStorage (iface : InterfaceDesc) : Bool := iface.interfaceClass == MASS_STORAGE

def bulkOnly (iface : InterfaceDesc) : Bool := iface.interfaceClass == MASS_STORAGE && iface.interfaceProtocol == BBB

section Bytes
variable {rest : List UInt8} {len : Nat}

theorem getD_take {index : Nat} (inside : index < len) : (rest.take len).getD index 0 = rest.getD index 0 := by
  rw [getD_eq_getElem?_getD, getD_eq_getElem?_getD, getElem?_take_of_lt inside]

theorem interface_read_take (long : INTERFACE_DESC_LEN ≤ len) :
    InterfaceDesc.read (rest.take len) = InterfaceDesc.read rest := by
  unfold INTERFACE_DESC_LEN at long
  unfold InterfaceDesc.read
  simp (disch := omega) only [getD_take]

theorem interface_fromBytes (long : INTERFACE_DESC_LEN ≤ len) (whole : len ≤ rest.length) :
    InterfaceDesc.fromBytes (rest.take len) = some (InterfaceDesc.read rest) := by
  unfold InterfaceDesc.fromBytes
  rw [if_neg (by rw [length_take]; omega), interface_read_take long]

theorem endpoint_read_take (long : ENDPOINT_DESC_LEN ≤ len) :
    EndpointDesc.read (rest.take len) = EndpointDesc.read rest := by
  unfold ENDPOINT_DESC_LEN at long
  unfold EndpointDesc.read
  simp (disch := omega) only [getD_take]

theorem endpoint_fromBytes (long : ENDPOINT_DESC_LEN ≤ len) (whole : len ≤ rest.length) :
    EndpointDesc.fromBytes (rest.take len) = some (EndpointDesc.read rest) := by
  unfold EndpointDesc.fromBytes
  rw [if_neg (by rw [length_take]; omega), endpoint_read_take long]

end Bytes

section Step
variable {rest : List UInt8} (scan : Scan) (result : List MscInterface)

theorem stop_of_cut {α : Type} {bad : Prop} [Decidable bad] (stop more : α)
    (cut : rest.length < 2 ∨ rest.length < subLength rest) :
    (if rest.length < 2 then stop else if bad ∨ rest.length < subLength rest then stop else more) = stop := by
  by_cases short : rest.length < 2
  · exact if_pos short
  · rw [if_neg short]
    exact if_pos (.inr (cut.resolve_left short))

theorem newLoop_done (cut : rest.length < 2 ∨ rest.length < subLength rest) : newLoop rest scan = .ok scan := by
  rw [newLoop]
  exact stop_of_cut _ _ cut

theorem findLoop_done (cut : rest.length < 2 ∨ rest.length < subLength rest) :
    findLoop rest scan result = result ++ scan.complete.toList := by
  rw [findLoop]
  exact stop_of_cut _ _ cut

variable (whole : subLength rest ≤ rest.length) (two : 2 ≤ subLength rest)
  (iface : subType rest = INTERFACE → INTERFACE_DESC_LEN ≤ subLength rest)
  (endpoint : subType rest = ENDPOINT → ENDPOINT_DESC_LEN ≤ subLength rest)

include whole two iface endpoint

theorem newLoop_step : newLoop rest scan =
      if subType rest = INTERFACE ∧ scan.complete.isSome then .ok scan
      else newLoop (rest.drop (subLength rest)) (scan.next massStorage rest) := by
  rw [newLoop, if_neg (by omega)]
  rw [if_neg (by omega)]
  unfold Scan.next
  by_cases isIface : subType rest = INTERFACE
  · rw [if_pos isIface, if_pos isIface]
    by_cases full : scan.complete.isSome = true
    · rw [if_pos full, if_pos ⟨isIface, full⟩]
    · rw [if_neg full, if_neg (fun both => full both.2)]
      rw [interface_fromBytes (iface isIface) whole]
      rfl
  · have other : ¬(subType rest = INTERFACE ∧ scan.complete.isSome = true) := fun both => isIface both.1
    rw [if_neg isIface, if_neg isIface, if_neg other]
    by_cases isEndpoint : subType rest = ENDPOINT ∧ scan.currentIface.isSome = true
    · rw [if_pos isEndpoint, if_pos isEndpoint, endpoint_fromBytes (endpoint isEndpoint.1) whole]
    · rw [if_neg isEndpoint, if_neg isEndpoint]

theorem findLoop_step : findLoop rest scan result =
      findLoop (rest.drop (subLength rest)) (scan.next bulkOnly rest)
        (result ++ if subType rest = INTERFACE then scan.complete.toList else []) := by
  rw [findLoop, if_neg (by omega)]
  rw [if_neg (by omega)]
  unfold Scan.next
  by_cases isIface : subType rest = INTERFACE
  · rw [if_pos ⟨isIface, iface isIface⟩, if_pos isIface, if_pos isIface]
    rfl
  · rw [if_neg (fun both => isIface both.1), if_neg isIface, if_neg isIface, append_nil]
    by_cases isEndpoint : subType rest = ENDPOINT
    · rw [if_pos ⟨isEndpoint, endpoint isEndpoint⟩]
      by_cases inside : scan.currentIface.isSome = true
      · rw [if_pos inside, if_pos ⟨isEndpoint, inside⟩]
      · have outside : ¬(subType rest = ENDPOINT ∧ scan.currentIface.isSome = true) := fun both => inside both.2
        rw [if_neg inside, if_neg outside]
    · have neither : ¬(subType rest = ENDPOINT ∧ scan.currentIface.isSome = true) := fun both => isEndpoint both.1
      rw [if_neg (fun both => isEndpoint both.1), if_neg neither]

end Step

/-! The two scans side by side. -/

def speaksBulkOnly (iface : InterfaceDesc) : Bool := iface.interfaceProtocol == BBB

def MscInterface.drivable (found : MscInterface) : Bool := speaksBulkOnly found.iface

structure Beside (first second : Scan) : Prop where
  iface : second.currentIface = first.currentIface.filter speaksBulkOnly
  endpoints : second.currentIface.isSome → second.epIn = first.epIn ∧ second.epOut = first.epOut

section Beside
variable {first second : Scan}

theorem beside_complete (beside : Beside first second) : second.complete = first.complete.filter MscInterface.drivable := by
  obtain ⟨iface, endpoints⟩ := beside
  cases current : first.currentIface with
  | none =>
    unfold Scan.complete
    rw [iface, current]
    rfl
  | some found =>
    rw [current] at iface
    cases own : speaksBulkOnly found with
    | true =>
      rw [filter_some_pos own] at iface
      obtain ⟨inSame, outSame⟩ := endpoints (by rw [iface]; rfl)
      unfold Scan.complete
      rw [iface, current, inSame, outSame]
      cases first.epIn with
      | none => rfl
      | some epIn =>
        cases first.epOut with
        | none => rfl
        | some epOut => exact (filter_some_pos (show MscInterface.drivable ⟨found, epIn, epOut⟩ = true from own)).symm
    | false =>
      rw [filter_some_neg own] at iface
      unfold Scan.complete
      rw [iface, current]
      cases first.epIn with
      | none => rfl
      | some epIn =>
        cases first.epOut with
        | none => rfl
        | some epOut => exact (filter_some_neg (show MscInterface.drivable ⟨found, epIn, epOut⟩ = false from own)).symm

theorem beside_enter (first second : Scan) (iface : InterfaceDesc) :
    Beside (first.enter iface (massStorage iface)) (second.enter iface (bulkOnly iface)) := by
  change Beside _ (second.enter iface (massStorage iface && speaksBulkOnly iface))
  cases massStorage iface with
  | true =>
    cases own : speaksBulkOnly iface with
    | true => exact ⟨(filter_some_pos own).symm, fun _ => ⟨rfl, rfl⟩⟩
    | false => exact ⟨(filter_some_neg own).symm, fun inside => by cases inside⟩
  | false => exact ⟨rfl, fun inside => by cases inside⟩

theorem addEndpoint_iface (scan : Scan) (ep : EndpointDesc) : (scan.addEndpoint ep).currentIface = scan.currentIface := by
  unfold Scan.addEndpoint
  split
  · split <;> rfl
  · rfl

theorem addEndpoint_endpoints (ep : EndpointDesc) (same : second.epIn = first.epIn ∧ second.epOut = first.epOut) :
    (second.addEndpoint ep).epIn = (first.addEndpoint ep).epIn ∧
      (second.addEndpoint ep).epOut = (first.addEndpoint ep).epOut := by
  unfold Scan.addEndpoint
  split
  · split
    · exact ⟨rfl, same.2⟩
    · exact ⟨same.1, rfl⟩
  · exact same

theorem beside_endpoint (beside : Beside first second) (ep : EndpointDesc) :
    Beside (if first.currentIface.isSome then first.addEndpoint ep else first)
      (if second.currentIface.isSome then second.addEndpoint ep else second) := by
  obtain ⟨iface, endpoints⟩ := beside
  by_cases inner : second.currentIface.isSome = true
  · have outer : first.currentIface.isSome = true := by
      rw [iface] at inner
      obtain ⟨found, present⟩ := isSome_iff_exists.mp inner
      rw [(filter_eq_some_iff.mp present).1]
      rfl
    rw [if_pos inner, if_pos outer]
    constructor
    · rw [addEndpoint_iface, addEndpoint_iface, iface]
    · exact fun _ => addEndpoint_endpoints ep (endpoints inner)
  · rw [if_neg inner]
    constructor
    · rw [iface]
      split
      · rw [addEndpoint_iface]
      · rfl
    · exact fun inside => absurd inside inner

theorem beside_next (beside : Beside first second) (rest : List UInt8) :
    Beside (first.next massStorage rest) (second.next bulkOnly rest) := by
  have endpoint := beside_endpoint beside (EndpointDesc.read rest)
  unfold Scan.next
  by_cases isIface : subType rest = INTERFACE
  · rw [if_pos isIface, if_pos isIface]
    exact beside_enter first second (InterfaceDesc.read rest)
  · rw [if_neg isIface, if_neg isIface]
    by_cases isEndpoint : subType rest = ENDPOINT
    · simpa only [isEndpoint, true_and] using endpoint
    · simpa only [isEndpoint, false_and, if_false] using beside

end Beside

theorem beside_start : Beside Scan.start Scan.start := ⟨rfl, fun inside => by cases inside⟩

variable {rest : List UInt8}

theorem findLoop_append (formed : WellFormed rest) (scan : Scan) (result : List MscInterface) :
    findLoop rest scan result = result ++ findLoop rest scan [] := by
  induction formed generalizing scan result with
  | done cut => rw [findLoop_done scan result cut, findLoop_done scan [] cut, nil_append]
  | step whole two iface endpoint _ ih =>
    rw [findLoop_step scan result whole two iface endpoint, findLoop_step scan [] whole two iface endpoint, ih,
      ih _ ([] ++ _), nil_append, append_assoc]

theorem scan_beside (formed : WellFormed rest) {first second : Scan} (beside : Beside first second) :
    ∃ scan, newLoop rest first = .ok scan ∧ (scan.complete = none → findLoop rest second [] = []) ∧
      ∀ found, scan.complete = some found → found.iface.interfaceProtocol = BBB →
        (findLoop rest second []).head? = some found := by
  induction formed generalizing first second with
  | done cut =>
    refine ⟨first, newLoop_done first cut, ?_⟩
    rw [findLoop_done second [] cut, beside_complete beside]
    constructor
    · intro empty
      rw [empty]
      rfl
    · intro found full own
      rw [full, filter_some_pos (show found.drivable = true from beq_iff_eq.mpr own)]
      rfl
  | @step rest whole two iface endpoint later ih =>
    rw [newLoop_step first whole two iface endpoint, findLoop_step second [] whole two iface endpoint, findLoop_append later]
    by_cases stops : subType rest = INTERFACE ∧ first.complete.isSome = true
    · rw [if_pos stops, if_pos stops.1, beside_complete beside]
      refine ⟨first, rfl, ?_, ?_⟩
      · intro empty
        rw [empty] at stops
        cases stops.2
      · intro found full own
        rw [full, filter_some_pos (show found.drivable = true from beq_iff_eq.mpr own)]
        rfl
    · rw [if_neg stops]
      have nothing : [] ++ (if subType rest = INTERFACE then second.complete.toList else []) = [] := by
        split
        next isIface =>
          have empty : first.complete = none := by
            by_contra full
            exact stops ⟨isIface, isSome_iff_ne_none.mpr full⟩
          rw [beside_complete beside, empty]
          rfl
        · rfl
      rw [nothing]
      exact ih (beside_next beside _)

/-! Every interface of the second scanner speaks the Bulk-Only protocol. -/

def Entered (scan : Scan) : Prop := ∀ iface, scan.currentIface = some iface → iface.interfaceProtocol = BBB

variable {scan : Scan}

theorem entered_next (entered : Entered scan) (rest : List UInt8) : Entered (scan.next bulkOnly rest) := by
  unfold Scan.next
  split
  · unfold Scan.enter
    split
    next driven =>
      intro iface current
      cases current
      exact beq_iff_eq.mp (Bool.and_eq_true_iff.mp driven).2
    · intro iface current
      cases current
  · split
    · intro iface current
      rw [addEndpoint_iface] at current
      exact entered iface current
    · exact entered

theorem entered_complete (entered : Entered scan) {found : MscInterface} (inside : found ∈ scan.complete.toList) :
    found.iface.interfaceProtocol = BBB := by
  unfold Scan.complete at inside
  rw [mem_toList, bind_eq_some_iff] at inside
  obtain ⟨iface, current, inside⟩ := inside
  obtain ⟨epIn, _, inside⟩ := bind_eq_some_iff.mp inside
  obtain ⟨epOut, _, same⟩ := map_eq_some_iff.mp inside
  rw [← same]
  exact entered iface current

theorem findLoop_bulkOnly (formed : WellFormed rest) (entered : Entered scan) :
    ∀ found ∈ findLoop rest scan [], found.iface.interfaceProtocol = BBB := by
  induction formed generalizing scan with
  | done cut =>
    rw [findLoop_done scan [] cut]
    intro found inside
    exact entered_complete entered inside
  | step whole two iface endpoint later ih =>
    rw [findLoop_step scan [] whole two iface endpoint, findLoop_append later]
    intro found inside
    rcases mem_append.mp inside with here | behind
    · split at here
      · exact entered_complete entered here
      · cases here
    · exact ih (entered_next entered _) found behind

/-! The first scanner enters no interface but those for mass storage, whatever the bytes. -/

def Storage (scan : Scan) : Prop := ∀ iface, scan.currentIface = some iface → iface.interfaceClass = MASS_STORAGE

theorem storage_enter (scan : Scan) (iface : InterfaceDesc) :
    Storage (scan.enter iface (iface.interfaceClass == MASS_STORAGE)) := by
  unfold Scan.enter
  split
  next driven =>
    intro entered current
    cases current
    exact beq_iff_eq.mp driven
  · intro entered current
    cases current

theorem newLoop_storage {final : Scan} (storage : Storage scan) (ended : newLoop rest scan = .ok final) :
    Storage final := by
  fun_induction newLoop rest scan with
  | case1 | case2 | case3 =>
    cases ended
    exact storage
  | case4 | case6 => cases ended
  | case5 rest scan _ _ _ _ iface _ ih => exact ih (storage_enter scan iface) ended
  | case7 rest scan _ _ _ _ ep _ ih =>
    apply ih _ ended
    intro iface current
    rw [addEndpoint_iface] at current
    exact storage iface current
  | case8 rest scan _ _ _ _ ih => exact ih storage ended

theorem select_storage {configDesc : List UInt8} {configValue : UInt8} {found : MscInterface}
    (selected : select configDesc = .ok (configValue, found)) : found.iface.interfaceClass = MASS_STORAGE := by
  unfold select at selected
  split at selected
  · cases selected
  · split at selected
    · cases selected
    next scan ended =>
      have storage : Storage scan := by
        apply newLoop_storage _ ended
        intro iface current
        cases current
      split at selected
      next whole =>
        cases selected
        obtain ⟨iface, current, rest⟩ := bind_eq_some_iff.mp whole
        obtain ⟨epIn, _, rest⟩ := bind_eq_some_iff.mp rest
        obtain ⟨epOut, _, same⟩ := map_eq_some_iff.mp rest
        rw [← same]
        exact storage iface current
      · cases selected

/-! Agreement. -/

structure Configuration (configDesc : List UInt8) : Prop where
  header : 9 ≤ configDesc.length
  formed : WellFormed configDesc

structure ScannersAgree (configDesc : List UInt8) : Prop where
  handed : (select configDesc).toOption.map Prod.snd = (findMscInterfaces configDesc).head?
  unsupported : select configDesc = .error .notSupported ↔ findMscInterfaces configDesc = []

theorem select_cases {configDesc : List UInt8} (configuration : Configuration configDesc) :
    (select configDesc = .error .notSupported ∧ findMscInterfaces configDesc = []) ∨
      ∃ configValue found, select configDesc = .ok (configValue, found) ∧
        (found.iface.interfaceProtocol = BBB → (findMscInterfaces configDesc).head? = some found) := by
  have header := configuration.header
  obtain ⟨scan, scanned, nothing, same⟩ := scan_beside configuration.formed beside_start
  have value : configDesc[5]? = some (configDesc[5]) := getElem?_eq_getElem (by omega)
  unfold select
  rw [value, scanned]
  dsimp only
  cases complete : scan.complete with
  | none => exact .inl ⟨rfl, nothing complete⟩
  | some found => exact .inr ⟨_, found, rfl, same found complete⟩

theorem agree_iff_selected {configDesc : List UInt8} (configuration : Configuration configDesc) :
    ScannersAgree configDesc ↔
      ∀ configValue found, select configDesc = .ok (configValue, found) → found.iface.interfaceProtocol = BBB := by
  constructor
  · intro agree configValue found selected
    have first : (findMscInterfaces configDesc).head? = some found := by
      rw [← agree.handed, selected]
      rfl
    have outside : Entered Scan.start := by
      intro iface current
      cases current
    exact findLoop_bulkOnly configuration.formed outside found (mem_of_head? first)
  · intro driven
    rcases select_cases configuration with ⟨refused, nothing⟩ | ⟨configValue, found, selected, same⟩
    · constructor
      · rw [refused, nothing]
        rfl
      · exact ⟨fun _ => nothing, fun _ => refused⟩
    · have first := same (driven configValue found selected)
      constructor
      · rw [selected, first]
        rfl
      · constructor
        · intro refused
          rw [selected] at refused
          cases refused
        · intro nothing
          rw [nothing] at first
          cases first

/-! Which interface comes first, read off the bytes. -/

def descriptors (rest : List UInt8) : List (List UInt8) :=
  if subLength rest < 2 ∨ rest.length < subLength rest then []
  else rest.take (subLength rest) :: descriptors (rest.drop (subLength rest))
termination_by rest.length
decreasing_by
  rw [length_drop]
  omega

def bulkEndpoint (inward : Bool) (desc : List UInt8) : Bool :=
  desc.getD 1 0 == 5 && desc.getD 3 0 &&& 0x03 == 2 && (desc.getD 2 0 &&& 0x80 != 0) == inward

def collects (inward : Bool) (later : List (List UInt8)) : Bool :=
  (later.takeWhile fun desc => desc.getD 1 0 != 4).any (bulkEndpoint inward)

def firstStorage : List (List UInt8) → Option (List UInt8)
  | [] => none
  | desc :: later =>
      if desc.getD 1 0 = 4 ∧ desc.getD 5 0 = 0x08 ∧ collects true later ∧ collects false later then some desc
      else firstStorage later

section FirstStorage
variable {desc : List UInt8} {later : List (List UInt8)}

theorem descriptors_done (cut : rest.length < 2 ∨ rest.length < subLength rest) : descriptors rest = [] := by
  rw [descriptors]
  apply if_pos
  match rest, cut with
  | [], _ => exact .inl Nat.two_pos
  | [byte], _ =>
    change byte.toNat < 2 ∨ 1 < byte.toNat
    omega
  | _ :: _ :: _, cut =>
    refine .inr (cut.resolve_left ?_)
    rw [length_cons, length_cons]
    omega

theorem descriptors_step (whole : subLength rest ≤ rest.length) (two : 2 ≤ subLength rest) :
    descriptors rest = rest.take (subLength rest) :: descriptors (rest.drop (subLength rest)) := by
  rw [descriptors]
  exact if_neg (by omega)

theorem collects_interface (inward : Bool) (isIface : desc.getD 1 0 = 4) : collects inward (desc :: later) = false := by
  unfold collects
  rw [takeWhile_cons, isIface]
  rfl

theorem collects_other (inward : Bool) (other : desc.getD 1 0 ≠ 4) :
    collects inward (desc :: later) = (bulkEndpoint inward desc || collects inward later) := by
  unfold collects
  rw [takeWhile_cons, if_pos (bne_iff_ne.mpr other)]
  rfl

theorem firstStorage_other (other : desc.getD 1 0 ≠ 4) : firstStorage (desc :: later) = firstStorage later := by
  rw [firstStorage]
  exact if_neg (fun offered => other offered.1)

end FirstStorage

def Scan.endpoint (scan : Scan) : Bool → Option EndpointDesc
  | true => scan.epIn
  | false => scan.epOut

def pending (scan : Scan) (later : List (List UInt8)) : Option UInt8 :=
  if scan.currentIface.isSome ∧ ∀ inward, (scan.endpoint inward).isSome || collects inward later then
    scan.currentIface.map InterfaceDesc.interfaceProtocol
  else (firstStorage later).map (List.getD · 7 0)

section Pending
variable (scan : Scan) {later : List (List UInt8)}

theorem complete_isSome : scan.complete.isSome ↔ scan.currentIface.isSome ∧ ∀ inward, (scan.endpoint inward).isSome := by
  obtain ⟨iface, epIn, epOut⟩ := scan
  rw [Bool.forall_bool]
  cases iface <;> cases epIn <;> cases epOut <;> simp [Scan.complete, Scan.endpoint]

theorem complete_protocol (full : scan.complete.isSome) :
    scan.complete.map (fun found => found.iface.interfaceProtocol) =
      scan.currentIface.map InterfaceDesc.interfaceProtocol := by
  obtain ⟨iface, epIn, epOut⟩ := scan
  cases iface <;> cases epIn <;> cases epOut <;> first | rfl | cases full

theorem addEndpoint_isSome {desc : List UInt8} (isEndpoint : desc.getD 1 0 = ENDPOINT) (inward : Bool) :
    ((scan.addEndpoint (EndpointDesc.read desc)).endpoint inward).isSome =
      ((scan.endpoint inward).isSome || bulkEndpoint inward desc) := by
  unfold Scan.addEndpoint bulkEndpoint
  change ((if desc.getD 3 0 &&& 0x03 = 2 then if (desc.getD 2 0 &&& 0x80 != 0) = true then _ else _ else scan).endpoint
    inward).isSome = _
  rw [isEndpoint]
  by_cases bulk : desc.getD 3 0 &&& 0x03 = 2
  · rw [if_pos bulk, bulk]
    cases (desc.getD 2 0 &&& 0x80 != 0) <;> cases inward <;> simp [Scan.endpoint, ENDPOINT]
  · rw [if_neg bulk, beq_false_of_ne bulk, Bool.and_false, Bool.false_and, Bool.or_false]

theorem pending_full (full : scan.complete.isSome) (later : List (List UInt8)) :
    scan.complete.map (fun found => found.iface.interfaceProtocol) = pending scan later := by
  obtain ⟨inside, endpoints⟩ := (complete_isSome scan).mp full
  rw [complete_protocol scan full]
  exact (if_pos ⟨inside, fun inward => Bool.or_eq_true_iff.mpr (.inl (endpoints inward))⟩).symm

theorem pending_nil : scan.complete.map (fun found => found.iface.interfaceProtocol) = pending scan [] := by
  by_cases full : scan.complete.isSome
  · exact pending_full scan full []
  · have unfinished : ¬(scan.currentIface.isSome ∧ ∀ inward, (scan.endpoint inward).isSome || collects inward []) := by
      simp only [show ∀ inward, collects inward [] = false from fun _ => rfl, Bool.or_false]
      rwa [← complete_isSome]
    unfold pending
    rw [if_neg unfinished, Option.not_isSome_iff_eq_none.mp full]
    rfl

theorem pending_enter {desc : List UInt8} (isIface : subType desc = INTERFACE) (unfinished : ¬scan.complete.isSome) :
    pending scan (desc :: later) =
      pending (scan.enter (InterfaceDesc.read desc) (massStorage (InterfaceDesc.read desc))) later := by
  have passed : ¬(scan.currentIface.isSome ∧ ∀ inward, (scan.endpoint inward).isSome || collects inward (desc :: later)) := by
    simp only [collects_interface _ isIface, Bool.or_false]
    rwa [← complete_isSome]
  unfold pending
  rw [if_neg passed, firstStorage]
  cases driven : massStorage (InterfaceDesc.read desc) with
  | true =>
    have storage : desc.getD 5 0 = 0x08 := beq_iff_eq.mp driven
    by_cases offered : collects true later ∧ collects false later
    · rw [if_pos ⟨isIface, storage, offered⟩, if_pos]
      · rfl
      · refine ⟨rfl, fun inward => ?_⟩
        cases inward with
        | true => exact offered.1
        | false => exact offered.2
    · rw [if_neg (fun all => offered all.2.2), if_neg]
      intro full
      exact offered ⟨full.2 true, full.2 false⟩
  | false =>
    have foreign : desc.getD 5 0 ≠ 0x08 := ne_of_beq_false driven
    rw [if_neg (fun all => foreign all.2.1), if_neg]
    intro full
    cases full.1

theorem bulkEndpoint_other {desc : List UInt8} (other : subType desc ≠ ENDPOINT) (inward : Bool) :
    bulkEndpoint inward desc = false := by
  change (subType desc == ENDPOINT && _ && _) = false
  rw [beq_false_of_ne other, Bool.false_and, Bool.false_and]

theorem pending_endpoint {desc : List UInt8} (other : subType desc ≠ INTERFACE) :
    pending scan (desc :: later) =
      pending (if subType desc = ENDPOINT ∧ scan.currentIface.isSome then scan.addEndpoint (EndpointDesc.read desc) else scan)
        later := by
  unfold pending
  rw [firstStorage_other other]
  simp only [collects_other _ other]
  by_cases inside : scan.currentIface.isSome
  · by_cases isEndpoint : subType desc = ENDPOINT
    · simp only [if_pos (And.intro isEndpoint inside), addEndpoint_iface, addEndpoint_isSome scan isEndpoint, Bool.or_assoc]
    · simp only [isEndpoint, false_and, if_false, bulkEndpoint_other isEndpoint, Bool.false_or]
  · simp only [inside, Bool.false_eq_true, and_false, if_false, false_and]

theorem pending_next {desc : List UInt8} (goes : ¬(subType desc = INTERFACE ∧ scan.complete.isSome)) :
    pending scan (desc :: later) = pending (scan.next massStorage desc) later := by
  unfold Scan.next
  by_cases isIface : subType desc = INTERFACE
  · rw [if_pos isIface]
    exact pending_enter scan isIface fun full => goes ⟨isIface, full⟩
  · rw [if_neg isIface]
    exact pending_endpoint scan isIface

end Pending

theorem next_take (driven : InterfaceDesc → Bool) (scan : Scan) (two : 2 ≤ subLength rest)
    (iface : subType rest = INTERFACE → INTERFACE_DESC_LEN ≤ subLength rest)
    (endpoint : subType rest = ENDPOINT → ENDPOINT_DESC_LEN ≤ subLength rest) :
    scan.next driven (rest.take (subLength rest)) = scan.next driven rest := by
  have kind : subType (rest.take (subLength rest)) = subType rest := getD_take (by omega)
  unfold Scan.next
  rw [kind]
  by_cases isIface : subType rest = INTERFACE
  · rw [if_pos isIface, if_pos isIface, interface_read_take (iface isIface)]
  · rw [if_neg isIface, if_neg isIface]
    by_cases isEndpoint : subType rest = ENDPOINT
    · rw [endpoint_read_take (endpoint isEndpoint)]
    · rw [if_neg (fun both => isEndpoint both.1), if_neg (fun both => isEndpoint both.1)]

theorem newLoop_pending (formed : WellFormed rest) (scan : Scan) :
    ∃ final, newLoop rest scan = .ok final ∧
      final.complete.map (fun found => found.iface.interfaceProtocol) = pending scan (descriptors rest) := by
  induction formed generalizing scan with
  | done cut =>
    refine ⟨scan, newLoop_done scan cut, ?_⟩
    rw [descriptors_done cut]
    exact pending_nil scan
  | @step rest whole two iface endpoint later ih =>
    rw [newLoop_step scan whole two iface endpoint, descriptors_step whole two]
    by_cases stops : subType rest = INTERFACE ∧ scan.complete.isSome
    · exact ⟨scan, if_pos stops, pending_full scan stops.2 _⟩
    · have kind : subType (rest.take (subLength rest)) = subType rest := getD_take (by omega)
      rw [if_neg stops, pending_next scan (by rwa [kind]), next_take massStorage scan two iface endpoint]
      exact ih _

theorem select_protocol {configDesc : List UInt8} (configuration : Configuration configDesc) :
    (select configDesc).toOption.map (fun pair => pair.2.iface.interfaceProtocol) =
      (firstStorage (descriptors configDesc)).map (List.getD · 7 0) := by
  have header := configuration.header
  obtain ⟨final, ended, protocol⟩ := newLoop_pending configuration.formed Scan.start
  have value : configDesc[5]? = some (configDesc[5]) := getElem?_eq_getElem (by omega)
  have fresh : pending Scan.start (descriptors configDesc) = (firstStorage (descriptors configDesc)).map (List.getD · 7 0) :=
    if_neg (fun both => by cases both.1)
  rw [← fresh, ← protocol]
  unfold select
  rw [value, ended]
  dsimp only
  cases final.complete <;> rfl

/-- The scanners agree exactly if the first storage interface is Bulk-Only. -/
theorem scanners_agree_iff {configDesc : List UInt8} (configuration : Configuration configDesc) :
    ScannersAgree configDesc ↔
      ∀ desc, firstStorage (descriptors configDesc) = some desc → desc.getD 7 0 = 0x50 := by
  have protocol := select_protocol configuration
  rw [agree_iff_selected configuration]
  constructor
  · intro driven desc first
    rw [first] at protocol
    obtain ⟨⟨configValue, found⟩, chosen, same⟩ := map_eq_some_iff.mp protocol
    have selected : select configDesc = .ok (configValue, found) := by
      cases answer : select configDesc with
      | error err =>
        rw [answer] at chosen
        cases chosen
      | ok pair =>
        rw [answer] at chosen
        cases chosen
        rfl
    exact same.symm.trans (driven configValue found selected)
  · intro offered configValue found selected
    rw [selected] at protocol
    obtain ⟨desc, first, same⟩ := map_eq_some_iff.mp protocol.symm
    exact same.symm.trans (offered desc first)

def storageConfig (protocol : UInt8) : List UInt8 :=
  [9, 2, 32, 0, 1, 1, 0, 0x80, 50, 9, 4, 0, 0, 2, 0x08, 0x06, protocol, 0, 7, 5, 0x81, 2, 0, 2, 0, 7, 5, 0x02, 2, 0, 2, 0]

theorem storageConfig_formed (protocol : UInt8) : Configuration (storageConfig protocol) := by
  have noIface : ENDPOINT ≠ INTERFACE := by decide
  constructor
  · exact Nat.le_of_ble_eq_true rfl
  · refine WellFormed.step (show 9 ≤ 32 by decide) (show 2 ≤ 9 by decide)
      (fun _ => show 9 ≤ 9 by decide) (fun _ => show 7 ≤ 9 by decide) ?_
    refine WellFormed.step (show 9 ≤ 23 by decide) (show 2 ≤ 9 by decide)
      (fun _ => show 9 ≤ 9 by decide) (fun _ => show 7 ≤ 9 by decide) ?_
    refine WellFormed.step (show 7 ≤ 14 by decide) (show 2 ≤ 7 by decide)
      (fun same => absurd same noIface) (fun _ => show 7 ≤ 7 by decide) ?_
    refine WellFormed.step (show 7 ≤ 7 by decide) (show 2 ≤ 7 by decide)
      (fun same => absurd same noIface) (fun _ => show 7 ≤ 7 by decide) ?_
    exact WellFormed.done (.inl (show 0 < 2 by decide))

theorem scanners_agree_bulkOnly : ScannersAgree (storageConfig BBB) := by
  apply (scanners_agree_iff (storageConfig_formed BBB)).mpr
  intro desc first
  have protocol : (firstStorage (descriptors (storageConfig BBB))).map (List.getD · 7 0) = some 0x50 := by decide +kernel
  rw [first] at protocol
  exact some.inj protocol

theorem attachedScsi_driven : Configuration (storageConfig 0x62) ∧ findMscInterfaces (storageConfig 0x62) = [] ∧
      (select (storageConfig 0x62)).toOption.map (fun pair => pair.2.iface.interfaceProtocol) = some 0x62 ∧
      ¬ScannersAgree (storageConfig 0x62) := by
  have nothing : findMscInterfaces (storageConfig 0x62) = [] := by decide +kernel
  have chosen : (select (storageConfig 0x62)).toOption.map (fun pair => pair.2.iface.interfaceProtocol) = some 0x62 := by
    decide +kernel
  refine ⟨storageConfig_formed 0x62, nothing, chosen, ?_⟩
  intro agree
  rw [agree.unsupported.mpr nothing] at chosen
  cases chosen

end HermitLocal.Usb.MscScan
