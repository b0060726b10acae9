import HermitLocal.Lib.Simulation

/-! The PS/2 keyboard driver: scan codes of set 1 (and of set 2, if the keyboard sends a release prefix of it) are decoded to
bytes of a console. Beside the decoder stand the physical keys that the codes come from. -/

namespace HermitLocal.Keyboard.Decoder
open Lib.Simulation List

inductive Meaning where
  | fixed (char : Char)
  | shifted (normal other : Char)
  | letter (lower : Char)

def ascii (char : Char) : UInt8 := UInt8.ofNat char.toNat

def Meaning.byte (shift capsLock : Bool) : Meaning → UInt8
  | .fixed char => ascii char
  | .shifted normal other => if shift then ascii other else ascii normal
  | .letter lower => if shift ^^ capsLock then ascii lower - 32 else ascii lower

def set1 : List (UInt8 × Meaning) :=
  [(0x01, .fixed '\x1b'), (0x02, .shifted '1' '!'), (0x03, .shifted '2' '@'), (0x04, .shifted '3' '#'),
   (0x05, .shifted '4' '$'), (0x06, .shifted '5' '%'), (0x07, .shifted '6' '^'), (0x08, .shifted '7' '&'),
   (0x09, .shifted '8' '*'), (0x0a, .shifted '9' '('), (0x0b, .shifted '0' ')'), (0x0c, .shifted '-' '_'),
   (0x0d, .shifted '=' '+'), (0x0e, .fixed '\x08'), (0x0f, .fixed '\t'), (0x10, .letter 'q'),
   (0x11, .letter 'w'), (0x12, .letter 'e'), (0x13, .letter 'r'), (0x14, .letter 't'), (0x15, .letter 'y'),
   (0x16, .letter 'u'), (0x17, .letter 'i'), (0x18, .letter 'o'), (0x19, .letter 'p'),
   (0x1a, .shifted '[' '\x7b'), (0x1b, .shifted ']' '\x7d'), (0x1c, .fixed '\n'), (0x1e, .letter 'a'),
   (0x1f, .letter 's'), (0x20, .letter 'd'), (0x21, .letter 'f'), (0x22, .letter 'g'), (0x23, .letter 'h'),
   (0x24, .letter 'j'), (0x25, .letter 'k'), (0x26, .letter 'l'), (0x27, .shifted ';' ':'),
   (0x28, .shifted '\x27' '\x22'), (0x29, .shifted '\x60' '~'), (0x2b, .shifted '\\' '|'), (0x2c, .letter 'z'),
   (0x2d, .letter 'x'), (0x2e, .letter 'c'), (0x2f, .letter 'v'), (0x30, .letter 'b'), (0x31, .letter 'n'),
   (0x32, .letter 'm'), (0x33, .shifted ',' '<'), (0x34, .shifted '.' '>'), (0x35, .shifted '/' '?'),
   (0x39, .fixed ' ')]

def set2 : List (UInt8 × Meaning) :=
  [(0x76, .fixed '\x1b'), (0x16, .shifted '1' '!'), (0x1e, .shifted '2' '@'), (0x26, .shifted '3' '#'),
   (0x25, .shifted '4' '$'), (0x2e, .shifted '5' '%'), (0x36, .shifted '6' '^'), (0x3d, .shifted '7' '&'),
   (0x3e, .shifted '8' '*'), (0x46, .shifted '9' '('), (0x45, .shifted '0' ')'), (0x4e, .shifted '-' '_'),
   (0x55, .shifted '=' '+'), (0x66, .fixed '\x08'), (0x0d, .fixed '\t'), (0x15, .letter 'q'),
   (0x1d, .letter 'w'), (0x24, .letter 'e'), (0x2d, .letter 'r'), (0x2c, .letter 't'), (0x35, .letter 'y'),
   (0x3c, .letter 'u'), (0x43, .letter 'i'), (0x44, .letter 'o'), (0x4d, .letter 'p'),
   (0x54, .shifted '[' '\x7b'), (0x5b, .shifted ']' '\x7d'), (0x5a, .fixed '\n'), (0x1c, .letter 'a'),
   (0x1b, .letter 's'), (0x23, .letter 'd'), (0x2b, .letter 'f'), (0x34, .letter 'g'), (0x33, .letter 'h'),
   (0x3b, .letter 'j'), (0x42, .letter 'k'), (0x4b, .letter 'l'), (0x4c, .shifted ';' ':'),
   (0x52, .shifted '\x27' '\x22'), (0x0e, .shifted '\x60' '~'), (0x5d, .shifted '\\' '|'), (0x1a, .letter 'z'),
   (0x22, .letter 'x'), (0x21, .letter 'c'), (0x2a, .letter 'v'), (0x32, .letter 'b'), (0x31, .letter 'n'),
   (0x3a, .letter 'm'), (0x41, .shifted ',' '<'), (0x49, .shifted '.' '>'), (0x4a, .shifted '/' '?'),
   (0x29, .fixed ' ')]

def decodeBy (table : List (UInt8 × Meaning)) (keyC code : UInt8) (shift ctrl capsLock : Bool) : Option UInt8 :=
  if ctrl = true ∧ code = keyC then some 3 else (table.lookup code).map (Meaning.byte shift capsLock)

def decodeSet1 : UInt8 → Bool → Bool → Bool → Option UInt8 := decodeBy set1 0x2e

def decodeSet2 : UInt8 → Bool → Bool → Bool → Option UInt8 := decodeBy set2 0x21

structure Ps2Keyboard where
  present : Bool
  leftShift : Bool
  rightShift : Bool
  ctrl : Bool
  capsLock : Bool
  extended : Bool
  breakPending : Bool
  scanSet2 : Bool
  deriving DecidableEq, Repr

namespace Ps2Keyboard
variable (keyboard : Ps2Keyboard) (scancode : UInt8)

def shiftActive : Bool := keyboard.leftShift || keyboard.rightShift

def clearMomentaryModifiers : Ps2Keyboard := { keyboard with leftShift := false, rightShift := false }

def typed (byte : Option UInt8) : Option UInt8 × Ps2Keyboard :=
  (byte, if byte.isSome then keyboard.clearMomentaryModifiers else keyboard)

def decodeExtended : Option UInt8 × Ps2Keyboard :=
  let cleared := { keyboard with extended := false }
  if scancode = 0x1c then (some (ascii '\n'), cleared)
  else if scancode = 0xaa then (none, { cleared with leftShift := false })
  else if scancode = 0xb6 then (none, { cleared with rightShift := false })
  else (none, cleared)

def decodePlain : Option UInt8 × Ps2Keyboard :=
  let released := scancode &&& 0x80 != 0
  let code := scancode &&& 0x7f
  if code = 0x2a then (none, { keyboard with leftShift := !released })
  else if code = 0x36 then (none, { keyboard with rightShift := !released })
  else if code = 0x1d then (none, { keyboard with ctrl := !released })
  else if code = 0x3a ∧ released = false then (none, { keyboard.clearMomentaryModifiers with capsLock := false })
  else if released = true then (none, keyboard)
  else keyboard.typed (decodeSet1 code keyboard.shiftActive keyboard.ctrl keyboard.capsLock)

def decodeExtended2 (released : Bool) : Option UInt8 × Ps2Keyboard :=
  let cleared := { keyboard with extended := false }
  if scancode = 0x5a ∧ released = false then (some (ascii '\n'), cleared)
  else if scancode = 0x12 then (none, { cleared with leftShift := !released })
  else if scancode = 0x59 then (none, { cleared with rightShift := !released })
  else if scancode = 0x14 then (none, { cleared with ctrl := !released })
  else (none, cleared)

def decodePlain2 (released : Bool) : Option UInt8 × Ps2Keyboard :=
  if scancode = 0x12 then (none, { keyboard with leftShift := !released })
  else if scancode = 0x59 then (none, { keyboard with rightShift := !released })
  else if scancode = 0x14 then (none, { keyboard with ctrl := !released })
  else if scancode = 0x58 ∧ released = false then (none, { keyboard.clearMomentaryModifiers with capsLock := false })
  else if released = true then (none, keyboard)
  else keyboard.typed (decodeSet2 scancode keyboard.shiftActive keyboard.ctrl keyboard.capsLock)

def decodeScanSet2 : Option UInt8 × Ps2Keyboard :=
  let released := keyboard.breakPending
  let taken := { keyboard with breakPending := false }
  if keyboard.extended then taken.decodeExtended2 scancode released else taken.decodePlain2 scancode released

def decode : Option UInt8 × Ps2Keyboard :=
  if scancode = 0xfa ∨ scancode = 0xfe ∨ scancode = 0xaa ∨ scancode = 0xee then (none, keyboard)
  else if scancode = 0xe0 then (none, { keyboard with extended := true })
  else if scancode = 0xf0 then (none, { keyboard with breakPending := true, scanSet2 := true })
  else if keyboard.scanSet2 then keyboard.decodeScanSet2 scancode
  else if keyboard.extended then keyboard.decodeExtended scancode
  else keyboard.decodePlain scancode

def after (bytes : List UInt8) : Ps2Keyboard := bytes.foldl (fun keyboard byte => (keyboard.decode byte).2) keyboard

def Shifted : Prop := keyboard.extended = false ∧ keyboard.shiftActive = true ∧ (keyboard.decode scancode).1.isSome = true

end Ps2Keyboard

/-! The physical keys. -/

structure Key where
  code : Fin 128
  notPrefix : code ≠ 0x60 ∧ code ≠ 0x61
  deriving DecidableEq

def LEFT_SHIFT : Key := ⟨0x2a, by decide⟩

def RIGHT_SHIFT : Key := ⟨0x36, by decide⟩

inductive Event where
  | plain (key : Key) (released : Bool)
  | extended (code : Fin 128) (released : Bool)
  | pause

def scancode (code : Fin 128) (released : Bool) : UInt8 := UInt8.ofNat (if released then code + 0x80 else code)

def Event.bytes : Event → List UInt8
  | .plain key released => [scancode key.code released]
  | .extended code released => [0xe0, scancode code released]
  | .pause => [0xe1, 0x1d, 0x45, 0xe1, 0x9d, 0xc5]

structure Scene where
  keyboard : Ps2Keyboard
  leftHeld : Bool
  rightHeld : Bool

namespace Scene
variable (scene : Scene)

def held : Bool := scene.leftHeld || scene.rightHeld

def hold : Event → Scene
  | .plain key released =>
      if key = LEFT_SHIFT then { scene with leftHeld := !released }
      else if key = RIGHT_SHIFT then { scene with rightHeld := !released }
      else scene
  | _ => scene

def step (event : Event) : Scene := { scene.hold event with keyboard := scene.keyboard.after event.bytes }

end Scene

structure Follows (scene : Scene) (event : Event) : Prop where
  decoded : ∀ past byte, past ++ [byte] <+: event.bytes → (scene.keyboard.after past).Shifted byte → (scene.step event).held = true
  next : ∀ (key : Key) released, (scene.step event).keyboard.Shifted (scancode key.code released) → (scene.step event).held = true
  cleared : ∀ code released, event = .extended code released → ∀ (key : Key) released,
    ((scene.step event).keyboard.decode (scancode key.code released)).1 = (scene.keyboard.decode (scancode key.code released)).1
  set1 : (scene.step event).keyboard.scanSet2 = false

def Clean (scene : Scene) : Event → Prop
  | .plain key released => released = true → key.code ≠ 0x70 ∧
      (key = LEFT_SHIFT → scene.keyboard.shiftActive = true → scene.rightHeld = true) ∧
      (key = RIGHT_SHIFT → scene.keyboard.leftShift = true → scene.leftHeld = true)
  | .extended code released => scancode code released ∉ [0xaa, 0xee, 0xfa, 0xfe, 0xe0, 0xf0] ∧
      (scancode code released = 0xb6 → scene.keyboard.rightShift = true → scene.keyboard.leftShift = true)
  | .pause => True

structure Sound (scene : Scene) : Prop where
  extended : scene.keyboard.extended = false
  set1 : scene.keyboard.scanSet2 = false
  shift : scene.keyboard.shiftActive = true → scene.held = true

variable {code : Fin 128}

section Codes

theorem scancode_code : ∀ (code : Fin 128) (released : Bool), scancode code released &&& 0x7f = UInt8.ofNat code := by
  decide

theorem code_injective {other : Fin 128} (same : UInt8.ofNat code = UInt8.ofNat other) : code = other := by
  have values := congrArg UInt8.toNat same
  rw [UInt8.toNat_ofNat', UInt8.toNat_ofNat'] at values
  omega

def special : List UInt8 := [0xaa, 0xee, 0xfa, 0xfe, 0xe0, 0xf0]

theorem press_not_special : ∀ code : Fin 128, scancode code false ∉ special := by
  decide

theorem release_special : ∀ code : Fin 128, scancode code true ∈ special → code ≠ 0x60 → code ≠ 0x70 →
    scancode code true = 0xfa ∨ scancode code true = 0xfe ∨ scancode code true = 0xaa ∨ scancode code true = 0xee := by
  decide

end Codes

section Decode
variable {keyboard : Ps2Keyboard} {byte : UInt8}

theorem decode_ordinary (ordinary : byte ∉ special) (set1 : keyboard.scanSet2 = false) :
    keyboard.decode byte = if keyboard.extended then keyboard.decodeExtended byte else keyboard.decodePlain byte := by
  unfold special at ordinary
  simp only [mem_cons, not_mem_nil, or_false, not_or] at ordinary
  unfold Ps2Keyboard.decode
  rw [if_neg (by tauto), if_neg (by tauto), if_neg (by tauto), set1]
  rfl

structure Waits (keyboard : Ps2Keyboard) : Prop where
  extended : keyboard.extended = false
  set1 : keyboard.scanSet2 = false

theorem Waits.decode (waits : Waits keyboard) (ordinary : byte ∉ special) :
    keyboard.decode byte = keyboard.decodePlain byte := by
  rw [decode_ordinary ordinary waits.set1, waits.extended]
  rfl

theorem typed_waits (waits : Waits keyboard) (decoded : Option UInt8) : Waits (keyboard.typed decoded).2 := by
  unfold Ps2Keyboard.typed
  split
  · exact { waits with }
  · exact waits

theorem decodePlain_waits (waits : Waits keyboard) : Waits (keyboard.decodePlain byte).2 := by
  unfold Ps2Keyboard.decodePlain
  dsimp only
  split_ifs
  · exact { waits with }
  · exact { waits with }
  · exact { waits with }
  · exact { waits with }
  · exact waits
  · exact typed_waits waits _

theorem decodePlain_shift (notLeft : byte &&& 0x7f ≠ 0x2a) (notRight : byte &&& 0x7f ≠ 0x36)
    (active : (keyboard.decodePlain byte).2.shiftActive = true) : keyboard.shiftActive = true := by
  unfold Ps2Keyboard.decodePlain at active
  rw [if_neg notLeft, if_neg notRight] at active
  split_ifs at active
  · exact active
  · cases active
  · exact active
  · unfold Ps2Keyboard.typed at active
    split at active
    · cases active
    · exact active

theorem decode_output {other : Ps2Keyboard} (waits : Waits keyboard) (otherWaits : Waits other)
    (shift : other.shiftActive = keyboard.shiftActive) (ctrl : other.ctrl = keyboard.ctrl)
    (capsLock : other.capsLock = keyboard.capsLock) (byte : UInt8) : (other.decode byte).1 = (keyboard.decode byte).1 := by
  by_cases ordinary : byte ∈ special
  · unfold Ps2Keyboard.decode
    unfold special at ordinary
    simp only [mem_cons, not_mem_nil, or_false] at ordinary
    split_ifs
    · rfl
    · rfl
    · rfl
    all_goals tauto
  · rw [waits.decode ordinary, otherWaits.decode ordinary]
    unfold Ps2Keyboard.decodePlain Ps2Keyboard.typed
    dsimp only
    rw [shift, ctrl, capsLock]
    split_ifs <;> rfl

def keyA : Key := ⟨0x1e, by decide⟩

theorem decode_keyA (waits : Waits keyboard) :
    (keyboard.decode (scancode keyA.code false)).1 =
      some (Meaning.byte keyboard.shiftActive keyboard.capsLock (.letter 'a')) := by
  rw [waits.decode (press_not_special _)]
  have found : decodeSet1 0x1e keyboard.shiftActive keyboard.ctrl keyboard.capsLock =
      some (Meaning.byte keyboard.shiftActive keyboard.capsLock (.letter 'a')) := by
    unfold decodeSet1 decodeBy
    rw [if_neg fun both => absurd both.2 (by decide)]
    rfl
  exact found

theorem letter_injective : ∀ shift other capsLock : Bool,
    Meaning.byte shift capsLock (.letter 'a') = Meaning.byte other capsLock (.letter 'a') → shift = other := by
  decide

end Decode

section Scene
variable {scene : Scene}

theorem Sound.waits (sound : Sound scene) : Waits scene.keyboard := { sound with }

theorem sound_of (waits : Waits scene.keyboard) (shift : scene.keyboard.shiftActive = true → scene.held = true) : Sound scene :=
  ⟨waits.extended, waits.set1, shift⟩

variable {key : Key} {released : Bool} {keyboard : Ps2Keyboard} {byte : UInt8}

theorem hold_other (notLeft : key ≠ LEFT_SHIFT) (notRight : key ≠ RIGHT_SHIFT) (released : Bool) :
    scene.hold (.plain key released) = scene := by
  unfold Scene.hold
  dsimp only
  rw [if_neg notLeft, if_neg notRight]

theorem code_ne {other : Key} (different : key ≠ other) (released : Bool) :
    scancode key.code released &&& 0x7f ≠ UInt8.ofNat other.code := by
  intro same
  rw [scancode_code] at same
  apply different
  have codes := code_injective same
  cases key
  congr

theorem press_left (waits : Waits scene.keyboard) :
    scene.keyboard.after (Event.bytes (.plain LEFT_SHIFT false)) = { scene.keyboard with leftShift := true } := by
  change (scene.keyboard.decode 0x2a).2 = _
  rw [waits.decode (by decide)]
  rfl

theorem press_right (waits : Waits scene.keyboard) :
    scene.keyboard.after (Event.bytes (.plain RIGHT_SHIFT false)) = { scene.keyboard with rightShift := true } := by
  change (scene.keyboard.decode 0x36).2 = _
  rw [waits.decode (by decide)]
  rfl

theorem release_right (waits : Waits scene.keyboard) :
    scene.keyboard.after (Event.bytes (.plain RIGHT_SHIFT true)) = { scene.keyboard with rightShift := false } := by
  change (scene.keyboard.decode 0xb6).2 = _
  rw [waits.decode (by decide)]
  rfl

theorem other_decode (notLeft : key ≠ LEFT_SHIFT) (notRight : key ≠ RIGHT_SHIFT)
    (waits : Waits scene.keyboard) (noSet2 : released = true → key.code ≠ 0x70) :
    Waits (scene.keyboard.after (Event.bytes (.plain key released))) ∧
      ((scene.keyboard.after (Event.bytes (.plain key released))).shiftActive = true → scene.keyboard.shiftActive = true) := by
  change Waits (scene.keyboard.decode (scancode key.code released)).2 ∧
    ((scene.keyboard.decode (scancode key.code released)).2.shiftActive = true → _)
  by_cases ordinary : scancode key.code released ∈ special
  · have kept : scene.keyboard.decode (scancode key.code released) = (none, scene.keyboard) := by
      cases released with
      | false => exact absurd ordinary (press_not_special key.code)
      | true => exact if_pos (release_special key.code ordinary key.notPrefix.1 (noSet2 rfl))
    rw [kept]
    exact ⟨waits, id⟩
  · rw [waits.decode ordinary]
    exact ⟨decodePlain_waits waits, decodePlain_shift (code_ne notLeft released) (code_ne notRight released)⟩

theorem left_sound (sound : Sound scene) (clean : Clean scene (.plain LEFT_SHIFT released)) :
    Sound (scene.step (.plain LEFT_SHIFT released)) := by
  cases released with
  | false =>
    apply sound_of
    · change Waits (scene.keyboard.after _)
      rw [press_left sound.waits]
      exact { sound with }
    · intro _
      rfl
  | true =>
    -- the code is discarded, and so the flag must have gone before the key has
    obtain ⟨-, under, -⟩ := clean rfl
    apply sound_of
    · exact sound.waits
    · intro active
      exact under rfl active

theorem right_sound (sound : Sound scene) (clean : Clean scene (.plain RIGHT_SHIFT released)) :
    Sound (scene.step (.plain RIGHT_SHIFT released)) := by
  cases released with
  | false =>
    apply sound_of
    · change Waits (scene.keyboard.after _)
      rw [press_right sound.waits]
      exact { sound with }
    · intro _
      exact Bool.or_true _
  | true =>
    obtain ⟨-, -, under⟩ := clean rfl
    apply sound_of
    · change Waits (scene.keyboard.after _)
      rw [release_right sound.waits]
      exact { sound with }
    · intro active
      change (scene.keyboard.after _).shiftActive = true at active
      rw [release_right sound.waits] at active
      change (scene.keyboard.leftShift || false) = true at active
      change (scene.leftHeld || false) = true
      rw [Bool.or_false] at active ⊢
      exact under rfl active

theorem plain_sound (sound : Sound scene) (clean : Clean scene (.plain key released)) :
    Sound (scene.step (.plain key released)) := by
  by_cases left : key = LEFT_SHIFT
  · subst left
    exact left_sound sound clean
  by_cases right : key = RIGHT_SHIFT
  · subst right
    exact right_sound sound clean
  obtain ⟨waits, shift⟩ := other_decode left right sound.waits fun up => (clean up).1
  apply sound_of waits
  intro active
  unfold Scene.step
  rw [hold_other left right]
  exact sound.shift (shift active)

theorem extended_after (waits : Waits keyboard) (ordinary : scancode code released ∉ special) :
    keyboard.after (Event.bytes (.extended code released)) =
      if scancode code released = 0xb6 then { keyboard with rightShift := false } else keyboard := by
  have notLeft : scancode code released ≠ 0xaa := by
    intro same
    rw [same] at ordinary
    exact ordinary (by decide)
  obtain ⟨present, leftShift, rightShift, ctrl, capsLock, extended, breakPending, scanSet2⟩ := keyboard
  obtain ⟨rfl, rfl⟩ : extended = false ∧ scanSet2 = false := ⟨waits.extended, waits.set1⟩
  change (Ps2Keyboard.decode ⟨present, leftShift, rightShift, ctrl, capsLock, true, breakPending, false⟩ _).2 = _
  rw [decode_ordinary ordinary rfl, if_pos rfl]
  unfold Ps2Keyboard.decodeExtended
  split_ifs with enter right
  · rw [enter] at right
    cases right
  · rfl
  · rfl
  · rfl

theorem extended_special (keyboard : Ps2Keyboard) (taken : scancode code released ∈ special) :
    (keyboard.after (Event.bytes (.extended code released))).extended = true := by
  change ((keyboard.decode 0xe0).2.decode (scancode code released)).2.extended = true
  unfold special at taken
  simp only [mem_cons, not_mem_nil, or_false] at taken
  rw [Ps2Keyboard.decode]
  split_ifs
  · rfl
  · rfl
  · rfl
  all_goals tauto

theorem extended_sound (sound : Sound scene) (clean : Clean scene (.extended code released)) :
    Sound (scene.step (.extended code released)) ∧ ∀ byte,
      ((scene.step (.extended code released)).keyboard.decode byte).1 = (scene.keyboard.decode byte).1 := by
  have after := extended_after sound.waits clean.1
  change Sound { scene with keyboard := scene.keyboard.after _ } ∧
    ∀ byte, ((scene.keyboard.after _).decode byte).1 = (scene.keyboard.decode byte).1
  rw [after]
  split_ifs with right
  · have waits : Waits { scene.keyboard with rightShift := false } := { sound with }
    have same : Ps2Keyboard.shiftActive { scene.keyboard with rightShift := false } = scene.keyboard.shiftActive := by
      change (scene.keyboard.leftShift || false) = (scene.keyboard.leftShift || scene.keyboard.rightShift)
      have implied := clean.2 right
      cases set : scene.keyboard.rightShift with
      | false => rfl
      | true =>
        rw [implied set]
        rfl
    constructor
    · apply sound_of waits
      intro active
      exact sound.shift (same.symm.trans active)
    · exact decode_output sound.waits waits same rfl rfl
  · exact ⟨sound, fun byte => rfl⟩

theorem pause_silent (keyboard : Ps2Keyboard) (inside : byte ∈ Event.bytes .pause) :
    byte ∉ special ∧ byte &&& 0x7f ≠ 0x2a ∧ byte &&& 0x7f ≠ 0x36 ∧ (keyboard.decodePlain byte).1 = none := by
  have unknown : decodeSet1 0x45 keyboard.shiftActive keyboard.ctrl keyboard.capsLock = none := by
    unfold decodeSet1 decodeBy
    rw [if_neg fun both => absurd both.2 (by decide)]
    rfl
  unfold Event.bytes at inside
  simp only [mem_cons, not_mem_nil, or_false] at inside
  rcases inside with rfl | rfl | rfl | rfl | rfl | rfl
  all_goals exact ⟨by decide, by decide, by decide, by first | rfl | exact unknown⟩

theorem after_silent {bytes : List UInt8} (waits : Waits keyboard)
    (silent : ∀ byte ∈ bytes, ∀ other : Ps2Keyboard,
      byte ∉ special ∧ byte &&& 0x7f ≠ 0x2a ∧ byte &&& 0x7f ≠ 0x36 ∧ (other.decodePlain byte).1 = none) :
    Waits (keyboard.after bytes) ∧ ((keyboard.after bytes).shiftActive = true → keyboard.shiftActive = true) := by
  induction bytes generalizing keyboard with
  | nil => exact ⟨waits, id⟩
  | cons byte rest ih =>
    obtain ⟨ordinary, notLeft, notRight, -⟩ := silent byte mem_cons_self keyboard
    have decoded := waits.decode ordinary
    have next : Waits (keyboard.decode byte).2 := by
      rw [decoded]
      exact decodePlain_waits waits
    obtain ⟨ended, shift⟩ := ih next fun later inside => silent later (mem_cons_of_mem _ inside)
    refine ⟨ended, ?_⟩
    intro active
    have before := shift active
    rw [decoded] at before
    exact decodePlain_shift notLeft notRight before

theorem pause_sound (sound : Sound scene) : Sound (scene.step .pause) := by
  obtain ⟨waits, shift⟩ := after_silent sound.waits fun byte inside other => pause_silent other inside
  apply sound_of waits
  intro active
  exact sound.shift (shift active)

theorem not_shifted (silent : (keyboard.decode byte).1 = none) : ¬keyboard.Shifted byte := by
  intro shifted
  have some := shifted.2.2
  rw [silent] at some
  cases some

theorem shift_silent (waits : Waits keyboard) (shift : key = LEFT_SHIFT ∨ key = RIGHT_SHIFT) (released : Bool) :
    (keyboard.decode (scancode key.code released)).1 = none := by
  cases shift with
  | inl left =>
    subst left
    cases released with
    | false =>
      rw [waits.decode (by decide)]
      rfl
    | true => rfl
  | inr right =>
    subst right
    cases released with
    | false | true =>
      rw [waits.decode (by decide)]
      rfl

theorem plain_held (sound : Sound scene) (shifted : scene.keyboard.Shifted (scancode key.code released)) :
    (scene.step (.plain key released)).held = true := by
  have notLeft : key ≠ LEFT_SHIFT := fun left => not_shifted (shift_silent sound.waits (.inl left) released) shifted
  have notRight : key ≠ RIGHT_SHIFT := fun right => not_shifted (shift_silent sound.waits (.inr right) released) shifted
  unfold Scene.step
  rw [hold_other notLeft notRight]
  exact sound.shift shifted.2.1

theorem decoded_held {event : Event} (sound : Sound scene) {past : List UInt8}
    (early : past ++ [byte] <+: event.bytes) (shifted : (scene.keyboard.after past).Shifted byte) :
    (scene.step event).held = true := by
  cases event with
  | plain key released =>
    cases past with
    | nil =>
      obtain ⟨rfl, -⟩ := cons_prefix_cons.mp early
      exact plain_held sound shifted
    | cons first rest => exact absurd early.length_le (by simp [Event.bytes])
  | extended code released =>
    cases past with
    | nil =>
      obtain ⟨rfl, -⟩ := cons_prefix_cons.mp early
      exact absurd shifted (not_shifted rfl)
    | cons first rest =>
      obtain ⟨rfl, behind⟩ := cons_prefix_cons.mp early
      cases rest with
      | nil => cases shifted.1
      | cons second more => exact absurd behind.length_le (by simp)
  | pause =>
    have inside : ∀ other ∈ past ++ [byte], other ∈ Event.bytes .pause := fun other => (early.subset ·)
    have waits := (after_silent sound.waits fun other before kept =>
      pause_silent kept (inside other (mem_append_left _ before))).1
    have last := inside byte (mem_append_right _ mem_cons_self)
    obtain ⟨ordinary, -, -, silent⟩ := pause_silent (scene.keyboard.after past) last
    rw [← waits.decode ordinary] at silent
    exact absurd shifted (not_shifted silent)

theorem clean_sound (scene : Scene) (event : Event) (sound : Sound scene) (clean : Clean scene event) :
    Sound (scene.step event) := by
  cases event with
  | plain key released => exact plain_sound sound clean
  | extended code released => exact (extended_sound sound clean).1
  | pause => exact pause_sound sound

theorem clean_follows (event : Event) (sound : Sound scene) (clean : Clean scene event) : Follows scene event where
  decoded _ _ early shifted := decoded_held sound early shifted
  next _ _ shifted := (clean_sound scene event sound clean).shift shifted.2.1
  cleared code released same := by
    subst same
    intro key up
    exact (extended_sound sound clean).2 _
  set1 := (clean_sound scene event sound clean).set1

theorem tried_held {event : Event} (follows : Follows scene event) (extended : (scene.step event).keyboard.extended = false)
    (active : (scene.step event).keyboard.shiftActive = true) : (scene.step event).held = true := by
  apply follows.next keyA false
  refine ⟨extended, active, ?_⟩
  rw [decode_keyA ⟨extended, follows.set1⟩]
  rfl

theorem release_clean (sound : Sound scene) (follows : Follows scene (.plain key true)) : key.code ≠ 0x70 ∧
    (key = LEFT_SHIFT → scene.keyboard.shiftActive = true → scene.rightHeld = true) ∧
    (key = RIGHT_SHIFT → scene.keyboard.leftShift = true → scene.leftHeld = true) := by
  refine ⟨?_, ?_, ?_⟩
  · intro setTwo
    have byte : scancode key.code true = 0xf0 := by
      rw [setTwo]
      rfl
    have set1 : (scene.keyboard.decode (scancode key.code true)).2.scanSet2 = false := follows.set1
    rw [byte] at set1
    cases set1
  · intro left active
    subst left
    have held : (false || scene.rightHeld) = true := tried_held follows sound.extended active
    rwa [Bool.false_or] at held
  · intro right active
    subst right
    have kept := release_right sound.waits
    have held : (scene.leftHeld || false) = true := by
      apply tried_held follows
      · change (scene.keyboard.after _).extended = false
        rw [kept]
        exact sound.extended
      · change (scene.keyboard.after _).shiftActive = true
        rw [kept]
        change (scene.keyboard.leftShift || false) = true
        rw [active]
        rfl
    rwa [Bool.or_false] at held

theorem extended_clean (sound : Sound scene) (follows : Follows scene (.extended code released)) :
    Clean scene (.extended code released) := by
  have same : ((scene.keyboard.after (Event.bytes (.extended code released))).decode (scancode keyA.code false)).1 =
    (scene.keyboard.decode (scancode keyA.code false)).1 := follows.cleared code released rfl keyA false
  rw [decode_keyA sound.waits] at same
  have ordinary : scancode code released ∉ special := by
    intro taken
    have set1 : (scene.keyboard.after (Event.bytes (.extended code released))).scanSet2 = false := follows.set1
    rw [decode_ordinary (press_not_special _) set1, extended_special scene.keyboard taken] at same
    cases same
  refine ⟨ordinary, ?_⟩
  intro release active
  have waits : Waits { scene.keyboard with rightShift := false } := { sound with }
  rw [extended_after sound.waits ordinary, if_pos release, decode_keyA waits] at same
  have shift := letter_injective _ _ _ (Option.some.inj same)
  change (scene.keyboard.leftShift || false) = (scene.keyboard.leftShift || scene.keyboard.rightShift) at shift
  rw [active, Bool.or_true, Bool.or_false] at shift
  exact shift

theorem follows_clean (event : Event) (sound : Sound scene) (follows : Follows scene event) : Clean scene event := by
  cases event with
  | plain key released =>
    intro up
    subst up
    exact release_clean sound follows
  | extended code released => exact extended_clean sound follows
  | pause => trivial

end Scene

def enabled : Ps2Keyboard := ⟨true, false, false, false, false, false, false, false⟩

theorem follows_iff_clean (events : List Event) :
    Guarded Scene.step Follows ⟨enabled, false, false⟩ events ↔ Guarded Scene.step Clean ⟨enabled, false, false⟩ events := by
  have start : Sound ⟨enabled, false, false⟩ := ⟨rfl, rfl, fun active => active⟩
  apply guarded_iff_guarded clean_sound _ start
  intro scene event sound
  exact ⟨follows_clean event sound, clean_follows event sound⟩

end HermitLocal.Keyboard.Decoder
