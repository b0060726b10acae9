import HermitLocal.Keyboard.Decoder
import HermitLocal.Lib.BoundedRing

/-! The bytes of the console, from the controller to `read`. Decoded bytes wait in a ring of 128 places; the driver is compared
with one that keeps them in a list. -/

namespace HermitLocal.Keyboard.Input
open Lib.BoundedRing Lib.Simulation Keyboard.Decoder

def BUFFER_LEN : Nat := 128

def POLL_LIMIT : Nat := 32

structure Device where
  keyboard : Ps2Keyboard
  ring : Ring UInt8 BUFFER_LEN
  wire : List UInt8

def pushDecoded (ring : Ring UInt8 BUFFER_LEN) : Option UInt8 → Ring UInt8 BUFFER_LEN
  | some byte => ring.push byte
  | none => ring

def pollLoop : Nat → Device → Device
  | 0, device => device
  | left + 1, device =>
      match device.wire with
      | [] => device
      | scancode :: rest =>
          pollLoop left ⟨(device.keyboard.decode scancode).2,
            pushDecoded device.ring (device.keyboard.decode scancode).1, rest⟩

def poll (device : Device) : Device := if device.keyboard.present then pollLoop POLL_LIMIT device else device

def popLoop : Nat → Ring UInt8 BUFFER_LEN → List UInt8 × Ring UInt8 BUFFER_LEN
  | 0, ring => ([], ring)
  | slots + 1, ring =>
      match ring.pop with
      | none => ([], ring)
      | some (byte, shorter) => (byte :: (popLoop slots shorter).1, (popLoop slots shorter).2)

inductive Request where
  | arrive (codes : List UInt8)
  | readReady
  | read (length : Nat)

inductive Answer where
  | received
  | ready (available : Bool)
  | bytes (bytes : List UInt8)

def driver : Machine Device Request Answer where
  step device
    | .arrive codes => (.received, { device with wire := device.wire ++ codes })
    | .readReady => (.ready ((poll device).ring.head != (poll device).ring.tail), poll device)
    | .read length =>
        (.bytes (popLoop length (poll device).ring).1, { poll device with ring := (popLoop length (poll device).ring).2 })

/-! The driver with a list: a byte is dropped only if 127 are pending, and what is read comes first from the front. -/

structure Console where
  keyboard : Ps2Keyboard
  queue : List UInt8
  wire : List UInt8

def offer (queue : List UInt8) : Option UInt8 → List UInt8
  | some byte => if queue.length = BUFFER_LEN - 1 then queue else queue ++ [byte]
  | none => queue

def Console.take : Nat → Console → Console
  | 0, console => console
  | left + 1, console =>
      match console.wire with
      | [] => console
      | scancode :: rest =>
          Console.take left ⟨(console.keyboard.decode scancode).2,
            offer console.queue (console.keyboard.decode scancode).1, rest⟩

def Console.poll (console : Console) : Console := if console.keyboard.present then Console.take POLL_LIMIT console else console

def inOrder : Machine Console Request Answer where
  step console
    | .arrive codes => (.received, { console with wire := console.wire ++ codes })
    | .readReady => (.ready !console.poll.queue.isEmpty, console.poll)
    | .read length => (.bytes (console.poll.queue.take length), { console.poll with queue := console.poll.queue.drop length })

def Holds (device : Device) (console : Console) : Prop := console = ⟨device.keyboard, device.ring.contents, device.wire⟩

theorem pushDecoded_contents (ring : Ring UInt8 BUFFER_LEN) (decoded : Option UInt8) :
    (pushDecoded ring decoded).contents = offer ring.contents decoded := by
  cases decoded with
  | none => rfl
  | some byte =>
    have capacity : BUFFER_LEN = 128 := rfl
    change (ring.push byte).contents = if ring.contents.length = BUFFER_LEN - 1 then ring.contents else ring.contents ++ [byte]
    rw [ring.contents_length]
    split_ifs with full
    · rw [ring.push_full (by omega)]
    · exact ring.contents_push (by omega) byte

theorem pollLoop_holds (left : Nat) {device : Device} {console : Console} (holds : Holds device console) :
    Holds (pollLoop left device) (Console.take left console) := by
  induction left generalizing device console with
  | zero => exact holds
  | succ left ih =>
    subst holds
    unfold pollLoop Console.take
    dsimp only
    split
    · exact rfl
    next scancode rest waiting =>
      apply ih
      unfold Holds
      rw [pushDecoded_contents]

theorem poll_holds {device : Device} {console : Console} (holds : Holds device console) :
    Holds (poll device) console.poll := by
  have same : console.keyboard = device.keyboard := congrArg Console.keyboard holds
  unfold poll Console.poll
  rw [same]
  split_ifs
  · exact pollLoop_holds POLL_LIMIT holds
  · exact holds

theorem popLoop_contents (slots : Nat) (ring : Ring UInt8 BUFFER_LEN) :
    (popLoop slots ring).1 = ring.contents.take slots ∧ (popLoop slots ring).2.contents = ring.contents.drop slots := by
  induction slots generalizing ring with
  | zero => exact ⟨rfl, rfl⟩
  | succ slots ih =>
    unfold popLoop
    cases waiting : ring.contents with
    | nil =>
      rw [ring.pop_empty waiting]
      exact ⟨rfl, waiting⟩
    | cons byte rest =>
      obtain ⟨shorter, popped, left⟩ := ring.pop_contents waiting
      rw [popped]
      dsimp only
      rw [(ih shorter).1, (ih shorter).2, left]
      exact ⟨rfl, rfl⟩

theorem available_contents (ring : Ring UInt8 BUFFER_LEN) : (ring.head != ring.tail) = !ring.contents.isEmpty := by
  apply congrArg not
  rw [Bool.eq_iff_iff, beq_iff_eq, List.isEmpty_iff]
  exact ring.empty_iff

theorem driver_refines : Refines driver inOrder Holds where
  output device console request holds := by
    have polled := poll_holds holds
    cases request with
    | arrive codes => rfl
    | readReady =>
      change Answer.ready _ = Answer.ready _
      rw [available_contents, polled]
    | read length =>
      change Answer.bytes _ = Answer.bytes _
      rw [(popLoop_contents length _).1, polled]
  next device console request holds := by
    have polled := poll_holds holds
    cases request with
    | arrive codes =>
      subst holds
      rfl
    | readReady => exact polled
    | read length =>
      change { console.poll with queue := console.poll.queue.drop length } =
        Console.mk (poll device).keyboard (popLoop length (poll device).ring).2.contents (poll device).wire
      rw [(popLoop_contents length _).2, polled]

/-- The decoder follows the keys exactly if each event is clean; bytes come in order. -/
theorem keyboard_follows_iff (events : List Event) (device : Device) (requests : List Request) :
    (Guarded Scene.step Follows ⟨enabled, false, false⟩ events ↔ Guarded Scene.step Clean ⟨enabled, false, false⟩ events) ∧
      driver.trace device requests = inOrder.trace ⟨device.keyboard, device.ring.contents, device.wire⟩ requests :=
  ⟨follows_iff_clean events, driver_refines.trace requests rfl⟩

def shiftTapped : List Event := [.plain LEFT_SHIFT false, .plain LEFT_SHIFT true]

theorem shift_not_held : (shiftTapped.foldl Scene.step ⟨enabled, false, false⟩).held = false ∧
      ((shiftTapped.foldl Scene.step ⟨enabled, false, false⟩).keyboard.decode 0x1e).1 = some (ascii 'A') ∧
      (enabled.decode 0x1e).1 = some (ascii 'a') ∧
      ((enabled.after (Event.bytes (.extended 0x2a true))).decode 0x1e).1 = none ∧
      ((enabled.after [0x70, 0xf0, 0x39, 0xb9, 0x12, 0x92]).decode 0x1c).1 = some (ascii 'A') := by
  decide

end HermitLocal.Keyboard.Input
