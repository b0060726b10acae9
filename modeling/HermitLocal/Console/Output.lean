import HermitLocal.Console
import HermitLocal.Console.Framebuffer

/-! Console output on its way to the device: short pieces wait in a buffer for a newline or until the buffer is full, and all
that is sent is also captured and shown on the screen. -/

namespace HermitLocal.Console.Output
open Lib.Simulation Console.Framebuffer List Option
set_option linter.dupNamespace false

def SERIAL_BUFFER_SIZE : Nat := 256

/-- What the console takes from `embedded_io` and `heapless`: the loop around a writer's `write`, and vectors of limited
length. -/
structure Crates where
  writeAll : {Sink : Type} → (Sink → List UInt8 → Option (Nat × Sink)) → Sink → List UInt8 → Option Sink
  Vec : Type
  new : Vec
  clear : Vec → Vec
  items : Vec → List UInt8
  extendFromSlice : Vec → List UInt8 → Option Vec
  writeAll_nil : ∀ {Sink : Type} write (sink : Sink), writeAll write sink [] = some sink
  writeAll_next : ∀ {Sink : Type} {write} {sink after : Sink} {bytes count}, bytes ≠ [] →
    write sink bytes = some (count, after) → 0 < count → writeAll write sink bytes = writeAll write after (bytes.drop count)
  items_new : items new = []
  items_clear : ∀ vec, items (clear vec) = []
  fits : ∀ vec, (items vec).length ≤ SERIAL_BUFFER_SIZE
  extended : ∀ vec bytes, (items vec).length + bytes.length ≤ SERIAL_BUFFER_SIZE →
    ∃ longer, extendFromSlice vec bytes = some longer ∧ items longer = items vec ++ bytes

structure Serial (Device : Type) where
  write : Device → List UInt8 → Nat × Device
  takes : ∀ device bytes, bytes ≠ [] → 0 < (write device bytes).1
  within : ∀ device bytes, (write device bytes).1 ≤ bytes.length

structure Line (Device : Type) where
  device : Device
  sent : List UInt8

structure IoDevice (Device : Type) where
  line : Line Device
  log : ConsoleLog
  screen : Option GopConsole

structure Console (crates : Crates) (Device : Type) where
  device : IoDevice Device
  buffer : crates.Vec

variable {crates : Crates} {Device : Type} (serial : Serial Device)

def Serial.send (line : Line Device) (bytes : List UInt8) : Option (Nat × Line Device) :=
  let written := serial.write line.device bytes
  some (written.1, ⟨written.2, line.sent ++ bytes.take written.1⟩)

variable (crates) in
def IoDevice.write (io : IoDevice Device) (bytes : List UInt8) : Option (Nat × IoDevice Device) := do
  let line ← crates.writeAll serial.send io.line bytes
  let screen ← writeBytes io.screen bytes
  some (bytes.length, ⟨line, io.log.append bytes, screen⟩)

variable (crates) in
def IoDevice.writeAll (io : IoDevice Device) (bytes : List UInt8) : Option (IoDevice Device) :=
  crates.writeAll (IoDevice.write crates serial) io bytes

namespace Console

def new (device : IoDevice Device) : Console crates Device := ⟨device, crates.new⟩

def flush (console : Console crates Device) : Option (Console crates Device) :=
  if crates.items console.buffer = [] then some console
  else do
    let device ← console.device.writeAll crates serial (crates.items console.buffer)
    some ⟨device, crates.clear console.buffer⟩

def hold (console : Console crates Device) (bytes : List UInt8) : Option (Console crates Device) := do
  let buffer ← crates.extendFromSlice console.buffer bytes
  if bytes.contains 0x0a then flush serial ⟨console.device, buffer⟩ else some ⟨console.device, buffer⟩

def write (console : Console crates Device) (bytes : List UInt8) : Option (Nat × Console crates Device) :=
  if SERIAL_BUFFER_SIZE - (crates.items console.buffer).length ≥ bytes.length then
    (console.hold serial bytes).map (bytes.length, ·)
  else do
    let device ← console.device.writeAll crates serial (crates.items console.buffer)
    let buffer := crates.clear console.buffer
    if bytes.length ≥ SERIAL_BUFFER_SIZE then
      (device.writeAll crates serial bytes).map fun after => (bytes.length, ⟨after, buffer⟩)
    else (hold serial ⟨device, buffer⟩ bytes).map (bytes.length, ·)

end Console

/-! What reaches the device. -/

theorem send_all (crates : Crates) (line : Line Device) (bytes : List UInt8) :
    ∃ after, crates.writeAll serial.send line bytes = some after ∧ after.sent = line.sent ++ bytes := by
  induction same : bytes.length using Nat.strong_induction_on generalizing line bytes with
  | _ size ih =>
    by_cases empty : bytes = []
    · rw [empty, crates.writeAll_nil]
      exact ⟨line, rfl, (append_nil _).symm⟩
    · have taken := serial.takes line.device bytes empty
      have some_left := length_pos_iff.mpr empty
      rw [crates.writeAll_next empty rfl taken]
      have shorter : (bytes.drop (serial.write line.device bytes).1).length < size := by
        rw [← same, length_drop]
        omega
      obtain ⟨after, written, sent⟩ := ih _ shorter
        ⟨(serial.write line.device bytes).2, line.sent ++ bytes.take (serial.write line.device bytes).1⟩ _ rfl
      refine ⟨after, written, ?_⟩
      rw [sent, append_assoc, take_append_drop]

def Captures (io : IoDevice Device) : Prop := io.log.captureEnabled = true ∧ io.log.content = kept io.line.sent

structure Sends (io : IoDevice Device) (bytes : List UInt8) (after : IoDevice Device) : Prop where
  sent : after.line.sent = io.line.sent ++ bytes
  captured : Captures io → Captures after

theorem Sends.none (io : IoDevice Device) : Sends io [] io := ⟨(append_nil _).symm, id⟩

theorem Sends.trans {io middle after : IoDevice Device} {bytes more : List UInt8} (first : Sends io bytes middle)
    (second : Sends middle more after) : Sends io (bytes ++ more) after := by
  apply Sends.mk
  · rw [second.sent, first.sent, append_assoc]
  · exact fun now => second.captured (first.captured now)

theorem writeAll_sends (crates : Crates) (io : IoDevice Device) (bytes : List UInt8) :
    ∃ after, io.writeAll crates serial bytes = some after ∧ Sends io bytes after := by
  unfold IoDevice.writeAll
  by_cases empty : bytes = []
  · rw [empty, crates.writeAll_nil]
    exact ⟨io, rfl, Sends.none io⟩
  · obtain ⟨line, written, sent⟩ := send_all serial crates io.line bytes
    obtain ⟨screen, shown⟩ := writeBytes_defined io.screen bytes
    have once : io.write crates serial bytes = some (bytes.length, ⟨line, io.log.append bytes, screen⟩) := by
      simp only [IoDevice.write, written, shown, bind_eq_bind, bind_some]
    rw [crates.writeAll_next empty once (length_pos_iff.mpr empty), drop_length, crates.writeAll_nil]
    refine ⟨_, rfl, sent, ?_⟩
    rintro ⟨enabled, held⟩
    apply And.intro
    · rw [append_enabled, enabled]
    · rw [append_kept held enabled bytes, sent]

structure Passes (console : Console crates Device) (bytes : List UInt8) (after : Console crates Device) : Prop where
  delivered : after.device.line.sent ++ crates.items after.buffer =
    console.device.line.sent ++ crates.items console.buffer ++ bytes
  captured : Captures console.device → Captures after.device

section
variable (console : Console crates Device)

theorem flush_passes :
    ∃ after, console.flush serial = some after ∧ Passes console [] after ∧ crates.items after.buffer = [] := by
  unfold Console.flush
  by_cases empty : crates.items console.buffer = []
  · rw [if_pos empty]
    exact ⟨console, rfl, ⟨(append_nil _).symm, id⟩, empty⟩
  · obtain ⟨device, written, sends⟩ := writeAll_sends serial crates console.device (crates.items console.buffer)
    rw [if_neg empty, written]
    refine ⟨_, rfl, ⟨?_, sends.captured⟩, crates.items_clear _⟩
    rw [sends.sent, crates.items_clear]

theorem hold_passes (bytes : List UInt8)
    (room : (crates.items console.buffer).length + bytes.length ≤ SERIAL_BUFFER_SIZE) :
    ∃ after, console.hold serial bytes = some after ∧ Passes console bytes after ∧
      (0x0a ∈ bytes → crates.items after.buffer = []) := by
  obtain ⟨longer, extended, items⟩ := crates.extended console.buffer bytes room
  unfold Console.hold
  rw [extended, bind_eq_bind, bind_some]
  by_cases line : bytes.contains 0x0a = true
  · obtain ⟨after, flushed, passes, empty⟩ := flush_passes serial (⟨console.device, longer⟩ : Console crates Device)
    rw [if_pos line]
    refine ⟨after, flushed, ⟨?_, passes.captured⟩, fun _ => empty⟩
    rw [passes.delivered, append_nil, items, append_assoc]
  · rw [if_neg line]
    refine ⟨_, rfl, ⟨?_, id⟩, fun member => absurd (contains_iff_mem.mpr member) line⟩
    rw [items, append_assoc]

theorem write_passes (bytes : List UInt8) :
    ∃ after, console.write serial bytes = some (bytes.length, after) ∧ Passes console bytes after ∧
      (0x0a ∈ bytes → crates.items after.buffer = []) := by
  have capacity := crates.fits console.buffer
  unfold Console.write
  by_cases room : SERIAL_BUFFER_SIZE - (crates.items console.buffer).length ≥ bytes.length
  · obtain ⟨after, held, passes⟩ := hold_passes serial console bytes (by omega)
    rw [if_pos room, held]
    exact ⟨after, rfl, passes⟩
  obtain ⟨device, written, sends⟩ := writeAll_sends serial crates console.device (crates.items console.buffer)
  have cleared := crates.items_clear console.buffer
  rw [if_neg room, written, bind_eq_bind, bind_some]
  by_cases long : bytes.length ≥ SERIAL_BUFFER_SIZE
  · -- Too long for the buffer: what waits goes first, then the piece itself.
    obtain ⟨last, direct, more⟩ := writeAll_sends serial crates device bytes
    rw [if_pos long, direct]
    refine ⟨_, rfl, ⟨?_, (sends.trans more).captured⟩, fun _ => cleared⟩
    rw [cleared, append_nil, (sends.trans more).sent, append_assoc]
  · obtain ⟨after, held, passes, empties⟩ := hold_passes serial
      (⟨device, crates.clear console.buffer⟩ : Console crates Device) bytes (by rw [cleared, length_nil]; omega)
    rw [if_neg long, held]
    refine ⟨after, rfl, ⟨?_, fun now => passes.captured (sends.captured now)⟩, empties⟩
    rw [passes.delivered, cleared, append_nil]
    exact congrArg (· ++ bytes) sends.sent

/-! Whole runs. -/

inductive Call where
  | write (bytes : List UInt8)
  | flush
  | setCaptureEnabled (enabled : Bool)
  deriving DecidableEq

def perform (console : Console crates Device) : Call → Option (Console crates Device)
  | .write bytes => (console.write serial bytes).map (·.2)
  | .flush => console.flush serial
  | .setCaptureEnabled enabled =>
    some { console with device := { console.device with log := { console.device.log with captureEnabled := enabled } } }

def Call.written : Call → List UInt8
  | .write bytes => bytes
  | .flush | .setCaptureEnabled _ => []

def Call.empties : Call → Prop
  | .write bytes => 0x0a ∈ bytes
  | .flush => True
  | .setCaptureEnabled _ => False

theorem perform_passes (call : Call) : ∃ after, perform serial console call = some after ∧
      after.device.line.sent ++ crates.items after.buffer =
        console.device.line.sent ++ crates.items console.buffer ++ call.written ∧
      (call ≠ .setCaptureEnabled false → Captures console.device → Captures after.device) ∧
      (call.empties → crates.items after.buffer = []) := by
  cases call with
  | write bytes =>
    obtain ⟨after, written, passes, empties⟩ := write_passes serial console bytes
    refine ⟨after, ?_, passes.delivered, fun _ => passes.captured, empties⟩
    rw [perform, written]
    rfl
  | flush =>
    obtain ⟨after, flushed, passes, empty⟩ := flush_passes serial console
    exact ⟨after, flushed, passes.delivered, fun _ => passes.captured, fun _ => empty⟩
  | setCaptureEnabled enabled =>
    refine ⟨_, rfl, (append_nil _).symm, ?_, False.elim⟩
    intro switch now
    cases enabled with
    | false => exact absurd rfl switch
    | true => exact ⟨rfl, now.2⟩

end

structure Delivered (calls : List Call) (console : Console crates Device) : Prop where
  delivered : console.device.line.sent ++ crates.items console.buffer = calls.flatMap Call.written
  captured : (∀ call ∈ calls, call ≠ .setCaptureEnabled false) → Captures console.device
  emptied : ∀ past call, calls = past ++ [call] → call.empties → crates.items console.buffer = []

theorem Delivered.perform {serial : Serial Device} {calls : List Call} {console : Console crates Device}
    (now : Delivered calls console) (call : Call) :
    ∃ after, perform serial console call = some after ∧ Delivered (calls ++ [call]) after := by
  obtain ⟨after, ran, delivered, captured, empties⟩ := perform_passes serial console call
  refine ⟨after, ran, ?_, ?_, ?_⟩
  · rw [delivered, now.delivered, flatMap_append, flatMap_singleton]
  · intro enabled
    apply captured (enabled call (mem_append_right _ mem_cons_self))
    exact now.captured fun other member => enabled other (mem_append_left _ member)
  · intro past last same
    cases append_inj_right' same rfl
    exact empties

/-- Every byte written is sent once and in order, or is still in the buffer. -/
theorem console_output_faithful (crates : Crates) (serial : Serial Device) (device : Device) (screen : Option GopConsole)
    (calls : List Call) : ∃ console : Console crates Device,
      calls.foldl (attempt (perform serial)) (some (Console.new ⟨⟨device, []⟩, .new, screen⟩)) = some console ∧
      console.device.line.sent ++ crates.items console.buffer = calls.flatMap Call.written ∧
      (crates.items console.buffer).length ≤ SERIAL_BUFFER_SIZE ∧
      (∀ past call, calls = past ++ [call] → call.empties → crates.items console.buffer = []) ∧
      ((∀ call ∈ calls, call ≠ .setCaptureEnabled false) →
        console.device.log.content = kept console.device.line.sent) := by
  have start : Delivered [] (Console.new ⟨⟨device, []⟩, .new, screen⟩ : Console crates Device) := by
    have nothing : ConsoleLog.new.content = kept [] := rfl
    refine ⟨crates.items_new, fun _ => ⟨rfl, nothing⟩, ?_⟩
    intro past call same
    exact absurd same.symm (append_ne_nil_of_right_ne_nil past (cons_ne_nil call []))
  obtain ⟨console, reached, held⟩ := run_total (fun past state call now => now.perform call) start calls
  exact ⟨console, reached, held.delivered, crates.fits _, held.emptied, fun enabled => (held.captured enabled).2⟩

def writeLoop {Sink : Type} (write : Sink → List UInt8 → Option (Nat × Sink)) (sink : Sink) (bytes : List UInt8) :
    Option Sink :=
  if bytes = [] then some sink
  else
    match write sink bytes with
    | none => none
    | some (count, after) => if 0 < count then writeLoop write after (bytes.drop count) else none
termination_by bytes.length
decreasing_by
  have some_left := length_pos_iff.mpr ‹bytes ≠ []›
  rw [length_drop]
  omega

def plainCrates : Crates where
  writeAll := writeLoop
  Vec := { items : List UInt8 // items.length ≤ SERIAL_BUFFER_SIZE }
  new := ⟨[], Nat.zero_le _⟩
  clear _ := ⟨[], Nat.zero_le _⟩
  items := Subtype.val
  extendFromSlice vec bytes :=
    if room : (vec.val ++ bytes).length ≤ SERIAL_BUFFER_SIZE then some ⟨vec.val ++ bytes, room⟩ else none
  writeAll_nil write sink := by rw [writeLoop, if_pos rfl]
  writeAll_next some_left written taken := by rw [writeLoop, if_neg some_left, written]; exact if_pos taken
  items_new := rfl
  items_clear _ := rfl
  fits := Subtype.property
  extended vec bytes room := ⟨_, dif_pos (length_append.trans_le room), rfl⟩

def oneByte : Serial Unit where
  write _ bytes := (min 1 bytes.length, ())
  takes _ _ some_left := Nat.lt_min.mpr ⟨Nat.one_pos, List.length_pos_iff.mpr some_left⟩
  within _ _ := Nat.min_le_right _ _

theorem oneByte_output_faithful : ∃ console : Console plainCrates Unit,
    [.write [0x68, 0x69], .write [0x0a], .write [0x3e]].foldl (attempt (perform oneByte))
        (some (Console.new ⟨⟨(), []⟩, .new, none⟩)) = some console ∧
      console.device.line.sent ++ console.buffer.val = [0x68, 0x69, 0x0a, 0x3e] ∧
      console.device.log.content = kept console.device.line.sent := by
  obtain ⟨console, reached, delivered, -, -, captured⟩ :=
    console_output_faithful plainCrates oneByte () none [.write [0x68, 0x69], .write [0x0a], .write [0x3e]]
  exact ⟨console, reached, delivered, captured (by decide)⟩

end HermitLocal.Console.Output
