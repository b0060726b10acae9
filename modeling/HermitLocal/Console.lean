import HermitLocal.Lib.Simulation
import HermitLocal.Lib.Wire

/-! The ring in which the kernel keeps the end of its console output. Appends and reads are split at the
end of the buffer, and the oldest bytes make room for new ones; seen from outside it is the
list of the last bytes. -/

namespace HermitLocal.Console
open Lib.Simulation Lib.Wire List

def CONSOLE_LOG_CAPACITY : Nat := 256 * 1024

structure ConsoleLog where
  buffer : Block CONSOLE_LOG_CAPACITY
  start : Nat
  len : Nat
  captureEnabled : Bool
  start_lt : start < CONSOLE_LOG_CAPACITY
  len_le : len ≤ CONSOLE_LOG_CAPACITY

def ConsoleLog.new : ConsoleLog := ⟨zeros, 0, 0, true, by decide, by decide⟩

def store (buffer : Block CONSOLE_LOG_CAPACITY) (writeStart : Nat) (bytes : List UInt8) : Block CONSOLE_LOG_CAPACITY :=
  let firstLen := min (CONSOLE_LOG_CAPACITY - writeStart) bytes.length
  let secondLen := bytes.length - firstLen
  let written := patch buffer writeStart (bytes.take firstLen)
  if secondLen > 0 then patch written 0 (bytes.drop firstLen) else written

def dropLen (log : ConsoleLog) (bytes : List UInt8) : Nat := bytes.length - (CONSOLE_LOG_CAPACITY - log.len)

theorem capacity_pos : 0 < CONSOLE_LOG_CAPACITY := by decide

theorem place_lt (place : Nat) : place % CONSOLE_LOG_CAPACITY < CONSOLE_LOG_CAPACITY := Nat.mod_lt _ capacity_pos

def makeRoom (log : ConsoleLog) (bytes : List UInt8) : ConsoleLog :=
  if bytes.length > CONSOLE_LOG_CAPACITY - log.len then
    { log with
      start := (log.start + dropLen log bytes) % CONSOLE_LOG_CAPACITY
      len := log.len - dropLen log bytes
      start_lt := place_lt _
      len_le := Nat.le_trans (Nat.sub_le _ _) log.len_le }
  else log

section
variable (log : ConsoleLog) (bytes : List UInt8)

theorem makeRoom_start :
    (makeRoom log bytes).start = (log.start + dropLen log bytes) % CONSOLE_LOG_CAPACITY := by
  unfold makeRoom
  split
  · rfl
  · rw [show dropLen log bytes = 0 by unfold dropLen; omega]
    exact (Nat.mod_eq_of_lt log.start_lt).symm

theorem makeRoom_len : (makeRoom log bytes).len = log.len - dropLen log bytes := by
  unfold makeRoom
  split
  · rfl
  · rw [show dropLen log bytes = 0 by unfold dropLen; omega]
    rfl

theorem makeRoom_buffer : (makeRoom log bytes).buffer = log.buffer := by
  unfold makeRoom
  split <;> rfl

theorem makeRoom_enabled : (makeRoom log bytes).captureEnabled = log.captureEnabled := by
  unfold makeRoom
  split <;> rfl

end

theorem makeRoom_fits (log : ConsoleLog) {bytes : List UInt8} (small : ¬ bytes.length ≥ CONSOLE_LOG_CAPACITY) :
    (makeRoom log bytes).len + bytes.length ≤ CONSOLE_LOG_CAPACITY := by
  have capacity := log.len_le
  rw [makeRoom_len]
  unfold dropLen
  omega

def ConsoleLog.append (log : ConsoleLog) (bytes : List UInt8) : ConsoleLog :=
  if !log.captureEnabled || bytes.isEmpty then log
  else if large : bytes.length ≥ CONSOLE_LOG_CAPACITY then
    { log with
      buffer := patch log.buffer 0 (bytes.drop (bytes.length - CONSOLE_LOG_CAPACITY))
      start := 0
      len := CONSOLE_LOG_CAPACITY
      start_lt := capacity_pos
      len_le := Nat.le_refl _ }
  else
    let room := makeRoom log bytes
    { room with
      buffer := store room.buffer ((room.start + room.len) % CONSOLE_LOG_CAPACITY) bytes
      len := room.len + bytes.length
      len_le := makeRoom_fits log large }

def copyFromSlice (output : List UInt8) (place : Nat) (bytes : List UInt8) : List UInt8 :=
  output.take place ++ bytes ++ output.drop (place + bytes.length)

def ConsoleLog.read (log : ConsoleLog) (offset : Nat) (output : List UInt8) : Nat × List UInt8 :=
  if offset ≥ log.len ∨ output = [] then (0, output)
  else
    let readLen := min (log.len - offset) output.length
    let readStart := (log.start + offset) % CONSOLE_LOG_CAPACITY
    let firstLen := min (CONSOLE_LOG_CAPACITY - readStart) readLen
    let secondLen := readLen - firstLen
    let written := copyFromSlice output 0 (slice log.buffer readStart firstLen)
    (readLen, if secondLen > 0 then copyFromSlice written firstLen (slice log.buffer 0 secondLen) else written)

inductive Operation where
  | append (bytes : List UInt8)
  | setCaptureEnabled (enabled : Bool)
  | read (offset : Nat) (output : List UInt8)

def console : Machine ConsoleLog Operation (Option (Nat × List UInt8)) where
  step log
    | .append bytes => (none, log.append bytes)
    | .setCaptureEnabled enabled => (none, { log with captureEnabled := enabled })
    | .read offset output => (some (log.read offset output), log)

/-! What it is for: the last bytes of all that was captured. -/

structure Captured where
  bytes : List UInt8
  enabled : Bool

def kept (bytes : List UInt8) : List UInt8 := bytes.drop (bytes.length - CONSOLE_LOG_CAPACITY)

def readKept (bytes : List UInt8) (offset : Nat) (output : List UInt8) : Nat × List UInt8 :=
  let part := (bytes.drop offset).take output.length
  (part.length, part ++ output.drop part.length)

def recorder : Machine Captured Operation (Option (Nat × List UInt8)) where
  step state
    | .append bytes => (none, if state.enabled then { state with bytes := state.bytes ++ bytes } else state)
    | .setCaptureEnabled enabled => (none, { state with enabled := enabled })
    | .read offset output => (some (readKept (kept state.bytes) offset output), state)

def ConsoleLog.content (log : ConsoleLog) : List UInt8 :=
  (range log.len).map fun index => byteAt log.buffer ((log.start + index) % CONSOLE_LOG_CAPACITY)

def Holds (log : ConsoleLog) (state : Captured) : Prop :=
  log.content = kept state.bytes ∧ log.captureEnabled = state.enabled

/-! Places in the ring. -/

theorem wrap (place : Nat) (near : place < 2 * CONSOLE_LOG_CAPACITY) :
    place % CONSOLE_LOG_CAPACITY = if place < CONSOLE_LOG_CAPACITY then place else place - CONSOLE_LOG_CAPACITY := by
  split
  · exact Nat.mod_eq_of_lt ‹_›
  · rw [Nat.mod_eq_sub_mod (by omega)]
    exact Nat.mod_eq_of_lt (by omega)

theorem byteAt_store (buffer : Block CONSOLE_LOG_CAPACITY) {writeStart : Nat} (inside : writeStart < CONSOLE_LOG_CAPACITY)
    {bytes : List UInt8} (fits : bytes.length ≤ CONSOLE_LOG_CAPACITY) {offset : Nat} (near : offset < CONSOLE_LOG_CAPACITY) :
    byteAt (store buffer writeStart bytes) ((writeStart + offset) % CONSOLE_LOG_CAPACITY) =
      if offset < bytes.length then bytes.getD offset 0
      else byteAt buffer ((writeStart + offset) % CONSOLE_LOG_CAPACITY) := by
  have first : (bytes.take (min (CONSOLE_LOG_CAPACITY - writeStart) bytes.length)).length =
      min (CONSOLE_LOG_CAPACITY - writeStart) bytes.length := by
    rw [length_take]
    omega
  have second : (bytes.drop (min (CONSOLE_LOG_CAPACITY - writeStart) bytes.length)).length =
      bytes.length - min (CONSOLE_LOG_CAPACITY - writeStart) bytes.length := length_drop
  rw [wrap _ (by omega)]
  unfold store
  dsimp only
  by_cases ahead : writeStart + offset < CONSOLE_LOG_CAPACITY
  · rw [if_pos ahead]
    -- Before the end of the buffer the second part does not reach: it is shorter than what lies in front.
    have part : byteAt (patch buffer writeStart (bytes.take (min (CONSOLE_LOG_CAPACITY - writeStart) bytes.length)))
        (writeStart + offset) = if offset < bytes.length then bytes.getD offset 0 else byteAt buffer (writeStart + offset) := by
      by_cases new : offset < bytes.length
      · rw [if_pos new, byteAt_patch_inside _ _ _ _ (by omega) (by rw [first]; omega) ahead, Nat.add_sub_cancel_left,
          getD_eq_getElem?_getD, getElem?_take_of_lt (by omega), getD_eq_getElem?_getD]
      · rw [if_neg new, byteAt_patch_outside _ _ _ _ (by rw [first]; omega)]
    split
    · rw [byteAt_patch_outside _ _ _ _ (by rw [second]; omega), part]
    · exact part
  · rw [if_neg ahead]
    have part : byteAt (patch buffer writeStart (bytes.take (min (CONSOLE_LOG_CAPACITY - writeStart) bytes.length)))
        (writeStart + offset - CONSOLE_LOG_CAPACITY) = byteAt buffer (writeStart + offset - CONSOLE_LOG_CAPACITY) :=
      byteAt_patch_outside _ _ _ _ (.inl (by omega))
    by_cases new : offset < bytes.length
    · rw [if_pos new, if_pos (by omega), byteAt_patch_inside _ _ _ _ (Nat.zero_le _) (by rw [second]; omega) (by omega),
        getD_eq_getElem?_getD, getElem?_drop, getD_eq_getElem?_getD,
        show min (CONSOLE_LOG_CAPACITY - writeStart) bytes.length + (writeStart + offset - CONSOLE_LOG_CAPACITY - 0) =
          offset by omega]
    · split
      · rw [byteAt_patch_outside _ _ _ _ (.inr (by rw [second]; omega)), part]
      · exact part

theorem content_length (log : ConsoleLog) : log.content.length = log.len := by
  unfold ConsoleLog.content
  rw [length_map, length_range]

theorem content_getElem? (log : ConsoleLog) {index : Nat} (inside : index < log.len) :
    log.content[index]? = some (byteAt log.buffer ((log.start + index) % CONSOLE_LOG_CAPACITY)) := by
  unfold ConsoleLog.content
  rw [getElem?_map, getElem?_range inside]
  rfl

/-! An append. -/

section Append
variable {log : ConsoleLog} {bytes : List UInt8} (takes : (!log.captureEnabled || bytes.isEmpty) = false)

include takes

theorem append_large (large : bytes.length ≥ CONSOLE_LOG_CAPACITY) :
    (log.append bytes).content = bytes.drop (bytes.length - CONSOLE_LOG_CAPACITY) := by
  have length : (bytes.drop (bytes.length - CONSOLE_LOG_CAPACITY)).length = CONSOLE_LOG_CAPACITY := by
    rw [length_drop]
    omega
  unfold ConsoleLog.append
  rw [takes, if_neg Bool.false_ne_true, dif_pos large]
  apply ext_getElem?
  intro index
  by_cases inside : index < CONSOLE_LOG_CAPACITY
  · rw [content_getElem? _ inside]
    rw [Nat.zero_add, Nat.mod_eq_of_lt inside, byteAt_patch_inside _ _ _ _ (Nat.zero_le _) (by omega) inside,
      Nat.sub_zero, getD_eq_getElem?_getD, getElem?_eq_getElem (by omega), Option.getD_some]
  · rw [getElem?_eq_none (by rw [content_length]; exact Nat.le_of_not_lt inside),
      getElem?_eq_none (by omega)]

variable (small : ¬ bytes.length ≥ CONSOLE_LOG_CAPACITY)

include small

theorem append_small : (log.append bytes).start = (log.start + dropLen log bytes) % CONSOLE_LOG_CAPACITY ∧
    (log.append bytes).len = log.len - dropLen log bytes + bytes.length ∧
    (log.append bytes).buffer = store log.buffer ((log.start + log.len) % CONSOLE_LOG_CAPACITY) bytes := by
  have amount : dropLen log bytes = bytes.length - (CONSOLE_LOG_CAPACITY - log.len) := rfl
  unfold ConsoleLog.append
  rw [takes, if_neg Bool.false_ne_true, dif_neg small]
  dsimp only
  rw [makeRoom_start, makeRoom_len, makeRoom_buffer, Nat.mod_add_mod,
    show log.start + dropLen log bytes + (log.len - dropLen log bytes) = log.start + log.len by omega]
  exact ⟨rfl, rfl, rfl⟩

theorem append_content : (log.append bytes).content = log.content.drop (dropLen log bytes) ++ bytes := by
  obtain ⟨start, len, buffer⟩ := append_small takes small
  have capacity := log.len_le
  have amount : dropLen log bytes = bytes.length - (CONSOLE_LOG_CAPACITY - log.len) := rfl
  have remaining : (log.content.drop (dropLen log bytes)).length = log.len - dropLen log bytes := by
    rw [length_drop, content_length]
  apply ext_getElem?
  intro index
  by_cases inside : index < (log.append bytes).len
  · rw [content_getElem? _ inside, start, buffer, Nat.mod_add_mod]
    by_cases old : index < log.len - dropLen log bytes
    · -- An old byte lies behind all that is written, counted around the ring from the place of the write.
      have place : (log.start + dropLen log bytes + index) % CONSOLE_LOG_CAPACITY =
          ((log.start + log.len) % CONSOLE_LOG_CAPACITY +
            (CONSOLE_LOG_CAPACITY - log.len + dropLen log bytes + index)) % CONSOLE_LOG_CAPACITY := by
        rw [Nat.mod_add_mod, show log.start + log.len + (CONSOLE_LOG_CAPACITY - log.len + dropLen log bytes + index) =
          log.start + dropLen log bytes + index + CONSOLE_LOG_CAPACITY by omega, Nat.add_mod_right]
      rw [place, byteAt_store _ (place_lt _) (by omega) (by omega), if_neg (by omega), ← place,
        getElem?_append_left (by omega), getElem?_drop, content_getElem? _ (by omega), Nat.add_assoc]
    · have place : (log.start + dropLen log bytes + index) % CONSOLE_LOG_CAPACITY =
          ((log.start + log.len) % CONSOLE_LOG_CAPACITY + (index - (log.len - dropLen log bytes))) %
            CONSOLE_LOG_CAPACITY := by
        rw [Nat.mod_add_mod, show log.start + log.len + (index - (log.len - dropLen log bytes)) =
          log.start + dropLen log bytes + index by omega]
      rw [place, byteAt_store _ (place_lt _) (by omega) (by omega), if_pos (by omega),
        getElem?_append_right (by omega), remaining, getD_eq_getElem?_getD, getElem?_eq_getElem (by omega)]
      rfl
  · rw [getElem?_eq_none (by rw [content_length]; exact Nat.le_of_not_lt inside),
      getElem?_eq_none (by rw [length_append]; omega)]

end Append

theorem kept_length (bytes : List UInt8) : (kept bytes).length = min bytes.length CONSOLE_LOG_CAPACITY := by
  unfold kept
  rw [length_drop]
  omega

theorem kept_large (bytes : List UInt8) {chunk : List UInt8} (large : chunk.length ≥ CONSOLE_LOG_CAPACITY) :
    kept (bytes ++ chunk) = kept chunk := by
  unfold kept
  rw [length_append, drop_append, drop_eq_nil_of_le (by omega), nil_append,
    show bytes.length + chunk.length - CONSOLE_LOG_CAPACITY - bytes.length = chunk.length - CONSOLE_LOG_CAPACITY by omega]

theorem kept_append (bytes : List UInt8) {chunk : List UInt8} (small : ¬ chunk.length ≥ CONSOLE_LOG_CAPACITY) :
    kept (bytes ++ chunk) =
      (kept bytes).drop (chunk.length - (CONSOLE_LOG_CAPACITY - (kept bytes).length)) ++ chunk := by
  rw [kept_length]
  unfold kept
  rw [length_append, drop_append, drop_drop,
    show bytes.length + chunk.length - CONSOLE_LOG_CAPACITY - bytes.length = 0 by omega, drop_zero,
    show bytes.length - CONSOLE_LOG_CAPACITY +
      (chunk.length - (CONSOLE_LOG_CAPACITY - min bytes.length CONSOLE_LOG_CAPACITY)) =
      bytes.length + chunk.length - CONSOLE_LOG_CAPACITY by omega]

theorem append_kept {log : ConsoleLog} {history : List UInt8} (held : log.content = kept history)
    (enabled : log.captureEnabled = true) (bytes : List UInt8) : (log.append bytes).content = kept (history ++ bytes) := by
  by_cases empty : bytes.isEmpty = true
  · have skipped : log.append bytes = log := by
      unfold ConsoleLog.append
      rw [empty, Bool.or_true, if_pos rfl]
    rw [skipped, held, isEmpty_iff.mp empty, append_nil]
  · have takes : (!log.captureEnabled || bytes.isEmpty) = false := by
      rw [enabled, Bool.eq_false_of_not_eq_true empty]
      rfl
    by_cases large : bytes.length ≥ CONSOLE_LOG_CAPACITY
    · rw [append_large takes large, kept_large history large]
      rfl
    · rw [append_content takes large, kept_append history large, ← held, content_length]
      rfl

theorem append_enabled (log : ConsoleLog) (bytes : List UInt8) :
    (log.append bytes).captureEnabled = log.captureEnabled := by
  unfold ConsoleLog.append
  split
  · rfl
  · split
    · rfl
    · exact makeRoom_enabled log bytes

/-! A read. -/

theorem slice_getElem? (block : Block CONSOLE_LOG_CAPACITY) (offset : Nat) {length index : Nat} (inside : index < length) :
    (slice block offset length)[index]? = some (byteAt block (offset + index)) := by
  unfold slice
  rw [getElem?_map, getElem?_range inside]
  rfl

theorem parts_eq (log : ConsoleLog) {offset readLen firstLen : Nat} (inside : offset + readLen ≤ log.len)
    (first : firstLen = min (CONSOLE_LOG_CAPACITY - (log.start + offset) % CONSOLE_LOG_CAPACITY) readLen) :
    slice log.buffer ((log.start + offset) % CONSOLE_LOG_CAPACITY) firstLen ++ slice log.buffer 0 (readLen - firstLen) =
      (log.content.drop offset).take readLen := by
  have capacity := log.len_le
  have place := place_lt (log.start + offset)
  apply ext_getElem?
  intro index
  by_cases within : index < readLen
  · rw [getElem?_take_of_lt within, getElem?_drop, content_getElem? _ (by omega), ← Nat.add_assoc,
      ← Nat.mod_add_mod (log.start + offset),
      wrap ((log.start + offset) % CONSOLE_LOG_CAPACITY + index) (by omega)]
    by_cases ahead : index < firstLen
    · rw [getElem?_append_left (by rw [slice_length]; exact ahead), slice_getElem? _ _ ahead, if_pos (by omega)]
    · rw [getElem?_append_right (by rw [slice_length]; omega), slice_length, slice_getElem? _ _ (by omega),
        if_neg (by omega), show 0 + (index - firstLen) = (log.start + offset) % CONSOLE_LOG_CAPACITY + index -
          CONSOLE_LOG_CAPACITY by omega]
  · rw [getElem?_eq_none (by rw [length_append, slice_length, slice_length]; omega),
      getElem?_eq_none (by rw [length_take]; omega)]

theorem copyFromSlice_first (output bytes : List UInt8) :
    copyFromSlice output 0 bytes = bytes ++ output.drop bytes.length := by
  unfold copyFromSlice
  rw [take_zero, nil_append, Nat.zero_add]

theorem copyFromSlice_second (head output bytes : List UInt8) :
    copyFromSlice (head ++ output) head.length bytes = head ++ bytes ++ output.drop bytes.length := by
  unfold copyFromSlice
  rw [take_left, drop_append, Nat.add_sub_cancel_left, drop_eq_nil_of_le (Nat.le_add_right _ _),
    nil_append]

theorem read_eq (log : ConsoleLog) (offset : Nat) (output : List UInt8) :
    log.read offset output = readKept log.content offset output := by
  have length : ((log.content.drop offset).take output.length).length = min (log.len - offset) output.length := by
    rw [length_take, length_drop, content_length, Nat.min_comm]
  unfold ConsoleLog.read readKept
  dsimp only
  rw [length]
  by_cases stops : offset ≥ log.len ∨ output = []
  · have none : min (log.len - offset) output.length = 0 := by
      rcases stops with past | empty
      · omega
      · rw [empty, length_nil, Nat.min_zero]
    rw [if_pos stops, none, drop_zero, length_eq_zero_iff.mp (length.trans none), nil_append]
  · rw [if_neg stops]
    generalize counted : min (log.len - offset) output.length = readLen
    generalize split : min (CONSOLE_LOG_CAPACITY - (log.start + offset) % CONSOLE_LOG_CAPACITY) readLen = firstLen
    have parts := parts_eq log (by omega : offset + readLen ≤ log.len) split.symm
    have taken : (log.content.drop offset).take output.length = (log.content.drop offset).take readLen := by
      rw [← counted, ← content_length log, ← length_drop, Nat.min_comm, ← take_eq_take_min]
    rw [taken, ← parts, copyFromSlice_first, slice_length]
    by_cases second : readLen - firstLen > 0
    · have copied := copyFromSlice_second (slice log.buffer ((log.start + offset) % CONSOLE_LOG_CAPACITY) firstLen)
        (output.drop firstLen) (slice log.buffer 0 (readLen - firstLen))
      rw [slice_length, slice_length, drop_drop, show firstLen + (readLen - firstLen) = readLen by omega] at copied
      rw [if_pos second, copied]
    · have whole : readLen = firstLen := by omega
      rw [if_neg second, whole, Nat.sub_self, show slice log.buffer 0 0 = [] from rfl, append_nil]

theorem console_refines_recorder : Refines console recorder Holds where
  output := by
    rintro log state operation ⟨held, -⟩
    cases operation with
    | append bytes => rfl
    | setCaptureEnabled enabled => rfl
    | read offset output => exact congrArg some ((read_eq log offset output).trans (by rw [held]))
  next := by
    rintro log state operation ⟨held, same⟩
    cases operation with
    | append bytes =>
      change Holds (log.append bytes) (if state.enabled then _ else _)
      by_cases enabled : state.enabled = true
      · rw [if_pos enabled]
        exact ⟨append_kept held (same.trans enabled) bytes, (append_enabled log bytes).trans same⟩
      · have off : log.captureEnabled = false := Bool.eq_false_of_not_eq_true (same ▸ enabled)
        have skipped : log.append bytes = log := by
          unfold ConsoleLog.append
          rw [off, Bool.not_false, Bool.true_or, if_pos rfl]
        rw [if_neg enabled, skipped]
        exact ⟨held, same⟩
    | setCaptureEnabled enabled => exact ⟨held, rfl⟩
    | read offset output => exact ⟨held, same⟩

/-- Each read is answered from the last bytes captured so far. -/
theorem console_keeps_last_bytes (operations : List Operation) :
    console.trace .new operations = recorder.trace ⟨[], true⟩ operations ∧
      (console.final .new operations).content = kept (recorder.final ⟨[], true⟩ operations).bytes := by
  have start : Holds .new ⟨[], true⟩ := ⟨rfl, rfl⟩
  exact ⟨console_refines_recorder.trace operations start, (console_refines_recorder.final operations start).1⟩

end HermitLocal.Console
