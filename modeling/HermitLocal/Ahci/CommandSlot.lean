import HermitLocal.Ahci.Dma
import HermitLocal.Lib.Simulation

/-! Command slot 0 of the port over a sequence of transfers. Each call of `transfer_sectors` has a command
table of its own, which it frees when it returns; the controller works on the slot for as long as bit 0 of
PxCI is set. The driver is taken from one register access to the next, and between two of them the
controller may finish its command and change PxTFD and PxIS as it likes. Reads that only serve a log line
are left out. -/

namespace HermitLocal.Ahci.CommandSlot
open Lib.PageTable Lib.Simulation Mm.Heap Ahci.Dma

structure CommandHeader where
  cflFlags : Nat
  prdtl : Nat
  prdbc : Nat
  ctba : Nat
  ctbau : Nat
  deriving DecidableEq

def commandHeader (ctPhys : Nat) (isWrite : Bool) : CommandHeader where
  cflFlags := 5 ||| if isWrite then 2 ^ 6 else 0
  prdtl := 1
  prdbc := 0
  ctba := ctPhys % 2 ^ 32
  ctbau := ctPhys / 2 ^ 32 % 2 ^ 32

structure Call where
  transfer : Transfer
  tableAt : Nat
  buffers : List Nat
  held : transfer.buffer ∈ buffers

structure Moment where
  finished : Bool
  tfd : UInt32
  is : UInt32

inductive Phase where
  | entered
  | waiting (ctPhys dataPhys wait : Nat)
  | filling (ctPhys dataPhys : Nat)
  | heading (ctPhys : Nat)
  | issuing
  | polling (timeout : Nat)
  | checking (timeout : Nat)
  | returning (ok : Bool)
  | panicked

structure Port where
  running : Option (Call × Phase)
  ci : Bool
  header : CommandHeader
  table : Option (Nat × Option Command)
  buffers : List Nat
  setBy : Option Call

inductive Input where
  | call (call : Call)
  | callers (buffers : List Nat)
  | tick (moment : Moment)

def TFD_BUSY : UInt32 := 0x88

def IS_TFES : UInt32 := 0x40000000

def Port.goto (port : Port) (call : Call) (phase : Phase) : Port := { port with running := some (call, phase) }

section Driver
variable (commandList : Option Nat) (paging : Table)

def enter (call : Call) (port : Port) : Port :=
  match commandList, virtualToPhysical paging call.tableAt, virtualToPhysical paging call.transfer.buffer with
  | none, _, _ => port.goto call (.returning false)
  | some _, some ctPhys, some dataPhys => port.goto call (.waiting ctPhys dataPhys 10000)
  | some _, _, _ => port.goto call .panicked

def advance (call : Call) (moment : Moment) (port : Port) : Phase → Port
  | .entered => enter commandList paging call port
  | .waiting ctPhys dataPhys wait =>
      if moment.tfd &&& TFD_BUSY ≠ 0 ∧ 0 < wait then port.goto call (.waiting ctPhys dataPhys (wait - 1))
      else if wait = 0 then port.goto call (.returning false)
      else port.goto call (.filling ctPhys dataPhys)
  | .filling ctPhys dataPhys =>
      { port.goto call (.heading ctPhys) with
        table := some (call.tableAt, some
          ⟨commandFis call.transfer.lba call.transfer.count call.transfer.isWrite, prdtEntry dataPhys call.transfer.count⟩) }
  | .heading ctPhys => { port.goto call .issuing with header := commandHeader ctPhys call.transfer.isWrite }
  | .issuing =>
      { port.goto call (.polling (if call.transfer.isWrite then 50000 else 1000)) with
        ci := true
        setBy := if port.ci then port.setBy else some call }
  | .polling timeout =>
      if port.ci = true ∧ 0 < timeout then port.goto call (.checking timeout)
      else if timeout = 0 then port.goto call (.returning false)
      else port.goto call (.returning true)
  | .checking timeout =>
      if moment.is &&& IS_TFES ≠ 0 then port.goto call (.returning false)
      else port.goto call (.polling (timeout - 1))
  | .returning _ => { port with running := none, table := none }
  | .panicked => port.goto call .panicked

def Port.finish (port : Port) (moment : Moment) : Port := { port with ci := port.ci && !moment.finished }

def step (port : Port) : Input → Port
  | .call call =>
      match port.running with
      | some _ => port
      | none => { port with running := some (call, .entered), table := some (call.tableAt, none), buffers := call.buffers }
  | .callers buffers =>
      match port.running with
      | some _ => port
      | none => { port with buffers := buffers }
  | .tick moment =>
      match port.running with
      | some (call, phase) => advance commandList paging call moment (port.finish moment) phase
      | none => port.finish moment

end Driver

def started (header : CommandHeader) (buffers : List Nat) : Port := ⟨none, false, header, none, buffers, none⟩

/-! Every call comes to an end, whatever the controller does. -/

section Ends
variable {commandList : Option Nat} {paging : Table} {port : Port} {call : Call} {phase : Phase} {bound : Nat}

def Phase.rank : Phase → Nat
  | .entered => 110106
  | .waiting _ _ wait => 100105 + wait
  | .filling _ _ => 100104
  | .heading _ => 100103
  | .issuing => 100102
  | .polling timeout => 2 * timeout + 2
  | .checking timeout => 2 * max timeout 1 + 1
  | .returning _ => 1
  | .panicked => 0

theorem rank_zero (none : phase.rank ≤ 0) : phase = .panicked := by
  cases phase with
  | panicked => rfl
  | _ => simp [Phase.rank] at none

def Ends (bound : Nat) (port : Port) : Prop := ∀ call phase, port.running = some (call, phase) → phase.rank ≤ bound

theorem ends_running (running : port.running = some (call, phase)) (short : phase.rank ≤ bound) : Ends bound port := by
  intro other next same
  cases running.symm.trans same
  exact short

theorem enter_ends (short : Phase.rank .entered ≤ bound + 1) : Ends bound (enter commandList paging call port) := by
  have left : 110106 ≤ bound + 1 := short
  unfold enter
  split
  · exact ends_running rfl (show 1 ≤ bound by omega)
  · exact ends_running rfl (show 100105 + 10000 ≤ bound by omega)
  · exact ends_running rfl (Nat.zero_le bound)

theorem advance_ends (moment : Moment) (short : phase.rank ≤ bound + 1) :
    Ends bound (advance commandList paging call moment port phase) := by
  cases phase with
  | entered => exact enter_ends short
  | waiting ctPhys dataPhys wait =>
    have left : 100105 + wait ≤ bound + 1 := short
    rw [advance]
    split_ifs with busy
    · exact ends_running rfl (show 100105 + (wait - 1) ≤ bound by omega)
    · exact ends_running rfl (show 1 ≤ bound by omega)
    · exact ends_running rfl (show 100104 ≤ bound by omega)
  | filling ctPhys dataPhys =>
    have left : 100104 ≤ bound + 1 := short
    exact ends_running rfl (show 100103 ≤ bound by omega)
  | heading ctPhys =>
    have left : 100103 ≤ bound + 1 := short
    exact ends_running rfl (show 100102 ≤ bound by omega)
  | issuing =>
    have left : 100102 ≤ bound + 1 := short
    have polls : 2 * (if call.transfer.isWrite then 50000 else 1000) + 2 ≤ bound := by
      split_ifs
      · omega
      · omega
    exact ends_running rfl polls
  | polling timeout =>
    have left : 2 * timeout + 2 ≤ bound + 1 := short
    rw [advance]
    split_ifs with working expired
    · exact ends_running rfl (show 2 * max timeout 1 + 1 ≤ bound by omega)
    · exact ends_running rfl (show 1 ≤ bound by omega)
    · exact ends_running rfl (show 1 ≤ bound by omega)
  | checking timeout =>
    have left : 2 * max timeout 1 + 1 ≤ bound + 1 := short
    rw [advance]
    split_ifs
    · exact ends_running rfl (show 1 ≤ bound by omega)
    · exact ends_running rfl (show 2 * (timeout - 1) + 2 ≤ bound by omega)
  | returning ok =>
    intro other next running
    cases running
  | panicked => exact ends_running rfl (Nat.zero_le bound)

theorem ticks_end (moments : List Moment) (ends : Ends (bound + moments.length) port) :
    Ends bound ((moments.map Input.tick).foldl (step commandList paging) port) := by
  induction moments generalizing port with
  | nil => exact ends
  | cons moment rest ih =>
    apply ih
    rw [step]
    split
    next call phase running => exact advance_ends moment (ends call phase running)
    next idle =>
      intro call phase running
      cases idle.symm.trans running

/-- Every call ends, whatever values the controller shows. -/
theorem call_returns (idle : port.running = none) (call : Call) (moments : List Moment) (enough : 110106 ≤ moments.length) :
    ∀ other phase, ((.call call :: moments.map Input.tick).foldl (step commandList paging) port).running = some (other, phase) →
      phase = .panicked := by
  intro other phase running
  have entered : Ends (0 + moments.length) (step commandList paging port (.call call)) := by
    rw [step, idle, Nat.zero_add]
    exact ends_running rfl enough
  have none := ticks_end moments entered other phase running
  exact rank_zero none

theorem call_returns_sample : 110106 ≤ (List.replicate 110106 (⟨false, 0, 0⟩ : Moment)).length ∧
    ∀ other phase, ((.call ⟨⟨0, 1, 0, false⟩, 0, [0], List.mem_singleton_self _⟩ ::
      (List.replicate 110106 ⟨false, 0, 0⟩).map Input.tick).foldl (step (some 0) identityMap.table)
        (started (commandHeader 0 false) [])).running = some (other, phase) → phase = .panicked := by
  have enough : 110106 ≤ (List.replicate 110106 (⟨false, 0, 0⟩ : Moment)).length := by rw [List.length_replicate]
  exact ⟨enough, call_returns rfl _ _ enough⟩

end Ends

section Ownership
variable (paging : Table)

def Placed (call : Call) (ctPhys : Nat) (port : Port) : Prop :=
  virtualToPhysical paging call.tableAt = some ctPhys ∧
    ∃ command, program paging call.transfer = some command ∧ port.table = some (call.tableAt, some command)

def Written (call : Call) (port : Port) : Prop :=
  ∃ ctPhys, Placed paging call ctPhys port ∧ port.header = commandHeader ctPhys call.transfer.isWrite

def Owned (port : Port) : Prop :=
  port.ci = true → ∃ call, port.setBy = some call ∧ Written paging call port ∧ call.transfer.buffer ∈ port.buffers

def Settled (port : Port) : Input → Prop
  | .tick moment => ∀ call, port.running = some (call, .returning false) → (port.finish moment).ci = false
  | _ => True

def PhaseSound (call : Call) (port : Port) : Phase → Prop
  | .entered => port.ci = false
  | .waiting ctPhys dataPhys _ => port.ci = false ∧ virtualToPhysical paging call.tableAt = some ctPhys ∧
      virtualToPhysical paging call.transfer.buffer = some dataPhys
  | .filling ctPhys dataPhys => port.ci = false ∧ virtualToPhysical paging call.tableAt = some ctPhys ∧
      virtualToPhysical paging call.transfer.buffer = some dataPhys
  | .heading ctPhys => port.ci = false ∧ Placed paging call ctPhys port
  | .issuing => port.ci = false ∧ Written paging call port
  | .polling _ => port.ci = true → port.setBy = some call ∧ Written paging call port
  | .checking _ => port.ci = true → port.setBy = some call ∧ Written paging call port
  | .returning ok => port.ci = true → ok = false ∧ port.setBy = some call ∧ Written paging call port
  | .panicked => port.ci = false

def Sound (port : Port) : Prop :=
  match port.running with
  | none => port.ci = false
  | some (call, phase) => call.transfer.buffer ∈ port.buffers ∧ PhaseSound paging call port phase

variable {paging} {commandList : Option Nat} {port : Port} {call : Call} {phase : Phase}

theorem sound_idle (idle : port.running = none) : Sound paging port ↔ port.ci = false := by
  unfold Sound
  rw [idle]

theorem sound_running (running : port.running = some (call, phase)) :
    Sound paging port ↔ call.transfer.buffer ∈ port.buffers ∧ PhaseSound paging call port phase := by
  unfold Sound
  rw [running]

theorem clear_owned (clear : port.ci = false) : Owned paging port := by
  intro set
  rw [clear] at set
  cases set

theorem sound_owned (port : Port) (sound : Sound paging port) : Owned paging port := by
  cases running : port.running with
  | none => exact clear_owned ((sound_idle running).mp sound)
  | some run =>
    obtain ⟨call, phase⟩ := run
    obtain ⟨held, phaseSound⟩ := (sound_running running).mp sound
    cases phase with
    | entered | panicked => exact clear_owned phaseSound
    | waiting ctPhys dataPhys wait | filling ctPhys dataPhys | heading ctPhys | issuing =>
      exact clear_owned phaseSound.1
    | polling timeout | checking timeout =>
      intro set
      exact ⟨call, (phaseSound set).1, (phaseSound set).2, held⟩
    | returning ok =>
      intro set
      exact ⟨call, (phaseSound set).2.1, (phaseSound set).2.2, held⟩

theorem finish_clear (clear : port.ci = false) (moment : Moment) : (port.finish moment).ci = false := by
  unfold Port.finish
  rw [clear, Bool.false_and]

theorem finish_set {moment : Moment} (set : (port.finish moment).ci = true) : port.ci = true :=
  (Bool.and_eq_true_iff.mp set).1

theorem finish_phaseSound (moment : Moment) (sound : PhaseSound paging call port phase) :
    PhaseSound paging call (port.finish moment) phase := by
  cases phase with
  | entered | panicked => exact finish_clear sound moment
  | waiting ctPhys dataPhys wait | filling ctPhys dataPhys | heading ctPhys | issuing =>
    exact ⟨finish_clear sound.1 moment, sound.2⟩
  | polling timeout | checking timeout | returning ok => exact fun set => sound (finish_set set)

theorem sound_goto (held : call.transfer.buffer ∈ port.buffers) (sound : PhaseSound paging call port phase) :
    Sound paging (port.goto call phase) := ⟨held, by cases phase <;> exact sound⟩

theorem clear_returning (clear : port.ci = false) (ok : Bool) : PhaseSound paging call port (.returning ok) := by
  intro set
  rw [clear] at set
  cases set

theorem enter_sound (held : call.transfer.buffer ∈ port.buffers) (clear : port.ci = false) :
    Sound paging (enter commandList paging call port) := by
  unfold enter
  split
  · exact sound_goto held (clear_returning clear false)
  next tableMapped dataMapped => exact sound_goto held ⟨clear, tableMapped, dataMapped⟩
  · exact sound_goto held clear

theorem advance_sound (moment : Moment) (held : call.transfer.buffer ∈ port.buffers)
    (sound : PhaseSound paging call port phase) (settled : phase = .returning false → port.ci = false) :
    Sound paging (advance commandList paging call moment port phase) := by
  cases phase with
  | entered => exact enter_sound held sound
  | waiting ctPhys dataPhys wait =>
    rw [advance]
    split_ifs
    · exact sound_goto held sound
    · exact sound_goto held (clear_returning sound.1 false)
    · exact sound_goto held sound
  | filling ctPhys dataPhys =>
    have programmed : program paging call.transfer = some
        ⟨commandFis call.transfer.lba call.transfer.count call.transfer.isWrite, prdtEntry dataPhys call.transfer.count⟩ := by
      unfold program
      rw [sound.2.2, Option.map_some]
    exact ⟨held, sound.1, sound.2.1, _, programmed, rfl⟩
  | heading ctPhys => exact ⟨held, sound.1, ctPhys, sound.2, rfl⟩
  | issuing =>
    have mine : (if port.ci then port.setBy else some call) = some call := by
      rw [sound.1]
      rfl
    exact ⟨held, fun _ => ⟨mine, sound.2⟩⟩
  | polling timeout =>
    rw [advance]
    split_ifs with working expired
    · exact sound_goto held sound
    · exact sound_goto held fun set => ⟨rfl, sound set⟩
    · apply sound_goto held
      apply clear_returning
      apply Bool.eq_false_iff.mpr
      intro set
      exact working ⟨set, Nat.pos_of_ne_zero expired⟩
  | checking timeout =>
    rw [advance]
    split_ifs
    · exact sound_goto held fun set => ⟨rfl, sound set⟩
    · exact sound_goto held sound
  | returning ok =>
    -- only a call that fails could leave the bit set
    change port.ci = false
    apply Bool.eq_false_iff.mpr
    intro set
    have clear := settled (congrArg Phase.returning (sound set).1)
    rw [clear] at set
    cases set
  | panicked => exact sound_goto held sound

theorem step_sound (port : Port) (input : Input) (sound : Sound paging port) (settled : Settled port input) :
    Sound paging (step commandList paging port input) := by
  cases running : port.running with
  | none =>
    have clear := (sound_idle running).mp sound
    cases input with
    | call call =>
      rw [step, running]
      exact ⟨call.held, clear⟩
    | callers buffers =>
      rw [step, running]
      exact clear
    | tick moment =>
      rw [step, running]
      exact (sound_idle (show (port.finish moment).running = none from running)).mpr (finish_clear clear moment)
  | some run =>
    obtain ⟨call, phase⟩ := run
    cases input with
    | call other | callers buffers =>
      rw [step, running]
      exact sound
    | tick moment =>
      obtain ⟨held, phaseSound⟩ := (sound_running running).mp sound
      rw [step, running]
      apply advance_sound moment (show _ ∈ (port.finish moment).buffers from held) (finish_phaseSound moment phaseSound)
      intro failed
      exact settled call (by rw [running, failed])

theorem owned_settled (port : Port) (input : Input) (owned : Owned paging (step commandList paging port input)) :
    Settled port input := by
  cases input with
  | call call => trivial
  | callers buffers => trivial
  | tick moment =>
    intro call running
    apply Bool.eq_false_iff.mpr
    intro set
    rw [step, running] at owned
    obtain ⟨other, -, ⟨ctPhys, placed, -⟩, -⟩ := owned set
    obtain ⟨-, command, -, allocated⟩ := placed
    cases allocated

/-- The slot has one owner exactly if no failed call leaves a command unfinished. -/
theorem slot_owned_iff (commandList : Option Nat) (paging : Table) (header : CommandHeader) (buffers : List Nat)
    (inputs : List Input) :
    (∀ past, past <+: inputs → Owned paging (past.foldl (step commandList paging) (started header buffers))) ↔
      Guarded (step commandList paging) Settled (started header buffers) inputs := by
  apply guarded_iff_implied sound_owned step_sound
  · intro port input _ owned
    exact owned_settled port input owned
  · exact (sound_idle rfl).mpr rfl

def sampleRead (tableAt : Nat) : Call := ⟨⟨0, 1, 0x200000, false⟩, tableAt, [0x200000], List.mem_singleton_self _⟩

def taskFileError : Input := .tick ⟨false, 0, IS_TFES⟩

theorem failed_read_keeps_slot : ∃ returned later : Port,
      returned = (.call (sampleRead 0x100000) :: List.replicate 8 taskFileError).foldl (step (some 0x3000) identityMap.table)
        (started (commandHeader 0 false) []) ∧
      returned.running.isNone ∧ returned.ci = true ∧ returned.table.isNone ∧ ¬Owned identityMap.table returned ∧
      later = (.call (sampleRead 0x110000) :: List.replicate 4 taskFileError).foldl (step (some 0x3000) identityMap.table)
        returned ∧
      later.ci = true ∧ later.header = commandHeader 0x110000 false ∧ (later.setBy.map Call.tableAt) = some 0x100000 := by
  refine ⟨_, _, rfl, by decide +kernel, by decide +kernel, by decide +kernel, ?_, rfl, by decide +kernel, by decide +kernel,
    by decide +kernel⟩
  intro owned
  obtain ⟨call, -, ⟨ctPhys, placed, -⟩, -⟩ := owned (by decide +kernel)
  obtain ⟨-, command, -, allocated⟩ := placed
  have freed := congrArg Option.isNone allocated
  rw [Option.isNone_some] at freed
  exact absurd freed (by decide +kernel)

end Ownership

end HermitLocal.Ahci.CommandSlot
