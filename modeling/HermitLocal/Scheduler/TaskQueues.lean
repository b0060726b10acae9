import Mathlib.Algebra.Order.BigOperators.Group.Finset
import Mathlib.Data.Fintype.BigOperators

/-! Tasks and the queues that hold them: the ready queue with its bitmap of priorities and the list of
blocked tasks with its one-shot timer. A task is shared by reference, so that the queues hold
identifiers and the tasks of a core stand in one table. A panic is the value `none`. -/

namespace HermitLocal.Scheduler.TaskQueues
open Function Option

inductive TaskStatus where
  | Invalid | Ready | Running | Blocked | Finished | Idle
deriving DecidableEq, Repr

abbrev TaskId := Nat
abbrev CoreId := Nat
abbrev Priority := UInt8

def IDLE_PRIO : Priority := 0

def NO_PRIORITIES : Nat := 31

structure TaskHandle where
  id : TaskId
  priority : Priority
  coreId : CoreId
deriving DecidableEq, Repr

structure Task where
  status : TaskStatus
  prio : Priority
  coreId : CoreId
deriving DecidableEq, Repr

abbrev Tasks := TaskId → Task

def setStatus (tasks : Tasks) (task : TaskId) (status : TaskStatus) : Tasks :=
  update tasks task { tasks task with status := status }

section Status
variable (tasks : Tasks) (task : TaskId) (status : TaskStatus)

@[simp] theorem setStatus_status_self : (setStatus tasks task status task).status = status := by
  rw [setStatus, update_self]

variable {tasks task status} in
theorem setStatus_other {other : TaskId} (apart : other ≠ task) : setStatus tasks task status other = tasks other := by
  rw [setStatus, update_of_ne apart]

@[simp] theorem setStatus_coreId (other : TaskId) :
    (setStatus tasks task status other).coreId = (tasks other).coreId := by
  by_cases same : other = task
  · rw [same, setStatus, update_self]
  · rw [setStatus_other same]

end Status

/-! A list for each priority. -/

section Sums
variable {α : Type} (lists : Fin NO_PRIORITIES → List α) (i : Fin NO_PRIORITIES)

theorem sum_update (list : List α) : (∑ j, (update lists i list j : Multiset α)) + (lists i : Multiset α) =
    (∑ j, (lists j : Multiset α)) + (list : Multiset α) := by
  have split (lists : Fin NO_PRIORITIES → List α) :
      (∑ j, (lists j : Multiset α)) = (lists i : Multiset α) + ∑ j ∈ Finset.univ.erase i, (lists j : Multiset α) :=
    (Finset.add_sum_erase Finset.univ (fun j => (lists j : Multiset α)) (Finset.mem_univ i)).symm
  have others : ∑ j ∈ Finset.univ.erase i, (update lists i list j : Multiset α) =
      ∑ j ∈ Finset.univ.erase i, (lists j : Multiset α) := by
    apply Finset.sum_congr rfl
    intro j other
    rw [update_of_ne (Finset.ne_of_mem_erase other)]
  rw [split (update lists i list), split lists, others, update_self, add_comm _ (lists i : Multiset α),
    add_comm (list : Multiset α), add_assoc]

theorem sum_push (new : α) :
    ∑ j, (update lists i (lists i ++ [new]) j : Multiset α) = new ::ₘ ∑ j, (lists j : Multiset α) := by
  apply add_right_cancel (b := (lists i : Multiset α))
  rw [sum_update, ← Multiset.coe_add, Multiset.cons_add, Multiset.coe_singleton, ← add_assoc, add_comm,
    Multiset.singleton_add]

theorem sum_tail : ∑ j, (lists j : Multiset α) =
    (lists i).head?.elim 0 ({·}) + ∑ j, (update lists i (lists i).tail j : Multiset α) := by
  have updated := sum_update lists i (lists i).tail
  cases list : lists i with
  | nil =>
    rw [list] at updated
    rw [List.head?_nil, elim_none, zero_add]
    exact (add_right_cancel updated).symm
  | cons first others =>
    rw [list, ← Multiset.cons_coe, ← Multiset.singleton_add, ← add_assoc] at updated
    rw [add_comm (Option.elim _ _ _)]
    exact (add_right_cancel updated).symm

end Sums

/-! The ready queue. -/

def msb (n : UInt64) : Option Nat := if n = 0 then none else some n.toNat.log2

structure PriorityTaskQueue where
  queues : Fin NO_PRIORITIES → List TaskId
  prioBitmap : UInt64

namespace PriorityTaskQueue

def new : PriorityTaskQueue := ⟨fun _ => [], 0⟩

def bit (index : Nat) : UInt64 := 1 <<< index.toUInt64

def push (queue : PriorityTaskQueue) (tasks : Tasks) (task : TaskId) : Option PriorityTaskQueue :=
  let i := (tasks task).prio.toNat
  if known : i < NO_PRIORITIES then
    some
      { queues := update queue.queues ⟨i, known⟩ (queue.queues ⟨i, known⟩ ++ [task])
        prioBitmap := queue.prioBitmap ||| bit i }
  else none

def popFromQueue (queue : PriorityTaskQueue) (queueIndex : Nat) : Option (Option TaskId × PriorityTaskQueue) :=
  if known : queueIndex < NO_PRIORITIES then
    let rest := (queue.queues ⟨queueIndex, known⟩).tail
    some ((queue.queues ⟨queueIndex, known⟩).head?,
      { queues := update queue.queues ⟨queueIndex, known⟩ rest
        prioBitmap := if rest.isEmpty then queue.prioBitmap &&& ~~~ bit queueIndex else queue.prioBitmap })
  else none

def isEmpty (queue : PriorityTaskQueue) : Bool := queue.prioBitmap == 0

def pop (queue : PriorityTaskQueue) : Option (Option TaskId × PriorityTaskQueue) :=
  match msb queue.prioBitmap with
  | none => some (none, queue)
  | some i => queue.popFromQueue i

def popWithPrio (queue : PriorityTaskQueue) (prio : Priority) : Option (Option TaskId × PriorityTaskQueue) :=
  match msb queue.prioBitmap with
  | none => some (none, queue)
  | some i => if i < prio.toNat then some (none, queue) else queue.popFromQueue i

def entries (queue : PriorityTaskQueue) : Multiset TaskId := ∑ i, (queue.queues i : Multiset TaskId)

variable {queue next : PriorityTaskQueue} {popped : Option TaskId}

theorem entries_push {tasks : Tasks} {task : TaskId} (pushed : queue.push tasks task = some next) :
    next.entries = task ::ₘ queue.entries := by
  unfold push at pushed
  dsimp only at pushed
  split at pushed
  · cases pushed
    exact sum_push queue.queues _ task
  · cases pushed

theorem entries_popFromQueue {queueIndex : Nat} (taken : queue.popFromQueue queueIndex = some (popped, next)) :
    queue.entries = popped.elim 0 ({·}) + next.entries := by
  unfold popFromQueue at taken
  split at taken
  · obtain ⟨head, rest⟩ := Prod.mk.inj (Option.some.inj taken)
    rw [← head, ← rest]
    exact sum_tail queue.queues _
  · cases taken

theorem entries_pop (taken : queue.pop = some (popped, next)) :
    queue.entries = popped.elim 0 ({·}) + next.entries := by
  unfold pop at taken
  split at taken
  · cases taken
    rw [elim_none, zero_add]
  · exact entries_popFromQueue taken

theorem entries_popWithPrio {prio : Priority} (taken : queue.popWithPrio prio = some (popped, next)) :
    queue.entries = popped.elim 0 ({·}) + next.entries := by
  unfold popWithPrio at taken
  split at taken
  · cases taken
    rw [elim_none, zero_add]
  · split at taken
    · cases taken
      rw [elim_none, zero_add]
    · exact entries_popFromQueue taken

end PriorityTaskQueue

/-! The queue of a futex or a semaphore. -/

structure TaskHandlePriorityQueue where
  queues : Fin NO_PRIORITIES → Option (List TaskHandle)
  prioBitmap : UInt64

namespace TaskHandlePriorityQueue

def new : TaskHandlePriorityQueue := ⟨fun _ => none, 0⟩

def isEmpty (queue : TaskHandlePriorityQueue) : Bool := queue.prioBitmap == 0

def contains (queue : TaskHandlePriorityQueue) (task : TaskHandle) : Option Bool :=
  if known : task.priority.toNat < NO_PRIORITIES then
    some ((queue.queues ⟨task.priority.toNat, known⟩).any fun list => list.any fun queued => queued.id == task.id)
  else none

def push (queue : TaskHandlePriorityQueue) (task : TaskHandle) : Option TaskHandlePriorityQueue :=
  let i := task.priority.toNat
  if known : i < NO_PRIORITIES then
    some
      { queues := update queue.queues ⟨i, known⟩ (some ((queue.queues ⟨i, known⟩).getD [] ++ [task]))
        prioBitmap := queue.prioBitmap ||| PriorityTaskQueue.bit i }
  else none

def popFromQueue (queue : TaskHandlePriorityQueue) (queueIndex : Nat) :
    Option (Option TaskHandle × TaskHandlePriorityQueue) :=
  if known : queueIndex < NO_PRIORITIES then
    match queue.queues ⟨queueIndex, known⟩ with
    | none => some (none, queue)
    | some list => some (list.head?,
        { queues := update queue.queues ⟨queueIndex, known⟩ (some list.tail)
          prioBitmap :=
            if list.tail.isEmpty then queue.prioBitmap &&& ~~~ PriorityTaskQueue.bit queueIndex else queue.prioBitmap })
  else none

def pop (queue : TaskHandlePriorityQueue) : Option (Option TaskHandle × TaskHandlePriorityQueue) :=
  match msb queue.prioBitmap with
  | none => some (none, queue)
  | some i => queue.popFromQueue i

def remove (queue : TaskHandlePriorityQueue) (task : TaskHandle) : Option (Bool × TaskHandlePriorityQueue) :=
  let queueIndex := task.priority.toNat
  if known : queueIndex < NO_PRIORITIES then
    match queue.queues ⟨queueIndex, known⟩ with
    | none => some (false, queue)
    | some list =>
        let rest := list.filter fun queued => queued.id != task.id
        some (list.any fun queued => queued.id == task.id,
          { queues := update queue.queues ⟨queueIndex, known⟩ (some rest)
            prioBitmap :=
              if rest.isEmpty then queue.prioBitmap &&& ~~~ PriorityTaskQueue.bit queueIndex else queue.prioBitmap })
  else none

def length (queue : TaskHandlePriorityQueue) : Nat := ∑ i, ((queue.queues i).getD []).length

def handles (queue : TaskHandlePriorityQueue) : Multiset TaskHandle :=
  ∑ i, ((queue.queues i).getD [] : Multiset TaskHandle)

theorem handles_new : new.handles = 0 := Finset.sum_eq_zero fun _ _ => rfl

theorem handles_update (queue : TaskHandlePriorityQueue) (bitmap : UInt64) (i : Fin NO_PRIORITIES)
    (list : List TaskHandle) : (TaskHandlePriorityQueue.mk (update queue.queues i (some list)) bitmap).handles =
      ∑ j, (update (fun j => (queue.queues j).getD []) i list j : Multiset TaskHandle) := by
  unfold handles
  congr 1
  funext j
  rw [apply_update fun _ (list : Option (List TaskHandle)) => list.getD []]
  rfl

variable {queue next : TaskHandlePriorityQueue} {task : TaskHandle} {popped : Option TaskHandle}

theorem handles_push (pushed : queue.push task = some next) : next.handles = task ::ₘ queue.handles := by
  unfold push at pushed
  dsimp only at pushed
  split at pushed
  · cases pushed
    rw [handles_update]
    exact sum_push (fun j => (queue.queues j).getD []) _ task
  · cases pushed

theorem handles_pop (taken : queue.pop = some (popped, next)) :
    queue.handles = popped.elim 0 ({·}) + next.handles := by
  unfold pop at taken
  split at taken
  · cases taken
    rw [elim_none, zero_add]
  · unfold popFromQueue at taken
    split at taken
    · split at taken
      · cases taken
        rw [elim_none, zero_add]
      · rename_i known _ list stands
        obtain ⟨head, rest⟩ := Prod.mk.inj (Option.some.inj taken)
        have sum := sum_tail (fun j => (queue.queues j).getD []) ⟨_, known⟩
        simp only [stands, getD_some] at sum
        rw [← head, ← rest, handles_update]
        exact sum
    · cases taken

theorem handles_remove {removed : Bool} (taken : queue.remove task = some (removed, next)) :
    next.handles ≤ queue.handles := by
  unfold remove at taken
  dsimp only at taken
  split at taken
  · split at taken
    · cases taken
      exact le_rfl
    · rename_i known _ list stands
      obtain ⟨-, rest⟩ := Prod.mk.inj (Option.some.inj taken)
      rw [← rest, handles_update]
      apply Finset.sum_le_sum
      intro j _
      by_cases same : j = ⟨task.priority.toNat, known⟩
      · rw [same, update_self, stands, getD_some]
        exact Multiset.coe_le.mpr List.filter_sublist.subperm
      · rw [update_of_ne same]
  · cases taken

end TaskHandlePriorityQueue

/-! The core that a task belongs to. -/

structure Homes (processorCount : Nat) (tasks : List TaskId) (known : CoreId → List TaskId) : Prop where
  home : ∀ core < processorCount, ∀ task ∈ known core, task ∈ tasks
  unique : ∀ first < processorCount, ∀ second < processorCount, ∀ task ∈ known first,
    task ∈ known second → first = second

section Homes
variable {processorCount : Nat} {tasks : List TaskId} {known : CoreId → List TaskId} {core target : CoreId}
  {task tid : TaskId}

theorem homes_boot (processorCount : Nat) : Homes processorCount (List.range processorCount) fun core => [core] where
  home core here task member := by
    rw [List.mem_singleton.mp member]
    exact List.mem_range.mpr here
  unique first _ second _ task one other := (List.mem_singleton.mp one).symm.trans (List.mem_singleton.mp other)

theorem mem_known_create :
    task ∈ update known target (tid :: known target) core ↔ core = target ∧ task = tid ∨ task ∈ known core := by
  by_cases same : core = target
  · subst same
    rw [update_self, List.mem_cons, and_iff_right rfl]
  · rw [update_of_ne same, or_iff_right fun both => same both.1]

variable (homes : Homes processorCount tasks known) (fresh : tid ∉ tasks)

include homes fresh

theorem Homes.not_fresh (here : core < processorCount) (member : task ∈ known core) : task ≠ tid := by
  rintro rfl
  exact fresh (homes.home core here task member)

theorem Homes.create : Homes processorCount (tid :: tasks) (update known target (tid :: known target)) := by
  constructor
  · intro core here task member
    rcases mem_known_create.mp member with ⟨-, rfl⟩ | before
    · exact List.mem_cons_self
    · exact List.mem_cons_of_mem _ (homes.home core here task before)
  · intro first here second there task one other
    rcases mem_known_create.mp one with ⟨rfl, new⟩ | before
    · rcases mem_known_create.mp other with ⟨rfl, -⟩ | later
      · rfl
      · exact absurd new (homes.not_fresh fresh there later)
    · rcases mem_known_create.mp other with ⟨rfl, new⟩ | later
      · exact absurd new (homes.not_fresh fresh here before)
      · exact homes.unique first here second there task before later

end Homes

end HermitLocal.Scheduler.TaskQueues
