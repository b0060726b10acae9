import HermitLocal.Scheduler.TaskQueues

/-! The agreement between the tasks that wait for the end of another one and that task, apart from how the cores schedule
them. Whoever waits is blocked and stands in one queue, or its wakeup is on the way to its core. -/

namespace HermitLocal.Scheduler.JoinProtocol
open Scheduler.TaskQueues Function List Option

@[ext] structure View where
  processorCount : Nat
  tasks : List TaskId
  known : CoreId → List TaskId
  blocks : CoreId → TaskId → Prop
  exited : CoreId → TaskId → Prop
  wakeups : CoreId → List TaskHandle
  waitingTasks : TaskId → Option (List TaskHandle)
  joining : TaskId → Option TaskId

variable {core other : CoreId} {handle : TaskHandle} {queue : List TaskHandle} {task : TaskId}

namespace View

def sent (view : View) (core : CoreId) : List TaskId := (view.wakeups core).map TaskHandle.id

def ofCore (core : CoreId) (queue : List TaskHandle) : List TaskHandle := queue.filter fun handle => handle.coreId = core

theorem mem_ofCore : handle ∈ ofCore core queue ↔ handle ∈ queue ∧ handle.coreId = core := by
  rw [ofCore, mem_filter, decide_eq_true_eq]

def create (view : View) (target : CoreId) (tid : TaskId) : View :=
  { view with
    tasks := tid :: view.tasks
    known := update view.known target (tid :: view.known target)
    waitingTasks := update view.waitingTasks tid (some []) }

def enlist (view : View) (id : TaskId) (queue : List TaskHandle) (handle : TaskHandle) : View :=
  { view with
    blocks := update view.blocks handle.coreId fun task => view.blocks handle.coreId task ∨ task = handle.id
    waitingTasks := update view.waitingTasks id (some (queue ++ [handle]))
    joining := update view.joining handle.id (some id) }

def leave (view : View) (task : TaskId) : View := { view with joining := update view.joining task none }

def finish (view : View) (core : CoreId) (task : TaskId) (queue : List TaskHandle) : View :=
  { view with
    blocks := update view.blocks core fun other =>
      view.blocks core other ∧ other ∉ (ofCore core queue).map TaskHandle.id
    exited := update view.exited core fun other => view.exited core other ∨ other = task
    wakeups := fun other => view.wakeups other ++ if other = core then [] else ofCore other queue
    waitingTasks := update view.waitingTasks task none }

def deliver (view : View) (core : CoreId) : View :=
  { view with
    blocks := update view.blocks core fun task => view.blocks core task ∧ task ∉ view.sent core
    wakeups := update view.wakeups core [] }

end View

open View

structure Runs (view : View) (core : CoreId) (task : TaskId) : Prop where
  present : core < view.processorCount
  known : task ∈ view.known core
  awake : ¬ view.blocks core task
  alive : ¬ view.exited core task

inductive Step : View → View → Prop
  | stay (view : View) : Step view view
  | create {view : View} {target : CoreId} {tid : TaskId} (present : target < view.processorCount)
      (fresh : tid ∉ view.tasks) : Step view (view.create target tid)
  | enlist {view : View} {id : TaskId} {queue : List TaskHandle} {handle : TaskHandle}
      (runs : Runs view handle.coreId handle.id) (entry : view.waitingTasks id = some queue) :
      Step view (view.enlist id queue handle)
  | leave {view : View} {core : CoreId} {task : TaskId} (runs : Runs view core task) : Step view (view.leave task)
  | finish {view : View} {core : CoreId} {task : TaskId} {queue : List TaskHandle} (runs : Runs view core task)
      (entry : view.waitingTasks task = some queue) : Step view (view.finish core task queue)
  | deliver {view : View} (core : CoreId) : Step view (view.deliver core)

structure Waits (view : View) (id : TaskId) (handle : TaskHandle) : Prop where
  blocks : view.blocks handle.coreId handle.id
  joining : view.joining handle.id = some id
  unsent : handle.id ∉ view.sent handle.coreId

def Enlisted (view : View) (core : CoreId) (task id : TaskId) : Prop :=
  ∃ queue handle, view.waitingTasks id = some queue ∧ handle ∈ queue ∧ handle.id = task ∧ handle.coreId = core

def Over (view : View) (id : TaskId) : Prop := id ∈ view.tasks ∧ view.waitingTasks id = none

structure Protocol (view : View) : Prop extends Homes view.processorCount view.tasks view.known where
  blockedHere : ∀ core task, view.blocks core task → core < view.processorCount ∧ task ∈ view.known core
  exitedHere : ∀ core task, view.exited core task → core < view.processorCount ∧ task ∈ view.known core
  entered : ∀ id, (view.waitingTasks id).isSome = true ↔ id ∈ view.tasks ∧ ∀ core, ¬ view.exited core id
  queued : ∀ id queue, view.waitingTasks id = some queue → ∀ handle ∈ queue, Waits view id handle
  once : ∀ id queue, view.waitingTasks id = some queue → (queue.map TaskHandle.id).Nodup
  joined : ∀ core task, view.blocks core task → ∃ id, view.joining task = some id ∧
    (Enlisted view core task id ∨ Over view id ∧ task ∈ view.sent core)
  expected : ∀ core, ∀ handle ∈ view.wakeups core, view.blocks core handle.id
  sentOnce : ∀ core, (view.sent core).Nodup
  woken : ∀ task id, view.joining task = some id → Over view id ∨ ∃ core, view.blocks core task

theorem update_added (holds : CoreId → TaskId → Prop) {new : TaskId} :
    update holds core (fun task => holds core task ∨ task = new) other task ↔
      holds other task ∨ other = core ∧ task = new := by
  by_cases same : other = core
  · subst same
    rw [update_self]
    exact or_congr_right (and_iff_right rfl).symm
  · rw [update_of_ne same]
    exact (or_iff_left fun both => same both.1).symm

theorem update_removed (holds : CoreId → TaskId → Prop) {gone : List TaskId} :
    update holds core (fun task => holds core task ∧ task ∉ gone) other task ↔
      holds other task ∧ ¬ (other = core ∧ task ∈ gone) := by
  by_cases same : other = core
  · subst same
    rw [update_self]
    exact and_congr_right fun _ => not_congr (and_iff_right rfl).symm
  · rw [update_of_ne same]
    exact (and_iff_left fun both => same both.1).symm

section Steps
variable {view : View} (protocol : Protocol view)

include protocol in
theorem Protocol.runs_awake (runs : Runs view core task) : ¬ view.blocks other task := by
  intro blocks
  obtain ⟨present, known⟩ := protocol.blockedHere other task blocks
  have same := protocol.unique core runs.present other present task runs.known known
  exact runs.awake (same ▸ blocks)

variable {id : TaskId} {list : List TaskHandle}

section Create
variable {target : CoreId} {tid : TaskId}

theorem create_entry (apart : id ≠ tid) :
    (view.create target tid).waitingTasks id = view.waitingTasks id := update_of_ne apart _ _

theorem create_ownEntry : (view.create target tid).waitingTasks tid = some [] := update_self _ _ _

theorem Over.create (settled : Over view id) (fresh : tid ∉ view.tasks) : Over (view.create target tid) id := by
  have apart : id ≠ tid := by
    rintro rfl
    exact fresh settled.1
  exact ⟨mem_cons_of_mem _ settled.1, (create_entry apart).trans settled.2⟩

theorem create_found (found : (view.create target tid).waitingTasks id = some queue) :
    queue = [] ∨ view.waitingTasks id = some queue := by
  by_cases same : id = tid
  · rw [same, create_ownEntry] at found
    exact .inl (some.inj found).symm
  · rw [create_entry same] at found
    exact .inr found

include protocol

section
variable (fresh : tid ∉ view.tasks)

include fresh

theorem Protocol.create_entered (id : TaskId) : ((view.create target tid).waitingTasks id).isSome = true ↔
      id ∈ (view.create target tid).tasks ∧ ∀ core, ¬ view.exited core id := by
  by_cases same : id = tid
  · subst same
    have nowhere (core : CoreId) : ¬ view.exited core id := by
      intro exited
      obtain ⟨here, known⟩ := protocol.exitedHere core id exited
      exact protocol.toHomes.not_fresh fresh here known rfl
    rw [create_ownEntry]
    exact ⟨fun _ => ⟨mem_cons_self, nowhere⟩, fun _ => rfl⟩
  · rw [create_entry same, protocol.entered id]
    exact and_congr_left fun _ => (mem_cons.trans (or_iff_right same)).symm

theorem Protocol.create_joined (blocks : view.blocks core task) : ∃ id, view.joining task = some id ∧
      (Enlisted (view.create target tid) core task id ∨ Over (view.create target tid) id ∧ task ∈ view.sent core) := by
  obtain ⟨id, joining, ⟨queue, handle, found, rest⟩ | ⟨settled, sent⟩⟩ := protocol.joined core task blocks
  · have apart : id ≠ tid := by
      rintro rfl
      exact fresh ((protocol.entered id).mp (by rw [found]; rfl)).1
    exact ⟨id, joining, .inl ⟨queue, handle, (create_entry apart).trans found, rest⟩⟩
  · exact ⟨id, joining, .inr ⟨settled.create fresh, sent⟩⟩

theorem Protocol.create : Protocol (view.create target tid) where
  toHomes := protocol.toHomes.create fresh
  blockedHere core task blocks :=
    (protocol.blockedHere core task blocks).imp_right fun known => mem_known_create.mpr (.inr known)
  exitedHere core task exited :=
    (protocol.exitedHere core task exited).imp_right fun known => mem_known_create.mpr (.inr known)
  entered := protocol.create_entered fresh
  queued id queue found handle member := by
    rcases create_found found with rfl | before
    · cases member
    · obtain ⟨blocks, joining, unsent⟩ := protocol.queued id queue before handle member
      exact ⟨blocks, joining, unsent⟩
  once id queue found := by
    rcases create_found found with rfl | before
    · exact nodup_nil
    · exact protocol.once id queue before
  joined core task blocks := protocol.create_joined fresh blocks
  expected := protocol.expected
  sentOnce := protocol.sentOnce
  woken task id joining := (protocol.woken task id joining).imp_left fun settled => settled.create fresh

end

end Create

section Enlist
variable {id : TaskId} {queue : List TaskHandle} {handle : TaskHandle}

theorem enlist_blocks (core : CoreId) (task : TaskId) : (view.enlist id queue handle).blocks core task ↔
    view.blocks core task ∨ core = handle.coreId ∧ task = handle.id := update_added view.blocks

variable {other : TaskId}

theorem enlist_entry (apart : other ≠ id) :
    (view.enlist id queue handle).waitingTasks other = view.waitingTasks other := update_of_ne apart _ _

theorem enlist_ownEntry : (view.enlist id queue handle).waitingTasks id = some (queue ++ [handle]) :=
  update_self _ _ _

theorem Over.enlist (settled : Over view other) (entry : view.waitingTasks id = some queue) :
    Over (view.enlist id queue handle) other := by
  have apart : other ≠ id := by
    rintro rfl
    exact absurd (settled.2.symm.trans entry) (by simp)
  exact ⟨settled.1, (enlist_entry apart).trans settled.2⟩

include protocol

section
variable (runs : Runs view handle.coreId handle.id)

include runs

theorem Protocol.enlist_joining (blocks : view.blocks core task) :
    (view.enlist id queue handle).joining task = view.joining task := by
  apply update_of_ne
  rintro rfl
  exact protocol.runs_awake runs blocks

section
variable (entry : view.waitingTasks id = some queue)

include entry

omit runs in
theorem Protocol.enlist_entered (other : TaskId) :
    ((view.enlist id queue handle).waitingTasks other).isSome = true ↔
      other ∈ view.tasks ∧ ∀ core, ¬ view.exited core other := by
  by_cases same : other = id
  · have before := protocol.entered other
    rw [same, entry] at before
    rw [same, enlist_ownEntry]
    exact before
  · rw [enlist_entry same]
    exact protocol.entered other

omit entry in
theorem Protocol.enlist_waits {waiter : TaskHandle} (waits : Waits view other waiter) :
    Waits (view.enlist id queue handle) other waiter where
  blocks := (enlist_blocks _ _).mpr (.inl waits.blocks)
  joining := (protocol.enlist_joining runs waits.blocks).trans waits.joining
  unsent := waits.unsent

omit entry in
theorem Protocol.enlist_waits_new : Waits (view.enlist id queue handle) id handle where
  blocks := (enlist_blocks _ _).mpr (Or.inr ⟨rfl, rfl⟩)
  joining := update_self _ _ _
  unsent := by
    intro member
    obtain ⟨sent, among, same⟩ := mem_map.mp member
    exact protocol.runs_awake runs (same ▸ protocol.expected _ sent among)

theorem Protocol.enlist_queued {waiter : TaskHandle}
    (found : (view.enlist id queue handle).waitingTasks other = some list) (member : waiter ∈ list) :
    Waits (view.enlist id queue handle) other waiter := by
  by_cases same : other = id
  · subst same
    rw [enlist_ownEntry] at found
    rw [← some.inj found] at member
    rcases mem_append.mp member with before | new
    · exact protocol.enlist_waits runs (protocol.queued other queue entry waiter before)
    · rw [mem_singleton.mp new]
      exact protocol.enlist_waits_new runs
  · rw [enlist_entry same] at found
    exact protocol.enlist_waits runs (protocol.queued other list found waiter member)

theorem Protocol.enlist_once (found : (view.enlist id queue handle).waitingTasks other = some list) :
    (list.map TaskHandle.id).Nodup := by
  by_cases same : other = id
  · subst same
    rw [enlist_ownEntry] at found
    rw [← some.inj found, map_append, nodup_append']
    refine ⟨protocol.once other queue entry, nodup_singleton _, ?_⟩
    intro task before new
    rw [map_singleton, mem_singleton] at new
    obtain ⟨waiter, among, named⟩ := mem_map.mp before
    have blocks := (protocol.queued other queue entry waiter among).blocks
    rw [named, new] at blocks
    exact protocol.runs_awake runs blocks
  · rw [enlist_entry same] at found
    exact protocol.once other list found

theorem Protocol.enlist_joined (blocks : (view.enlist id queue handle).blocks core task) :
    ∃ other, (view.enlist id queue handle).joining task = some other ∧
      (Enlisted (view.enlist id queue handle) core task other ∨
        Over (view.enlist id queue handle) other ∧ task ∈ view.sent core) := by
  rcases (enlist_blocks core task).mp blocks with before | ⟨rfl, rfl⟩
  · have joining : (view.enlist id queue handle).joining task = view.joining task := protocol.enlist_joining runs before
    obtain ⟨other, joins, ⟨list, waiter, found, among, rest⟩ | ⟨settled, sent⟩⟩ := protocol.joined core task before
    · refine ⟨other, joining.trans joins, .inl ?_⟩
      by_cases same : other = id
      · subst same
        rw [entry] at found
        rw [← some.inj found] at among
        exact ⟨queue ++ [handle], waiter, enlist_ownEntry, mem_append_left _ among, rest⟩
      · exact ⟨list, waiter, (enlist_entry same).trans found, among, rest⟩
    · exact ⟨other, joining.trans joins, .inr ⟨settled.enlist entry, sent⟩⟩
  · have member : handle ∈ queue ++ [handle] := mem_append_right _ (mem_singleton_self handle)
    exact ⟨id, update_self _ _ _, .inl ⟨queue ++ [handle], handle, enlist_ownEntry, member, rfl, rfl⟩⟩

omit runs in
theorem Protocol.enlist_woken (joining : (view.enlist id queue handle).joining task = some other) :
    Over (view.enlist id queue handle) other ∨ ∃ core, (view.enlist id queue handle).blocks core task := by
  by_cases same : task = handle.id
  · exact .inr ⟨handle.coreId, (enlist_blocks _ _).mpr (.inr ⟨rfl, same⟩)⟩
  · change update view.joining handle.id (some id) task = some other at joining
    rw [update_of_ne same] at joining
    rcases protocol.woken task other joining with settled | ⟨core, blocks⟩
    · exact .inl (settled.enlist entry)
    · exact .inr ⟨core, (enlist_blocks _ _).mpr (.inl blocks)⟩

theorem Protocol.enlist : Protocol (view.enlist id queue handle) := { protocol with
  blockedHere core task blocks := by
    rcases (enlist_blocks core task).mp blocks with before | ⟨rfl, rfl⟩
    · exact protocol.blockedHere core task before
    · exact ⟨runs.present, runs.known⟩
  entered := protocol.enlist_entered entry
  queued other list found waiter := protocol.enlist_queued runs entry found
  once other list := protocol.enlist_once runs entry
  joined core task := protocol.enlist_joined runs entry
  expected core sent member := (enlist_blocks _ _).mpr (.inl (protocol.expected core sent member))
  woken task other := protocol.enlist_woken entry }

end

end

end Enlist

include protocol

theorem Protocol.leave (runs : Runs view core task) : Protocol (view.leave task) := by
  have joiningOf {other : CoreId} {waiter : TaskId} (blocks : view.blocks other waiter) :
      (view.leave task).joining waiter = view.joining waiter := by
    apply update_of_ne
    rintro rfl
    exact protocol.runs_awake runs blocks
  refine { protocol with queued := ?_, joined := ?_, woken := ?_ }
  · intro id queue found handle member
    have waits := protocol.queued id queue found handle member
    exact { waits with joining := (joiningOf waits.blocks).trans waits.joining }
  · intro other waiter blocks
    obtain ⟨id, joining, stands⟩ := protocol.joined other waiter blocks
    exact ⟨id, (joiningOf blocks).trans joining, stands⟩
  · intro waiter id joining
    change update view.joining task none waiter = some id at joining
    by_cases same : waiter = task
    · rw [same, update_self] at joining
      cases joining
    · rw [update_of_ne same] at joining
      exact protocol.woken waiter id joining

omit protocol

section Finish
variable {core : CoreId} {task : TaskId} {queue : List TaskHandle}

theorem finish_blocks (other : CoreId) (waiter : TaskId) : (view.finish core task queue).blocks other waiter ↔
    view.blocks other waiter ∧ ¬ (other = core ∧ waiter ∈ (ofCore core queue).map TaskHandle.id) :=
  update_removed view.blocks

theorem finish_exited (other : CoreId) (id : TaskId) : (view.finish core task queue).exited other id ↔
    view.exited other id ∨ other = core ∧ id = task := update_added view.exited

theorem finish_ownEntry : (view.finish core task queue).waitingTasks task = none := update_self _ _ _

theorem finish_entry (apart : id ≠ task) :
    (view.finish core task queue).waitingTasks id = view.waitingTasks id := update_of_ne apart _ _

theorem finish_found (found : (view.finish core task queue).waitingTasks id = some list) :
    id ≠ task ∧ view.waitingTasks id = some list := by
  have apart : id ≠ task := by
    rintro rfl
    exact absurd (finish_ownEntry.symm.trans found) (by simp)
  exact ⟨apart, (finish_entry apart).symm.trans found⟩

theorem finish_sent (other : CoreId) (waiter : TaskId) : waiter ∈ (view.finish core task queue).sent other ↔
    waiter ∈ view.sent other ∨ other ≠ core ∧ waiter ∈ (ofCore other queue).map TaskHandle.id := by
  change waiter ∈ (view.wakeups other ++ if other = core then [] else ofCore other queue).map TaskHandle.id ↔ _
  rw [map_append, mem_append]
  by_cases same : other = core
  · rw [if_pos same]
    exact or_congr_right ⟨fun member => absurd member not_mem_nil, fun both => absurd same both.1⟩
  · rw [if_neg same]
    exact or_congr_right (and_iff_right same).symm

theorem Over.finish (settled : Over view id) : Over (view.finish core task queue) id := by
  refine ⟨settled.1, ?_⟩
  by_cases same : id = task
  · rw [same]
    exact finish_ownEntry
  · exact (finish_entry same).trans settled.2

include protocol

theorem Protocol.finish_over (runs : Runs view core task) : Over (view.finish core task queue) task :=
  ⟨protocol.home core runs.present task runs.known, finish_ownEntry⟩

variable {waiter : TaskId}

section
variable (entry : view.waitingTasks task = some queue)

include entry

theorem Protocol.sent_unqueued (sent : waiter ∈ view.sent other) :
    waiter ∉ (ofCore other queue).map TaskHandle.id := by
  intro member
  obtain ⟨handle, among, rfl⟩ := mem_map.mp member
  obtain ⟨queued, rfl⟩ := mem_ofCore.mp among
  exact (protocol.queued task queue entry handle queued).unsent sent

theorem Protocol.joining_unqueued (apart : id ≠ task) (joining : view.joining waiter = some id)
    (other : CoreId) : waiter ∉ (ofCore other queue).map TaskHandle.id := by
  intro member
  obtain ⟨handle, among, rfl⟩ := mem_map.mp member
  have waits := protocol.queued task queue entry handle (mem_ofCore.mp among).1
  exact apart (some.inj (joining.symm.trans waits.joining))

omit entry in
theorem Protocol.finish_entered (id : TaskId) : ((view.finish core task queue).waitingTasks id).isSome = true ↔
    id ∈ view.tasks ∧ ∀ other, ¬ (view.finish core task queue).exited other id := by
  by_cases same : id = task
  · subst same
    rw [finish_ownEntry]
    constructor
    · exact fun absent => Bool.noConfusion absent
    · exact fun both => absurd ((finish_exited core id).mpr (.inr ⟨rfl, rfl⟩)) (both.2 core)
  · rw [finish_entry same, protocol.entered id]
    refine and_congr_right fun _ => forall_congr' fun other => not_congr ?_
    rw [finish_exited other id]
    exact (or_iff_left fun both => same both.2).symm

theorem Protocol.finish_queued (found : (view.finish core task queue).waitingTasks id = some list)
    (member : handle ∈ list) : Waits (view.finish core task queue) id handle := by
  obtain ⟨apart, before⟩ := finish_found found
  have waits := protocol.queued id list before handle member
  have elsewhere := protocol.joining_unqueued entry apart waits.joining
  refine ⟨(finish_blocks _ _).mpr ⟨waits.blocks, fun both => elsewhere core both.2⟩, waits.joining, ?_⟩
  rw [finish_sent]
  exact not_or.mpr ⟨waits.unsent, fun both => elsewhere _ both.2⟩

omit entry in
theorem Protocol.finish_joined (runs : Runs view core task) (entry : view.waitingTasks task = some queue)
    (blocks : (view.finish core task queue).blocks other waiter) :
    ∃ id, view.joining waiter = some id ∧ (Enlisted (view.finish core task queue) other waiter id ∨
      Over (view.finish core task queue) id ∧ waiter ∈ (view.finish core task queue).sent other) := by
  obtain ⟨before, spared⟩ := (finish_blocks other waiter).mp blocks
  obtain ⟨id, joining, ⟨list, handle, found, among, rfl, rfl⟩ | ⟨settled, sent⟩⟩ := protocol.joined other waiter before
  · refine ⟨id, joining, ?_⟩
    by_cases same : id = task
    · subst same
      rw [entry] at found
      rw [← some.inj found] at among
      have mine : handle.id ∈ (ofCore handle.coreId queue).map TaskHandle.id :=
        mem_map_of_mem (mem_ofCore.mpr ⟨among, rfl⟩)
      refine .inr ⟨protocol.finish_over runs, (finish_sent _ _).mpr (.inr ⟨?_, mine⟩)⟩
      intro here
      exact spared ⟨here, here ▸ mine⟩
    · exact .inl ⟨list, handle, (finish_entry same).trans found, among, rfl, rfl⟩
  · exact ⟨id, joining, .inr ⟨settled.finish, (finish_sent _ _).mpr (.inl sent)⟩⟩

theorem Protocol.finish_expected (member : handle ∈ (view.finish core task queue).wakeups other) :
    (view.finish core task queue).blocks other handle.id := by
  rw [finish_blocks]
  rcases mem_append.mp member with before | new
  · refine ⟨protocol.expected other handle before, ?_⟩
    rintro ⟨rfl, woken⟩
    exact protocol.sent_unqueued entry (mem_map_of_mem before) woken
  · by_cases same : other = core
    · rw [if_pos same] at new
      cases new
    · rw [if_neg same] at new
      obtain ⟨queued, rfl⟩ := mem_ofCore.mp new
      exact ⟨(protocol.queued task queue entry handle queued).blocks, fun both => same both.1⟩

theorem Protocol.finish_sentOnce (other : CoreId) : ((view.finish core task queue).sent other).Nodup := by
  change ((view.wakeups other ++ if other = core then [] else ofCore other queue).map TaskHandle.id).Nodup
  rw [map_append, nodup_append']
  refine ⟨protocol.sentOnce other, ?_, ?_⟩
  · split
    · exact nodup_nil
    · exact (protocol.once task queue entry).sublist (filter_sublist.map TaskHandle.id)
  · intro waiter sent new
    split at new
    · cases new
    · exact protocol.sent_unqueued entry sent new

end

theorem Protocol.finish_woken (runs : Runs view core task) (entry : view.waitingTasks task = some queue)
    (joining : view.joining waiter = some id) :
    Over (view.finish core task queue) id ∨ ∃ other, (view.finish core task queue).blocks other waiter := by
  rcases protocol.woken waiter id joining with settled | ⟨other, blocks⟩
  · exact .inl settled.finish
  · by_cases same : id = task
    · rw [same]
      exact .inl (protocol.finish_over runs)
    · refine .inr ⟨other, (finish_blocks other waiter).mpr ⟨blocks, ?_⟩⟩
      exact fun both => protocol.joining_unqueued entry same joining core both.2

theorem Protocol.finish (runs : Runs view core task) (entry : view.waitingTasks task = some queue) :
    Protocol (view.finish core task queue) := { protocol with
  blockedHere other waiter blocks := protocol.blockedHere other waiter ((finish_blocks other waiter).mp blocks).1
  exitedHere other id exited := by
    rcases (finish_exited other id).mp exited with before | ⟨rfl, rfl⟩
    · exact protocol.exitedHere other id before
    · exact ⟨runs.present, runs.known⟩
  entered := protocol.finish_entered
  queued id list found handle := protocol.finish_queued entry found
  once id list found := protocol.once id list (finish_found found).2
  joined other waiter := protocol.finish_joined runs entry
  expected other handle := protocol.finish_expected entry
  sentOnce := protocol.finish_sentOnce entry
  woken waiter id := protocol.finish_woken runs entry }

end Finish

section Deliver
variable {core : CoreId}

theorem deliver_blocks (other : CoreId) (task : TaskId) : (view.deliver core).blocks other task ↔
    view.blocks other task ∧ ¬ (other = core ∧ task ∈ view.sent core) := update_removed view.blocks

theorem deliver_wakeups (other : CoreId) :
    (view.deliver core).wakeups other = if other = core then [] else view.wakeups other :=
  update_apply _ _ _ _

theorem deliver_sent (other : CoreId) : (view.deliver core).sent other = if other = core then [] else view.sent other := by
  unfold View.sent
  rw [deliver_wakeups]
  split <;> rfl

include protocol

theorem Protocol.deliver_queued (found : view.waitingTasks id = some queue) (member : handle ∈ queue) :
    Waits (view.deliver core) id handle := by
  have waits := protocol.queued id queue found handle member
  refine ⟨(deliver_blocks _ _).mpr ⟨waits.blocks, ?_⟩, waits.joining, ?_⟩
  · rintro ⟨rfl, sent⟩
    exact waits.unsent sent
  · rw [deliver_sent]
    split
    · exact not_mem_nil
    · exact waits.unsent

theorem Protocol.deliver_joined (blocks : (view.deliver core).blocks other task) :
    ∃ id, view.joining task = some id ∧
      (Enlisted view other task id ∨ Over view id ∧ task ∈ (view.deliver core).sent other) := by
  obtain ⟨before, spared⟩ := (deliver_blocks other task).mp blocks
  obtain ⟨id, joining, enlisted | ⟨settled, sent⟩⟩ := protocol.joined other task before
  · exact ⟨id, joining, .inl enlisted⟩
  · have apart : other ≠ core := by
      rintro rfl
      exact spared ⟨rfl, sent⟩
    rw [deliver_sent, if_neg apart]
    exact ⟨id, joining, .inr ⟨settled, sent⟩⟩

theorem Protocol.deliver_woken (joining : view.joining task = some id) :
    Over view id ∨ ∃ other, (view.deliver core).blocks other task := by
  rcases protocol.woken task id joining with settled | ⟨other, blocks⟩
  · exact .inl settled
  · by_cases reached : other = core ∧ task ∈ view.sent core
    · obtain ⟨rfl, sent⟩ := reached
      obtain ⟨joined, joins, ⟨queue, handle, found, among, rfl, rfl⟩ | ⟨settled, -⟩⟩ := protocol.joined other task blocks
      · exact absurd sent (protocol.queued joined queue found handle among).unsent
      · rw [some.inj (joining.symm.trans joins)]
        exact .inl settled
    · exact .inr ⟨other, (deliver_blocks other task).mpr ⟨blocks, reached⟩⟩

theorem Protocol.deliver (core : CoreId) : Protocol (view.deliver core) := { protocol with
  blockedHere other task blocks := protocol.blockedHere other task ((deliver_blocks other task).mp blocks).1
  queued id queue found handle := protocol.deliver_queued found
  joined other task := protocol.deliver_joined
  expected other handle member := by
    rw [deliver_wakeups] at member
    split at member
    next => cases member
    next apart => exact (deliver_blocks _ _).mpr ⟨protocol.expected other handle member, fun both => apart both.1⟩
  sentOnce other := by
    rw [deliver_sent]
    split
    · exact nodup_nil
    · exact protocol.sentOnce other
  woken task id := protocol.deliver_woken }

end Deliver

end Steps

theorem Protocol.step {view next : View} (protocol : Protocol view) (step : Step view next) : Protocol next := by
  cases step with
  | stay => exact protocol
  | create present fresh => exact protocol.create fresh
  | enlist runs entry => exact protocol.enlist runs entry
  | leave runs => exact protocol.leave runs
  | finish runs entry => exact protocol.finish runs entry
  | deliver core => exact protocol.deliver core

end HermitLocal.Scheduler.JoinProtocol
