import HermitLocal.BitNet.Handles

/-! The handles of the bridge over whole calls: every exit of a call releases what the call has acquired by then, and leaves the
cache as it is. -/

namespace HermitLocal.BitNet.Calls
open Lib.Triple Bridge Handles List

variable {handle : Handle} {world : World}

section Call
variable {external : External} {held : List Handle} {model : Nat} {pool : Option Nat} {chained : List Nat}
  {positions : List Int}
  {start : List Handle}

variable {hand : Hand} {cached : Option Nat}

theorem releaseAll_ensures (samplers : List Nat) {rest : List Handle}
    (first : hand.held = samplers.map (Kind.sampler, ·) ++ rest) :
    Ensures (At hand) (samplers.forM fun sampler => release (.sampler, sampler)) fun _ => At { hand with held := rest } := by
  induction samplers generalizing hand with
  | nil =>
    apply Ensures.pure
    intro world now
    rwa [← show hand.held = rest from first]
  | cons sampler others ih =>
    apply Ensures.bind (release_ensures (by simp) first)
    intro _
    exact ih rfl

theorem samplerFree_ensures {sampler : Option Nat} {rest : List Handle}
    (first : hand.held = handles .sampler sampler ++ rest) (without : sampler = none → hand.chained = []) :
    Ensures (At hand) (samplerFree sampler) fun _ => At { hand with held := rest, chained := [] } := by
  cases sampler with
  | none =>
    apply Ensures.pure
    intro world now
    rw [show rest = hand.held from first.symm, ← without rfl]
    exact now
  | some chain =>
    apply Ensures.bind (release_ensures (by simp) first)
    intro _
    apply Ensures.get_bind
    intro world now
    rw [now.chained]
    have freed : Ensures (At { hand with held := hand.chained.map (Kind.sampler, ·) ++ rest, chained := [] })
        (hand.chained.forM fun sampler => release (.sampler, sampler)) fun _ => At { hand with held := rest, chained := [] } :=
      releaseAll_ensures hand.chained rfl
    refine Ensures.modify_bind ?_ freed
    intro state equal
    rw [equal]
    refine { now with chained := rfl, live := ?_ }
    apply now.live.trans
    unfold Hand.all
    rw [← append_assoc]
    exact perm_append_comm.append_right _

theorem leave_ensures (sampler batch : Option Nat) {setup : Setup}
    (without : sampler = none → chained = []) (attached : ∀ address, setup.threadpool = some address → pool = some address)
    (code : Int) :
    Ensures (At ⟨handles .sampler sampler ++ (handles .batch batch ++ [(.context, setup.ctx)]), some setup.model, pool, chained,
        positions, start⟩)
      (leave sampler batch setup code) fun _ => At ⟨[], some setup.model, pool, [], positions, start⟩ := by
  apply Ensures.bind (samplerFree_ensures rfl without)
  intro _
  apply Ensures.bind (releaseIfAny_ensures (by decide) rfl)
  intro _
  apply Ensures.bind (release_ensures (by simp) rfl)
  intro _
  apply Ensures.bind (releaseThreadpool_ensures attached)
  intro _
  apply Ensures.bind (releaseBufferModel_ensures rfl)
  intro _
  exact Ensures.pure fun _ now => now

structure Equipped (setup : Setup) (hand : Hand) : Prop where
  context : (.context, setup.ctx) ∈ hand.held
  model : hand.model = some setup.model
  pool : ∀ address, setup.threadpool = some address → hand.pool = some address

section Equipped
variable {setup : Setup} {hand : Hand} (equipped : Equipped setup hand)

include equipped

theorem Equipped.context_mem : (.context, setup.ctx) ∈ hand.all := mem_append_left _ equipped.context

theorem Equipped.model_mem : (.model, setup.model) ∈ hand.all := by
  unfold Hand.all
  rw [equipped.model]
  simp [handles]

theorem Equipped.pool_mem (inside : handle ∈ setup.pool) : handle ∈ hand.all := by
  obtain ⟨address, member, rfl⟩ := mem_map.mp inside
  unfold Hand.all
  rw [equipped.pool address (Option.mem_toList.mp member)]
  simp [handles]

theorem callModel_ensures : Ensures (At hand) (call external [(.model, setup.model)]) fun _ => At hand :=
  call_ensures (forall_mem_singleton.mpr equipped.model_mem)

theorem callContext_ensures : Ensures (At hand) (call external [(.context, setup.ctx)]) fun _ => At hand :=
  call_ensures (forall_mem_singleton.mpr equipped.context_mem)

theorem decode_ensures {batch : Nat} (filled : (.batch, batch) ∈ hand.held) (decoded : List Int) :
    Ensures (At hand) (decode external setup batch decoded) fun _ => At { hand with positions := hand.positions ++ decoded } := by
  have passed : ∀ handle ∈ [(.context, setup.ctx), (.batch, batch)] ++ setup.pool, handle ∈ hand.all := by
    refine forall_mem_append.mpr ⟨forall_mem_cons.mpr ⟨equipped.context_mem, ?_⟩, fun _ => equipped.pool_mem⟩
    exact forall_mem_singleton.mpr (mem_append_left _ filled)
  apply Ensures.bind (call_ensures passed)
  intro rc
  refine Ensures.modify_bind ?_ (Ensures.pure fun _ now => now)
  intro world now
  exact { now with positions := congrArg (· ++ decoded) now.positions }

theorem callGrown_ensures : Ensures (At hand) (callGrown external setup) fun _ => At hand := by
  apply Ensures.bind (callModel_ensures equipped)
  intro length
  split_ifs
  · exact callModel_ensures equipped
  · exact Ensures.pure fun _ now => now

end Equipped

section Chain
variable {chain : Nat} {hand : Hand} (chainHeld : (.sampler, chain) ∈ hand.held)

include chainHeld

theorem callChain_ensures {others : List Handle} (inside : ∀ handle ∈ others, handle ∈ hand.all) :
    Ensures (At hand) (callChain external chain others) fun _ => At hand := by
  apply Ensures.get_bind
  intro world now
  have passed : ∀ handle ∈ (.sampler, chain) :: world.chained.map (Kind.sampler, ·) ++ others, handle ∈ hand.all := by
    intro handle member
    obtain member | member := mem_append.mp member
    · obtain rfl | member := mem_cons.mp member
      · exact mem_append_left _ chainHeld
      · rw [now.chained] at member
        exact mem_append_right _ (mem_append_left _ member)
    · exact inside handle member
  apply (call_ensures passed).strengthen
  intro state equal
  rwa [equal]

theorem chainAdd_ensures : Ensures (fun world => ∃ chained, At { hand with chained := chained } world) (chainAdd external chain)
    fun _ world => ∃ chained, At { hand with chained := chained } world := by
  apply Ensures.of_exists
  intro chained
  apply Ensures.bind (acquire_ensures .sampler)
  intro sampler
  cases sampler with
  | none =>
    have passed : ∀ handle ∈ [(Kind.sampler, chain)], handle ∈ Hand.all { hand with chained := chained } :=
      forall_mem_singleton.mpr (mem_append_left _ chainHeld)
    apply Ensures.bind (call_ensures passed)
    intro _
    exact Ensures.pure fun state now => ⟨chained, now⟩
  | some sampler =>
    have passed : ∀ handle ∈ [(Kind.sampler, chain), (Kind.sampler, sampler)],
        handle ∈ Hand.all { hand with held := (.sampler, sampler) :: hand.held, chained := chained } := by
      refine forall_mem_cons.mpr ⟨mem_append_left _ (mem_cons_of_mem _ chainHeld), ?_⟩
      exact forall_mem_singleton.mpr (mem_append_left _ mem_cons_self)
    apply Ensures.bind (call_ensures passed)
    intro _ state now
    refine ⟨(), _, rfl, sampler :: chained, ?_⟩
    exact { now with live := now.live.trans perm_middle.symm, chained := congrArg _ now.chained }

end Chain

theorem samplerChainInit_ensures {setup : Setup} (equipped : Equipped setup hand) (empty : hand.chained = [])
    (nTokens : Nat) : Ensures (At hand) (samplerChainInit external setup nTokens) fun sampler world =>
      ∃ chained, (sampler = none → chained = []) ∧
        At { hand with held := handles .sampler sampler ++ hand.held, chained := chained } world := by
  apply Ensures.bind (acquire_ensures .sampler)
  intro sampler
  cases sampler with
  | none => exact Ensures.pure fun world now => ⟨hand.chained, fun _ => empty, now⟩
  | some chain =>
    have chainHeld : (Kind.sampler, chain) ∈ Hand.held { hand with held := (.sampler, chain) :: hand.held } := mem_cons_self
    have more : Equipped setup { hand with held := handles .sampler (some chain) ++ hand.held } :=
      ⟨mem_cons_of_mem _ equipped.context, equipped.model, equipped.pool⟩
    apply Ensures.bind (callModel_ensures more)
    intro _
    have added : Ensures
        (fun world => ∃ chained, At { hand with held := (.sampler, chain) :: hand.held, chained := chained } world)
        ((range SAMPLERS).forM fun _ => chainAdd external chain) fun _ world =>
          ∃ chained, At { hand with held := (.sampler, chain) :: hand.held, chained := chained } world :=
      Ensures.forM fun _ _ => chainAdd_ensures chainHeld
    apply Ensures.bind (added.strengthen fun world now => ⟨hand.chained, now⟩)
    intro _
    apply Ensures.of_exists
    intro chained
    have accepted : Ensures (At { hand with held := (.sampler, chain) :: hand.held, chained := chained })
        ((range nTokens).forM fun _ => do let _ ← callChain external chain []) fun _ =>
          At { hand with held := (.sampler, chain) :: hand.held, chained := chained } := by
      apply Ensures.forM
      intro _ _
      have chainHeld : (Kind.sampler, chain) ∈
          Hand.held { hand with held := (.sampler, chain) :: hand.held, chained := chained } := mem_cons_self
      apply Ensures.bind (callChain_ensures chainHeld (forall_mem_nil _))
      intro _
      exact Ensures.pure fun _ now => now
    apply Ensures.bind accepted
    intro _
    apply Ensures.pure
    intro world now
    refine ⟨chained, ?_, now⟩
    intro absent
    cases absent

def generating (setup : Setup) (batch : Nat) (sampler pool : Option Nat) (chained : List Nat) (count : Nat)
    (start : List Handle) : Hand :=
  ⟨handles .sampler sampler ++ (handles .batch (some batch) ++ [(.context, setup.ctx)]), some setup.model, pool, chained,
    (range count).map Int.ofNat, start⟩

def Settled (limit : Int) (start : List Handle) (world : World) : Prop :=
  ∃ model pool count, At ⟨[], model, pool, [], (range count).map Int.ofNat, start⟩ world ∧ (count : Int) ≤ limit

theorem settled_undecoded (now : At ⟨[], cached, pool, [], [], start⟩ world) (request : Call) :
    Settled request.effectiveCtx start world := ⟨cached, pool, 0, now, request.effectiveCtx_nonneg⟩

theorem refuse_ensures (request : Call) (code : Int) :
    Ensures (At ⟨[], cached, pool, [], [], start⟩) (pure code : Native Int) fun _ => Settled request.effectiveCtx start :=
  Ensures.pure fun _ now => settled_undecoded now request

section Generate
variable {setup : Setup} {batch : Nat} {sampler : Option Nat} {count : Nat} {limit : Int}
  (attached : ∀ address, setup.threadpool = some address → pool = some address)

include attached

theorem generating_equipped (batch : Nat) (sampler : Option Nat) (chained : List Nat) (count : Nat) (start : List Handle) :
    Equipped setup (generating setup batch sampler pool chained count start) where
  context := by simp [generating]
  model := rfl
  pool := attached

theorem nextToken_ensures :
    Ensures (At (generating setup batch sampler pool chained count start)) (nextToken external setup sampler) fun _ =>
      At (generating setup batch sampler pool chained count start) := by
  have equipped := generating_equipped attached batch sampler chained count start
  cases sampler with
  | none => exact callModel_ensures equipped
  | some chain =>
    have chainHeld : (.sampler, chain) ∈ (generating setup batch (some chain) pool chained count start).held :=
      mem_cons_self
    apply Ensures.bind (callChain_ensures chainHeld (forall_mem_singleton.mpr equipped.context_mem))
    intro next
    apply Ensures.bind (callChain_ensures chainHeld (forall_mem_nil _))
    intro _
    exact Ensures.pure fun _ now => now

theorem decodeNext_ensures :
    Ensures (At (generating setup batch sampler pool chained count start)) (decode external setup batch [(count : Int)]) fun _ =>
      At (generating setup batch sampler pool chained (count + 1) start) := by
  have equipped := generating_equipped attached batch sampler chained count start
  have filled : (.batch, batch) ∈ (generating setup batch sampler pool chained count start).held :=
    mem_append_right _ mem_cons_self
  apply (decode_ensures equipped filled [(count : Int)]).weaken
  intro _ world now
  unfold generating
  rw [range_succ, map_append]
  exact now

variable (without : sampler = none → chained = [])

include without

theorem leave_settled (batch : Nat) (start : List Handle) (below : (count : Int) ≤ limit) (code : Int) :
    Ensures (At (generating setup batch sampler pool chained count start)) (leave sampler (some batch) setup code) fun _ =>
      Settled limit start := by
  apply (leave_ensures sampler (some batch) without attached code).weaken
  intro _ world now
  exact ⟨some setup.model, pool, count, now, below⟩

theorem generate_ensures (nTokens left generated : Nat) (below : ((nTokens + generated : Nat) : Int) ≤ limit) :
    Ensures (At (generating setup batch sampler pool chained (nTokens + generated) start))
      (generate external setup limit nTokens batch sampler left generated) fun _ => Settled limit start := by
  induction left generalizing generated with
  | zero => exact leave_settled attached without batch start below 0
  | succ left ih =>
    have equipped := generating_equipped attached batch sampler chained (nTokens + generated) start
    have leaves := leave_settled attached without batch start below
    unfold generate
    split_ifs with room
    · apply Ensures.bind (call_ensures (forall_mem_nil _))
      intro abort
      split_ifs
      · exact leaves 0
      apply Ensures.bind (callContext_ensures equipped)
      intro logits
      split_ifs
      · exact leaves (-7)
      apply Ensures.bind (nextToken_ensures attached)
      intro next
      apply Ensures.bind (callModel_ensures equipped)
      intro eog
      split_ifs
      · exact leaves 0
      apply Ensures.bind (callGrown_ensures equipped)
      intro piece
      apply Ensures.bind (call_ensures (forall_mem_nil _))
      intro stop
      split_ifs
      · exact leaves 0
      have next : ((nTokens + (generated + 1) : Nat) : Int) ≤ limit := by
        omega
      apply Ensures.bind (decodeNext_ensures attached)
      intro rc
      split_ifs
      · exact leave_settled attached without batch start next (-8)
      · exact ih (generated + 1) next
    · exact leaves 0

end Generate

def preparing (setup : Setup) (pool : Option Nat) (start : List Handle) : Hand :=
  ⟨[(.context, setup.ctx)], some setup.model, pool, [], [], start⟩

section Prepare
variable (setup : Setup) (attached : ∀ address, setup.threadpool = some address → pool = some address)

include attached

theorem decodePrompt_ensures (nCtx nPredict : Int) {nTokens : Nat} (below : (nTokens : Int) ≤ nCtx) :
    Ensures (At (preparing setup pool start)) (decodePrompt external setup nCtx nPredict nTokens) fun _ =>
      Settled nCtx start := by
  apply Ensures.bind batchInit_ensures
  intro batch
  have equipped := generating_equipped attached batch none [] nTokens start
  have decoded : Ensures (At (generating setup batch none pool [] 0 start))
      (decode external setup batch ((range nTokens).map Int.ofNat)) fun _ =>
        At (generating setup batch none pool [] nTokens start) :=
    decode_ensures (generating_equipped attached batch none [] 0 start) mem_cons_self _
  apply Ensures.bind decoded
  intro rc
  split_ifs
  · exact leave_settled attached (fun _ => rfl) batch start below (-6)
  apply Ensures.bind (callModel_ensures equipped)
  intro _
  apply Ensures.bind (samplerChainInit_ensures equipped rfl nTokens)
  intro sampler
  apply Ensures.of_exists
  intro chained
  apply Ensures.of_and
  intro without
  exact generate_ensures attached without nTokens nPredict.toNat 0 below

theorem leaveEarly_settled (request : Call) (code : Int) :
    Ensures (At (preparing setup pool start)) (leave none none setup code) fun _ => Settled request.effectiveCtx start := by
  apply (leave_ensures none none (fun _ => rfl) attached code).weaken
  intro _ world now
  exact settled_undecoded now request

theorem withPrompt_ensures (request : Call) :
    Ensures (At (preparing setup pool start)) (withPrompt external request setup) fun _ =>
      Settled request.effectiveCtx start := by
  have equipped : Equipped setup (preparing setup pool start) := ⟨mem_cons_self, rfl, attached⟩
  apply Ensures.bind (callGrown_ensures equipped)
  intro nTokens
  split_ifs with bounds warmup
  · exact leaveEarly_settled setup attached request (-5)
  · exact leaveEarly_settled setup attached request 0
  · apply decodePrompt_ensures setup attached
    omega

end Prepare

theorem withContext_ensures (request : Call) (ctx : Nat) :
    Ensures (At ⟨[(.context, ctx)], some model, pool, [], [], start⟩) (withContext external request model ctx) fun _ =>
      Settled request.effectiveCtx start := by
  have context : ∀ handle ∈ [(Kind.context, ctx)],
      handle ∈ Hand.all ⟨[(.context, ctx)], some model, pool, [], [], start⟩ :=
    fun handle member => mem_append_left _ member
  apply Ensures.bind (call_ensures context)
  intro _
  split_ifs
  · apply Ensures.bind (getThreadpool_ensures request.effectiveThreads)
    intro threadpool
    apply Ensures.of_exists
    intro cached
    apply Ensures.of_and
    intro attached
    cases threadpool with
    | none =>
      apply Ensures.bind (release_ensures (by simp) rfl)
      intro _
      apply Ensures.bind (releaseBufferModel_ensures rfl)
      intro _
      exact refuse_ensures request _
    | some threadpool =>
      have equipped : Equipped ⟨model, ctx, some threadpool⟩ ⟨[(.context, ctx)], some model, cached, [], [], start⟩ :=
        ⟨mem_cons_self, rfl, attached⟩
      have passed : ∀ handle ∈ [(Kind.context, ctx), (Kind.threadpool, threadpool)],
          handle ∈ Hand.all ⟨[(.context, ctx)], some model, cached, [], [], start⟩ := by
        exact forall_mem_cons.mpr ⟨equipped.context_mem, fun _ => equipped.pool_mem⟩
      apply Ensures.bind (call_ensures passed)
      intro _
      exact withPrompt_ensures ⟨model, ctx, some threadpool⟩ attached request
  · apply withPrompt_ensures ⟨model, ctx, none⟩
    intro address found
    cases found

theorem withModel_ensures (request : Call) :
    Ensures (At ⟨[], some model, pool, [], [], start⟩) (withModel external request model) fun _ =>
      Settled request.effectiveCtx start := by
  have passed : ∀ handle ∈ [(Kind.model, model)], handle ∈ Hand.all ⟨[], some model, pool, [], [], start⟩ := by
    intro handle member
    rw [mem_singleton.mp member]
    simp [Hand.all, handles]
  apply Ensures.bind (call_ensures passed)
  intro _
  apply Ensures.bind (call_ensures passed)
  intro _
  apply Ensures.bind (acquire_ensures .context)
  intro ctx
  cases ctx with
  | none =>
    apply Ensures.bind (releaseBufferModel_ensures rfl)
    intro _
    exact refuse_ensures request _
  | some ctx => exact withContext_ensures request ctx

theorem withGguf_ensures (request : Call) (gguf : Nat) (metadata : Option Nat) :
    Ensures (At ⟨handles .metadata metadata ++ [(.gguf, gguf)], cached, pool, [], [], start⟩)
      (withGguf external request gguf metadata) fun _ => Settled request.effectiveCtx start := by
  have passed : ∀ handle ∈ [(Kind.gguf, gguf)],
      handle ∈ Hand.all ⟨handles .metadata metadata ++ [(.gguf, gguf)], cached, pool, [], [], start⟩ :=
    fun handle member => mem_append_left _ (mem_append_right _ member)
  apply Ensures.bind (call_ensures passed)
  intro _
  apply Ensures.bind (call_ensures passed)
  intro valid
  split_ifs
  · apply Ensures.bind (releaseIfAny_ensures (by decide) rfl)
    intro _
    apply Ensures.bind (release_ensures (by simp) rfl)
    intro _
    exact refuse_ensures request _
  · apply Ensures.bind (getBufferModel_ensures request.modelData request.modelLen)
    intro model
    apply Ensures.of_exists
    intro loaded
    apply Ensures.of_and
    intro kept
    apply Ensures.bind (releaseIfAny_ensures (by decide) rfl)
    intro _
    apply Ensures.bind (release_ensures (by simp) rfl)
    intro _
    cases model with
    | none =>
      exact refuse_ensures request _
    | some model =>
      rw [kept model rfl]
      exact withModel_ensures request

theorem promptDecodeFromBuffer_ensures (request : Call) :
    Ensures (At ⟨[], cached, pool, [], [], start⟩) (promptDecodeFromBuffer external request) fun _ =>
      Settled request.effectiveCtx start := by
  unfold promptDecodeFromBuffer
  split_ifs
  · exact refuse_ensures request (-1)
  · exact refuse_ensures request (-10)
  apply Ensures.bind (acquire_ensures .gguf)
  intro gguf
  cases gguf with
  | none => exact refuse_ensures request (-2)
  | some gguf =>
    apply Ensures.bind (acquire_ensures .metadata)
    intro metadata
    exact withGguf_ensures request gguf metadata

end Call

/-! Any number of calls. -/

structure Idle (world : World) : Prop where
  live : world.live.Perm world.cache
  distinct : world.live.Nodup
  chained : world.chained = []

structure Tidy (report : Report) : Prop where
  idle : Idle report.after
  once : ∀ handle : Handle, handle.1 ≠ .model → handle.1 ≠ .threadpool →
    report.after.released.count handle = report.after.acquired.count handle
  kept : ∀ handle ∈ report.after.released, handle.1 ≠ .model
  positions : ∃ count : Nat, report.after.positions = (range count).map Int.ofNat ∧
    (count : Int) ≤ report.request.effectiveCtx

theorem start_idle : Idle World.start := ⟨List.Perm.nil, nodup_nil, rfl⟩

theorem cache_kind (member : handle ∈ world.cache) : handle.1 = .model ∨ handle.1 = .threadpool := by
  obtain member | member := mem_append.mp member
  · obtain ⟨_, _, rfl⟩ := mem_map.mp member
    exact .inl rfl
  · obtain ⟨_, _, rfl⟩ := mem_map.mp member
    exact .inr rfl

theorem cache_count (apart : handle.1 ≠ .model) (other : handle.1 ≠ .threadpool) :
    world.cache.count handle = 0 := by
  apply count_eq_zero.mpr
  intro member
  obtain same | same := cache_kind member
  · exact apart same
  · exact other same

theorem Idle.opened (idle : Idle world) :
    At ⟨[], world.cachedBufferModel, world.cachedThreadpool, [], [], world.cache⟩
      { world with positions := [], acquired := [], released := [] } where
  live := idle.live
  distinct := idle.distinct
  model := rfl
  pool := rfl
  chained := idle.chained
  positions := rfl
  booked := by
    constructor
    · intro handle
      rw [idle.live.count_eq]
    · intro handle member
      cases member

theorem Settled.idle {limit : Int} {start : List Handle} (settled : Settled limit start world) : Idle world := by
  obtain ⟨model, pool, count, now, below⟩ := settled
  refine ⟨?_, now.distinct, now.chained⟩
  unfold World.cache
  rw [now.model, now.pool]
  exact now.live

theorem Settled.tidy {before after : World} {request : Call} (settled : Settled request.effectiveCtx before.cache after)
    (code : Int) : Tidy ⟨request, code, after⟩ := by
  have idle := settled.idle
  obtain ⟨model, pool, count, now, below⟩ := settled
  refine ⟨idle, ?_, now.booked.kept, count, now.positions, below⟩
  intro handle apart other
  have balance := now.booked.balance handle
  rw [idle.live.count_eq, cache_count apart other] at balance
  rwa [cache_count apart other] at balance

theorem runCalls_ensures (external : External) (calls : List Call) :
    Ensures Idle (runCalls external calls) fun reports _ =>
      reports.map Report.request = calls ∧ ∀ report ∈ reports, Tidy report := by
  induction calls with
  | nil =>
    apply Ensures.pure
    intro world idle
    refine ⟨rfl, ?_⟩
    intro report member
    cases member
  | cons request rest ih =>
    have called : Ensures (fun world => ∃ before : World,
          At ⟨[], before.cachedBufferModel, before.cachedThreadpool, [], [], before.cache⟩ world)
        (do
          let code ← promptDecodeFromBuffer external request
          let world ← get
          let later ← runCalls external rest
          pure (⟨request, code, world⟩ :: later))
        fun reports _ => reports.map Report.request = request :: rest ∧ ∀ report ∈ reports, Tidy report := by
      apply Ensures.of_exists
      intro before
      apply Ensures.bind (promptDecodeFromBuffer_ensures request)
      intro code
      apply Ensures.get_bind
      intro after settled
      have idle : ∀ world, world = after → Idle world := by
        intro world same
        rw [same]
        exact settled.idle
      apply Ensures.bind (ih.strengthen idle)
      intro later
      apply Ensures.pure
      intro _ reported
      refine ⟨congrArg (request :: ·) reported.1, ?_⟩
      intro report member
      obtain rfl | member := mem_cons.mp member
      · exact settled.tidy code
      · exact reported.2 report member
    refine Ensures.modify_bind ?_ called
    intro world idle
    exact ⟨world, idle.opened⟩

/-- No handle is used or freed that is not live, and each call releases its own. -/
theorem bridge_tidy (external : External) (calls : List Call) :
    ∃ reports world, runCalls external calls World.start = some (reports, world) ∧ reports.map Report.request = calls ∧
      ∀ report ∈ reports, Tidy report := runCalls_ensures external calls World.start start_idle

/-- The first call makes four tokens after a prompt of three; the second one finds the tensors out of bounds. -/
def threeTokens : External := .scripted (fun _ => true) fun time => if time % 8 = 1 ∨ time < 12 then 3 else 0

theorem bridge_tidy_threeTokens :
    ∃ reports world, runCalls threeTokens [⟨32, 16, true, 4, 2, 8⟩, ⟨32, 16, true, 4, 2, 8⟩] World.start =
        some (reports, world) ∧
      reports.map (fun report => (report.code, report.after.positions, report.after.live)) =
        [(0, [0, 1, 2, 3, 4, 5, 6], [(.threadpool, 4), (.model, 2)]), (-11, [], [(.threadpool, 4), (.model, 2)])] ∧
      ∀ report ∈ reports, Tidy report := by
  obtain ⟨reports, world, ran, -, tidy⟩ := bridge_tidy threeTokens [⟨32, 16, true, 4, 2, 8⟩, ⟨32, 16, true, 4, 2, 8⟩]
  have evaluated : (runCalls threeTokens [⟨32, 16, true, 4, 2, 8⟩, ⟨32, 16, true, 4, 2, 8⟩] World.start).map
      (fun run => run.1.map fun report => (report.code, report.after.positions, report.after.live)) =
      some [(0, [0, 1, 2, 3, 4, 5, 6], [(.threadpool, 4), (.model, 2)]), (-11, [], [(.threadpool, 4), (.model, 2)])] := by
    decide +kernel
  rw [ran] at evaluated
  exact ⟨reports, world, ran, Option.some.inj evaluated, tidy⟩

end HermitLocal.BitNet.Calls
