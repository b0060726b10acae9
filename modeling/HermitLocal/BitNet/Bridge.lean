import Mathlib.Data.Nat.Notation
import Mathlib.Tactic.SplitIfs

/-! The handles that `hermit_bitnet_prompt_decode_from_buffer` takes from gguf, llama and ggml, over any number of calls. A
model and a thread pool are kept from one call to the next. The external calls are given from outside: a constructor gives a
new handle or null, and every other call gives any number. To pass on a handle that is not live, or to free it, is a fault.
Calls in a row that are passed the same handles are one call. What is printed, and the text that is generated, are left out;
whether the text ends the answer is one of the numbers. -/

namespace HermitLocal.BitNet.Bridge

inductive Kind where
  | gguf
  | metadata
  | model
  | context
  | threadpool
  | batch
  | sampler
  deriving DecidableEq, Repr

abbrev Handle := Kind × Nat

structure External where
  construct : Nat → List Handle → Option Nat
  batch : Nat → List Handle → Nat
  answer : Nat → Int
  fresh : ∀ time live address, construct time live = some address → ∀ kind, (kind, address) ∉ live
  freshBatch : ∀ time live kind, (kind, batch time live) ∉ live

def freeAddress : List Handle → Nat
  | [] => 0
  | handle :: rest => max (handle.2 + 1) (freeAddress rest)

theorem lt_freeAddress {live : List Handle} {handle : Handle} (member : handle ∈ live) : handle.2 < freeAddress live := by
  induction live with
  | nil => cases member
  | cons first rest ih =>
    unfold freeAddress
    obtain rfl | member := List.mem_cons.mp member
    · omega
    · have below := ih member
      omega

def External.scripted (succeeds : Nat → Bool) (answer : Nat → Int) : External where
  construct time live := if succeeds time then some (freeAddress live) else none
  batch _ live := freeAddress live
  answer := answer
  fresh := by
    intro time live address given kind member
    have below := lt_freeAddress member
    split_ifs at given
    cases given
    omega
  freshBatch := by
    intro time live kind member
    have below := lt_freeAddress member
    omega

structure World where
  live : List Handle
  cachedBufferModel : Option Nat
  cachedBufferModelData : Nat
  cachedBufferModelLen : Nat
  cachedThreadpool : Option Nat
  cachedThreadpoolThreads : Int
  chained : List Nat
  positions : List Int
  acquired : List Handle
  released : List Handle
  time : Nat

def World.start : World := ⟨[], none, 0, 0, none, 0, [], [], [], [], 0⟩

def handles (kind : Kind) (address : Option Nat) : List Handle := address.toList.map (kind, ·)

def World.cache (world : World) : List Handle :=
  handles .model world.cachedBufferModel ++ handles .threadpool world.cachedThreadpool

def World.acquire (world : World) (handle : Handle) : World :=
  { world with live := handle :: world.live, acquired := handle :: world.acquired, time := world.time + 1 }

def World.release (world : World) (handle : Handle) : World :=
  { world with live := world.live.erase handle, released := handle :: world.released }

abbrev Native := StateT World Option

section Program
variable (external : External)

def acquire (kind : Kind) : Native (Option Nat) := fun world =>
  match external.construct world.time world.live with
  | none => some (none, { world with time := world.time + 1 })
  | some address => some (some address, world.acquire (kind, address))

def batchInit : Native Nat := fun world =>
  some (external.batch world.time world.live, world.acquire (.batch, external.batch world.time world.live))

def call (handles : List Handle) : Native Int := fun world =>
  if ∀ handle ∈ handles, handle ∈ world.live then some (external.answer world.time, { world with time := world.time + 1 })
  else none

def release (handle : Handle) : Native Unit := fun world =>
  if handle ∈ world.live then some ((), world.release handle) else none

def releaseIfAny (kind : Kind) : Option Nat → Native Unit
  | some address => release (kind, address)
  | none => pure ()

/-! The cache. -/

def getBufferModel (modelData modelLen : Nat) : Native (Option Nat) := do
  let world ← get
  match world.cachedBufferModel with
  | some cached =>
      if world.cachedBufferModelData = modelData ∧ world.cachedBufferModelLen = modelLen then pure (some cached)
      else pure none
  | none => do
      let model ← acquire external .model
      modify fun world =>
        if model.isSome then
          { world with cachedBufferModel := model, cachedBufferModelData := modelData, cachedBufferModelLen := modelLen }
        else world
      pure model

def releaseBufferModel (model : Nat) : Native Unit := do
  let world ← get
  if world.cachedBufferModel = some model then pure () else release (.model, model)

def newThreadpool (nThreads : Int) : Native (Option Nat) := do
  let threadpool ← acquire external .threadpool
  modify fun world =>
    { world with
      cachedThreadpool := threadpool
      cachedThreadpoolThreads := if threadpool.isSome then nThreads else world.cachedThreadpoolThreads }
  pure threadpool

def getThreadpool (nThreads : Int) : Native (Option Nat) :=
  if nThreads ≤ 1 then pure none
  else do
    let world ← get
    match world.cachedThreadpool with
    | some cached =>
        if world.cachedThreadpoolThreads = nThreads then pure (some cached)
        else do
          release (.threadpool, cached)
          modify fun world => { world with cachedThreadpool := none, cachedThreadpoolThreads := 0 }
          newThreadpool external nThreads
    | none => newThreadpool external nThreads

def releaseThreadpool : Option Nat → Native Unit
  | some threadpool => do
      let world ← get
      if world.cachedThreadpool = some threadpool then pure () else release (.threadpool, threadpool)
  | none => pure ()

/-! One call. -/

structure Call where
  modelData : Nat
  modelLen : Nat
  prompt : Bool
  nPredict : Int
  nThreads : Int
  nCtx : Int

namespace Call
variable (request : Call)

def effectiveThreads : Int := if request.nThreads ≤ 0 then 1 else request.nThreads

def effectiveCtx : Int := if request.nCtx ≤ 0 then 512 else request.nCtx

def warmupOnly : Bool := request.nPredict < 0

def effectivePredict : Int :=
  if request.warmupOnly = false ∧ (request.nPredict ≤ 0 ∨ request.nPredict > request.effectiveCtx) then request.effectiveCtx
  else request.nPredict

theorem effectiveCtx_nonneg : 0 ≤ request.effectiveCtx := by
  unfold effectiveCtx
  split_ifs <;> omega

end Call

structure Setup where
  model : Nat
  ctx : Nat
  threadpool : Option Nat

def Setup.pool (setup : Setup) : List Handle := handles .threadpool setup.threadpool

def samplerFree : Option Nat → Native Unit
  | some chain => do
      release (.sampler, chain)
      let world ← get
      modify fun world => { world with chained := [] }
      world.chained.forM fun sampler => release (.sampler, sampler)
  | none => pure ()

def leave (sampler batch : Option Nat) (setup : Setup) (code : Int) : Native Int := do
  samplerFree sampler
  releaseIfAny .batch batch
  release (.context, setup.ctx)
  releaseThreadpool setup.threadpool
  releaseBufferModel setup.model
  pure code

def callChain (chain : Nat) (others : List Handle) : Native Int := do
  let world ← get
  call external ((.sampler, chain) :: world.chained.map (Kind.sampler, ·) ++ others)

def chainAdd (chain : Nat) : Native Unit := do
  match ← acquire external .sampler with
  | some sampler => do
      let _ ← call external [(.sampler, chain), (.sampler, sampler)]
      modify fun world => { world with chained := sampler :: world.chained }
  | none => do
      let _ ← call external [(.sampler, chain)]

def SAMPLERS : Nat := 10

def samplerChainInit (setup : Setup) (nTokens : Nat) : Native (Option Nat) := do
  match ← acquire external .sampler with
  | none => pure none
  | some chain => do
      let _ ← call external [(.model, setup.model)]
      (List.range SAMPLERS).forM fun _ => chainAdd external chain
      (List.range nTokens).forM fun _ => do
        let _ ← callChain external chain []
      pure (some chain)

def decode (setup : Setup) (batch : Nat) (positions : List Int) : Native Int := do
  let rc ← call external ([(.context, setup.ctx), (.batch, batch)] ++ setup.pool)
  modify fun world => { world with positions := world.positions ++ positions }
  pure rc

def nextToken (setup : Setup) : Option Nat → Native Int
  | some chain => do
      let next ← callChain external chain [(.context, setup.ctx)]
      let _ ← callChain external chain []
      pure next
  | none => call external [(.model, setup.model)]

def callGrown (setup : Setup) : Native Int := do
  let length ← call external [(.model, setup.model)]
  if length < 0 then call external [(.model, setup.model)] else pure length

def tokenize (setup : Setup) : Native Int := callGrown external setup

def tokenToPiece (setup : Setup) : Native Int := callGrown external setup

def generate (setup : Setup) (nCtx : Int) (nTokens batch : Nat) (sampler : Option Nat) : Nat → Nat → Native Int
  | 0, _ => leave sampler (some batch) setup 0
  | left + 1, generated =>
      if (nTokens : Int) + generated + 1 < nCtx then do
        let abort ← call external []
        if abort ≠ 0 then leave sampler (some batch) setup 0
        else do
          let logits ← call external [(.context, setup.ctx)]
          if logits = 0 then leave sampler (some batch) setup (-7)
          else do
            let _ ← nextToken external setup sampler
            let eog ← call external [(.model, setup.model)]
            if eog ≠ 0 then leave sampler (some batch) setup 0
            else do
              let _ ← tokenToPiece external setup
              let stop ← call external []
              if stop ≠ 0 then leave sampler (some batch) setup 0
              else do
                let rc ← decode external setup batch [(nTokens : Int) + generated]
                if rc ≠ 0 then leave sampler (some batch) setup (-8)
                else generate setup nCtx nTokens batch sampler left (generated + 1)
      else leave sampler (some batch) setup 0

def decodePrompt (setup : Setup) (nCtx nPredict : Int) (nTokens : Nat) : Native Int := do
  let batch ← batchInit external
  let rc ← decode external setup batch ((List.range nTokens).map Int.ofNat)
  if rc ≠ 0 then leave none (some batch) setup (-6)
  else do
    let _ ← call external [(.model, setup.model)]
    let sampler ← samplerChainInit external setup nTokens
    generate external setup nCtx nTokens batch sampler nPredict.toNat 0

def withPrompt (request : Call) (setup : Setup) : Native Int := do
  let nTokens ← tokenize external setup
  if nTokens ≤ 0 ∨ nTokens ≥ request.effectiveCtx then leave none none setup (-5)
  else if request.warmupOnly then leave none none setup 0
  else decodePrompt external setup request.effectiveCtx request.effectivePredict nTokens.toNat

def withContext (request : Call) (model ctx : Nat) : Native Int := do
  let _ ← call external [(.context, ctx)]
  if request.effectiveThreads > 1 then do
    match ← getThreadpool external request.effectiveThreads with
    | none => do
        release (.context, ctx)
        releaseBufferModel model
        pure (-12)
    | some threadpool => do
        let _ ← call external [(.context, ctx), (.threadpool, threadpool)]
        withPrompt external request ⟨model, ctx, some threadpool⟩
  else withPrompt external request ⟨model, ctx, none⟩

def withModel (request : Call) (model : Nat) : Native Int := do
  let _ ← call external [(.model, model)]
  let _ ← call external [(.model, model)]
  match ← acquire external .context with
  | none => do
      releaseBufferModel model
      pure (-4)
  | some ctx => withContext external request model ctx

def withGguf (request : Call) (gguf : Nat) (metadata : Option Nat) : Native Int := do
  let _ ← call external [(.gguf, gguf)]
  let valid ← call external [(.gguf, gguf)]
  if valid = 0 then do
    releaseIfAny .metadata metadata
    release (.gguf, gguf)
    pure (-11)
  else do
    let model ← getBufferModel external request.modelData request.modelLen
    releaseIfAny .metadata metadata
    release (.gguf, gguf)
    match model with
    | none => pure (-3)
    | some model => withModel external request model

def promptDecodeFromBuffer (request : Call) : Native Int :=
  if request.modelData = 0 ∨ request.modelLen < 16 ∨ request.prompt = false then pure (-1)
  else if request.modelData % 32 ≠ 0 then pure (-10)
  else do
    match ← acquire external .gguf with
    | none => pure (-2)
    | some gguf => do
        -- the metadata context comes with the gguf context, or not at all
        let metadata ← acquire external .metadata
        withGguf external request gguf metadata

structure Report where
  request : Call
  code : Int
  after : World

def runCalls : List Call → Native (List Report)
  | [] => pure []
  | request :: rest => do
      modify fun world => { world with positions := [], acquired := [], released := [] }
      let code ← promptDecodeFromBuffer external request
      let world ← get
      let later ← runCalls rest
      pure (⟨request, code, world⟩ :: later)

end Program

end HermitLocal.BitNet.Bridge
