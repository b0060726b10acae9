import HermitLocal.BitNet.Bridge
import HermitLocal.Lib.Triple
import Mathlib.Data.List.Nodup

/-! What a program of the bridge has in its hands, and what each of its operations makes of that. The thread pool and the model
of the cache are in hand from one call to the next. -/

namespace HermitLocal.BitNet.Handles
open Lib.Triple Bridge List

structure Hand where
  held : List Handle
  model : Option Nat
  pool : Option Nat
  chained : List Nat
  positions : List Int
  start : List Handle

def Hand.all (hand : Hand) : List Handle :=
  hand.held ++ (hand.chained.map (Kind.sampler, ·) ++ (handles .model hand.model ++ handles .threadpool hand.pool))

structure Booked (start acquired released live : List Handle) : Prop where
  balance : ∀ handle, released.count handle + live.count handle = acquired.count handle + start.count handle
  kept : ∀ handle ∈ released, handle.1 ≠ .model

structure At (hand : Hand) (world : World) : Prop where
  live : world.live.Perm hand.all
  distinct : world.live.Nodup
  model : world.cachedBufferModel = hand.model
  pool : world.cachedThreadpool = hand.pool
  chained : world.chained = hand.chained
  positions : world.positions = hand.positions
  booked : Booked hand.start world.acquired world.released world.live

variable {handle : Handle} {world : World}

section Books
variable {start acquired released live : List Handle} (booked : Booked start acquired released live)

include booked

theorem Booked.acquire (handle : Handle) : Booked start (handle :: acquired) released (handle :: live) where
  balance := by
    intro other
    have balance := booked.balance other
    rw [count_cons, count_cons]
    omega
  kept := booked.kept

theorem Booked.release (member : handle ∈ live) (apart : handle.1 ≠ .model) :
    Booked start acquired (handle :: released) (live.erase handle) where
  balance := by
    intro other
    have balance := booked.balance other
    rw [(perm_cons_erase member).count_eq other, count_cons] at balance
    rw [count_cons]
    omega
  kept := by
    intro other inside
    obtain rfl | inside := mem_cons.mp inside
    · exact apart
    · exact booked.kept other inside

end Books

section Primitives
variable {external : External} {hand : Hand}

theorem acquire_ensures (kind : Kind) : Ensures (At hand) (acquire external kind) fun address =>
    At { hand with held := handles kind address ++ hand.held } := by
  intro world now
  unfold acquire
  cases given : external.construct world.time world.live with
  | none => exact ⟨none, _, rfl, { now with }⟩
  | some address =>
    refine ⟨some address, _, rfl, { now with live := now.live.cons _, distinct := ?_, booked := now.booked.acquire _ }⟩
    exact nodup_cons.mpr ⟨external.fresh _ _ _ given kind, now.distinct⟩

theorem batchInit_ensures : Ensures (At hand) (batchInit external) fun batch =>
    At { hand with held := (.batch, batch) :: hand.held } := by
  intro world now
  refine ⟨_, _, rfl, { now with live := now.live.cons _, distinct := ?_, booked := now.booked.acquire _ }⟩
  exact nodup_cons.mpr ⟨external.freshBatch _ _ _, now.distinct⟩

theorem call_ensures {passed : List Handle} (inside : ∀ handle ∈ passed, handle ∈ hand.all) :
    Ensures (At hand) (call external passed) fun _ => At hand := by
  intro world now
  have live : ∀ handle ∈ passed, handle ∈ world.live := fun handle member => now.live.mem_iff.mpr (inside handle member)
  unfold call
  rw [if_pos live]
  exact ⟨_, _, rfl, { now with }⟩

variable {rest : List Handle}

theorem release_run (split : world.live.Perm (handle :: rest)) :
    release handle world = some ((), world.release handle) ∧ handle ∈ world.live ∧ (world.live.erase handle).Perm rest := by
  have member := split.mem_iff.mpr mem_cons_self
  refine ⟨if_pos member, member, ?_⟩
  · have erased := split.erase handle
    rwa [erase_cons_head] at erased

theorem release_ensures (apart : handle.1 ≠ .model) (first : hand.held = handle :: rest) :
    Ensures (At hand) (release handle) fun _ => At { hand with held := rest } := by
  intro world now
  have split : world.live.Perm (handle :: Hand.all { hand with held := rest }) := by
    have live := now.live
    rwa [Hand.all, first] at live
  obtain ⟨ran, member, left⟩ := release_run split
  exact ⟨_, _, ran, { now with
    live := left, distinct := now.distinct.erase handle, booked := now.booked.release member apart }⟩

theorem releaseIfAny_ensures {kind : Kind} {address : Option Nat} (apart : kind ≠ .model)
    (first : hand.held = handles kind address ++ rest) :
    Ensures (At hand) (releaseIfAny kind address) fun _ => At { hand with held := rest } := by
  cases address with
  | none =>
    apply Ensures.pure
    intro world now
    rwa [← show hand.held = rest from first]
  | some address => exact release_ensures apart first

end Primitives

section Cache
variable {external : External} {hand : Hand}

theorem At.cacheModel {model : Nat} {modelData modelLen : Nat} (empty : hand.model = none)
    (now : At { hand with held := (.model, model) :: hand.held } world) :
    At { hand with model := some model }
      { world with cachedBufferModel := some model, cachedBufferModelData := modelData, cachedBufferModelLen := modelLen } := by
  refine { now with model := rfl, live := ?_ }
  have live := now.live
  unfold Hand.all at live ⊢
  rw [empty] at live
  apply live.trans
  simp only [handles, Option.toList_none, Option.toList_some, map_nil, map_cons, nil_append, cons_append]
  rw [← append_assoc, ← append_assoc]
  exact perm_middle.symm

theorem getBufferModel_ensures (modelData modelLen : Nat) :
    Ensures (At hand) (getBufferModel external modelData modelLen) fun model world =>
      ∃ cached, (∀ address, model = some address → cached = some address) ∧ At { hand with model := cached } world := by
  apply Ensures.get_bind
  intro world now
  have same := now.model
  have start : ∀ state, state = world → At hand state := by
    intro state equal
    rwa [equal]
  cases cached : world.cachedBufferModel with
  | some model =>
    rw [cached] at same
    split_ifs
    · apply Ensures.pure
      intro state equal
      refine ⟨hand.model, ?_, start state equal⟩
      intro address found
      rw [← same, found]
    · apply Ensures.pure
      intro state equal
      refine ⟨hand.model, ?_, start state equal⟩
      intro address found
      cases found
  | none =>
    rw [cached] at same
    apply Ensures.bind ((acquire_ensures .model).strengthen start)
    intro model
    cases model with
    | none =>
      apply Ensures.modify_bind (fun state now => now)
      apply Ensures.pure
      intro state now
      refine ⟨hand.model, ?_, now⟩
      intro address found
      cases found
    | some model =>
      apply Ensures.modify_bind fun state now => At.cacheModel same.symm now
      apply Ensures.pure
      intro state now
      exact ⟨some model, fun address found => found, now⟩

theorem releaseBufferModel_ensures {model : Nat} (cached : hand.model = some model) :
    Ensures (At hand) (releaseBufferModel model) fun _ => At hand := by
  apply Ensures.get_bind
  intro world now
  rw [if_pos (now.model.trans cached)]
  apply Ensures.pure
  intro state equal
  rwa [equal]

theorem releaseThreadpool_ensures {threadpool : Option Nat}
    (cached : ∀ address, threadpool = some address → hand.pool = some address) :
    Ensures (At hand) (releaseThreadpool threadpool) fun _ => At hand := by
  cases threadpool with
  | none => exact Ensures.pure fun _ now => now
  | some address =>
    apply Ensures.get_bind
    intro world now
    rw [if_pos (now.pool.trans (cached address rfl))]
    apply Ensures.pure
    intro state equal
    rwa [equal]

theorem At.cachePool {threadpool : Option Nat} {threads : Int} (empty : hand.pool = none)
    (now : At { hand with held := handles .threadpool threadpool ++ hand.held } world) :
    At { hand with pool := threadpool } { world with cachedThreadpool := threadpool, cachedThreadpoolThreads := threads } := by
  refine { now with pool := rfl, live := ?_ }
  have live := now.live
  unfold Hand.all at live ⊢
  rw [empty] at live
  apply live.trans
  rw [append_assoc, show handles .threadpool none = [] from rfl, append_nil]
  apply perm_append_comm.trans
  rw [append_assoc, append_assoc]

theorem newThreadpool_ensures (empty : hand.pool = none) (nThreads : Int) :
    Ensures (At hand) (newThreadpool external nThreads) fun threadpool => At { hand with pool := threadpool } := by
  apply Ensures.bind (acquire_ensures .threadpool)
  intro threadpool
  apply Ensures.modify_bind fun state now => At.cachePool empty now
  exact Ensures.pure fun _ now => now

theorem dropPool_run {threadpool : Nat} (cached : hand.pool = some threadpool) (now : At hand world) :
    ∃ after, release (.threadpool, threadpool) world = some ((), after) ∧
      At { hand with pool := none } { after with cachedThreadpool := none, cachedThreadpoolThreads := 0 } := by
  have split : world.live.Perm ((.threadpool, threadpool) :: Hand.all { hand with pool := none }) := by
    apply now.live.trans
    unfold Hand.all
    rw [cached, show handles .threadpool (some threadpool) = [(.threadpool, threadpool)] from rfl,
      show handles .threadpool none = [] from rfl, append_nil, ← append_assoc, ← append_assoc,
      ← append_assoc]
    exact perm_append_singleton _ _
  obtain ⟨ran, member, left⟩ := release_run split
  exact ⟨_, ran, { now with
    live := left, distinct := now.distinct.erase _, pool := rfl, booked := now.booked.release member (by simp) }⟩

theorem getThreadpool_ensures (nThreads : Int) :
    Ensures (At hand) (getThreadpool external nThreads) fun threadpool world =>
      ∃ cached, (∀ address, threadpool = some address → cached = some address) ∧ At { hand with pool := cached } world := by
  unfold getThreadpool
  split_ifs
  · apply Ensures.pure
    intro world now
    refine ⟨hand.pool, ?_, now⟩
    intro address found
    cases found
  · apply Ensures.get_bind
    intro world now
    have same := now.pool
    have start : ∀ state, state = world → At hand state := by
      intro state equal
      rwa [equal]
    cases cached : world.cachedThreadpool with
    | none =>
      rw [cached] at same
      apply ((newThreadpool_ensures same.symm nThreads).strengthen start).weaken
      intro threadpool state now
      exact ⟨threadpool, fun address found => found, now⟩
    | some threadpool =>
      rw [cached] at same
      split_ifs
      · apply Ensures.pure
        intro state equal
        refine ⟨hand.pool, ?_, start state equal⟩
        intro address found
        rw [← same, found]
      · have dropped : Ensures (· = world) (release (.threadpool, threadpool)) fun _ after =>
            At { hand with pool := none } { after with cachedThreadpool := none, cachedThreadpoolThreads := 0 } := by
          intro state equal
          obtain ⟨after, ran, left⟩ := dropPool_run same.symm (start state equal)
          exact ⟨(), after, ran, left⟩
        apply Ensures.bind dropped
        intro _
        have renewed : Ensures (At { hand with pool := none }) (newThreadpool external nThreads) _ :=
          newThreadpool_ensures rfl nThreads
        refine Ensures.modify_bind ?_ (renewed.weaken ?_)
        · exact fun _ left => left
        · intro threadpool state now
          exact ⟨threadpool, fun address found => found, now⟩

end Cache

end HermitLocal.BitNet.Handles
