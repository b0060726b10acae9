import Mathlib.Data.List.Basic

/-! The check that `hermit_bitnet.cpp` makes of a GGUF file in memory before it
hands out pointers into it. Offsets and sizes are the file's own 64-bit values, so
the sums are machine sums; the guards in front of them keep them from wrapping. -/

namespace HermitLocal.BitNet.TensorBounds

def SIZE_MAX : UInt64 := 18446744073709551615

structure GgufTensor where
  name : Option String
  offset : UInt64
  size : UInt64
  deriving DecidableEq, Repr

structure GgufContext where
  dataOffset : UInt64
  tensors : List GgufTensor
  deriving DecidableEq, Repr

inductive Line where
  | validating (count : Nat)
  | overflow (index : Nat) (name : String)
  | pastEnd (index : Nat) (name : String) (stop modelLen : UInt64)
  | summary (maxEnd modelLen trailing : UInt64) (last : String)
  deriving DecidableEq, Repr

def shownName (tensor : GgufTensor) : String := tensor.name.getD "<unnamed>"

structure Furthest where
  maxEnd : UInt64
  maxName : String
  deriving DecidableEq, Repr

def Furthest.extend (furthest : Furthest) (stop : UInt64) (tensor : GgufTensor) : Furthest :=
  if stop > furthest.maxEnd then ⟨stop, shownName tensor⟩ else furthest

def checkTensors (dataOffset modelLen : UInt64) : Nat → Furthest → List GgufTensor → Except Line Furthest
  | _, furthest, [] => .ok furthest
  | index, furthest, tensor :: rest =>
    if tensor.offset > SIZE_MAX - dataOffset || tensor.size > SIZE_MAX - dataOffset - tensor.offset then
      .error (.overflow index (shownName tensor))
    else
      let stop := dataOffset + tensor.offset + tensor.size
      if stop > modelLen then .error (.pastEnd index (shownName tensor) stop modelLen)
      else checkTensors dataOffset modelLen (index + 1) (furthest.extend stop tensor) rest

def bitnetValidateGgufTensorBounds (ctx : GgufContext) (modelLen : UInt64) (verbose : Bool) : Bool × List Line :=
  let opening := if verbose then [Line.validating ctx.tensors.length] else []
  match checkTensors ctx.dataOffset modelLen 0 ⟨ctx.dataOffset, ""⟩ ctx.tensors with
  | .error line => (false, opening ++ [line])
  | .ok furthest =>
    let closing := if verbose then
        [Line.summary furthest.maxEnd modelLen (modelLen - furthest.maxEnd) furthest.maxName]
      else []
    (true, opening ++ closing)

section Guards
variable {dataOffset modelLen : UInt64} {tensor : GgufTensor}

def exactEnd (dataOffset : UInt64) (tensor : GgufTensor) : Nat :=
  dataOffset.toNat + tensor.offset.toNat + tensor.size.toNat

theorem room_toNat (dataOffset : UInt64) : (SIZE_MAX - dataOffset).toNat = SIZE_MAX.toNat - dataOffset.toNat := by
  apply UInt64.toNat_sub_of_le
  exact Nat.le_of_lt_succ dataOffset.toNat_lt

theorem overflow_iff :
    (tensor.offset > SIZE_MAX - dataOffset || tensor.size > SIZE_MAX - dataOffset - tensor.offset) = true ↔
      SIZE_MAX.toNat < exactEnd dataOffset tensor := by
  have bound := Nat.le_of_lt_succ dataOffset.toNat_lt
  have limit : SIZE_MAX.toNat = 2 ^ 64 - 1 := rfl
  unfold exactEnd
  rw [Bool.or_eq_true, decide_eq_true_iff, decide_eq_true_iff, gt_iff_lt, gt_iff_lt, UInt64.lt_iff_toNat_lt,
    UInt64.lt_iff_toNat_lt, room_toNat]
  by_cases wide : SIZE_MAX.toNat - dataOffset.toNat < tensor.offset.toNat
  · apply iff_of_true (.inl wide)
    omega
  · have rest : (SIZE_MAX - dataOffset - tensor.offset).toNat =
        SIZE_MAX.toNat - dataOffset.toNat - tensor.offset.toNat := by
      rw [UInt64.toNat_sub_of_le, room_toNat]
      rw [UInt64.le_iff_toNat_le, room_toNat]
      exact Nat.not_lt.mp wide
    omega

theorem stop_toNat (small : exactEnd dataOffset tensor ≤ SIZE_MAX.toNat) :
    (dataOffset + tensor.offset + tensor.size).toNat = exactEnd dataOffset tensor := by
  have limit : SIZE_MAX.toNat = 2 ^ 64 - 1 := rfl
  unfold exactEnd at small ⊢
  rw [UInt64.toNat_add, UInt64.toNat_add]
  omega

theorem checkTensors_cons (index : Nat) (furthest : Furthest) (rest : List GgufTensor) :
    checkTensors dataOffset modelLen index furthest (tensor :: rest) =
      if SIZE_MAX.toNat < exactEnd dataOffset tensor then .error (.overflow index (shownName tensor))
      else if modelLen.toNat < exactEnd dataOffset tensor then
        .error (.pastEnd index (shownName tensor) (dataOffset + tensor.offset + tensor.size) modelLen)
      else checkTensors dataOffset modelLen (index + 1)
        (furthest.extend (dataOffset + tensor.offset + tensor.size) tensor) rest := by
  rw [checkTensors]
  by_cases wraps : SIZE_MAX.toNat < exactEnd dataOffset tensor
  · rw [if_pos (overflow_iff.mpr wraps), if_pos wraps]
  · have sum := stop_toNat (Nat.not_lt.mp wraps)
    rw [if_neg (mt overflow_iff.mp wraps), if_neg wraps]
    simp only [gt_iff_lt, UInt64.lt_iff_toNat_lt, sum]

end Guards

theorem checkTensors_ok_iff (dataOffset modelLen : UInt64) (index : Nat) (furthest : Furthest) (tensors : List GgufTensor) :
    (∃ last, checkTensors dataOffset modelLen index furthest tensors = .ok last) ↔
      ∀ tensor ∈ tensors, exactEnd dataOffset tensor ≤ modelLen.toNat := by
  have limit : modelLen.toNat ≤ SIZE_MAX.toNat := Nat.le_of_lt_succ modelLen.toNat_lt
  induction tensors generalizing index furthest with
  | nil => simp [checkTensors]
  | cons tensor rest ih =>
    rw [checkTensors_cons, List.forall_mem_cons]
    split_ifs with wraps long
    · apply iff_of_false
      · rintro ⟨last, failed⟩
        cases failed
      · intro inside
        omega
    · apply iff_of_false
      · rintro ⟨last, failed⟩
        cases failed
      · intro inside
        omega
    · apply (ih _ _).trans
      constructor
      · intro behind
        exact ⟨Nat.not_lt.mp long, behind⟩
      · exact And.right

theorem validate_eq (ctx : GgufContext) (modelLen : UInt64) (verbose : Bool) :
    (bitnetValidateGgufTensorBounds ctx modelLen verbose).1 = true ↔
      ∃ last, checkTensors ctx.dataOffset modelLen 0 ⟨ctx.dataOffset, ""⟩ ctx.tensors = .ok last := by
  unfold bitnetValidateGgufTensorBounds
  cases checkTensors ctx.dataOffset modelLen 0 ⟨ctx.dataOffset, ""⟩ ctx.tensors with
  | error line => simp
  | ok last => simp

/-- The check accepts exactly the files whose tensors all end inside the model. -/
theorem validate_iff (ctx : GgufContext) (modelLen : UInt64) (verbose : Bool) :
    (bitnetValidateGgufTensorBounds ctx modelLen verbose).1 = true ↔
      ∀ tensor ∈ ctx.tensors,
        ctx.dataOffset.toNat + tensor.offset.toNat + tensor.size.toNat ≤ modelLen.toNat := by
  rw [validate_eq, checkTensors_ok_iff]
  rfl

-- the sum of this file wraps to a small end
example : bitnetValidateGgufTensorBounds ⟨4096, [⟨some "w", 18446744073709547520, 64⟩]⟩ 8192 false =
    (false, [.overflow 0 "w"]) := by decide

end HermitLocal.BitNet.TensorBounds
