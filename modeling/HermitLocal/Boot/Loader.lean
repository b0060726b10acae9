import HermitLocal.Mm.Heap
import Mathlib.Data.List.Sort

/-! What the UEFI loader leaves to the kernel: the pages it allocates for the image, the stack pointer it passes on, and
the usable memory in the device tree. -/

namespace HermitLocal.Boot.Loader
open Lib.Align

def PAGE_SIZE : Nat := 4096

structure Placement where
  memSize : Nat
  startAddr : Option Nat
  address : Nat
  fixed : ∀ wanted, startAddr = some wanted → address = wanted
  aligned : PAGE_SIZE ∣ address

namespace Placement

def totalSize (placement : Placement) : Nat := placement.memSize + 32768

def allocatedSize (placement : Placement) : Nat := alignUp placement.totalSize PAGE_SIZE

def allocatedEnd (placement : Placement) : Nat := placement.address + placement.allocatedSize

def imageEnd (placement : Placement) : Nat := placement.address + placement.memSize

end Placement

def bootStack (imageEnd : Nat) : Nat := alignDown (imageEnd + 65536) PAGE_SIZE

namespace Placement

def Allocated (placement : Placement) (byte : Nat) : Prop := placement.address ≤ byte ∧ byte < placement.allocatedEnd

def InStack (placement : Placement) (byte : Nat) : Prop := placement.imageEnd ≤ byte ∧ byte < bootStack placement.imageEnd

theorem bootStack_eq (placement : Placement) :
    bootStack placement.imageEnd = placement.allocatedEnd + if PAGE_SIZE ∣ placement.memSize then 32768 else 28672 := by
  obtain ⟨page, start⟩ := placement.aligned
  unfold bootStack allocatedEnd allocatedSize totalSize imageEnd alignDown alignUp
  rw [start]
  unfold PAGE_SIZE
  split <;> omega

/-- Only the first part of the region below the stack pointer was allocated. -/
theorem boot_stack_allocated_iff (placement : Placement) :
    (∀ byte, placement.InStack byte ∧ placement.Allocated byte ↔
        placement.imageEnd ≤ byte ∧ byte < alignUp (placement.imageEnd + 32768) PAGE_SIZE) ∧
      bootStack placement.imageEnd = placement.allocatedEnd + (if PAGE_SIZE ∣ placement.memSize then 32768 else 28672) ∧
      ¬ ∀ byte, placement.InStack byte → placement.Allocated byte := by
  have pointer := placement.bootStack_eq
  have beyond : placement.allocatedEnd < bootStack placement.imageEnd := by
    rw [pointer]
    split <;> omega
  have rounded : alignUp (placement.imageEnd + 32768) PAGE_SIZE = placement.allocatedEnd := by
    obtain ⟨page, start⟩ := placement.aligned
    unfold allocatedEnd allocatedSize totalSize imageEnd alignUp
    rw [start]
    unfold PAGE_SIZE
    omega
  have above : placement.imageEnd < placement.allocatedEnd := by
    rw [← rounded]
    unfold alignUp PAGE_SIZE
    omega
  refine ⟨?_, pointer, ?_⟩
  · intro byte
    unfold InStack Allocated
    have start : placement.address ≤ placement.imageEnd := Nat.le_add_right _ _
    omega
  · intro inside
    exact Nat.lt_irrefl _ (inside placement.allocatedEnd ⟨above.le, beyond⟩).2

def threeMiB : Placement := ⟨0x300000, none, 0x400000, by simp, by decide⟩

theorem threeMiB_stack_not_allocated :
    threeMiB.InStack 0x708000 ∧ threeMiB.InStack 0x70ffff ∧ ¬ threeMiB.Allocated 0x708000 := by
  unfold InStack Allocated
  decide

end Placement

/-! The memory map. -/

inductive MemoryType where
  | reserved | loaderCode | loaderData | bootServicesCode | bootServicesData | runtimeServicesCode | runtimeServicesData
  | conventional | unusable | acpiReclaim | acpiNonVolatile | mmio | mmioPortSpace | palCode | persistentMemory
  deriving DecidableEq, Repr

structure MemoryDescriptor where
  ty : MemoryType
  physStart : Nat
  pageCount : Nat

def MemoryDescriptor.physEnd (entry : MemoryDescriptor) : Nat := entry.physStart + entry.pageCount * PAGE_SIZE

def usable : MemoryType → Bool
  | .conventional | .bootServicesCode | .bootServicesData | .loaderCode | .loaderData => true
  | _ => false

structure MemoryMap where
  entries : List MemoryDescriptor
  aligned : ∀ entry ∈ entries, PAGE_SIZE ∣ entry.physStart
  disjoint : entries.Pairwise fun entry other => entry.physEnd ≤ other.physStart ∨ other.physEnd ≤ entry.physStart

def MemoryMap.nodes (map : MemoryMap) : List (Nat × Nat) :=
  ((map.entries.insertionSort (·.physStart ≤ ·.physStart)).filter (usable ·.ty)).map fun entry =>
    (entry.physStart, entry.physEnd - entry.physStart)

end HermitLocal.Boot.Loader
