import HermitLocal.Ahci.MemoryDb
import HermitLocal.Errno

/-! The memory database system calls of `syscalls/mod.rs`. A pointer argument is an
`Option`, with `none` for null. -/

namespace HermitLocal.Syscalls
open Lib.BlockProgram Lib.BlockProgram.Program
open Ahci.MemoryDb

def i32Count (count : Nat) : Int := if count < 2 ^ 31 then count else 2 ^ 31 - 1

theorem i32Count_nonneg (count : Nat) : 0 ≤ i32Count count := by
  unfold i32Count
  split <;> omega

def sysAppendMemoryDb (data : Option (List UInt8)) : Driver Int :=
  match data with
  | none => pure (-Errno.code .Inval)
  | some bytes => do
      let result ← attempt (appendMemoryDb bytes)
      match result with
      | .ok written => pure (i32Count written)
      | .error _ => pure (-Errno.code .Nospc)

def sysReadMemoryDb (bufLen : Option Nat) : Driver (Int × List UInt8) :=
  match bufLen with
  | none => pure (-Errno.code .Inval, [])
  | some bufLen =>
    if bufLen = 0 then pure (0, [])
    else do
      let result ← attempt (readMemoryDb bufLen)
      match result with
      | .ok bytes => pure (i32Count bytes.length, bytes)
      | .error _ => pure (-Errno.code .Io, [])

theorem run_sysAppend (faults : Faults) (bytes : List UInt8) (world : Disk) :
    run faults (sysAppendMemoryDb (some bytes)) world =
      (.ok (match (run faults (appendMemoryDb bytes) world).1 with
        | .ok written => i32Count written
        | .error _ => -28), (run faults (appendMemoryDb bytes) world).2) := by
  rw [sysAppendMemoryDb, run_bind, run_attempt]
  cases (run faults (appendMemoryDb bytes) world).1 <;> rfl

end HermitLocal.Syscalls
