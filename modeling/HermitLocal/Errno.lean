import Mathlib.Data.Int.Notation

/-! The system error numbers, with those that the modelled functions return by name. -/

namespace HermitLocal

inductive Errno where
  | Io
  | Again
  | Inval
  | Nospc
  | Time
  | Overflow
  | other (code : Int)
  deriving DecidableEq

def Errno.code : Errno → Int
  | .Io => 5
  | .Again => 11
  | .Inval => 22
  | .Nospc => 28
  | .Time => 62
  | .Overflow => 75
  | .other code => code

end HermitLocal
