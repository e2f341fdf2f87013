import KernelTools.Text

/-!
# Interrupt vectors

An i686 processor has 256 interrupt vectors.  For ten of them it pushes an error code before it
enters the handler; the entry stub of every other vector pushes a zero in its place, so that all
handlers find the same stack.
-/

namespace KernelTools.Interrupt

/-- Number of entries in the interrupt descriptor table. -/
def vectorCount : Nat := 256

/-- An interrupt vector. -/
abbrev VectorNumber := Fin 256

/-- All vectors in ascending order. -/
def vectors : List VectorNumber :=
  List.finRange vectorCount

/-- The vectors for which the processor pushes an error code. -/
def errorCodeVectors : List VectorNumber :=
  [8, 10, 11, 12, 13, 14, 17, 21, 29, 30]

/-- The two shapes of an entry stub. -/
inductive StubShape
  /-- The processor has pushed an error code. -/
  | errorCode
  /-- The stub pushes a zero in place of an error code. -/
  | noErrorCode
deriving DecidableEq

/-- The assembler macro that a stub shape expands from. -/
def StubShape.macroName : StubShape → Text
  | .errorCode => "ISR_ERRORCODE".toList
  | .noErrorCode => "ISR_NOERRORCODE".toList

/-- The stub shape of a vector. -/
def stubShape (v : VectorNumber) : StubShape :=
  if v ∈ errorCodeVectors then .errorCode else .noErrorCode

/-- The symbol of a vector's entry stub. -/
def stubSymbol (v : VectorNumber) : Text :=
  "i686_isr".toList ++ Text.decimal v.val

end KernelTools.Interrupt
