import CipherEngine.Error
import CipherEngine.MachineWord

/-!
# Errors of the cipher primitives

The ciphers and modes refuse their inputs with `PrimitiveError`: a bad parameter, a wrong
length, or a failed operation.  Each has its own sentence, and each becomes an engine
error when it crosses into a context (`PrimitiveError.toEngineError`).

The checks in `Check` are the only places primitives fail: each compares one quantity
with what it must be and names the expected value in its error.

Main statements: `blockMultiple_ok_iff`, a length passes the block check exactly when it
is a whole number of blocks, and `length_ok_iff`.
-/

namespace CipherEngine

/-- A refusal by a cipher or a mode. -/
inductive PrimitiveError where
  /-- A parameter was refused, for a reason. -/
  | parameter (name reason : String)
  /-- A length differs from the one required. -/
  | length (context : String) (expected actual : Nat)
  /-- An operation failed. -/
  | processing (operation details : String)
  deriving DecidableEq, Repr

namespace PrimitiveError

/-- The name of the error's kind. -/
def kindName : PrimitiveError → String
  | .parameter .. => "Parameter"
  | .length .. => "Length"
  | .processing .. => "Processing"

/-- The sentence shown for a primitive's error. -/
def message : PrimitiveError → String
  | .parameter name reason => "Invalid parameter '" ++ name ++ "': " ++ reason
  | .length context expected actual =>
    "Invalid length for " ++ context ++ ": expected " ++ toString expected ++ ", got " ++
      toString actual
  | .processing operation details =>
    "Processing error in " ++ operation ++ ": " ++ details

/-- The engine error a primitive's error becomes. -/
def toEngineError : PrimitiveError → EngineError
  | .parameter name reason => .invalidParameter name reason
  | .length context expected actual => .invalidLength context expected actual
  | .processing operation details => .invalidParameter operation details

end PrimitiveError

namespace Check

/-- Passes when `ok` holds, else refuses the parameter `name`. -/
def parameter (ok : Bool) (name reason : String) : Except PrimitiveError Unit :=
  if ok then .ok () else .error (.parameter name reason)

/-- Passes when `actual` is `expected`. -/
def length (context : String) (actual expected : Nat) : Except PrimitiveError Unit :=
  if actual = expected then .ok () else .error (.length context expected actual)

/-- Passes when `actual` lies in `lo..=hi`; a miss names the bound it crossed. -/
def lengthRange (context : String) (actual lo hi : Nat) : Except PrimitiveError Unit :=
  if actual < lo then .error (.length context lo actual)
  else if hi < actual then .error (.length context hi actual)
  else .ok ()

/-- Passes when `actual` is a whole number of blocks; a miss names the next multiple, as a
machine word (past the last multiple within the word's range it wraps around). -/
def blockMultiple (context : String) (actual blockSize : Nat) : Except PrimitiveError Unit :=
  if actual % blockSize = 0 then .ok ()
  else .error (.length context (MachineWord.wrap ((actual / blockSize + 1) * blockSize)) actual)

theorem length_ok_iff (context : String) (actual expected : Nat) :
    length context actual expected = .ok () ↔ actual = expected := by
  unfold length; split <;> simp_all

theorem blockMultiple_ok_iff (context : String) (actual blockSize : Nat) :
    blockMultiple context actual blockSize = .ok () ↔ actual % blockSize = 0 := by
  unfold blockMultiple; split <;> simp_all

end Check

end CipherEngine
