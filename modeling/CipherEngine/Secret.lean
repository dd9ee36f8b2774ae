import CipherEngine.Bytes

/-!
# Secret byte strings

Keys and initialisation vectors are held as secret byte strings: their length may be
shown, their bytes never are.
-/

namespace CipherEngine

/-- A byte string whose contents are never shown. -/
structure Secret where
  bytes : Bytes
  deriving DecidableEq, Repr

namespace Secret

/-- The number of bytes held. -/
def size (s : Secret) : Nat := s.bytes.length

/-- Keeps at most the first `n` bytes. -/
def truncate (s : Secret) (n : Nat) : Secret := ⟨s.bytes.take n⟩

/-- The text shown for a secret: its length and nothing of its bytes. -/
def describe (s : Secret) : String :=
  "SecretVec(len=" ++ toString s.size ++ ", [REDACTED])"

@[simp] theorem size_truncate (s : Secret) (n : Nat) : (s.truncate n).size = min n s.size := by
  simp [truncate, size]

end Secret

end CipherEngine
