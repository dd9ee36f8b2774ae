import CipherEngine.Bytes
import CipherEngine.Primitive.Error
import CipherEngine.Transducer

/-!
# The Arcfour stream cipher

Arcfour keeps a permutation of the 256 byte values and two indices.  The key, of 1 to 256
bytes, shuffles the identity permutation once; after that every step moves the indices,
swaps two entries and yields one keystream byte.  Encryption and decryption are the same
operation: the data is combined with the keystream by exclusive or, and the state carries
over from one call to the next.

Main statement: `process_append`, processing two strings one after the other gives the
output of processing them joined, so a message may be cut anywhere.
-/

namespace CipherEngine

/-- Arcfour keyed: the permutation and the two indices. -/
structure Arcfour where
  state : Vector UInt8 256
  i : UInt8
  j : UInt8
  deriving DecidableEq, Repr

namespace Arcfour

/-- The longest key. -/
def maxKeySize : Nat := 256

/-- The entry of the permutation at a byte. -/
def entry (s : Vector UInt8 256) (x : UInt8) : UInt8 :=
  have h : x.toNat < 256 := UInt8.toNat_lt x
  s[x.toNat]

/-- The permutation with the entries at two bytes exchanged. -/
def swapAt (s : Vector UInt8 256) (x y : UInt8) : Vector UInt8 256 :=
  have hx : x.toNat < 256 := UInt8.toNat_lt x
  have hy : y.toNat < 256 := UInt8.toNat_lt y
  s.swap x.toNat y.toNat

/-- The key schedule: each position in turn is swapped with one chosen by the key. -/
def schedule (key : Bytes) : Vector UInt8 256 :=
  let start : Vector UInt8 256 := Vector.ofFn fun n => n.val.toUInt8
  ((List.range 256).foldl (fun (acc : Vector UInt8 256 × UInt8) n =>
      let (s, j) := acc
      let i := n.toUInt8
      let j := j + entry s i + key.getD (n % key.length) 0
      (swapAt s i j, j)) (start, 0)).1

/-- Keys the cipher; keys of 1 to 256 bytes are taken. -/
def new (key : Bytes) : Except PrimitiveError Arcfour := do
  Check.lengthRange "Arcfour key" key.length 1 maxKeySize
  pure ⟨schedule key, 0, 0⟩

/-- The text shown for a keyed cipher, which shows nothing of its state. -/
def describe (_ : Arcfour) : String := "Arcfour([REDACTED])"

/-- One keystream byte, and the state after it. -/
def next (c : Arcfour) : UInt8 × Arcfour :=
  let i := c.i + 1
  let j := c.j + entry c.state i
  let s := swapAt c.state i j
  (entry s (entry s i + entry s j), ⟨s, i, j⟩)

/-- One byte combined with the next keystream byte. -/
def step (c : Arcfour) (x : UInt8) : UInt8 × Arcfour :=
  let (k, c) := c.next
  (x ^^^ k, c)

/-- Combines data with the keystream, and the state after it. -/
def process (c : Arcfour) (data : Bytes) : Bytes × Arcfour := Transducer.run step c data

/-- The next `n` keystream bytes: zeros combined with the keystream. -/
def keystream (c : Arcfour) (n : Nat) : Bytes × Arcfour := c.process (Bytes.zeros n)

theorem process_append (c : Arcfour) (a b : Bytes) :
    c.process (a ++ b) =
      ((c.process a).1 ++ ((c.process a).2.process b).1, ((c.process a).2.process b).2) :=
  Transducer.run_append step c a b

end Arcfour

end CipherEngine
