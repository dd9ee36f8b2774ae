import CipherEngine.Bytes
import CipherEngine.Primitive.Error
import CipherEngine.Primitive.Idea.Arith

/-!
# The IDEA block cipher

IDEA enciphers a block of eight bytes, read as four little-endian words, under a key of
sixteen bytes.  The key is stretched into 52 subkeys: the eight key words, then words taken
from the schedule 25 bits further on.  Each of the eight rounds uses six subkeys and the
output transformation four more.

Decryption runs the same rounds under the inverted schedule: the groups of subkeys in
reverse order, the multiplicative keys inverted modulo 2¹⁶ + 1, the additive keys negated
and, in the middle rounds, the two additive keys swapped.
-/

namespace CipherEngine

namespace Idea

/-! ## 1. Words and schedules -/

/-- The little-endian word at byte `2 i`. -/
def wordAt (b : Bytes) (i : Nat) : UInt16 :=
  (b.getD (2 * i) 0).toUInt16 ||| ((b.getD (2 * i + 1) 0).toUInt16 <<< 8)

/-- The two bytes of a word, low byte first. -/
def wordBytes (w : UInt16) : Bytes := [w.toUInt8, (w >>> 8).toUInt8]

/-- Subkey `i` from the earlier ones: the 25-bit rotation of the key, read sixteen bits at a
time, reaches back seven and six words within a group of eight, wrapping at its end. -/
def nextSubkey (k : Array UInt16) (i : Nat) : UInt16 :=
  let g (j : Nat) := k.getD j 0
  if i % 8 < 6 then ((g (i - 7) &&& 127) <<< 9) ||| (g (i - 6) >>> 7)
  else if i % 8 = 6 then ((g (i - 7) &&& 127) <<< 9) ||| (g (i - 14) >>> 7)
  else ((g (i - 15) &&& 127) <<< 9) ||| (g (i - 14) >>> 7)

/-- The 52 encryption subkeys of a sixteen-byte key. -/
def expandKey (key : Bytes) : Array UInt16 :=
  (List.range 44).foldl (fun k j => k.push (nextSubkey k (j + 8)))
    ((List.range 8).map (wordAt key)).toArray

/-- The decryption subkeys: group `j` of six comes from group `8 - j` of the encryption
schedule, with the multiplicative keys inverted and the additive keys negated (and swapped
in the middle rounds), and the two mixing keys taken from the group before. -/
def invertKey (k : Array UInt16) : Array UInt16 :=
  let g (j : Nat) := k.getD j 0
  ((List.range 52).map fun i =>
    let j := i / 6
    let src := 6 * (8 - j)
    let outer := j = 0 ∨ j = 8
    match i % 6 with
    | 0 => mulInv (g src)
    | 1 => addInv (g (if outer then src + 1 else src + 2))
    | 2 => addInv (g (if outer then src + 2 else src + 1))
    | 3 => mulInv (g (src + 3))
    | 4 => g (6 * (7 - j) + 4)
    | _ => g (6 * (7 - j) + 5)).toArray

/-! ## 2. Rounds -/

/-- One round on the four words, under six subkeys. -/
def round (k : Array UInt16) (r : Nat) (x : UInt16 × UInt16 × UInt16 × UInt16) :
    UInt16 × UInt16 × UInt16 × UInt16 :=
  let g (j : Nat) := k.getD (6 * r + j) 0
  let (x0, x1, x2, x3) := x
  let x0 := mul x0 (g 0)
  let x1 := x1 + g 1
  let x2 := x2 + g 2
  let x3 := mul x3 (g 3)
  let t0 := mul (g 4) (x0 ^^^ x2)
  let t1 := mul (g 5) ((x1 ^^^ x3) + t0)
  let t0 := t0 + t1
  (x0 ^^^ t1, x2 ^^^ t1, t0 ^^^ x1, x3 ^^^ t0)

/-- The eight rounds and the output transformation, under a schedule. -/
def crypt (k : Array UInt16) (b : Bytes) : Bytes :=
  let (x0, x1, x2, x3) := (List.range 8).foldl (fun x r => round k r x)
    (wordAt b 0, wordAt b 1, wordAt b 2, wordAt b 3)
  let g (j : Nat) := k.getD (48 + j) 0
  wordBytes (mul x0 (g 0)) ++ wordBytes (x2 + g 1) ++ wordBytes (x1 + g 2) ++
    wordBytes (mul x3 (g 3))

end Idea

/-- IDEA keyed: the encryption schedule and the decryption schedule derived from it. -/
structure Idea where
  encryptKey : Array UInt16
  decryptKey : Array UInt16
  deriving DecidableEq, Repr

namespace Idea

/-- The key length. -/
def keySize : Nat := 16

/-- The block length. -/
def blockSize : Nat := 8

/-- Expands a sixteen-byte key into both schedules. -/
def new (key : Bytes) : Except PrimitiveError Idea := do
  Check.length "IDEA key" key.length keySize
  let e := expandKey key
  pure ⟨e, invertKey e⟩

/-- The text shown for a keyed cipher, which shows nothing of the key. -/
def describe (_ : Idea) : String := "Idea([REDACTED])"

/-- Encrypts one block of eight bytes. -/
def encrypt (c : Idea) (b : Bytes) : Bytes := crypt c.encryptKey b

/-- Decrypts one block of eight bytes. -/
def decrypt (c : Idea) (b : Bytes) : Bytes := crypt c.decryptKey b

/-- Encrypts one block, refusing any other length. -/
def encryptBlock (c : Idea) (b : Bytes) : Except PrimitiveError Bytes := do
  Check.length "IDEA block" b.length blockSize
  pure (c.encrypt b)

/-- Decrypts one block, refusing any other length. -/
def decryptBlock (c : Idea) (b : Bytes) : Except PrimitiveError Bytes := do
  Check.length "IDEA block" b.length blockSize
  pure (c.decrypt b)

end Idea

end CipherEngine
