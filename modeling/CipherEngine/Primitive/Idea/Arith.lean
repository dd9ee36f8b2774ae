/-!
# The arithmetic of IDEA

IDEA mixes three group operations on sixteen-bit words: exclusive or, addition modulo 2¹⁶,
and multiplication modulo the prime 2¹⁶ + 1, where the word 0 stands for 2¹⁶.  This module
holds the multiplication, computed by the low-minus-high reduction, and the two inverses the
decryption schedule needs.
-/

namespace CipherEngine

namespace Idea

/-- The number a word stands for in the multiplicative group: 0 stands for 2¹⁶. -/
def dec (x : UInt16) : Nat := if x = 0 then 65536 else x.toNat

/-- The word that stands for a number from 1 to 2¹⁶, undoing `dec`: 2¹⁶ is kept as 0. -/
def enc (n : Nat) : UInt16 := n.toUInt16

/-- Multiplication modulo 2¹⁶ + 1, with 0 standing for 2¹⁶.  A product `p` of two non-zero
words is reduced as `lo - hi` (plus the modulus when negative), since 2¹⁶ ≡ -1. -/
def mul (a b : UInt16) : UInt16 :=
  if a = 0 then (65537 - b.toNat).toUInt16
  else if b = 0 then (65537 - a.toNat).toUInt16
  else
    let p := a.toNat * b.toNat
    let lo := p % 65536
    let hi := p / 65536
    if hi ≤ lo then (lo - hi).toUInt16 else (lo + 65537 - hi).toUInt16

/-- `base ^ exp` modulo 65537, by square and multiply over the bits of `exp`. -/
def powMod (base exp acc : Nat) (fuel : Nat) : Nat :=
  match fuel with
  | 0 => acc
  | fuel + 1 =>
    if exp = 0 then acc
    else
      let acc := if exp % 2 = 1 then acc * base % 65537 else acc
      powMod (base * base % 65537) (exp / 2) acc fuel

/-- The multiplicative inverse modulo 2¹⁶ + 1, as the power 65535; 0 and 1 are their own. -/
def mulInv (x : UInt16) : UInt16 :=
  if x ≤ 1 then x else (powMod x.toNat 65535 1 16).toUInt16

/-- The additive inverse modulo 2¹⁶. -/
def addInv (x : UInt16) : UInt16 := 0 - x

end Idea

end CipherEngine
