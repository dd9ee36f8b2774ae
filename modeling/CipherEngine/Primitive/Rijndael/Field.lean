/-!
# The field of Rijndael

Rijndael reads a byte as a polynomial over GF(2) of degree below eight and multiplies modulo
x⁸ + x⁴ + x³ + x + 1.  This module holds the field operations and the substitution boxes
built from them:

* `xtime`, multiplication by x, and `gmul`, multiplication by shift and add;
* `inv`, the inverse as the 254th power, with zero sent to zero;
* `sbox`, the inverse followed by the affine map, and `invSbox`, its inverse.

The boxes are also kept as tables of 256 entries (`sboxTable`, `invSboxTable`), which is
what the cipher looks up; `subByte_eq` and `invSubByte_eq` say the tables hold the boxes.
-/

namespace CipherEngine

namespace Rijndael

/-! ## 1. Field operations -/

/-- Multiplication by x: shift left, and reduce when the top bit falls out. -/
@[inline] def xtime (b : UInt8) : UInt8 := (b <<< 1) ^^^ ((b >>> 7) * 0x1b)

/-- The product, adding `a·xⁱ` for each bit `i` of `b` set, over `n` bits. -/
def gmulBits : Nat → UInt8 → UInt8 → UInt8 → UInt8
  | 0, _, _, p => p
  | n + 1, a, b, p => gmulBits n (xtime a) (b >>> 1) (if b &&& 1 = 1 then p ^^^ a else p)

/-- The product of two field elements. -/
def gmul (a b : UInt8) : UInt8 := gmulBits 8 a b 0

/-- The inverse, as the 254th power by a fixed chain of squarings; zero goes to zero. -/
def inv (x : UInt8) : UInt8 :=
  let x2 := gmul x x
  let x4 := gmul x2 x2
  let x8 := gmul x4 x4
  let x16 := gmul x8 x8
  let x32 := gmul x16 x16
  let x64 := gmul x32 x32
  let x128 := gmul x64 x64
  let y := gmul (gmul (gmul (gmul (gmul (gmul x128 x64) x32) x16) x8) x4) x2
  if x = 0 then 0 else y

/-- Rotation of a byte to the left by `n` places, `n` below eight. -/
def rotl (x : UInt8) (n : UInt8) : UInt8 := (x <<< n) ||| (x >>> (8 - n))

/-! ## 2. Substitution boxes -/

/-- The substitution box: the inverse, then the affine map of Rijndael. -/
def sbox (x : UInt8) : UInt8 :=
  let i := inv x
  i ^^^ rotl i 1 ^^^ rotl i 2 ^^^ rotl i 3 ^^^ rotl i 4 ^^^ 0x63

/-- The inverse box: undo the affine map, then invert. -/
def invSbox (x : UInt8) : UInt8 :=
  let y := x ^^^ 0x63
  inv (rotl y 1 ^^^ rotl y 3 ^^^ rotl y 6)

/-- The substitution box as a table. -/
def sboxTable : Vector UInt8 256 := Vector.ofFn fun i => sbox i.val.toUInt8

/-- The inverse box as a table. -/
def invSboxTable : Vector UInt8 256 := Vector.ofFn fun i => invSbox i.val.toUInt8

/-- One byte through the substitution box. -/
@[inline] def subByte (x : UInt8) : UInt8 :=
  have h : x.toNat < 256 := UInt8.toNat_lt x
  sboxTable[x.toNat]

/-- One byte through the inverse box. -/
@[inline] def invSubByte (x : UInt8) : UInt8 :=
  have h : x.toNat < 256 := UInt8.toNat_lt x
  invSboxTable[x.toNat]

theorem subByte_eq (x : UInt8) : subByte x = sbox x := by
  simp [subByte, sboxTable]

theorem invSubByte_eq (x : UInt8) : invSubByte x = invSbox x := by
  simp [invSubByte, invSboxTable]

end Rijndael

end CipherEngine
