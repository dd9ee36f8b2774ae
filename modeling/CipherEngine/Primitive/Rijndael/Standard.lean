import Mathlib
import CipherEngine.Bytes

/-!
# The Advanced Encryption Standard, as FIPS-197 writes it

The cipher of FIPS-197 written the way the standard writes it, section by section, with
nothing taken from how Rijndael is computed here: bytes are polynomials over GF(2) and the
field product is the polynomial product reduced modulo `m(x)`; the state is the four-by-four
array `s[r, c]`; the S-box is the table of Figure 7; the key schedule is the recursion of
Figure 11 and the cipher the pseudo-code of Figure 5.

The field product and the round constants are read off polynomials, so what uses them is
noncomputable: this module is a specification, met by the running cipher in
`Proofs/Cipher/Fips`, with the field in `Proofs/Cipher/Field`.
-/

namespace CipherEngine

namespace Standard.Aes

open Polynomial

/-! ## 1. Bytes as polynomials (§3.2, §4) -/

/-- Bit `i` of a byte, as an element of GF(2). -/
def bit (b : UInt8) (i : ℕ) : ZMod 2 := if b.toNat.testBit i then 1 else 0

/-- The byte `b₇…b₁b₀` as the polynomial `b₇x⁷ + … + b₁x + b₀` over GF(2). -/
noncomputable def toPoly (b : UInt8) : (ZMod 2)[X] := ∑ i : Fin 8, C (bit b i) * X ^ (i : ℕ)

/-- The byte whose bits are the coefficients of `x⁰` to `x⁷`. -/
noncomputable def ofPoly (p : (ZMod 2)[X]) : UInt8 :=
  (∑ i : Fin 8, (p.coeff i).val * 2 ^ (i : ℕ)).toUInt8

/-- The irreducible polynomial `m(x) = x⁸ + x⁴ + x³ + x + 1` (§4.2). -/
noncomputable def modulus : (ZMod 2)[X] := X ^ 8 + X ^ 4 + X ^ 3 + X + 1

/-- The product `a • b` in GF(2⁸): the polynomial product modulo `m(x)` (§4.2). -/
noncomputable def mul (a b : UInt8) : UInt8 := ofPoly (toPoly a * toPoly b %ₘ modulus)

/-! ## 2. The S-box (§5.1.1, Figure 7) -/

set_option maxRecDepth 2000 in
/-- The S-box: the entry for the byte `xy` in hexadecimal is at `16x + y`. -/
def sbox : Vector UInt8 256 := #v[
    0x63, 0x7c, 0x77, 0x7b, 0xf2, 0x6b, 0x6f, 0xc5, 0x30, 0x01, 0x67, 0x2b, 0xfe, 0xd7, 0xab, 0x76,
    0xca, 0x82, 0xc9, 0x7d, 0xfa, 0x59, 0x47, 0xf0, 0xad, 0xd4, 0xa2, 0xaf, 0x9c, 0xa4, 0x72, 0xc0,
    0xb7, 0xfd, 0x93, 0x26, 0x36, 0x3f, 0xf7, 0xcc, 0x34, 0xa5, 0xe5, 0xf1, 0x71, 0xd8, 0x31, 0x15,
    0x04, 0xc7, 0x23, 0xc3, 0x18, 0x96, 0x05, 0x9a, 0x07, 0x12, 0x80, 0xe2, 0xeb, 0x27, 0xb2, 0x75,
    0x09, 0x83, 0x2c, 0x1a, 0x1b, 0x6e, 0x5a, 0xa0, 0x52, 0x3b, 0xd6, 0xb3, 0x29, 0xe3, 0x2f, 0x84,
    0x53, 0xd1, 0x00, 0xed, 0x20, 0xfc, 0xb1, 0x5b, 0x6a, 0xcb, 0xbe, 0x39, 0x4a, 0x4c, 0x58, 0xcf,
    0xd0, 0xef, 0xaa, 0xfb, 0x43, 0x4d, 0x33, 0x85, 0x45, 0xf9, 0x02, 0x7f, 0x50, 0x3c, 0x9f, 0xa8,
    0x51, 0xa3, 0x40, 0x8f, 0x92, 0x9d, 0x38, 0xf5, 0xbc, 0xb6, 0xda, 0x21, 0x10, 0xff, 0xf3, 0xd2,
    0xcd, 0x0c, 0x13, 0xec, 0x5f, 0x97, 0x44, 0x17, 0xc4, 0xa7, 0x7e, 0x3d, 0x64, 0x5d, 0x19, 0x73,
    0x60, 0x81, 0x4f, 0xdc, 0x22, 0x2a, 0x90, 0x88, 0x46, 0xee, 0xb8, 0x14, 0xde, 0x5e, 0x0b, 0xdb,
    0xe0, 0x32, 0x3a, 0x0a, 0x49, 0x06, 0x24, 0x5c, 0xc2, 0xd3, 0xac, 0x62, 0x91, 0x95, 0xe4, 0x79,
    0xe7, 0xc8, 0x37, 0x6d, 0x8d, 0xd5, 0x4e, 0xa9, 0x6c, 0x56, 0xf4, 0xea, 0x65, 0x7a, 0xae, 0x08,
    0xba, 0x78, 0x25, 0x2e, 0x1c, 0xa6, 0xb4, 0xc6, 0xe8, 0xdd, 0x74, 0x1f, 0x4b, 0xbd, 0x8b, 0x8a,
    0x70, 0x3e, 0xb5, 0x66, 0x48, 0x03, 0xf6, 0x0e, 0x61, 0x35, 0x57, 0xb9, 0x86, 0xc1, 0x1d, 0x9e,
    0xe1, 0xf8, 0x98, 0x11, 0x69, 0xd9, 0x8e, 0x94, 0x9b, 0x1e, 0x87, 0xe9, 0xce, 0x55, 0x28, 0xdf,
    0x8c, 0xa1, 0x89, 0x0d, 0xbf, 0xe6, 0x42, 0x68, 0x41, 0x99, 0x2d, 0x0f, 0xb0, 0x54, 0xbb, 0x16]

/-- One byte through the S-box. -/
def subByte (x : UInt8) : UInt8 :=
  have h : x.toNat < 256 := UInt8.toNat_lt x
  sbox[x.toNat]

/-! ## 3. The state and the round transformations (§3.4, §5.1) -/

/-- The state: `s r c` is the byte in row `r` and column `c`. -/
abbrev State := Fin 4 → Fin 4 → UInt8

/-- The input block as the state: `s[r, c] = in[r + 4c]` (§3.4). -/
def ofInput (input : Bytes) : State := fun r c => input.getD (r + 4 * c) 0

/-- The state as the output block, column by column: `out[r + 4c] = s[r, c]` (§3.4). -/
def toOutput (s : State) : Bytes :=
  (List.finRange 4).flatMap fun c => (List.finRange 4).map fun r => s r c

/-- SubBytes: every byte through the S-box (§5.1.1). -/
def subBytes (s : State) : State := fun r c => subByte (s r c)

/-- ShiftRows: row `r` is rotated left by `r` places, `s'[r, c] = s[r, (c + r) mod 4]`
(§5.1.2). -/
def shiftRows (s : State) : State := fun r c => s r (c + r)

/-- The matrix of MixColumns (§5.1.3, equation 5.6). -/
def mixMatrix : Fin 4 → Fin 4 → UInt8 :=
  ![![2, 3, 1, 1], ![1, 2, 3, 1], ![1, 1, 2, 3], ![3, 1, 1, 2]]

/-- MixColumns: each column is multiplied by `mixMatrix` in GF(2⁸) (§5.1.3). -/
noncomputable def mixColumns (s : State) : State := fun r c =>
  mul (mixMatrix r 0) (s 0 c) ^^^ mul (mixMatrix r 1) (s 1 c) ^^^
    mul (mixMatrix r 2) (s 2 c) ^^^ mul (mixMatrix r 3) (s 3 c)

/-- A word of four bytes `[a₀, a₁, a₂, a₃]`. -/
abbrev Word := Fin 4 → UInt8

/-- AddRoundKey: column `c` of the state is added to word `4·round + c` of the schedule
(§5.1.4). -/
def addRoundKey (s : State) (w : Nat → Word) (round : Nat) : State :=
  fun r c => s r c ^^^ w (4 * round + c) r

/-! ## 4. The key schedule (§5.2) -/

/-- The key lengths of Figure 4, with their key words `Nk` and rounds `Nr`. -/
inductive KeyLength where
  | aes128
  | aes192
  | aes256
  deriving DecidableEq, Repr

namespace KeyLength

/-- `Nk`, the number of four-byte words of the key. -/
def nk : KeyLength → Nat
  | aes128 => 4
  | aes192 => 6
  | aes256 => 8

/-- `Nr`, the number of rounds. -/
def nr : KeyLength → Nat
  | aes128 => 10
  | aes192 => 12
  | aes256 => 14

theorem nk_pos (v : KeyLength) : 0 < v.nk := by
  cases v <;> decide

end KeyLength

/-- Words added bytewise. -/
def xorWord (a b : Word) : Word := fun i => a i ^^^ b i

/-- SubWord: every byte of the word through the S-box. -/
def subWord (w : Word) : Word := fun i => subByte (w i)

/-- RotWord: `[a₀, a₁, a₂, a₃]` becomes `[a₁, a₂, a₃, a₀]`. -/
def rotWord (w : Word) : Word := fun i => w (i + 1)

/-- The round constant word `Rcon[j] = [x^(j-1), 00, 00, 00]`, the power taken in GF(2⁸). -/
noncomputable def rcon (j : Nat) : Word := ![ofPoly (X ^ (j - 1) %ₘ modulus), 0, 0, 0]

/-- Word `i` of the key schedule of `key` (Figure 11): the key's own words first, then each
word the one `Nk` places back plus `temp`, made from the word before it. -/
noncomputable def keyWord (v : KeyLength) (key : Bytes) (i : Nat) : Word :=
  if h : i < v.nk then fun j => key.getD (4 * i + j) 0
  else
    let temp := keyWord v key (i - 1)
    let temp :=
      if i % v.nk = 0 then xorWord (subWord (rotWord temp)) (rcon (i / v.nk))
      else if 6 < v.nk ∧ i % v.nk = 4 then subWord temp
      else temp
    xorWord (keyWord v key (i - v.nk)) temp
termination_by i
decreasing_by
  all_goals
    have hnk := v.nk_pos
    omega

/-! ## 5. The cipher (§5.1, Figure 5) -/

/-- A middle round: SubBytes, ShiftRows, MixColumns and AddRoundKey. -/
noncomputable def round (w : Nat → Word) (s : State) (r : Nat) : State :=
  addRoundKey (mixColumns (shiftRows (subBytes s))) w r

/-- The cipher: the first round key added, rounds `1` to `Nr - 1`, and a last round without
MixColumns. -/
noncomputable def cipher (v : KeyLength) (key input : Bytes) : Bytes :=
  let w := keyWord v key
  let s := (List.range' 1 (v.nr - 1)).foldl (round w) (addRoundKey (ofInput input) w 0)
  toOutput (addRoundKey (shiftRows (subBytes s)) w v.nr)

end Standard.Aes

end CipherEngine
