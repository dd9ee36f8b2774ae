import Mathlib.RingTheory.AdjoinRoot
import Mathlib.Tactic.ComputeDegree
import Mathlib.Tactic.LinearCombination
import Mathlib.Data.ZMod.Basic
import CipherEngine.Primitive.Rijndael.Standard
import CipherEngine.Proofs.Cipher.Rijndael

/-!
# The field of Rijndael is GF(2⁸)

Read through `Standard.Aes.toPoly`, which takes a byte to the polynomial of its bits, the
byte operations of Rijndael compute in GF(2)[x] modulo `m(x) = x⁸ + x⁴ + x³ + x + 1`:

* `toPoly_xtime`: `xtime` multiplies by `x` modulo `m(x)`;
* `toPoly_gmul`: `gmul` multiplies modulo `m(x)`, so it is the field product of the standard
  (`mul_eq_gmul`);
* `ofPoly_X_pow`: the powers of `x` are the iterates of `xtime` from one.

The proofs work in the quotient `AdjoinRoot m(x)` (`toField`), where the reduction is out of
sight: exclusive or adds (`toField_xor`), `xtime` multiplies by the root (`toField_xtime`),
and each pass of the loop of `gmul` keeps `p + a·(the low bits of b)` (`toField_gmulBits`).
A byte's polynomial has degree below eight, so it is its own remainder, and an equation in
the quotient is an equation of remainders (`toPoly_eq_modByMonic`).
-/

set_option autoImplicit false

namespace CipherEngine

namespace Standard.Aes

open Polynomial

/-! ## 1. A byte's polynomial -/

theorem coeff_toPoly (b : UInt8) (n : ℕ) :
    (toPoly b).coeff n = if n < 8 then bit b n else 0 := by
  rw [toPoly, finsetSum_coeff]
  simp only [coeff_C_mul_X_pow]
  split_ifs with h
  · rw [Finset.sum_eq_single ⟨n, h⟩ (fun i _ hi => if_neg fun he => hi (Fin.ext he.symm))
      (by simp)]
    simp
  · refine Finset.sum_eq_zero fun i _ => if_neg fun he => h ?_
    rw [he]
    exact i.isLt

theorem degree_toPoly_lt (b : UInt8) : (toPoly b).degree < 8 :=
  degree_sum_fin_lt _

/-- The low `k` bits of a number, read back: `∑ i < k, bitᵢ(n)·2ⁱ = n mod 2ᵏ`. -/
theorem sum_testBit_mul_two_pow (n k : ℕ) :
    ∑ i ∈ Finset.range k, (if n.testBit i then 1 else 0) * 2 ^ i = n % 2 ^ k := by
  induction k with
  | zero => simp [Nat.mod_one]
  | succ k ih =>
    rw [Finset.sum_range_succ, ih, Nat.mod_pow_succ, Nat.testBit_eq_decide_div_mod_eq]
    rcases Nat.mod_two_eq_zero_or_one (n / 2 ^ k) with h | h <;> simp [h, mul_comm]

theorem bit_val (b : UInt8) (i : ℕ) : (bit b i).val = if b.toNat.testBit i then 1 else 0 := by
  unfold bit
  split_ifs <;> rfl

/-- A byte is read back from its polynomial. -/
theorem ofPoly_toPoly (b : UInt8) : ofPoly (toPoly b) = b := by
  have hcoeff : ∀ i : Fin 8, (toPoly b).coeff i = bit b i := fun i => by
    rw [coeff_toPoly, if_pos i.isLt]
  have hsum : ∑ i : Fin 8, (bit b i).val * 2 ^ (i : ℕ) = b.toNat := by
    rw [Fin.sum_univ_eq_sum_range (fun i => (bit b i).val * 2 ^ i)]
    simp only [bit_val]
    rw [sum_testBit_mul_two_pow, Nat.mod_eq_of_lt (UInt8.toNat_lt b)]
  rw [ofPoly, Finset.sum_congr rfl fun i _ => by rw [hcoeff i], hsum]
  exact UInt8.ofNat_toNat

theorem bit_xor (a b : UInt8) (i : ℕ) : bit (a ^^^ b) i = bit a i + bit b i := by
  simp only [bit, UInt8.toNat_xor, Nat.testBit_xor]
  cases a.toNat.testBit i <;> cases b.toNat.testBit i <;> decide

/-- Exclusive or of bytes is the sum of their polynomials. -/
theorem toPoly_xor (a b : UInt8) : toPoly (a ^^^ b) = toPoly a + toPoly b := by
  simp only [toPoly, bit_xor, C_add, add_mul, Finset.sum_add_distrib]

theorem toPoly_zero : toPoly 0 = 0 := by
  simp [toPoly, bit]

theorem toPoly_one : toPoly 1 = 1 := by
  simp +decide [toPoly, bit, Fin.sum_univ_eight]

theorem toPoly_two : toPoly 2 = X := by
  simp +decide [toPoly, bit, Fin.sum_univ_eight]

theorem toPoly_three : toPoly 3 = X + 1 := by
  simp +decide [toPoly, bit, Fin.sum_univ_eight]
  ring

/-! ## 2. The modulus and the quotient -/

theorem modulus_monic : modulus.Monic := by
  unfold modulus
  monicity!

theorem degree_modulus : modulus.degree = 8 := by
  unfold modulus
  compute_degree!

/-- A byte's polynomial is its own remainder modulo `m(x)`. -/
theorem toPoly_modByMonic (b : UInt8) : toPoly b %ₘ modulus = toPoly b :=
  (modByMonic_eq_self_iff modulus_monic).2 (by rw [degree_modulus]; exact degree_toPoly_lt b)

/-- The element of GF(2)[x]/(m(x)) that a byte stands for. -/
noncomputable def toField (b : UInt8) : AdjoinRoot modulus := AdjoinRoot.mk modulus (toPoly b)

/-- A byte that stands for the class of `q` is the remainder of `q` modulo `m(x)`. -/
theorem toPoly_eq_modByMonic {b : UInt8} {q : (ZMod 2)[X]}
    (h : toField b = AdjoinRoot.mk modulus q) : toPoly b = q %ₘ modulus := by
  rw [← toPoly_modByMonic, ← AdjoinRoot.modByMonicHom_mk modulus_monic,
    ← AdjoinRoot.modByMonicHom_mk modulus_monic]
  exact congrArg _ h

theorem toField_xor (a b : UInt8) : toField (a ^^^ b) = toField a + toField b := by
  rw [toField, toPoly_xor, map_add]
  rfl

theorem toField_zero : toField 0 = 0 := by
  rw [toField, toPoly_zero, map_zero]

theorem toField_one : toField 1 = 1 := by
  rw [toField, toPoly_one, map_one]

theorem toField_two : toField 2 = AdjoinRoot.root modulus := by
  rw [toField, toPoly_two, AdjoinRoot.mk_X]

theorem toField_three : toField 3 = AdjoinRoot.root modulus + 1 := by
  rw [toField, toPoly_three, map_add, AdjoinRoot.mk_X, map_one]

/-! ## 3. Multiplication by `x` -/

theorem bit_zero (i : ℕ) : bit 0 i = 0 := by
  simp [bit]

/-- Bit 7 of a byte is bit 0 of the byte shifted down by seven. -/
theorem bit_seven (a : UInt8) : bit a 7 = bit (a >>> 7) 0 := by
  have h : (a >>> 7).toNat = a.toNat >>> 7 := by
    rw [UInt8.toNat_shiftRight]
    rfl
  rw [bit, bit, h, Nat.testBit_shiftRight]

/-- Shifting up by one moves bit `i - 1` to bit `i`, below the top, and clears bit 0. -/
theorem bit_shiftLeft_one (a : UInt8) (i : ℕ) :
    bit (a <<< 1) i = if 1 ≤ i ∧ i < 8 then bit a (i - 1) else 0 := by
  have h : (a <<< 1).toNat = (a.toNat <<< 1) % 2 ^ 8 := by
    rw [UInt8.toNat_shiftLeft]
    rfl
  simp only [bit, h, Nat.testBit_mod_two_pow, Nat.testBit_shiftLeft]
  by_cases hi : 1 ≤ i ∧ i < 8
  · simp [hi.1, hi.2]
  · rw [if_neg hi]
    simp only [ge_iff_le, Bool.and_eq_true, decide_eq_true_eq, ite_eq_right_iff]
    omega

/-- The bits of `xtime a`: those of `a` one place up, with the top bit fed back into bits 0,
1, 3 and 4. -/
theorem bit_xtime (a : UInt8) :
    bit (Rijndael.xtime a) 0 = bit a 7 ∧ bit (Rijndael.xtime a) 1 = bit a 0 + bit a 7 ∧
      bit (Rijndael.xtime a) 2 = bit a 1 ∧ bit (Rijndael.xtime a) 3 = bit a 2 + bit a 7 ∧
      bit (Rijndael.xtime a) 4 = bit a 3 + bit a 7 ∧ bit (Rijndael.xtime a) 5 = bit a 4 ∧
      bit (Rijndael.xtime a) 6 = bit a 5 ∧ bit (Rijndael.xtime a) 7 = bit a 6 := by
  have hx (i : ℕ) : bit (Rijndael.xtime a) i = bit (a <<< 1) i + bit ((a >>> 7) * 0x1b) i :=
    bit_xor _ _ i
  simp only [hx, bit_shiftLeft_one, bit_seven a]
  rcases Rijndael.shiftRight_seven_cases a with h | h
  · simp [h, bit_zero]
  · have hc : bit 1 0 = 1 ∧ bit 0x1b 0 = 1 ∧ bit 0x1b 1 = 1 ∧ bit 0x1b 2 = 0 ∧ bit 0x1b 3 = 1 ∧
        bit 0x1b 4 = 1 ∧ bit 0x1b 5 = 0 ∧ bit 0x1b 6 = 0 ∧ bit 0x1b 7 = 0 := by decide
    simp [h, hc]

/-- The product by `x` is `xtime`'s polynomial plus `m(x)` once for the bit that falls out of
the byte. -/
theorem X_mul_toPoly (a : UInt8) : X * toPoly a = toPoly (Rijndael.xtime a) + C (bit a 7) * modulus := by
  obtain ⟨h0, h1, h2, h3, h4, h5, h6, h7⟩ := bit_xtime a
  have htwo : (2 : (ZMod 2)[X]) = 0 := CharTwo.two_eq_zero
  simp only [toPoly, Fin.sum_univ_eight, Fin.isValue, Fin.coe_ofNat_eq_mod, Nat.reduceMod,
    h0, h1, h2, h3, h4, h5, h6, h7, C_add, modulus]
  -- the feedback terms of the top bit meet those of `m(x)` twice, and two is zero
  linear_combination (-(C (bit a 7) * (1 + X + X ^ 3 + X ^ 4))) * htwo

theorem toField_xtime (a : UInt8) : toField (Rijndael.xtime a) = AdjoinRoot.root modulus * toField a := by
  have h := congrArg (AdjoinRoot.mk modulus) (X_mul_toPoly a)
  rw [map_mul, map_add, map_mul, AdjoinRoot.mk_X, AdjoinRoot.mk_self, mul_zero, add_zero] at h
  exact h.symm

/-- **`xtime` multiplies by `x` modulo `m(x)`.** -/
theorem toPoly_xtime (a : UInt8) : toPoly (Rijndael.xtime a) = X * toPoly a %ₘ modulus :=
  toPoly_eq_modByMonic (by rw [toField_xtime, map_mul, AdjoinRoot.mk_X]; rfl)

theorem toField_xtime_iterate (k : ℕ) :
    toField (Rijndael.xtime^[k] 1) = AdjoinRoot.root modulus ^ k := by
  induction k with
  | zero => rw [Function.iterate_zero_apply, toField_one, pow_zero]
  | succ k ih => rw [Function.iterate_succ_apply', toField_xtime, ih, pow_succ, mul_comm]

/-- The powers of `x` modulo `m(x)` are the iterates of `xtime` from one. -/
theorem ofPoly_X_pow (k : ℕ) : ofPoly (X ^ k %ₘ modulus) = Rijndael.xtime^[k] 1 := by
  rw [← toPoly_eq_modByMonic (by rw [toField_xtime_iterate, map_pow, AdjoinRoot.mk_X]),
    ofPoly_toPoly]

/-! ## 4. The product -/

theorem bit_shiftRight_one (b : UInt8) (i : ℕ) : bit (b >>> 1) i = bit b (i + 1) := by
  have hshift : (b >>> 1).toNat = b.toNat >>> 1 := by
    rw [UInt8.toNat_shiftRight]
    rfl
  rw [bit, bit, hshift, Nat.testBit_shiftRight, Nat.add_comm]

/-- The low bit of `b` decides whether `a` is added. -/
theorem and_one_cases (b : UInt8) :
    (b &&& 1 = 1 ∧ bit b 0 = 1) ∨ (b &&& 1 ≠ 1 ∧ bit b 0 = 0) := by
  have hand : b &&& 1 = 1 ↔ b.toNat % 2 = 1 := by
    rw [← UInt8.toNat_inj, UInt8.toNat_and, UInt8.toNat_one, Nat.and_one_is_mod]
  by_cases h : b.toNat % 2 = 1
  · exact Or.inl ⟨hand.2 h, by simp [bit, Nat.testBit_zero, h]⟩
  · exact Or.inr ⟨fun h' => h (hand.1 h'), by simp [bit, Nat.testBit_zero, h]⟩

/-- The low `n + 1` bits of `b`: the lowest, and `x` times the low `n` bits of `b >>> 1`. -/
theorem sum_bits_succ (b : UInt8) (n : ℕ) :
    ∑ i : Fin (n + 1), C (bit b i) * X ^ (i : ℕ) =
      C (bit b 0) + X * ∑ i : Fin n, C (bit (b >>> 1) i) * X ^ (i : ℕ) := by
  have hlow : C (bit b ((0 : Fin (n + 1)) : ℕ)) * X ^ ((0 : Fin (n + 1)) : ℕ) = C (bit b 0) := by
    rw [Fin.val_zero, pow_zero, mul_one]
  have hhigh (i : Fin n) : C (bit b (i.succ : ℕ)) * X ^ (i.succ : ℕ) =
      X * (C (bit (b >>> 1) i) * X ^ (i : ℕ)) := by
    rw [bit_shiftRight_one, Fin.val_succ, pow_succ]
    ring
  rw [Fin.sum_univ_succ, hlow, Finset.mul_sum, Finset.sum_congr rfl fun i _ => hhigh i]

/-- **The loop of `gmul`**: after `n` passes from `p`, with `a` and `b` the shifted operands,
the accumulator has added `a` times the low `n` bits of `b`. -/
theorem toField_gmulBits (n : ℕ) (a b p : UInt8) :
    toField (Rijndael.gmulBits n a b p) =
      toField p + toField a * AdjoinRoot.mk modulus (∑ i : Fin n, C (bit b i) * X ^ (i : ℕ)) := by
  induction n generalizing a b p with
  | zero => simp [Rijndael.gmulBits]
  | succ n ih =>
    have hadd : toField (if b &&& 1 = 1 then p ^^^ a else p) =
        toField p + AdjoinRoot.mk modulus (C (bit b 0)) * toField a := by
      rcases and_one_cases b with ⟨hb, hbit⟩ | ⟨hb, hbit⟩
      · rw [if_pos hb, toField_xor, hbit, map_one, map_one, one_mul]
      · rw [if_neg hb, hbit, map_zero, map_zero, zero_mul, add_zero]
    rw [Rijndael.gmulBits, ih, hadd, toField_xtime, sum_bits_succ, map_add, map_mul, AdjoinRoot.mk_X]
    ring

theorem toField_gmul (a b : UInt8) : toField (Rijndael.gmul a b) = toField a * toField b := by
  rw [Rijndael.gmul, toField_gmulBits, toField_zero, zero_add]
  rfl

/-- **`gmul` multiplies modulo `m(x)`.** -/
theorem toPoly_gmul (a b : UInt8) : toPoly (Rijndael.gmul a b) = toPoly a * toPoly b %ₘ modulus :=
  toPoly_eq_modByMonic (by rw [toField_gmul, toField, toField, map_mul])

/-- The field product of the standard is read off the quotient. -/
theorem mul_eq_of_toField {a b c : UInt8} (h : toField c = toField a * toField b) :
    mul a b = c := by
  rw [mul, ← toPoly_eq_modByMonic (by rw [h, toField, toField, map_mul]), ofPoly_toPoly]

theorem mul_eq_gmul (a b : UInt8) : mul a b = Rijndael.gmul a b :=
  mul_eq_of_toField (toField_gmul a b)

theorem one_mul_eq (x : UInt8) : mul 1 x = x :=
  mul_eq_of_toField (by rw [toField_one, one_mul])

theorem two_mul_eq (x : UInt8) : mul 2 x = Rijndael.xtime x :=
  mul_eq_of_toField (by rw [toField_xtime, toField_two])

theorem three_mul_eq (x : UInt8) : mul 3 x = Rijndael.xtime x ^^^ x :=
  mul_eq_of_toField (by rw [toField_xor, toField_xtime, toField_three]; ring)

end Standard.Aes

end CipherEngine
