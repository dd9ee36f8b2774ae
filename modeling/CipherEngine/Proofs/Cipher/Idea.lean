import Mathlib.FieldTheory.Finite.Basic
import Mathlib.Tactic.NormNum.Prime
import CipherEngine.Primitive.Idea.Basic

/-!
# IDEA decryption inverts encryption

IDEA decrypts by running its own rounds under the inverted schedule (`Idea.invertKey`), so
the inverse rests on three facts.

* The group operations are undone by the inverted keys: the multiplicative inverse, computed
  as the power 65535, inverts in the field of 65537 elements (`Idea.mul_mul_mulInv`), and the
  additive inverse negates.  The multiplication is read in `ZMod 65537` through `Idea.elem`,
  where it is the product (`Idea.elem_mul`).
* The mixing layer of a round is its own inverse: it adds to each half of the block a value
  that depends only on the sum of the two halves, which it leaves alone
  (`Idea.mixLayer_mixLayer`).
* Each round ends by swapping the two middle words, so the key layer of a middle
  decryption round meets the encryption keys with those two words swapped; the inverted
  schedule swaps the two additive keys to match (`Idea.keysAt_invertKey_middle`).

Decryption round `j` then takes the block back from where encryption round `8 - j` left it to
where round `7 - j` did (`Idea.rounds_invertKey`), and `Idea.crypt_invertKey` is the inverse
on every block of eight bytes, for every key.

Read back in numbers, a word is the residue it stands for (`Idea.eq_enc_of_elem_eq`), so the
word operations are those of IDEA's description: the product and the power 65535 modulo
2¹⁶ + 1, with 0 standing for 2¹⁶ (`Idea.word_arith_mod_prime`).
-/

set_option autoImplicit false

namespace CipherEngine

namespace Idea

/-! ## 1. The multiplicative group -/

instance fact_prime : Fact (Nat.Prime 65537) := ⟨by norm_num⟩

/-- A word as an element of the field with 65537 elements; 0 stands for 2¹⁶. -/
def elem (x : UInt16) : ZMod 65537 := (dec x : ZMod 65537)

theorem dec_pos (x : UInt16) : 0 < dec x := by
  unfold dec
  split
  · decide
  · rename_i h
    have : x.toNat ≠ 0 := fun h' => h (UInt16.toNat_inj.mp (by simpa using h'))
    omega

theorem dec_le (x : UInt16) : dec x ≤ 65536 := by
  unfold dec
  split
  · exact Nat.le_refl _
  · have := UInt16.toNat_lt x
    simp at this
    omega

theorem dec_of_ne_zero {x : UInt16} (h : x ≠ 0) : dec x = x.toNat := by
  simp [dec, h]

theorem dec_injective {x y : UInt16} (h : dec x = dec y) : x = y := by
  have hx : x.toNat < 65536 := UInt16.toNat_lt x
  have hy : y.toNat < 65536 := UInt16.toNat_lt y
  unfold dec at h
  split at h <;> split at h
  · simp_all
  · omega
  · omega
  · exact UInt16.toNat_inj.mp h

theorem elem_injective {x y : UInt16} (h : elem x = elem y) : x = y := by
  apply dec_injective
  rw [elem, elem, ZMod.natCast_eq_natCast_iff'] at h
  have hx := dec_le x
  have hy := dec_le y
  rwa [Nat.mod_eq_of_lt (by omega), Nat.mod_eq_of_lt (by omega)] at h

theorem elem_ne_zero (x : UInt16) : elem x ≠ 0 := by
  intro h
  rw [elem, ZMod.natCast_eq_zero_iff] at h
  have := Nat.le_of_dvd (dec_pos x) h
  have := dec_le x
  omega

/-- A value between 1 and 2¹⁶ is stored as a word that stands for it. -/
theorem dec_enc {n : Nat} (h0 : 0 < n) (h1 : n ≤ 65536) : dec (enc n) = n := by
  rcases Nat.lt_or_eq_of_le h1 with hlt | rfl
  · have hn : (enc n).toNat = n := by simp [enc]; omega
    have hne : enc n ≠ 0 := fun h => by rw [h] at hn; simp at hn; omega
    rw [dec_of_ne_zero hne, hn]
  · rfl

theorem elem_toUInt16 {v : Nat} (h0 : 0 < v) (h1 : v ≤ 65536) :
    elem v.toUInt16 = (v : ZMod 65537) := by
  rw [elem, ← enc, dec_enc h0 h1]

theorem elem_of_ne_zero {x : UInt16} (h : x ≠ 0) : elem x = (x.toNat : ZMod 65537) := by
  rw [elem, dec_of_ne_zero h]

theorem elem_zero : elem 0 = -1 := by
  decide

theorem elem_one : elem 1 = 1 := by
  decide

theorem enc_dec (x : UInt16) : enc (dec x) = x := by
  by_cases hx : x = 0
  · subst hx
    decide
  · rw [dec_of_ne_zero hx, enc, Nat.toUInt16_eq, UInt16.ofNat_toNat]

/-- A word is the word of the residue of any number it stands for in the field. -/
theorem eq_enc_of_elem_eq {x : UInt16} {n : Nat} (h : elem x = n) : x = enc (n % 65537) := by
  have hlt : dec x < 65537 := Nat.lt_succ_of_le (dec_le x)
  rw [elem, ZMod.natCast_eq_natCast_iff', Nat.mod_eq_of_lt hlt] at h
  rw [← h, enc_dec]

/-- A product of two words of the group is not a multiple of the prime. -/
theorem not_dvd_mul {a b : UInt16} (ha : a ≠ 0) (hb : b ≠ 0) :
    ¬ 65537 ∣ a.toNat * b.toNat := by
  have hpa := dec_pos a
  have hpb := dec_pos b
  have hla : a.toNat < 65536 := UInt16.toNat_lt a
  have hlb : b.toNat < 65536 := UInt16.toNat_lt b
  rw [dec_of_ne_zero ha] at hpa
  rw [dec_of_ne_zero hb] at hpb
  intro h
  rcases (Nat.Prime.dvd_mul Fact.out).mp h with h | h
  · have := Nat.le_of_dvd hpa h; omega
  · have := Nat.le_of_dvd hpb h; omega

/-- Multiplying by 2¹⁶, which is -1: the word `65537 - b` stands for `-b`. -/
theorem elem_mul_zero_left (b : UInt16) : elem (mul 0 b) = elem 0 * elem b := by
  have hb : b.toNat < 65536 := UInt16.toNat_lt b
  by_cases hb0 : b = 0
  · subst hb0
    decide
  · have hpos := dec_pos b
    rw [dec_of_ne_zero hb0] at hpos
    simp only [mul, if_true]
    rw [elem_toUInt16 (by omega) (by omega), elem_zero, elem_of_ne_zero hb0,
      Nat.cast_sub (by omega)]
    have h65537 : ((65537 : Nat) : ZMod 65537) = 0 := by decide
    rw [h65537]
    ring

/-- **Multiplication of words is the product in the field**, with 0 standing for 2¹⁶. -/
theorem elem_mul (a b : UInt16) : elem (mul a b) = elem a * elem b := by
  by_cases ha : a = 0
  · subst ha
    exact elem_mul_zero_left b
  by_cases hb : b = 0
  · subst hb
    have hswap : mul a 0 = mul 0 a := by simp [mul, ha]
    rw [hswap, elem_mul_zero_left, mul_comm]
  -- two words of the group: the product reduced by `2¹⁶ ≡ -1`
  have hla : a.toNat < 65536 := UInt16.toNat_lt a
  have hlb : b.toNat < 65536 := UInt16.toNat_lt b
  have hnd := not_dvd_mul ha hb
  have hpa := dec_pos a
  have hpb := dec_pos b
  rw [dec_of_ne_zero ha] at hpa
  rw [dec_of_ne_zero hb] at hpb
  rw [elem_of_ne_zero ha, elem_of_ne_zero hb, ← Nat.cast_mul]
  generalize hp : a.toNat * b.toNat = p at hnd
  have hplt : p < 65536 * 65536 := by
    rw [← hp]
    exact Nat.mul_lt_mul'' hla hlb
  have hdiv := Nat.div_add_mod p 65536
  simp only [mul, ha, hb, if_false, hp]
  split
  · rename_i hle
    have hne : p % 65536 - p / 65536 ≠ 0 := by
      intro h0
      apply hnd
      exact ⟨p / 65536, by omega⟩
    rw [elem_toUInt16 (by omega) (by omega), ZMod.natCast_eq_natCast_iff']
    omega
  · rw [elem_toUInt16 (by omega) (by omega), ZMod.natCast_eq_natCast_iff']
    omega

/-- **Multiplication is the product modulo 2¹⁶ + 1**, read back as a word: the low-minus-high
reduction and the two operands that stand for 2¹⁶ all agree with it. -/
theorem mul_eq_enc (a b : UInt16) : mul a b = enc (dec a * dec b % 65537) := by
  apply eq_enc_of_elem_eq
  rw [elem_mul, elem, elem, Nat.cast_mul]

/-- Square and multiply computes the power, modulo the prime. -/
theorem powMod_eq : ∀ (fuel base exp acc : Nat), exp < 2 ^ fuel →
    (powMod base exp acc fuel : ZMod 65537) = acc * base ^ exp
  | 0, base, exp, acc, h => by
    have : exp = 0 := by simpa using h
    subst this
    simp [powMod]
  | fuel + 1, base, exp, acc, h => by
    unfold powMod
    by_cases he : exp = 0
    · subst he
      simp
    rw [if_neg he, powMod_eq fuel _ _ _ (by rw [Nat.pow_succ] at h; omega)]
    have hsq : ((base * base % 65537 : Nat) : ZMod 65537) = (base : ZMod 65537) ^ 2 := by
      rw [ZMod.natCast_mod, Nat.cast_mul, sq]
    rw [hsq, ← pow_mul]
    split
    · rename_i hodd
      have hexp : (base : ZMod 65537) ^ exp = base * base ^ (2 * (exp / 2)) := by
        rw [← pow_succ', show 2 * (exp / 2) + 1 = exp by omega]
      rw [ZMod.natCast_mod, Nat.cast_mul, hexp]
      ring
    · rw [show 2 * (exp / 2) = exp by omega]

theorem powMod_lt : ∀ (fuel base exp acc : Nat), acc < 65537 → powMod base exp acc fuel < 65537
  | 0, _, _, _, h => h
  | fuel + 1, base, exp, acc, h => by
    unfold powMod
    split
    · exact h
    · exact powMod_lt fuel _ _ _ (by split <;> omega)

/-- What the square-and-multiply loop computes, as a number: the power, reduced. -/
theorem powMod_eq_mod {fuel exp acc : Nat} (base : Nat) (hexp : exp < 2 ^ fuel)
    (hacc : acc < 65537) : powMod base exp acc fuel = acc * base ^ exp % 65537 := by
  have hcast := powMod_eq fuel base exp acc hexp
  rw [← Nat.cast_pow, ← Nat.cast_mul, ZMod.natCast_eq_natCast_iff',
    Nat.mod_eq_of_lt (powMod_lt fuel base exp acc hacc)] at hcast
  exact hcast

/-- **The inverse is the power 65535**, reduced: the loop computes it for the words above 1,
and 0 and 1, which skip the loop, are their own powers (2¹⁶ is -1, an odd power of it is -1). -/
theorem mulInv_eq_enc (x : UInt16) : mulInv x = enc (dec x ^ 65535 % 65537) := by
  unfold mulInv
  split
  · rename_i hle
    have hle' : x.toNat ≤ 1 := by simpa [UInt16.le_iff_toNat_le] using hle
    apply eq_enc_of_elem_eq
    rcases (by omega : x.toNat = 0 ∨ x.toNat = 1) with h | h
    · have hx : x = 0 := UInt16.toNat_inj.mp (by simpa using h)
      subst hx
      have hm1 : ((dec 0 : Nat) : ZMod 65537) = -1 := by decide
      rw [Nat.cast_pow, hm1, Odd.neg_one_pow (by decide), elem_zero]
    · have hx : x = 1 := UInt16.toNat_inj.mp (by simpa using h)
      subst hx
      rw [show dec 1 = 1 from rfl, one_pow, Nat.cast_one, elem_one]
  · rename_i hgt
    have hx0 : x ≠ 0 := by rintro rfl; exact hgt (by decide)
    rw [powMod_eq_mod _ (by decide) (by decide), one_mul, dec_of_ne_zero hx0, enc]

/-- Fermat's little theorem: the power 65535 is the inverse in the field. -/
theorem inv_elem_eq_pow (x : UInt16) : (elem x)⁻¹ = elem x ^ 65535 := by
  symm
  apply eq_inv_of_mul_eq_one_left
  rw [← pow_succ]
  exact ZMod.pow_card_sub_one_eq_one (elem_ne_zero x)

/-- **The multiplicative inverse inverts**, read in the field. -/
theorem elem_mulInv (x : UInt16) : elem (mulInv x) = (elem x)⁻¹ := by
  have hpow : ((dec x ^ 65535 : Nat) : ZMod 65537) = (elem x)⁻¹ := by
    rw [Nat.cast_pow, ← elem, inv_elem_eq_pow]
  -- the power is no multiple of the prime, so its residue is a word's number
  have hne : dec x ^ 65535 % 65537 ≠ 0 := by
    intro h0
    have hzero := (ZMod.natCast_eq_zero_iff _ _).mpr (Nat.dvd_of_mod_eq_zero h0)
    rw [hpow] at hzero
    exact inv_ne_zero (elem_ne_zero x) hzero
  have hle : dec x ^ 65535 % 65537 ≤ 65536 := Nat.le_of_lt_succ (Nat.mod_lt _ (by decide))
  rw [mulInv_eq_enc, enc, elem_toUInt16 (Nat.pos_of_ne_zero hne) hle, ZMod.natCast_mod, hpow]

/-- Multiplying by a key and then by its inverse gives the word back. -/
theorem mul_mul_mulInv (x k : UInt16) : mul (mul x k) (mulInv k) = x := by
  apply elem_injective
  rw [elem_mul, elem_mul, elem_mulInv, mul_assoc, mul_inv_cancel₀ (elem_ne_zero k), mul_one]

/-- Adding a key and then its negation gives the word back. -/
theorem add_add_addInv (x k : UInt16) : x + k + addInv k = x := by
  unfold addInv
  grind

theorem mul_mulInv (x : UInt16) : mul x (mulInv x) = 1 := by
  apply elem_injective
  rw [elem_mul, elem_mulInv, mul_inv_cancel₀ (elem_ne_zero x), elem_one]

theorem addInv_add (x : UInt16) : addInv x + x = 0 := by
  unfold addInv
  grind

/-- **The word arithmetic of IDEA, in numbers.**  Multiplication is the product modulo
2¹⁶ + 1 and the multiplicative inverse the power 65535, both with 0 standing for 2¹⁶; the two
inverses invert. -/
theorem word_arith_mod_prime :
    (∀ a b : UInt16, mul a b = enc (dec a * dec b % 65537)) ∧
      (∀ x : UInt16, mulInv x = enc (dec x ^ 65535 % 65537)) ∧
      (∀ x : UInt16, mul x (mulInv x) = 1) ∧
      (∀ x : UInt16, addInv x + x = 0) :=
  ⟨mul_eq_enc, mulInv_eq_enc, mul_mulInv, addInv_add⟩

/-! ## 2. Blocks as four words -/

theorem or_mul_256 {l : Nat} (hl : l < 256) (h : Nat) : l ||| h * 256 = h * 256 + l := by
  rw [Nat.or_comm, Nat.mul_comm, show (256 : Nat) = 2 ^ 8 from rfl,
    Nat.two_pow_add_eq_or_of_lt (by simpa using hl)]

/-- A word is its two bytes joined. -/
theorem join_wordBytes (w : UInt16) :
    w.toUInt8.toUInt16 ||| ((w >>> 8).toUInt8.toUInt16 <<< 8) = w := by
  apply UInt16.toNat_inj.mp
  have hw : w.toNat < 65536 := UInt16.toNat_lt w
  simp only [UInt16.toNat_or, UInt16.toNat_shiftLeft, UInt16.toNat_shiftRight,
    UInt16.toNat_toUInt8, UInt8.toNat_toUInt16, Nat.shiftLeft_eq, Nat.shiftRight_eq_div_pow]
  simp only [UInt16.reduceToNat, Nat.reduceMod, Nat.reducePow]
  rw [show w.toNat / 256 % 256 * 256 % 65536 = w.toNat / 256 * 256 by omega,
    or_mul_256 (by omega)]
  omega

/-- Two bytes joined into a word come back out of it. -/
theorem wordBytes_join (lo hi : UInt8) :
    wordBytes (lo.toUInt16 ||| (hi.toUInt16 <<< 8)) = [lo, hi] := by
  have hl : lo.toNat < 256 := UInt8.toNat_lt lo
  have hh : hi.toNat < 256 := UInt8.toNat_lt hi
  have hword : (lo.toUInt16 ||| (hi.toUInt16 <<< 8)).toNat = hi.toNat * 256 + lo.toNat := by
    simp only [UInt16.toNat_or, UInt16.toNat_shiftLeft, UInt8.toNat_toUInt16, Nat.shiftLeft_eq]
    simp only [UInt16.reduceToNat, Nat.reduceMod, Nat.reducePow]
    rw [show hi.toNat * 256 % 65536 = hi.toNat * 256 by omega, or_mul_256 hl]
  simp only [wordBytes, List.cons.injEq, and_true]
  constructor
  · apply UInt8.toNat_inj.mp
    rw [UInt16.toNat_toUInt8, hword]
    omega
  · apply UInt8.toNat_inj.mp
    rw [UInt16.toNat_toUInt8, UInt16.toNat_shiftRight, hword]
    simp only [UInt16.reduceToNat, Nat.reduceMod, Nat.shiftRight_eq_div_pow, Nat.reducePow]
    omega

/-- The four words of a block, as the rounds read them. -/
def wordsOf (b : Bytes) : UInt16 × UInt16 × UInt16 × UInt16 :=
  (wordAt b 0, wordAt b 1, wordAt b 2, wordAt b 3)

/-- The block of four words, as the output transformation writes them. -/
def bytesOf (x : UInt16 × UInt16 × UInt16 × UInt16) : Bytes :=
  wordBytes x.1 ++ wordBytes x.2.1 ++ wordBytes x.2.2.1 ++ wordBytes x.2.2.2

/-- The words of an eight-byte block, each low byte first. -/
theorem wordsOf_eight (b0 b1 b2 b3 b4 b5 b6 b7 : UInt8) :
    wordsOf [b0, b1, b2, b3, b4, b5, b6, b7] =
      (b0.toUInt16 ||| (b1.toUInt16 <<< 8), b2.toUInt16 ||| (b3.toUInt16 <<< 8),
        b4.toUInt16 ||| (b5.toUInt16 <<< 8), b6.toUInt16 ||| (b7.toUInt16 <<< 8)) :=
  rfl

theorem wordsOf_bytesOf (x : UInt16 × UInt16 × UInt16 × UInt16) : wordsOf (bytesOf x) = x := by
  obtain ⟨x0, x1, x2, x3⟩ := x
  simp only [bytesOf, wordBytes, List.cons_append, List.nil_append, wordsOf_eight, join_wordBytes]

theorem bytesOf_wordsOf : ∀ b : Bytes, b.length = 8 → bytesOf (wordsOf b) = b
  | [b0, b1, b2, b3, b4, b5, b6, b7], _ => by
    simp only [wordsOf_eight, bytesOf, wordBytes_join, List.cons_append, List.nil_append]

/-! ## 3. The layers of a round -/

/-- The key layer: the outer words multiplied by keys, the middle ones added to keys. -/
def keyLayer (k0 k1 k2 k3 : UInt16) (x : UInt16 × UInt16 × UInt16 × UInt16) :
    UInt16 × UInt16 × UInt16 × UInt16 :=
  (mul x.1 k0, x.2.1 + k1, x.2.2.1 + k2, mul x.2.2.2 k3)

/-- The mixing layer before the swap: each half of the block gets a value that depends only
on the sum of the two halves. -/
def mixLayer (k4 k5 : UInt16) (x : UInt16 × UInt16 × UInt16 × UInt16) :
    UInt16 × UInt16 × UInt16 × UInt16 :=
  let t0 := mul k4 (x.1 ^^^ x.2.2.1)
  let t1 := mul k5 ((x.2.1 ^^^ x.2.2.2) + t0)
  let t2 := t0 + t1
  (x.1 ^^^ t1, t2 ^^^ x.2.1, x.2.2.1 ^^^ t1, x.2.2.2 ^^^ t2)

/-- The two middle words swapped. -/
def swapMiddle (x : UInt16 × UInt16 × UInt16 × UInt16) : UInt16 × UInt16 × UInt16 × UInt16 :=
  (x.1, x.2.2.1, x.2.1, x.2.2.2)

/-- The key layer of round `r`, under a schedule; round 8 is the output transformation. -/
def keysAt (k : Array UInt16) (r : Nat) :
    UInt16 × UInt16 × UInt16 × UInt16 → UInt16 × UInt16 × UInt16 × UInt16 :=
  keyLayer (k.getD (6 * r) 0) (k.getD (6 * r + 1) 0) (k.getD (6 * r + 2) 0) (k.getD (6 * r + 3) 0)

/-- The mixing layer of round `r`, under a schedule. -/
def mixAt (k : Array UInt16) (r : Nat) :
    UInt16 × UInt16 × UInt16 × UInt16 → UInt16 × UInt16 × UInt16 × UInt16 :=
  mixLayer (k.getD (6 * r + 4) 0) (k.getD (6 * r + 5) 0)

/-- The first `n` rounds, under a schedule. -/
def rounds (k : Array UInt16) (n : Nat) (x : UInt16 × UInt16 × UInt16 × UInt16) :
    UInt16 × UInt16 × UInt16 × UInt16 :=
  (List.range n).foldl (fun x r => round k r x) x

/-- A round is the key layer, the mixing layer and the swap. -/
theorem round_eq (k : Array UInt16) (r : Nat) (x : UInt16 × UInt16 × UInt16 × UInt16) :
    round k r x = swapMiddle (mixAt k r (keysAt k r x)) := by
  obtain ⟨x0, x1, x2, x3⟩ := x
  rfl

@[simp] theorem rounds_zero (k : Array UInt16) (x : UInt16 × UInt16 × UInt16 × UInt16) :
    rounds k 0 x = x := rfl

theorem rounds_succ (k : Array UInt16) (n : Nat) (x : UInt16 × UInt16 × UInt16 × UInt16) :
    rounds k (n + 1) x = round k n (rounds k n x) := by
  simp [rounds, List.range_succ]

/-- The cipher is the eight rounds, the swap undone, and the output key layer. -/
theorem crypt_eq (k : Array UInt16) (b : Bytes) :
    crypt k b = bytesOf (keysAt k 8 (swapMiddle (rounds k 8 (wordsOf b)))) := by
  unfold crypt rounds wordsOf
  generalize (List.range 8).foldl (fun x r => round k r x) _ = y
  obtain ⟨y0, y1, y2, y3⟩ := y
  rfl

@[simp] theorem swapMiddle_swapMiddle (x : UInt16 × UInt16 × UInt16 × UInt16) :
    swapMiddle (swapMiddle x) = x := rfl

/-- The inverted keys undo the key layer. -/
theorem keyLayer_inv (k0 k1 k2 k3 : UInt16) (x : UInt16 × UInt16 × UInt16 × UInt16) :
    keyLayer (mulInv k0) (addInv k1) (addInv k2) (mulInv k3) (keyLayer k0 k1 k2 k3 x) = x := by
  obtain ⟨x0, x1, x2, x3⟩ := x
  simp [keyLayer, mul_mul_mulInv, add_add_addInv]

/-- A key layer with its additive keys swapped is the key layer conjugated by the swap. -/
theorem keyLayer_swapMiddle (k0 k1 k2 k3 : UInt16) (x : UInt16 × UInt16 × UInt16 × UInt16) :
    keyLayer k0 k2 k1 k3 (swapMiddle x) = swapMiddle (keyLayer k0 k1 k2 k3 x) := rfl

theorem xor_xor_cancel_right (a b t : UInt16) : (a ^^^ t) ^^^ (b ^^^ t) = a ^^^ b := by
  rw [UInt16.xor_assoc, UInt16.xor_comm b t, ← UInt16.xor_assoc t, UInt16.xor_self,
    UInt16.zero_xor]

/-- **The mixing layer is its own inverse**: it leaves the sums of the two halves alone, so
applied again it adds the same values, which cancel. -/
theorem mixLayer_mixLayer (k4 k5 : UInt16) (x : UInt16 × UInt16 × UInt16 × UInt16) :
    mixLayer k4 k5 (mixLayer k4 k5 x) = x := by
  obtain ⟨x0, x1, x2, x3⟩ := x
  simp only [mixLayer]
  generalize ht0 : mul k4 (x0 ^^^ x2) = t0
  generalize ht1 : mul k5 ((x1 ^^^ x3) + t0) = t1
  have hx02 : (x0 ^^^ t1) ^^^ (x2 ^^^ t1) = x0 ^^^ x2 := xor_xor_cancel_right x0 x2 t1
  have hx13 : ((t0 + t1) ^^^ x1) ^^^ (x3 ^^^ (t0 + t1)) = x1 ^^^ x3 := by
    rw [UInt16.xor_comm _ x1]
    exact xor_xor_cancel_right x1 x3 (t0 + t1)
  rw [hx02, ht0, hx13, ht1]
  simp only [Prod.mk.injEq]
  refine ⟨?_, ?_, ?_, ?_⟩
  · rw [UInt16.xor_assoc, UInt16.xor_self, UInt16.xor_zero]
  · rw [← UInt16.xor_assoc, UInt16.xor_self, UInt16.zero_xor]
  · rw [UInt16.xor_assoc, UInt16.xor_self, UInt16.xor_zero]
  · rw [UInt16.xor_assoc, UInt16.xor_self, UInt16.xor_zero]

theorem mixAt_mixAt (k : Array UInt16) (r : Nat) (x : UInt16 × UInt16 × UInt16 × UInt16) :
    mixAt k r (mixAt k r x) = x :=
  mixLayer_mixLayer _ _ x

/-! ## 4. The inverted schedule -/

/-- Subkey `i` of the inverted schedule. -/
theorem getD_invertKey (k : Array UInt16) {i : Nat} (hi : i < 52) :
    (invertKey k).getD i 0 =
      match i % 6 with
      | 0 => mulInv (k.getD (6 * (8 - i / 6)) 0)
      | 1 => addInv (k.getD (if i / 6 = 0 ∨ i / 6 = 8 then 6 * (8 - i / 6) + 1
          else 6 * (8 - i / 6) + 2) 0)
      | 2 => addInv (k.getD (if i / 6 = 0 ∨ i / 6 = 8 then 6 * (8 - i / 6) + 2
          else 6 * (8 - i / 6) + 1) 0)
      | 3 => mulInv (k.getD (6 * (8 - i / 6) + 3) 0)
      | 4 => k.getD (6 * (7 - i / 6) + 4) 0
      | _ => k.getD (6 * (7 - i / 6) + 5) 0 := by
  rw [invertKey, Array.getD_eq_getD_getElem?, List.getElem?_toArray, List.getElem?_map,
    List.getElem?_range hi]
  rfl

/-- Key layer `j` of the inverted schedule: the inverses of the keys of encryption's key layer
`8 - j`, the two additive keys swapped except in the two outer layers. -/
theorem keysAt_invertKey (k : Array UInt16) {j : Nat} (h8 : j ≤ 8) :
    keysAt (invertKey k) j =
      keyLayer (mulInv (k.getD (6 * (8 - j)) 0))
        (addInv (k.getD (if j = 0 ∨ j = 8 then 6 * (8 - j) + 1 else 6 * (8 - j) + 2) 0))
        (addInv (k.getD (if j = 0 ∨ j = 8 then 6 * (8 - j) + 2 else 6 * (8 - j) + 1) 0))
        (mulInv (k.getD (6 * (8 - j) + 3) 0)) := by
  simp only [keysAt, getD_invertKey k (by omega : 6 * j < 52),
    getD_invertKey k (by omega : 6 * j + 1 < 52), getD_invertKey k (by omega : 6 * j + 2 < 52),
    getD_invertKey k (by omega : 6 * j + 3 < 52), show 6 * j / 6 = j by omega,
    show (6 * j + 1) / 6 = j by omega, show (6 * j + 2) / 6 = j by omega,
    show (6 * j + 3) / 6 = j by omega, show 6 * j % 6 = 0 by omega,
    show (6 * j + 1) % 6 = 1 by omega, show (6 * j + 2) % 6 = 2 by omega,
    show (6 * j + 3) % 6 = 3 by omega]

/-- **An outer decryption round undoes the other outer key layer**: the first round of
decryption undoes the output transformation, and the output transformation of decryption
undoes the key layer of the first round. -/
theorem keysAt_invertKey_outer (k : Array UInt16) {j : Nat} (hj : j = 0 ∨ j = 8)
    (x : UInt16 × UInt16 × UInt16 × UInt16) :
    keysAt (invertKey k) j (keysAt k (8 - j) x) = x := by
  rw [keysAt_invertKey k (by omega), if_pos hj, if_pos hj]
  exact keyLayer_inv _ _ _ _ x

/-- **A middle decryption round meets the swapped block**: its key layer, with the two
additive keys swapped, undoes the key layer of encryption round `8 - j` under the swap. -/
theorem keysAt_invertKey_middle (k : Array UInt16) {j : Nat} (h1 : 1 ≤ j) (h7 : j ≤ 7)
    (x : UInt16 × UInt16 × UInt16 × UInt16) :
    keysAt (invertKey k) j (swapMiddle (keysAt k (8 - j) x)) = swapMiddle x := by
  have hmid : ¬(j = 0 ∨ j = 8) := by omega
  rw [keysAt_invertKey k (by omega), if_neg hmid, if_neg hmid, keyLayer_swapMiddle]
  exact congrArg swapMiddle (keyLayer_inv _ _ _ _ x)

/-- Decryption round `j` mixes with the keys of encryption round `7 - j`. -/
theorem mixAt_invertKey (k : Array UInt16) {j : Nat} (h7 : j ≤ 7) :
    mixAt (invertKey k) j = mixAt k (7 - j) := by
  simp only [mixAt, getD_invertKey k (by omega : 6 * j + 4 < 52),
    getD_invertKey k (by omega : 6 * j + 5 < 52), show (6 * j + 4) / 6 = j by omega,
    show (6 * j + 5) / 6 = j by omega, show (6 * j + 4) % 6 = 4 by omega,
    show (6 * j + 5) % 6 = 5 by omega]

/-! ## 5. Decryption undoes encryption -/

/-- **Decryption round `i` undoes encryption round `7 - i`**: after `i + 1` decryption
rounds, the block is where encryption left it after `7 - i` rounds and the next key layer,
with the middle words swapped.  By induction on the decryption rounds. -/
theorem rounds_invertKey (k : Array UInt16) (x : UInt16 × UInt16 × UInt16 × UInt16) :
    ∀ i, i ≤ 7 → rounds (invertKey k) (i + 1) (keysAt k 8 (swapMiddle (rounds k 8 x))) =
      swapMiddle (keysAt k (7 - i) (rounds k (7 - i) x))
  | 0, _ => by
    rw [rounds_succ, rounds_zero, round_eq, keysAt_invertKey_outer k (.inl rfl),
      mixAt_invertKey k (by decide), Nat.sub_zero, rounds_succ k 7, round_eq,
      swapMiddle_swapMiddle, mixAt_mixAt]
  | i + 1, hi => by
    rw [rounds_succ, rounds_invertKey k x i (by omega), round_eq,
      show 7 - i = 8 - (i + 1) by omega, keysAt_invertKey_middle k (by omega) hi,
      mixAt_invertKey k hi, show 8 - (i + 1) = (7 - (i + 1)) + 1 by omega, rounds_succ k,
      round_eq, swapMiddle_swapMiddle, mixAt_mixAt]

/-- **IDEA under the inverted schedule undoes IDEA**, on every block of eight bytes and for
every schedule. -/
theorem crypt_invertKey (k : Array UInt16) {b : Bytes} (hb : b.length = 8) :
    crypt (invertKey k) (crypt k b) = b := by
  rw [crypt_eq k, crypt_eq (invertKey k), wordsOf_bytesOf,
    rounds_invertKey k (wordsOf b) 7 (by decide), swapMiddle_swapMiddle]
  simp only [Nat.sub_self, rounds_zero]
  rw [keysAt_invertKey_outer k (.inr rfl), bytesOf_wordsOf b hb]

end Idea

end CipherEngine
