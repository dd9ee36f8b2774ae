import Mathlib.Algebra.Order.Floor.Div
import CipherEngine.Proofs.Context.Streaming

/-!
# The layout of a padded buffer

With the length trailer, a buffer of `len` bytes is padded to one unit past its last whole
unit, that is to the ceiling of `(len + 1) / unit` units: the buffer, then zeros, then one
byte that records `len` modulo the unit.  Without the trailer the buffer is followed by
zeros up to the ceiling of `len / unit` units.

The trailer is a byte, so it keeps the remainder modulo 256.  Reading it back gives the
buffer's length exactly when the remainder fits in a byte (`Padding.recoveredLen_pad_true`),
which every unit of at most 256 bytes guarantees; a longer unit loses the length exactly
when the remainder is 256 or more.

Lengths are machine words, and the padded length is never more than the length and the unit
together (`Padding.fullPaddedLen_le`), so it does not wrap while they fit a word.  Every
buffer the padding can allocate is of that kind, and so are all the statements below.

Main statement: `Padding.pad_layout`, which gathers the lengths, both layouts, the recovery
and the absence of overflow.
-/

set_option autoImplicit false

namespace CipherEngine

namespace Padding

variable {unit : Nat}

/-! ## 1. Padded lengths -/

theorem fullPaddedLen_true (len : Nat) (h1 : 1 < unit) :
    fullPaddedLen len unit true = (len / unit + 1) * unit := by
  simp [fullPaddedLen, show ¬unit ≤ 1 by omega]

/-- One unit past the last whole unit is the ceiling of `(len + 1) / unit` units. -/
theorem div_add_one_mul_eq_ceilDiv (len : Nat) (h1 : 1 < unit) :
    (len / unit + 1) * unit = (len + 1) ⌈/⌉ unit * unit := by
  rw [Nat.ceilDiv_eq_add_pred_div, show len + 1 + unit - 1 = len + unit by omega,
    Nat.add_div_right _ (by omega)]

/-- Without the trailer, the padded length is the ceiling of `len / unit` units. -/
theorem fullPaddedLen_false (len : Nat) (h1 : 1 < unit) :
    fullPaddedLen len unit false = len ⌈/⌉ unit * unit := by
  have hu : 0 < unit := by omega
  have hdiv := Nat.div_add_mod len unit
  have hmod := Nat.mod_lt len hu
  have hcomm : unit * (len / unit) = len / unit * unit := Nat.mul_comm _ _
  have hceil : (len + unit - 1) / unit = len / unit + if len % unit = 0 then 0 else 1 := by
    apply Nat.div_eq_of_lt_le
    · split <;> simp only [Nat.add_zero, Nat.add_mul, Nat.one_mul] <;> omega
    · split <;> simp only [Nat.add_zero, Nat.succ_mul] <;> omega
  simp only [fullPaddedLen, show ¬unit ≤ 1 by omega, if_false, Bool.false_eq_true,
    Nat.ceilDiv_eq_add_pred_div, hceil]

/-- The padded length fits a word while the length and the unit together do. -/
theorem fullPaddedLen_le_max (len : Nat) (f : Bool) (hw : len + unit ≤ MachineWord.max) :
    fullPaddedLen len unit f ≤ MachineWord.max :=
  (fullPaddedLen_le len unit f).trans hw

/-! ## 2. What the padding writes -/

/-- A unit of at most one byte pads nothing. -/
theorem pad_of_le_one (p : Bytes) (hu : unit ≤ 1) (f : Bool)
    (hw : p.length ≤ MachineWord.max) : pad p unit f = p := by
  have hlen : paddedLen p.length unit f = p.length := by
    rw [paddedLen, fullPaddedLen, if_pos hu, MachineWord.wrap_of_le_max hw]
  simp [pad, hlen, show ¬1 < unit by omega, Bytes.zeros]

/-- Without the trailer, padding is zeros up to the next whole unit. -/
theorem pad_false (p : Bytes) (unit : Nat) (hw : p.length + unit ≤ MachineWord.max) :
    pad p unit false = p ++ Bytes.zeros ((unit - p.length % unit) % unit) := by
  have hzeros : fullPaddedLen p.length unit false - p.length =
      (unit - p.length % unit) % unit := by
    unfold fullPaddedLen
    split
    · rename_i hu
      rcases Nat.le_one_iff_eq_zero_or_eq_one.mp hu with rfl | rfl <;> simp [Nat.mod_one]
    · rename_i hu
      have hdiv := Nat.div_add_mod p.length unit
      have hmod := Nat.mod_lt p.length (by omega : 0 < unit)
      simp only [Bool.false_eq_true, if_false]
      split
      · rename_i h0
        rw [h0, Nat.add_zero, Nat.sub_zero, Nat.mod_self, Nat.mul_comm]
        omega
      · rw [Nat.add_mul, Nat.one_mul, Nat.mul_comm, Nat.mod_eq_of_lt (by omega)]
        omega
  simp [pad, paddedLen_eq_full _ _ _ hw, hzeros]

/-- Without the trailer, the zeros run up to the ceiling of `len / unit` units. -/
theorem pad_false_eq_ceilDiv (d : Bytes) (h1 : 1 < unit)
    (hw : d.length + unit ≤ MachineWord.max) :
    pad d unit false = d ++ Bytes.zeros (d.length ⌈/⌉ unit * unit - d.length) := by
  simp [pad, paddedLen_eq_full _ _ _ hw, fullPaddedLen_false _ h1]

/-- A trailer written over zeros leaves zeros in front of it. -/
theorem writeTrailer_zeros (n r : Nat) :
    writeTrailer (Bytes.zeros (n + 1)) r = Bytes.zeros n ++ [r.toUInt8] := by
  simp [writeTrailer, Bytes.zeros, List.replicate_succ]

/-- **With the trailer, a buffer is followed by zeros to the end of the unit after the one
it ends in, and the last byte records how far it reaches into its last unit.** -/
theorem pad_true (d : Bytes) (h1 : 1 < unit) (hw : d.length + unit ≤ MachineWord.max) :
    pad d unit true =
      d ++ Bytes.zeros (unit - d.length % unit - 1) ++ [(d.length % unit).toUInt8] := by
  have hdiv := Nat.div_add_mod d.length unit
  have hmod := Nat.mod_lt d.length (by omega : 0 < unit)
  have hzeros : paddedLen d.length unit true - d.length = (unit - d.length % unit - 1) + 1 := by
    rw [paddedLen_eq_full _ _ _ hw, fullPaddedLen_true _ h1, Nat.add_mul, Nat.one_mul,
      Nat.mul_comm]
    omega
  have hne : Bytes.zeros ((unit - d.length % unit - 1) + 1) ≠ [] := by
    simp [Bytes.zeros]
  simp only [pad, hzeros, Bool.true_and, decide_eq_true h1, if_true]
  rw [writeTrailer_append d hne, writeTrailer_zeros, List.append_assoc]

/-! ## 3. Reading the trailer back -/

/-- **The trailer gives back the whole units and the remainder modulo 256.** -/
theorem recoveredLen_pad_true (d : Bytes) (h1 : 1 < unit)
    (hw : d.length + unit ≤ MachineWord.max) :
    recoveredLen (pad d unit true) unit = d.length - d.length % unit + d.length % unit % 256 := by
  have hdiv := Nat.div_add_mod d.length unit
  have hmod := Nat.mod_lt d.length (by omega : 0 < unit)
  have hlen : (pad d unit true).length = d.length - d.length % unit + unit := by
    rw [length_pad _ _ _ hw, paddedLen_eq_full _ _ _ hw, fullPaddedLen_true _ h1, Nat.add_mul,
      Nat.one_mul, Nat.mul_comm]
    omega
  have hlast : (pad d unit true).getLast? = some (d.length % unit).toUInt8 := by
    rw [pad_true d h1 hw, List.getLast?_append]
    simp
  have htrailer : (d.length % unit).toUInt8.toNat = d.length % unit % 256 := by
    rw [Nat.toUInt8_eq, UInt8.toNat_ofNat']
  have hbyte : d.length % unit % 256 ≤ d.length % unit := Nat.mod_le _ _
  rw [recoveredLen, hlen, if_neg (by omega), hlast, Option.getD_some, htrailer,
    Nat.min_eq_left (by omega)]
  omega

/-- The length comes back exactly when the remainder fits in a byte. -/
theorem recoveredLen_pad_eq_iff (d : Bytes) (h1 : 1 < unit)
    (hw : d.length + unit ≤ MachineWord.max) :
    recoveredLen (pad d unit true) unit = d.length ↔ d.length % unit < 256 := by
  have hle := Nat.mod_le d.length unit
  rw [recoveredLen_pad_true d h1 hw]
  constructor
  · intro h
    have hkeep : d.length % unit % 256 = d.length % unit := by omega
    rw [← hkeep]
    exact Nat.mod_lt _ (by decide)
  · intro h
    rw [Nat.mod_eq_of_lt h]
    omega

/-- **The trailer cuts the padding off.**  For a unit of at most 256 bytes, reading the
trailer back keeps exactly the buffer. -/
theorem take_recoveredLen_pad (p : Bytes) (h1 : 1 < unit) (h256 : unit ≤ 256)
    (hw : p.length + unit ≤ MachineWord.max) :
    (pad p unit true).take (recoveredLen (pad p unit true) unit) = p := by
  have hfits : p.length % unit < 256 :=
    Nat.lt_of_lt_of_le (Nat.mod_lt _ (by omega)) h256
  rw [(recoveredLen_pad_eq_iff p h1 hw).mpr hfits, pad_true p h1 hw, List.append_assoc,
    List.take_left]

/-- What decrypting a padded buffer keeps: the buffer itself with the trailer, the buffer and
its zeros without it. -/
theorem unpad_pad (p : Bytes) (h256 : unit ≤ 256) (f : Bool)
    (hw : p.length + unit ≤ MachineWord.max) :
    (if f && decide (1 < unit) then (pad p unit f).take (recoveredLen (pad p unit f) unit)
      else pad p unit f) =
      if f then p else p ++ Bytes.zeros ((unit - p.length % unit) % unit) := by
  cases f with
  | false => simp only [Bool.false_and, Bool.false_eq_true, if_false, pad_false p unit hw]
  | true =>
    by_cases h1 : 1 < unit
    · simp only [Bool.true_and, decide_eq_true h1, if_true, take_recoveredLen_pad p h1 h256 hw]
    · have hu : unit ≤ 1 := by omega
      simp only [Bool.true_and, decide_eq_false h1, Bool.false_eq_true, if_false, if_true,
        pad_of_le_one p hu true (by omega)]

/-! ## 4. The layout as a whole -/

/-- **The layout of a padded buffer.**  Whatever the unit, the padded length never wraps
while the length and the unit together fit a word.  For a unit of 2 to 256 bytes and a
buffer `d` that fits with it: the buffer padded with the trailer has `paddedLen` bytes,
which is `(⌊|d| / unit⌋ + 1)` units, the ceiling of `(|d| + 1) / unit` units; it is `d`,
then zeros, then the byte `|d| mod unit`, and reading that byte back gives `|d|`; without
the trailer it is `d` followed by zeros up to the ceiling of `|d| / unit` units.  For a unit
above 256 bytes, the length is lost exactly when `|d| mod unit` is 256 or more. -/
theorem pad_layout (d : Bytes) (unit : Nat) (hw : d.length + unit ≤ MachineWord.max) :
    (∀ (len : Nat) (f : Bool), len + unit ≤ MachineWord.max →
        fullPaddedLen len unit f ≤ MachineWord.max ∧
          paddedLen len unit f = fullPaddedLen len unit f) ∧
    (2 ≤ unit → unit ≤ 256 →
      (pad d unit true).length = paddedLen d.length unit true ∧
      paddedLen d.length unit true = (d.length / unit + 1) * unit ∧
      (d.length / unit + 1) * unit = (d.length + 1) ⌈/⌉ unit * unit ∧
      pad d unit true =
        d ++ Bytes.zeros (unit - d.length % unit - 1) ++ [(d.length % unit).toUInt8] ∧
      (d.length % unit).toUInt8.toNat = d.length % unit ∧
      recoveredLen (pad d unit true) unit = d.length ∧
      pad d unit false = d ++ Bytes.zeros (d.length ⌈/⌉ unit * unit - d.length)) ∧
    (256 < unit →
      (recoveredLen (pad d unit true) unit ≠ d.length ↔ 256 ≤ d.length % unit)) := by
  refine ⟨fun len f hlen => ⟨fullPaddedLen_le_max len f hlen, paddedLen_eq_full len unit f hlen⟩,
    fun h2 h256 => ?_, fun h256 => ?_⟩
  · have h1 : 1 < unit := by omega
    have hfits : d.length % unit < 256 :=
      Nat.lt_of_lt_of_le (Nat.mod_lt _ (by omega)) h256
    refine ⟨length_pad d unit true hw, ?_, div_add_one_mul_eq_ceilDiv _ h1, pad_true d h1 hw,
      ?_, (recoveredLen_pad_eq_iff d h1 hw).mpr hfits, pad_false_eq_ceilDiv d h1 hw⟩
    · rw [paddedLen_eq_full _ _ _ hw, fullPaddedLen_true _ h1]
    · rw [Nat.toUInt8_eq, UInt8.toNat_ofNat', Nat.mod_eq_of_lt hfits]
  · rw [Ne, recoveredLen_pad_eq_iff d (by omega) hw, Nat.not_lt]

/-- Three bytes in units of eight recover their length, and 300 zeros in units of 512 do
not, their remainder being above a byte. -/
theorem pad_layout_abc :
    ([97, 98, 99] : Bytes).length + 8 ≤ MachineWord.max ∧
      recoveredLen (pad [97, 98, 99] 8 true) 8 = 3 ∧
    (Bytes.zeros 300).length + 512 ≤ MachineWord.max ∧
      recoveredLen (pad (Bytes.zeros 300) 512 true) 512 ≠ 300 := by
  have habc := (pad_layout [97, 98, 99] 8 (by decide)).2.1 (by decide) (by decide)
  have hzeros := (pad_layout (Bytes.zeros 300) 512 (by simp; decide)).2.2 (by decide)
  rw [Bytes.length_zeros] at hzeros
  exact ⟨by decide, habc.2.2.2.2.2.1, by simp; decide, hzeros.mpr (by decide)⟩

end Padding

end CipherEngine
