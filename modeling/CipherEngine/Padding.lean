import CipherEngine.Bytes
import CipherEngine.MachineWord

/-!
# Zero padding and the length trailer

Block modes only see whole units.  Before encryption a buffer is filled with zero bytes to
the next multiple of the unit.  With the length trailer ("fixlength") the last byte of the
padded buffer records the input's length modulo the unit, and a whole unit is added when
the input already ends on a unit boundary; after decryption that byte tells how much of the
last unit to keep.  A unit of one byte (a byte mode) leaves every buffer as it is.

Lengths are machine words: the padded length is the true one (`fullPaddedLen`) reduced to
a word, so near the top of the word's range it wraps around; it never does while the
length and the unit together stay within the range (`paddedLen_eq_full`).

Main statements: `length_pad`, the padded buffer has `paddedLen` bytes, which is never
less than the input's length (`le_paddedLen`).
-/

namespace CipherEngine

namespace Padding

/-- The true length of a padded buffer of `len` bytes. -/
def fullPaddedLen (len unit : Nat) (fixlength : Bool) : Nat :=
  if unit ≤ 1 then len
  else if fixlength then (len / unit + 1) * unit
  else (len / unit + if len % unit = 0 then 0 else 1) * unit

/-- The length of a padded buffer of `len` bytes, as a machine word. -/
def paddedLen (len unit : Nat) (fixlength : Bool) : Nat :=
  MachineWord.wrap (fullPaddedLen len unit fixlength)

/-- The buffer with its last byte replaced by `remainder` modulo 256; empty stays empty. -/
def writeTrailer (b : Bytes) (remainder : Nat) : Bytes :=
  match b with
  | [] => []
  | x :: xs => (x :: xs).dropLast ++ [remainder.toUInt8]

/-- The input followed by zeros up to `paddedLen`, with the trailer when asked for. -/
def pad (data : Bytes) (unit : Nat) (fixlength : Bool) : Bytes :=
  let out := data ++ Bytes.zeros (paddedLen data.length unit fixlength - data.length)
  if fixlength && decide (1 < unit) then writeTrailer out (data.length % unit) else out

/-- How much of a decrypted buffer to keep: the last unit is cut to the length its
trailer records, and a trailer above the unit keeps the whole unit. -/
def recoveredLen (b : Bytes) (unit : Nat) : Nat :=
  if unit ≤ 1 ∨ b.length < unit then b.length
  else b.length - unit + min (b.getLast?.getD 0).toNat unit

/-- The longest whole number of units within `len` bytes. -/
def wholeUnits (len unit : Nat) : Nat :=
  if unit ≤ 1 then len else len - len % unit

/-! ## Laws -/

theorem le_fullPaddedLen (len unit : Nat) (fixlength : Bool) :
    len ≤ fullPaddedLen len unit fixlength := by
  unfold fullPaddedLen
  split
  · exact Nat.le_refl _
  · have hu : 0 < unit := by omega
    have h := Nat.div_add_mod len unit
    have hm := Nat.mod_lt len hu
    split
    · rw [Nat.add_mul, Nat.one_mul, Nat.mul_comm]; omega
    · split
      · rw [Nat.add_zero, Nat.mul_comm]; omega
      · rw [Nat.add_mul, Nat.one_mul, Nat.mul_comm]; omega

/-- Padding adds at most one unit. -/
theorem fullPaddedLen_le (len unit : Nat) (fixlength : Bool) :
    fullPaddedLen len unit fixlength ≤ len + unit := by
  unfold fullPaddedLen
  split
  · omega
  · have hu : 0 < unit := by omega
    have h := Nat.div_add_mod len unit
    have hm := Nat.mod_lt len hu
    split
    · rw [Nat.add_mul, Nat.one_mul, Nat.mul_comm]; omega
    · split
      · rw [Nat.add_zero, Nat.mul_comm]; omega
      · rw [Nat.add_mul, Nat.one_mul, Nat.mul_comm]; omega

/-- The padded length does not wrap while the length and the unit together fit a word. -/
theorem paddedLen_eq_full (len unit : Nat) (fixlength : Bool) (h : len + unit ≤ MachineWord.max) :
    paddedLen len unit fixlength = fullPaddedLen len unit fixlength := by
  unfold paddedLen
  apply MachineWord.wrap_of_le_max
  have := fullPaddedLen_le len unit fixlength
  omega

theorem le_paddedLen (len unit : Nat) (fixlength : Bool) (h : len + unit ≤ MachineWord.max) :
    len ≤ paddedLen len unit fixlength := by
  rw [paddedLen_eq_full len unit fixlength h]
  exact le_fullPaddedLen len unit fixlength

theorem length_writeTrailer (b : Bytes) (r : Nat) : (writeTrailer b r).length = b.length := by
  unfold writeTrailer
  split <;> simp

theorem length_pad (data : Bytes) (unit : Nat) (fixlength : Bool)
    (hw : data.length + unit ≤ MachineWord.max) :
    (pad data unit fixlength).length = paddedLen data.length unit fixlength := by
  have h := le_paddedLen data.length unit fixlength hw
  unfold pad
  split <;> simp [length_writeTrailer] <;> omega

theorem wholeUnits_le (len unit : Nat) : wholeUnits len unit ≤ len := by
  unfold wholeUnits; split <;> omega

end Padding

end CipherEngine
