/-!
# Machine-word arithmetic

Lengths, counts and unit sizes are machine words of 64 bits.  A product of two of them
that passes the word's range wraps around: the value kept is the true value modulo `2^64`.
This module names the modulus and the reduction, so that every computation that can wrap
is written as the true value followed by `wrap`, and the statements about it say when the
reduction changes nothing.

Main statement: `wrap_of_lt`, a value below the modulus is kept as it is.
-/

namespace CipherEngine

namespace MachineWord

/-- The number of values a machine word holds. -/
def modulus : Nat := Nat.pow 2 64

/-- The largest machine word. -/
def max : Nat := modulus - 1

/-- The value a machine word keeps of a true value. -/
def wrap (n : Nat) : Nat := n % modulus

theorem modulus_pos : 0 < modulus := by decide

theorem wrap_lt (n : Nat) : wrap n < modulus :=
  Nat.mod_lt n modulus_pos

theorem wrap_of_lt {n : Nat} (h : n < modulus) : wrap n = n :=
  Nat.mod_eq_of_lt h

theorem wrap_of_le_max {n : Nat} (h : n ≤ max) : wrap n = n := by
  apply wrap_of_lt
  have := modulus_pos
  unfold max at h
  omega

end MachineWord

end CipherEngine
