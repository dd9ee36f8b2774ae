/-!
# Byte strings

Every key, block, register and buffer of the engine is a byte string, kept as a list of
bytes with the first byte first.  This module holds the operations that the ciphers, the
modes and the padding rules share:

* `Bytes.zeros`, the string of `n` zero bytes;
* `Bytes.xor`, bytewise exclusive or, as long as the shorter operand;
* `Bytes.chunks`, the cut of a string into consecutive pieces of one size.

Main statements: `xor_xor_cancel` (xor with the same key twice is the identity) and
`flatten_chunks` (joining the pieces gives the string back).
-/

namespace CipherEngine

/-- A byte string, first byte first. -/
abbrev Bytes := List UInt8

namespace Bytes

/-! ## 1. Zero strings and exclusive or -/

/-- The string of `n` zero bytes. -/
def zeros (n : Nat) : Bytes := List.replicate n 0

/-- Bytewise exclusive or; the result is as long as the shorter operand.  The operands
are blocks and keys, so plain recursion is used. -/
def xor : Bytes → Bytes → Bytes
  | x :: xs, y :: ys => (x ^^^ y) :: xor xs ys
  | _, _ => []

/-- Exclusive or is the pairwise combination of the two strings. -/
theorem xor_eq_zipWith (a b : Bytes) : xor a b = List.zipWith (· ^^^ ·) a b := by
  induction a generalizing b with
  | nil => rfl
  | cons x xs ih =>
    cases b with
    | nil => rfl
    | cons y ys => simp [xor, ih]

@[simp] theorem length_zeros (n : Nat) : (zeros n).length = n := by
  simp [zeros]

@[simp] theorem length_xor (a b : Bytes) : (xor a b).length = min a.length b.length := by
  simp [xor_eq_zipWith]

theorem xor_xor_cancel (a k : Bytes) (h : a.length ≤ k.length) : xor (xor a k) k = a := by
  induction a generalizing k with
  | nil => rfl
  | cons x xs ih =>
    cases k with
    | nil => simp at h
    | cons y ys =>
      simp only [xor] at ih ⊢
      simp only [List.length_cons] at h
      rw [ih ys (by omega)]
      rw [UInt8.xor_assoc, UInt8.xor_self, UInt8.xor_zero]

/-! ## 2. Cutting into pieces -/

/-- The consecutive pieces of length `n` of a string, the last one possibly shorter.
A length of zero leaves the string whole. -/
def chunks (n : Nat) (b : Bytes) : List Bytes :=
  if n = 0 then [b] else
    match b with
    | [] => []
    | x :: xs => (x :: xs).take n :: chunks n ((x :: xs).drop n)
termination_by b.length
decreasing_by simp; omega

theorem flatten_chunks (n : Nat) (b : Bytes) : (chunks n b).flatten = b := by
  induction b using chunks.induct n with
  | case1 b h => rw [chunks.eq_def]; simp [h]
  | case2 h => rw [chunks.eq_def]; simp [h]
  | case3 h x xs ih => rw [chunks.eq_def]; simp [h, ih]

end Bytes

end CipherEngine
