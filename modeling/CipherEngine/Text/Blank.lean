/-!
# Blank characters

Trimming removes the characters of the White_Space property from both ends of a string:
the ASCII controls from tab to carriage return, the space, the next-line control, the
no-break spaces and the typographic spaces and separators.

Main statement: `isBlank_of_isWhitespace`, every character that core counts as white space
is blank here too.
-/

namespace CipherEngine

namespace Unicode

/-- The White_Space code points. -/
def blankRanges : List (Nat × Nat) := [
  (0x9, 0xD), (0x20, 0x20), (0x85, 0x85), (0xA0, 0xA0), (0x1680, 0x1680),
  (0x2000, 0x200A), (0x2028, 0x2029), (0x202F, 0x202F), (0x205F, 0x205F), (0x3000, 0x3000)]

/-- A character of the White_Space property. -/
def isBlank (c : Char) : Bool := blankRanges.any fun r => r.1 ≤ c.toNat && c.toNat ≤ r.2

theorem isBlank_of_isWhitespace (c : Char) (h : c.isWhitespace = true) : isBlank c = true := by
  simp only [Char.isWhitespace, Bool.or_eq_true, decide_eq_true_eq] at h
  rcases h with ((h | h) | h) | h <;> subst h <;> decide

end Unicode

end CipherEngine
