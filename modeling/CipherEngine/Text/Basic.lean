import CipherEngine.Text.Printable
import CipherEngine.Text.Blank

/-!
# Quoting, trimming and reading counts

Messages show user text quoted: between double quotes, with the quote, the backslash and
the usual control characters escaped by a backslash, and every character that is not
printable, or that would combine with the character before it, written as `\u` and its
code point in lowercase hexadecimal.  Everything else, ASCII or not, is shown as it is.

Counts are read the way the machine-word parse reads them: an optional `+`, then one or
more ASCII digits, and a value that fits the word.  Nothing else is taken; surrounding
blanks must be trimmed first, with `trim`, which removes White_Space at both ends.
-/

namespace CipherEngine

namespace Text

/-! ## 1. Quoting -/

/-- A number in lowercase hexadecimal, without leading zeros. -/
def lowerHex (n : Nat) : String := String.ofList (Nat.toDigits 16 n)

/-- How one character is shown inside a quoted string. -/
def escapeChar (c : Char) : String :=
  match c with
  | '\x00' => "\\0"
  | '\t' => "\\t"
  | '\r' => "\\r"
  | '\n' => "\\n"
  | '\\' => "\\\\"
  | '"' => "\\\""
  | c =>
    if Unicode.isGraphemeExtend c || !Unicode.isPrintable c then
      "\\u\x7b" ++ lowerHex c.toNat ++ "\x7d"
    else c.toString

/-- A string shown between double quotes, escaped as above. -/
def quote (s : String) : String :=
  "\"" ++ String.join (s.toList.map escapeChar) ++ "\""

/-! ## 2. Trimming and counts -/

/-- The string without White_Space at either end. -/
def trim (s : String) : String :=
  String.ofList ((s.toList.dropWhile Unicode.isBlank).reverse.dropWhile
    Unicode.isBlank).reverse

/-- The value of a string of ASCII digits. -/
def digitsValue (cs : List Char) : Nat :=
  cs.foldl (fun acc c => 10 * acc + (c.toNat - '0'.toNat)) 0

/-- The value of one or more ASCII digits, when it is below `bound`. -/
def countOfDigits? (digits : List Char) (bound : Nat) : Option Nat :=
  if digits.isEmpty || !digits.all Char.isDigit then none
  else if digitsValue digits < bound then some (digitsValue digits) else none

/-- Reads a count below `bound`: an optional `+` and at least one ASCII digit, nothing
else. -/
def parseCount? (s : String) (bound : Nat) : Option Nat :=
  match s.toList with
  | '+' :: rest => countOfDigits? rest bound
  | cs => countOfDigits? cs bound

theorem countOfDigits?_lt {digits : List Char} {bound n : Nat}
    (h : countOfDigits? digits bound = some n) : n < bound := by
  unfold countOfDigits? at h
  split at h
  · cases h
  · split at h
    · cases h; assumption
    · cases h

theorem parseCount?_lt {s : String} {bound n : Nat} (h : parseCount? s bound = some n) :
    n < bound := by
  unfold parseCount? at h
  split at h <;> exact countOfDigits?_lt h

end Text

end CipherEngine
