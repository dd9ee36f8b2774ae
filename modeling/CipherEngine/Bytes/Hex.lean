import CipherEngine.Bytes

/-!
# Hexadecimal text of byte strings

Byte strings travel as text of two hexadecimal digits a byte, high half first.  Writing
uses lowercase digits; reading takes either case and refuses an odd number of digits or
a character that is no digit.
-/

namespace CipherEngine

/-- Why a text is no hexadecimal byte string. -/
inductive HexError where
  /-- The text has an odd number of characters. -/
  | oddLength
  /-- A character is no hexadecimal digit. -/
  | badDigit (c : Char)
  deriving DecidableEq, Repr

/-- The sentence reported for a text that cannot be read. -/
def HexError.message : HexError → String
  | .oddLength => "odd-length hex"
  | .badDigit _ => "invalid hex digit"

namespace Bytes

/-- The lowercase digit of a value below sixteen. -/
def hexDigit (v : Nat) : Char :=
  if v < 10 then Char.ofNat (48 + v) else Char.ofNat (87 + v)

/-- The value of a hexadecimal digit of either case. -/
def hexValue? (c : Char) : Option Nat :=
  if '0' ≤ c ∧ c ≤ '9' then some (c.toNat - 48)
  else if 'a' ≤ c ∧ c ≤ 'f' then some (c.toNat - 87)
  else if 'A' ≤ c ∧ c ≤ 'F' then some (c.toNat - 55)
  else none

/-- The two digits a byte is written as. -/
def hexPair (x : UInt8) : List Char := [hexDigit (x.toNat / 16), hexDigit (x.toNat % 16)]

/-- The hexadecimal text of a byte string. -/
def toHex (b : Bytes) : String := String.ofList (b.flatMap hexPair)

/-- Reads digits two at a time. -/
def ofHexDigits : List Char → Except HexError Bytes
  | [] => .ok []
  | [_] => .error .oddLength
  | hi :: lo :: rest =>
    match hexValue? hi, hexValue? lo with
    | some h, some l => do
      let tail ← ofHexDigits rest
      pure ((16 * h + l).toUInt8 :: tail)
    | none, _ => .error (.badDigit hi)
    | _, none => .error (.badDigit lo)

/-- Reads a hexadecimal text; an odd length is refused before any digit is looked at. -/
def ofHex (s : String) : Except HexError Bytes :=
  if s.length % 2 = 1 then .error .oddLength else ofHexDigits s.toList

end Bytes

end CipherEngine
