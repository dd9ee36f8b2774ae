/-!
# Double-precision values read from decimal text

A TOML float is read into the double-precision value nearest to its decimal text (ties to
an even mantissa), and a message shows it again with the fewest decimal digits that read
back to the same value.  Both directions are computed exactly, on natural numbers: a value
is `± m · 2 ^ e` with `m < 2 ^ 53` and `e ≥ -1074`, and no machine float is used.

* `ofDecimal` rounds `digits · 10 ^ exp10` to the nearest value; past the largest finite
  value it gives an infinity, and below half the smallest one it gives zero.
* `shortest` finds, for a positive finite value, the shortest digit string inside the
  interval of reals that round to it (its ends included when `m` is even), and among those
  of that length the one closest to the value, the upper one on a tie.
* `display` writes the value as positional decimal text with no exponent, in a `Style`
  that fixes the texts of NaN and infinity and whether `.0` is added to whole numbers.
-/

set_option autoImplicit false

namespace CipherEngine

namespace Toml

/-- A double-precision value. -/
inductive Binary64 where
  /-- `± mantissa · 2 ^ exponent`, with `mantissa < 2 ^ 53` and `exponent ≥ -1074`. -/
  | finite (negative : Bool) (mantissa : Nat) (exponent : Int)
  | infinite (negative : Bool)
  | nan
  deriving DecidableEq, Repr

namespace Binary64

/-! ## 1. Exact comparisons -/

/-- `x · 2 ^ e` as a fraction. -/
def scale2 (x : Nat) (e : Int) : Nat × Nat :=
  if 0 ≤ e then (x * Nat.pow 2 e.toNat, 1) else (x, Nat.pow 2 (-e).toNat)

/-- `x · 10 ^ p` as a fraction. -/
def scale10 (x : Nat) (p : Int) : Nat × Nat :=
  if 0 ≤ p then (x * Nat.pow 10 p.toNat, 1) else (x, Nat.pow 10 (-p).toNat)

/-- Compares two fractions with positive denominators. -/
def cmpFrac (a b : Nat × Nat) : Ordering := compare (a.1 * b.2) (b.1 * a.2)

/-- `⌊log₂ (num / den)⌋` for positive `num` and `den`: the difference of the integer
logarithms is that or one more. -/
def floorLog2 (num den : Nat) : Int :=
  let l : Int := (Nat.log2 num : Int) - (Nat.log2 den : Int)
  if cmpFrac (num, den) (scale2 1 l) = .lt then l - 1 else l

/-- The number of decimal digits of a positive number. -/
def decimalLength (n : Nat) : Nat := (Nat.toDigits 10 n).length

/-! ## 2. Reading -/

/-- The value nearest to `± digits · 10 ^ exp10`, ties to an even mantissa. -/
def ofDecimal (negative : Bool) (digits : Nat) (exp10 : Int) : Binary64 :=
  if digits = 0 then .finite negative 0 (-1074)
  else
    let magnitude : Int := (decimalLength digits : Int) + exp10
    if 310 < magnitude then .infinite negative
    else if magnitude < -330 then .finite negative 0 (-1074)
    else
      let q := scale10 digits exp10
      let e := max (floorLog2 q.1 q.2 - 52) (-1074)
      let s : Nat × Nat := if 0 ≤ e then (q.1, q.2 * Nat.pow 2 e.toNat) else (q.1 * Nat.pow 2 (-e).toNat, q.2)
      let whole := s.1 / s.2
      let twice := 2 * (s.1 % s.2)
      let m := if s.2 < twice || (twice = s.2 && whole % 2 = 1) then whole + 1 else whole
      let (m, e) := if m = Nat.pow 2 53 then (Nat.pow 2 52, e + 1) else (m, e)
      if 971 < e then .infinite negative else .finite negative m e

/-! ## 3. Shortest digits -/

/-- `c · 10 ^ p` compared with `x · 2 ^ e`. -/
def cmpDecimal (c : Nat) (p : Int) (x : Nat) (e : Int) : Ordering :=
  cmpFrac (scale10 c p) (scale2 x e)

/-- The decimal exponent of `m · 2 ^ e`: the `k` with `10 ^ k ≤ m · 2 ^ e < 10 ^ (k + 1)`,
found from an estimate by stepping, at most `fuel` times. -/
def decimalExponent (m : Nat) (e : Int) : Nat → Int → Int
  | 0, k => k
  | fuel + 1, k =>
    if cmpDecimal 1 k m e = .gt then decimalExponent m e fuel (k - 1)
    else if cmpDecimal 1 (k + 1) m e ≠ .gt then decimalExponent m e fuel (k + 1)
    else k

/-- The digits `d` and exponent `p` of the shortest `d · 10 ^ p` that rounds to the positive
value `m · 2 ^ e`, trying `k` significant digits and then more, at most `fuel` lengths.
In quarter units `2 ^ (e - 2)` the value is `4 m`, and the values that round to it reach
from `low` to `4 m + 2`. -/
def shortestFrom (m : Nat) (e : Int) (top : Int) (low : Nat) (inclusive : Bool) :
    Nat → Nat → Nat × Int
  | 0, _ => (m, e)
  | fuel + 1, k =>
    let p := top - k + 1
    let below := scale2 m e
    let step := scale10 1 p
    let lo := (below.1 * step.2) / (below.2 * step.1)
    let above (o : Ordering) := o = .gt || (inclusive && o = .eq)
    let under (o : Ordering) := o = .lt || (inclusive && o = .eq)
    let okLo := above (cmpDecimal lo p low (e - 2))
    let okHi := under (cmpDecimal (lo + 1) p (4 * m + 2) (e - 2))
    if okLo && okHi then
      if cmpDecimal (2 * lo + 1) p (2 * m) e = .gt then (lo, p) else (lo + 1, p)
    else if okLo then (lo, p)
    else if okHi then (lo + 1, p)
    else shortestFrom m e top low inclusive fuel (k + 1)

/-- Digits and exponent with the trailing zeros of the digits moved into the exponent. -/
def stripZeros : Nat → Nat → Int → Nat × Int
  | 0, d, p => (d, p)
  | fuel + 1, d, p => if d ≠ 0 && d % 10 = 0 then stripZeros fuel (d / 10) (p + 1) else (d, p)

/-- The shortest decimal `d · 10 ^ p` that rounds to the positive value `m · 2 ^ e`. -/
def shortest (m : Nat) (e : Int) : Nat × Int :=
  let l : Int := (Nat.log2 m : Int) + e
  let estimate : Int := (l * 30103) / 100000
  let top := decimalExponent m e 8 estimate
  let low := if m = Nat.pow 2 52 && decide (-1074 < e) then 4 * m - 1 else 4 * m - 2
  let (d, p) := shortestFrom m e top low (m % 2 = 0) 18 1
  stripZeros 20 d p

/-! ## 4. Display -/

/-- Digits `ds` scaled so that the value is `0.ds · 10 ^ point`, written positionally. -/
def positional (ds : String) (point : Int) : String :=
  if point ≤ 0 then "0." ++ String.ofList (List.replicate (-point).toNat '0') ++ ds
  else if point.toNat < ds.length then
    String.ofList (ds.toList.take point.toNat) ++ "." ++ String.ofList (ds.toList.drop point.toNat)
  else ds ++ String.ofList (List.replicate (point.toNat - ds.length) '0')

/-- The choices a writer of doubles makes beyond the digits: the texts of NaN and of an
infinity (a minus sign goes before it), and whether a number written without a point gets
`.0`. -/
structure Style where
  nan : String
  infinity : String
  pointAlways : Bool
  deriving DecidableEq, Repr

/-- The value in a style: the shortest digits, positional, with the sign of zero kept. -/
def display (style : Style) : Binary64 → String
  | .nan => style.nan
  | .infinite negative => (if negative then "-" else "") ++ style.infinity
  | .finite negative m e =>
    let sign := if negative then "-" else ""
    let text := if m = 0 then "0" else
      let (d, p) := shortest m e
      let ds := String.ofList (Nat.toDigits 10 d)
      positional ds ((ds.length : Int) + p)
    sign ++ (if style.pointAlways && !text.toList.contains '.' then text ++ ".0" else text)

/-- A positive value that is not finite is refused by the reader. -/
def isPositiveInfinity : Binary64 → Bool
  | .infinite negative => !negative
  | _ => false

end Binary64

end Toml

end CipherEngine
