/-!
# Accepted key lengths

An algorithm either lists the key lengths it takes, or takes every length from one byte up
to its largest key.  The same value is shown in error messages: the list joined by commas,
or the range written `1..=max`.

Main statement: `accepts_upTo`, a range accepts exactly the lengths from one to its bound.
-/

namespace CipherEngine

/-- The key lengths an algorithm takes. -/
inductive AcceptedKeySizes where
  /-- Exactly the listed lengths. -/
  | discrete (sizes : List Nat)
  /-- Every length from one up to `max`. -/
  | upTo (max : Nat)
  deriving DecidableEq, Repr

namespace AcceptedKeySizes

/-- Whether a key of `len` bytes is taken. -/
def accepts : AcceptedKeySizes → Nat → Bool
  | .discrete sizes, len => sizes.contains len
  | .upTo max, len => 0 < len && len ≤ max

/-- The text shown for the accepted lengths: `16, 24, 32` or `1..=256`. -/
def render : AcceptedKeySizes → String
  | .discrete sizes => ", ".intercalate (sizes.map toString)
  | .upTo max => "1..=" ++ toString max

theorem accepts_upTo (max len : Nat) : (upTo max).accepts len = true ↔ 0 < len ∧ len ≤ max := by
  simp [accepts]

theorem accepts_discrete (sizes : List Nat) (len : Nat) :
    (discrete sizes).accepts len = true ↔ len ∈ sizes := by
  simp [accepts]

end AcceptedKeySizes

end CipherEngine
