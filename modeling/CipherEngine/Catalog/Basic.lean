import CipherEngine.Descriptor
import CipherEngine.Error

/-!
# The catalog

The catalog names every algorithm and mode the engine knows, each once, in name order.
Adding an entry under a name already present replaces the old one, so a catalog built by
adding entries one after another keeps the last entry given for each name.

Resolving a name that is absent is an `unknownName` error of the matching kind, and
`validatePairing` refuses a block mode over a stream algorithm and the stream mode over a
block algorithm.

Main statements: `find_upsert` (after adding `x`, looking up its key finds `x`, and every
other key finds what it found before) and `validatePairing_ok_iff`.
-/

namespace CipherEngine

/-! ## 1. Lists kept in name order -/

/-- Adds `x` to a list sorted by `key`, replacing an element with the same key. -/
def upsert {α : Type} (key : α → String) (x : α) : List α → List α
  | [] => [x]
  | y :: ys =>
    if key x < key y then x :: y :: ys
    else if key x = key y then x :: ys
    else y :: upsert key x ys

theorem find_upsert {α : Type} (key : α → String) (x : α) (name : String) (l : List α) :
    (upsert key x l).find? (fun y => key y == name) =
      if key x = name then some x else l.find? (fun y => key y == name) := by
  induction l with
  | nil => by_cases h : key x = name <;> simp [upsert, h]
  | cons y ys ih =>
    unfold upsert
    by_cases hlt : key x < key y
    · rw [if_pos hlt]
      by_cases h : key x = name <;> simp [h]
    · rw [if_neg hlt]
      by_cases heq : key x = key y
      · rw [if_pos heq]
        by_cases h : key x = name
        · simp [h]
        · have hy : ¬ key y = name := fun e => h (heq.trans e)
          simp [h, hy]
      · rw [if_neg heq]
        by_cases hy : key y = name
        · have hx : ¬ key x = name := fun e => heq (e.trans hy.symm)
          simp [hx, hy]
        · simp [hy, ih]

/-! ## 2. Catalogs -/

/-- The algorithms and modes the engine knows, each list in name order. -/
structure Catalog where
  algorithms : List AlgorithmEntry
  modes : List ModeEntry
  deriving Repr

namespace Catalog

/-- The catalog that knows nothing. -/
def empty : Catalog := ⟨[], []⟩

/-- Adds an algorithm, replacing one of the same name. -/
def insertAlgorithm (c : Catalog) (e : AlgorithmEntry) : Catalog :=
  { c with algorithms := upsert (fun a => a.descriptor.name) e c.algorithms }

/-- Adds a mode, replacing one of the same name. -/
def insertMode (c : Catalog) (e : ModeEntry) : Catalog :=
  { c with modes := upsert (fun m => m.descriptor.name) e c.modes }

/-- The algorithm of a name. -/
def resolveAlgorithm (c : Catalog) (name : String) : Except EngineError AlgorithmEntry :=
  match c.algorithms.find? (fun a => a.descriptor.name == name) with
  | some e => .ok e
  | none => .error (.unknownName .algorithm name)

/-- The mode of a name. -/
def resolveMode (c : Catalog) (name : String) : Except EngineError ModeEntry :=
  match c.modes.find? (fun m => m.descriptor.name == name) with
  | some e => .ok e
  | none => .error (.unknownName .mode name)

/-- Refuses a block mode over a stream algorithm and the stream mode over a block one. -/
def validatePairing (a : AlgorithmDescriptor) (m : ModeDescriptor) : Except EngineError Unit :=
  match m.isBlockAlgorithmMode, a.isBlockAlgorithm with
  | true, false => .error (.incompatiblePairing a.name m.name .blockModeOnStream)
  | false, true => .error (.incompatiblePairing a.name m.name .streamModeOnBlock)
  | _, _ => .ok ()

theorem validatePairing_ok_iff (a : AlgorithmDescriptor) (m : ModeDescriptor) :
    validatePairing a m = .ok () ↔ m.isBlockAlgorithmMode = a.isBlockAlgorithm := by
  unfold validatePairing
  cases m.isBlockAlgorithmMode <;> cases a.isBlockAlgorithm <;> simp

/-- The names of the algorithms, in order. -/
def algorithmNames (c : Catalog) : List String := c.algorithms.map (·.descriptor.name)

/-- The names of the modes, in order. -/
def modeNames (c : Catalog) : List String := c.modes.map (·.descriptor.name)

end Catalog

end CipherEngine
