import CipherEngine.KeySizes

/-!
# Descriptors

A descriptor is what the catalog knows of an algorithm or a mode without running it: its
name, its sizes and its classification.  An entry pairs a descriptor with the name of the
cipher unit that implements it, if one does.
-/

namespace CipherEngine

/-- The sizes and class of an algorithm. -/
structure AlgorithmDescriptor where
  name : String
  /-- The largest key, in bytes. -/
  keySize : Nat
  /-- The exact key lengths taken, or empty when every length up to `keySize` is. -/
  keySizes : List Nat
  ivSize : Nat
  blockSize : Nat
  isBlockAlgorithm : Bool
  deriving DecidableEq, Repr

/-- The key lengths an algorithm takes: its list, or the range up to its largest key. -/
def AlgorithmDescriptor.acceptedKeySizes (d : AlgorithmDescriptor) : AcceptedKeySizes :=
  if d.keySizes.isEmpty then .upTo d.keySize else .discrete d.keySizes

/-- The class of a mode. -/
structure ModeDescriptor where
  name : String
  /-- The mode works on whole blocks, so buffers are padded. -/
  isBlockMode : Bool
  /-- The mode runs over a block algorithm. -/
  isBlockAlgorithmMode : Bool
  requiresIv : Bool
  deriving DecidableEq, Repr

/-- An algorithm known to the catalog, with the unit that implements it. -/
structure AlgorithmEntry where
  descriptor : AlgorithmDescriptor
  unit : Option String
  deriving DecidableEq, Repr

/-- A mode known to the catalog, with the unit that implements it. -/
structure ModeEntry where
  descriptor : ModeDescriptor
  unit : Option String
  deriving DecidableEq, Repr

end CipherEngine
