import CipherEngine.Descriptor
import CipherEngine.Registry

/-!
# Descriptor manifests

A manifest is a TOML file that describes one algorithm or one mode and names the cipher
unit that implements it.  Its name is the manifest's `name` field, or else the file's
stem.  What it declares must agree with the unit:

* an algorithm's block size must be the unit's, and it is a block algorithm exactly when
  the unit is; a block unit takes either no vector (`iv_size = 0`) or one block;
* a mode is a block-algorithm mode and a block mode exactly when its unit is.

The checks run in a fixed order and the first that fails is reported: the name, the sizes,
the listed key sizes, the unit, then the unit's geometry.

Reading the text is not the engine's own work: a TOML parser deserialises it into the
manifest's record, or refuses it with a message.  The engine takes that reader as a
`ManifestReader` and checks whatever record it gives, so every statement about loading
holds for every reader.
-/

set_option autoImplicit false

namespace CipherEngine

/-- Why a manifest is refused. -/
inductive ManifestFault where
  /-- The text is not TOML, or not a manifest: the reader's message. -/
  | unreadable (message : String)
  | emptyName
  | zeroSize
  | keySizesOutOfRange
  | unknownAlgorithmUnit (unit : String)
  | blockSizeContradicts (declared : Nat) (unit : String) (actual : Nat)
  | blockAlgorithmContradicts (unit : String)
  | ivSizeContradicts (declared : Nat) (unit : String) (blockSize : Nat)
  | unknownModeUnit (unit : String)
  | blockAlgorithmModeContradicts (unit : String)
  | blockModeContradicts (unit : String)
  deriving DecidableEq, Repr

/-- The message of a refusal. -/
def ManifestFault.message : ManifestFault → String
  | .unreadable m => m
  | .emptyName => "name must not be empty"
  | .zeroSize => "key_size and block_size must be non-zero"
  | .keySizesOutOfRange => "key_sizes must lie in 1..=key_size"
  | .unknownAlgorithmUnit u => "unknown algorithm unit '" ++ u ++ "'"
  | .blockSizeContradicts b u ub =>
    "block_size " ++ toString b ++ " contradicts unit '" ++ u ++ "' (" ++ toString ub ++ ")"
  | .blockAlgorithmContradicts u => "is_block_algorithm contradicts unit '" ++ u ++ "'"
  | .ivSizeContradicts i u b =>
    "iv_size " ++ toString i ++ " contradicts unit '" ++ u ++ "' (0 or " ++ toString b ++ ")"
  | .unknownModeUnit u => "unknown mode unit '" ++ u ++ "'"
  | .blockAlgorithmModeContradicts u => "is_block_algorithm_mode contradicts unit '" ++ u ++ "'"
  | .blockModeContradicts u => "is_block_mode contradicts unit '" ++ u ++ "'"

/-- An algorithm manifest as its reader gives it: the name it declares, if any, the unit,
and the geometry, with `key_sizes` empty and `iv_size` zero when the text leaves them out. -/
structure AlgorithmManifest where
  name : Option String
  unit : String
  keySize : Nat
  keySizes : List Nat
  ivSize : Nat
  blockSize : Nat
  isBlockAlgorithm : Bool
  deriving DecidableEq, Repr

/-- A mode manifest as its reader gives it. -/
structure ModeManifest where
  name : Option String
  unit : String
  isBlockMode : Bool
  isBlockAlgorithmMode : Bool
  requiresIv : Bool
  deriving DecidableEq, Repr

/-- How a manifest's text becomes its record: parsed and deserialised, or refused with the
reader's message. -/
structure ManifestReader where
  algorithm : String → Except String AlgorithmManifest
  mode : String → Except String ModeManifest

namespace Manifest

/-- Fails with `fault` unless `ok`. -/
def ensure (ok : Bool) (fault : ManifestFault) : Except ManifestFault Unit :=
  if ok then .ok () else .error fault

/-- The checks of an algorithm's declared geometry against its unit, in order. -/
def checkAlgorithm (name unit : String) (keySize : Nat) (keySizes : List Nat)
    (ivSize blockSize : Nat) (isBlock : Bool) : Except ManifestFault Unit := do
  ensure (!name.isEmpty) .emptyName
  ensure (keySize != 0 && blockSize != 0) .zeroSize
  ensure (keySizes.all fun s => s != 0 && s ≤ keySize) .keySizesOutOfRange
  let u ← match Registry.algorithmUnit? unit with
    | some u => .ok u
    | none => .error (.unknownAlgorithmUnit unit)
  ensure (u.blockSize == blockSize) (.blockSizeContradicts blockSize u.name u.blockSize)
  ensure (u.isBlock == isBlock) (.blockAlgorithmContradicts u.name)
  ensure (!u.isBlock || ivSize == 0 || ivSize == u.blockSize)
    (.ivSizeContradicts ivSize u.name u.blockSize)

/-- Reads an algorithm manifest named by `stem` unless it names itself. -/
def algorithmEntry (reader : ManifestReader) (stem text : String) :
    Except ManifestFault AlgorithmEntry := do
  let m ← (reader.algorithm text).mapError .unreadable
  let name := m.name.getD stem
  checkAlgorithm name m.unit m.keySize m.keySizes m.ivSize m.blockSize m.isBlockAlgorithm
  pure ⟨⟨name, m.keySize, m.keySizes, m.ivSize, m.blockSize, m.isBlockAlgorithm⟩, some m.unit⟩

/-- The checks of a mode's declared class against its unit, in order. -/
def checkMode (name unit : String) (isBlockMode isBlockAlgorithmMode : Bool) :
    Except ManifestFault Unit := do
  ensure (!name.isEmpty) .emptyName
  let u ← match Registry.modeUnit? unit with
    | some u => .ok u
    | none => .error (.unknownModeUnit unit)
  ensure (u.isBlockAlgorithmMode == isBlockAlgorithmMode) (.blockAlgorithmModeContradicts u.name)
  ensure (u.isBlockMode == isBlockMode) (.blockModeContradicts u.name)

/-- Reads a mode manifest named by `stem` unless it names itself. -/
def modeEntry (reader : ManifestReader) (stem text : String) : Except ManifestFault ModeEntry := do
  let m ← (reader.mode text).mapError .unreadable
  let name := m.name.getD stem
  checkMode name m.unit m.isBlockMode m.isBlockAlgorithmMode
  pure ⟨⟨name, m.isBlockMode, m.isBlockAlgorithmMode, m.requiresIv⟩, some m.unit⟩

end Manifest

end CipherEngine
