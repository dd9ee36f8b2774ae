import CipherEngine.Toml.Decode
import CipherEngine.Catalog.Manifest

/-!
# Reading manifests as TOML

The reader the engine runs with: a manifest's text is a TOML document whose top-level
table holds the manifest's fields and nothing else.  `Toml.readRecord` reads the table
against the manifest's schema, refusing unknown fields and values of the wrong type, and a
field the record requires must be there.  A field left out takes its default: no name,
no listed key sizes, no vector.

This is one `ManifestReader`; what is proved about loading holds for every reader.
-/

set_option autoImplicit false

namespace CipherEngine

namespace Manifest

open Toml

/-- The fields of an algorithm manifest, in the order it declares them. -/
def algorithmSchema : Schema :=
  [("name", .text), ("unit", .text), ("key_size", .count), ("key_sizes", .counts),
    ("iv_size", .count), ("block_size", .count), ("is_block_algorithm", .flag)]

/-- The fields of a mode manifest, in the order it declares them. -/
def modeSchema : Schema :=
  [("name", .text), ("unit", .text), ("is_block_mode", .flag),
    ("is_block_algorithm_mode", .flag), ("requires_iv", .flag)]

/-- Reads an algorithm manifest's text: the record of its schema, with the unit, the key
size, the block size and the class required. -/
def readAlgorithmToml (text : String) : Except String AlgorithmManifest := do
  let r ← readRecord algorithmSchema text
  let unit ← r.require Fields.text? "unit"
  let keySize ← r.require Fields.count? "key_size"
  let blockSize ← r.require Fields.count? "block_size"
  let isBlock ← r.require Fields.flag? "is_block_algorithm"
  pure ⟨r.text? "name", unit, keySize, (r.counts? "key_sizes").getD [],
    (r.count? "iv_size").getD 0, blockSize, isBlock⟩

/-- Reads a mode manifest's text: the record of its schema, with the unit and the three
flags required. -/
def readModeToml (text : String) : Except String ModeManifest := do
  let r ← readRecord modeSchema text
  let unit ← r.require Fields.text? "unit"
  let isBlockMode ← r.require Fields.flag? "is_block_mode"
  let isBlockAlgorithmMode ← r.require Fields.flag? "is_block_algorithm_mode"
  let requiresIv ← r.require Fields.flag? "requires_iv"
  pure ⟨r.text? "name", unit, isBlockMode, isBlockAlgorithmMode, requiresIv⟩

/-- The manifest reader of TOML texts. -/
def tomlReader : ManifestReader := ⟨readAlgorithmToml, readModeToml⟩

end Manifest

end CipherEngine
