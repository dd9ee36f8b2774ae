import CipherEngine.Toml.Decode
import CipherEngine.Catalog.Builtin
import CipherEngine.Error
import CipherEngine.MachineWord

/-!
# Engine configuration

The configuration names the two manifest directories, both optional, and the default
number of blocks in a stream chunk.  It is read from TOML text (or a file holding it), or
from variables; every way ends with the same check, that a chunk holds at least one block.

* In TOML every field is optional and unknown fields are refused; the reader's message is
  reported as a parameter error of `engine config`.
* Among the variables, `MCRYPT_ALGORITHM_DIR` and `MCRYPT_MODE_DIR` are taken as they are,
  and `MCRYPT_BUFFER_BLOCKS` is trimmed and read as a count; when it is not one, the
  message shows the variable's text quoted, untrimmed.
-/

set_option autoImplicit false

namespace CipherEngine

/-- The configuration of an engine. -/
structure EngineConfig where
  algorithmDir : Option String
  modeDir : Option String
  bufferBlocks : Nat
  deriving DecidableEq, Repr

namespace EngineConfig

/-- No manifest directories, and the built-in chunk size. -/
def default : EngineConfig := ⟨none, none, Builtin.defaultBufferBlocks⟩

/-- The variable naming the algorithm manifest directory. -/
def algorithmDirVar : String := "MCRYPT_ALGORITHM_DIR"

/-- The variable naming the mode manifest directory. -/
def modeDirVar : String := "MCRYPT_MODE_DIR"

/-- The variable giving the chunk size in blocks. -/
def bufferBlocksVar : String := "MCRYPT_BUFFER_BLOCKS"

/-- Counts must fit a machine word. -/
def countBound : Nat := MachineWord.modulus

/-- Accepts a configuration whose chunks hold at least one block. -/
def validate (c : EngineConfig) : Except EngineError EngineConfig :=
  if c.bufferBlocks = 0 then .error (.invalidParameter "buffer_blocks" "must be at least 1")
  else .ok c

/-- The fields of the TOML form, in the order it declares them. -/
def schema : Toml.Schema :=
  [("algorithm_dir", .path), ("mode_dir", .path), ("buffer_blocks", .count)]

/-- Reads a configuration from TOML text. -/
def ofToml (text : String) : Except EngineError EngineConfig :=
  match Toml.readRecord schema text with
  | .error m => .error (.invalidParameter "engine config" m)
  | .ok r =>
    validate ⟨r.text? "algorithm_dir", r.text? "mode_dir",
      (r.count? "buffer_blocks").getD default.bufferBlocks⟩

/-- Reads a configuration from a file's text; a missing file is not found. -/
def ofFile (text : Option String) : Except EngineError EngineConfig :=
  match text with
  | some t => ofToml t
  | none => .error (.io .notFound)

/-- Reads a configuration from variables; unset ones keep their defaults. -/
def ofLookup (lookup : String → Option String) : Except EngineError EngineConfig :=
  let c := default
  let c := match lookup algorithmDirVar with
    | some d => { c with algorithmDir := some d }
    | none => c
  let c := match lookup modeDirVar with
    | some d => { c with modeDir := some d }
    | none => c
  match lookup bufferBlocksVar with
  | none => validate c
  | some raw =>
    match Text.parseCount? (Text.trim raw) countBound with
    | some n => validate { c with bufferBlocks := n }
    | none => .error (.invalidParameter bufferBlocksVar ("not a block count: " ++ Text.quote raw))

/-- The default configuration with another chunk size, checked. -/
def withBufferBlocks (n : Nat) : Except EngineError EngineConfig :=
  validate { default with bufferBlocks := n }

theorem validate_ok_iff (c : EngineConfig) : validate c = .ok c ↔ c.bufferBlocks ≠ 0 := by
  unfold validate
  split <;> simp_all

end EngineConfig

end CipherEngine
