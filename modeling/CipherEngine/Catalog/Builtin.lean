import CipherEngine.Catalog.Basic

/-!
# The built-in catalog

The algorithms and modes the engine knows before any manifest is read.  Three algorithms
have a cipher unit behind them (`arcfour`, `idea`, `rijndael-128`); the others are
described only, so their sizes can be asked but nothing can run them.  Every built-in
mode is implemented by the unit of its own name.
-/

namespace CipherEngine

namespace Builtin

/-- The chunk size of the stream driver, in blocks, when none is asked for. -/
def defaultBufferBlocks : Nat := 1024

/-- An algorithm entry from its sizes, class and unit. -/
def algorithm (name : String) (keySize : Nat) (keySizes : List Nat) (ivSize blockSize : Nat)
    (isBlock : Bool) (unit : Option String) : AlgorithmEntry :=
  ⟨⟨name, keySize, keySizes, ivSize, blockSize, isBlock⟩, unit⟩

/-- A mode entry, implemented by the unit of its own name. -/
def mode (name : String) (isBlockMode isBlockAlgorithmMode requiresIv : Bool) : ModeEntry :=
  ⟨⟨name, isBlockMode, isBlockAlgorithmMode, requiresIv⟩, some name⟩

/-- The built-in algorithms. -/
def algorithms : List AlgorithmEntry :=
  [ algorithm "arcfour" 256 [] 0 1 false (some "arcfour"),
    algorithm "blowfish" 56 [] 8 8 true none,
    algorithm "cast-256" 32 [16, 24, 32] 16 16 true none,
    algorithm "enigma" 13 [] 0 1 false none,
    algorithm "idea" 16 [16] 8 8 true (some "idea"),
    algorithm "rijndael-128" 32 [16, 24, 32] 16 16 true (some "rijndael"),
    algorithm "saferplus" 32 [16, 24, 32] 16 16 true none,
    algorithm "tripledes" 24 [24] 8 8 true none,
    algorithm "twofish" 32 [16, 24, 32] 16 16 true none,
    algorithm "wake" 32 [32] 32 1 false none ]

/-- The built-in modes. -/
def modes : List ModeEntry :=
  [ mode "cbc" true true true,
    mode "cfb" false true true,
    mode "ctr" true true true,
    mode "ecb" true true false,
    mode "ncfb" true true true,
    mode "nofb" true true true,
    mode "ofb" false true true,
    mode "stream" false false false ]

end Builtin

/-- The catalog of the built-in algorithms and modes. -/
def Catalog.builtin : Catalog :=
  Builtin.modes.foldl Catalog.insertMode (Builtin.algorithms.foldl Catalog.insertAlgorithm .empty)

end CipherEngine
