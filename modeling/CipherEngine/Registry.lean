import CipherEngine.Mode.Keyed

/-!
# Cipher units and their registry

A cipher unit is the code behind catalog entries: an algorithm unit makes a keyed cipher,
a mode unit builds a keyed mode over it.  The registry lists the units the engine has, in
a fixed order, and `Registry.load` pairs an algorithm unit with a mode unit after checking
that a block algorithm meets a block-algorithm mode.

A loaded unit is keyed by `LoadedUnit.initState`, which builds the mode afresh and forgets
any earlier state first, so a refused key leaves the unit unkeyed.
-/

namespace CipherEngine

/-! ## 1. Algorithm units -/

/-- The ciphers the engine can run. -/
inductive AlgorithmKind where
  | arcfour
  | idea
  | rijndael
  deriving DecidableEq, Repr

/-- An algorithm unit: a name and the cipher behind it. -/
structure AlgorithmUnit where
  name : String
  kind : AlgorithmKind
  deriving DecidableEq, Repr

namespace AlgorithmUnit

/-- Whether the unit's cipher works on blocks. -/
def isBlock (a : AlgorithmUnit) : Bool :=
  match a.kind with
  | .arcfour => false
  | .idea | .rijndael => true

/-- The block length; a stream cipher counts as one byte. -/
def blockSize (a : AlgorithmUnit) : Nat :=
  match a.kind with
  | .arcfour => 1
  | .idea => Idea.blockSize
  | .rijndael => Rijndael.blockSize

/-- The text shown for a unit. -/
def describe (a : AlgorithmUnit) : String :=
  "AlgorithmUnit \x7b name: \"" ++ a.name ++ "\", is_block: " ++ toString a.isBlock ++
    ", block_size: " ++ toString a.blockSize ++ " \x7d"

end AlgorithmUnit

/-! ## 2. Mode units -/

/-- The modes of operation the engine can run. -/
inductive ModeKind where
  | ecb
  | cbc
  | cfb
  | ofb
  | ncfb
  | nofb
  | ctr
  | stream
  deriving DecidableEq, Repr

/-- The name of a mode kind as shown in a unit's text. -/
def ModeKind.label : ModeKind → String
  | .ecb => "Ecb"
  | .cbc => "Cbc"
  | .cfb => "Cfb"
  | .ofb => "Ofb"
  | .ncfb => "Ncfb"
  | .nofb => "Nofb"
  | .ctr => "Ctr"
  | .stream => "Stream"

/-- A mode unit: a name and the mode behind it. -/
structure ModeUnit where
  name : String
  kind : ModeKind
  deriving DecidableEq, Repr

namespace ModeUnit

/-- Every mode but the stream mode runs over a block algorithm. -/
def isBlockAlgorithmMode (m : ModeUnit) : Bool := m.kind != .stream

/-- The modes that work on whole blocks, so buffers are padded for them. -/
def isBlockMode (m : ModeUnit) : Bool :=
  match m.kind with
  | .ecb | .cbc | .ncfb | .nofb | .ctr => true
  | .cfb | .ofb | .stream => false

/-- The text shown for a unit. -/
def describe (m : ModeUnit) : String :=
  "ModeUnit \x7b name: \"" ++ m.name ++ "\", kind: " ++ m.kind.label ++ " \x7d"

/-- Builds a block mode over a keyed block cipher; every mode but ECB takes a vector of
exactly one block, named in its error. -/
def overBlock (k : ModeKind) (c : BlockCipher) (iv : Bytes) : Except PrimitiveError KeyedMode :=
  let needIv (context : String) : Except PrimitiveError Unit :=
    Check.length context iv.length c.blockSize
  match k with
  | .ecb => pure (.ecb c)
  | .cbc => do needIv "CBC initialization vector"; pure (.cbc c iv)
  | .cfb => do needIv "CFB initialization vector"; pure (.cfb c iv)
  | .ofb => do needIv "OFB initialization vector"; pure (.ofb c iv)
  | .ncfb => do needIv "NCFB initialization vector"; pure (.ncfb c (Mode.Ncfb.start iv))
  | .nofb => do needIv "NOFB initialization vector"; pure (.nofb c (Mode.Nofb.start iv))
  | .ctr => do needIv "CTR initial counter"; pure (.ctr c (Mode.Ctr.start iv))
  | .stream => .error (.parameter "mode" "stream mode used with block algorithm")

/-- Builds the keyed mode over an algorithm unit.  Over the stream cipher only the stream
mode is taken, and that is checked before the key; over a block cipher the key is checked
first, then the mode and its vector. -/
def build (m : ModeUnit) (a : AlgorithmUnit) (key iv : Bytes) : Except PrimitiveError KeyedMode :=
  match a.kind with
  | .arcfour =>
    if m.kind != .stream then .error (.parameter "mode" "block mode used with stream algorithm")
    else do pure (.stream (← Arcfour.new key))
  | .idea => do overBlock m.kind (.idea (← Idea.new key)) iv
  | .rijndael => do overBlock m.kind (.rijndael (← Rijndael.new key)) iv

end ModeUnit

/-! ## 3. The registry -/

namespace Registry

/-- The algorithm units, in registry order. -/
def algorithmUnits : List AlgorithmUnit :=
  [⟨"arcfour", .arcfour⟩, ⟨"idea", .idea⟩, ⟨"rijndael", .rijndael⟩]

/-- The mode units, in registry order. -/
def modeUnits : List ModeUnit :=
  [⟨"cbc", .cbc⟩, ⟨"cfb", .cfb⟩, ⟨"ctr", .ctr⟩, ⟨"ecb", .ecb⟩, ⟨"ncfb", .ncfb⟩,
    ⟨"nofb", .nofb⟩, ⟨"ofb", .ofb⟩, ⟨"stream", .stream⟩]

/-- The algorithm unit of a name. -/
def algorithmUnit? (name : String) : Option AlgorithmUnit := algorithmUnits.find? (·.name == name)

/-- The mode unit of a name. -/
def modeUnit? (name : String) : Option ModeUnit := modeUnits.find? (·.name == name)

end Registry

/-! ## 4. Loaded units -/

/-- An algorithm unit paired with a mode unit, keyed or not. -/
structure LoadedUnit where
  algorithm : AlgorithmUnit
  mode : ModeUnit
  state : Option KeyedMode
  deriving DecidableEq, Repr

/-- Pairs two units by name: unknown names first, algorithm before mode, then a block
algorithm must meet a block-algorithm mode and a stream algorithm the stream mode. -/
def Registry.load (algorithm mode : String) : Except EngineError LoadedUnit :=
  match Registry.algorithmUnit? algorithm, Registry.modeUnit? mode with
  | none, _ => .error (.unknownName .cipherUnit algorithm)
  | some _, none => .error (.unknownName .cipherUnit mode)
  | some a, some m =>
    if a.isBlock != m.isBlockAlgorithmMode then
      .error (.incompatiblePairing algorithm mode
        (if a.isBlock then .streamModeOnBlock else .blockModeOnStream))
    else .ok ⟨a, m, none⟩

namespace LoadedUnit

/-- Whether the unit holds a keyed mode. -/
def isInitialized (u : LoadedUnit) : Bool := u.state.isSome

/-- Keys the unit afresh; a refused key leaves it unkeyed. -/
def initState (u : LoadedUnit) (key iv : Bytes) : LoadedUnit × Except EngineError Unit :=
  match u.mode.build u.algorithm key iv with
  | .ok m => ({ u with state := some m }, .ok ())
  | .error e => ({ u with state := none }, .error e.toEngineError)

/-- Forgets the keyed mode. -/
def deinit (u : LoadedUnit) : LoadedUnit := { u with state := none }

/-- Transforms data in a direction; an unkeyed unit refuses, and a refused length leaves
the state as it was. -/
def transform (u : LoadedUnit) (dir : Direction) (data : Bytes) :
    Except EngineError (Bytes × LoadedUnit) :=
  match u.state with
  | none => .error .notKeyed
  | some m =>
    match m.transform dir data with
    | .ok (out, m) => .ok (out, { u with state := some m })
    | .error e => .error e.toEngineError

/-- The text shown for a loaded unit. -/
def describe (u : LoadedUnit) : String :=
  "ModuleUnit \x7b algorithm: \"" ++ u.algorithm.name ++ "\", mode: \"" ++ u.mode.name ++
    "\", initialized: " ++ toString u.isInitialized ++ " \x7d"

end LoadedUnit

end CipherEngine
