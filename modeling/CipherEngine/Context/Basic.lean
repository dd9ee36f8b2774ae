import CipherEngine.Catalog.Basic
import CipherEngine.Padding
import CipherEngine.Registry
import CipherEngine.Text.Basic

/-!
# Transform contexts

A context owns one loaded cipher unit together with the catalog's descriptors of its
algorithm and mode, the key and vector it was keyed with, and the direction of the
transforms run since it was last initialised.

* Keying (`Context.key`) checks the key length against the descriptor, the vector against
  the mode and the algorithm, then initialises the unit.  When the unit refuses, the
  previous key and vector come back and the unit is initialised with them again; a context
  that had no key, or whose old key fails too, ends unkeyed.
* Every initialisation clears the direction.  The first transform after it binds the
  direction, and a transform the other way is refused until the next initialisation.
* For block modes `encrypt` pads to whole blocks, with the length trailer when asked, and
  `decrypt` drops a trailing partial block and, with the trailer, cuts the padding off.

Each operation returns its answer together with the context after it, as the operation
leaves it also when it fails.
-/

set_option autoImplicit false

namespace CipherEngine

/-- A loaded unit with the descriptors it was resolved from and its keying state. -/
structure Context where
  algorithm : AlgorithmDescriptor
  mode : ModeDescriptor
  unit : LoadedUnit
  storedKey : Option Bytes
  storedIv : Option Bytes
  direction : Option Direction
  deriving DecidableEq, Repr

/-- The answer of an operation on a context, and the context after it. -/
abbrev Outcome (α : Type) := Except EngineError α × Context

namespace Context

/-! ## 1. Construction -/

/-- Resolves an algorithm and a mode in a catalog and loads the units behind them.  Unknown
names come first, then the catalog's pairing check, then a missing unit, then the units'
own pairing check. -/
def withCatalog (c : Catalog) (algorithm mode : String) : Except EngineError Context := do
  let a ← c.resolveAlgorithm algorithm
  let m ← c.resolveMode mode
  Catalog.validatePairing a.descriptor m.descriptor
  let au ← match a.unit with
    | some u => pure u
    | none => throw (.unknownName .cipherUnit algorithm)
  let mu ← match m.unit with
    | some u => pure u
    | none => throw (.unknownName .cipherUnit mode)
  let unit ← Registry.load au mu
  pure ⟨a.descriptor, m.descriptor, unit, none, none, none⟩

/-! ## 2. State and sizes -/

/-- A context is keyed when it holds a key and its unit is initialised. -/
def isKeyed (ctx : Context) : Bool := ctx.storedKey.isSome && ctx.unit.isInitialized

/-- The padding unit: the block size for block modes, one byte otherwise. -/
def unitLen (ctx : Context) : Nat :=
  if ctx.mode.isBlockMode then max ctx.algorithm.blockSize 1 else 1

/-- The text shown for a context: names, quoted, and whether it is keyed, never the key. -/
def describe (ctx : Context) : String :=
  "TransformContext \x7b algorithm: " ++ Text.quote ctx.algorithm.name ++ ", mode: " ++
    Text.quote ctx.mode.name ++ ", keyed: " ++ toString ctx.isKeyed ++ ", .. \x7d"

/-! ## 3. Keying -/

/-- Initialises the unit with the stored key and the stored vector, or zeros of the
algorithm's vector size; the direction is cleared first. -/
def initUnit (ctx : Context) : Outcome Unit :=
  let ctx := { ctx with direction := none }
  match ctx.storedKey with
  | none => (.error .notKeyed, ctx)
  | some k =>
    let (unit, r) := ctx.unit.initState k (ctx.storedIv.getD (Bytes.zeros ctx.algorithm.ivSize))
    (r, { ctx with unit := unit })

/-- Forgets key, vector and direction, and the unit's state. -/
def deinit (ctx : Context) : Context :=
  { ctx with storedKey := none, storedIv := none, direction := none, unit := ctx.unit.deinit }

/-- Initialises again with the stored key: the feedback state starts over. -/
def reinit (ctx : Context) : Outcome Unit := ctx.initUnit

/-- Stores a new key and vector and initialises the unit with them.  When the unit refuses,
the previous key and vector are restored and initialised again, and the context ends
unkeyed if there was none or that fails as well. -/
def rekey (ctx : Context) (k : Bytes) (iv : Option Bytes) : Outcome Unit :=
  match ({ ctx with storedKey := some k, storedIv := iv } : Context).initUnit with
  | (.ok (), after) => (.ok (), after)
  | (.error e, after) =>
    let restored := { after with storedKey := ctx.storedKey, storedIv := ctx.storedIv }
    match restored.storedKey with
    | none => (.error e, restored.deinit)
    | some _ =>
      match restored.initUnit with
      | (.ok (), again) => (.error e, again)
      | (.error _, again) => (.error e, again.deinit)

/-- Keys the context.  The key must be non-empty and of an accepted length; a mode that
needs a vector must get one, and a vector given must have the algorithm's vector size.
These checks change nothing when they fail. -/
def key (ctx : Context) (k : Bytes) (iv : Option Bytes) : Outcome Unit :=
  let accepted := ctx.algorithm.acceptedKeySizes
  if k.isEmpty || !accepted.accepts k.length then
    (.error (.keySize ctx.algorithm.name k.length accepted), ctx)
  else
    match iv with
    | none =>
      if ctx.mode.requiresIv then (.error (.ivRequired ctx.mode.name), ctx)
      else ctx.rekey k none
    | some v =>
      if v.length ≠ ctx.algorithm.ivSize then (.error (.ivSize ctx.algorithm.ivSize v.length), ctx)
      else ctx.rekey k (some v)

/-! ## 4. Transforms -/

/-- Starts a transform: the context must be keyed, and the direction must match the one
bound since the last initialisation, which it then binds. -/
def begin (ctx : Context) (dir : Direction) : Except EngineError Context :=
  if !ctx.isKeyed then .error .notKeyed
  else
    match ctx.direction with
    | some started => if started = dir then .ok ctx else .error (.directionMismatch started dir)
    | none => .ok { ctx with direction := some dir }

/-- Runs the unit over a buffer; an empty buffer is returned as it is. -/
def transformBuffer (ctx : Context) (dir : Direction) (buf : Bytes) : Outcome Bytes :=
  if !ctx.isKeyed then (.error .notKeyed, ctx)
  else if buf.isEmpty then (.ok buf, ctx)
  else
    match ctx.unit.transform dir buf with
    | .ok (out, unit) => (.ok out, { ctx with unit := unit })
    | .error e => (.error e, ctx)

/-- Encrypts a buffer: padded to whole units first, with the length trailer if asked. -/
def encrypt (ctx : Context) (data : Bytes) (fixlength : Bool) : Outcome Bytes :=
  match ctx.begin .encrypt with
  | .error e => (.error e, ctx)
  | .ok ctx => ctx.transformBuffer .encrypt (Padding.pad data ctx.unitLen fixlength)

/-- Decrypts a buffer: a trailing partial unit is dropped, and with the length trailer the
output is cut to the length the trailer records. -/
def decrypt (ctx : Context) (data : Bytes) (fixlength : Bool) : Outcome Bytes :=
  match ctx.begin .decrypt with
  | .error e => (.error e, ctx)
  | .ok ctx =>
    let unit := ctx.unitLen
    match ctx.transformBuffer .decrypt (data.take (Padding.wholeUnits data.length unit)) with
    | (.ok out, ctx) =>
      (.ok (if fixlength && decide (1 < unit) then out.take (Padding.recoveredLen out unit) else out),
        ctx)
    | other => other

end Context

end CipherEngine
