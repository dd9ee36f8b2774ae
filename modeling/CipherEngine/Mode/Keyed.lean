import CipherEngine.Error
import CipherEngine.Primitive.BlockCipher
import CipherEngine.Primitive.Arcfour
import CipherEngine.Mode.Block
import CipherEngine.Mode.Feedback
import CipherEngine.Mode.Keystream

/-!
# Keyed modes

A keyed mode is a mode of operation bound to a keyed cipher, together with the feedback
state it has reached.  Encrypting or decrypting returns the output and the next keyed mode;
a refused length leaves the state as it was.  The stream mode runs the Arcfour cipher, every
other mode a block cipher.
-/

namespace CipherEngine

/-- A mode of operation with its cipher and feedback state. -/
inductive KeyedMode where
  | ecb (cipher : BlockCipher)
  | cbc (cipher : BlockCipher) (prev : Bytes)
  | cfb (cipher : BlockCipher) (register : Bytes)
  | ofb (cipher : BlockCipher) (register : Bytes)
  | ncfb (cipher : BlockCipher) (state : Mode.Ncfb)
  | nofb (cipher : BlockCipher) (state : Mode.Nofb)
  | ctr (cipher : BlockCipher) (state : Mode.Ctr)
  | stream (cipher : Arcfour)
  deriving DecidableEq, Repr

namespace KeyedMode

/-- Encrypts, returning the output and the next state. -/
def encrypt : KeyedMode → Bytes → Except PrimitiveError (Bytes × KeyedMode)
  | .ecb c, d => do
    let out ← Mode.Ecb.encrypt c.encrypt c.blockSize d
    pure (out, .ecb c)
  | .cbc c prev, d => do
    let (out, prev) ← Mode.Cbc.encrypt c.encrypt c.blockSize prev d
    pure (out, .cbc c prev)
  | .cfb c r, d =>
    let (out, r) := Transducer.run (Mode.Cfb.encryptStep c.encrypt) r d
    .ok (out, .cfb c r)
  | .ofb c r, d =>
    let (out, r) := Transducer.run (Mode.Ofb.step c.encrypt) r d
    .ok (out, .ofb c r)
  | .ncfb c s, d =>
    let (out, s) := Transducer.run (Mode.Ncfb.encryptStep c.encrypt) s d
    .ok (out, .ncfb c s)
  | .nofb c s, d =>
    let (out, s) := Transducer.run (Mode.Nofb.step c.encrypt) s d
    .ok (out, .nofb c s)
  | .ctr c s, d =>
    let (out, s) := Transducer.run (Mode.Ctr.step c.encrypt) s d
    .ok (out, .ctr c s)
  | .stream c, d =>
    let (out, c) := c.process d
    .ok (out, .stream c)

/-- Decrypts, returning the output and the next state. -/
def decrypt : KeyedMode → Bytes → Except PrimitiveError (Bytes × KeyedMode)
  | .ecb c, d => do
    let out ← Mode.Ecb.decrypt c.decrypt c.blockSize d
    pure (out, .ecb c)
  | .cbc c prev, d => do
    let (out, prev) ← Mode.Cbc.decrypt c.decrypt c.blockSize prev d
    pure (out, .cbc c prev)
  | .cfb c r, d =>
    let (out, r) := Transducer.run (Mode.Cfb.decryptStep c.encrypt) r d
    .ok (out, .cfb c r)
  | .ofb c r, d =>
    let (out, r) := Transducer.run (Mode.Ofb.step c.encrypt) r d
    .ok (out, .ofb c r)
  | .ncfb c s, d =>
    let (out, s) := Transducer.run (Mode.Ncfb.decryptStep c.encrypt) s d
    .ok (out, .ncfb c s)
  | .nofb c s, d =>
    let (out, s) := Transducer.run (Mode.Nofb.step c.encrypt) s d
    .ok (out, .nofb c s)
  | .ctr c s, d =>
    let (out, s) := Transducer.run (Mode.Ctr.step c.encrypt) s d
    .ok (out, .ctr c s)
  | .stream c, d =>
    let (out, c) := c.process d
    .ok (out, .stream c)

/-- Runs the mode in a direction. -/
def transform (m : KeyedMode) : Direction → Bytes → Except PrimitiveError (Bytes × KeyedMode)
  | .encrypt => m.encrypt
  | .decrypt => m.decrypt

end KeyedMode

end CipherEngine
