import CipherEngine.Bytes
import CipherEngine.Primitive.Error
import CipherEngine.Transducer

/-!
# Whole-block modes: ECB and CBC

Both modes take a whole number of blocks and refuse any other length before touching their
state.  ECB enciphers each block on its own.  CBC adds the previous ciphertext block (at
first the initialisation vector) to each plaintext block before enciphering it, and keeps
the last ciphertext block for the next call.

The modes are written over any block function `E` (and its inverse `D` for decryption), so
their laws hold whatever the cipher.
-/

namespace CipherEngine

namespace Mode

namespace Ecb

/-- Enciphers every block on its own. -/
def encrypt (E : Bytes → Bytes) (bs : Nat) (data : Bytes) : Except PrimitiveError Bytes := do
  Check.blockMultiple "ECB data" data.length bs
  pure ((Bytes.chunks bs data).map E).flatten

/-- Deciphers every block on its own. -/
def decrypt (D : Bytes → Bytes) (bs : Nat) (data : Bytes) : Except PrimitiveError Bytes := do
  Check.blockMultiple "ECB data" data.length bs
  pure ((Bytes.chunks bs data).map D).flatten

end Ecb

namespace Cbc

/-- One plaintext block: added to the previous ciphertext, enciphered, and kept. -/
def encryptStep (E : Bytes → Bytes) (prev p : Bytes) : Bytes × Bytes :=
  let c := E (Bytes.xor p prev)
  (c, c)

/-- One ciphertext block: deciphered, the previous ciphertext added, and kept. -/
def decryptStep (D : Bytes → Bytes) (prev c : Bytes) : Bytes × Bytes :=
  (Bytes.xor (D c) prev, c)

/-- Enciphers whole blocks chained from `prev`; returns the output and the new chain. -/
def encrypt (E : Bytes → Bytes) (bs : Nat) (prev data : Bytes) :
    Except PrimitiveError (Bytes × Bytes) := do
  Check.blockMultiple "CBC plaintext" data.length bs
  let (out, prev) := Transducer.run (encryptStep E) prev (Bytes.chunks bs data)
  pure (out.flatten, prev)

/-- Deciphers whole blocks chained from `prev`; returns the output and the new chain. -/
def decrypt (D : Bytes → Bytes) (bs : Nat) (prev data : Bytes) :
    Except PrimitiveError (Bytes × Bytes) := do
  Check.blockMultiple "CBC ciphertext" data.length bs
  let (out, prev) := Transducer.run (decryptStep D) prev (Bytes.chunks bs data)
  pure (out.flatten, prev)

end Cbc

end Mode

end CipherEngine
