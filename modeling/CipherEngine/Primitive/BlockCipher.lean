import CipherEngine.Primitive.Rijndael.Basic
import CipherEngine.Primitive.Idea.Basic

/-!
# Keyed block ciphers

The block ciphers the engine runs: Rijndael with its sixteen-byte block and IDEA with its
eight-byte block.  The modes of operation see a block cipher only through its block size
and its two block functions.
-/

namespace CipherEngine

/-- A keyed block cipher. -/
inductive BlockCipher where
  | rijndael (c : Rijndael)
  | idea (c : Idea)
  deriving DecidableEq, Repr

namespace BlockCipher

/-- The block length in bytes. -/
def blockSize : BlockCipher → Nat
  | .rijndael _ => Rijndael.blockSize
  | .idea _ => Idea.blockSize

/-- The cipher's name. -/
def name : BlockCipher → String
  | .rijndael _ => "Rijndael-128"
  | .idea _ => "IDEA"

/-- The text shown for a keyed cipher. -/
def describe : BlockCipher → String
  | .rijndael c => c.describe
  | .idea c => c.describe

/-- Encrypts one block. -/
def encrypt : BlockCipher → Bytes → Bytes
  | .rijndael c => c.encrypt
  | .idea c => c.encrypt

/-- Decrypts one block. -/
def decrypt : BlockCipher → Bytes → Bytes
  | .rijndael c => c.decrypt
  | .idea c => c.decrypt

/-- Encrypts one block, refusing any other length. -/
def encryptBlock : BlockCipher → Bytes → Except PrimitiveError Bytes
  | .rijndael c => c.encryptBlock
  | .idea c => c.encryptBlock

/-- Decrypts one block, refusing any other length. -/
def decryptBlock : BlockCipher → Bytes → Except PrimitiveError Bytes
  | .rijndael c => c.decryptBlock
  | .idea c => c.decryptBlock

end BlockCipher

end CipherEngine
