import CipherEngine.Bytes

/-!
# Eight-bit feedback modes: CFB and OFB

Both modes keep a register of one block.  For each byte the register is enciphered and the
first byte of the result is the keystream byte; then the register shifts one byte to the
left and takes in a new last byte: the ciphertext byte for CFB, the keystream byte for OFB.
Only the block function's forward direction is used, so the modes are written over any
function `E`.
-/

namespace CipherEngine

namespace Mode

/-- The first byte of the enciphered register. -/
def firstByte (E : Bytes → Bytes) (r : Bytes) : UInt8 := (E r).headD 0

/-- The register shifted one byte to the left, with `b` as its new last byte. -/
def shiftIn (r : Bytes) (b : UInt8) : Bytes :=
  match r with
  | [] => []
  | _ :: rest => rest ++ [b]

namespace Cfb

/-- One plaintext byte: masked, and the ciphertext byte shifted in. -/
def encryptStep (E : Bytes → Bytes) (r : Bytes) (x : UInt8) : UInt8 × Bytes :=
  let c := x ^^^ firstByte E r
  (c, shiftIn r c)

/-- One ciphertext byte: unmasked, and the ciphertext byte shifted in. -/
def decryptStep (E : Bytes → Bytes) (r : Bytes) (c : UInt8) : UInt8 × Bytes :=
  (c ^^^ firstByte E r, shiftIn r c)

end Cfb

namespace Ofb

/-- One byte either way: masked, and the keystream byte shifted in. -/
def step (E : Bytes → Bytes) (r : Bytes) (x : UInt8) : UInt8 × Bytes :=
  let k := firstByte E r
  (x ^^^ k, shiftIn r k)

end Ofb

end Mode

end CipherEngine
