import CipherEngine.Bytes

/-!
# Full-block keystream modes: NCFB, NOFB and CTR

These modes produce a keystream one block at a time and mask the data with it byte by
byte.  Each keeps its position within the current keystream block, so a call may end in
the middle of a block and the next call goes on from there; a new block is made when the
position comes back to zero.

* NCFB enciphers the register, which fills up with ciphertext bytes as the block is used.
* NOFB enciphers its register in place, and the register is the keystream.
* CTR enciphers a counter block, then adds one to the counter, big-endian, wrapping.

Only the block function's forward direction is used, so the modes are written over any
function `E`.
-/

namespace CipherEngine

namespace Mode

/-- The state of NCFB: the register, the keystream block made from it, and the position. -/
structure Ncfb where
  register : Bytes
  keystream : Bytes
  pos : Nat
  deriving DecidableEq, Repr

namespace Ncfb

/-- The state right after keying: the register holds the initialisation vector. -/
def start (iv : Bytes) : Ncfb := ⟨iv, Bytes.zeros iv.length, 0⟩

/-- At the start of a block, the keystream is the enciphered register. -/
def refill (E : Bytes → Bytes) (s : Ncfb) : Ncfb :=
  if s.pos = 0 then { s with keystream := E s.register } else s

/-- The ciphertext byte `c` takes the current place of the register, and the position
moves on. -/
def advance (s : Ncfb) (c : UInt8) : Ncfb :=
  { s with register := s.register.set s.pos c, pos := (s.pos + 1) % s.register.length }

/-- One plaintext byte. -/
def encryptStep (E : Bytes → Bytes) (s : Ncfb) (x : UInt8) : UInt8 × Ncfb :=
  let s := refill E s
  let y := x ^^^ s.keystream.getD s.pos 0
  (y, advance s y)

/-- One ciphertext byte. -/
def decryptStep (E : Bytes → Bytes) (s : Ncfb) (x : UInt8) : UInt8 × Ncfb :=
  let s := refill E s
  (x ^^^ s.keystream.getD s.pos 0, advance s x)

end Ncfb

/-- The state of NOFB: the register, which is also the keystream block, and the position. -/
structure Nofb where
  register : Bytes
  pos : Nat
  deriving DecidableEq, Repr

namespace Nofb

/-- The state right after keying. -/
def start (iv : Bytes) : Nofb := ⟨iv, 0⟩

/-- One byte either way; the register is enciphered in place at the start of each block. -/
def step (E : Bytes → Bytes) (s : Nofb) (x : UInt8) : UInt8 × Nofb :=
  let r := if s.pos = 0 then E s.register else s.register
  (x ^^^ r.getD s.pos 0, ⟨r, (s.pos + 1) % s.register.length⟩)

end Nofb

/-- The state of CTR: the next counter block, the keystream block, and the position. -/
structure Ctr where
  counter : Bytes
  keystream : Bytes
  pos : Nat
  deriving DecidableEq, Repr

namespace Ctr

/-- Adds one to a little-endian string, carrying while a byte wraps to zero. -/
def incrementLow : Bytes → Bytes
  | [] => []
  | b :: bs => if b + 1 = 0 then 0 :: incrementLow bs else (b + 1) :: bs

/-- Adds one to a big-endian counter block, wrapping to all zeros. -/
def increment (c : Bytes) : Bytes := (incrementLow c.reverse).reverse

/-- The state right after keying: the counter is the initialisation vector. -/
def start (iv : Bytes) : Ctr := ⟨iv, Bytes.zeros iv.length, 0⟩

/-- One byte either way; at the start of a block the counter is enciphered and stepped. -/
def step (E : Bytes → Bytes) (s : Ctr) (x : UInt8) : UInt8 × Ctr :=
  let s := if s.pos = 0 then ⟨increment s.counter, E s.counter, s.pos⟩ else s
  (x ^^^ s.keystream.getD s.pos 0, { s with pos := (s.pos + 1) % s.keystream.length })

end Ctr

end Mode

end CipherEngine
