import CipherEngine.Bytes
import CipherEngine.Primitive.Error
import CipherEngine.Primitive.Rijndael.Field

/-!
# The Rijndael block cipher

Rijndael with a block of sixteen bytes and a key of 16, 24 or 32 bytes, as standardised for
AES.  A block is read column by column: byte `4c + r` stands in row `r` of column `c`.  A key
of `nk` four-byte words gives `nk + 6` rounds and a schedule of `4 (nk + 7)` words, taken
sixteen bytes at a time as round keys.

Encryption adds the first round key, runs the middle rounds (substitute, shift rows, mix
columns, add key) and ends with a round that leaves out the mixing; decryption runs the
inverse steps with the round keys in reverse order.

The steps are first stated on byte strings.  The cipher itself runs on `State`, the sixteen
bytes as the fields of a structure, one whole round at a time; `toBytes_round` and its
companions say that each round on a state is the composition of the steps on its bytes.
-/

namespace CipherEngine

namespace Rijndael

/-! ## 1. The round steps -/

/-- Every byte through the substitution box. -/
def subBytes (s : Bytes) : Bytes := s.map subByte

/-- Every byte through the inverse box. -/
def invSubBytes (s : Bytes) : Bytes := s.map invSubByte

/-- Row `r` rotates left by `r` places: the byte of row `r`, column `c` comes from column
`c + r`, so byte `4c + r` is byte `4 ((c + r) mod 4) + r` of the state. -/
def shiftRows : Bytes → Bytes
  | [s0, s1, s2, s3, s4, s5, s6, s7, s8, s9, s10, s11, s12, s13, s14, s15] =>
    [s0, s5, s10, s15, s4, s9, s14, s3, s8, s13, s2, s7, s12, s1, s6, s11]
  | s => s

/-- Row `r` rotates right by `r` places: byte `4c + r` is byte `4 ((c - r) mod 4) + r` of
the state. -/
def invShiftRows : Bytes → Bytes
  | [s0, s1, s2, s3, s4, s5, s6, s7, s8, s9, s10, s11, s12, s13, s14, s15] =>
    [s0, s13, s10, s7, s4, s1, s14, s11, s8, s5, s2, s15, s12, s9, s6, s3]
  | s => s

/-- The first row of the mixing matrix `(2 3 1 1)` against a column `(a, b, c, d)`; the
other rows are the same with the column rotated. -/
@[inline] def mix (a b c d : UInt8) : UInt8 := xtime a ^^^ xtime b ^^^ b ^^^ c ^^^ d

/-- One column through the mixing matrix. -/
def mixColumn : Bytes → Bytes
  | [a, b, c, d] => [mix a b c d, mix b c d a, mix c d a b, mix d a b c]
  | c => c

/-- Multiplication by 9, 11, 13 and 14, for the inverse mixing. -/
def mul9 (b : UInt8) : UInt8 := xtime (xtime (xtime b)) ^^^ b
def mul11 (b : UInt8) : UInt8 := xtime (xtime (xtime b)) ^^^ xtime b ^^^ b
def mul13 (b : UInt8) : UInt8 := xtime (xtime (xtime b)) ^^^ xtime (xtime b) ^^^ b
def mul14 (b : UInt8) : UInt8 := xtime (xtime (xtime b)) ^^^ xtime (xtime b) ^^^ xtime b

/-- A map of bytes as the table of its 256 values. -/
def productTable (f : UInt8 → UInt8) : Vector UInt8 256 := Vector.ofFn fun i => f i.val.toUInt8

/-- The entry of a table at a byte. -/
@[inline] def lookup (t : Vector UInt8 256) (x : UInt8) : UInt8 :=
  have h : x.toNat < 256 := UInt8.toNat_lt x
  t[x.toNat]

theorem lookup_productTable (f : UInt8 → UInt8) (x : UInt8) : lookup (productTable f) x = f x := by
  simp [lookup, productTable]

/-- The products the inverse mixing looks up. -/
def mul9Table : Vector UInt8 256 := productTable mul9
def mul11Table : Vector UInt8 256 := productTable mul11
def mul13Table : Vector UInt8 256 := productTable mul13
def mul14Table : Vector UInt8 256 := productTable mul14

/-- The first row of the inverse mixing matrix `(14 11 13 9)` against a column, with the
products looked up (`invMix_eq`). -/
@[inline] def invMix (a b c d : UInt8) : UInt8 :=
  lookup mul14Table a ^^^ lookup mul11Table b ^^^ lookup mul13Table c ^^^ lookup mul9Table d

theorem invMix_eq (a b c d : UInt8) :
    invMix a b c d = mul14 a ^^^ mul11 b ^^^ mul13 c ^^^ mul9 d := by
  simp only [invMix, mul9Table, mul11Table, mul13Table, mul14Table, lookup_productTable]

/-- One column through the inverse mixing matrix. -/
def invMixColumn : Bytes → Bytes
  | [a, b, c, d] => [invMix a b c d, invMix b c d a, invMix c d a b, invMix d a b c]
  | c => c

/-- Every column through the mixing matrix. -/
def mixColumns : Bytes → Bytes
  | [s0, s1, s2, s3, s4, s5, s6, s7, s8, s9, s10, s11, s12, s13, s14, s15] =>
    mixColumn [s0, s1, s2, s3] ++ mixColumn [s4, s5, s6, s7] ++
      mixColumn [s8, s9, s10, s11] ++ mixColumn [s12, s13, s14, s15]
  | s => s

/-- Every column through the inverse mixing matrix. -/
def invMixColumns : Bytes → Bytes
  | [s0, s1, s2, s3, s4, s5, s6, s7, s8, s9, s10, s11, s12, s13, s14, s15] =>
    invMixColumn [s0, s1, s2, s3] ++ invMixColumn [s4, s5, s6, s7] ++
      invMixColumn [s8, s9, s10, s11] ++ invMixColumn [s12, s13, s14, s15]
  | s => s

/-! ## 2. The state and whole rounds -/

/-- The sixteen bytes of a block or a round key; field `bi` is byte `i`. -/
structure State where
  b0 : UInt8
  b1 : UInt8
  b2 : UInt8
  b3 : UInt8
  b4 : UInt8
  b5 : UInt8
  b6 : UInt8
  b7 : UInt8
  b8 : UInt8
  b9 : UInt8
  b10 : UInt8
  b11 : UInt8
  b12 : UInt8
  b13 : UInt8
  b14 : UInt8
  b15 : UInt8
  deriving DecidableEq, Repr

namespace State

/-- The bytes of a state, first byte first. -/
def toBytes (s : State) : Bytes :=
  [s.b0, s.b1, s.b2, s.b3, s.b4, s.b5, s.b6, s.b7, s.b8, s.b9, s.b10, s.b11, s.b12, s.b13,
    s.b14, s.b15]

/-- The state holding a block of sixteen bytes; anything else gives the zero state. -/
def ofBytes : Bytes → State
  | [b0, b1, b2, b3, b4, b5, b6, b7, b8, b9, b10, b11, b12, b13, b14, b15] =>
    ⟨b0, b1, b2, b3, b4, b5, b6, b7, b8, b9, b10, b11, b12, b13, b14, b15⟩
  | _ => ⟨0, 0, 0, 0, 0, 0, 0, 0, 0, 0, 0, 0, 0, 0, 0, 0⟩

/-- The round key added. -/
def addKey (s k : State) : State :=
  ⟨s.b0 ^^^ k.b0, s.b1 ^^^ k.b1, s.b2 ^^^ k.b2, s.b3 ^^^ k.b3,
    s.b4 ^^^ k.b4, s.b5 ^^^ k.b5, s.b6 ^^^ k.b6, s.b7 ^^^ k.b7,
    s.b8 ^^^ k.b8, s.b9 ^^^ k.b9, s.b10 ^^^ k.b10, s.b11 ^^^ k.b11,
    s.b12 ^^^ k.b12, s.b13 ^^^ k.b13, s.b14 ^^^ k.b14, s.b15 ^^^ k.b15⟩

/-- A middle round of encryption: substitute, shift rows, mix columns, add the key. -/
def round (s k : State) : State :=
  let t0 := subByte s.b0
  let t1 := subByte s.b1
  let t2 := subByte s.b2
  let t3 := subByte s.b3
  let t4 := subByte s.b4
  let t5 := subByte s.b5
  let t6 := subByte s.b6
  let t7 := subByte s.b7
  let t8 := subByte s.b8
  let t9 := subByte s.b9
  let t10 := subByte s.b10
  let t11 := subByte s.b11
  let t12 := subByte s.b12
  let t13 := subByte s.b13
  let t14 := subByte s.b14
  let t15 := subByte s.b15
  ⟨mix t0 t5 t10 t15 ^^^ k.b0, mix t5 t10 t15 t0 ^^^ k.b1,
    mix t10 t15 t0 t5 ^^^ k.b2, mix t15 t0 t5 t10 ^^^ k.b3,
    mix t4 t9 t14 t3 ^^^ k.b4, mix t9 t14 t3 t4 ^^^ k.b5,
    mix t14 t3 t4 t9 ^^^ k.b6, mix t3 t4 t9 t14 ^^^ k.b7,
    mix t8 t13 t2 t7 ^^^ k.b8, mix t13 t2 t7 t8 ^^^ k.b9,
    mix t2 t7 t8 t13 ^^^ k.b10, mix t7 t8 t13 t2 ^^^ k.b11,
    mix t12 t1 t6 t11 ^^^ k.b12, mix t1 t6 t11 t12 ^^^ k.b13,
    mix t6 t11 t12 t1 ^^^ k.b14, mix t11 t12 t1 t6 ^^^ k.b15⟩

/-- The last round of encryption: substitute, shift rows, add the key. -/
def lastRound (s k : State) : State :=
  let t0 := subByte s.b0
  let t1 := subByte s.b1
  let t2 := subByte s.b2
  let t3 := subByte s.b3
  let t4 := subByte s.b4
  let t5 := subByte s.b5
  let t6 := subByte s.b6
  let t7 := subByte s.b7
  let t8 := subByte s.b8
  let t9 := subByte s.b9
  let t10 := subByte s.b10
  let t11 := subByte s.b11
  let t12 := subByte s.b12
  let t13 := subByte s.b13
  let t14 := subByte s.b14
  let t15 := subByte s.b15
  ⟨t0 ^^^ k.b0, t5 ^^^ k.b1, t10 ^^^ k.b2, t15 ^^^ k.b3,
    t4 ^^^ k.b4, t9 ^^^ k.b5, t14 ^^^ k.b6, t3 ^^^ k.b7,
    t8 ^^^ k.b8, t13 ^^^ k.b9, t2 ^^^ k.b10, t7 ^^^ k.b11,
    t12 ^^^ k.b12, t1 ^^^ k.b13, t6 ^^^ k.b14, t11 ^^^ k.b15⟩

/-- A middle round of decryption: shift rows back, substitute back, add the key, unmix
the columns. -/
def invRound (s k : State) : State :=
  let v0 := invSubByte s.b0 ^^^ k.b0
  let v1 := invSubByte s.b13 ^^^ k.b1
  let v2 := invSubByte s.b10 ^^^ k.b2
  let v3 := invSubByte s.b7 ^^^ k.b3
  let v4 := invSubByte s.b4 ^^^ k.b4
  let v5 := invSubByte s.b1 ^^^ k.b5
  let v6 := invSubByte s.b14 ^^^ k.b6
  let v7 := invSubByte s.b11 ^^^ k.b7
  let v8 := invSubByte s.b8 ^^^ k.b8
  let v9 := invSubByte s.b5 ^^^ k.b9
  let v10 := invSubByte s.b2 ^^^ k.b10
  let v11 := invSubByte s.b15 ^^^ k.b11
  let v12 := invSubByte s.b12 ^^^ k.b12
  let v13 := invSubByte s.b9 ^^^ k.b13
  let v14 := invSubByte s.b6 ^^^ k.b14
  let v15 := invSubByte s.b3 ^^^ k.b15
  ⟨invMix v0 v1 v2 v3, invMix v1 v2 v3 v0, invMix v2 v3 v0 v1, invMix v3 v0 v1 v2,
    invMix v4 v5 v6 v7, invMix v5 v6 v7 v4, invMix v6 v7 v4 v5, invMix v7 v4 v5 v6,
    invMix v8 v9 v10 v11, invMix v9 v10 v11 v8, invMix v10 v11 v8 v9,
    invMix v11 v8 v9 v10, invMix v12 v13 v14 v15, invMix v13 v14 v15 v12,
    invMix v14 v15 v12 v13, invMix v15 v12 v13 v14⟩

/-- The last round of decryption: shift rows back, substitute back, add the key. -/
def invLastRound (s k : State) : State :=
  let v0 := invSubByte s.b0 ^^^ k.b0
  let v1 := invSubByte s.b13 ^^^ k.b1
  let v2 := invSubByte s.b10 ^^^ k.b2
  let v3 := invSubByte s.b7 ^^^ k.b3
  let v4 := invSubByte s.b4 ^^^ k.b4
  let v5 := invSubByte s.b1 ^^^ k.b5
  let v6 := invSubByte s.b14 ^^^ k.b6
  let v7 := invSubByte s.b11 ^^^ k.b7
  let v8 := invSubByte s.b8 ^^^ k.b8
  let v9 := invSubByte s.b5 ^^^ k.b9
  let v10 := invSubByte s.b2 ^^^ k.b10
  let v11 := invSubByte s.b15 ^^^ k.b11
  let v12 := invSubByte s.b12 ^^^ k.b12
  let v13 := invSubByte s.b9 ^^^ k.b13
  let v14 := invSubByte s.b6 ^^^ k.b14
  let v15 := invSubByte s.b3 ^^^ k.b15
  ⟨v0, v1, v2, v3, v4, v5, v6, v7, v8, v9, v10, v11, v12, v13, v14, v15⟩

theorem toBytes_ofBytes : ∀ b : Bytes, b.length = 16 → (ofBytes b).toBytes = b
  | [_, _, _, _, _, _, _, _, _, _, _, _, _, _, _, _], _ => rfl

theorem ofBytes_toBytes (s : State) : ofBytes s.toBytes = s := rfl

theorem length_toBytes (s : State) : s.toBytes.length = 16 := rfl

theorem toBytes_addKey (s k : State) : (addKey s k).toBytes = Bytes.xor s.toBytes k.toBytes :=
  rfl

theorem toBytes_round (s k : State) :
    (round s k).toBytes = Bytes.xor (mixColumns (shiftRows (subBytes s.toBytes))) k.toBytes :=
  rfl

theorem toBytes_lastRound (s k : State) :
    (lastRound s k).toBytes = Bytes.xor (shiftRows (subBytes s.toBytes)) k.toBytes :=
  rfl

theorem toBytes_invRound (s k : State) :
    (invRound s k).toBytes =
      invMixColumns (Bytes.xor (invSubBytes (invShiftRows s.toBytes)) k.toBytes) :=
  rfl

theorem toBytes_invLastRound (s k : State) :
    (invLastRound s k).toBytes = Bytes.xor (invSubBytes (invShiftRows s.toBytes)) k.toBytes :=
  rfl

end State

/-! ## 3. The key schedule -/

/-- A four-byte word of the schedule, most significant byte first. -/
abbrev Word := Bytes

/-- The round constants, as the first byte of their words. -/
def rcon (j : Nat) : UInt8 := [0x00, 0x01, 0x02, 0x04, 0x08, 0x10, 0x20, 0x40, 0x80, 0x1b, 0x36].getD j 0

/-- The word added to word `i - nk` to give word `i`, from word `i - 1`: rotated,
substituted and offset by a round constant at the start of each key length, substituted
alone halfway through a long key. -/
def temp (nk i : Nat) (w : Word) : Word :=
  if i % nk = 0 then
    match (w.drop 1 ++ w.take 1).map subByte with
    | b :: bs => (b ^^^ rcon (i / nk)) :: bs
    | [] => []
  else if 6 < nk ∧ i % nk = 4 then w.map subByte
  else w

/-- The words of the schedule, `total` of them, from a key of `nk` words. -/
def expandWords (key : Bytes) (nk total : Nat) : Array Word :=
  let first : Array Word := ((List.range nk).map fun i => (key.drop (4 * i)).take 4).toArray
  (List.range (total - nk)).foldl
    (fun w j => w.push (Bytes.xor (w.getD j []) (temp nk (nk + j) (w.getD (nk + j - 1) []))))
    first

/-- The words of a schedule taken four at a time, as round keys. -/
def roundKeysOf : List Word → List Bytes
  | a :: b :: c :: d :: rest => (a ++ b ++ c ++ d) :: roundKeysOf rest
  | _ => []

end Rijndael

/-- Rijndael keyed: its round keys and its number of rounds. -/
structure Rijndael where
  roundKeys : List Rijndael.State
  rounds : Nat
  deriving DecidableEq, Repr

namespace Rijndael

/-- The key lengths Rijndael takes. -/
def keySizes : List Nat := [16, 24, 32]

/-- The block length. -/
def blockSize : Nat := 16

/-- Expands a key into its round keys; only keys of 16, 24 or 32 bytes are taken. -/
def new (key : Bytes) : Except PrimitiveError Rijndael := do
  Check.parameter (keySizes.contains key.length) "Rijndael key" "key must be 16, 24 or 32 bytes"
  let nk := key.length / 4
  let rounds := nk + 6
  let words := expandWords key nk (4 * (rounds + 1))
  pure ⟨(roundKeysOf words.toList).map State.ofBytes, rounds⟩

/-- The text shown for a keyed cipher: its rounds, and nothing of its key. -/
def describe (c : Rijndael) : String := "Rijndael \x7b rounds: " ++ toString c.rounds ++ ", .. \x7d"

/-- The rounds after the first key is added: every round but the last mixes the columns. -/
def encryptRounds : State → List State → State
  | s, [] => s
  | s, [k] => s.lastRound k
  | s, k :: ks => encryptRounds (s.round k) ks

/-- The inverse rounds after the last key is added, with the keys from last to first. -/
def decryptRounds : State → List State → State
  | s, [] => s
  | s, [k] => s.invLastRound k
  | s, k :: ks => decryptRounds (s.invRound k) ks

/-- Encrypts one block of sixteen bytes. -/
def encrypt (c : Rijndael) (b : Bytes) : Bytes :=
  match c.roundKeys with
  | [] => b
  | k0 :: ks => (encryptRounds ((State.ofBytes b).addKey k0) ks).toBytes

/-- Decrypts one block of sixteen bytes. -/
def decrypt (c : Rijndael) (b : Bytes) : Bytes :=
  match c.roundKeys.reverse with
  | [] => b
  | k0 :: ks => (decryptRounds ((State.ofBytes b).addKey k0) ks).toBytes

/-- Encrypts one block, refusing any other length. -/
def encryptBlock (c : Rijndael) (b : Bytes) : Except PrimitiveError Bytes := do
  Check.length "Rijndael block" b.length blockSize
  pure (c.encrypt b)

/-- Decrypts one block, refusing any other length. -/
def decryptBlock (c : Rijndael) (b : Bytes) : Except PrimitiveError Bytes := do
  Check.length "Rijndael block" b.length blockSize
  pure (c.decrypt b)

end Rijndael

end CipherEngine
