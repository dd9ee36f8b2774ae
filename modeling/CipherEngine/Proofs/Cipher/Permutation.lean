import Mathlib.Data.FinEnum
import Mathlib.Data.Set.Finite.List
import CipherEngine.Proofs.Mode.Inverse

/-!
# Keyed block ciphers permute their blocks

Decryption undoes encryption (`BlockCipher.Invertible`, from `Rijndael.decrypt_encrypt` and
`Idea.crypt_invertKey`).  Encryption then undoes decryption as well, with no second argument
round by round: there are finitely many blocks of one length, encryption maps them into
themselves and has a left inverse there, so it is injective, hence onto, and its left inverse
is a right inverse too (`Bytes.rightInverse_of_leftInverse`).

Main statements:

* `BlockCipher.encrypt_decrypt`: a cipher that inverts enciphers back every block it
  deciphered;
* `BlockCipher.blockFunctions_inverse`: through the block functions, which check the length,
  each direction undoes the other on every block;
* `Rijndael.new_permutes_blocks16`, `Idea.new_permutes_blocks8`: every key that keying takes
  gives a cipher whose two block functions are inverse permutations of the blocks.
-/

set_option autoImplicit false

namespace CipherEngine

/-! ## 1. A left inverse on the blocks of one length is a right inverse -/

/-- **On the byte strings of one length, a left inverse is a right inverse**, for a map that
keeps the length: the strings of one length are finitely many. -/
theorem Bytes.rightInverse_of_leftInverse {n : Nat} {f g : Bytes → Bytes}
    (hf : ∀ b : Bytes, b.length = n → (f b).length = n)
    (hgf : ∀ b : Bytes, b.length = n → g (f b) = b) {b : Bytes} (hb : b.length = n) :
    f (g b) = b := by
  have hmaps : Set.MapsTo f {b : Bytes | b.length = n} {b : Bytes | b.length = n} :=
    fun a ha => hf a ha
  have hinj : Set.InjOn f {b : Bytes | b.length = n} := fun a ha a' ha' h => by
    rw [← hgf a ha, h, hgf a' ha']
  -- an injective self-map of a finite set is onto it, so `b` is the image of a block `a`
  have hbij := ((List.finite_length_eq UInt8 n).injOn_iff_bijOn_of_mapsTo hmaps).mp hinj
  obtain ⟨a, ha, rfl⟩ := hbij.surjOn hb
  rw [hgf a ha]

/-! ## 2. Ciphers that invert permute their blocks -/

namespace BlockCipher

/-- A block of the cipher's size passes the length check. -/
theorem encryptBlock_eq (c : BlockCipher) {b : Bytes} (hb : b.length = c.blockSize) :
    c.encryptBlock b = .ok (c.encrypt b) := by
  cases c <;>
    simp_all [encryptBlock, Rijndael.encryptBlock, Idea.encryptBlock, Check.length, blockSize,
      encrypt, bind, Except.bind, pure, Except.pure]

theorem decryptBlock_eq (c : BlockCipher) {b : Bytes} (hb : b.length = c.blockSize) :
    c.decryptBlock b = .ok (c.decrypt b) := by
  cases c <;>
    simp_all [decryptBlock, Rijndael.decryptBlock, Idea.decryptBlock, Check.length, blockSize,
      decrypt, bind, Except.bind, pure, Except.pure]

/-- **A cipher that deciphers what it enciphered also enciphers back what it deciphered.** -/
theorem encrypt_decrypt {c : BlockCipher} (hc : c.Invertible) {b : Bytes}
    (hb : b.length = c.blockSize) : c.encrypt (c.decrypt b) = b :=
  Bytes.rightInverse_of_leftInverse (fun _ h => c.length_encrypt h) hc hb

/-- Through the block functions, deciphering undoes enciphering and enciphering undoes
deciphering, on every block of the cipher's size. -/
theorem blockFunctions_inverse {c : BlockCipher} (hc : c.Invertible) {b : Bytes}
    (hb : b.length = c.blockSize) :
    (c.encryptBlock b >>= c.decryptBlock) = .ok b ∧
      (c.decryptBlock b >>= c.encryptBlock) = .ok b := by
  rw [encryptBlock_eq c hb, decryptBlock_eq c hb]
  constructor
  · show c.decryptBlock (c.encrypt b) = .ok b
    rw [decryptBlock_eq c (c.length_encrypt hb), hc b hb]
  · show c.encryptBlock (c.decrypt b) = .ok b
    rw [encryptBlock_eq c (c.length_decrypt hb), encrypt_decrypt hc hb]

end BlockCipher

/-! ## 3. Keyed Rijndael and keyed IDEA -/

/-- Rijndael takes every key of 16, 24 or 32 bytes. -/
theorem Rijndael.new_ok {key : Bytes}
    (hkey : key.length = 16 ∨ key.length = 24 ∨ key.length = 32) :
    ∃ c, Rijndael.new key = .ok c := by
  have hmem : keySizes.contains key.length = true := by
    rcases hkey with h | h | h <;> simp [keySizes, h]
  exact ⟨_, by simp only [new, Check.parameter, hmem, if_true]; rfl⟩

/-- **Keyed Rijndael is a permutation.**  Every key of 16, 24 or 32 bytes gives a cipher
whose block functions undo each other on every block of sixteen bytes. -/
theorem Rijndael.new_permutes_blocks16 {key : Bytes}
    (hkey : key.length = 16 ∨ key.length = 24 ∨ key.length = 32) :
    ∃ c, Rijndael.new key = .ok c ∧ ∀ b : Bytes, b.length = 16 →
      (c.encryptBlock b >>= c.decryptBlock) = .ok b ∧
        (c.decryptBlock b >>= c.encryptBlock) = .ok b := by
  obtain ⟨c, hc⟩ := Rijndael.new_ok hkey
  exact ⟨c, hc, fun b hb =>
    BlockCipher.blockFunctions_inverse (BlockCipher.invertible_rijndael c) hb⟩

/-- Rijndael keyed with sixteen zero bytes takes the block `0, 1, …, 15` there and back. -/
theorem Rijndael.new_permutes_zero_key :
    let b : Bytes := [0, 1, 2, 3, 4, 5, 6, 7, 8, 9, 10, 11, 12, 13, 14, 15]
    (Bytes.zeros 16).length = 16 ∧ ∃ c, Rijndael.new (Bytes.zeros 16) = .ok c ∧
      b.length = 16 ∧ (c.encryptBlock b >>= c.decryptBlock) = .ok b ∧
        (c.decryptBlock b >>= c.encryptBlock) = .ok b := by
  intro b
  obtain ⟨c, hc, h⟩ := Rijndael.new_permutes_blocks16
    (show (Bytes.zeros 16).length = 16 ∨ (Bytes.zeros 16).length = 24 ∨
      (Bytes.zeros 16).length = 32 from .inl (Bytes.length_zeros 16))
  exact ⟨Bytes.length_zeros 16, c, hc, rfl, h b rfl⟩

/-- IDEA takes every key of sixteen bytes, and derives its decryption schedule by inverting
the encryption schedule. -/
theorem Idea.new_ok {key : Bytes} (hkey : key.length = 16) :
    ∃ c, Idea.new key = .ok c :=
  ⟨_, by simp only [new, Check.length, keySize, hkey, if_true]; rfl⟩

/-- **Keyed IDEA is a permutation.**  Every key of sixteen bytes gives a cipher whose block
functions undo each other on every block of eight bytes. -/
theorem Idea.new_permutes_blocks8 {key : Bytes} (hkey : key.length = 16) :
    ∃ c, Idea.new key = .ok c ∧ ∀ b : Bytes, b.length = 8 →
      (c.encryptBlock b >>= c.decryptBlock) = .ok b ∧
        (c.decryptBlock b >>= c.encryptBlock) = .ok b := by
  obtain ⟨c, hc⟩ := Idea.new_ok hkey
  exact ⟨c, hc, fun b hb =>
    BlockCipher.blockFunctions_inverse (BlockCipher.invertible_idea (Idea.decryptKey_new hc)) hb⟩

/-- IDEA keyed with the bytes `1, 2, …, 16` takes the block `0, 1, …, 7` there and back. -/
theorem Idea.new_permutes_counting_key :
    let key : Bytes := [1, 2, 3, 4, 5, 6, 7, 8, 9, 10, 11, 12, 13, 14, 15, 16]
    let b : Bytes := [0, 1, 2, 3, 4, 5, 6, 7]
    key.length = 16 ∧ ∃ c, Idea.new key = .ok c ∧
      b.length = 8 ∧ (c.encryptBlock b >>= c.decryptBlock) = .ok b ∧
        (c.decryptBlock b >>= c.encryptBlock) = .ok b := by
  intro key b
  obtain ⟨c, hc, h⟩ := Idea.new_permutes_blocks8 (show key.length = 16 from rfl)
  exact ⟨rfl, c, hc, rfl, h b rfl⟩

end CipherEngine
