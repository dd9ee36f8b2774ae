import CipherEngine.Proofs.Cipher.Field

/-!
# Rijndael is the AES of FIPS-197

The running cipher computes what the standard writes (`Rijndael.encrypt_eq_fips`), for every
key of four, six or eight words and every block of sixteen bytes.  The two are written quite
differently: the S-box is computed as an inverse and an affine map, not looked up; the state
is sixteen named bytes updated a whole round at a time; the schedule is a flat array of
words grown in a loop, with the round constants from a table.  The proof meets them piece by
piece:

* the S-box is the table of Figure 7, checked over the 256 bytes (`sbox_eq_table`);
* a state's bytes, read column by column, are the state array (`State.toArray`), and each
  step on the bytes is the standard's step on the array (`ofInput_shiftRows`,
  `ofInput_mixColumns`, with the field product from `Proofs/Cipher/Field`); so is each
  whole round (`State.toArray_round`);
* the schedule's words are the words of Figure 11 (`expandWords_eq`), the round constants
  being the powers of `x` (`rcon_eq`), and the round keys are those words four at a time
  (`roundKeys_new`);
* the rounds after the first key are the loop of Figure 5 (`toArray_encryptRounds`).
-/

set_option autoImplicit false

namespace CipherEngine

open Standard Polynomial

/-! ## 1. The key schedule of the standard, unfolded -/

namespace Standard.Aes

theorem keyWord_lt (v : KeyLength) (key : Bytes) {i : ℕ} (h : i < v.nk) :
    keyWord v key i = fun j : Fin 4 => key.getD (4 * i + j) 0 := by
  rw [keyWord.eq_1, dif_pos h]

theorem keyWord_ge (v : KeyLength) (key : Bytes) {i : ℕ} (h : v.nk ≤ i) :
    keyWord v key i = xorWord (keyWord v key (i - v.nk))
      (if i % v.nk = 0 then xorWord (subWord (rotWord (keyWord v key (i - 1)))) (rcon (i / v.nk))
        else if 6 < v.nk ∧ i % v.nk = 4 then subWord (keyWord v key (i - 1))
        else keyWord v key (i - 1)) := by
  rw [keyWord.eq_1, dif_neg (by omega)]

theorem nr_eq (v : KeyLength) : v.nr = v.nk + 6 := by
  cases v <;> rfl

end Standard.Aes

namespace Rijndael

/-! ## 2. The S-box -/

/-- **The S-box is the table of FIPS-197**, checked over the 256 bytes. -/
theorem sbox_eq_table (x : UInt8) : sbox x = Aes.subByte x := by
  revert x
  apply byte_forall_runs
  intro k
  fin_cases k <;> decide +kernel

theorem subByte_eq_table (x : UInt8) : subByte x = Aes.subByte x := by
  rw [subByte_eq, sbox_eq_table]

/-! ## 3. The state array

Byte `r + 4c` of a state stands in row `r` and column `c`.  Each step is checked on the
sixteen places; the mixing needs the field product by one, two and three. -/

namespace State

/-- The state array of the standard that a state's bytes fill, column by column. -/
def toArray (s : State) : Aes.State := Aes.ofInput s.toBytes

theorem toOutput_toArray (s : State) : Aes.toOutput s.toArray = s.toBytes := rfl

theorem toArray_ofBytes {b : Bytes} (hb : b.length = 16) : (ofBytes b).toArray = Aes.ofInput b := by
  rw [toArray, toBytes_ofBytes b hb]

theorem toArray_addKey (s k : State) :
    (s.addKey k).toArray = fun r c => s.toArray r c ^^^ k.toArray r c := by
  funext r c
  fin_cases r <;> fin_cases c <;> rfl

end State

theorem ofInput_subBytes (s : State) :
    Aes.ofInput (subBytes s.toBytes) = Aes.subBytes s.toArray := by
  funext r c
  fin_cases r <;> fin_cases c <;>
    simp [Aes.subBytes, State.toArray, Aes.ofInput, subBytes, State.toBytes, subByte_eq_table]

/-- **ShiftRows**: the row shift on the bytes is the standard's on the array. -/
theorem ofInput_shiftRows (s : State) :
    Aes.ofInput (shiftRows s.toBytes) = Aes.shiftRows s.toArray := by
  funext r c
  fin_cases r <;> fin_cases c <;> rfl

/-- **MixColumns**: the column mixing on the bytes is the standard's matrix product on the
array. -/
theorem ofInput_mixColumns (s : State) :
    Aes.ofInput (mixColumns s.toBytes) = Aes.mixColumns s.toArray := by
  funext r c
  fin_cases r <;> fin_cases c <;>
    simp [Aes.mixColumns, Aes.mixMatrix, State.toArray, Aes.ofInput, mixColumns, mixColumn, mix,
      State.toBytes, Aes.one_mul_eq, Aes.two_mul_eq, Aes.three_mul_eq] <;>
    ac_rfl

namespace State

theorem toArray_subShift (s : State) :
    s.subShift.toArray = Aes.shiftRows (Aes.subBytes s.toArray) := by
  have h16 : (subBytes s.toBytes).length = 16 := by rw [length_subBytes, length_toBytes]
  have hsub : (ofBytes (subBytes s.toBytes)).toBytes = subBytes s.toBytes := toBytes_ofBytes _ h16
  rw [toArray, toBytes_subShift, ← hsub, ofInput_shiftRows, toArray, hsub, ofInput_subBytes]

/-- A middle round on a state is the standard's round on its array. -/
theorem toArray_round (s k : State) :
    (s.round k).toArray =
      fun r c => Aes.mixColumns (Aes.shiftRows (Aes.subBytes s.toArray)) r c ^^^ k.toArray r c := by
  have h16 : (mixColumns s.subShift.toBytes).length = 16 :=
    length_mixColumns _ (length_toBytes _)
  have hround : s.round k = (ofBytes (mixColumns s.subShift.toBytes)).addKey k := by
    apply ext_toBytes
    rw [toBytes_addKey, toBytes_ofBytes _ h16, toBytes_subShift, toBytes_round]
  rw [hround, toArray_addKey, toArray_ofBytes h16, ofInput_mixColumns, toArray_subShift]

/-- The last round on a state is the standard's last round on its array. -/
theorem toArray_lastRound (s k : State) :
    (s.lastRound k).toArray =
      fun r c => Aes.shiftRows (Aes.subBytes s.toArray) r c ^^^ k.toArray r c := by
  have hlast : s.lastRound k = s.subShift.addKey k := by
    apply ext_toBytes
    rw [toBytes_addKey, toBytes_subShift, toBytes_lastRound]
  rw [hlast, toArray_addKey, toArray_subShift]

end State

/-! ## 4. The key schedule

The words of the schedule are lists of four bytes; those of the standard are maps from the
four places, read off as `List.ofFn`. -/

/-- The round constants of the table are the powers of `x` in the field. -/
theorem rcon_eq {j : ℕ} (h1 : 1 ≤ j) (h10 : j ≤ 10) : Aes.rcon j 0 = rcon j := by
  rw [Aes.rcon, Matrix.cons_val_zero, Aes.ofPoly_X_pow]
  interval_cases j <;> decide

/-- A word of the key, cut from its bytes. -/
theorem take_drop_key {key : Bytes} {i : ℕ} (h : 4 * i + 4 ≤ key.length) :
    (key.drop (4 * i)).take 4 = List.ofFn fun j : Fin 4 => key.getD (4 * i + j) 0 := by
  apply List.ext_getElem
  · simp
    omega
  · intro j h₁ h₂
    have hj : 4 * i + j < key.length := by simp at h₁; omega
    rw [List.getElem_take, List.getElem_drop, List.getElem_ofFn, List.getD_eq_getElem?_getD,
      List.getElem?_eq_getElem hj, Option.getD_some]

/-- `temp` on a word's bytes is the standard's `temp` on the word. -/
theorem temp_ofFn (v : Aes.KeyLength) {i : ℕ} (w : Aes.Word) (hi : v.nk ≤ i)
    (h10 : i / v.nk ≤ 10) :
    temp v.nk i (List.ofFn w) = List.ofFn
      (if i % v.nk = 0 then Aes.xorWord (Aes.subWord (Aes.rotWord w)) (Aes.rcon (i / v.nk))
        else if 6 < v.nk ∧ i % v.nk = 4 then Aes.subWord w
        else w) := by
  unfold temp
  by_cases h1 : i % v.nk = 0
  · have hj : 1 ≤ i / v.nk := Nat.div_pos hi v.nk_pos
    rw [if_pos h1, if_pos h1]
    simp [Aes.xorWord, Aes.subWord, Aes.rotWord, subByte_eq_table, ← rcon_eq hj h10, Aes.rcon]
  · rw [if_neg h1, if_neg h1]
    by_cases h2 : 6 < v.nk ∧ i % v.nk = 4
    · rw [if_pos h2, if_pos h2]
      simp [Aes.subWord, subByte_eq_table]
    · rw [if_neg h2, if_neg h2]

theorem expandWords_succ (key : Bytes) (nk m : ℕ) :
    expandWords key nk (nk + (m + 1)) =
      (expandWords key nk (nk + m)).push (Bytes.xor ((expandWords key nk (nk + m)).getD m [])
        (temp nk (nk + m) ((expandWords key nk (nk + m)).getD (nk + m - 1) []))) := by
  simp only [expandWords, Nat.add_sub_cancel_left, List.range_succ, List.foldl_append,
    List.foldl_cons, List.foldl_nil]

theorem getD_map_range {α : Type} (f : ℕ → α) {n i : ℕ} (d : α) (h : i < n) :
    ((List.range n).map f).getD i d = f i := by
  simp [List.getD, h]

/-- **The schedule is the key expansion of FIPS-197**: the first `Nk + m` words are words `0`
to `Nk + m - 1` of Figure 11, as long as the round constants stay within the table.  By
induction on `m`, one pushed word at a time. -/
theorem expandWords_eq (v : Aes.KeyLength) {key : Bytes} (hkey : key.length = 4 * v.nk) :
    ∀ m, v.nk + m ≤ 11 * v.nk → (expandWords key v.nk (v.nk + m)).toList =
      (List.range (v.nk + m)).map fun i => List.ofFn (Aes.keyWord v key i)
  | 0, _ => by
    simp only [expandWords, Nat.add_zero, Nat.sub_self, List.range_zero, List.foldl_nil]
    refine List.map_congr_left fun i hi => ?_
    have hi' : i < v.nk := List.mem_range.mp hi
    rw [take_drop_key (by omega), Aes.keyWord_lt v key hi']
  | m + 1, hm => by
    have hpos := v.nk_pos
    have hwords := expandWords_eq v hkey m (by omega)
    have hgetD : ∀ i, i < v.nk + m →
        (expandWords key v.nk (v.nk + m)).getD i [] = List.ofFn (Aes.keyWord v key i) := by
      intro i hi
      rw [Array.getD_eq_getD_getElem?, ← Array.getElem?_toList, hwords,
        ← List.getD_eq_getElem?_getD, getD_map_range _ _ hi]
    have h10 : (v.nk + m) / v.nk ≤ 10 :=
      Nat.le_of_lt_succ ((Nat.div_lt_iff_lt_mul hpos).2 (by omega))
    rw [expandWords_succ, Array.toList_push, hwords, ← Nat.add_assoc, List.range_succ,
      List.map_append, List.map_singleton, hgetD m (by omega), hgetD (v.nk + m - 1) (by omega),
      temp_ofFn v _ (by omega) h10, Aes.keyWord_ge v key (i := v.nk + m) (by omega),
      Nat.add_sub_cancel_left]
    rfl

/-- Words taken four at a time make the round keys, from round key `j` on. -/
theorem roundKeysOf_range' (W : ℕ → Bytes) :
    ∀ n j, roundKeysOf ((List.range' (4 * j) (4 * n)).map W) =
      (List.range' j n).map fun j => W (4 * j) ++ W (4 * j + 1) ++ W (4 * j + 2) ++ W (4 * j + 3)
  | 0, _ => rfl
  | n + 1, j => by
    rw [show 4 * (n + 1) = 4 * n + 1 + 1 + 1 + 1 by omega, List.range'_succ, List.range'_succ,
      List.range'_succ, List.range'_succ, List.range'_succ,
      show 4 * j + 1 + 1 + 1 + 1 = 4 * (j + 1) by omega]
    simp only [List.map_cons, roundKeysOf, roundKeysOf_range' W n (j + 1)]

/-- Keying takes every key of four, six or eight words, with `Nk + 6` rounds. -/
theorem new_eq (v : Aes.KeyLength) {key : Bytes} (hkey : key.length = 4 * v.nk) :
    new key = .ok ⟨(roundKeysOf (expandWords key v.nk (4 * (v.nr + 1))).toList).map State.ofBytes,
      v.nr⟩ := by
  have hmem : keySizes.contains key.length = true := by
    cases v <;> simp [keySizes, hkey, Aes.KeyLength.nk]
  have hnk : key.length / 4 = v.nk := by omega
  simp only [new, Check.parameter, hmem, if_true, hnk, ← Aes.nr_eq]
  rfl

/-- **The round keys are the words of the standard, four at a time.** -/
theorem roundKeys_new (v : Aes.KeyLength) {key : Bytes} (hkey : key.length = 4 * v.nk) :
    (roundKeysOf (expandWords key v.nk (4 * (v.nr + 1))).toList).map State.ofBytes =
      (List.range' 0 (v.nr + 1)).map fun j => State.ofBytes
        (List.ofFn (Aes.keyWord v key (4 * j)) ++ List.ofFn (Aes.keyWord v key (4 * j + 1)) ++
          List.ofFn (Aes.keyWord v key (4 * j + 2)) ++ List.ofFn (Aes.keyWord v key (4 * j + 3))) := by
  have htotal : 4 * (v.nr + 1) = v.nk + (4 * (v.nr + 1) - v.nk) := by
    cases v <;> rfl
  have hwords := expandWords_eq v hkey (4 * (v.nr + 1) - v.nk) (by cases v <;> decide)
  rw [← htotal, List.range_eq_range', show 0 = 4 * 0 from rfl] at hwords
  rw [hwords, roundKeysOf_range', List.map_map]
  rfl

/-- Round key `j` adds words `4j` to `4j + 3` of the schedule, one to each column. -/
theorem toArray_roundKey (w : ℕ → Aes.Word) (j : ℕ) :
    (State.ofBytes (List.ofFn (w (4 * j)) ++ List.ofFn (w (4 * j + 1)) ++
      List.ofFn (w (4 * j + 2)) ++ List.ofFn (w (4 * j + 3)))).toArray =
        fun (r c : Fin 4) => w (4 * j + c) r := by
  funext r c
  fin_cases r <;> fin_cases c <;> rfl

/-! ## 5. The cipher -/

/-- **The rounds after the first key are the loop of the standard**: over round keys `j` to
`j + n`, the middle rounds are the standard's rounds `j` to `j + n - 1` and the last one
leaves out the mixing.  By induction on `n`. -/
theorem toArray_encryptRounds (K : ℕ → State) (w : ℕ → Aes.Word)
    (hK : ∀ j, (K j).toArray = fun (r c : Fin 4) => w (4 * j + c) r) :
    ∀ (n j : ℕ) (s : State), (encryptRounds s ((List.range' j (n + 1)).map K)).toArray =
      Aes.addRoundKey (Aes.shiftRows (Aes.subBytes
        ((List.range' j n).foldl (Aes.round w) s.toArray))) w (j + n)
  | 0, j, s => by
    rw [List.range'_succ, List.range'_zero, List.map_singleton, encryptRounds,
      State.toArray_lastRound, hK]
    rfl
  | n + 1, j, s => by
    rw [List.range'_succ, List.map_cons, encryptRounds_cons _ _ (by simp),
      toArray_encryptRounds K w hK n (j + 1), State.toArray_round, hK, List.range'_succ,
      List.foldl_cons, Nat.add_right_comm j 1 n, Nat.add_assoc]
    rfl

/-- The running cipher on a block is the standard's cipher. -/
theorem encrypt_eq_cipher (v : Aes.KeyLength) {key : Bytes} (hkey : key.length = 4 * v.nk)
    {block : Bytes} (hblock : block.length = 16) :
    Rijndael.encrypt ⟨(roundKeysOf (expandWords key v.nk (4 * (v.nr + 1))).toList).map
      State.ofBytes, v.nr⟩ block = Aes.cipher v key block := by
  obtain ⟨n, hn⟩ : ∃ n, v.nr = n + 1 := ⟨v.nr - 1, by cases v <;> rfl⟩
  rw [encrypt, roundKeys_new v hkey, hn, List.range'_succ, List.map_cons]
  dsimp only
  rw [← State.toOutput_toArray,
    toArray_encryptRounds _ (Aes.keyWord v key) (toArray_roundKey _) n 1, State.toArray_addKey,
    State.toArray_ofBytes hblock, toArray_roundKey, Aes.cipher, hn, Nat.add_sub_cancel,
    Nat.add_comm 1 n]
  rfl

/-! ## 6. Rijndael is the AES of FIPS-197 -/

/-- **Rijndael is the AES of FIPS-197.**  For a key of `Nk` four-byte words (four, six or
eight) and a block of sixteen bytes: the S-box is the table of the standard; `xtime` and
`gmul` multiply modulo `m(x)`; the row shift and the column mixing on a state's bytes are the
standard's on the array `s[r, c] = in[r + 4c]`; keying gives `Nr = Nk + 6` rounds whose round
keys are the words of the standard's key expansion, four at a time; and encrypting the block
is the standard's cipher. -/
theorem encrypt_eq_fips (v : Aes.KeyLength) (key block : Bytes) (hkey : key.length = 4 * v.nk)
    (hblock : block.length = 16) :
    (∀ x, sbox x = Aes.subByte x) ∧
    (∀ a b, Aes.toPoly (xtime a) = X * Aes.toPoly a %ₘ Aes.modulus ∧
      Aes.toPoly (gmul a b) = Aes.toPoly a * Aes.toPoly b %ₘ Aes.modulus) ∧
    (∀ s : State, Aes.ofInput (shiftRows s.toBytes) = Aes.shiftRows (Aes.ofInput s.toBytes) ∧
      Aes.ofInput (mixColumns s.toBytes) = Aes.mixColumns (Aes.ofInput s.toBytes)) ∧
    ∃ c, new key = .ok c ∧ c.rounds = v.nr ∧ v.nr = v.nk + 6 ∧
      c.roundKeys.map State.toBytes = (List.range (v.nr + 1)).map (fun j =>
        List.ofFn (Aes.keyWord v key (4 * j)) ++ List.ofFn (Aes.keyWord v key (4 * j + 1)) ++
          List.ofFn (Aes.keyWord v key (4 * j + 2)) ++ List.ofFn (Aes.keyWord v key (4 * j + 3))) ∧
      c.encrypt block = Aes.cipher v key block := by
  refine ⟨sbox_eq_table, fun a b => ⟨Aes.toPoly_xtime a, Aes.toPoly_gmul a b⟩,
    fun s => ⟨ofInput_shiftRows s, ofInput_mixColumns s⟩, _, new_eq v hkey, rfl, Aes.nr_eq v,
    ?_, encrypt_eq_cipher v hkey hblock⟩
  rw [roundKeys_new v hkey, List.map_map, List.range_eq_range']
  exact List.map_congr_left fun j _ => State.toBytes_ofBytes _ (by simp)

/-- FIPS-197, Appendix C.1: AES-128 under the key `00 01 … 0f` takes the block
`00 11 … ff` to `69 c4 … 5a`.  The standard's cipher cannot be run, as its field product is
read off polynomials; it is met here through the running cipher. -/
theorem encrypt_eq_fips_appendixC1 :
    ([0x00, 0x01, 0x02, 0x03, 0x04, 0x05, 0x06, 0x07, 0x08, 0x09, 0x0a, 0x0b, 0x0c, 0x0d, 0x0e,
        0x0f] : Bytes).length = 4 * Aes.KeyLength.aes128.nk ∧
    ([0x00, 0x11, 0x22, 0x33, 0x44, 0x55, 0x66, 0x77, 0x88, 0x99, 0xaa, 0xbb, 0xcc, 0xdd, 0xee,
        0xff] : Bytes).length = 16 ∧
    Aes.cipher .aes128
      [0x00, 0x01, 0x02, 0x03, 0x04, 0x05, 0x06, 0x07, 0x08, 0x09, 0x0a, 0x0b, 0x0c, 0x0d, 0x0e, 0x0f]
      [0x00, 0x11, 0x22, 0x33, 0x44, 0x55, 0x66, 0x77, 0x88, 0x99, 0xaa, 0xbb, 0xcc, 0xdd, 0xee, 0xff] =
      [0x69, 0xc4, 0xe0, 0xd8, 0x6a, 0x7b, 0x04, 0x30, 0xd8, 0xcd, 0xb7, 0x80, 0x70, 0xb4, 0xc5,
        0x5a] := by
  obtain ⟨-, -, -, c, hc, -, -, -, henc⟩ := encrypt_eq_fips .aes128
    [0x00, 0x01, 0x02, 0x03, 0x04, 0x05, 0x06, 0x07, 0x08, 0x09, 0x0a, 0x0b, 0x0c, 0x0d, 0x0e, 0x0f]
    [0x00, 0x11, 0x22, 0x33, 0x44, 0x55, 0x66, 0x77, 0x88, 0x99, 0xaa, 0xbb, 0xcc, 0xdd, 0xee, 0xff]
    rfl rfl
  have hrun : (new [0x00, 0x01, 0x02, 0x03, 0x04, 0x05, 0x06, 0x07, 0x08, 0x09, 0x0a, 0x0b, 0x0c,
      0x0d, 0x0e, 0x0f]).map (fun c => c.encrypt
        [0x00, 0x11, 0x22, 0x33, 0x44, 0x55, 0x66, 0x77, 0x88, 0x99, 0xaa, 0xbb, 0xcc, 0xdd, 0xee,
          0xff]) =
      .ok [0x69, 0xc4, 0xe0, 0xd8, 0x6a, 0x7b, 0x04, 0x30, 0xd8, 0xcd, 0xb7, 0x80, 0x70, 0xb4,
        0xc5, 0x5a] := by
    decide +kernel
  rw [hc] at hrun
  refine ⟨rfl, rfl, ?_⟩
  rw [← henc]
  exact Except.ok.inj hrun

end Rijndael

end CipherEngine
