import Mathlib.Data.Fintype.Basic
import Mathlib.Tactic.FinCases
import CipherEngine.Primitive.Rijndael.Basic

/-!
# Rijndael decryption inverts encryption

Decryption runs the inverse steps with the round keys in reverse order, so it undoes
encryption one step at a time (`Rijndael.decrypt_encrypt`).  Each step has its inverse:

* the inverse box undoes the box (`invSbox_sbox`), checked over the 256 bytes;
* the inverse mixing undoes the mixing (`invMix_mix`).  Both are sums of maps that
  multiply by field elements, and `xtime` adds (`xtime_xor`), so the composite is the sum of
  its values on the four bytes of the column taken one at a time; each of the four is a map
  of one byte, checked over the 256 bytes;
* the row shifts undo each other, and adding a round key twice adds nothing.

A middle round of decryption meets the state a middle round of encryption left after the
next substitution and row shift (`State.subShift`), and takes it back to the same point one
round earlier (`State.invRound_subShift_round`); the induction over the round keys is
`decryptRounds_encryptRounds`.  Nothing is assumed of the round keys: the inverse holds for
every schedule, of any length.
-/

set_option autoImplicit false

namespace CipherEngine

namespace Rijndael

/-! ## 1. Checking a byte map over all bytes -/

/-- A fact about every byte follows from the 256 cases. -/
theorem byte_forall {P : UInt8 → Prop} (h : ∀ i : Fin 256, P (UInt8.ofFin i)) (x : UInt8) :
    P x := by
  have := h x.toFin
  simpa using this

/-- The same in eight runs of 32 bytes.  Each run is checked on its own, so a costly check
never holds the evaluations of all 256 bytes at once. -/
theorem byte_forall_runs {P : UInt8 → Prop}
    (h : ∀ k : Fin 8, ∀ i : Fin 32, P (UInt8.ofNat (32 * k + i))) (x : UInt8) : P x := by
  have hx := UInt8.toNat_lt x
  have := h ⟨x.toNat / 32, by omega⟩ ⟨x.toNat % 32, by omega⟩
  rwa [Nat.div_add_mod, UInt8.ofNat_toNat] at this

/-- The top bit of a byte. -/
theorem shiftRight_seven_cases (a : UInt8) : a >>> 7 = 0 ∨ a >>> 7 = 1 := by
  have hlt := UInt8.toNat_lt a
  have h : (a >>> 7).toNat < 2 := by
    rw [UInt8.toNat_shiftRight]
    simp
    omega
  rcases (by omega : (a >>> 7).toNat = 0 ∨ (a >>> 7).toNat = 1) with h0 | h1
  · exact .inl (UInt8.toNat_inj.mp (by simpa using h0))
  · exact .inr (UInt8.toNat_inj.mp (by simpa using h1))

theorem xor_xor_xor_comm (a b c d : UInt8) : (a ^^^ b) ^^^ (c ^^^ d) = (a ^^^ c) ^^^ (b ^^^ d) := by
  ac_rfl

/-- **Multiplication by x adds**: the shift adds, and the reduction depends on the top bit,
which adds too. -/
theorem xtime_xor (a b : UInt8) : xtime (a ^^^ b) = xtime a ^^^ xtime b := by
  unfold xtime
  rw [UInt8.shiftLeft_xor, UInt8.shiftRight_xor, xor_xor_xor_comm]
  congr 1
  rcases shiftRight_seven_cases a with ha | ha <;> rcases shiftRight_seven_cases b with hb | hb <;>
    rw [ha, hb] <;> decide

theorem mul9_xor (a b : UInt8) : mul9 (a ^^^ b) = mul9 a ^^^ mul9 b := by
  simp only [mul9, xtime_xor]
  ac_rfl

theorem mul11_xor (a b : UInt8) : mul11 (a ^^^ b) = mul11 a ^^^ mul11 b := by
  simp only [mul11, xtime_xor]
  ac_rfl

theorem mul13_xor (a b : UInt8) : mul13 (a ^^^ b) = mul13 a ^^^ mul13 b := by
  simp only [mul13, xtime_xor]
  ac_rfl

theorem mul14_xor (a b : UInt8) : mul14 (a ^^^ b) = mul14 a ^^^ mul14 b := by
  simp only [mul14, xtime_xor]
  ac_rfl

/-! ## 2. The inverse steps on bytes -/

/-- The inverse box undoes the box, checked over the 256 bytes. -/
theorem invSbox_sbox (x : UInt8) : invSbox (sbox x) = x := by
  revert x
  apply byte_forall_runs
  intro k
  fin_cases k <;> decide +kernel

theorem invSubByte_subByte (x : UInt8) : invSubByte (subByte x) = x := by
  rw [subByte_eq, invSubByte_eq, invSbox_sbox]

/-! What the inverse mixing makes of each byte of the column, taken alone: the byte it
starts from gives itself back, and the other three give nothing. -/

theorem unmix (x : UInt8) :
    mul14 (xtime x) ^^^ mul11 x ^^^ mul13 x ^^^ (mul9 (xtime x) ^^^ mul9 x) = x ∧
      (mul14 (xtime x) ^^^ mul14 x) ^^^ mul11 (xtime x) ^^^ mul13 x ^^^ mul9 x = 0 ∧
      mul14 x ^^^ (mul11 (xtime x) ^^^ mul11 x) ^^^ mul13 (xtime x) ^^^ mul9 x = 0 ∧
      mul14 x ^^^ mul11 x ^^^ (mul13 (xtime x) ^^^ mul13 x) ^^^ mul9 (xtime x) = 0 := by
  revert x
  apply byte_forall
  decide +kernel

/-- **The inverse mixing undoes the mixing**, row by row: the first row of the inverse
matrix against the mixed column gives back the column's first byte. -/
theorem invMix_mix (a b c d : UInt8) :
    invMix (mix a b c d) (mix b c d a) (mix c d a b) (mix d a b c) = a := by
  rw [invMix_eq]
  simp only [mix, mul9_xor, mul11_xor, mul13_xor, mul14_xor]
  calc _ = (mul14 (xtime a) ^^^ mul11 a ^^^ mul13 a ^^^ (mul9 (xtime a) ^^^ mul9 a)) ^^^
        ((mul14 (xtime b) ^^^ mul14 b) ^^^ mul11 (xtime b) ^^^ mul13 b ^^^ mul9 b) ^^^
        (mul14 c ^^^ (mul11 (xtime c) ^^^ mul11 c) ^^^ mul13 (xtime c) ^^^ mul9 c) ^^^
        (mul14 d ^^^ mul11 d ^^^ (mul13 (xtime d) ^^^ mul13 d) ^^^ mul9 (xtime d)) := by
        ac_rfl
    _ = a := by
        rw [(unmix a).1, (unmix b).2.1, (unmix c).2.2.1, (unmix d).2.2.2]
        simp

theorem invSubBytes_subBytes (s : Bytes) : invSubBytes (subBytes s) = s := by
  simp [invSubBytes, subBytes, Function.comp_def, invSubByte_subByte]

theorem length_subBytes (s : Bytes) : (subBytes s).length = s.length := by
  simp [subBytes]

theorem invShiftRows_shiftRows : ∀ s : Bytes, s.length = 16 → invShiftRows (shiftRows s) = s
  | [_, _, _, _, _, _, _, _, _, _, _, _, _, _, _, _], _ => rfl

theorem length_shiftRows : ∀ s : Bytes, s.length = 16 → (shiftRows s).length = 16
  | [_, _, _, _, _, _, _, _, _, _, _, _, _, _, _, _], _ => rfl

theorem invMixColumns_mixColumns : ∀ s : Bytes, s.length = 16 → invMixColumns (mixColumns s) = s
  | [_, _, _, _, _, _, _, _, _, _, _, _, _, _, _, _], _ => by
    simp only [mixColumns, mixColumn, List.cons_append, List.nil_append, invMixColumns,
      invMixColumn, invMix_mix]

theorem length_mixColumns : ∀ s : Bytes, s.length = 16 → (mixColumns s).length = 16
  | [_, _, _, _, _, _, _, _, _, _, _, _, _, _, _, _], _ => rfl

/-! ## 3. Rounds undo rounds -/

namespace State

/-- A state is its bytes. -/
theorem ext_toBytes {s t : State} (h : s.toBytes = t.toBytes) : s = t := by
  rw [← ofBytes_toBytes s, h, ofBytes_toBytes]

/-- The substitution and row shift of a state, where encryption and decryption meet. -/
def subShift (s : State) : State := ofBytes (shiftRows (subBytes s.toBytes))

theorem toBytes_subShift (s : State) :
    s.subShift.toBytes = shiftRows (subBytes s.toBytes) :=
  toBytes_ofBytes _ (length_shiftRows _ (by rw [length_subBytes, length_toBytes]))

theorem addKey_addKey (s k : State) : (s.addKey k).addKey k = s := by
  apply ext_toBytes
  rw [toBytes_addKey, toBytes_addKey]
  exact Bytes.xor_xor_cancel _ _ (Nat.le_of_eq (by rw [length_toBytes, length_toBytes]))

/-- The last key added to the last round leaves the substituted, shifted state. -/
theorem addKey_lastRound (s k : State) : (s.lastRound k).addKey k = s.subShift := by
  apply ext_toBytes
  rw [toBytes_addKey, toBytes_lastRound, toBytes_subShift]
  exact Bytes.xor_xor_cancel _ _ (Nat.le_of_eq (by
    rw [length_shiftRows _ (by rw [length_subBytes, length_toBytes]), length_toBytes]))

/-- **A middle round of decryption undoes a middle round of encryption**, from where the next
substitution and shift left it to where the previous one did. -/
theorem invRound_subShift_round (s k : State) : (s.round k).subShift.invRound k = s.subShift := by
  apply ext_toBytes
  have h16 : (shiftRows (subBytes s.toBytes)).length = 16 :=
    length_shiftRows _ (by rw [length_subBytes, length_toBytes])
  rw [toBytes_invRound, toBytes_subShift, invShiftRows_shiftRows _
    (by rw [length_subBytes, length_toBytes]), invSubBytes_subBytes, toBytes_round,
    Bytes.xor_xor_cancel _ _ (Nat.le_of_eq (by rw [length_mixColumns _ h16, length_toBytes])),
    invMixColumns_mixColumns _ h16, toBytes_subShift]

theorem invLastRound_subShift (s k : State) : s.subShift.invLastRound k = s.addKey k := by
  apply ext_toBytes
  rw [toBytes_invLastRound, toBytes_subShift, invShiftRows_shiftRows _
    (by rw [length_subBytes, length_toBytes]), invSubBytes_subBytes, toBytes_addKey]

end State

theorem encryptRounds_cons (s k : State) {ks : List State} (hks : ks ≠ []) :
    encryptRounds s (k :: ks) = encryptRounds (s.round k) ks := by
  obtain ⟨k', ks', rfl⟩ := List.exists_cons_of_ne_nil hks
  rfl

theorem decryptRounds_cons (s k : State) {ks : List State} (hks : ks ≠ []) :
    decryptRounds s (k :: ks) = decryptRounds (s.invRound k) ks := by
  obtain ⟨k', ks', rfl⟩ := List.exists_cons_of_ne_nil hks
  rfl

/-- **The inverse rounds, with the keys reversed, undo the rounds.**  After the last key is
taken off, decryption over the middle keys in reverse order comes back to the substituted
and shifted first state, and goes on with whatever keys follow.  By induction on the middle
keys. -/
theorem decryptRounds_encryptRounds (last : State) :
    ∀ (middle : List State) (s : State) (tail : List State), tail ≠ [] →
      decryptRounds ((encryptRounds s (middle ++ [last])).addKey last) (middle.reverse ++ tail) =
        decryptRounds s.subShift tail
  | [], s, tail, _ => by
    rw [List.nil_append, List.reverse_nil, List.nil_append]
    exact congrArg (decryptRounds · tail) (State.addKey_lastRound s last)
  | k :: middle, s, tail, htail => by
    rw [List.cons_append, encryptRounds_cons s k (by simp), List.reverse_cons, List.append_assoc,
      decryptRounds_encryptRounds last middle (s.round k) ([k] ++ tail) (by simp),
      List.singleton_append, decryptRounds_cons _ k htail, State.invRound_subShift_round]

/-- **Rijndael decryption inverts encryption** on every block of sixteen bytes, under every
schedule of round keys. -/
theorem decrypt_encrypt (c : Rijndael) {b : Bytes} (hb : b.length = 16) :
    c.decrypt (c.encrypt b) = b := by
  unfold encrypt decrypt
  cases hkeys : c.roundKeys with
  | nil => simp
  | cons k0 ks =>
    simp only [List.reverse_cons]
    rcases List.eq_nil_or_concat ks with rfl | ⟨middle, last, rfl⟩
    · simp only [List.reverse_nil, List.nil_append, encryptRounds, decryptRounds,
        State.ofBytes_toBytes, State.addKey_addKey]
      exact State.toBytes_ofBytes b hb
    · -- the last key comes off first, then the middle keys in reverse, then the first
      rw [List.concat_eq_append, List.reverse_append, List.reverse_singleton,
        List.singleton_append, List.cons_append]
      dsimp only
      rw [State.ofBytes_toBytes, decryptRounds_encryptRounds last middle _ [k0] (by simp)]
      simp only [decryptRounds, State.invLastRound_subShift, State.addKey_addKey]
      exact State.toBytes_ofBytes b hb

end Rijndael

end CipherEngine
