import CipherEngine.Proofs.Cipher.Permutation

/-!
# Building a keyed mode: when it succeeds, and which refusal it reports

`ModeUnit.build` keys the cipher of an algorithm unit and wraps it in the unit's mode.  Three
checks can refuse it:

* the cipher's key check: Arcfour takes 1 to 256 bytes, Rijndael 16, 24 or 32, IDEA 16;
* the pairing: Arcfour runs under the stream mode only, a block cipher under every other mode;
* the vector: every block mode but ECB takes exactly one block.

The two kinds of cipher make the first two checks in opposite orders.  Over Arcfour the pairing
is checked before the key is looked at; over a block cipher the key is checked first, so that a
refused key is reported whatever the mode and the vector (`ModeUnit.build_of_rijndael_key`,
`ModeUnit.build_of_idea_key`).

Main statement: `ModeUnit.build_ok_iff_and_error_order`, building succeeds exactly when the
three checks pass, and the refusals come in that order.
-/

set_option autoImplicit false

namespace CipherEngine

/-! ## 1. The ciphers' key checks -/

theorem Arcfour.new_ok_iff (key : Bytes) :
    (∃ c, Arcfour.new key = .ok c) ↔ 1 ≤ key.length ∧ key.length ≤ 256 := by
  unfold Arcfour.new Check.lengthRange maxKeySize
  split
  · simp only [bind, Except.bind, reduceCtorEq, exists_false, false_iff]
    omega
  split
  · simp only [bind, Except.bind, reduceCtorEq, exists_false, false_iff]
    omega
  · simp only [bind, Except.bind, pure, Except.pure, Except.ok.injEq, exists_eq', true_iff]
    omega

/-- A key of another length is refused by the parameter check. -/
theorem Rijndael.new_of_not_mem {key : Bytes} (h : key.length ∉ [16, 24, 32]) :
    Rijndael.new key = .error (.parameter "Rijndael key" "key must be 16, 24 or 32 bytes") := by
  have hc : keySizes.contains key.length = false := by simpa [keySizes] using h
  simp only [Rijndael.new, Check.parameter, hc]
  rfl

theorem Rijndael.new_ok_iff (key : Bytes) :
    (∃ c, Rijndael.new key = .ok c) ↔ key.length ∈ [16, 24, 32] := by
  by_cases h : key.length ∈ [16, 24, 32]
  · exact iff_of_true (Rijndael.new_ok (by simpa using h)) h
  · exact iff_of_false (by simp [Rijndael.new_of_not_mem h]) h

/-- A key of another length is refused by the length check, which names both lengths. -/
theorem Idea.new_of_ne {key : Bytes} (h : key.length ≠ 16) :
    Idea.new key = .error (.length "IDEA key" 16 key.length) := by
  simp only [Idea.new, Check.length, keySize, h]
  rfl

theorem Idea.new_ok_iff (key : Bytes) : (∃ c, Idea.new key = .ok c) ↔ key.length = 16 := by
  by_cases h : key.length = 16
  · exact iff_of_true (Idea.new_ok h) h
  · exact iff_of_false (by simp [Idea.new_of_ne h]) h

/-! ## 2. Modes over a block cipher -/

namespace ModeUnit

/-- ECB takes any vector, the stream mode none, and the other modes a vector of one block. -/
theorem overBlock_ok_iff (k : ModeKind) (c : BlockCipher) (iv : Bytes) :
    (∃ m, overBlock k c iv = .ok m) ↔ k ≠ .stream ∧ (k = .ecb ∨ iv.length = c.blockSize) := by
  cases k with
  | ecb => simp [overBlock, pure, Except.pure]
  | stream => simp [overBlock]
  | _ => by_cases hiv : iv.length = c.blockSize <;> simp [overBlock, Check.length, hiv]

/-- Over a block cipher the key is checked first; an accepted key leaves the mode and the
vector to `overBlock`, which looks at the cipher only for its block length. -/
theorem bind_overBlock_ok_iff {α : Type} {x : Except PrimitiveError α} (wrap : α → BlockCipher)
    (n : Nat) (hn : ∀ c, (wrap c).blockSize = n) (k : ModeKind) (iv : Bytes) :
    (∃ m, (x >>= fun c => overBlock k (wrap c) iv) = .ok m) ↔
      (∃ c, x = .ok c) ∧ k ≠ .stream ∧ (k = .ecb ∨ iv.length = n) := by
  simp only [bind_eq_ok]
  constructor
  · rintro ⟨m, c, hx, hm⟩
    rw [← hn c]
    exact ⟨⟨c, hx⟩, (overBlock_ok_iff k (wrap c) iv).mp ⟨m, hm⟩⟩
  · rintro ⟨⟨c, hx⟩, hk⟩
    obtain ⟨m, hm⟩ := (overBlock_ok_iff k (wrap c) iv).mpr (by rw [hn c]; exact hk)
    exact ⟨m, c, hx, hm⟩

/-! ## 3. Building -/

/-- Building succeeds exactly when the key, the pairing and the vector pass their checks. -/
theorem build_ok_iff (mu : ModeUnit) (au : AlgorithmUnit) (key iv : Bytes) :
    (∃ m, mu.build au key iv = .ok m) ↔
      (au.kind = .arcfour ∧ mu.kind = .stream ∧ 1 ≤ key.length ∧ key.length ≤ 256) ∨
      (mu.kind ≠ .stream ∧
        (au.kind = .rijndael ∧ key.length ∈ [16, 24, 32] ∨ au.kind = .idea ∧ key.length = 16) ∧
        (mu.kind = .ecb ∨ iv.length = au.blockSize)) := by
  unfold build
  cases hk : au.kind with
  | arcfour =>
    by_cases hs : mu.kind = .stream
    · simp only [hs, bne_self_eq_false, Bool.false_eq_true, if_false, bind_eq_ok, pure,
        Except.pure, Except.ok.injEq]
      rw [← Arcfour.new_ok_iff]
      simp only [true_and, ne_eq, not_true_eq_false, false_and, or_false, reduceCtorEq]
      constructor
      · rintro ⟨_, c, hc, -⟩
        exact ⟨c, hc⟩
      · rintro ⟨c, hc⟩
        exact ⟨_, c, hc, rfl⟩
    · simp [hs]
  | idea =>
    dsimp only
    rw [bind_overBlock_ok_iff BlockCipher.idea 8 (fun _ => rfl), Idea.new_ok_iff]
    simp [AlgorithmUnit.blockSize, hk, Idea.blockSize]
    exact and_left_comm
  | rijndael =>
    dsimp only
    rw [bind_overBlock_ok_iff BlockCipher.rijndael 16 (fun _ => rfl), Rijndael.new_ok_iff]
    simp [AlgorithmUnit.blockSize, hk, Rijndael.blockSize]
    exact and_left_comm

/-- Over Arcfour a block mode is refused before the key is looked at. -/
theorem build_of_arcfour {mu : ModeUnit} {au : AlgorithmUnit} (ha : au.kind = .arcfour)
    (hs : mu.kind ≠ .stream) (key iv : Bytes) :
    mu.build au key iv = .error (.parameter "mode" "block mode used with stream algorithm") := by
  simp [build, ha, hs]

/-- Over Rijndael a refused key is the answer, whatever the mode and the vector. -/
theorem build_of_rijndael_key {mu : ModeUnit} {au : AlgorithmUnit} (ha : au.kind = .rijndael)
    {key : Bytes} (hkey : key.length ∉ [16, 24, 32]) (iv : Bytes) :
    mu.build au key iv = .error (.parameter "Rijndael key" "key must be 16, 24 or 32 bytes") := by
  simp only [build, ha, Rijndael.new_of_not_mem hkey]
  rfl

/-- Over IDEA a refused key is the answer, whatever the mode and the vector. -/
theorem build_of_idea_key {mu : ModeUnit} {au : AlgorithmUnit} (ha : au.kind = .idea)
    {key : Bytes} (hkey : key.length ≠ 16) (iv : Bytes) :
    mu.build au key iv = .error (.length "IDEA key" 16 key.length) := by
  simp only [build, ha, Idea.new_of_ne hkey]
  rfl

/-- **When building succeeds, and which refusal it reports.**  Building succeeds exactly when
Arcfour meets the stream mode with a key of 1 to 256 bytes, or a block cipher meets another
mode with a key it takes and, unless the mode is ECB, a vector of one block.  Over Arcfour a
block mode is refused before the key is checked; over a block cipher a refused key is
reported before the pairing and the vector are looked at. -/
theorem build_ok_iff_and_error_order (mu : ModeUnit) (au : AlgorithmUnit) (key iv : Bytes) :
    ((∃ m, mu.build au key iv = .ok m) ↔
      (au.kind = .arcfour ∧ mu.kind = .stream ∧ 1 ≤ key.length ∧ key.length ≤ 256) ∨
      (mu.kind ≠ .stream ∧
        (au.kind = .rijndael ∧ key.length ∈ [16, 24, 32] ∨ au.kind = .idea ∧ key.length = 16) ∧
        (mu.kind = .ecb ∨ iv.length = au.blockSize))) ∧
    (au.kind = .arcfour → mu.kind ≠ .stream →
      mu.build au key iv = .error (.parameter "mode" "block mode used with stream algorithm")) ∧
    (au.kind = .rijndael → key.length ∉ [16, 24, 32] →
      mu.build au key iv = .error (.parameter "Rijndael key" "key must be 16, 24 or 32 bytes")) ∧
    (au.kind = .idea → key.length ≠ 16 →
      mu.build au key iv = .error (.length "IDEA key" 16 key.length)) :=
  ⟨build_ok_iff mu au key iv, fun ha hs => build_of_arcfour ha hs key iv,
    fun ha hkey => build_of_rijndael_key ha hkey iv, fun ha hkey => build_of_idea_key ha hkey iv⟩

/-- A key of three bytes for IDEA under the stream mode, with no vector: the key is reported,
not the pairing. -/
theorem build_ok_iff_and_error_order_idea_stream :
    (⟨"idea", .idea⟩ : AlgorithmUnit).kind = .idea ∧ [1, 2, 3].length ≠ 16 ∧
      (⟨"stream", .stream⟩ : ModeUnit).build ⟨"idea", .idea⟩ [1, 2, 3] [] =
        .error (.length "IDEA key" 16 3) :=
  ⟨rfl, by decide,
    (build_ok_iff_and_error_order ⟨"stream", .stream⟩ ⟨"idea", .idea⟩ [1, 2, 3] []).2.2.2 rfl
      (by decide)⟩

end ModeUnit

end CipherEngine
