import CipherEngine.Proofs.Padding.Layout
import CipherEngine.Proofs.Mode.Inverse

/-!
# A buffer comes back

Encrypting a buffer right after keying, re-initialising, and decrypting what came out gives
the buffer back (`Context.decrypt_reinit_encrypt`).  A block mode hands it back with its zero
padding still on unless the length trailer was asked for; a byte mode pads nothing, so its
output is as long as its input and the trailer flag changes neither call.

Three facts make it:

* re-initialising keys the unit afresh from the stored key and vector, and a unit builds the
  same mode from the same key and vector, so the context is back where keying left it
  (`Context.Fresh.reinit_withMode`);
* a keyed mode deciphers what it enciphered from the same state
  (`KeyedMode.decrypt_of_encrypt`);
* the trailer records how far the buffer reaches into its last unit, and cuts the padding
  off (`Padding.take_recoveredLen_pad`); without it the padding is zeros up to the next unit
  (`Padding.pad_false`).
-/

set_option autoImplicit false

namespace CipherEngine

/-! ## 1. Keying afresh -/

namespace Context

/-- A context whose unit was just keyed from the stored key and vector, with no direction
bound: the state right after a successful `key` or `reinit`. -/
structure Fresh (ctx : Context) (m : KeyedMode) : Prop where
  direction : ctx.direction = none
  state : ctx.unit.state = some m
  built : ∃ k, ctx.storedKey = some k ∧
    ctx.unit.mode.build ctx.unit.algorithm k
      (ctx.storedIv.getD (Bytes.zeros ctx.algorithm.ivSize)) = .ok m

theorem Fresh.isKeyed {ctx : Context} {m : KeyedMode} (hf : ctx.Fresh m) :
    ctx.isKeyed = true := by
  obtain ⟨k, hk, -⟩ := hf.built
  exact isKeyed_iff.mpr ⟨by simp [hk], m, hf.state⟩

/-- The mode of a fresh context is one its unit built: well formed, and deciphering with a
cipher that inverts. -/
theorem Fresh.wellFormed_invertible {ctx : Context} {m : KeyedMode} (hf : ctx.Fresh m) :
    m.WellFormed ∧ m.Invertible := by
  obtain ⟨k, -, hb⟩ := hf.built
  exact ⟨(ModeUnit.build_kind hb).2.2, ModeUnit.build_invertible hb⟩

/-- A successful initialisation keys the unit from the stored key and vector. -/
theorem fresh_of_initUnit {ctx ctx' : Context} (h : ctx.initUnit = (.ok (), ctx')) :
    ∃ m, ctx'.Fresh m := by
  unfold initUnit LoadedUnit.initState at h
  dsimp only at h
  split at h
  · simp at h
  · rename_i k hk
    split at h
    · rename_i m hb
      simp only [Prod.mk.injEq, true_and] at h
      subst h
      exact ⟨m, rfl, rfl, k, hk, hb⟩
    · simp at h

/-- A successful change of key initialises the unit with the new key. -/
theorem fresh_of_rekey {ctx ctx' : Context} {k : Bytes} {iv : Option Bytes}
    (h : ctx.rekey k iv = (.ok (), ctx')) : ∃ m, ctx'.Fresh m := by
  unfold rekey at h
  split at h
  · rename_i after hinit
    simp only [Prod.mk.injEq, true_and] at h
    subst h
    exact fresh_of_initUnit hinit
  · dsimp only at h
    split at h
    · simp at h
    · split at h <;> simp at h

theorem fresh_of_key {ctx ctx' : Context} {k : Bytes} {iv : Option Bytes}
    (h : ctx.key k iv = (.ok (), ctx')) : ∃ m, ctx'.Fresh m := by
  unfold key at h
  dsimp only at h
  split at h
  · simp at h
  · split at h
    · split at h
      · simp at h
      · exact fresh_of_rekey h
    · split at h
      · simp at h
      · exact fresh_of_rekey h

/-- **Re-initialising brings a fresh context back**, whatever direction was bound and however
far its mode moved: the unit builds the same mode from the same key and vector. -/
theorem Fresh.reinit_withMode {ctx : Context} {m : KeyedMode} (hf : ctx.Fresh m) (dir : Direction)
    (m' : KeyedMode) : ({ ctx with direction := some dir }.withMode m').reinit = (.ok (), ctx) := by
  obtain ⟨k, hk, hb⟩ := hf.built
  have hd := hf.direction
  have hs := hf.state
  obtain ⟨algorithm, mode, ⟨ua, um, us⟩, storedKey, storedIv, direction⟩ := ctx
  simp only at hk hb hd hs
  subst hk hd hs
  simp [reinit, initUnit, withMode, LoadedUnit.initState, hb]

/-! ## 2. One buffer each way -/

/-- Encrypting from a fresh context binds the direction and transforms the padded buffer. -/
theorem Fresh.encrypt_eq {ctx : Context} {m : KeyedMode} (hf : ctx.Fresh m) (p : Bytes)
    (f : Bool) :
    ctx.encrypt p f = ({ ctx with direction := some .encrypt } : Context).transformBuffer .encrypt
      (Padding.pad p ctx.unitLen f) := by
  rw [Context.encrypt, begin_eq hf.isKeyed (.inl hf.direction)]
  rfl

/-- Encrypting from a fresh context is one call of its mode on the padded buffer. -/
theorem Fresh.encrypt {ctx : Context} {m : KeyedMode} (hf : ctx.Fresh m) (hc : ctx.Coherent)
    (p : Bytes) (f : Bool) (hw : p.length + ctx.unitLen ≤ MachineWord.max) :
    ∃ c m', m.transform .encrypt (Padding.pad p ctx.unitLen f) = .ok (c, m') ∧
      ctx.encrypt p f = (.ok c, { ctx with direction := some .encrypt }.withMode m') := by
  have hfit : m.Fits (Padding.pad p ctx.unitLen f) :=
    hc.fits hf.state (Padding.length_pad_mod ctx.unitLen_pos p f hw)
  obtain ⟨c, m', h⟩ := m.transform_ok .encrypt hfit
  exact ⟨c, m', h, by rw [hf.encrypt_eq]; exact transformBuffer_eq hf.isKeyed hf.state h⟩

/-- Decrypting, from a fresh context, what its mode enciphered from there gives the buffer
back, cut at the trailer when asked. -/
theorem Fresh.decrypt {ctx : Context} {m m' : KeyedMode} (hf : ctx.Fresh m) {buf c : Bytes}
    (hbuf : buf.length % ctx.unitLen = 0) (h : m.transform .encrypt buf = .ok (c, m'))
    (f : Bool) :
    ctx.decrypt c f = (.ok (if f && decide (1 < ctx.unitLen) then
        buf.take (Padding.recoveredLen buf ctx.unitLen) else buf),
      { ctx with direction := some .decrypt }.withMode m') := by
  have hk := hf.isKeyed
  obtain ⟨hw, hinv⟩ := hf.wellFormed_invertible
  have hlen : c.length = buf.length := (KeyedMode.length_transform hw h).1
  have hwhole : Padding.wholeUnits c.length ctx.unitLen = c.length :=
    Padding.wholeUnits_self (by rw [hlen]; exact hbuf)
  have hdec := KeyedMode.decrypt_of_encrypt hinv hw h
  have ht : ({ ctx with direction := some .decrypt } : Context).transformBuffer .decrypt c =
      (.ok buf, { ctx with direction := some .decrypt }.withMode m') :=
    transformBuffer_eq hk hf.state hdec
  rw [Context.decrypt, begin_eq hk (.inl hf.direction)]
  dsimp only
  rw [unitLen_withDirection, hwhole, List.take_length, ht]

/-! ## 3. There and back -/

/-- The zeros up to the next padding unit are the zeros up to the next block for a block
mode, whose unit is the block, and none for a byte mode. -/
theorem zerosToUnit_eq (ctx : Context) (len : Nat) :
    (ctx.unitLen - len % ctx.unitLen) % ctx.unitLen =
      if ctx.mode.isBlockMode then
        (ctx.algorithm.blockSize - len % ctx.algorithm.blockSize) % ctx.algorithm.blockSize
      else 0 := by
  unfold unitLen
  split
  · rcases Nat.eq_zero_or_pos ctx.algorithm.blockSize with h | h
    · simp [h, Nat.mod_one]
    · rw [Nat.max_eq_left h]
  · simp [Nat.mod_one]

/-- **Encrypting, re-initialising and decrypting gives the buffer back.**  Right after a
successful `key` or `reinit` of any reachable context, encrypting `p` succeeds; `reinit` then
brings the context back to where it was, and decrypting the output returns `p`, followed by
the zeros up to the next block when a block mode padded without the trailer.  A byte mode
writes as many bytes as it reads, and neither call depends on the trailer flag. -/
theorem decrypt_reinit_encrypt {ctx ctx₀ : Context} (hreach : ctx.Reachable) {k : Bytes}
    {iv : Option Bytes} (hstart : ctx.key k iv = (.ok (), ctx₀) ∨ ctx.reinit = (.ok (), ctx₀))
    (p : Bytes) (f : Bool) (hlen : p.length ≤ MachineWord.maxBuffer) :
    ∃ c ctx₁, ctx₀.encrypt p f = (.ok c, ctx₁) ∧ ctx₁.reinit = (.ok (), ctx₀) ∧
      (ctx₀.decrypt c f).1 = .ok (if ctx₀.mode.isBlockMode && !f then
          p ++ Bytes.zeros ((ctx₀.algorithm.blockSize - p.length % ctx₀.algorithm.blockSize) %
            ctx₀.algorithm.blockSize)
        else p) ∧
      (ctx₀.mode.isBlockMode = false → c.length = p.length ∧
        ctx₀.encrypt p (!f) = ctx₀.encrypt p f ∧ ctx₀.decrypt c (!f) = ctx₀.decrypt c f) := by
  have hreach₀ : ctx₀.Reachable := by
    rcases hstart with h | h
    · simpa only [h] using Reachable.key k iv hreach
    · simpa only [h] using Reachable.reinit hreach
  have hc := hreach₀.coherent
  obtain ⟨m, hf⟩ : ∃ m, ctx₀.Fresh m := by
    rcases hstart with h | h
    · exact fresh_of_key h
    · exact fresh_of_initUnit h
  have hunit := hc.unitLen_le
  have hw : p.length + ctx₀.unitLen ≤ MachineWord.max := by
    have := MachineWord.maxBuffer_add_le
    omega
  have hpad := Padding.length_pad_mod ctx₀.unitLen_pos p f hw
  obtain ⟨c, m', henc, hcall⟩ := hf.encrypt hc p f hw
  refine ⟨c, _, hcall, hf.reinit_withMode .encrypt m', ?_, fun hbyte => ?_⟩
  · rw [hf.decrypt hpad henc f, Padding.unpad_pad p (by omega) f hw, zerosToUnit_eq]
    cases f <;> cases ctx₀.mode.isBlockMode <;> simp [Bytes.zeros]
  · have hu : ctx₀.unitLen = 1 := by simp [unitLen, hbyte]
    have hsame : ∀ f', Padding.pad p ctx₀.unitLen f' = p := fun f' =>
      Padding.pad_of_le_one p hu.le f' (by omega)
    have hlenc := (KeyedMode.length_transform hf.wellFormed_invertible.1 henc).1
    refine ⟨by rw [hlenc, hsame], by rw [hf.encrypt_eq, hf.encrypt_eq, hsame, hsame], ?_⟩
    rw [hf.decrypt hpad henc, hf.decrypt hpad henc, hu]
    simp

/-- IDEA in CBC from the built-in catalog, keyed with a vector: three bytes come back with
the five zeros that fill their block. -/
theorem decrypt_reinit_encrypt_cbc_idea :
    let ctx := (⟨⟨"idea", 16, [16], 8, 8, true⟩, ⟨"cbc", true, true, true⟩,
      ⟨⟨"idea", .idea⟩, ⟨"cbc", .cbc⟩, none⟩, none, none, none⟩ : Context)
    let ctx₀ := (ctx.key (Bytes.zeros 16) (some [0, 0, 0, 0, 0, 0, 0, 1])).2
    ctx.Reachable ∧
      ctx.key (Bytes.zeros 16) (some [0, 0, 0, 0, 0, 0, 0, 1]) = (.ok (), ctx₀) ∧
      [1, 2, 3].length ≤ MachineWord.maxBuffer ∧
      ∃ c ctx₁, ctx₀.encrypt [1, 2, 3] false = (.ok c, ctx₁) ∧ ctx₁.reinit = (.ok (), ctx₀) ∧
        (ctx₀.decrypt c false).1 = .ok (if ctx₀.mode.isBlockMode && !false then
            [1, 2, 3] ++ Bytes.zeros ((ctx₀.algorithm.blockSize -
              [1, 2, 3].length % ctx₀.algorithm.blockSize) % ctx₀.algorithm.blockSize)
          else [1, 2, 3]) ∧
        (ctx₀.mode.isBlockMode = false → c.length = [1, 2, 3].length ∧
          ctx₀.encrypt [1, 2, 3] (!false) = ctx₀.encrypt [1, 2, 3] false ∧
          ctx₀.decrypt c (!false) = ctx₀.decrypt c false) := by
  intro ctx ctx₀
  have hreach : ctx.Reachable :=
    .built (rfl : Catalog.load Manifest.tomlReader (.dir []) none none = .ok Catalog.builtin)
      (rfl : withCatalog Catalog.builtin "idea" "cbc" = _)
  have hkey : ctx.key (Bytes.zeros 16) (some [0, 0, 0, 0, 0, 0, 0, 1]) = (.ok (), ctx₀) := rfl
  exact ⟨hreach, hkey, by decide,
    decrypt_reinit_encrypt hreach (.inl hkey) [1, 2, 3] false (by decide)⟩

end Context

end CipherEngine
