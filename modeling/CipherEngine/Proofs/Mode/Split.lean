import CipherEngine.Registry

/-!
# Splitting a message between calls

A keyed mode carries its feedback state from one call to the next, so a message may be
handed over in pieces.  This module proves that the pieces never show: calling a mode on
`a` and then on `b` writes what one call on `a ++ b` writes and leaves the same state
(`KeyedMode.transform_append`).  The whole-block modes, ECB and CBC, take whole blocks only,
so for them both pieces must be whole blocks (`KeyedMode.Fits`); every other mode takes any
length, and a split may fall anywhere, in the middle of a keystream block included.

The argument has two shapes.  The byte modes and the keystream modes are transducers over
bytes, and `Transducer.run_append` is the law.  ECB and CBC are transducers over the blocks
of the message, and a cut at a block boundary cuts the list of blocks in two
(`Bytes.chunks_append`).

Main statements:

* `KeyedMode.transform_append`, one call equals two;
* `KeyedMode.transformAll_flatten`, any number of calls equals one call on the pieces joined;
* `KeyedMode.transform_ok`, a mode refuses nothing that fits, and keeps its kind and block.
-/

set_option autoImplicit false

namespace CipherEngine

/-! ## 1. Blocks of a message -/

namespace Bytes

theorem chunks_nil {n : Nat} (hn : 0 < n) : chunks n [] = [] := by
  rw [chunks.eq_def]; simp [Nat.pos_iff_ne_zero.mp hn]

theorem chunks_of_length_pos {n : Nat} (hn : 0 < n) {d : Bytes} (hd : 0 < d.length) :
    chunks n d = d.take n :: chunks n (d.drop n) := by
  obtain ⟨x, xs, rfl⟩ := List.exists_cons_of_length_pos hd
  rw [chunks.eq_def]; simp [Nat.pos_iff_ne_zero.mp hn]

/-- A non-empty whole number of blocks holds a first block, and whole blocks after it. -/
theorem block_le_of_mod_eq_zero {n len : Nat} (h : len % n = 0) (hpos : 0 < len) :
    n ≤ len ∧ (len - n) % n = 0 := by
  have hdvd : n ∣ len := Nat.dvd_of_mod_eq_zero h
  refine ⟨Nat.le_of_dvd hpos hdvd, Nat.mod_eq_zero_of_dvd ?_⟩
  exact Nat.dvd_sub hdvd (Nat.dvd_refl n)

/-- **A cut at a block boundary cuts the blocks.** -/
theorem chunks_append {n : Nat} (hn : 0 < n) (a b : Bytes) (ha : a.length % n = 0) :
    chunks n (a ++ b) = chunks n a ++ chunks n b := by
  induction a using chunks.induct n with
  | case1 _ h => omega
  | case2 => simp [chunks_nil hn]
  | case3 _ x xs ih =>
    obtain ⟨hlen, hrest⟩ := block_le_of_mod_eq_zero ha (by simp)
    have hleft : chunks n ((x :: xs) ++ b) =
        (x :: xs).take n :: chunks n ((x :: xs).drop n ++ b) := by
      rw [chunks_of_length_pos hn (by simp), List.take_append_of_le_length hlen,
        List.drop_append_of_le_length hlen]
    rw [hleft, ih (by rw [List.length_drop]; exact hrest),
      chunks_of_length_pos hn (show 0 < (x :: xs).length by simp)]
    rfl

/-- Every block of a whole number of blocks is whole. -/
theorem length_of_mem_chunks {n : Nat} (hn : 0 < n) {d : Bytes} (hd : d.length % n = 0) :
    ∀ x ∈ chunks n d, x.length = n := by
  induction d using chunks.induct n with
  | case1 _ h => omega
  | case2 => simp [chunks_nil hn]
  | case3 _ x xs ih =>
    obtain ⟨hlen, hrest⟩ := block_le_of_mod_eq_zero hd (by simp)
    rw [chunks_of_length_pos hn (by simp)]
    intro y hy
    rcases List.mem_cons.mp hy with rfl | hy
    · rw [List.length_take]; exact Nat.min_eq_left hlen
    · exact ih (by rw [List.length_drop]; exact hrest) y hy

/-- Blocks of one length, joined and cut again, are the same blocks. -/
theorem chunks_flatten {n : Nat} (hn : 0 < n) :
    ∀ blocks : List Bytes, (∀ x ∈ blocks, x.length = n) → chunks n blocks.flatten = blocks
  | [], _ => chunks_nil hn
  | x :: rest, h => by
    have hx : x.length = n := h x (by simp)
    rw [List.flatten_cons, chunks_of_length_pos hn (by simp; omega),
      List.take_append_of_le_length (by omega), List.drop_append_of_le_length (by omega),
      List.take_of_length_le (by omega), List.drop_of_length_le (by omega), List.nil_append,
      chunks_flatten hn rest (fun y hy => h y (by simp [hy]))]

theorem length_flatten_of_blocks {n : Nat} :
    ∀ blocks : List Bytes, (∀ x ∈ blocks, x.length = n) →
      blocks.flatten.length = n * blocks.length
  | [], _ => rfl
  | x :: rest, h => by
    rw [List.flatten_cons, List.length_append, h x (by simp),
      length_flatten_of_blocks rest (fun y hy => h y (by simp [hy]))]
    simp [Nat.mul_succ, Nat.add_comm]

end Bytes

/-- A machine whose step keeps `S` of its state, and answers inputs with `A` by outputs with
`B`, keeps `S` over a whole run of such inputs. -/
theorem Transducer.run_invariant {σ α β : Type} {step : σ → α → β × σ} (S : σ → Prop)
    (A : α → Prop) (B : β → Prop) (hstep : ∀ s x, S s → A x → B (step s x).1 ∧ S (step s x).2) :
    ∀ (xs : List α) (s : σ), S s → (∀ x ∈ xs, A x) →
      (∀ y ∈ (Transducer.run step s xs).1, B y) ∧ S (Transducer.run step s xs).2
  | [], s, hs, _ => ⟨by simp, hs⟩
  | x :: xs, s, hs, hx => by
    obtain ⟨hy, hs'⟩ := hstep s x hs (hx x (by simp))
    obtain ⟨hys, hlast⟩ :=
      run_invariant S A B hstep xs (step s x).2 hs' (fun x' hx' => hx x' (by simp [hx']))
    rw [Transducer.run_cons]
    exact ⟨by simpa [hy] using hys, hlast⟩

/-! ## 2. What a call needs -/

/-- The kinds of mode that take whole blocks only. -/
def ModeKind.wholeBlocks : ModeKind → Bool
  | .ecb | .cbc => true
  | _ => false

theorem BlockCipher.blockSize_pos (c : BlockCipher) : 0 < c.blockSize := by
  cases c <;> simp [BlockCipher.blockSize, Rijndael.blockSize, Idea.blockSize]

/-- A block cipher keeps the length of a block. -/
theorem BlockCipher.length_encrypt (c : BlockCipher) {b : Bytes} (hb : b.length = c.blockSize) :
    (c.encrypt b).length = c.blockSize := by
  cases c with
  | rijndael r =>
    simp only [encrypt, Rijndael.encrypt]
    split
    · exact hb
    · exact Rijndael.State.length_toBytes _
  | idea i => rfl

theorem BlockCipher.length_decrypt (c : BlockCipher) {b : Bytes} (hb : b.length = c.blockSize) :
    (c.decrypt b).length = c.blockSize := by
  cases c with
  | rijndael r =>
    simp only [decrypt, Rijndael.decrypt]
    split
    · exact hb
    · exact Rijndael.State.length_toBytes _
  | idea i => rfl

namespace KeyedMode

/-- The kind of mode a keyed mode runs. -/
def kind : KeyedMode → ModeKind
  | .ecb _ => .ecb
  | .cbc _ _ => .cbc
  | .cfb _ _ => .cfb
  | .ofb _ _ => .ofb
  | .ncfb _ _ => .ncfb
  | .nofb _ _ => .nofb
  | .ctr _ _ => .ctr
  | .stream _ => .stream

/-- The block length of the cipher under the mode; the stream cipher counts as one byte. -/
def blockSize : KeyedMode → Nat
  | .ecb c | .cbc c _ | .cfb c _ | .ofb c _ | .ncfb c _ | .nofb c _ | .ctr c _ => c.blockSize
  | .stream _ => 1

/-- A buffer the mode takes in one call: whole blocks for ECB and CBC, anything otherwise. -/
def Fits (m : KeyedMode) (data : Bytes) : Prop :=
  m.kind.wholeBlocks = true → data.length % m.blockSize = 0

instance (m : KeyedMode) (data : Bytes) : Decidable (m.Fits data) :=
  inferInstanceAs (Decidable (_ → _))

/-! ## 3. What a call does -/

section Calls

variable {c : BlockCipher} {d : Bytes}

theorem ecb_encrypt (hd : d.length % c.blockSize = 0) :
    (ecb c).encrypt d = .ok (((Bytes.chunks c.blockSize d).map c.encrypt).flatten, ecb c) := by
  simp [encrypt, Mode.Ecb.encrypt, Check.blockMultiple, hd, Functor.map, Except.map]

theorem ecb_decrypt (hd : d.length % c.blockSize = 0) :
    (ecb c).decrypt d = .ok (((Bytes.chunks c.blockSize d).map c.decrypt).flatten, ecb c) := by
  simp [decrypt, Mode.Ecb.decrypt, Check.blockMultiple, hd, Functor.map, Except.map]

theorem cbc_encrypt {prev : Bytes} (hd : d.length % c.blockSize = 0) :
    (cbc c prev).encrypt d =
      .ok ((Transducer.run (Mode.Cbc.encryptStep c.encrypt) prev (Bytes.chunks c.blockSize d)).1.flatten,
        cbc c (Transducer.run (Mode.Cbc.encryptStep c.encrypt) prev (Bytes.chunks c.blockSize d)).2) := by
  simp [encrypt, Mode.Cbc.encrypt, Check.blockMultiple, hd, Functor.map, Except.map]

theorem cbc_decrypt {prev : Bytes} (hd : d.length % c.blockSize = 0) :
    (cbc c prev).decrypt d =
      .ok ((Transducer.run (Mode.Cbc.decryptStep c.decrypt) prev (Bytes.chunks c.blockSize d)).1.flatten,
        cbc c (Transducer.run (Mode.Cbc.decryptStep c.decrypt) prev (Bytes.chunks c.blockSize d)).2) := by
  simp [decrypt, Mode.Cbc.decrypt, Check.blockMultiple, hd, Functor.map, Except.map]

/-- A whole-block mode refuses a buffer that is not whole blocks; no other mode refuses. -/
theorem fits_of_transform {m m' : KeyedMode} {dir : Direction} {out : Bytes}
    (h : m.transform dir d = .ok (out, m')) : m.Fits d := by
  intro hw
  refine Classical.byContradiction fun hd => ?_
  cases m <;> cases dir <;> simp [kind, ModeKind.wholeBlocks, blockSize] at hw hd <;>
    simp [transform, encrypt, decrypt, Mode.Ecb.encrypt, Mode.Ecb.decrypt, Mode.Cbc.encrypt,
      Mode.Cbc.decrypt, Check.blockMultiple, hd, Functor.map, Except.map] at h

/-- **A call keeps the mode's kind and block length.** -/
theorem kind_transform {m m' : KeyedMode} {dir : Direction} {out : Bytes}
    (h : m.transform dir d = .ok (out, m')) : m'.kind = m.kind ∧ m'.blockSize = m.blockSize := by
  have hfit := fits_of_transform h
  cases m with
  | ecb c =>
    cases dir
    · rw [transform, ecb_encrypt (hfit rfl)] at h; cases h; exact ⟨rfl, rfl⟩
    · rw [transform, ecb_decrypt (hfit rfl)] at h; cases h; exact ⟨rfl, rfl⟩
  | cbc c prev =>
    cases dir
    · rw [transform, cbc_encrypt (hfit rfl)] at h; cases h; exact ⟨rfl, rfl⟩
    · rw [transform, cbc_decrypt (hfit rfl)] at h; cases h; exact ⟨rfl, rfl⟩
  | _ =>
    -- the byte modes: the call is a run of a transducer, wrapped back in the same mode
    cases dir <;> simp only [transform, encrypt, decrypt, Except.ok.injEq, Prod.mk.injEq] at h <;>
      obtain ⟨-, rfl⟩ := h <;> exact ⟨rfl, rfl⟩

/-- The chaining block of CBC is a whole block, as the vector it starts from is.  No other
mode keeps a value whose length a call relies on. -/
def WellFormed : KeyedMode → Prop
  | .cbc c prev => prev.length = c.blockSize
  | _ => True

/-- ECB writes a block for each block. -/
theorem length_ecb {f : Bytes → Bytes}
    (hf : ∀ x : Bytes, x.length = c.blockSize → (f x).length = c.blockSize)
    (hd : d.length % c.blockSize = 0) :
    ((Bytes.chunks c.blockSize d).map f).flatten.length = d.length := by
  have hblocks := Bytes.length_of_mem_chunks c.blockSize_pos hd
  have hout : ∀ y ∈ (Bytes.chunks c.blockSize d).map f, y.length = c.blockSize := by
    intro y hy
    obtain ⟨x, hx, rfl⟩ := List.mem_map.mp hy
    exact hf x (hblocks x hx)
  calc ((Bytes.chunks c.blockSize d).map f).flatten.length
      = c.blockSize * (Bytes.chunks c.blockSize d).length := by
        rw [Bytes.length_flatten_of_blocks _ hout, List.length_map]
    _ = (Bytes.chunks c.blockSize d).flatten.length :=
        (Bytes.length_flatten_of_blocks _ hblocks).symm
    _ = d.length := by rw [Bytes.flatten_chunks]

/-- CBC writes a block for each block, and its chain stays one block long. -/
theorem length_cbc {step : Bytes → Bytes → Bytes × Bytes}
    (hstep : ∀ prev x : Bytes, prev.length = c.blockSize → x.length = c.blockSize →
      (step prev x).1.length = c.blockSize ∧ (step prev x).2.length = c.blockSize)
    {prev : Bytes} (hp : prev.length = c.blockSize) (hd : d.length % c.blockSize = 0) :
    (Transducer.run step prev (Bytes.chunks c.blockSize d)).1.flatten.length = d.length ∧
      (Transducer.run step prev (Bytes.chunks c.blockSize d)).2.length = c.blockSize := by
  have hblocks := Bytes.length_of_mem_chunks c.blockSize_pos hd
  obtain ⟨hout, hlast⟩ := Transducer.run_invariant (fun p : Bytes => p.length = c.blockSize)
    (fun x : Bytes => x.length = c.blockSize) (fun y : Bytes => y.length = c.blockSize)
    hstep _ prev hp hblocks
  refine ⟨?_, hlast⟩
  calc (Transducer.run step prev (Bytes.chunks c.blockSize d)).1.flatten.length
      = c.blockSize * (Bytes.chunks c.blockSize d).length := by
        rw [Bytes.length_flatten_of_blocks _ hout, Transducer.length_run]
    _ = (Bytes.chunks c.blockSize d).flatten.length :=
        (Bytes.length_flatten_of_blocks _ hblocks).symm
    _ = d.length := by rw [Bytes.flatten_chunks]

/-- A CBC step from a whole chaining block enciphers a whole block: the plaintext masked by
the chain. -/
theorem length_cbcEncryptStep (prev x : Bytes) (hp : prev.length = c.blockSize)
    (hx : x.length = c.blockSize) :
    (Mode.Cbc.encryptStep c.encrypt prev x).1.length = c.blockSize ∧
      (Mode.Cbc.encryptStep c.encrypt prev x).2.length = c.blockSize := by
  have hlen := c.length_encrypt (b := Bytes.xor x prev) (by simp [hp, hx])
  exact ⟨hlen, hlen⟩

/-- **A call of a well-formed mode writes as many bytes as it reads, and the mode stays
well formed.** -/
theorem length_transform {m m' : KeyedMode} {dir : Direction} {out : Bytes} (hw : m.WellFormed)
    (h : m.transform dir d = .ok (out, m')) : out.length = d.length ∧ m'.WellFormed := by
  have hfit := fits_of_transform h
  cases m with
  | ecb c =>
    have hd : d.length % c.blockSize = 0 := hfit rfl
    cases dir
    · rw [transform, ecb_encrypt hd] at h; cases h
      exact ⟨length_ecb (fun _ hx => c.length_encrypt hx) hd, trivial⟩
    · rw [transform, ecb_decrypt hd] at h; cases h
      exact ⟨length_ecb (fun _ hx => c.length_decrypt hx) hd, trivial⟩
  | cbc c prev =>
    have hd : d.length % c.blockSize = 0 := hfit rfl
    cases dir
    · rw [transform, cbc_encrypt hd] at h; cases h
      exact length_cbc length_cbcEncryptStep hw hd
    · rw [transform, cbc_decrypt hd] at h; cases h
      have hstep : ∀ prev x : Bytes, prev.length = c.blockSize → x.length = c.blockSize →
          (Mode.Cbc.decryptStep c.decrypt prev x).1.length = c.blockSize ∧
            (Mode.Cbc.decryptStep c.decrypt prev x).2.length = c.blockSize := by
        intro prev x hp hx
        exact ⟨by simp [Mode.Cbc.decryptStep, c.length_decrypt hx, hp], hx⟩
      exact length_cbc hstep hw hd
  | _ =>
    cases dir <;> simp only [transform, encrypt, decrypt, Except.ok.injEq, Prod.mk.injEq] at h <;>
      obtain ⟨rfl, rfl⟩ := h <;> exact ⟨by simp [Arcfour.process], trivial⟩

end Calls

/-! ## 4. One call or two -/


section Split

variable {dir : Direction}

theorem fits_iff_of_kind {m m' : KeyedMode} (h : m'.kind = m.kind ∧ m'.blockSize = m.blockSize)
    (d : Bytes) : m'.Fits d ↔ m.Fits d := by
  unfold Fits; rw [h.1, h.2]

/-- A mode takes every buffer that fits. -/
theorem transform_ok (m : KeyedMode) (dir : Direction) {d : Bytes} (hd : m.Fits d) :
    ∃ out m', m.transform dir d = .ok (out, m') := by
  cases m with
  | ecb c =>
    cases dir
    · exact ⟨_, _, by rw [transform, ecb_encrypt (hd rfl)]⟩
    · exact ⟨_, _, by rw [transform, ecb_decrypt (hd rfl)]⟩
  | cbc c prev =>
    cases dir
    · exact ⟨_, _, by rw [transform, cbc_encrypt (hd rfl)]⟩
    · exact ⟨_, _, by rw [transform, cbc_decrypt (hd rfl)]⟩
  | _ => cases dir <;> exact ⟨_, _, rfl⟩

/-- An empty call writes nothing and changes nothing. -/
theorem transform_nil (m : KeyedMode) (dir : Direction) : m.transform dir [] = .ok ([], m) := by
  cases m <;> cases dir <;>
    simp [transform, encrypt, decrypt, Mode.Ecb.encrypt, Mode.Ecb.decrypt, Mode.Cbc.encrypt,
      Mode.Cbc.decrypt, Check.blockMultiple, Bytes.chunks_nil (BlockCipher.blockSize_pos _),
      Functor.map, Except.map, Arcfour.process]

/-- The split law for a mode that runs a transducer over the bytes. -/
theorem append_of_byte_run {σ : Type} (wrap : σ → KeyedMode) (step : σ → UInt8 → UInt8 × σ)
    (h : ∀ s d, (wrap s).transform dir d =
      .ok ((Transducer.run step s d).1, wrap (Transducer.run step s d).2))
    (s : σ) {a b oa ob : Bytes} {m₁ m₂ : KeyedMode}
    (h₁ : (wrap s).transform dir a = .ok (oa, m₁)) (h₂ : m₁.transform dir b = .ok (ob, m₂)) :
    (wrap s).transform dir (a ++ b) = .ok (oa ++ ob, m₂) := by
  rw [h s a] at h₁
  cases h₁
  rw [h _ b] at h₂
  cases h₂
  rw [h s (a ++ b), Transducer.run_append]

/-- The split law for a mode that runs a transducer over the blocks of whole blocks. -/
theorem append_of_block_run {σ : Type} (wrap : σ → KeyedMode) (n : Nat) (hn : 0 < n)
    (step : σ → Bytes → Bytes × σ)
    (h : ∀ s d, d.length % n = 0 → (wrap s).transform dir d =
      .ok ((Transducer.run step s (Bytes.chunks n d)).1.flatten,
        wrap (Transducer.run step s (Bytes.chunks n d)).2))
    (s : σ) {a b oa ob : Bytes} {m₁ m₂ : KeyedMode} (ha : a.length % n = 0)
    (hb : b.length % n = 0) (h₁ : (wrap s).transform dir a = .ok (oa, m₁))
    (h₂ : m₁.transform dir b = .ok (ob, m₂)) :
    (wrap s).transform dir (a ++ b) = .ok (oa ++ ob, m₂) := by
  have hab : (a ++ b).length % n = 0 := by
    rw [List.length_append, Nat.add_mod, ha, hb, Nat.zero_mod]
  rw [h s a ha] at h₁
  cases h₁
  rw [h _ b hb] at h₂
  cases h₂
  rw [h s (a ++ b) hab, Bytes.chunks_append hn a b ha, Transducer.run_append, List.flatten_append]

/-- Two calls that succeed are one call on the two buffers joined: it writes the two
outputs joined and leaves the state after the second. -/
theorem transform_append_eq {m m₁ m₂ : KeyedMode} {a b oa ob : Bytes}
    (h₁ : m.transform dir a = .ok (oa, m₁)) (h₂ : m₁.transform dir b = .ok (ob, m₂)) :
    m.transform dir (a ++ b) = .ok (oa ++ ob, m₂) := by
  have ha := fits_of_transform h₁
  have hb := (fits_iff_of_kind (kind_transform h₁) b).mp (fits_of_transform h₂)
  cases m with
  | ecb c =>
    -- ECB is a transducer over the blocks that keeps no state
    have hrun : ∀ (f : Bytes → Bytes) (blocks : List Bytes),
        Transducer.run (fun (_ : Unit) x => (f x, ())) () blocks = (blocks.map f, ()) := by
      intro f blocks
      induction blocks with
      | nil => rfl
      | cons x xs ih => rw [Transducer.run_cons, ih]; rfl
    cases dir
    · exact append_of_block_run (fun _ : Unit => .ecb c) c.blockSize c.blockSize_pos
        (fun _ x => (c.encrypt x, ())) (fun _ d hd => by rw [transform, ecb_encrypt hd, hrun])
        () (ha rfl) (hb rfl) h₁ h₂
    · exact append_of_block_run (fun _ : Unit => .ecb c) c.blockSize c.blockSize_pos
        (fun _ x => (c.decrypt x, ())) (fun _ d hd => by rw [transform, ecb_decrypt hd, hrun])
        () (ha rfl) (hb rfl) h₁ h₂
  | cbc c prev =>
    cases dir
    · exact append_of_block_run (.cbc c) c.blockSize c.blockSize_pos
        (Mode.Cbc.encryptStep c.encrypt) (fun _ _ hd => by rw [transform, cbc_encrypt hd])
        prev (ha rfl) (hb rfl) h₁ h₂
    · exact append_of_block_run (.cbc c) c.blockSize c.blockSize_pos
        (Mode.Cbc.decryptStep c.decrypt) (fun _ _ hd => by rw [transform, cbc_decrypt hd])
        prev (ha rfl) (hb rfl) h₁ h₂
  | cfb c r =>
    cases dir
    · exact append_of_byte_run (.cfb c) (Mode.Cfb.encryptStep c.encrypt) (fun _ _ => rfl) r h₁ h₂
    · exact append_of_byte_run (.cfb c) (Mode.Cfb.decryptStep c.encrypt) (fun _ _ => rfl) r h₁ h₂
  | ofb c r =>
    cases dir <;>
      exact append_of_byte_run (.ofb c) (Mode.Ofb.step c.encrypt) (fun _ _ => rfl) r h₁ h₂
  | ncfb c s =>
    cases dir
    · exact append_of_byte_run (.ncfb c) (Mode.Ncfb.encryptStep c.encrypt) (fun _ _ => rfl) s h₁ h₂
    · exact append_of_byte_run (.ncfb c) (Mode.Ncfb.decryptStep c.encrypt) (fun _ _ => rfl) s h₁ h₂
  | nofb c s =>
    cases dir <;>
      exact append_of_byte_run (.nofb c) (Mode.Nofb.step c.encrypt) (fun _ _ => rfl) s h₁ h₂
  | ctr c s =>
    cases dir <;>
      exact append_of_byte_run (.ctr c) (Mode.Ctr.step c.encrypt) (fun _ _ => rfl) s h₁ h₂
  | stream c =>
    cases dir <;> exact append_of_byte_run .stream Arcfour.step (fun _ _ => rfl) c h₁ h₂

/-- **Calling a mode on `a`, then on `b`, is one call on `a ++ b`.**  Both calls succeed,
their outputs joined are the output of the one call, and the state after the second is the
state after the one call; for ECB and CBC both pieces are whole blocks. -/
theorem transform_append (m : KeyedMode) (dir : Direction) (a b : Bytes) (ha : m.Fits a)
    (hb : m.Fits b) :
    ∃ oa ob m₁ m₂, m.transform dir a = .ok (oa, m₁) ∧ m₁.transform dir b = .ok (ob, m₂) ∧
      m.transform dir (a ++ b) = .ok (oa ++ ob, m₂) := by
  obtain ⟨oa, m₁, h₁⟩ := m.transform_ok dir ha
  -- the first call keeps the mode's kind and block, so `b` still fits
  have hb₁ : m₁.Fits b := (fits_iff_of_kind (kind_transform h₁) b).mpr hb
  obtain ⟨ob, m₂, h₂⟩ := m₁.transform_ok dir hb₁
  exact ⟨oa, ob, m₁, m₂, h₁, h₂, transform_append_eq h₁ h₂⟩

/-- Two calls under CTR over IDEA, with the all-zero key and counter, split inside the first
block: three bytes, then seven. -/
theorem transform_append_ctr_idea :
    let m := ctr (.idea ⟨Idea.expandKey (Bytes.zeros 16),
      Idea.invertKey (Idea.expandKey (Bytes.zeros 16))⟩) (Mode.Ctr.start (Bytes.zeros 8))
    (Bytes.zeros 3).length % m.blockSize ≠ 0 ∧ m.Fits (Bytes.zeros 3) ∧ m.Fits (Bytes.zeros 7) ∧
      ∃ oa ob m₁ m₂, m.transform .encrypt (Bytes.zeros 3) = .ok (oa, m₁) ∧
        m₁.transform .encrypt (Bytes.zeros 7) = .ok (ob, m₂) ∧
        m.transform .encrypt (Bytes.zeros 3 ++ Bytes.zeros 7) = .ok (oa ++ ob, m₂) := by
  intro m
  exact ⟨by decide, by decide, by decide, transform_append m .encrypt _ _ (by decide) (by decide)⟩

end Split

/-! ## 5. Any number of calls -/

/-- Calls the mode on each piece in turn: the outputs of the calls, and the state after the
last one. -/
def transformAll (m : KeyedMode) (dir : Direction) :
    List Bytes → Except PrimitiveError (List Bytes × KeyedMode)
  | [] => .ok ([], m)
  | p :: ps => do
    let (o, m₁) ← m.transform dir p
    let (os, m₂) ← m₁.transformAll dir ps
    pure (o :: os, m₂)

/-- **Calls on pieces are one call on the pieces joined**, whichever way the message is cut,
when every piece fits. -/
theorem transformAll_flatten (m : KeyedMode) (dir : Direction) :
    ∀ (pieces : List Bytes), (∀ p ∈ pieces, m.Fits p) →
      ∃ outs m', m.transformAll dir pieces = .ok (outs, m') ∧
        m.transform dir pieces.flatten = .ok (outs.flatten, m') ∧
        m'.kind = m.kind ∧ m'.blockSize = m.blockSize
  | [], _ => ⟨[], m, rfl, m.transform_nil dir, rfl, rfl⟩
  | p :: ps, h => by
    have hp : m.Fits p := h p (by simp)
    obtain ⟨o, m₁, h₁⟩ := m.transform_ok dir hp
    have hk₁ := kind_transform h₁
    obtain ⟨os, m', hall, hflat, hk'⟩ := transformAll_flatten m₁ dir ps
      fun q hq => (fits_iff_of_kind hk₁ q).mpr (h q (by simp [hq]))
    refine ⟨o :: os, m', ?_, ?_, ?_⟩
    · simp only [transformAll, h₁, bind, Except.bind, hall]; rfl
    · rw [List.flatten_cons, transform_append_eq h₁ hflat, List.flatten_cons]
    · exact ⟨hk'.1.trans hk₁.1, hk'.2.trans hk₁.2⟩

end KeyedMode

end CipherEngine
