import CipherEngine.Context.Stream
import CipherEngine.Proofs.Catalog.Units
import CipherEngine.Proofs.Mode.Split

/-!
# Reachable contexts

A context is reachable when it was built over a catalog that loaded and then went through
any sequence of keying, re-initialising, forgetting the key, single-buffer transforms and
streams, each of them successful or not (`Context.Reachable`).

Every reachable context is coherent (`Context.Reachable.coherent`): its descriptors have the
block length and the class of the units behind them, and a keyed unit runs its own mode over
its own algorithm.  No operation touches the descriptors or the units' identity, and the
unit's keyed mode is only ever built by the unit or moved on by a transform; `Context.Keeps`
collects what every operation keeps, and each operation has one lemma saying so.

Two consequences carry the later proofs:

* the padding unit fits the keyed mode: a buffer of whole padding units is one the mode takes
  (`Context.Coherent.fits`);
* a transform of a keyed context is a call of its keyed mode, so two transforms are one
  (`Context.transformBuffer_append`).
-/

set_option autoImplicit false

namespace CipherEngine

/-! ## 1. Units run their own mode -/

theorem ModeUnit.overBlock_kind {k : ModeKind} {c : BlockCipher} {iv : Bytes} {m : KeyedMode}
    (h : ModeUnit.overBlock k c iv = .ok m) :
    m.kind = k ∧ m.blockSize = c.blockSize ∧ m.WellFormed := by
  cases k with
  | ecb =>
    simp only [overBlock, pure, Except.pure, Except.ok.injEq] at h
    subst h
    exact ⟨rfl, rfl, trivial⟩
  | cbc =>
    simp [overBlock, Check.length] at h
    obtain ⟨hiv, rfl⟩ := h
    exact ⟨rfl, rfl, hiv⟩
  | stream => simp [overBlock] at h
  | _ => simp [overBlock, Check.length] at h; obtain ⟨-, rfl⟩ := h; exact ⟨rfl, rfl, trivial⟩

/-- What building can do: over the stream cipher, key it for the stream mode; over a block
cipher, key it and build a block mode over it. -/
theorem ModeUnit.build_eq_ok {mu : ModeUnit} {au : AlgorithmUnit} {key iv : Bytes}
    {m : KeyedMode} (h : mu.build au key iv = .ok m) :
    (au.kind = .arcfour ∧ mu.kind = .stream ∧ ∃ c, Arcfour.new key = .ok c ∧ m = .stream c) ∨
      ∃ c : BlockCipher, c.blockSize = au.blockSize ∧
        ((∃ i, Idea.new key = .ok i ∧ c = .idea i) ∨
          (∃ r, Rijndael.new key = .ok r ∧ c = .rijndael r)) ∧
        overBlock mu.kind c iv = .ok m := by
  unfold build at h
  cases hk : au.kind with
  | arcfour =>
    rw [hk] at h
    by_cases hs : mu.kind = .stream
    · simp only [hs, bne_self_eq_false, Bool.false_eq_true, if_false, bind_eq_ok] at h
      obtain ⟨c, hc, hm⟩ := h
      cases hm
      exact .inl ⟨rfl, hs, c, hc, rfl⟩
    · simp [hs] at h
  | idea =>
    rw [hk] at h
    simp only [bind_eq_ok] at h
    obtain ⟨i, hi, hm⟩ := h
    exact .inr ⟨.idea i, by simp [AlgorithmUnit.blockSize, hk, BlockCipher.blockSize],
      .inl ⟨i, hi, rfl⟩, hm⟩
  | rijndael =>
    rw [hk] at h
    simp only [bind_eq_ok] at h
    obtain ⟨r, hr, hm⟩ := h
    exact .inr ⟨.rijndael r, by simp [AlgorithmUnit.blockSize, hk, BlockCipher.blockSize],
      .inr ⟨r, hr, rfl⟩, hm⟩

/-- **A unit builds the mode it names, over the cipher it names, well formed.** -/
theorem ModeUnit.build_kind {mu : ModeUnit} {au : AlgorithmUnit} {key iv : Bytes} {m : KeyedMode}
    (h : mu.build au key iv = .ok m) :
    m.kind = mu.kind ∧ m.blockSize = au.blockSize ∧ m.WellFormed := by
  rcases build_eq_ok h with ⟨hk, hs, c, -, rfl⟩ | ⟨c, hsize, -, hm⟩
  · exact ⟨hs.symm, by simp [AlgorithmUnit.blockSize, hk, KeyedMode.blockSize], trivial⟩
  · obtain ⟨hkind, hsize', hw⟩ := overBlock_kind hm
    exact ⟨hkind, hsize'.trans hsize, hw⟩

/-- A unit runs its own mode over its own algorithm, well formed, whenever it holds a keyed
mode. -/
def LoadedUnit.Runs (u : LoadedUnit) : Prop :=
  ∀ m, u.state = some m →
    m.kind = u.mode.kind ∧ m.blockSize = u.algorithm.blockSize ∧ m.WellFormed

namespace LoadedUnit

theorem runs_initState (u : LoadedUnit) (key iv : Bytes) : (u.initState key iv).1.Runs := by
  unfold initState
  split
  · rename_i m hbuild
    intro n hn
    cases hn
    exact ModeUnit.build_kind hbuild
  · intro n hn
    cases hn

@[simp] theorem mode_initState (u : LoadedUnit) (key iv : Bytes) :
    (u.initState key iv).1.mode = u.mode := by
  unfold initState; split <;> rfl

@[simp] theorem algorithm_initState (u : LoadedUnit) (key iv : Bytes) :
    (u.initState key iv).1.algorithm = u.algorithm := by
  unfold initState; split <;> rfl

theorem runs_deinit (u : LoadedUnit) : u.deinit.Runs := by
  intro m hm; cases hm

theorem transform_eq {u : LoadedUnit} {m m' : KeyedMode} {dir : Direction} {data out : Bytes}
    (hs : u.state = some m) (h : m.transform dir data = .ok (out, m')) :
    u.transform dir data = .ok (out, { u with state := some m' }) := by
  simp [transform, hs, h]

/-- A transform moves the keyed mode on and keeps everything else of the unit. -/
theorem eq_of_transform {u u' : LoadedUnit} {dir : Direction} {data out : Bytes}
    (h : u.transform dir data = .ok (out, u')) :
    ∃ m m', u.state = some m ∧ m.transform dir data = .ok (out, m') ∧
      u' = { u with state := some m' } := by
  unfold transform at h
  split at h
  · cases h
  · rename_i m hs
    split at h
    · rename_i out' m' hm
      cases h
      exact ⟨m, m', hs, hm, rfl⟩
    · cases h

theorem Runs.transform {u u' : LoadedUnit} (hu : u.Runs) {dir : Direction} {data out : Bytes}
    (h : u.transform dir data = .ok (out, u')) : u'.Runs := by
  obtain ⟨m, m', hs, hm, rfl⟩ := eq_of_transform h
  intro n hn
  cases hn
  obtain ⟨hkind, hsize, hw⟩ := hu m hs
  have hk := KeyedMode.kind_transform hm
  exact ⟨hk.1.trans hkind, hk.2.trans hsize, (KeyedMode.length_transform hw hm).2⟩

end LoadedUnit

/-! ## 2. What every operation keeps -/

namespace Context

/-- The descriptors have the block length and class of their units, and a keyed unit runs
its own mode over its own algorithm. -/
structure Coherent (ctx : Context) : Prop where
  blockSize : ctx.algorithm.blockSize = ctx.unit.algorithm.blockSize
  isBlockMode : ctx.mode.isBlockMode = ctx.unit.mode.isBlockMode
  runs : ctx.unit.Runs

/-- What an operation leaves alone: the descriptors and the two units, and a unit that runs
its own mode keeps doing so. -/
structure Keeps (ctx ctx' : Context) : Prop where
  algorithm : ctx'.algorithm = ctx.algorithm
  mode : ctx'.mode = ctx.mode
  unitAlgorithm : ctx'.unit.algorithm = ctx.unit.algorithm
  unitMode : ctx'.unit.mode = ctx.unit.mode
  runs : ctx.unit.Runs → ctx'.unit.Runs

theorem Keeps.refl (ctx : Context) : Keeps ctx ctx := ⟨rfl, rfl, rfl, rfl, id⟩

theorem Keeps.trans {c₁ c₂ c₃ : Context} (h₁ : Keeps c₁ c₂) (h₂ : Keeps c₂ c₃) : Keeps c₁ c₃ :=
  ⟨h₂.algorithm.trans h₁.algorithm, h₂.mode.trans h₁.mode,
    h₂.unitAlgorithm.trans h₁.unitAlgorithm, h₂.unitMode.trans h₁.unitMode, h₂.runs ∘ h₁.runs⟩

theorem Keeps.unitLen {ctx ctx' : Context} (h : Keeps ctx ctx') : ctx'.unitLen = ctx.unitLen := by
  simp only [Context.unitLen, h.mode, h.algorithm]

theorem Coherent.keeps {ctx ctx' : Context} (hc : ctx.Coherent) (h : Keeps ctx ctx') :
    ctx'.Coherent :=
  ⟨by rw [h.algorithm, h.unitAlgorithm]; exact hc.blockSize,
    by rw [h.mode, h.unitMode]; exact hc.isBlockMode, h.runs hc.runs⟩

/-- A change of key, vector or direction alone keeps everything. -/
theorem keeps_of_unit {ctx ctx' : Context} (ha : ctx'.algorithm = ctx.algorithm)
    (hm : ctx'.mode = ctx.mode) (hu : ctx'.unit = ctx.unit) : Keeps ctx ctx' :=
  ⟨ha, hm, by rw [hu], by rw [hu], fun h => hu ▸ h⟩

theorem keeps_initUnit (ctx : Context) : Keeps ctx ctx.initUnit.2 := by
  unfold initUnit
  dsimp only
  split
  · exact keeps_of_unit rfl rfl rfl
  · exact ⟨rfl, rfl, LoadedUnit.algorithm_initState _ _ _, LoadedUnit.mode_initState _ _ _,
      fun _ => LoadedUnit.runs_initState _ _ _⟩

theorem keeps_deinit (ctx : Context) : Keeps ctx ctx.deinit :=
  ⟨rfl, rfl, rfl, rfl, fun _ => LoadedUnit.runs_deinit _⟩

theorem keeps_rekey (ctx : Context) (k : Bytes) (iv : Option Bytes) :
    Keeps ctx (ctx.rekey k iv).2 := by
  -- every branch re-initialises from a context that differs only in key and vector
  have hnew : Keeps ctx ({ ctx with storedKey := some k, storedIv := iv } : Context).initUnit.2 :=
    (keeps_of_unit rfl rfl rfl : Keeps ctx { ctx with storedKey := some k, storedIv := iv }).trans
      (keeps_initUnit _)
  unfold rekey
  split
  · rename_i after h
    rw [h] at hnew
    exact hnew
  · rename_i e after h
    rw [h] at hnew
    have hres : Keeps ctx { after with storedKey := ctx.storedKey, storedIv := ctx.storedIv } :=
      hnew.trans (keeps_of_unit rfl rfl rfl)
    dsimp only
    split
    · exact hres.trans (keeps_deinit _)
    · have hagain := hres.trans (keeps_initUnit _)
      split
      · rename_i h'
        rw [h'] at hagain
        exact hagain
      · rename_i h'
        rw [h'] at hagain
        exact hagain.trans (keeps_deinit _)

theorem keeps_key (ctx : Context) (k : Bytes) (iv : Option Bytes) : Keeps ctx (ctx.key k iv).2 := by
  unfold key
  dsimp only
  split
  · exact Keeps.refl ctx
  · split
    · split
      · exact Keeps.refl ctx
      · exact keeps_rekey ctx k none
    · split
      · exact Keeps.refl ctx
      · exact keeps_rekey ctx k _

theorem keeps_begin {ctx ctx' : Context} {dir : Direction} (h : ctx.begin dir = .ok ctx') :
    Keeps ctx ctx' := by
  unfold begin at h
  split at h
  · cases h
  · split at h
    · split at h
      · cases h; exact Keeps.refl ctx
      · cases h
    · cases h; exact keeps_of_unit rfl rfl rfl

theorem keeps_transformBuffer (ctx : Context) (dir : Direction) (buf : Bytes) :
    Keeps ctx (ctx.transformBuffer dir buf).2 := by
  unfold transformBuffer
  split
  · exact Keeps.refl ctx
  · split
    · exact Keeps.refl ctx
    · split
      · rename_i out unit h
        exact ⟨rfl, rfl, by obtain ⟨_, _, _, _, rfl⟩ := LoadedUnit.eq_of_transform h; rfl,
          by obtain ⟨_, _, _, _, rfl⟩ := LoadedUnit.eq_of_transform h; rfl,
          fun hu => hu.transform h⟩
      · exact Keeps.refl ctx

theorem keeps_of_transformBuffer {ctx ctx' : Context} {dir : Direction} {buf : Bytes}
    {r : Except EngineError Bytes} (h : ctx.transformBuffer dir buf = (r, ctx')) :
    Keeps ctx ctx' := by
  have := keeps_transformBuffer ctx dir buf
  rw [h] at this
  exact this

theorem keeps_encrypt (ctx : Context) (data : Bytes) (fixlength : Bool) :
    Keeps ctx (ctx.encrypt data fixlength).2 := by
  unfold encrypt
  split
  · exact Keeps.refl ctx
  · rename_i ctx' h
    exact (keeps_begin h).trans (keeps_transformBuffer _ _ _)

theorem keeps_decrypt (ctx : Context) (data : Bytes) (fixlength : Bool) :
    Keeps ctx (ctx.decrypt data fixlength).2 := by
  unfold decrypt
  split
  · exact Keeps.refl ctx
  · rename_i ctx' h
    dsimp only
    split
    · rename_i out ctx'' htb
      exact (keeps_begin h).trans (keeps_of_transformBuffer htb)
    · rename_i htb _
      exact (keeps_begin h).trans (keeps_transformBuffer _ _ _)

/-! ## 3. Streams keep it too -/

section Stream

variable (chunk unit : Nat) (fixlength : Bool)

theorem keeps_encryptChunks (ctx : Context) (src : Source) (sink : Sink) :
    Keeps ctx (encryptChunks chunk unit fixlength ctx src sink).context := by
  fun_induction encryptChunks chunk unit fixlength ctx src sink with
  | case1 => exact Keeps.refl _
  | case4 => exact (keeps_of_transformBuffer ‹_›).trans ‹_›
  | _ => exact keeps_of_transformBuffer ‹_›

theorem keeps_emitDecrypted (isLast : Bool) (ctx : Context) (current : Bytes) (sink : Sink) :
    Keeps ctx (emitDecrypted unit fixlength isLast ctx current sink).context := by
  unfold emitDecrypted
  dsimp only
  split
  · exact keeps_of_transformBuffer ‹_›
  · exact keeps_of_transformBuffer ‹_›

theorem keeps_decryptBlockChunks (ctx : Context) (current : Bytes) (src : Source) (sink : Sink) :
    Keeps ctx (decryptBlockChunks chunk unit fixlength ctx current src sink).context := by
  fun_induction decryptBlockChunks chunk unit fixlength ctx current src sink with
  | case1 => exact keeps_emitDecrypted _ _ _ _ _ _
  | case2 => exact Keeps.refl _
  | case3 => exact keeps_emitDecrypted _ _ _ _ _ _
  | case4 => exact keeps_emitDecrypted _ _ _ _ _ _
  | case5 => exact (keeps_emitDecrypted _ _ _ _ _ _).trans ‹_›

theorem keeps_decryptByteChunks (ctx : Context) (src : Source) (sink : Sink) :
    Keeps ctx (decryptByteChunks chunk ctx src sink).context := by
  fun_induction decryptByteChunks chunk ctx src sink with
  | case1 => exact Keeps.refl _
  | case5 => exact (keeps_of_transformBuffer ‹_›).trans ‹_›
  | _ => exact keeps_of_transformBuffer ‹_›

end Stream

theorem keeps_transformStream (ctx : Context) (dir : Direction) (opts : StreamOptions)
    (src : Source) (sink : Sink) : Keeps ctx (ctx.transformStream dir opts src sink).context := by
  unfold transformStream
  dsimp only
  split
  · exact Keeps.refl ctx
  · split
    · exact Keeps.refl ctx
    · split
      · exact Keeps.refl ctx
      · rename_i ctx' h
        refine (keeps_begin h).trans ?_
        cases dir with
        | encrypt => exact keeps_encryptChunks _ _ _ _ _ _
        | decrypt =>
          dsimp only
          split
          · split
            · exact Keeps.refl _
            · exact keeps_decryptBlockChunks _ _ _ _ _ _ _
          · exact keeps_decryptByteChunks _ _ _ _

/-! ## 4. Reachable contexts are coherent -/

theorem Catalog.mem_of_resolveAlgorithm {c : Catalog} {name : String} {e : AlgorithmEntry}
    (h : c.resolveAlgorithm name = .ok e) : e ∈ c.algorithms := by
  unfold Catalog.resolveAlgorithm at h
  split at h
  · cases h; exact List.mem_of_find?_eq_some ‹_›
  · cases h

theorem Catalog.mem_of_resolveMode {c : Catalog} {name : String} {e : ModeEntry}
    (h : c.resolveMode name = .ok e) : e ∈ c.modes := by
  unfold Catalog.resolveMode at h
  split at h
  · cases h; exact List.mem_of_find?_eq_some ‹_›
  · cases h

/-- A unit is loaded from the units of the two names, not yet keyed. -/
theorem Registry.eq_of_load {an mn : String} {u : LoadedUnit} (h : Registry.load an mn = .ok u) :
    ∃ au mu, Registry.algorithmUnit? an = some au ∧ Registry.modeUnit? mn = some mu ∧
      u = ⟨au, mu, none⟩ := by
  unfold Registry.load at h
  split at h
  · cases h
  · cases h
  · rename_i au mu ha hm
    split at h
    · cases h
    · cases h; exact ⟨au, mu, ha, hm, rfl⟩

/-- **What a built context is**: the descriptors of the two entries the names resolve to, and
the unit the registry loads for the units they name, with no key, no vector and no
direction. -/
theorem withCatalog_eq_ok {c : Catalog} {algorithm mode : String} {ctx : Context}
    (h : withCatalog c algorithm mode = .ok ctx) :
    ∃ a m au mu unit, c.resolveAlgorithm algorithm = .ok a ∧ c.resolveMode mode = .ok m ∧
      a.unit = some au ∧ m.unit = some mu ∧ Registry.load au mu = .ok unit ∧
      ctx = ⟨a.descriptor, m.descriptor, unit, none, none, none⟩ := by
  simp only [withCatalog, bind_eq_ok] at h
  obtain ⟨a, ha, m, hm, -, -, h⟩ := h
  cases haunit : a.unit with
  | none => simp [haunit, throw, throwThe, MonadExceptOf.throw, bind, Except.bind] at h
  | some au =>
  cases hmunit : m.unit with
  | none =>
    simp [haunit, hmunit, throw, throwThe, MonadExceptOf.throw, bind, Except.bind, pure,
      Except.pure] at h
  | some mu =>
  simp only [haunit, hmunit, bind_eq_ok, pure, Except.pure, Except.ok.injEq] at h
  obtain ⟨_, rfl, _, rfl, unit, hload, rfl⟩ := h
  exact ⟨a, m, au, mu, unit, ha, hm, haunit, hmunit, hload, rfl⟩

/-- **A context built over a coherent catalog is coherent.** -/
theorem coherent_withCatalog {c : Catalog} (hc : c.Coherent) {algorithm mode : String}
    {ctx : Context} (h : withCatalog c algorithm mode = .ok ctx) : ctx.Coherent := by
  obtain ⟨a, m, au, mu, unit, ha, hm, haunit, hmunit, hload, rfl⟩ := withCatalog_eq_ok h
  obtain ⟨u, v, hu, hv, rfl⟩ := Registry.eq_of_load hload
  obtain ⟨u', hu', hsize, -, -⟩ := hc.1 a (Catalog.mem_of_resolveAlgorithm ha) au haunit
  obtain ⟨v', hv', hmode, -⟩ := hc.2 m (Catalog.mem_of_resolveMode hm) mu hmunit
  rw [hu] at hu'
  rw [hv] at hv'
  cases hu'
  cases hv'
  exact ⟨hsize.symm, hmode.symm, fun _ hs => by cases hs⟩

/-- The contexts an engine can hold: built over a catalog that loaded, with any manifest
reader, then taken through any sequence of operations, each successful or not. -/
inductive Reachable : Context → Prop
  | built {reader : ManifestReader} {root : FsNode} {algorithmDir modeDir : Option String}
      {catalog : Catalog} {algorithm mode : String} {ctx : Context}
      (hload : Catalog.load reader root algorithmDir modeDir = .ok catalog)
      (hbuild : withCatalog catalog algorithm mode = .ok ctx) : Reachable ctx
  | key {ctx : Context} (k : Bytes) (iv : Option Bytes) : Reachable ctx → Reachable (ctx.key k iv).2
  | reinit {ctx : Context} : Reachable ctx → Reachable ctx.reinit.2
  | deinit {ctx : Context} : Reachable ctx → Reachable ctx.deinit
  | encrypt {ctx : Context} (data : Bytes) (fixlength : Bool) :
      Reachable ctx → Reachable (ctx.encrypt data fixlength).2
  | decrypt {ctx : Context} (data : Bytes) (fixlength : Bool) :
      Reachable ctx → Reachable (ctx.decrypt data fixlength).2
  | stream {ctx : Context} (dir : Direction) (opts : StreamOptions) (src : Source) (sink : Sink) :
      Reachable ctx → Reachable (ctx.transformStream dir opts src sink).context

/-- **Every reachable context is coherent.** -/
theorem Reachable.coherent {ctx : Context} (h : Reachable ctx) : ctx.Coherent := by
  induction h with
  | built hload hbuild => exact coherent_withCatalog (Catalog.load_coherent hload) hbuild
  | key k iv _ ih => exact ih.keeps (keeps_key _ k iv)
  | reinit _ ih => exact ih.keeps (keeps_initUnit _)
  | deinit _ ih => exact ih.keeps (keeps_deinit _)
  | encrypt data fixlength _ ih => exact ih.keeps (keeps_encrypt _ data fixlength)
  | decrypt data fixlength _ ih => exact ih.keeps (keeps_decrypt _ data fixlength)
  | stream dir opts src sink _ ih => exact ih.keeps (keeps_transformStream _ dir opts src sink)

/-! ## 5. Transforms of a keyed context -/

/-- The context with its unit's keyed mode replaced. -/
def withMode (ctx : Context) (m : KeyedMode) : Context :=
  { ctx with unit := { ctx.unit with state := some m } }

@[simp] theorem withMode_withMode (ctx : Context) (m m' : KeyedMode) :
    (ctx.withMode m).withMode m' = ctx.withMode m' := rfl

theorem withMode_self {ctx : Context} {m : KeyedMode} (hs : ctx.unit.state = some m) :
    ctx.withMode m = ctx := by
  rw [withMode, ← hs]

theorem isKeyed_iff {ctx : Context} :
    ctx.isKeyed = true ↔ ctx.storedKey.isSome = true ∧ ∃ m, ctx.unit.state = some m := by
  simp [isKeyed, LoadedUnit.isInitialized, Option.isSome_iff_exists]

theorem isKeyed_withMode {ctx : Context} (hk : ctx.isKeyed = true) (m : KeyedMode) :
    (ctx.withMode m).isKeyed = true :=
  isKeyed_iff.mpr ⟨(isKeyed_iff.mp hk).1, m, rfl⟩

@[simp] theorem unitLen_withMode (ctx : Context) (m : KeyedMode) :
    (ctx.withMode m).unitLen = ctx.unitLen := rfl

/-- **A transform of a keyed context is one call of its keyed mode.** -/
theorem transformBuffer_eq {ctx : Context} {m m' : KeyedMode} {dir : Direction} {buf out : Bytes}
    (hk : ctx.isKeyed = true) (hs : ctx.unit.state = some m)
    (h : m.transform dir buf = .ok (out, m')) :
    ctx.transformBuffer dir buf = (.ok out, ctx.withMode m') := by
  unfold transformBuffer
  rw [hk]
  by_cases he : buf.isEmpty
  · have hbuf : buf = [] := List.isEmpty_iff.mp he
    subst hbuf
    rw [KeyedMode.transform_nil] at h
    cases h
    simp [withMode_self hs]
  · simp only [he, Bool.not_true, Bool.false_eq_true, if_false, LoadedUnit.transform_eq hs h]
    rfl

/-- The padding unit of a coherent context fits its keyed mode: whole units are whole
blocks of a whole-block mode. -/
theorem Coherent.fits {ctx : Context} (hc : ctx.Coherent) {m : KeyedMode}
    (hs : ctx.unit.state = some m) {buf : Bytes} (hbuf : buf.length % ctx.unitLen = 0) :
    m.Fits buf := by
  intro hw
  obtain ⟨hkind, hsize, -⟩ := hc.runs m hs
  have hblock : ctx.mode.isBlockMode = true := by
    rw [hc.isBlockMode]
    unfold ModeUnit.isBlockMode
    rw [← hkind]
    cases m <;> simp [KeyedMode.kind, ModeKind.wholeBlocks] at hw ⊢
  have hpos : 0 < m.blockSize := by
    cases m with
    | ecb c => exact c.blockSize_pos
    | cbc c _ => exact c.blockSize_pos
    | _ => simp [KeyedMode.kind, ModeKind.wholeBlocks] at hw
  have hunit : ctx.unitLen = m.blockSize := by
    simp only [unitLen, hblock, if_true, hc.blockSize, ← hsize]
    omega
  rw [← hunit]
  exact hbuf

/-- **Two transforms of whole units are one.** -/
theorem transformBuffer_append {ctx : Context} (hk : ctx.isKeyed = true) (hc : ctx.Coherent)
    (dir : Direction) {a b : Bytes} (ha : a.length % ctx.unitLen = 0)
    (hb : b.length % ctx.unitLen = 0) :
    ∃ oa ob ctx₁ ctx₂, ctx.transformBuffer dir a = (.ok oa, ctx₁) ∧
      ctx₁.transformBuffer dir b = (.ok ob, ctx₂) ∧
      ctx.transformBuffer dir (a ++ b) = (.ok (oa ++ ob), ctx₂) := by
  obtain ⟨m, hs⟩ := (isKeyed_iff.mp hk).2
  obtain ⟨oa, m₁, h₁⟩ := m.transform_ok dir (hc.fits hs ha)
  have hb₁ : m₁.Fits b := (KeyedMode.fits_iff_of_kind (KeyedMode.kind_transform h₁) b).mpr
    (hc.fits hs hb)
  obtain ⟨ob, m₂, h₂⟩ := m₁.transform_ok dir hb₁
  refine ⟨oa, ob, ctx.withMode m₁, ctx.withMode m₂, transformBuffer_eq hk hs h₁, ?_,
    transformBuffer_eq hk hs (KeyedMode.transform_append_eq h₁ h₂)⟩
  rw [← withMode_withMode ctx m₁ m₂]
  exact transformBuffer_eq (isKeyed_withMode hk m₁) rfl h₂

/-- A transform of a keyed context leaves it keyed and coherent. -/
theorem keyed_of_transformBuffer {ctx ctx' : Context} (hk : ctx.isKeyed = true)
    (hc : ctx.Coherent) {dir : Direction} {buf out : Bytes}
    (h : ctx.transformBuffer dir buf = (.ok out, ctx')) :
    ctx'.isKeyed = true ∧ ctx'.Coherent ∧ ctx'.unitLen = ctx.unitLen := by
  have hkeeps := keeps_of_transformBuffer h
  refine ⟨?_, hc.keeps hkeeps, hkeeps.unitLen⟩
  unfold transformBuffer at h
  simp only [hk, Bool.not_true, Bool.false_eq_true, if_false] at h
  split at h
  · cases h; exact hk
  · split at h
    · rename_i hu
      obtain ⟨_, m', _, _, rfl⟩ := LoadedUnit.eq_of_transform hu
      cases h
      exact isKeyed_withMode hk m'
    · cases h

end Context

end CipherEngine
