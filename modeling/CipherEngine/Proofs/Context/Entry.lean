import CipherEngine.Proofs.Context.RoundTrip

/-!
# Entry points and the unit calls they make

A context reaches its unit through `transformBuffer` only, and the three entry points that
call it, `encrypt`, `decrypt` and `transformStream`, each start with `begin`.  So every entry
point does one of two things: `begin` refuses, and the entry point returns that refusal and
changes nothing; or `begin` binds the direction, and from there on every call the entry point
makes is a buffer transform in that direction (`Context.Drives`), whatever fails later.  A
stream checks its chunk size before `begin`.

* `transformBuffer_cases`: a buffer transform leaves the context as it is, or moves the unit's
  keyed mode by one call in its direction;
* `Drives.frame`: buffer transforms move the unit's keyed mode and nothing else;
* `single_cases`, `transformStream_cases`: what each entry point can do, and
  `single_preserves`, `transformStream_preserves`: so what a drive keeps, every entry point
  keeps.
-/

set_option autoImplicit false

namespace CipherEngine

namespace Context

/-! ## 1. Buffer transforms -/

/-- A buffer transform leaves the context as it is (no key, an empty buffer, or a refusal), or
replaces the unit's keyed mode by the one a call in its direction leaves. -/
theorem transformBuffer_cases (ctx : Context) (dir : Direction) (buf : Bytes) :
    (ctx.transformBuffer dir buf).2 = ctx ∨
      ∃ m m' out, ctx.unit.state = some m ∧ m.transform dir buf = .ok (out, m') ∧
        (ctx.transformBuffer dir buf).2 = ctx.withMode m' := by
  unfold transformBuffer
  split
  · exact .inl rfl
  · split
    · exact .inl rfl
    · split
      · rename_i out u h
        obtain ⟨m, m', hs, hm, rfl⟩ := LoadedUnit.eq_of_transform h
        exact .inr ⟨m, m', out, hs, hm, rfl⟩
      · exact .inl rfl

/-- `ctx'` is reached from `ctx` by buffer transforms in direction `dir`. -/
def Drives (dir : Direction) : Context → Context → Prop :=
  Relation.ReflTransGen fun c c' => ∃ buf, (c.transformBuffer dir buf).2 = c'

theorem drives_of_transformBuffer {ctx ctx' : Context} {dir : Direction} {buf : Bytes}
    {r : Except EngineError Bytes} (h : ctx.transformBuffer dir buf = (r, ctx')) :
    Drives dir ctx ctx' :=
  .single ⟨buf, by rw [h]⟩

/-- **Buffer transforms move the unit's keyed mode and nothing else.** -/
theorem Drives.frame {dir : Direction} {c c' : Context} (h : Drives dir c c') :
    c' = { c with unit := { c.unit with state := c'.unit.state } } := by
  induction h with
  | refl => rfl
  | tail _ hstep ih =>
    obtain ⟨buf, rfl⟩ := hstep
    rcases transformBuffer_cases _ dir buf with h | ⟨m, m', out, -, -, h⟩
    · rw [h]
      exact ih
    · rw [h, ih]
      rfl

theorem Drives.direction {dir : Direction} {c c' : Context} (h : Drives dir c c') :
    c'.direction = c.direction := by
  rw [h.frame]

theorem Drives.isKeyed {dir : Direction} {c c' : Context} (h : Drives dir c c')
    (hk : c.isKeyed = true) : c'.isKeyed = true := by
  induction h with
  | refl => exact hk
  | tail _ hstep ih =>
    obtain ⟨buf, rfl⟩ := hstep
    rcases transformBuffer_cases _ dir buf with h | ⟨m, m', out, -, -, h⟩
    · rw [h]
      exact ih
    · rw [h]
      exact isKeyed_withMode ih m'

/-! ## 2. The chunk loops drive the unit in their direction -/

section Loops

variable (chunk unit : Nat) (fixlength : Bool)

theorem drives_encryptChunks (ctx : Context) (src : Source) (sink : Sink) :
    Drives .encrypt ctx (encryptChunks chunk unit fixlength ctx src sink).context := by
  fun_induction encryptChunks chunk unit fixlength ctx src sink with
  | case1 => exact .refl
  | case4 => exact (drives_of_transformBuffer ‹_›).trans ‹_›
  | _ => exact drives_of_transformBuffer ‹_›

theorem drives_emitDecrypted (isLast : Bool) (ctx : Context) (current : Bytes) (sink : Sink) :
    Drives .decrypt ctx (emitDecrypted unit fixlength isLast ctx current sink).context := by
  unfold emitDecrypted
  dsimp only
  split
  · exact drives_of_transformBuffer ‹_›
  · exact drives_of_transformBuffer ‹_›

theorem drives_decryptBlockChunks (ctx : Context) (current : Bytes) (src : Source) (sink : Sink) :
    Drives .decrypt ctx (decryptBlockChunks chunk unit fixlength ctx current src sink).context := by
  fun_induction decryptBlockChunks chunk unit fixlength ctx current src sink with
  | case2 => exact .refl
  | case5 => exact (drives_emitDecrypted _ _ _ _ _ _).trans ‹_›
  | _ => exact drives_emitDecrypted _ _ _ _ _ _

theorem drives_decryptByteChunks (ctx : Context) (src : Source) (sink : Sink) :
    Drives .decrypt ctx (decryptByteChunks chunk ctx src sink).context := by
  fun_induction decryptByteChunks chunk ctx src sink with
  | case1 => exact .refl
  | case5 => exact (drives_of_transformBuffer ‹_›).trans ‹_›
  | _ => exact drives_of_transformBuffer ‹_›

end Loops

/-! ## 3. Entry points -/

/-- `begin` binds only a keyed context that is unbound or bound the same way already, and it
binds the direction asked. -/
theorem begin_eq_ok {ctx ctx' : Context} {dir : Direction} (h : ctx.begin dir = .ok ctx') :
    ctx.isKeyed = true ∧ (ctx.direction = none ∨ ctx.direction = some dir) ∧
      ctx' = { ctx with direction := some dir } := by
  unfold begin at h
  by_cases hk : ctx.isKeyed = true
  · simp only [hk, Bool.not_true, Bool.false_eq_true, if_false] at h
    split at h
    · rename_i started hd
      split at h
      · cases h
        subst started
        refine ⟨hk, .inr hd, ?_⟩
        cases ctx
        simp_all
      · cases h
    · rename_i hd
      cases h
      exact ⟨hk, .inl hd, rfl⟩
  · simp [hk] at h

theorem begin_of_not_keyed {ctx : Context} (hk : ctx.isKeyed = false) (dir : Direction) :
    ctx.begin dir = .error .notKeyed := by
  simp [begin, hk]

theorem begin_of_mismatch {ctx : Context} (hk : ctx.isKeyed = true) {started dir : Direction}
    (hd : ctx.direction = some started) (hne : started ≠ dir) :
    ctx.begin dir = .error (.directionMismatch started dir) := by
  simp [begin, hk, hd, hne]

/-- The single-buffer entry point of a direction. -/
def single (ctx : Context) : Direction → Bytes → Bool → Outcome Bytes
  | .encrypt, data, f => ctx.encrypt data f
  | .decrypt, data, f => ctx.decrypt data f

theorem single_of_begin_error {ctx : Context} {dir : Direction} {e : EngineError}
    (h : ctx.begin dir = .error e) (data : Bytes) (f : Bool) :
    ctx.single dir data f = (.error e, ctx) := by
  cases dir <;> simp [single, encrypt, decrypt, h]

theorem drives_single {ctx ctx₁ : Context} {dir : Direction} (h : ctx.begin dir = .ok ctx₁)
    (data : Bytes) (f : Bool) : Drives dir ctx₁ (ctx.single dir data f).2 := by
  cases dir with
  | encrypt =>
    simp only [single, encrypt, h]
    exact .single ⟨_, rfl⟩
  | decrypt =>
    simp only [single, decrypt, h]
    split
    · exact drives_of_transformBuffer ‹_›
    · exact .single ⟨_, rfl⟩

/-- **A single-buffer call refuses at `begin` and changes nothing, or binds its direction and
drives the unit in it.** -/
theorem single_cases (ctx : Context) (dir : Direction) (data : Bytes) (f : Bool) :
    (∃ e, ctx.begin dir = .error e ∧ ctx.single dir data f = (.error e, ctx)) ∨
      ∃ ctx₁, ctx.begin dir = .ok ctx₁ ∧ Drives dir ctx₁ (ctx.single dir data f).2 := by
  cases hb : ctx.begin dir with
  | error e => exact .inl ⟨e, rfl, single_of_begin_error hb data f⟩
  | ok ctx₁ => exact .inr ⟨ctx₁, rfl, drives_single hb data f⟩

end Context

/-- A chunk length the stream driver takes: at least one block, and no more bytes than a
buffer can hold. -/
def StreamOptions.ChunkFits (opts : StreamOptions) (blockSize : Nat) : Prop :=
  0 < opts.bufferBlocks.getD Builtin.defaultBufferBlocks ∧
    opts.bufferBlocks.getD Builtin.defaultBufferBlocks * max blockSize 1 ≤ maxChunk

instance (opts : StreamOptions) (blockSize : Nat) : Decidable (opts.ChunkFits blockSize) :=
  inferInstanceAs (Decidable (_ ∧ _))

namespace Context

/-- A stream of no blocks a chunk is refused before anything else. -/
theorem transformStream_of_zero_blocks {ctx : Context} {opts : StreamOptions}
    (h : opts.bufferBlocks.getD Builtin.defaultBufferBlocks = 0) (dir : Direction) (src : Source)
    (sink : Sink) :
    ctx.transformStream dir opts src sink =
      ⟨.error (.invalidParameter "buffer_blocks" "must be at least 1"), ctx, sink⟩ := by
  simp only [transformStream, h, if_true]

/-- A chunk longer than a buffer can hold is refused before any direction is bound. -/
theorem transformStream_of_overflow {ctx : Context} {opts : StreamOptions}
    (hpos : 0 < opts.bufferBlocks.getD Builtin.defaultBufferBlocks)
    (h : maxChunk < opts.bufferBlocks.getD Builtin.defaultBufferBlocks *
      max ctx.algorithm.blockSize 1) (dir : Direction) (src : Source) (sink : Sink) :
    ctx.transformStream dir opts src sink =
      ⟨.error (.invalidParameter "buffer_blocks" "chunk size overflows"), ctx, sink⟩ := by
  simp only [transformStream, Nat.pos_iff_ne_zero.mp hpos, if_false, h, if_true]

theorem transformStream_of_not_chunkFits {ctx : Context} {opts : StreamOptions}
    (h : ¬ opts.ChunkFits ctx.algorithm.blockSize) (dir : Direction) (src : Source) (sink : Sink) :
    ∃ msg, ctx.transformStream dir opts src sink =
      ⟨.error (.invalidParameter "buffer_blocks" msg), ctx, sink⟩ := by
  rcases Nat.eq_zero_or_pos (opts.bufferBlocks.getD Builtin.defaultBufferBlocks) with h0 | hpos
  · exact ⟨_, transformStream_of_zero_blocks h0 dir src sink⟩
  · have hover : maxChunk < opts.bufferBlocks.getD Builtin.defaultBufferBlocks *
        max ctx.algorithm.blockSize 1 := by
      unfold StreamOptions.ChunkFits at h
      omega
    exact ⟨_, transformStream_of_overflow hpos hover dir src sink⟩

theorem transformStream_of_begin_error {ctx : Context} {opts : StreamOptions}
    (hfit : opts.ChunkFits ctx.algorithm.blockSize) {dir : Direction} {e : EngineError}
    (h : ctx.begin dir = .error e) (src : Source) (sink : Sink) :
    ctx.transformStream dir opts src sink = ⟨.error e, ctx, sink⟩ := by
  obtain ⟨hpos, hle⟩ := hfit
  simp only [transformStream, Nat.pos_iff_ne_zero.mp hpos, if_false, Nat.not_lt.mpr hle, h]

theorem drives_transformStream {ctx ctx₁ : Context} {opts : StreamOptions}
    (hfit : opts.ChunkFits ctx.algorithm.blockSize) {dir : Direction}
    (h : ctx.begin dir = .ok ctx₁) (src : Source) (sink : Sink) :
    Drives dir ctx₁ (ctx.transformStream dir opts src sink).context := by
  obtain ⟨hpos, hle⟩ := hfit
  simp only [transformStream, Nat.pos_iff_ne_zero.mp hpos, if_false, Nat.not_lt.mpr hle, h]
  cases dir with
  | encrypt => exact drives_encryptChunks _ _ _ _ _ _
  | decrypt =>
    dsimp only
    split
    · split
      · exact .refl
      · exact drives_decryptBlockChunks _ _ _ _ _ _ _
    · exact drives_decryptByteChunks _ _ _ _

/-- **A stream of a chunk length it takes refuses at `begin` and reads, writes and changes
nothing, or binds its direction and drives the unit in it.** -/
theorem transformStream_cases (ctx : Context) (dir : Direction) {opts : StreamOptions}
    (hfit : opts.ChunkFits ctx.algorithm.blockSize) (src : Source) (sink : Sink) :
    (∃ e, ctx.begin dir = .error e ∧ ctx.transformStream dir opts src sink = ⟨.error e, ctx, sink⟩) ∨
      ∃ ctx₁, ctx.begin dir = .ok ctx₁ ∧
        Drives dir ctx₁ (ctx.transformStream dir opts src sink).context := by
  cases hb : ctx.begin dir with
  | error e => exact .inl ⟨e, rfl, transformStream_of_begin_error hfit hb src sink⟩
  | ok ctx₁ => exact .inr ⟨ctx₁, rfl, drives_transformStream hfit hb src sink⟩

section Preserved

/-! A property that a context has, and that every drive in `dir` from it keeps once the
context is keyed and free to bind `dir`, holds after every entry point in `dir`. -/

variable {P : Context → Prop} {ctx : Context} {dir : Direction} (h : P ctx)
  (hdrive : ∀ ctx', ctx.isKeyed = true → (ctx.direction = none ∨ ctx.direction = some dir) →
    Drives dir { ctx with direction := some dir } ctx' → P ctx')
include h hdrive

theorem single_preserves (data : Bytes) (f : Bool) : P (ctx.single dir data f).2 := by
  rcases single_cases ctx dir data f with ⟨e, -, heq⟩ | ⟨ctx₁, hb, hd⟩
  · rw [heq]
    exact h
  · obtain ⟨hk, hdir, rfl⟩ := begin_eq_ok hb
    exact hdrive _ hk hdir hd

/-- A stream whose chunk length is refused changes nothing either. -/
theorem transformStream_preserves (opts : StreamOptions) (src : Source) (sink : Sink) :
    P (ctx.transformStream dir opts src sink).context := by
  by_cases hfit : opts.ChunkFits ctx.algorithm.blockSize
  · rcases transformStream_cases ctx dir hfit src sink with ⟨e, -, heq⟩ | ⟨ctx₁, hb, hd⟩
    · rw [heq]
      exact h
    · obtain ⟨hk, hdir, rfl⟩ := begin_eq_ok hb
      exact hdrive _ hk hdir hd
  · obtain ⟨msg, heq⟩ := transformStream_of_not_chunkFits hfit dir src sink
    rw [heq]
    exact h

end Preserved

/-! ## 4. Initialising -/

theorem LoadedUnit.initState_fst (u : LoadedUnit) (key iv : Bytes) :
    (u.initState key iv).1 = { u with state := (u.mode.build u.algorithm key iv).toOption } := by
  unfold LoadedUnit.initState
  split <;> rename_i h <;> simp [h, Except.toOption]

/-- Initialising a unit forgets whatever keyed mode it held. -/
theorem LoadedUnit.initState_withState (u : LoadedUnit) (s : Option KeyedMode) (key iv : Bytes) :
    ({ u with state := s } : LoadedUnit).initState key iv = u.initState key iv := rfl

theorem initUnit_withDirection (ctx : Context) (d : Option Direction) :
    ({ ctx with direction := d } : Context).initUnit = ctx.initUnit := rfl

theorem initUnit_of_storedKey {ctx : Context} {k : Bytes} (hk : ctx.storedKey = some k) :
    ctx.initUnit =
      ((ctx.unit.initState k (ctx.storedIv.getD (Bytes.zeros ctx.algorithm.ivSize))).2,
        { ctx with
          direction := none
          unit := (ctx.unit.initState k (ctx.storedIv.getD (Bytes.zeros ctx.algorithm.ivSize))).1 }) := by
  simp only [initUnit, hk]

@[simp] theorem storedKey_initUnit (ctx : Context) : ctx.initUnit.2.storedKey = ctx.storedKey := by
  cases hk : ctx.storedKey <;> simp [initUnit, hk]

@[simp] theorem storedIv_initUnit (ctx : Context) : ctx.initUnit.2.storedIv = ctx.storedIv := by
  cases hk : ctx.storedKey <;> simp [initUnit, hk]

@[simp] theorem direction_initUnit (ctx : Context) : ctx.initUnit.2.direction = none := by
  cases hk : ctx.storedKey <;> simp [initUnit, hk]

/-- Initialising a keyed context forgets whatever keyed mode its unit held. -/
theorem initUnit_withState {ctx : Context} {k : Bytes} (hk : ctx.storedKey = some k)
    (s : Option KeyedMode) :
    ({ ctx with unit := { ctx.unit with state := s } } : Context).initUnit = ctx.initUnit := by
  have hk' : ({ ctx with unit := { ctx.unit with state := s } } : Context).storedKey = some k := hk
  rw [initUnit_of_storedKey hk', initUnit_of_storedKey hk]
  rfl

/-- Buffer transforms from a keyed context change nothing that initialising reads. -/
theorem Drives.initUnit {dir : Direction} {c c' : Context} (h : Drives dir c c')
    (hk : c.isKeyed = true) : c'.initUnit = c.initUnit := by
  obtain ⟨k, hkey⟩ := Option.isSome_iff_exists.mp (isKeyed_iff.mp hk).1
  rw [h.frame, initUnit_withState hkey]

/-- Initialising twice is initialising once. -/
theorem initUnit_initUnit (ctx : Context) : ctx.initUnit.2.initUnit = ctx.initUnit := by
  cases hk : ctx.storedKey with
  | none => simp [initUnit, hk]
  | some k =>
    have hsettled : ctx.initUnit.2 = { ({ ctx with unit := { ctx.unit with
        state := (ctx.unit.mode.build ctx.unit.algorithm k
          (ctx.storedIv.getD (Bytes.zeros ctx.algorithm.ivSize))).toOption } } : Context) with
        direction := none } := by
      rw [initUnit_of_storedKey hk, LoadedUnit.initState_fst]
    rw [hsettled, initUnit_withDirection, initUnit_withState hk]

/-- Re-initialising gives a context that re-initialises to itself. -/
theorem reinit_of_reinit_eq {ctx ctx' : Context} {r : Except EngineError Unit}
    (h : ctx.reinit = (r, ctx')) : ctx'.reinit = (r, ctx') := by
  have := initUnit_initUnit ctx
  rw [show ctx.initUnit = (r, ctx') from h] at this
  exact this

/-- A context with no key and no direction is refused, and left as it is. -/
theorem initUnit_of_unkeyed {ctx : Context} (hk : ctx.storedKey = none)
    (hd : ctx.direction = none) : ctx.initUnit = (.error .notKeyed, ctx) := by
  obtain ⟨a, m, u, key, iv, d⟩ := ctx
  simp only at hk hd
  subst hk hd
  rfl

theorem initUnit_deinit (ctx : Context) : ctx.deinit.initUnit = (.error .notKeyed, ctx.deinit) :=
  rfl

/-- A change of key ends in an initialisation, of the new key or the old one, or in forgetting
the key. -/
theorem rekey_cases (ctx : Context) (k : Bytes) (iv : Option Bytes) :
    ∃ c : Context, (ctx.rekey k iv).2 = c.initUnit.2 ∨ (ctx.rekey k iv).2 = c.deinit := by
  unfold rekey
  split
  · rename_i after h
    exact ⟨_, .inl (by rw [h])⟩
  · dsimp only
    split
    · exact ⟨_, .inr rfl⟩
    · split
      · rename_i h
        exact ⟨_, .inl (by rw [h])⟩
      · exact ⟨_, .inr rfl⟩

/-- Keying leaves the context as it is, when a check refuses the material, or ends as a change
of key does. -/
theorem key_cases (ctx : Context) (k : Bytes) (iv : Option Bytes) :
    (ctx.key k iv).2 = ctx ∨ ∃ c : Context, (ctx.key k iv).2 = c.initUnit.2 ∨ (ctx.key k iv).2 = c.deinit := by
  unfold key
  dsimp only
  split
  · exact .inl rfl
  · split
    · split
      · exact .inl rfl
      · exact .inr (rekey_cases ctx k none)
    · split
      · exact .inl rfl
      · exact .inr (rekey_cases ctx k _)

end Context

end CipherEngine
