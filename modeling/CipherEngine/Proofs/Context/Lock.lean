import CipherEngine.Proofs.Context.Keying

/-!
# The direction lock

After an initialisation the first transform binds the direction, and every transform up to the
next initialisation runs that way.  `Context.Locked` says so of one state: an unkeyed context
has no direction bound; with none bound, the unit is as the last initialisation left it, so
re-initialising changes nothing; and with `d` bound, the context is the re-initialised one,
bound to `d` and driven on by buffer transforms in `d` only.

Every operation keeps the lock (`Context.Reachable.locked`).  Keying, re-initialising and
forgetting the key all end settled: no direction, and nothing for re-initialising to change.
An entry point refuses at `begin` and changes nothing, or binds its direction and drives the
unit in it (`single_cases`, `transformStream_cases`), which moves nothing that re-initialising
reads.

Main statement: `Context.Reachable.direction_locked`.  Every reachable context is locked; a
context bound the other way is refused by every entry point with both directions named, and
one with no key as such, each left as it is and a stream reading and writing nothing; any other
context binds the direction asked and moves its unit that way only; and a stream checks its
chunk length before it binds anything.
-/

set_option autoImplicit false

namespace CipherEngine

namespace Context

/-! ## 1. Initialising settles a context -/

/-- The direction lock of one state. -/
structure Locked (ctx : Context) : Prop where
  /-- An unkeyed context has no direction bound. -/
  unkeyed : ctx.isKeyed = false → ctx.direction = none
  /-- With no direction bound, the unit is as the last initialisation left it. -/
  unbound : ctx.direction = none → ctx.reinit.2 = ctx
  /-- With `d` bound, the context is the re-initialised one bound to `d`, driven on by buffer
  transforms in `d` only. -/
  bound : ∀ d, ctx.direction = some d → Drives d { ctx.reinit.2 with direction := some d } ctx

/-- A context with no direction, which re-initialising leaves as it is, is locked. -/
theorem Locked.of_settled {ctx : Context} (hd : ctx.direction = none)
    (hr : ctx.reinit.2 = ctx) : ctx.Locked :=
  ⟨fun _ => hd, fun _ => hr, fun d h => by rw [hd] at h; cases h⟩

theorem locked_initUnit (ctx : Context) : ctx.initUnit.2.Locked :=
  .of_settled (direction_initUnit ctx) (congrArg Prod.snd (initUnit_initUnit ctx))

theorem locked_deinit (ctx : Context) : ctx.deinit.Locked :=
  .of_settled rfl (congrArg Prod.snd (initUnit_deinit ctx))

theorem Locked.key {ctx : Context} (h : ctx.Locked) (k : Bytes) (iv : Option Bytes) :
    (ctx.key k iv).2.Locked := by
  rcases key_cases ctx k iv with heq | ⟨c, heq | heq⟩ <;> rw [heq]
  · exact h
  · exact locked_initUnit c
  · exact locked_deinit c

/-! ## 2. Entry points keep the lock -/

/-- A locked context, keyed and unbound or bound to `dir`, stays locked when bound to `dir` and
driven on in it. -/
theorem Locked.drive {ctx ctx' : Context} (h : ctx.Locked) {dir : Direction}
    (hk : ctx.isKeyed = true) (hdir : ctx.direction = none ∨ ctx.direction = some dir)
    (hdrive : Drives dir { ctx with direction := some dir } ctx') : ctx'.Locked := by
  have hk' : ctx'.isKeyed = true := hdrive.isKeyed hk
  have hd' : ctx'.direction = some dir := hdrive.direction
  have hre : ctx'.reinit.2 = ctx.reinit.2 := by
    rw [Context.reinit, hdrive.initUnit hk, initUnit_withDirection]
    rfl
  refine ⟨fun hu => by (rw [hk'] at hu; cases hu), fun hn => by (rw [hd'] at hn; cases hn), ?_⟩
  intro d hd
  rw [hd'] at hd
  cases hd
  rw [hre]
  rcases hdir with hn | hs
  · rw [h.unbound hn]
    exact hdrive
  · have hsame : ({ ctx with direction := some dir } : Context) = ctx := by
      rw [← hs]
    rw [hsame] at hdrive
    exact (h.bound dir hs).trans hdrive

theorem Locked.single {ctx : Context} (h : ctx.Locked) (dir : Direction) (data : Bytes)
    (f : Bool) : (ctx.single dir data f).2.Locked :=
  single_preserves h (fun _ hk hdir hdrive => h.drive hk hdir hdrive) data f

theorem Locked.transformStream {ctx : Context} (h : ctx.Locked) (dir : Direction)
    (opts : StreamOptions) (src : Source) (sink : Sink) :
    (ctx.transformStream dir opts src sink).context.Locked :=
  transformStream_preserves h (fun _ hk hdir hdrive => h.drive hk hdir hdrive) opts src sink

/-- **Every reachable context is locked.** -/
theorem Reachable.locked {ctx : Context} (h : ctx.Reachable) : ctx.Locked := by
  induction h with
  | built _ hbuild =>
    obtain ⟨hk, -, hd, -⟩ := withCatalog_unkeyed hbuild
    exact .of_settled hd (congrArg Prod.snd (initUnit_of_unkeyed hk hd))
  | key k iv _ ih => exact ih.key k iv
  | reinit _ _ => exact locked_initUnit _
  | deinit _ _ => exact locked_deinit _
  | encrypt data f _ ih => exact ih.single .encrypt data f
  | decrypt data f _ ih => exact ih.single .decrypt data f
  | stream dir opts src sink _ ih => exact ih.transformStream dir opts src sink

/-! ## 3. What the entry points do at the lock -/

/-- Every entry point in direction `dir` fails with `e` and changes nothing: the context stays
as it is, and a stream of a chunk length it takes, whatever its source, writes nothing. -/
def Refuses (ctx : Context) (dir : Direction) (e : EngineError) : Prop :=
  (∀ data f, ctx.single dir data f = (.error e, ctx)) ∧
    ∀ opts src sink, opts.ChunkFits ctx.algorithm.blockSize →
      ctx.transformStream dir opts src sink = ⟨.error e, ctx, sink⟩

/-- Every entry point in direction `dir` binds `dir`, then moves the unit by buffer transforms
in `dir` only, whether it succeeds or fails later. -/
def Binds (ctx : Context) (dir : Direction) : Prop :=
  (∀ data f, Drives dir { ctx with direction := some dir } (ctx.single dir data f).2) ∧
    ∀ opts src sink, opts.ChunkFits ctx.algorithm.blockSize →
      Drives dir { ctx with direction := some dir } (ctx.transformStream dir opts src sink).context

theorem refuses_of_begin {ctx : Context} {dir : Direction} {e : EngineError}
    (h : ctx.begin dir = .error e) : ctx.Refuses dir e :=
  ⟨fun data f => single_of_begin_error h data f,
    fun _ src sink hfit => transformStream_of_begin_error hfit h src sink⟩

theorem binds_of_begin {ctx : Context} {dir : Direction}
    (h : ctx.begin dir = .ok { ctx with direction := some dir }) : ctx.Binds dir :=
  ⟨fun data f => drives_single h data f,
    fun _ src sink hfit => drives_transformStream hfit h src sink⟩

/-- **The direction lock.**  Every reachable context is locked: with no direction bound its
unit is as the last initialisation left it, and with one bound it has been driven only that
way since.  A keyed context bound to `started` refuses every entry point in another direction
with `DirectionMismatch started requested`, and an unkeyed one refuses every entry point and
re-initialising with `NotKeyed`; either way the context stays as it is, and a stream reads and
writes nothing.  Any other context binds the direction asked and moves its unit by transforms
that way only, whether the call succeeds or fails later.  A stream refuses no blocks to a chunk,
or a chunk longer than a buffer holds, before it binds anything. -/
theorem Reachable.direction_locked {ctx : Context} (h : ctx.Reachable) :
    ctx.Locked ∧
      (∀ started requested, ctx.isKeyed = true → ctx.direction = some started →
        started ≠ requested → ctx.Refuses requested (.directionMismatch started requested)) ∧
      (ctx.isKeyed = false →
        (∀ dir, ctx.Refuses dir .notKeyed) ∧ ctx.reinit = (.error .notKeyed, ctx)) ∧
      (∀ dir, ctx.isKeyed = true → (ctx.direction = none ∨ ctx.direction = some dir) →
        ctx.Binds dir) ∧
      ∀ dir opts src sink,
        (opts.bufferBlocks.getD Builtin.defaultBufferBlocks = 0 →
          ctx.transformStream dir opts src sink =
            ⟨.error (.invalidParameter "buffer_blocks" "must be at least 1"), ctx, sink⟩) ∧
        (0 < opts.bufferBlocks.getD Builtin.defaultBufferBlocks →
          maxChunk < opts.bufferBlocks.getD Builtin.defaultBufferBlocks *
            max ctx.algorithm.blockSize 1 →
          ctx.transformStream dir opts src sink =
            ⟨.error (.invalidParameter "buffer_blocks" "chunk size overflows"), ctx, sink⟩) := by
  have hl := h.locked
  refine ⟨hl, fun started requested hk hd hne => refuses_of_begin (begin_of_mismatch hk hd hne),
    fun hk => ⟨fun dir => refuses_of_begin (begin_of_not_keyed hk dir), ?_⟩,
    fun dir hk hdir => binds_of_begin (begin_eq hk hdir),
    fun dir opts src sink => ⟨fun h0 => transformStream_of_zero_blocks h0 dir src sink,
      fun hpos hover => transformStream_of_overflow hpos hover dir src sink⟩⟩
  have hs := h.keyingSound
  have hnone : ctx.storedKey = none := by
    rw [hs.isKeyed] at hk
    simpa using hk
  exact initUnit_of_unkeyed hnone (hl.unkeyed hk)

/-- IDEA under ECB keyed with the all-zero key, after encrypting three bytes: bound to encrypt. -/
theorem Reachable.direction_locked_idea :
    let ctx := (((⟨⟨"idea", 16, [16], 8, 8, true⟩, ⟨"ecb", true, true, false⟩,
      ⟨⟨"idea", .idea⟩, ⟨"ecb", .ecb⟩, none⟩, none, none, none⟩ : Context).key
        (Bytes.zeros 16) none).2.encrypt [1, 2, 3] false).2
    ctx.Reachable ∧
      ctx.Locked ∧
      (∀ started requested, ctx.isKeyed = true → ctx.direction = some started →
        started ≠ requested → ctx.Refuses requested (.directionMismatch started requested)) ∧
      (ctx.isKeyed = false →
        (∀ dir, ctx.Refuses dir .notKeyed) ∧ ctx.reinit = (.error .notKeyed, ctx)) ∧
      (∀ dir, ctx.isKeyed = true → (ctx.direction = none ∨ ctx.direction = some dir) →
        ctx.Binds dir) ∧
      ∀ dir opts src sink,
        (opts.bufferBlocks.getD Builtin.defaultBufferBlocks = 0 →
          ctx.transformStream dir opts src sink =
            ⟨.error (.invalidParameter "buffer_blocks" "must be at least 1"), ctx, sink⟩) ∧
        (0 < opts.bufferBlocks.getD Builtin.defaultBufferBlocks →
          maxChunk < opts.bufferBlocks.getD Builtin.defaultBufferBlocks *
            max ctx.algorithm.blockSize 1 →
          ctx.transformStream dir opts src sink =
            ⟨.error (.invalidParameter "buffer_blocks" "chunk size overflows"), ctx, sink⟩) := by
  intro ctx
  have hreach : ctx.Reachable :=
    .encrypt _ _ (.key _ _ (.built (rfl : Catalog.load Manifest.tomlReader (.dir []) none none = .ok Catalog.builtin)
      (rfl : withCatalog Catalog.builtin "idea" "ecb" = _)))
  exact ⟨hreach, Reachable.direction_locked hreach⟩

end Context

end CipherEngine
