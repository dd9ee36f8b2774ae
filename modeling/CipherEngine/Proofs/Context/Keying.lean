import CipherEngine.Proofs.Context.Entry

/-!
# Keying

A context stores a key exactly when its unit is keyed, holds a vector only with a key, and the
key and vector it stores are ones its unit takes (`Context.KeyingSound`).  Every operation keeps
this (`Context.Reachable.keyingSound`): a key is stored once the unit took it; a key the unit
refuses puts the previous material back and initialises with it again, which the unit took
before; and transforms move the unit's keyed mode and nothing keying reads.

Main statements:

* `Context.Reachable.stored_key_sound`: in every reachable context a key is stored exactly when
  the context is keyed and the unit takes it; re-initialising succeeds exactly then; a keyed
  context stays keyed through every `key`; and re-initialising after any transforms, streams and
  refused keys brings back the very context the last successful `key` left;
* `Context.Reachable.key_atomic`: `key` succeeds exactly when the descriptors' checks pass and
  the unit takes the material; a refusal by the checks changes nothing, and a refusal by the
  unit leaves the context as re-initialising would.
-/

set_option autoImplicit false

namespace CipherEngine

/-- The refusals of the descriptors' checks on key material, made before anything changes. -/
def EngineError.isMaterialCheck : EngineError → Bool
  | .keySize .. | .ivRequired _ | .ivSize .. => true
  | _ => false

/-- A unit's refusals are never the descriptors'. -/
theorem PrimitiveError.isMaterialCheck_toEngineError (e : PrimitiveError) :
    e.toEngineError.isMaterialCheck = false := by
  cases e <;> rfl

theorem LoadedUnit.initState_snd_eq_error {u : LoadedUnit} {key iv : Bytes} {e : EngineError}
    (h : (u.initState key iv).2 = .error e) : e.isMaterialCheck = false := by
  unfold LoadedUnit.initState at h
  split at h
  · cases h
  · cases h
    exact PrimitiveError.isMaterialCheck_toEngineError _

namespace Context

/-! ## 1. The descriptors' checks, then the unit -/

/-- What the descriptors ask of key material before the unit sees it: a non-empty key of an
accepted length, a vector when the mode needs one, and a given vector of the algorithm's size. -/
def MaterialFits (ctx : Context) (k : Bytes) (iv : Option Bytes) : Prop :=
  k ≠ [] ∧ ctx.algorithm.acceptedKeySizes.accepts k.length = true ∧
    (iv = none → ctx.mode.requiresIv = false) ∧ ∀ v, iv = some v → v.length = ctx.algorithm.ivSize

theorem key_of_materialFits {ctx : Context} {k : Bytes} {iv : Option Bytes}
    (h : ctx.MaterialFits k iv) : ctx.key k iv = ctx.rekey k iv := by
  obtain ⟨hne, hacc, hreq, hlen⟩ := h
  have hcheck : (k.isEmpty || !ctx.algorithm.acceptedKeySizes.accepts k.length) = false := by
    simp [hne, hacc]
  cases iv with
  | none => simp [key, hcheck, hreq rfl]
  | some v => simp [key, hcheck, hlen v rfl]

/-- Material the descriptors refuse is refused by one of their checks, and nothing changes. -/
theorem key_of_not_materialFits {ctx : Context} {k : Bytes} {iv : Option Bytes}
    (h : ¬ ctx.MaterialFits k iv) :
    ∃ e, e.isMaterialCheck = true ∧ ctx.key k iv = (.error e, ctx) := by
  unfold key
  dsimp only
  split
  · exact ⟨_, rfl, rfl⟩
  · rename_i hcheck
    have hkey : k ≠ [] ∧ ctx.algorithm.acceptedKeySizes.accepts k.length = true := by
      simpa [List.isEmpty_iff] using hcheck
    split
    · split
      · exact ⟨_, rfl, rfl⟩
      · rename_i hreq
        refine absurd ⟨hkey.1, hkey.2, fun _ => by simpa using hreq, ?_⟩ h
        intro v hv
        cases hv
    · rename_i v
      split
      · exact ⟨_, rfl, rfl⟩
      · rename_i hlen
        refine absurd ⟨hkey.1, hkey.2, ?_, ?_⟩ h
        · intro hv
          cases hv
        · intro w hw
          cases hw
          simpa using hlen

/-- A change of key answers as the unit does with the new key and the vector given, or zeros. -/
theorem rekey_fst (ctx : Context) (k : Bytes) (iv : Option Bytes) :
    (ctx.rekey k iv).1 = (ctx.unit.initState k (iv.getD (Bytes.zeros ctx.algorithm.ivSize))).2 := by
  obtain ⟨a, md, u, key, v, d⟩ := ctx
  cases hI : u.initState k (iv.getD (Bytes.zeros a.ivSize)) with
  | mk u' r =>
    cases r with
    | ok x => simp [rekey, initUnit, hI]
    | error e =>
      simp only [rekey, initUnit, hI]
      cases key with
      | none => rfl
      | some k₀ =>
        dsimp only
        split <;> rfl

/-- A key the unit refuses, on a context with no key, leaves no key. -/
theorem rekey_of_refused_unkeyed {ctx : Context} {k : Bytes} {iv : Option Bytes}
    {e : EngineError} (hk : ctx.storedKey = none)
    (h : (ctx.unit.initState k (iv.getD (Bytes.zeros ctx.algorithm.ivSize))).2 = .error e) :
    ctx.rekey k iv = (.error e, ctx.deinit) := by
  obtain ⟨a, md, u, key, v, d⟩ := ctx
  simp only at hk h
  subst hk
  cases hI : u.initState k (iv.getD (Bytes.zeros a.ivSize)) with
  | mk u' r =>
    rw [hI] at h
    subst h
    have hu : u'.deinit = u.deinit := by
      have := LoadedUnit.initState_fst u k (iv.getD (Bytes.zeros a.ivSize))
      rw [hI] at this
      subst this
      rfl
    simp [rekey, initUnit, hI, deinit, hu]

/-- A key the unit refuses, on a keyed context whose key the unit takes, brings back the
context that re-initialising with the old key gives. -/
theorem rekey_of_refused_keyed {ctx ctx' : Context} {k k₀ : Bytes} {iv : Option Bytes}
    {e : EngineError} (hk : ctx.storedKey = some k₀)
    (h : (ctx.unit.initState k (iv.getD (Bytes.zeros ctx.algorithm.ivSize))).2 = .error e)
    (hold : ctx.initUnit = (.ok (), ctx')) :
    ctx.rekey k iv = (.error e, ctx') := by
  have hagain : ({ ctx with
      direction := none
      unit := (ctx.unit.initState k (iv.getD (Bytes.zeros ctx.algorithm.ivSize))).1 } :
        Context).initUnit = (.ok (), ctx') := by
    rw [LoadedUnit.initState_fst, ← hold]
    exact (initUnit_withDirection { ctx with unit := { ctx.unit with
      state := (ctx.unit.mode.build ctx.unit.algorithm k
        (iv.getD (Bytes.zeros ctx.algorithm.ivSize))).toOption } } none).trans
      (initUnit_withState hk _)
  obtain ⟨a, md, u, key, v, d⟩ := ctx
  simp only at hk h hagain
  subst hk
  cases hI : u.initState k (iv.getD (Bytes.zeros a.ivSize)) with
  | mk u' r =>
    rw [hI] at h hagain
    subst h
    simp only [initUnit] at hagain
    simp only [rekey, initUnit, hI]
    rw [hagain]

/-! ## 2. The keying invariant -/

/-- What keying leaves true of a context. -/
structure KeyingSound (ctx : Context) : Prop where
  /-- The unit is keyed exactly when a key is stored. -/
  initialized : ctx.unit.isInitialized = ctx.storedKey.isSome
  /-- A vector is stored only with a key. -/
  ivWithKey : ctx.storedKey = none → ctx.storedIv = none
  /-- The unit takes the stored key with the stored vector, or zeros of the vector size. -/
  accepted : ∀ k, ctx.storedKey = some k →
    (ctx.unit.initState k (ctx.storedIv.getD (Bytes.zeros ctx.algorithm.ivSize))).2 = .ok ()

theorem KeyingSound.isKeyed {ctx : Context} (h : ctx.KeyingSound) :
    ctx.isKeyed = ctx.storedKey.isSome := by
  rw [Context.isKeyed, h.initialized, Bool.and_self]

/-- A sound context with a key initialises with it. -/
theorem KeyingSound.initUnit_ok {ctx : Context} (h : ctx.KeyingSound) {k : Bytes}
    (hk : ctx.storedKey = some k) : ctx.initUnit = (.ok (), ctx.initUnit.2) := by
  rw [initUnit_of_storedKey hk, h.accepted k hk]

theorem keyingSound_of_fresh {ctx : Context} {m : KeyedMode} (hf : ctx.Fresh m) :
    ctx.KeyingSound := by
  obtain ⟨k, hk, hb⟩ := hf.built
  refine ⟨by simp [LoadedUnit.isInitialized, hf.state, hk], fun h => by (rw [hk] at h; cases h),
    fun k' hk' => ?_⟩
  rw [hk] at hk'
  cases hk'
  simp [LoadedUnit.initState, hb]

theorem keyingSound_deinit (ctx : Context) : ctx.deinit.KeyingSound :=
  ⟨rfl, fun _ => rfl, fun _ h => by cases h⟩

theorem KeyingSound.reinit {ctx : Context} (h : ctx.KeyingSound) : ctx.reinit.2.KeyingSound := by
  cases hk : ctx.storedKey with
  | none =>
    have hre : ctx.reinit.2 = { ctx with direction := none } := by
      show ctx.initUnit.2 = _
      simp only [initUnit, hk]
    rw [hre]
    exact ⟨h.initialized, h.ivWithKey, h.accepted⟩
  | some k =>
    obtain ⟨m, hf⟩ := fresh_of_initUnit (h.initUnit_ok hk)
    exact keyingSound_of_fresh hf

/-- A key the unit refuses leaves a sound context as re-initialising would: no key when there
was none, else the old key initialised again. -/
theorem KeyingSound.rekey_of_refused {ctx : Context} (h : ctx.KeyingSound) {k : Bytes}
    {iv : Option Bytes} {e : EngineError}
    (hr : (ctx.unit.initState k (iv.getD (Bytes.zeros ctx.algorithm.ivSize))).2 = .error e) :
    ctx.rekey k iv = (.error e, ctx.reinit.2) := by
  cases hk : ctx.storedKey with
  | none =>
    rw [rekey_of_refused_unkeyed hk hr]
    have hs : ctx.unit.state = none := by
      simpa [LoadedUnit.isInitialized, hk] using h.initialized
    have hiv := h.ivWithKey hk
    obtain ⟨a, md, ⟨ua, um, us⟩, key, v, d⟩ := ctx
    simp only at hk hs hiv
    subst hk hs hiv
    rfl
  | some k₀ => exact rekey_of_refused_keyed hk hr (h.initUnit_ok hk)

/-- A `key` on a sound context succeeds and leaves a fresh context, or is refused by a check
of the descriptors and changes nothing, or is refused by the unit and re-initialises. -/
theorem KeyingSound.key_cases {ctx : Context} (h : ctx.KeyingSound) (k : Bytes)
    (iv : Option Bytes) :
    (∃ m, ctx.key k iv = (.ok (), (ctx.key k iv).2) ∧ (ctx.key k iv).2.Fresh m) ∨
      (∃ e, e.isMaterialCheck = true ∧ ctx.key k iv = (.error e, ctx)) ∨
      ∃ e, ctx.key k iv = (.error e, ctx.reinit.2) := by
  by_cases hfit : ctx.MaterialFits k iv
  · rw [key_of_materialFits hfit]
    cases hr : (ctx.rekey k iv).1 with
    | ok u =>
      have hok : ctx.rekey k iv = (.ok (), (ctx.rekey k iv).2) := by rw [← hr]
      exact .inl ((fresh_of_rekey hok).imp fun _ hf => ⟨hok, hf⟩)
    | error e =>
      rw [rekey_fst] at hr
      exact .inr (.inr ⟨e, h.rekey_of_refused hr⟩)
  · exact .inr (.inl (key_of_not_materialFits hfit))

theorem KeyingSound.key {ctx : Context} (h : ctx.KeyingSound) (k : Bytes) (iv : Option Bytes) :
    (ctx.key k iv).2.KeyingSound := by
  rcases h.key_cases k iv with ⟨m, -, hf⟩ | ⟨e, -, heq⟩ | ⟨e, heq⟩
  · exact keyingSound_of_fresh hf
  · rw [heq]
    exact h
  · rw [heq]
    exact h.reinit

/-- Transforms from a keyed context keep it sound: they move nothing keying reads. -/
theorem KeyingSound.drive {ctx ctx' : Context} (h : ctx.KeyingSound) (hk : ctx.isKeyed = true)
    {dir : Direction} (hdrive : Drives dir { ctx with direction := some dir } ctx') :
    ctx'.KeyingSound := by
  have hk' : ctx'.isKeyed = true := hdrive.isKeyed hk
  have hframe := hdrive.frame
  have hkey : ctx'.storedKey = ctx.storedKey := by rw [hframe]
  have hiv : ctx'.storedIv = ctx.storedIv := by rw [hframe]
  have halg : ctx'.algorithm = ctx.algorithm := by rw [hframe]
  have hunit : ctx'.unit = { ctx.unit with state := ctx'.unit.state } := by rw [hframe]
  refine ⟨?_, fun hn => by rw [hiv]; exact h.ivWithKey (hkey ▸ hn), fun k hk₀ => ?_⟩
  · obtain ⟨hsome, m, hm⟩ := isKeyed_iff.mp hk'
    simp [LoadedUnit.isInitialized, hm, hsome]
  · rw [hunit, LoadedUnit.initState_withState, hiv, halg]
    exact h.accepted k (hkey ▸ hk₀)

theorem KeyingSound.single {ctx : Context} (h : ctx.KeyingSound) (dir : Direction) (data : Bytes)
    (f : Bool) : (ctx.single dir data f).2.KeyingSound :=
  single_preserves h (fun _ hk _ hdrive => h.drive hk hdrive) data f

theorem KeyingSound.transformStream {ctx : Context} (h : ctx.KeyingSound) (dir : Direction)
    (opts : StreamOptions) (src : Source) (sink : Sink) :
    (ctx.transformStream dir opts src sink).context.KeyingSound :=
  transformStream_preserves h (fun _ hk _ hdrive => h.drive hk hdrive) opts src sink

/-- A context is built with no key, no vector, no direction and an unkeyed unit. -/
theorem withCatalog_unkeyed {c : Catalog} {algorithm mode : String} {ctx : Context}
    (h : withCatalog c algorithm mode = .ok ctx) :
    ctx.storedKey = none ∧ ctx.storedIv = none ∧ ctx.direction = none ∧ ctx.unit.state = none := by
  obtain ⟨a, m, au, mu, unit, -, -, -, -, hload, rfl⟩ := withCatalog_eq_ok h
  obtain ⟨u, v, -, -, rfl⟩ := Registry.eq_of_load hload
  exact ⟨rfl, rfl, rfl, rfl⟩

/-- **Every reachable context is sound in its keying.** -/
theorem Reachable.keyingSound {ctx : Context} (h : ctx.Reachable) : ctx.KeyingSound := by
  induction h with
  | built _ hbuild =>
    obtain ⟨hk, hiv, -, hs⟩ := withCatalog_unkeyed hbuild
    exact ⟨by simp [LoadedUnit.isInitialized, hk, hs], fun _ => hiv, fun _ h => by
      rw [hk] at h; cases h⟩
  | key k iv _ ih => exact ih.key k iv
  | reinit _ ih => exact ih.reinit
  | deinit _ _ => exact keyingSound_deinit _
  | encrypt data f _ ih => exact ih.single .encrypt data f
  | decrypt data f _ ih => exact ih.single .decrypt data f
  | stream dir opts src sink _ ih => exact ih.transformStream dir opts src sink

/-! ## 3. Re-initialising returns to the last key -/

/-- A fresh context re-initialises to itself. -/
theorem Fresh.reinit_self {ctx : Context} {m : KeyedMode} (hf : ctx.Fresh m) :
    ctx.reinit = (.ok (), ctx) := by
  have h := hf.reinit_withMode .encrypt m
  rwa [@withMode_self { ctx with direction := some .encrypt } m hf.state, reinit,
    initUnit_withDirection] at h

/-- What a context becomes while it keeps its key: transforms and streams, re-initialisations
and refused keys, each successful or not, and nothing that keys it anew or forgets its key. -/
inductive Continues (ctx₀ : Context) : Context → Prop
  | start : Continues ctx₀ ctx₀
  | reinit {ctx : Context} : Continues ctx₀ ctx → Continues ctx₀ ctx.reinit.2
  | encrypt {ctx : Context} (data : Bytes) (fixlength : Bool) :
      Continues ctx₀ ctx → Continues ctx₀ (ctx.encrypt data fixlength).2
  | decrypt {ctx : Context} (data : Bytes) (fixlength : Bool) :
      Continues ctx₀ ctx → Continues ctx₀ (ctx.decrypt data fixlength).2
  | stream {ctx : Context} (dir : Direction) (opts : StreamOptions) (src : Source) (sink : Sink) :
      Continues ctx₀ ctx → Continues ctx₀ (ctx.transformStream dir opts src sink).context
  | keyRefused {ctx : Context} (k : Bytes) (iv : Option Bytes) {e : EngineError} :
      Continues ctx₀ ctx → (ctx.key k iv).1 = .error e → Continues ctx₀ (ctx.key k iv).2

section Returns

variable {ctx ctx₀ : Context} (h : ctx.reinit = (.ok (), ctx₀))
include h

/-- Re-initialising forgets the direction and what drives did to the unit. -/
theorem reinit_of_drive {dir : Direction} {ctx' : Context} (hk : ctx.isKeyed = true)
    (hdrive : Drives dir { ctx with direction := some dir } ctx') :
    ctx'.reinit = (.ok (), ctx₀) := by
  rw [reinit, hdrive.initUnit hk, initUnit_withDirection]
  exact h

theorem reinit_single (dir : Direction) (data : Bytes) (f : Bool) :
    (ctx.single dir data f).2.reinit = (.ok (), ctx₀) :=
  single_preserves h (fun _ hk _ hdrive => reinit_of_drive h hk hdrive) data f

theorem reinit_transformStream (dir : Direction) (opts : StreamOptions) (src : Source)
    (sink : Sink) : (ctx.transformStream dir opts src sink).context.reinit = (.ok (), ctx₀) :=
  transformStream_preserves h (fun _ hk _ hdrive => reinit_of_drive h hk hdrive) opts src sink

/-- A refused key on a context that re-initialises to `ctx₀` ends in `ctx₀`: past the checks, the
old key is initialised again, which the unit takes. -/
theorem reinit_key_of_error {k : Bytes} {iv : Option Bytes} {e : EngineError}
    (he : (ctx.key k iv).1 = .error e) : (ctx.key k iv).2.reinit = (.ok (), ctx₀) := by
  by_cases hfit : ctx.MaterialFits k iv
  · rw [key_of_materialFits hfit] at he ⊢
    rw [rekey_fst] at he
    obtain ⟨k₀, hk₀⟩ : ∃ k₀, ctx.storedKey = some k₀ := by
      cases hk : ctx.storedKey with
      | none => simp [reinit, initUnit, hk] at h
      | some k₀ => exact ⟨k₀, rfl⟩
    rw [rekey_of_refused_keyed hk₀ he h]
    exact reinit_of_reinit_eq h
  · obtain ⟨e', -, heq⟩ := key_of_not_materialFits hfit
    rw [heq]
    exact h

end Returns

/-- **Re-initialising returns to `ctx₀` from wherever `ctx₀` continued to**, when `ctx₀` itself
re-initialises to itself. -/
theorem Continues.reinit_eq {ctx₀ ctx : Context} (h₀ : ctx₀.reinit = (.ok (), ctx₀))
    (h : ctx₀.Continues ctx) : ctx.reinit = (.ok (), ctx₀) := by
  induction h with
  | start => exact h₀
  | reinit _ ih =>
    rw [ih]
    exact h₀
  | encrypt data f _ ih => exact reinit_single ih .encrypt data f
  | decrypt data f _ ih => exact reinit_single ih .decrypt data f
  | stream dir opts src sink _ ih => exact reinit_transformStream ih dir opts src sink
  | keyRefused k iv _ he ih => exact reinit_key_of_error ih he

/-- A keyed sound context stays keyed through every `key`. -/
theorem KeyingSound.isKeyed_key {ctx : Context} (h : ctx.KeyingSound)
    (hsome : ctx.storedKey.isSome = true) (k : Bytes) (iv : Option Bytes) :
    (ctx.key k iv).2.isKeyed = true := by
  rw [(h.key k iv).isKeyed]
  rcases h.key_cases k iv with ⟨m, -, hf⟩ | ⟨e, -, heq⟩ | ⟨e, heq⟩
  · obtain ⟨k', hk', -⟩ := hf.built
    simp [hk']
  · rw [heq]
    exact hsome
  · rw [heq, Context.reinit, storedKey_initUnit]
    exact hsome

/-! ## 4. Main statements -/

/-- **A key is stored exactly when the unit took it, and re-initialising returns to it.**  In
every reachable context the unit is keyed exactly when a key is stored, so `isKeyed` says
whether one is; the unit takes the stored key with the stored vector, or zeros, so
re-initialising succeeds exactly when the context is keyed, with the unit a fresh
initialisation gives.  A keyed context stays keyed through every `key`: the fallback that
forgets the key is never taken.  And after a successful `key`, re-initialising brings back the
very context it left, whatever transforms, streams, re-initialisations and refused keys came
since. -/
theorem Reachable.stored_key_sound {ctx : Context} (h : ctx.Reachable) :
    ctx.isKeyed = ctx.storedKey.isSome ∧ ctx.unit.isInitialized = ctx.storedKey.isSome ∧
      (∀ k, ctx.storedKey = some k →
        (ctx.unit.initState k (ctx.storedIv.getD (Bytes.zeros ctx.algorithm.ivSize))).2 = .ok () ∧
        ctx.reinit.2.unit =
          (ctx.unit.initState k (ctx.storedIv.getD (Bytes.zeros ctx.algorithm.ivSize))).1) ∧
      (ctx.reinit.1 = .ok () ↔ ctx.isKeyed = true) ∧
      (ctx.storedKey.isSome = true → ∀ k iv, (ctx.key k iv).2.isKeyed = true) ∧
      ∀ k iv ctx₀, ctx.key k iv = (.ok (), ctx₀) → ∀ ctx', ctx₀.Continues ctx' →
        ctx'.reinit = (.ok (), ctx₀) := by
  have hs := h.keyingSound
  refine ⟨hs.isKeyed, hs.initialized, fun k hk => ⟨hs.accepted k hk, ?_⟩, ?_, hs.isKeyed_key,
    fun k iv ctx₀ hkey ctx' hcont => ?_⟩
  · rw [Context.reinit, initUnit_of_storedKey hk]
  · rw [hs.isKeyed]
    cases hk : ctx.storedKey with
    | none => simp [Context.reinit, initUnit, hk]
    | some k =>
      rw [Context.reinit, hs.initUnit_ok hk]
      simp
  · obtain ⟨m, hf⟩ := fresh_of_key hkey
    exact hcont.reinit_eq hf.reinit_self

/-- IDEA under ECB from the built-in catalog, keyed with the all-zero key. -/
theorem Reachable.stored_key_sound_idea :
    let ctx := ((⟨⟨"idea", 16, [16], 8, 8, true⟩, ⟨"ecb", true, true, false⟩,
      ⟨⟨"idea", .idea⟩, ⟨"ecb", .ecb⟩, none⟩, none, none, none⟩ : Context).key
        (Bytes.zeros 16) none).2
    ctx.Reachable ∧
      ctx.isKeyed = ctx.storedKey.isSome ∧ ctx.unit.isInitialized = ctx.storedKey.isSome ∧
      (∀ k, ctx.storedKey = some k →
        (ctx.unit.initState k (ctx.storedIv.getD (Bytes.zeros ctx.algorithm.ivSize))).2 = .ok () ∧
        ctx.reinit.2.unit =
          (ctx.unit.initState k (ctx.storedIv.getD (Bytes.zeros ctx.algorithm.ivSize))).1) ∧
      (ctx.reinit.1 = .ok () ↔ ctx.isKeyed = true) ∧
      (ctx.storedKey.isSome = true → ∀ k iv, (ctx.key k iv).2.isKeyed = true) ∧
      ∀ k iv ctx₀, ctx.key k iv = (.ok (), ctx₀) → ∀ ctx', ctx₀.Continues ctx' →
        ctx'.reinit = (.ok (), ctx₀) := by
  intro ctx
  have hreach : ctx.Reachable :=
    .key _ _ (.built (rfl : Catalog.load Manifest.tomlReader (.dir []) none none = .ok Catalog.builtin)
      (rfl : withCatalog Catalog.builtin "idea" "ecb" = _))
  exact ⟨hreach, Reachable.stored_key_sound hreach⟩

/-- **Keying succeeds, or changes only what the unit's refusal does.**  For every reachable
context `s`, `key k v` succeeds exactly when the descriptors' checks pass (a non-empty key of an
accepted length, a vector when the mode needs one, a given vector of the vector size) and the
unit takes the key with the vector, or zeros.  A refusal by the checks (`KeySize`, `IvRequired`,
`IvSize`) leaves `s` exactly as it was.  A refusal by the unit keeps the stored key and vector,
keeps the context keyed exactly when it was, unbinds the direction, and leaves the unit as
re-initialising `s` would. -/
theorem Reachable.key_atomic {s : Context} (h : s.Reachable) (k : Bytes) (v : Option Bytes) :
    ((s.key k v).1 = .ok () ↔ s.MaterialFits k v ∧
        (s.unit.initState k (v.getD (Bytes.zeros s.algorithm.ivSize))).2 = .ok ()) ∧
      (∀ e, (s.key k v).1 = .error e → e.isMaterialCheck = true → (s.key k v).2 = s) ∧
      (s.MaterialFits k v →
        (s.unit.initState k (v.getD (Bytes.zeros s.algorithm.ivSize))).2 ≠ .ok () →
        (s.key k v).2.storedKey = s.storedKey ∧ (s.key k v).2.storedIv = s.storedIv ∧
        (s.key k v).2.isKeyed = s.isKeyed ∧ (s.key k v).2.direction = none ∧
        (s.key k v).2.unit = s.reinit.2.unit) := by
  have hs := h.keyingSound
  refine ⟨⟨fun hok => ?_, fun ⟨hfit, hinit⟩ => ?_⟩, fun e he hcheck => ?_, fun hfit hrej => ?_⟩
  · by_cases hfit : s.MaterialFits k v
    · rw [key_of_materialFits hfit, rekey_fst] at hok
      exact ⟨hfit, hok⟩
    · obtain ⟨e, -, heq⟩ := key_of_not_materialFits hfit
      rw [heq] at hok
      cases hok
  · rw [key_of_materialFits hfit, rekey_fst, hinit]
  · by_cases hfit : s.MaterialFits k v
    · -- past the checks, a refusal is the unit's, never one of the checks'
      rw [key_of_materialFits hfit, rekey_fst] at he
      rw [LoadedUnit.initState_snd_eq_error he] at hcheck
      cases hcheck
    · obtain ⟨e', -, heq⟩ := key_of_not_materialFits hfit
      rw [heq]
  · obtain ⟨e, he⟩ : ∃ e,
        (s.unit.initState k (v.getD (Bytes.zeros s.algorithm.ivSize))).2 = .error e := by
      cases hr : (s.unit.initState k (v.getD (Bytes.zeros s.algorithm.ivSize))).2 with
      | ok u => exact absurd hr hrej
      | error e => exact ⟨e, rfl⟩
    rw [key_of_materialFits hfit, hs.rekey_of_refused he]
    refine ⟨storedKey_initUnit s, storedIv_initUnit s, ?_, direction_initUnit s, rfl⟩
    rw [hs.reinit.isKeyed, hs.isKeyed]
    exact congrArg Option.isSome (storedKey_initUnit s)

/-- Rijndael under ECB, from the manifest that lists 20-byte keys, keyed with a 16-byte key
and then with a 20-byte one: the descriptor takes the length and the cipher refuses it, so
the refusal is the unit's, and the context keeps its key and vector and stays keyed as it
was. -/
theorem Reachable.key_atomic_loose :
    let s := ((⟨Catalog.looseRijndael.descriptor, ⟨"ecb", true, true, false⟩,
      ⟨⟨"rijndael", .rijndael⟩, ⟨"ecb", .ecb⟩, none⟩, none, none, none⟩ : Context).key
        (Bytes.zeros 16) none).2
    let k := Bytes.zeros 20
    s.Reachable ∧ s.MaterialFits k none ∧
      (s.unit.initState k ((none : Option Bytes).getD
        (Bytes.zeros s.algorithm.ivSize))).2 ≠ .ok () ∧
      (s.key k none).1 ≠ .ok () ∧
      (s.key k none).2.storedKey = s.storedKey ∧ (s.key k none).2.storedIv = s.storedIv ∧
      (s.key k none).2.isKeyed = s.isKeyed ∧ (s.key k none).2.direction = none ∧
      (s.key k none).2.unit = s.reinit.2.unit := by
  intro s k
  have hreach : s.Reachable :=
    .key _ _ (.built Catalog.load_looseRijndaelTree
      (rfl : withCatalog (Catalog.builtin.insertAlgorithm Catalog.looseRijndael)
        "loose-rijndael" "ecb" = _))
  have hk : Keeps _ s := keeps_key _ _ _
  have hfit : s.MaterialFits k none := by
    refine ⟨by decide, ?_, fun _ => ?_, fun _ h => by cases h⟩
    · rw [hk.algorithm]
      decide
    · rw [hk.mode]
  have hrej : (s.unit.initState k ((none : Option Bytes).getD
      (Bytes.zeros s.algorithm.ivSize))).2 ≠ .ok () := by
    simp only [LoadedUnit.initState, hk.unitAlgorithm, hk.unitMode, hk.algorithm]
    decide
  have h := Reachable.key_atomic hreach k none
  exact ⟨hreach, hfit, hrej, fun hok => hrej (h.1.mp hok).2, h.2.2 hfit hrej⟩

end Context

end CipherEngine
