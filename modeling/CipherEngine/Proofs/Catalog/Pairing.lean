import CipherEngine.Proofs.Context.Reachable

/-!
# The catalog's pairing check is the registry's

Both the catalog and the registry refuse a block mode over a stream cipher and the stream
mode over a block cipher: the catalog from the flags of its descriptors
(`Catalog.validatePairing`), the registry from the units themselves (`Registry.load`).  Over
a coherent catalog the two read the same classes, so they agree on every pair of entries
that name units (`Catalog.Coherent.validatePairing_iff_load`).

Building a context therefore never meets the registry's refusal: once both names resolve,
the catalog's check passes and both entries name units, the context is built
(`Catalog.Coherent.withCatalog_ok`).  And a coherent context pads to the real block length of
its cipher in a block mode, and byte by byte otherwise (`Context.Coherent.unitLen_eq`).

Main statement: `Catalog.load_pairing_agrees`, for every catalog that loads.
-/

set_option autoImplicit false

namespace CipherEngine

/-! ## 1. The registry's check -/

/-- Two registered units load exactly when the mode's class is the algorithm's. -/
theorem Registry.load_ok_iff {an mn : String} {a : AlgorithmUnit} {m : ModeUnit}
    (ha : Registry.algorithmUnit? an = some a) (hm : Registry.modeUnit? mn = some m) :
    (∃ u, Registry.load an mn = .ok u) ↔ m.isBlockAlgorithmMode = a.isBlock := by
  unfold Registry.load
  rw [ha, hm]
  cases hb : a.isBlock <;> cases hc : m.isBlockAlgorithmMode <;> simp [hb, hc]

/-- Every cipher works on blocks of at least one byte. -/
theorem AlgorithmUnit.blockSize_pos (a : AlgorithmUnit) : 0 < a.blockSize := by
  cases h : a.kind <;> simp [AlgorithmUnit.blockSize, h, Idea.blockSize, Rijndael.blockSize]

/-- A coherent context pads to its cipher's block length in a block mode, and byte by byte
otherwise: the descriptor's length it reads is the unit's. -/
theorem Context.Coherent.unitLen_eq {ctx : Context} (hc : ctx.Coherent) :
    ctx.unitLen = if ctx.unit.mode.isBlockMode then ctx.unit.algorithm.blockSize else 1 := by
  rw [Context.unitLen, hc.isBlockMode, hc.blockSize,
    Nat.max_eq_left (AlgorithmUnit.blockSize_pos _)]

/-! ## 2. Over a coherent catalog -/

/-- What a catalog promises a context built over it: its entries describe their units, its
pairing check is the registry's on every pair of entries with units, a context is built
whenever the names resolve, the check passes and the entries name units, and a built
context pads to its cipher's real block length in a block mode. -/
structure Catalog.AgreesWithUnits (c : Catalog) : Prop where
  coherent : c.Coherent
  pairing : ∀ A ∈ c.algorithms, ∀ M ∈ c.modes, ∀ au mu, A.unit = some au → M.unit = some mu →
    (Catalog.validatePairing A.descriptor M.descriptor = .ok () ↔
      ∃ u, Registry.load au mu = .ok u)
  builds : ∀ algorithm mode A M au mu, c.resolveAlgorithm algorithm = .ok A →
    c.resolveMode mode = .ok M → A.unit = some au → M.unit = some mu →
    Catalog.validatePairing A.descriptor M.descriptor = .ok () →
    ∃ u, Registry.load au mu = .ok u ∧
      Context.withCatalog c algorithm mode = .ok ⟨A.descriptor, M.descriptor, u, none, none, none⟩
  unitLen : ∀ algorithm mode ctx, Context.withCatalog c algorithm mode = .ok ctx →
    ctx.unitLen = if ctx.unit.mode.isBlockMode then ctx.unit.algorithm.blockSize else 1

namespace Catalog.Coherent

variable {c : Catalog} (hc : c.Coherent)
include hc

/-- The catalog's check agrees with the registry's on every pair of entries with units:
both read the class of the same two units. -/
theorem validatePairing_iff_load {A : AlgorithmEntry} {M : ModeEntry} (hA : A ∈ c.algorithms)
    (hM : M ∈ c.modes) {au mu : String} (hau : A.unit = some au) (hmu : M.unit = some mu) :
    Catalog.validatePairing A.descriptor M.descriptor = .ok () ↔
      ∃ u, Registry.load au mu = .ok u := by
  obtain ⟨a, ha, -, hblock, -⟩ := hc.1 A hA au hau
  obtain ⟨m, hm, -, hclass⟩ := hc.2 M hM mu hmu
  rw [Catalog.validatePairing_ok_iff, Registry.load_ok_iff ha hm, hblock, hclass]

/-- The registry refuses no pair the catalog took: once both names resolve, the catalog's
check passes and both entries name units, the context is built. -/
theorem withCatalog_ok {algorithm mode : String} {A : AlgorithmEntry} {M : ModeEntry}
    (hA : c.resolveAlgorithm algorithm = .ok A) (hM : c.resolveMode mode = .ok M)
    {au mu : String} (hau : A.unit = some au) (hmu : M.unit = some mu)
    (hpair : Catalog.validatePairing A.descriptor M.descriptor = .ok ()) :
    ∃ u, Registry.load au mu = .ok u ∧ Context.withCatalog c algorithm mode =
      .ok ⟨A.descriptor, M.descriptor, u, none, none, none⟩ := by
  have hmem := (hc.validatePairing_iff_load (Context.Catalog.mem_of_resolveAlgorithm hA)
    (Context.Catalog.mem_of_resolveMode hM) hau hmu)
  obtain ⟨u, hu⟩ := hmem.mp hpair
  refine ⟨u, hu, ?_⟩
  simp [Context.withCatalog, hA, hM, hpair, hau, hmu, hu, bind, Except.bind, pure, Except.pure]

theorem agreesWithUnits : c.AgreesWithUnits where
  coherent := hc
  pairing _ hA _ hM _ _ hau hmu := hc.validatePairing_iff_load hA hM hau hmu
  builds _ _ _ _ _ _ hA hM hau hmu hpair := hc.withCatalog_ok hA hM hau hmu hpair
  unitLen _ _ _ h := (Context.coherent_withCatalog hc h).unitLen_eq

end Catalog.Coherent

/-- **Every catalog that loads agrees with the registry**, whatever reader its manifests are
read with.  Its entries describe their units, its pairing check succeeds exactly when the
registry loads the two units, a context over it never meets the registry's refusal, and a
context built over it pads to the real block length of its cipher in a block mode and byte
by byte otherwise. -/
theorem Catalog.load_pairing_agrees {reader : ManifestReader} {root : FsNode}
    {algorithmDir modeDir : Option String} {c : Catalog}
    (h : Catalog.load reader root algorithmDir modeDir = .ok c) : c.AgreesWithUnits :=
  (Catalog.load_coherent h).agreesWithUnits

/-- The catalog loaded from the tree of one manifest, whose entry pairs a name of its own
with Rijndael, agrees with the registry. -/
theorem Catalog.load_pairing_agrees_loose :
    Catalog.load Manifest.tomlReader Catalog.looseRijndaelTree (some "algorithms") none =
        .ok (Catalog.builtin.insertAlgorithm Catalog.looseRijndael) ∧
      (Catalog.builtin.insertAlgorithm Catalog.looseRijndael).AgreesWithUnits :=
  ⟨Catalog.load_looseRijndaelTree, Catalog.load_pairing_agrees Catalog.load_looseRijndaelTree⟩

end CipherEngine
