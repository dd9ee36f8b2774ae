import Mathlib.Control.Monad.Basic
import CipherEngine.Catalog.Load
import CipherEngine.Catalog.TomlReader

/-!
# Catalog entries agree with their units

An entry of the catalog that names a cipher unit describes that unit truthfully: the unit
is registered, an algorithm entry has the unit's block length and class (and a block unit's
entry takes no vector or one block), and a mode entry has its unit's two flags.  The
built-in entries are written so, and a manifest is refused unless it is so
(`Manifest.checkAlgorithm`, `Manifest.checkMode`); loading only adds entries of these two
origins, so every catalog that loads is coherent (`Catalog.load_coherent`).

This is what lets a context trust its descriptors: the padding unit and the chunk length
it reads from the algorithm's descriptor are the block length of the cipher that runs.
-/

set_option autoImplicit false

namespace CipherEngine

/-! ## 1. Chains of checks -/

@[simp] theorem bind_eq_ok {ε α β : Type} {x : Except ε α} {f : α → Except ε β} {b : β} :
    x >>= f = .ok b ↔ ∃ a, x = .ok a ∧ f a = .ok b := by
  cases x <;> simp [bind, Except.bind]

@[simp] theorem map_eq_ok {ε α β : Type} {x : Except ε α} {f : α → β} {b : β} :
    f <$> x = .ok b ↔ ∃ a, x = .ok a ∧ f a = b := by
  cases x <;> simp [Functor.map, Except.map]

@[simp] theorem mapError_ok {ε ε' α : Type} (g : ε → ε') (a : α) :
    (Except.ok a : Except ε α).mapError g = .ok a := rfl

@[simp] theorem mapError_error {ε ε' α : Type} (g : ε → ε') (e : ε) :
    (Except.error e : Except ε α).mapError g = .error (g e) := rfl

@[simp] theorem mapError_eq_ok {ε ε' α : Type} {x : Except ε α} {g : ε → ε'} {a : α} :
    x.mapError g = .ok a ↔ x = .ok a := by
  cases x with
  | error e => constructor <;> intro h <;> cases h
  | ok b => constructor <;> intro h <;> cases h <;> rfl

theorem Manifest.ensure_eq_ok {ok : Bool} {fault : ManifestFault} {r : Unit} :
    Manifest.ensure ok fault = .ok r ↔ ok = true := by
  cases ok <;> simp [Manifest.ensure]

/-- Every value a chain of calls returns was returned by one call on an element. -/
theorem mem_of_mapM_eq_ok {ε α β : Type} {f : α → Except ε β} :
    ∀ {xs : List α} {ys : List β}, xs.mapM f = .ok ys → ∀ y ∈ ys, ∃ x ∈ xs, f x = .ok y
  | [], ys, h => by
    simp only [List.mapM_nil, pure, Except.pure, Except.ok.injEq] at h
    subst h; simp
  | x :: xs, ys, h => by
    rw [List.mapM_cons, bind_eq_ok] at h
    obtain ⟨y₀, hy₀, h⟩ := h
    rw [bind_eq_ok] at h
    obtain ⟨ys', hys', h⟩ := h
    simp only [pure, Except.pure, Except.ok.injEq] at h
    subst h
    intro y hy
    rcases List.mem_cons.mp hy with rfl | hy
    · exact ⟨x, by simp, hy₀⟩
    · obtain ⟨x', hx', hfx'⟩ := mem_of_mapM_eq_ok hys' y hy
      exact ⟨x', by simp [hx'], hfx'⟩

/-! ## 2. Coherent entries -/

/-- An algorithm entry agrees with the unit it names: the unit is registered, with the
entry's block length and class, and a block unit's entry takes no vector or one block. -/
def AlgorithmEntry.Coherent (e : AlgorithmEntry) : Prop :=
  ∀ name, e.unit = some name → ∃ u, Registry.algorithmUnit? name = some u ∧
    u.blockSize = e.descriptor.blockSize ∧ u.isBlock = e.descriptor.isBlockAlgorithm ∧
    (u.isBlock = true → e.descriptor.ivSize = 0 ∨ e.descriptor.ivSize = u.blockSize)

/-- A mode entry agrees with the unit it names: the unit is registered, with the entry's
two flags. -/
def ModeEntry.Coherent (e : ModeEntry) : Prop :=
  ∀ name, e.unit = some name → ∃ u, Registry.modeUnit? name = some u ∧
    u.isBlockMode = e.descriptor.isBlockMode ∧
    u.isBlockAlgorithmMode = e.descriptor.isBlockAlgorithmMode

/-- Every entry of the catalog agrees with its unit. -/
def Catalog.Coherent (c : Catalog) : Prop :=
  (∀ e ∈ c.algorithms, e.Coherent) ∧ ∀ e ∈ c.modes, e.Coherent

/-! ## 3. Manifests are checked against their units -/

namespace Manifest

theorem checkAlgorithm_eq_ok {name unit : String} {keySize : Nat} {keySizes : List Nat}
    {ivSize blockSize : Nat} {isBlock : Bool} {r : Unit}
    (h : checkAlgorithm name unit keySize keySizes ivSize blockSize isBlock = .ok r) :
    ∃ u, Registry.algorithmUnit? unit = some u ∧ u.blockSize = blockSize ∧ u.isBlock = isBlock ∧
      (u.isBlock = true → ivSize = 0 ∨ ivSize = u.blockSize) := by
  cases hfind : Registry.algorithmUnit? unit with
  | none => simp [checkAlgorithm, hfind, ensure] at h
  | some u =>
    simp only [checkAlgorithm, hfind, bind_eq_ok, ensure_eq_ok, beq_iff_eq] at h
    obtain ⟨-, -, -, -, -, -, a, hua, -, hsize, -, hblock, hiv⟩ := h
    cases hua
    refine ⟨u, rfl, hsize, hblock, fun hb => ?_⟩
    simpa [hb] using hiv

theorem checkMode_eq_ok {name unit : String} {isBlockMode isBlockAlgorithmMode : Bool} {r : Unit}
    (h : checkMode name unit isBlockMode isBlockAlgorithmMode = .ok r) :
    ∃ u, Registry.modeUnit? unit = some u ∧ u.isBlockMode = isBlockMode ∧
      u.isBlockAlgorithmMode = isBlockAlgorithmMode := by
  cases hfind : Registry.modeUnit? unit with
  | none => simp [checkMode, hfind, ensure] at h
  | some u =>
    simp only [checkMode, hfind, bind_eq_ok, ensure_eq_ok, beq_iff_eq] at h
    obtain ⟨-, -, a, hua, -, hclass, hmode⟩ := h
    cases hua
    exact ⟨u, rfl, hmode, hclass⟩

/-- **A manifest that is read describes its unit.** -/
theorem algorithmEntry_coherent {reader : ManifestReader} {stem text : String}
    {e : AlgorithmEntry} (h : algorithmEntry reader stem text = .ok e) : e.Coherent := by
  simp only [algorithmEntry, bind_eq_ok, mapError_eq_ok] at h
  obtain ⟨m, -, u, hcheck, he⟩ := h
  simp only [pure, Except.pure, Except.ok.injEq] at he
  subst he
  intro name hname
  cases hname
  exact checkAlgorithm_eq_ok hcheck

theorem modeEntry_coherent {reader : ManifestReader} {stem text : String} {e : ModeEntry}
    (h : modeEntry reader stem text = .ok e) : e.Coherent := by
  simp only [modeEntry, bind_eq_ok, mapError_eq_ok] at h
  obtain ⟨m, -, u, hcheck, he⟩ := h
  simp only [pure, Except.pure, Except.ok.injEq] at he
  subst he
  intro name hname
  cases hname
  exact checkMode_eq_ok hcheck

end Manifest

/-! ## 4. Every catalog that loads is coherent -/

namespace Catalog

/-- What `upsert` keeps is the new element or an old one. -/
theorem mem_upsert {α : Type} {key : α → String} {x y : α} :
    ∀ {l : List α}, y ∈ upsert key x l → y = x ∨ y ∈ l
  | [], h => by simpa [upsert] using h
  | z :: zs, h => by
    unfold upsert at h
    split at h
    · simpa using h
    · split at h
      · rcases List.mem_cons.mp h with rfl | h
        · exact .inl rfl
        · exact .inr (List.mem_cons_of_mem z h)
      · rcases List.mem_cons.mp h with rfl | h
        · exact .inr (List.mem_cons_self ..)
        · rcases mem_upsert h with rfl | h
          · exact .inl rfl
          · exact .inr (List.mem_cons_of_mem z h)

theorem Coherent.insertAlgorithms {c : Catalog} (hc : c.Coherent) :
    ∀ {es : List AlgorithmEntry}, (∀ e ∈ es, e.Coherent) → (es.foldl insertAlgorithm c).Coherent
  | [], _ => hc
  | e :: es, h => by
    have h₁ : (c.insertAlgorithm e).Coherent := by
      refine ⟨fun a ha => ?_, hc.2⟩
      have ha' : a ∈ upsert (fun a => a.descriptor.name) e c.algorithms := ha
      rcases mem_upsert ha' with rfl | ha'
      · exact h a (by simp)
      · exact hc.1 a ha'
    exact h₁.insertAlgorithms fun a ha => h a (by simp [ha])

theorem Coherent.insertModes {c : Catalog} (hc : c.Coherent) :
    ∀ {es : List ModeEntry}, (∀ e ∈ es, e.Coherent) → (es.foldl insertMode c).Coherent
  | [], _ => hc
  | e :: es, h => by
    have h₁ : (c.insertMode e).Coherent := by
      refine ⟨hc.1, fun m hm => ?_⟩
      have hm' : m ∈ upsert (fun m => m.descriptor.name) e c.modes := hm
      rcases mem_upsert hm' with rfl | hm'
      · exact h m (by simp)
      · exact hc.2 m hm'
    exact h₁.insertModes fun m hm => h m (by simp [hm])

/-- The built-in entries are written to agree with their units. -/
theorem builtin_coherent : Catalog.builtin.Coherent := by
  have halgs : ∀ e ∈ Builtin.algorithms, e.Coherent := by
    intro e he
    simp only [Builtin.algorithms, Builtin.algorithm, List.mem_cons, List.not_mem_nil,
      or_false] at he
    rcases he with rfl | rfl | rfl | rfl | rfl | rfl | rfl | rfl | rfl | rfl <;>
      intro name h <;> simp at h <;> subst h <;> exact ⟨_, rfl, rfl, rfl, by decide⟩
  have hmodes : ∀ e ∈ Builtin.modes, e.Coherent := by
    intro e he
    simp only [Builtin.modes, Builtin.mode, List.mem_cons, List.not_mem_nil, or_false] at he
    rcases he with rfl | rfl | rfl | rfl | rfl | rfl | rfl | rfl <;>
      intro name h <;> simp at h <;> subst h <;> exact ⟨_, rfl, rfl, rfl⟩
  have hempty : Catalog.empty.Coherent := ⟨by simp [empty], by simp [empty]⟩
  exact (hempty.insertAlgorithms halgs).insertModes hmodes

/-- The entries read from a directory of manifests each come from one manifest. -/
theorem loadManifests_coherent {α : Type} {read : String → String → Except ManifestFault α}
    {P : α → Prop} (hread : ∀ stem text e, read stem text = .ok e → P e) {root : FsNode}
    {dir : String} {es : List α} (h : loadManifests read root dir = .ok es) : ∀ e ∈ es, P e := by
  simp only [loadManifests, bind_eq_ok, mapError_eq_ok] at h
  obtain ⟨files, -, hmap⟩ := h
  intro e he
  obtain ⟨⟨name, content⟩, -, hfile⟩ := mem_of_mapM_eq_ok hmap e he
  cases htext : String.fromUTF8? ⟨content.toArray⟩ with
  | none => simp [htext, throw, throwThe, MonadExceptOf.throw, bind, Except.bind] at hfile
  | some text =>
    simp only [htext, bind_eq_ok, pure, Except.pure, Except.ok.injEq, mapError_eq_ok] at hfile
    obtain ⟨_, rfl, hentry⟩ := hfile
    exact hread _ _ _ hentry

/-- **Every catalog that loads is coherent**, whatever reader its manifests are read with. -/
theorem load_coherent {reader : ManifestReader} {root : FsNode}
    {algorithmDir modeDir : Option String} {c : Catalog}
    (h : Catalog.load reader root algorithmDir modeDir = .ok c) : c.Coherent := by
  have halgs : ∀ {dir es}, loadManifests (Manifest.algorithmEntry reader) root dir = .ok es →
      ∀ e ∈ es, AlgorithmEntry.Coherent e :=
    loadManifests_coherent fun _ _ _ => Manifest.algorithmEntry_coherent
  have hmodes : ∀ {dir es}, loadManifests (Manifest.modeEntry reader) root dir = .ok es →
      ∀ e ∈ es, ModeEntry.Coherent e :=
    loadManifests_coherent fun _ _ _ => Manifest.modeEntry_coherent
  unfold load at h
  cases algorithmDir <;> cases modeDir <;>
    simp only [bind_eq_ok, pure, Except.pure, Except.ok.injEq] at h
  case none.none =>
    obtain ⟨_, rfl, rfl⟩ := h
    exact builtin_coherent
  case none.some =>
    obtain ⟨_, rfl, es, hes, rfl⟩ := h
    exact builtin_coherent.insertModes (hmodes hes)
  case some.none =>
    obtain ⟨es, hes, _, rfl, rfl⟩ := h
    exact builtin_coherent.insertAlgorithms (halgs hes)
  case some.some =>
    obtain ⟨es, hes, _, rfl, ms, hms, rfl⟩ := h
    exact (builtin_coherent.insertAlgorithms (halgs hes)).insertModes (hmodes hms)

/-! ## 5. A directory of one manifest

A tree whose `algorithms` directory holds one manifest beside a file that is not one.  The
manifest describes Rijndael but lists 20-byte keys beside 16-byte ones, where the cipher
takes 16, 24 or 32; having no `name` field, it is named by its file's stem.  Listing the
directory, decoding the file and reading its record are each checked on their own, and the
load follows from them by `loadManifests_single`. -/

/-- A directory whose one manifest file reads gives that manifest's entry. -/
theorem loadManifests_single {α : Type} {read : String → String → Except ManifestFault α}
    {root : FsNode} {dir name text : String} {content : Bytes} {e : α}
    (hfiles : manifestFiles root dir = .ok [(name, content)])
    (htext : String.fromUTF8? ⟨content.toArray⟩ = some text)
    (hread : read (FileName.stem name) text = .ok e) :
    loadManifests read root dir = .ok [e] := by
  simp only [loadManifests, hfiles, htext, hread, mapError_ok, List.mapM_cons, List.mapM_nil,
    bind, Except.bind, pure, Except.pure]

/-- The text of a manifest for Rijndael that lists a key length the cipher does not take. -/
def looseRijndaelText : String :=
  "unit = \"rijndael\"\nkey_size = 32\nkey_sizes = [16, 20]\niv_size = 16\n" ++
    "block_size = 16\nis_block_algorithm = true\n"

/-- A tree whose `algorithms` directory holds a note and the manifest
`loose-rijndael.toml`. -/
def looseRijndaelTree : FsNode :=
  .dir [("algorithms",
    .dir [("notes.txt", .file []),
      ("loose-rijndael.toml", .file looseRijndaelText.toUTF8.toList)])]

/-- The entry that manifest gives. -/
def looseRijndael : AlgorithmEntry :=
  ⟨⟨"loose-rijndael", 32, [16, 20], 16, 16, true⟩, some "rijndael"⟩

theorem manifestFiles_looseRijndaelTree :
    manifestFiles looseRijndaelTree "algorithms" =
      .ok [("loose-rijndael.toml", looseRijndaelText.toUTF8.toList)] := by
  have hnul : ¬"algorithms".contains (Char.ofNat 0) = true := by
    rw [String.contains_char_eq]
    decide +kernel
  have hlong : ¬FsNode.maxPathBytes ≤ "algorithms".utf8ByteSize := by decide +kernel
  have hrel : ¬("algorithms".isEmpty || "algorithms".startsWith "/") = true := by decide +kernel
  have hdir : looseRijndaelTree.readDir "algorithms" =
      .ok [("notes.txt", .file []),
        ("loose-rijndael.toml", .file looseRijndaelText.toUTF8.toList)] := by
    rw [FsNode.readDir, if_neg hnul, if_neg hlong, if_neg hrel]
    rfl
  have hnote : (FileName.extension "notes.txt" == some "toml") = false := by decide +kernel
  have htoml : (FileName.extension "loose-rijndael.toml" == some "toml") = true := by
    decide +kernel
  simp only [manifestFiles, hdir, bind, Except.bind, pure, Except.pure, List.filterMap_cons,
    hnote, htoml, Bool.false_eq_true, ↓reduceIte, List.filterMap_nil, List.mergeSort_singleton]

theorem readManifest_looseRijndael :
    String.fromUTF8? ⟨looseRijndaelText.toUTF8.toList.toArray⟩ = some looseRijndaelText ∧
      FileName.stem "loose-rijndael.toml" = "loose-rijndael" ∧
      Manifest.algorithmEntry Manifest.tomlReader "loose-rijndael" looseRijndaelText =
        .ok looseRijndael :=
  ⟨by decide +kernel, by decide +kernel, by decide +kernel⟩

theorem load_looseRijndaelTree :
    load Manifest.tomlReader looseRijndaelTree (some "algorithms") none =
      .ok (builtin.insertAlgorithm looseRijndael) := by
  obtain ⟨htext, hstem, hentry⟩ := readManifest_looseRijndael
  rw [← hstem] at hentry
  simp only [load, loadManifests_single manifestFiles_looseRijndaelTree htext hentry, bind,
    Except.bind, pure, Except.pure]
  rfl

end Catalog

end CipherEngine
