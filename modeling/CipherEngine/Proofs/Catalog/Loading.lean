import Mathlib.Data.List.Forall2
import Mathlib.Data.String.Basic
import CipherEngine.Config
import CipherEngine.Proofs.Catalog.Units

/-!
# Loading updates the built-in catalog file by file

`Catalog.load` starts from the built-in catalog, reads the configured algorithm directory to
its end, then the configured mode directory, and adds the entries in the order of their
files' names.  This module states that order and what follows from it:

* a directory's manifests are its files whose extension is `toml`, every other entry left
  out, sorted by name (`Catalog.manifestFiles_spec`);
* a directory gives the entries of all its manifests in that order, or the error of the
  first one that fails (`Catalog.loadDir_eq_ok_iff`, `Catalog.loadDir_eq_error_iff`): an I/O
  error for a file that is not UTF-8 text, a manifest error naming the file for anything
  else (`Catalog.readManifest_eq_error_iff`);
* adding entries one after another leaves, under each name, the last one added, or the
  entry that was there before when none was; algorithms and modes are looked up apart
  (`Catalog.resolveAlgorithm_foldl_insert`, `Catalog.resolveMode_foldl_insert`);
* a manifest is named by the name its record declares, or else by its file's stem
  (`Manifest.algorithmEntry_name`, `Manifest.modeEntry_name`).

Main statement: `Catalog.load_updates_builtin`.
-/

set_option autoImplicit false

namespace CipherEngine

/-! ## 1. The first failure of a chain of calls -/

section Chains

variable {ε α β : Type} {f : α → Except ε β}

/-- `e` is the error of the first element of `xs` on which `f` fails: every element before
it succeeds. -/
def FirstFailure (f : α → Except ε β) (xs : List α) (e : ε) : Prop :=
  ∃ pre x post, xs = pre ++ x :: post ∧ (∀ y ∈ pre, ∃ b, f y = .ok b) ∧ f x = .error e

theorem not_firstFailure_nil (e : ε) : ¬FirstFailure f [] e := by
  rintro ⟨pre, x, post, h, -, -⟩
  simp at h

theorem firstFailure_cons {x : α} {xs : List α} {e : ε} :
    FirstFailure f (x :: xs) e ↔ f x = .error e ∨ (∃ b, f x = .ok b) ∧ FirstFailure f xs e := by
  constructor
  · rintro ⟨pre, y, post, h, hpre, hy⟩
    cases pre with
    | nil =>
      obtain ⟨rfl, rfl⟩ := List.cons.inj h
      exact .inl hy
    | cons z pre =>
      obtain ⟨rfl, rfl⟩ := List.cons.inj h
      exact .inr ⟨hpre x (by simp), pre, y, post, rfl, fun w hw => hpre w (by simp [hw]), hy⟩
  · rintro (hx | ⟨hx, pre, y, post, rfl, hpre, hy⟩)
    · exact ⟨[], x, xs, rfl, by simp, hx⟩
    · refine ⟨x :: pre, y, post, rfl, fun w hw => ?_, hy⟩
      rcases List.mem_cons.mp hw with rfl | hw
      · exact hx
      · exact hpre w hw

/-- **A chain of calls fails with the error of the first call that fails.** -/
theorem mapM_eq_error_iff {e : ε} {xs : List α} : xs.mapM f = .error e ↔ FirstFailure f xs e := by
  induction xs with
  | nil =>
    simp only [List.mapM_nil, pure, Except.pure, reduceCtorEq, false_iff]
    exact not_firstFailure_nil e
  | cons x xs ih =>
    rw [List.mapM_cons, firstFailure_cons]
    cases hx : f x with
    | error e' => simp [bind, Except.bind]
    | ok b =>
      cases hxs : xs.mapM f with
      | error e' => simp_all [bind, Except.bind]
      | ok bs => simp_all [bind, Except.bind, pure, Except.pure]

/-- A chain of calls succeeds with the results of the calls, one for each element. -/
theorem mapM_eq_ok_iff {xs : List α} {ys : List β} :
    xs.mapM f = .ok ys ↔ List.Forall₂ (fun x y => f x = .ok y) xs ys := by
  induction xs generalizing ys with
  | nil => cases ys <;> simp [pure, Except.pure]
  | cons x xs ih =>
    rw [List.mapM_cons]
    cases hx : f x with
    | error e => cases ys <;> simp [bind, Except.bind, hx]
    | ok b =>
      cases hxs : xs.mapM f with
      | error e =>
        cases ys with
        | nil => simp [bind, Except.bind]
        | cons y ys => simp [bind, Except.bind, hx, ← ih, hxs]
      | ok bs =>
        cases ys with
        | nil => simp [bind, Except.bind, pure, Except.pure]
        | cons y ys => simp [bind, Except.bind, pure, Except.pure, hx, ← ih, hxs]

end Chains

namespace Catalog

/-! ## 2. The manifests of a directory -/

/-- The manifests among a directory's entries, in the listing's order: the files whose
extension is `toml`, with their bytes. -/
def manifestsOf (entries : List (String × FsNode)) : List (String × Bytes) :=
  entries.filterMap fun
    | (name, .file content) =>
      if FileName.extension name == some "toml" then some (name, content) else none
    | _ => none

/-- Listing a directory's manifests fails exactly when the directory cannot be listed. -/
theorem manifestFiles_eq_error_iff {root : FsNode} {dir : String} {f : IoFault} :
    manifestFiles root dir = .error f ↔ root.readDir dir = .error f := by
  unfold manifestFiles
  cases root.readDir dir <;> simp [bind, Except.bind, pure, Except.pure]

/-- **A directory's manifests are its `toml` files, sorted by name.** -/
theorem manifestFiles_spec {root : FsNode} {dir : String} {fs : List (String × Bytes)}
    (h : manifestFiles root dir = .ok fs) :
    ∃ entries, root.readDir dir = .ok entries ∧ fs.Perm (manifestsOf entries) ∧
      fs.Pairwise fun a b => a.1 ≤ b.1 := by
  unfold manifestFiles at h
  cases hdir : root.readDir dir with
  | error f => simp [hdir, bind, Except.bind] at h
  | ok entries =>
    simp only [hdir, bind, Except.bind, pure, Except.pure, Except.ok.injEq] at h
    subst h
    -- the sort compares names by "not after", a total preorder
    have hle : ∀ a b : String × Bytes, (!decide (b.1 < a.1)) = true ↔ a.1 ≤ b.1 := by
      simp only [Bool.not_eq_true', decide_eq_false_iff_not, not_lt, implies_true]
    have hsorted := @List.pairwise_mergeSort (String × Bytes) (fun a b => !decide (b.1 < a.1))
      (fun a b c hab hbc => (hle a c).mpr (((hle a b).mp hab).trans ((hle b c).mp hbc)))
      (fun a b => by rw [Bool.or_eq_true, hle, hle]; exact le_total a.1 b.1)
      (manifestsOf entries)
    exact ⟨entries, rfl, List.mergeSort_perm _ _, hsorted.imp fun hab => (hle _ _).mp hab⟩

/-! ## 3. Reading one manifest -/

/-- Reading one manifest file of directory `dir`: its bytes as UTF-8 text, read under the
file's stem; a refusal names the file by the directory joined with its name. -/
def readManifest {α : Type} (read : String → String → Except ManifestFault α) (dir : String) :
    String × Bytes → Except EngineError α
  | (name, content) =>
    match String.fromUTF8? ⟨content.toArray⟩ with
    | some text =>
      (read (FileName.stem name) text).mapError fun f => .manifest (FileName.join dir name) f.message
    | none => .error (.io .invalidUtf8)

/-- A file fails on its bytes when they are not UTF-8, and on its text for anything else. -/
theorem readManifest_eq_error_iff {α : Type} {read : String → String → Except ManifestFault α}
    {dir name : String} {content : Bytes} {e : EngineError} :
    readManifest read dir (name, content) = .error e ↔
      (String.fromUTF8? ⟨content.toArray⟩ = none ∧ e = .io .invalidUtf8) ∨
      ∃ text f, String.fromUTF8? ⟨content.toArray⟩ = some text ∧
        read (FileName.stem name) text = .error f ∧
        e = .manifest (FileName.join dir name) f.message := by
  cases htext : String.fromUTF8? ⟨content.toArray⟩ with
  | none => simp [readManifest, htext, eq_comm]
  | some text =>
    cases hr : read (FileName.stem name) text <;>
      simp [readManifest, htext, hr, Except.mapError, eq_comm]

/-- A directory's manifests are read one after another. -/
theorem loadManifests_eq {α : Type} (read : String → String → Except ManifestFault α)
    (root : FsNode) (dir : String) :
    loadManifests read root dir =
      (manifestFiles root dir).mapError .io >>= fun fs => fs.mapM (readManifest read dir) := by
  unfold loadManifests
  congr 1

/-! ## 4. Directories in turn -/

/-- The entries a configured directory gives: none when no directory is configured, else
those of its manifests, read in name order. -/
def loadDir {α : Type} (read : String → String → Except ManifestFault α) (root : FsNode) :
    Option String → Except EngineError (List α)
  | none => .ok []
  | some dir => loadManifests read root dir

/-- A configured directory read to its end: the entry of each manifest file, in name
order. -/
def DirReads {α : Type} (read : String → String → Except ManifestFault α) (root : FsNode) :
    Option String → List α → Prop
  | none, es => es = []
  | some dir, es => ∃ fs, manifestFiles root dir = .ok fs ∧
      List.Forall₂ (fun file e => readManifest read dir file = .ok e) fs es

/-- Where a configured directory stops: it cannot be listed, or the first of its manifest
files in name order fails. -/
def DirFails {α : Type} (read : String → String → Except ManifestFault α) (root : FsNode) :
    Option String → EngineError → Prop
  | none, _ => False
  | some dir, e => (∃ f, root.readDir dir = .error f ∧ e = .io f) ∨
      ∃ fs, manifestFiles root dir = .ok fs ∧ FirstFailure (readManifest read dir) fs e

section Directories

variable {α : Type} {read : String → String → Except ManifestFault α} {root : FsNode}

theorem loadDir_eq_ok_iff {dir : Option String} {es : List α} :
    loadDir read root dir = .ok es ↔ DirReads read root dir es := by
  cases dir with
  | none => simp [loadDir, DirReads, eq_comm]
  | some dir =>
    simp only [loadDir, DirReads, loadManifests_eq, bind_eq_ok, mapError_eq_ok, mapM_eq_ok_iff]

theorem loadDir_eq_error_iff {dir : Option String} {e : EngineError} :
    loadDir read root dir = .error e ↔ DirFails read root dir e := by
  cases dir with
  | none => simp [loadDir, DirFails]
  | some dir =>
    simp only [loadDir, DirFails, loadManifests_eq]
    cases hfiles : manifestFiles root dir with
    | error f =>
      have hdir := manifestFiles_eq_error_iff.mp hfiles
      simp [hdir, bind, Except.bind, Except.mapError, eq_comm]
    | ok fs =>
      have hdir : ∀ f, root.readDir dir ≠ .error f := fun f h =>
        absurd (hfiles.symm.trans (manifestFiles_eq_error_iff.mpr h)) (by simp)
      simp [hdir, bind, Except.bind, Except.mapError, mapM_eq_error_iff]

/-- Loading reads the algorithm directory to its end, then the mode directory, and adds what
they gave to the built-in catalog. -/
theorem load_eq (reader : ManifestReader) (root : FsNode) (algorithmDir modeDir : Option String) :
    load reader root algorithmDir modeDir =
      loadDir (Manifest.algorithmEntry reader) root algorithmDir >>= fun as =>
        loadDir (Manifest.modeEntry reader) root modeDir >>= fun ms =>
          pure (ms.foldl insertMode (as.foldl insertAlgorithm builtin)) := by
  unfold load
  cases algorithmDir with
  | none =>
    cases modeDir <;> simp only [loadDir, bind, Except.bind, pure, Except.pure, List.foldl_nil]
  | some adir =>
    simp only [loadDir, bind, Except.bind, pure, Except.pure]
    cases loadManifests (Manifest.algorithmEntry reader) root adir with
    | error e => rfl
    | ok as =>
      cases modeDir with
      | none => simp only [List.foldl_nil]
      | some mdir => cases loadManifests (Manifest.modeEntry reader) root mdir <;> rfl

end Directories

/-! ## 5. The last entry of a name wins -/

/-- After adding algorithms one after another, looking up a name finds the last one added
under it, or else what was found before. -/
theorem find?_foldl_insertAlgorithm (name : String) :
    ∀ (es : List AlgorithmEntry) (c : Catalog),
      (es.foldl insertAlgorithm c).algorithms.find? (fun a => a.descriptor.name == name) =
        (es.reverse.find? fun a => a.descriptor.name == name).or
          (c.algorithms.find? fun a => a.descriptor.name == name)
  | [], c => by simp
  | e :: es, c => by
    rw [List.foldl_cons, find?_foldl_insertAlgorithm name es, List.reverse_cons,
      List.find?_append, Option.or_assoc]
    congr 1
    simp only [insertAlgorithm, find_upsert, List.find?_singleton]
    by_cases h : e.descriptor.name = name <;> simp [h]

theorem find?_foldl_insertMode (name : String) :
    ∀ (ms : List ModeEntry) (c : Catalog),
      (ms.foldl insertMode c).modes.find? (fun m => m.descriptor.name == name) =
        (ms.reverse.find? fun m => m.descriptor.name == name).or
          (c.modes.find? fun m => m.descriptor.name == name)
  | [], c => by simp
  | m :: ms, c => by
    rw [List.foldl_cons, find?_foldl_insertMode name ms, List.reverse_cons,
      List.find?_append, Option.or_assoc]
    congr 1
    simp only [insertMode, find_upsert, List.find?_singleton]
    by_cases h : m.descriptor.name = name <;> simp [h]

/-- Adding modes leaves the algorithms alone. -/
theorem algorithms_foldl_insertMode :
    ∀ (ms : List ModeEntry) (c : Catalog), (ms.foldl insertMode c).algorithms = c.algorithms
  | [], _ => rfl
  | m :: ms, c => algorithms_foldl_insertMode ms (c.insertMode m)

/-- Adding algorithms leaves the modes alone. -/
theorem modes_foldl_insertAlgorithm :
    ∀ (es : List AlgorithmEntry) (c : Catalog), (es.foldl insertAlgorithm c).modes = c.modes
  | [], _ => rfl
  | e :: es, c => modes_foldl_insertAlgorithm es (c.insertAlgorithm e)

/-- **An algorithm resolves to the last entry added under its name**, or else to what it
resolved to before; modes added afterwards change nothing. -/
theorem resolveAlgorithm_foldl_insert (es : List AlgorithmEntry) (ms : List ModeEntry)
    (c : Catalog) (name : String) :
    (ms.foldl insertMode (es.foldl insertAlgorithm c)).resolveAlgorithm name =
      match es.reverse.find? (fun a => a.descriptor.name == name) with
      | some e => .ok e
      | none => c.resolveAlgorithm name := by
  unfold resolveAlgorithm
  rw [algorithms_foldl_insertMode, find?_foldl_insertAlgorithm]
  cases es.reverse.find? (fun a => a.descriptor.name == name) <;> rfl

/-- **A mode resolves to the last entry added under its name**, or else to what it resolved
to before; algorithms added first change nothing. -/
theorem resolveMode_foldl_insert (es : List AlgorithmEntry) (ms : List ModeEntry)
    (c : Catalog) (name : String) :
    (ms.foldl insertMode (es.foldl insertAlgorithm c)).resolveMode name =
      match ms.reverse.find? (fun m => m.descriptor.name == name) with
      | some m => .ok m
      | none => c.resolveMode name := by
  unfold resolveMode
  rw [find?_foldl_insertMode, modes_foldl_insertAlgorithm]
  cases ms.reverse.find? (fun m => m.descriptor.name == name) <;> rfl

end Catalog

/-! ## 6. The name of a manifest -/

namespace Manifest

/-- An algorithm manifest is named by the name its record declares, or else by the stem it
was read under. -/
theorem algorithmEntry_name {reader : ManifestReader} {stem text : String} {e : AlgorithmEntry}
    (h : algorithmEntry reader stem text = .ok e) :
    ∃ m, reader.algorithm text = .ok m ∧ e.descriptor.name = m.name.getD stem := by
  simp only [algorithmEntry, bind_eq_ok, mapError_eq_ok] at h
  obtain ⟨m, hm, u, -, he⟩ := h
  simp only [pure, Except.pure, Except.ok.injEq] at he
  subst he
  exact ⟨m, hm, rfl⟩

/-- A mode manifest is named by the name its record declares, or else by the stem it was read
under. -/
theorem modeEntry_name {reader : ManifestReader} {stem text : String} {e : ModeEntry}
    (h : modeEntry reader stem text = .ok e) :
    ∃ m, reader.mode text = .ok m ∧ e.descriptor.name = m.name.getD stem := by
  simp only [modeEntry, bind_eq_ok, mapError_eq_ok] at h
  obtain ⟨m, hm, u, -, he⟩ := h
  simp only [pure, Except.pure, Except.ok.injEq] at he
  subst he
  exact ⟨m, hm, rfl⟩

end Manifest

namespace Catalog

/-- A manifest file that is read is named by the name its record declares, or else by its
file's stem. -/
theorem readManifest_name {α β : Type} {read : String → String → Except ManifestFault α}
    {decode : String → Except String β} {declared : β → Option String} {name' : α → String}
    (hname : ∀ stem text e, read stem text = .ok e →
      ∃ m, decode text = .ok m ∧ name' e = (declared m).getD stem)
    {dir name : String} {content : Bytes} {e : α}
    (h : readManifest read dir (name, content) = .ok e) :
    ∃ text m, String.fromUTF8? ⟨content.toArray⟩ = some text ∧ decode text = .ok m ∧
      name' e = (declared m).getD (FileName.stem name) := by
  cases htext : String.fromUTF8? ⟨content.toArray⟩ with
  | none => simp [readManifest, htext] at h
  | some text =>
    simp only [readManifest, htext, mapError_eq_ok] at h
    obtain ⟨m, hm, hn⟩ := hname _ _ _ h
    exact ⟨text, m, rfl, hm, hn⟩

/-! ## 7. Loading -/

/-- **Loading is the built-in catalog updated by the manifests in name order.**  For every
configuration and every tree of directories:

* loading succeeds exactly when the algorithm directory and the mode directory are each
  read to their end, and gives the built-in catalog with the algorithm entries added in
  the order of their files, then the mode entries;
* it fails exactly when the algorithm directory stops, or when that directory is read to its
  end and the mode directory stops; a directory stops when it cannot be listed (an I/O
  error) or at the first of its manifests in name order that fails;
* a directory's manifests are its files whose extension is `toml`, sorted by name;
* in the catalog so built, each name resolves to the last entry added under it, among
  algorithms and among modes apart, or else to the built-in entry;
* a manifest fails with an I/O error when its bytes are not UTF-8 and with a manifest error
  naming its path otherwise, and one that is read is named by the name its reader's record
  declares, or else by its file's stem.

All of this holds whatever reader turns a manifest's text into its record. -/
theorem load_updates_builtin (reader : ManifestReader) (root : FsNode) (cfg : EngineConfig) :
    (∀ c, load reader root cfg.algorithmDir cfg.modeDir = .ok c ↔
      ∃ as ms, DirReads (Manifest.algorithmEntry reader) root cfg.algorithmDir as ∧
        DirReads (Manifest.modeEntry reader) root cfg.modeDir ms ∧
        c = ms.foldl insertMode (as.foldl insertAlgorithm builtin)) ∧
    (∀ e, load reader root cfg.algorithmDir cfg.modeDir = .error e ↔
      DirFails (Manifest.algorithmEntry reader) root cfg.algorithmDir e ∨
        (∃ as, DirReads (Manifest.algorithmEntry reader) root cfg.algorithmDir as) ∧
          DirFails (Manifest.modeEntry reader) root cfg.modeDir e) ∧
    (∀ dir fs, manifestFiles root dir = .ok fs →
      ∃ entries, root.readDir dir = .ok entries ∧ fs.Perm (manifestsOf entries) ∧
        fs.Pairwise fun a b => a.1 ≤ b.1) ∧
    (∀ (as : List AlgorithmEntry) (ms : List ModeEntry) name,
      (ms.foldl insertMode (as.foldl insertAlgorithm builtin)).resolveAlgorithm name =
      match as.reverse.find? (fun a => a.descriptor.name == name) with
      | some e => .ok e
      | none => builtin.resolveAlgorithm name) ∧
    (∀ (as : List AlgorithmEntry) (ms : List ModeEntry) name,
      (ms.foldl insertMode (as.foldl insertAlgorithm builtin)).resolveMode name =
      match ms.reverse.find? (fun m => m.descriptor.name == name) with
      | some m => .ok m
      | none => builtin.resolveMode name) ∧
    (∀ {α : Type} (read : String → String → Except ManifestFault α) dir name content e,
      readManifest read dir (name, content) = .error e ↔
        (String.fromUTF8? ⟨content.toArray⟩ = none ∧ e = .io .invalidUtf8) ∨
        ∃ text f, String.fromUTF8? ⟨content.toArray⟩ = some text ∧
          read (FileName.stem name) text = .error f ∧
          e = .manifest (FileName.join dir name) f.message) ∧
    (∀ dir name content e,
      readManifest (Manifest.algorithmEntry reader) dir (name, content) = .ok e →
      ∃ text m, String.fromUTF8? ⟨content.toArray⟩ = some text ∧
        reader.algorithm text = .ok m ∧
        e.descriptor.name = m.name.getD (FileName.stem name)) ∧
    (∀ dir name content e, readManifest (Manifest.modeEntry reader) dir (name, content) = .ok e →
      ∃ text m, String.fromUTF8? ⟨content.toArray⟩ = some text ∧
        reader.mode text = .ok m ∧
        e.descriptor.name = m.name.getD (FileName.stem name)) := by
  refine ⟨fun c => ?_, fun e => ?_, fun _ _ h => manifestFiles_spec h,
    fun as ms name => resolveAlgorithm_foldl_insert as ms builtin name,
    fun as ms name => resolveMode_foldl_insert as ms builtin name,
    fun _ _ _ _ _ => readManifest_eq_error_iff,
    fun _ _ _ _ h => readManifest_name (fun _ _ _ he => Manifest.algorithmEntry_name he) h,
    fun _ _ _ _ h => readManifest_name (fun _ _ _ he => Manifest.modeEntry_name he) h⟩
  · simp only [load_eq, bind_eq_ok, loadDir_eq_ok_iff, pure, Except.pure, Except.ok.injEq]
    constructor
    · rintro ⟨as, has, ms, hms, rfl⟩
      exact ⟨as, ms, has, hms, rfl⟩
    · rintro ⟨as, ms, has, hms, rfl⟩
      exact ⟨as, has, ms, hms, rfl⟩
  · -- failure: the algorithm directory first, the mode directory only after it
    rw [load_eq]
    cases halg : loadDir (Manifest.algorithmEntry reader) root cfg.algorithmDir with
    | error e' =>
      have hfails := loadDir_eq_error_iff.mp halg
      have hnot : ∀ as, ¬DirReads (Manifest.algorithmEntry reader) root cfg.algorithmDir as :=
        fun as has => by rw [← loadDir_eq_ok_iff, halg] at has; cases has
      simp only [bind, Except.bind, Except.error.injEq]
      constructor
      · rintro rfl
        exact .inl hfails
      · rintro (h | ⟨⟨as, has⟩, -⟩)
        · rw [← loadDir_eq_error_iff, halg] at h
          exact Except.error.inj h
        · exact absurd has (hnot as)
    | ok as =>
      have hreads := loadDir_eq_ok_iff.mp halg
      have hnot : ¬DirFails (Manifest.algorithmEntry reader) root cfg.algorithmDir e := fun h => by
        rw [← loadDir_eq_error_iff, halg] at h; cases h
      cases hmode : loadDir (Manifest.modeEntry reader) root cfg.modeDir with
      | error e' =>
        simp only [bind, Except.bind, Except.error.injEq]
        constructor
        · rintro rfl
          exact .inr ⟨⟨as, hreads⟩, loadDir_eq_error_iff.mp hmode⟩
        · rintro (h | ⟨-, h⟩)
          · exact absurd h hnot
          · rw [← loadDir_eq_error_iff, hmode] at h
            exact Except.error.inj h
      | ok ms =>
        simp only [bind, Except.bind, pure, Except.pure, reduceCtorEq, false_iff, not_or]
        refine ⟨hnot, fun hm => ?_⟩
        obtain ⟨-, h⟩ := hm
        rw [← loadDir_eq_error_iff, hmode] at h
        cases h

/-- Loading the tree of one manifest: its directory is read to its end, so the built-in
catalog gains the manifest's entry, found under its file's stem, and a built-in name still
finds what it found before. -/
theorem load_updates_builtin_loose :
    load Manifest.tomlReader looseRijndaelTree (some "algorithms") none =
        .ok (builtin.insertAlgorithm looseRijndael) ∧
      (builtin.insertAlgorithm looseRijndael).resolveAlgorithm "loose-rijndael" = .ok looseRijndael ∧
      (builtin.insertAlgorithm looseRijndael).resolveAlgorithm "rijndael-128" =
        builtin.resolveAlgorithm "rijndael-128" := by
  have h := load_updates_builtin Manifest.tomlReader looseRijndaelTree ⟨some "algorithms", none, 1⟩
  obtain ⟨htext, hstem, hentry⟩ := readManifest_looseRijndael
  have hread : readManifest (Manifest.algorithmEntry Manifest.tomlReader) "algorithms"
      ("loose-rijndael.toml", looseRijndaelText.toUTF8.toList) = .ok looseRijndael := by
    simp only [readManifest, htext, hstem, hentry, mapError_ok]
  have hfold : builtin.insertAlgorithm looseRijndael =
      ([] : List ModeEntry).foldl insertMode ([looseRijndael].foldl insertAlgorithm builtin) := rfl
  refine ⟨(h.1 _).mpr ⟨[looseRijndael], [], ⟨_, manifestFiles_looseRijndaelTree,
    .cons hread .nil⟩, rfl, hfold⟩, ?_, ?_⟩
  · rw [hfold, h.2.2.2.1]
    simp [looseRijndael]
  · rw [hfold, h.2.2.2.1]
    simp [looseRijndael]

end Catalog

end CipherEngine
