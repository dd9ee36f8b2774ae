import CipherEngine.Catalog.Builtin

/-!
# Queries by name

The sizes and the class of an algorithm or a mode, asked by name alone and answered from a
catalog without loading a cipher unit.  Each query resolves the name and reads one field of
the entry it resolves to, so the eight of them are one definition, `Catalog.query`, given a
resolution and a field; the listings are `Catalog.algorithmNames` and `Catalog.modeNames`.

A query answers exactly when the catalog lists the name, and then every query of that kind
reads the one entry listed under it (`Catalog.algorithmQuery_of_mem`,
`Catalog.modeQuery_of_mem`); otherwise it fails with the `unknownName` error of the kind it
asks about (`Catalog.algorithmQuery_eq_error_iff`, `Catalog.modeQuery_eq_error_iff`).
-/

set_option autoImplicit false

namespace CipherEngine

namespace Catalog

/-- Resolves `name` and reads `field` of the entry it resolves to. -/
def query {ε α : Type} (resolve : String → Except EngineError ε) (field : ε → α)
    (name : String) : Except EngineError α :=
  (resolve name).map field

section Queries

variable (c : Catalog)

/-- The longest key an algorithm takes, in bytes. -/
def getKeySize : String → Except EngineError Nat :=
  query c.resolveAlgorithm (·.descriptor.keySize)

/-- The key lengths an algorithm lists; none when it takes every length up to the longest. -/
def getKeySizes : String → Except EngineError (List Nat) :=
  query c.resolveAlgorithm (·.descriptor.keySizes)

def getBlockSize : String → Except EngineError Nat :=
  query c.resolveAlgorithm (·.descriptor.blockSize)

def getIvSize : String → Except EngineError Nat :=
  query c.resolveAlgorithm (·.descriptor.ivSize)

def isBlockAlgorithm : String → Except EngineError Bool :=
  query c.resolveAlgorithm (·.descriptor.isBlockAlgorithm)

def isBlockMode : String → Except EngineError Bool :=
  query c.resolveMode (·.descriptor.isBlockMode)

def isBlockAlgorithmMode : String → Except EngineError Bool :=
  query c.resolveMode (·.descriptor.isBlockAlgorithmMode)

/-- Whether a mode takes a vector. -/
def hasIv : String → Except EngineError Bool :=
  query c.resolveMode (·.descriptor.requiresIv)

end Queries

/-! ## A query reads its resolution -/

section Query

variable {ε α : Type} {resolve : String → Except EngineError ε} {field : ε → α}
  {name : String}

theorem query_eq_ok_iff {a : α} :
    query resolve field name = .ok a ↔ ∃ e, resolve name = .ok e ∧ field e = a := by
  unfold query
  cases resolve name <;> simp [Except.map]

theorem query_eq_error_iff {err : EngineError} :
    query resolve field name = .error err ↔ resolve name = .error err := by
  unfold query
  cases resolve name <;> simp [Except.map]

end Query

/-! ## Resolution by a listed name -/

section Lookup

variable {β : Type} {key : β → String} {l : List β} {name : String}

theorem find?_key_eq_none_iff : l.find? (fun x => key x == name) = none ↔ name ∉ l.map key := by
  simp only [List.find?_eq_none, beq_iff_eq, List.mem_map, not_exists, not_and]

theorem find?_key_eq_some {x : β} (h : l.find? (fun x => key x == name) = some x) :
    x ∈ l ∧ key x = name :=
  ⟨List.mem_of_find?_eq_some h, by simpa using List.find?_some h⟩

end Lookup

section Resolution

variable (c : Catalog) {name : String}

theorem resolveAlgorithm_eq_error_iff {err : EngineError} :
    c.resolveAlgorithm name = .error err ↔
      name ∉ c.algorithmNames ∧ err = .unknownName .algorithm name := by
  unfold resolveAlgorithm
  cases h : c.algorithms.find? (fun a => a.descriptor.name == name) with
  | none =>
    exact ⟨fun he => ⟨find?_key_eq_none_iff.mp h, (Except.error.inj he).symm⟩,
      fun hh => congrArg Except.error hh.2.symm⟩
  | some e =>
    obtain ⟨he, hname⟩ := find?_key_eq_some h
    exact iff_of_false (by simp) fun hh => hh.1 (List.mem_map.mpr ⟨e, he, hname⟩)

theorem resolveMode_eq_error_iff {err : EngineError} :
    c.resolveMode name = .error err ↔ name ∉ c.modeNames ∧ err = .unknownName .mode name := by
  unfold resolveMode
  cases h : c.modes.find? (fun m => m.descriptor.name == name) with
  | none =>
    exact ⟨fun he => ⟨find?_key_eq_none_iff.mp h, (Except.error.inj he).symm⟩,
      fun hh => congrArg Except.error hh.2.symm⟩
  | some m =>
    obtain ⟨hm, hname⟩ := find?_key_eq_some h
    exact iff_of_false (by simp) fun hh => hh.1 (List.mem_map.mpr ⟨m, hm, hname⟩)

theorem resolveAlgorithm_of_mem (h : name ∈ c.algorithmNames) :
    ∃ e ∈ c.algorithms, e.descriptor.name = name ∧ c.resolveAlgorithm name = .ok e := by
  unfold resolveAlgorithm
  cases hf : c.algorithms.find? (fun a => a.descriptor.name == name) with
  | none => exact absurd h (find?_key_eq_none_iff.mp hf)
  | some e => exact ⟨e, (find?_key_eq_some hf).1, (find?_key_eq_some hf).2, rfl⟩

theorem resolveMode_of_mem (h : name ∈ c.modeNames) :
    ∃ m ∈ c.modes, m.descriptor.name = name ∧ c.resolveMode name = .ok m := by
  unfold resolveMode
  cases hf : c.modes.find? (fun m => m.descriptor.name == name) with
  | none => exact absurd h (find?_key_eq_none_iff.mp hf)
  | some m => exact ⟨m, (find?_key_eq_some hf).1, (find?_key_eq_some hf).2, rfl⟩

end Resolution

/-! ## The queries of one kind agree -/

section Family

variable (c : Catalog) {name : String} {α : Type}

/-- **An algorithm query fails exactly on a name the catalog does not list**, with the
`unknownName` error of an algorithm, whatever field it reads. -/
theorem algorithmQuery_eq_error_iff (field : AlgorithmEntry → α) {err : EngineError} :
    query c.resolveAlgorithm field name = .error err ↔
      name ∉ c.algorithmNames ∧ err = .unknownName .algorithm name := by
  rw [query_eq_error_iff, resolveAlgorithm_eq_error_iff]

theorem modeQuery_eq_error_iff (field : ModeEntry → α) {err : EngineError} :
    query c.resolveMode field name = .error err ↔
      name ∉ c.modeNames ∧ err = .unknownName .mode name := by
  rw [query_eq_error_iff, resolveMode_eq_error_iff]

/-- **The algorithm queries of a listed name read one entry**: an entry of the catalog
under that name answers every one of them. -/
theorem algorithmQuery_of_mem (h : name ∈ c.algorithmNames) :
    ∃ e ∈ c.algorithms, e.descriptor.name = name ∧
      ∀ {β : Type} (field : AlgorithmEntry → β),
        query c.resolveAlgorithm field name = .ok (field e) := by
  obtain ⟨e, he, hname, hres⟩ := c.resolveAlgorithm_of_mem h
  exact ⟨e, he, hname, fun field => query_eq_ok_iff.mpr ⟨e, hres, rfl⟩⟩

theorem modeQuery_of_mem (h : name ∈ c.modeNames) :
    ∃ m ∈ c.modes, m.descriptor.name = name ∧
      ∀ {β : Type} (field : ModeEntry → β), query c.resolveMode field name = .ok (field m) := by
  obtain ⟨m, hm, hname, hres⟩ := c.resolveMode_of_mem h
  exact ⟨m, hm, hname, fun field => query_eq_ok_iff.mpr ⟨m, hres, rfl⟩⟩

end Family

example : builtin.getKeySizes "rijndael-128" = .ok [16, 24, 32] := rfl

example : builtin.isBlockMode "notvalid" = .error (.unknownName .mode "notvalid") := rfl

end Catalog

end CipherEngine
