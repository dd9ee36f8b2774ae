import CipherEngine.Toml.Binary64

/-!
# TOML documents as trees

A document is a table: an ordered list of entries, each a name and a node.  Besides the
scalar values and arrays, a node may be

* an inline table, `{ a = 1 }`, which is a value and cannot be extended later;
* a table opened by a header or made on the way to one (then *implicit*), or made by a
  dotted key (then *dotted*): the flags decide which later definitions may reopen it;
* an array of tables, one table per `[[header]]`; keys and headers below it go into its
  last table.

Tables are assembled by walking a path of keys from a table (`modifyAt`), creating the
missing tables on the way.  A walk that meets a value fails: a dotted key cannot extend
an integer, nor a table that a header or an inline value defined.

The faults of assembling have the messages the reader reports for them.
-/

set_option autoImplicit false

namespace CipherEngine

namespace Toml

/-- A part of a key: the name it denotes, whatever quotes it was written with. -/
structure Key where
  name : String
  deriving DecidableEq, Repr

namespace Key

/-- A character a bare key may hold. -/
def isBareChar (c : Char) : Bool := c.isAlphanum || c == '-' || c == '_'

/-- A character that only a basic string can hold: a control character other than the
tab. -/
def needsEscape (c : Char) : Bool := (c.toNat ≤ 0x1F && c != '\t') || c.toNat == 0x7F

/-- Whether a quoted key is written as a literal string: it holds a backslash or a double
quote, which a basic string would have to escape, and neither a single quote nor a
character that needs an escape, which a one-line literal string cannot hold. -/
def prefersLiteral (s : String) : Bool :=
  let cs := s.toList
  cs.any (fun c => c == '\\' || c == '"') && !cs.contains '\'' && !cs.any needsEscape

/-- A character inside a basic string. -/
def escapeBasic (c : Char) : String :=
  if c.toNat == 8 then "\\b"
  else if c == '\t' then "\\t"
  else if c == '\n' then "\\n"
  else if c.toNat == 12 then "\\f"
  else if c == '\r' then "\\r"
  else if c == '"' then "\\\""
  else if c == '\\' then "\\\\"
  else if c.toNat ≤ 0x1F || c.toNat == 0x7F then
    "\\u" ++ String.ofList ((Nat.toDigits 16 c.toNat).map Char.toUpper |>.leftpad 4 '0')
  else c.toString

/-- The key as a freshly printed document writes it: bare when it is a non-empty run of
letters, digits, `-` and `_`; else a literal string when `prefersLiteral`; else a basic
string with escapes. -/
def repr (k : Key) : String :=
  let cs := k.name.toList
  if !cs.isEmpty && cs.all isBareChar then k.name
  else if prefersLiteral k.name then "'" ++ k.name ++ "'"
  else "\"" ++ String.join (cs.map escapeBasic) ++ "\""

end Key

/-- A node of a document. -/
inductive Node where
  | string (s : String)
  | integer (n : Int)
  | float (x : Binary64)
  | boolean (b : Bool)
  | datetime (text : String)
  | array (items : List Node)
  | inlineTable (dotted : Bool) (entries : List (String × Node))
  | table (implicit dotted : Bool) (entries : List (String × Node))
  | tableArray (tables : List (List (String × Node)))
  deriving Repr

/-- The entries of a table, and how it came to be. -/
structure Table where
  entries : List (String × Node)
  implicit : Bool
  dotted : Bool
  deriving Repr

namespace Table

/-- A table opened by a header, with nothing in it yet. -/
def empty : Table := ⟨[], false, false⟩

/-- The table as a node. -/
def toNode (t : Table) : Node := .table t.implicit t.dotted t.entries

end Table

/-- The name of the kind of a value, as faults name it. -/
def Node.typeName : Node → String
  | .string _ => "string"
  | .integer _ => "integer"
  | .float _ => "float"
  | .boolean _ => "boolean"
  | .datetime _ => "datetime"
  | .array _ => "array"
  | .inlineTable _ _ => "inline table"
  | .table _ _ _ => "table"
  | .tableArray _ => "array of tables"

/-! ## 1. Faults -/

/-- What can go wrong when a document's tables are assembled, or a value checked. -/
inductive Fault where
  /-- A key defined twice, shown as written or by name, and the table it is in when
  known: `some []` is the document root. -/
  | duplicateKey (key : String) (table : Option (List String))
  /-- A path of keys that runs into a value of the named kind. -/
  | extendsValue (path : List String) (kind : String)
  | outOfRange
  | tooDeep
  deriving DecidableEq, Repr

/-- The message of a fault. -/
def Fault.message : Fault → String
  | .duplicateKey key none => "duplicate key `" ++ key ++ "`"
  | .duplicateKey key (some []) => "duplicate key `" ++ key ++ "` in document root"
  | .duplicateKey key (some table) =>
    "duplicate key `" ++ key ++ "` in table `" ++ ".".intercalate table ++ "`"
  | .extendsValue path kind =>
    "dotted key `" ++ ".".intercalate path ++ "` attempted to extend non-table type (" ++
      kind ++ ")"
  | .outOfRange => "value is out of range"
  | .tooDeep => "recursion limit exceeded"

/-! ## 2. Entries -/

namespace Entries

/-- The node under a name. -/
def lookup (k : String) (es : List (String × Node)) : Option Node :=
  (es.find? (·.1 == k)).map (·.2)

/-- The entries with the node under a name replaced, in place. -/
def replace (k : String) (v : Node) (es : List (String × Node)) : List (String × Node) :=
  es.map fun e => if e.1 == k then (k, v) else e

/-- The entries without a name. -/
def erase (k : String) (es : List (String × Node)) : List (String × Node) :=
  es.filter (·.1 != k)

theorem lookup_append_of_lookup_none (k : String) (v : Node) (es : List (String × Node))
    (h : lookup k es = none) : lookup k (es ++ [(k, v)]) = some v := by
  unfold lookup at *
  simp only [Option.map_eq_none_iff, List.find?_eq_none] at h
  rw [List.find?_append]
  have : es.find? (·.1 == k) = none := List.find?_eq_none.mpr h
  simp [this]

end Entries

/-! ## 3. Walking down a path -/

/-- The fault for a key defined twice at position `i` of a header's path: the key as a
printed document writes it, in the table named by the keys before it. -/
def duplicateAt (path : List Key) (i : Nat) : Fault :=
  .duplicateKey (path.getD i ⟨""⟩).repr (some ((path.take i).map (·.name)))

/-- Walks from `t` down `path`, which starts at position `i` of `whole`, and changes the
table reached with `f`.  A missing table is made, implicit, and dotted when `dotted`; an
array of tables is entered at its last table; a value stops the walk, and so does, for a
dotted key, a table that a header opened: dotted keys may not add to it. -/
def modifyAt {β : Type} (dotted : Bool) (whole : List Key) (f : Table → Except Fault (Table × β)) :
    List Key → Nat → Table → Except Fault (Table × β)
  | [], _, t => f t
  | k :: rest, i, t =>
    match Entries.lookup k.name t.entries with
    | none => do
      let (c, b) ← modifyAt dotted whole f rest (i + 1) ⟨[], true, dotted⟩
      pure ({ t with entries := t.entries ++ [(k.name, c.toNode)] }, b)
    | some (.table imp dot es) => do
      if dotted && !imp then .error (.duplicateKey k.name none)
      else
        let (c, b) ← modifyAt dotted whole f rest (i + 1) ⟨es, imp, dot⟩
        pure ({ t with entries := Entries.replace k.name c.toNode t.entries }, b)
    | some (.tableArray ts) => do
      let (c, b) ← modifyAt dotted whole f rest (i + 1) ⟨ts.getLastD [], false, false⟩
      pure ({ t with entries :=
        Entries.replace k.name (.tableArray (ts.dropLast ++ [c.entries])) t.entries }, b)
    | some v => .error (.extendsValue ((whole.take (i + 1)).map (·.name)) v.typeName)

/-- Walks from an inline table down `path`, making dotted inline tables where missing, and
changes the entries reached with `f`, which also sees whether they are dotted.  An inline
table written as a value is complete: the walk may not enter it. -/
def modifyInline (whole : List Key)
    (f : Bool → List (String × Node) → Except Fault (List (String × Node))) :
    List Key → Nat → Bool → List (String × Node) → Except Fault (List (String × Node))
  | [], _, dotted, es => f dotted es
  | k :: rest, i, _, es =>
    match Entries.lookup k.name es with
    | none => do
      let c ← modifyInline whole f rest (i + 1) true []
      pure (es ++ [(k.name, .inlineTable true c)])
    | some (.inlineTable dot inner) => do
      if !dot then .error (.duplicateKey k.name none)
      else
        let c ← modifyInline whole f rest (i + 1) dot inner
        pure (Entries.replace k.name (.inlineTable dot c) es)
    | some v => .error (.extendsValue ((whole.take (i + 1)).map (·.name)) v.typeName)

end Toml

end CipherEngine
