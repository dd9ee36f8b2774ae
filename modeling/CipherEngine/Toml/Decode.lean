import CipherEngine.Toml.Document
import CipherEngine.Text.Basic

/-!
# Reading records from TOML tables

A record is read from a table field by field, in the order of the table's entries: a name
that is not a field of the record stops the reading, and so does a value of the wrong
kind.  Only after all entries are read are the fields that must be given checked, in the
order the record declares them.

Messages name what was found and what was expected:

* `unknown field `x`, expected one of `a`, `b`, `c`` (`a` or `b` for two fields);
* `invalid type: <found>, expected <wanted>`, where what was found is shown as
  `integer `5``, `floating point `1.5``, `boolean `true``, a quoted string, `map` (tables and
  dates) or `sequence` (arrays);
* `invalid value: integer `-1`, expected usize` for a negative count;
* `missing field `x``.
-/

set_option autoImplicit false

namespace CipherEngine

namespace Toml

/-! ## 1. Messages -/

/-- Floats in messages: positional digits, `.0` added to whole numbers, `NaN` and `inf`;
so `1.5`, `100.0`, `-0.0`, `-inf`. -/
def messageFloatStyle : Binary64.Style := ⟨"NaN", "inf", true⟩

/-- How a message shows a value that was not wanted. -/
def Node.unexpected : Node → String
  | .string s => "string " ++ Text.quote s
  | .integer n => "integer `" ++ toString n ++ "`"
  | .float x => "floating point `" ++ x.display messageFloatStyle ++ "`"
  | .boolean b => "boolean `" ++ toString b ++ "`"
  | .datetime _ => "map"
  | .array _ => "sequence"
  | .tableArray _ => "sequence"
  | .inlineTable _ _ => "map"
  | .table _ _ _ => "map"

/-- A value of the wrong kind. -/
def invalidType (v : Node) (wanted : String) : String :=
  "invalid type: " ++ v.unexpected ++ ", expected " ++ wanted

/-- Names between backticks, as a list of alternatives. -/
def oneOf : List String → String
  | [] => "nothing"
  | [a] => "`" ++ a ++ "`"
  | [a, b] => "`" ++ a ++ "` or `" ++ b ++ "`"
  | names => "one of " ++ ", ".intercalate (names.map fun n => "`" ++ n ++ "`")

/-- A name that is not a field of the record. -/
def unknownField (name : String) (fields : List String) : String :=
  if fields.isEmpty then "unknown field `" ++ name ++ "`, there are no fields"
  else "unknown field `" ++ name ++ "`, expected " ++ oneOf fields

/-- A field that must be given and was not. -/
def missingField (name : String) : String := "missing field `" ++ name ++ "`"

/-! ## 2. Field values -/

/-- The kinds of field a record may have. -/
inductive FieldKind where
  /-- A machine-word count. -/
  | count
  | flag
  | text
  /-- A list of counts. -/
  | counts
  /-- A file-system path. -/
  | path
  deriving DecidableEq, Repr

/-- A field's value once read. -/
inductive FieldValue where
  | count (n : Nat)
  | flag (b : Bool)
  | text (s : String)
  | counts (ns : List Nat)
  deriving DecidableEq, Repr

/-- Reads a count: a non-negative integer. -/
def readCount : Node → Except String Nat
  | .integer n =>
    if n < 0 then .error ("invalid value: integer `" ++ toString n ++ "`, expected usize")
    else .ok n.toNat
  | v => .error (invalidType v "usize")

/-- Reads counts one after the other, stopping at the first that is refused. -/
def readCountList : List Node → Except String (List Nat)
  | [] => .ok []
  | v :: vs => do
    let n ← readCount v
    let ns ← readCountList vs
    pure (n :: ns)

/-- Reads a value of a field of the given kind. -/
def readField : FieldKind → Node → Except String FieldValue
  | .count, v => FieldValue.count <$> readCount v
  | .flag, .boolean b => .ok (.flag b)
  | .flag, v => .error (invalidType v "a boolean")
  | .text, .string s => .ok (.text s)
  | .text, v => .error (invalidType v "a string")
  | .path, .string s => .ok (.text s)
  | .path, v => .error (invalidType v "path string")
  | .counts, .array vs => FieldValue.counts <$> readCountList vs
  | .counts, .tableArray ts => FieldValue.counts <$> readCountList (ts.map (.table false false))
  | .counts, v => .error (invalidType v "a sequence")

/-! ## 3. Records -/

/-- The fields of a record: names and kinds, in the order the record declares them. -/
abbrev Schema := List (String × FieldKind)

/-- Reads the entries of a table against a schema, in the table's order. -/
def readEntries (schema : Schema) : List (String × Node) → Except String (List (String × FieldValue))
  | [] => .ok []
  | (name, v) :: rest =>
    match schema.lookup name with
    | none => .error (unknownField name (schema.map (·.1)))
    | some kind => do
      let x ← readField kind v
      let xs ← readEntries schema rest
      pure ((name, x) :: xs)

/-- The fields read from a table. -/
abbrev Fields := List (String × FieldValue)

namespace Fields

/-- A count field, if given. -/
def count? (r : Fields) (name : String) : Option Nat :=
  match r.lookup name with
  | some (.count n) => some n
  | _ => none

/-- A flag field, if given. -/
def flag? (r : Fields) (name : String) : Option Bool :=
  match r.lookup name with
  | some (.flag b) => some b
  | _ => none

/-- A text or path field, if given. -/
def text? (r : Fields) (name : String) : Option String :=
  match r.lookup name with
  | some (.text s) => some s
  | _ => none

/-- A list field, if given. -/
def counts? (r : Fields) (name : String) : Option (List Nat) :=
  match r.lookup name with
  | some (.counts ns) => some ns
  | _ => none

/-- A field that must be given. -/
def require {α : Type} (get : Fields → String → Option α) (r : Fields) (name : String) :
    Except String α :=
  match get r name with
  | some a => .ok a
  | none => .error (missingField name)

end Fields

/-- Reads a document and then its root table against a schema; the message of a failure
is the reader's or the record's. -/
def readRecord (schema : Schema) (text : String) : Except String Fields := do
  let entries ← (parseDocument text).mapError Failure.message
  readEntries schema entries

end Toml

end CipherEngine
