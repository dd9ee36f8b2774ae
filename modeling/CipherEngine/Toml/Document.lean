import CipherEngine.Toml.Lexical

/-!
# Reading a TOML document

A document is read line by line.  A line is blank, a comment, a table header (`[a.b]` or
`[[a.b]]`) or a key/value pair; anything else is an error.  Pairs go into the table that
the last header opened, under their dotted path; each header first files the table before
it into the document.

The rules on redefinition are those of the assembling state:

* a pair may not define a key twice, nor add plain keys to a table made by dotted keys, nor
  dotted keys to one opened by a header;
* a header may reopen a table only when that table was made on the way to another
  header, never one opened by a header or made by dotted keys;
* `[[a]]` appends a table to the array of tables `a`, and may not meet a plain table `a`.

Arrays and inline tables nest at most 79 deep.
-/

set_option autoImplicit false

namespace CipherEngine

namespace Toml

open CipherEngine.Toml.Parser

/-! ## 1. Values -/

/-- A failure of a value that was not a known kind, reported as if a string was meant. -/
def asString {α : Type} (p : Parser α) : Parser α :=
  expecting [.char '"', .char '\''] (label "string" p)

/-- An array whose values are read by `elem`. -/
def arrayOf (elem : Option (Parser Node)) : Parser Node := do
  let _ ← char '['
  let items ← cut (match elem with
    | none => failWith Fault.tooDeep.message
    | some elem => do
      let items ← optional (do
        let items ← sepBy1 (do blankLines; let v ← elem; blankLines; Parser.pure v) (char ',')
        let _ ← optional (char ',')
        Parser.pure items)
      blankLines
      Parser.pure (items.getD []))
  let _ ← cut (expecting [.char ']'] (label "array" (char ']')))
  Parser.pure (.array items)

/-- Files the pairs of an inline table, in order, into one table. -/
def inlineEntries : List (List Key × Key × Node) → List (String × Node) →
    Except Fault (List (String × Node))
  | [], es => .ok es
  | (path, k, v) :: rest, es => do
    let es ← modifyInline path (fun dotted inner =>
      if dotted == path.isEmpty then .error (.duplicateKey k.name none)
      else match Entries.lookup k.name inner with
        | some _ => .error (.duplicateKey k.name none)
        | none => .ok (inner ++ [(k.name, v)])) path 0 false es
    inlineEntries rest es

/-- An inline table whose values are read by `elem`. -/
def inlineTableOf (elem : Option (Parser Node)) : Parser Node := do
  let _ ← char '{'
  let entries ← cut (match elem with
    | none => failWith Fault.tooDeep.message
    | some elem =>
      tryMap (do
        let pairs ← optional (sepBy1 (do
          let ks ← key
          let v ← cut (do
            let _ ← expecting [.char '.', .char '='] (char '=')
            blanks
            let v ← elem
            blanks
            Parser.pure v)
          Parser.pure (ks.dropLast, ks.getLastD ⟨""⟩, v)) (char ','))
        blanks
        Parser.pure (pairs.getD []))
        fun pairs => (inlineEntries pairs []).mapError Fault.message)
  let _ ← cut (expecting [.char '}'] (label "inline table" (char '}')))
  Parser.pure (.inlineTable false entries)

/-- A value whose arrays and inline tables read their values with `nested`, or refuse to
nest when there is none. -/
def valueWith (nested : Option (Parser Node)) : Parser Node := fun cs =>
  match cs with
  | [] => .error .soft
  | c :: _ =>
    if c == '"' || c == '\'' then (do let s ← stringValue; Parser.pure (Node.string s)) cs
    else if c == '[' then arrayOf nested cs
    else if c == '{' then inlineTableOf nested cs
    else if c == '+' || c == '-' || c.isDigit then
      firstOf [
        do let d ← dateTime; Parser.pure (Node.datetime d),
        do let x ← float; Parser.pure (Node.float x),
        do let n ← integer; Parser.pure (Node.integer n)] cs
    else if c == '_' then
      expecting [.description "leading digit"] (do let n ← integer; Parser.pure (Node.integer n)) cs
    else if c == '.' then
      expecting [.description "leading digit"] (do let x ← float; Parser.pure (Node.float x)) cs
    else if c == 't' then
      asString (do let _ ← cut (literal "true"); Parser.pure (Node.boolean true)) cs
    else if c == 'f' then
      asString (do let _ ← cut (literal "false"); Parser.pure (Node.boolean false)) cs
    else if c == 'i' then
      asString (do let _ ← literal "inf"; Parser.pure (Node.float (.infinite false))) cs
    else if c == 'n' then
      asString (do let _ ← literal "nan"; Parser.pure (Node.float .nan)) cs
    else asString fail cs

/-- A value that may hold `depth` more levels of arrays and inline tables. -/
def value : Nat → Parser Node
  | 0 => valueWith none
  | depth + 1 => valueWith (some (value depth))

/-- How deep a value at the top of a pair may nest. -/
def maxDepth : Nat := 79

/-! ## 2. The assembling state -/

/-- The document so far, the table being filled, its header's path, and whether the
header was `[[...]]`. -/
structure Assembly where
  root : Table
  current : Table
  currentPath : List Key
  currentIsArray : Bool
  deriving Repr

namespace Assembly

/-- Nothing read yet: the pairs before any header fill the document's root. -/
def start : Assembly := ⟨.empty, .empty, [], false⟩

/-- Files a pair under its dotted `path` in the current table. -/
def addPair (s : Assembly) (path : List Key) (k : Key) (v : Node) : Except Fault Assembly := do
  let (cur, ()) ← modifyAt true path (fun t =>
    if t.dotted == path.isEmpty then .error (.duplicateKey k.name none)
    else match Entries.lookup k.name t.entries with
      | some _ => .error (.duplicateKey k.name (some (s.currentPath.map (·.name))))
      | none => .ok ({ t with entries := t.entries ++ [(k.name, v)] }, ())) path 0 s.current
  pure { s with current := cur }

/-- Files the current table into the document: the root's pairs become the root, a
`[[...]]` table is appended to its array, and a plain table takes its place, which only an
implicit table may hold already. -/
def finish (s : Assembly) : Except Fault Assembly :=
  let path := s.currentPath
  let filed : Assembly := { s with current := .empty, currentPath := [], currentIsArray := false }
  match path.getLast? with
  | none => .ok { filed with root := s.current }
  | some last => do
    let i := path.length - 1
    let (root, ()) ← modifyAt false path (fun parent =>
      match Entries.lookup last.name parent.entries, s.currentIsArray with
      | none, true =>
        let es := parent.entries ++ [(last.name, .tableArray [s.current.entries])]
        .ok ({ parent with entries := es }, ())
      | some (.tableArray ts), true =>
        let es := Entries.replace last.name (.tableArray (ts ++ [s.current.entries])) parent.entries
        .ok ({ parent with entries := es }, ())
      | none, false =>
        .ok ({ parent with entries := parent.entries ++ [(last.name, s.current.toNode)] }, ())
      | some (.table true _ _), false =>
        let es := Entries.replace last.name s.current.toNode parent.entries
        .ok ({ parent with entries := es }, ())
      | _, _ => .error (duplicateAt path i)) path.dropLast 0 s.root
    pure { filed with root := root }

/-- Opens the table of a `[path]` header, taking over a table made on the way to an
earlier header. -/
def openTable (s : Assembly) (path : List Key) : Except Fault Assembly := do
  let last := path.getLastD ⟨""⟩
  let (root, t) ← modifyAt false path (fun parent =>
    match Entries.lookup last.name parent.entries with
    | none => .ok (parent, Table.empty)
    | some (.table true false es) =>
      .ok ({ parent with entries := Entries.erase last.name parent.entries }, ⟨es, false, false⟩)
    | some _ => .error (duplicateAt path (path.length - 1))) path.dropLast 0 s.root
  pure { root := root, current := t, currentPath := path, currentIsArray := false }

/-- Opens a new table of the array of tables of a `[[path]]` header. -/
def openArrayTable (s : Assembly) (path : List Key) : Except Fault Assembly := do
  let last := path.getLastD ⟨""⟩
  let (root, ()) ← modifyAt false path (fun parent =>
    match Entries.lookup last.name parent.entries with
    | none => .ok ({ parent with entries := parent.entries ++ [(last.name, .tableArray [])] }, ())
    | some (.tableArray _) => .ok (parent, ())
    | some _ => .error (duplicateAt path (path.length - 1))) path.dropLast 0 s.root
  pure { root := root, current := .empty, currentPath := path, currentIsArray := true }

/-- A header: the table before it is filed, then the new one opened. -/
def header (s : Assembly) (path : List Key) (isArray : Bool) : Except Fault Assembly := do
  let s ← s.finish
  if isArray then s.openArrayTable path else s.openTable path

end Assembly

/-! ## 3. Lines -/

/-- A key/value line, filed into the state. -/
def pairLine (s : Assembly) : Parser Assembly :=
  tryMap (do
    let ks ← key
    cut (do
      let _ ← expecting [.char '.', .char '='] (char '=')
      blanks
      let v ← value maxDepth
      let _ ← expecting [.char '\n', .char '#'] lineTrailing
      Parser.pure (ks, v)))
    fun (ks, v) => (s.addPair ks.dropLast (ks.getLastD ⟨""⟩) v).mapError Fault.message

/-- A header line, `[path]` or `[[path]]`, filed into the state. -/
def headerLine (s : Assembly) : Parser Assembly := fun cs =>
  let isArray := cs.take 2 == ['[', '[']
  let (opening, closing) := if isArray then ("[[", "]]") else ("[", "]")
  let closeExpected : Expected := if isArray then .literal "]]" else .char ']'
  label "table header" (fun cs =>
    if cs.length < 2 then .error .soft
    else tryMap (do
      let _ ← literal opening
      let path ← cut key
      let _ ← cut (expecting [.char '.', closeExpected] (literal closing))
      let _ ← cut (expecting [.char '\n', .char '#'] lineTrailing)
      Parser.pure path)
      (fun path => (s.header path isArray).mapError Fault.message) cs) cs

/-- The lines of a document, at most `fuel` of them, each followed by blanks. -/
def linesFuel : Nat → Assembly → List Char → Except Failure Assembly
  | 0, s, _ => .ok s
  | fuel + 1, s, cs =>
    let step : Option (Parser Assembly) := match cs with
      | [] => none
      | '#' :: _ => some (cut (do comment; lineEnding; Parser.pure s))
      | '[' :: _ => some (cut (headerLine s))
      | '\n' :: _ | '\r' :: _ => some (do newline; Parser.pure s)
      | _ => some (cut (pairLine s))
    match step with
    | none => .ok s
    | some p =>
      match p cs with
      | .ok (s', rest) =>
        match blanks rest with
        | .ok ((), rest') => linesFuel fuel s' rest'
        | .error e => .error e
      | .error e => if e.final then .error e else .error .soft

/-- Reads a document into its root table; the message of a failure is the reader's. -/
def parseDocument (text : String) : Except Failure (List (String × Node)) := do
  let cs := text.toList
  let cs := match cs with
    | '\uFEFF' :: rest => rest
    | _ => cs
  let cs := cs.dropWhile Chars.isBlank
  let s ← linesFuel (cs.length + 1) Assembly.start cs
  match s.finish with
  | .ok s => .ok s.root.entries
  | .error f => .error (.because f.message)

end Toml

end CipherEngine
