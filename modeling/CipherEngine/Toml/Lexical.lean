import CipherEngine.Toml.Combinators
import CipherEngine.Toml.Value

/-!
# The tokens of TOML

Blanks, comments and line ends; keys; the four kinds of string; integers in four bases;
floats; dates and times.  Each parser commits (fails finally) once the text can only be
the token it reads, and labels its failures with the name of the token, so that a message
says what was being read and what would have done.

Numbers are checked after they are read: an integer must fit 64 signed bits, and a float
must not overflow to positive infinity.  Dates and times must have their fields in range.
-/

set_option autoImplicit false

namespace CipherEngine

namespace Toml

open CipherEngine.Toml.Parser

/-! ## 1. Character classes -/

namespace Chars

/-- A space or a tab. -/
def isBlank (c : Char) : Bool := c == ' ' || c == '\t'

/-- Outside ASCII. -/
def isNonAscii (c : Char) : Bool := 0x80 ≤ c.toNat

/-- A character that may stand in a comment. -/
def isCommentChar (c : Char) : Bool :=
  c == '\t' || (0x20 ≤ c.toNat && c.toNat ≤ 0x7E) || isNonAscii c

/-- A character that stands for itself in a basic string. -/
def isBasicChar (c : Char) : Bool :=
  isBlank c || c == '!' || (0x23 ≤ c.toNat && c.toNat ≤ 0x5B) ||
    (0x5D ≤ c.toNat && c.toNat ≤ 0x7E) || isNonAscii c

/-- A character of a literal string. -/
def isLiteralChar (c : Char) : Bool :=
  c == '\t' || (0x20 ≤ c.toNat && c.toNat ≤ 0x26) || (0x28 ≤ c.toNat && c.toNat ≤ 0x7E) ||
    isNonAscii c

/-- A character of a bare key. -/
def isBareKeyChar (c : Char) : Bool :=
  (c.isAlphanum && c.toNat < 0x80) || c == '-' || c == '_'

/-- An ASCII digit. -/
def isDigit (c : Char) : Bool := c.isDigit

/-- A hexadecimal digit, either case. -/
def isHexDigit (c : Char) : Bool :=
  c.isDigit || ('a' ≤ c && c ≤ 'f') || ('A' ≤ c && c ≤ 'F')

/-- The value of a hexadecimal digit. -/
def hexValue (c : Char) : Nat :=
  if c.isDigit then c.toNat - '0'.toNat
  else if 'a' ≤ c && c ≤ 'f' then c.toNat - 'a'.toNat + 10
  else c.toNat - 'A'.toNat + 10

end Chars

/-! ## 2. Blanks, comments, line ends -/

/-- Spaces and tabs. -/
def blanks : Parser Unit := do let _ ← takeWhile Chars.isBlank; Parser.pure ()

/-- A line feed, or a carriage return and a line feed. -/
def newline : Parser Unit :=
  orElse (do let _ ← char '\n'; Parser.pure ()) (do let _ ← literal "\r\n"; Parser.pure ())

/-- A comment, up to the end of its line. -/
def comment : Parser Unit := do
  let _ ← char '#'
  let _ ← takeWhile Chars.isCommentChar
  Parser.pure ()

/-- The end of a line, or of the input. -/
def lineEnding : Parser Unit := orElse newline eof

/-- What may close a line after its content: blanks, a comment, the line end. -/
def lineTrailing : Parser Unit := do
  blanks
  let _ ← optional comment
  lineEnding

/-- Blanks, comments and line ends, at most `fuel` lines of them. -/
def blankLinesFuel : Nat → Parser Unit
  | 0 => Parser.pure ()
  | fuel + 1 => fun cs =>
    match blanks cs with
    | .error e => .error e
    | .ok ((), rest) =>
      match rest with
      | '#' :: _ =>
        match (do comment; newline) rest with
        | .ok ((), rest') => blankLinesFuel fuel rest'
        | .error e => .error e
      | '\n' :: _ | '\r' :: _ =>
        match newline rest with
        | .ok ((), rest') => blankLinesFuel fuel rest'
        | .error e => .error e
      | _ => .ok ((), rest)

/-- Blanks, comments and line ends, as between the values of an array. -/
def blankLines : Parser Unit := fun cs => blankLinesFuel (cs.length + 1) cs

/-! ## 3. Strings -/

/-- A code point given by `n` hexadecimal digits after `\u` or `\U`. -/
def hexEscape (n : Nat) : Parser Char := fun cs =>
  let (ds, rest) := spanMax Chars.isHexDigit n cs
  if ds.length != n then .error .soft
  else
    let v := ds.foldl (fun acc c => 16 * acc + Chars.hexValue c) 0
    if h : v.isValidChar then .ok (Char.ofNatAux v h, rest)
    else .error (.because Fault.outOfRange.message)

/-- The characters that may follow a backslash. -/
def escapeLetters : List Char := ['b', 'f', 'n', 'r', 't', 'u', 'U', '\\', '"']

/-- The character an escape stands for, after its backslash. -/
def escapeSequence : Parser Char
  | [] => .error .soft
  | c :: rest =>
    match c with
    | 'b' => .ok ('\x08', rest)
    | 'f' => .ok ('\x0c', rest)
    | 'n' => .ok ('\n', rest)
    | 'r' => .ok ('\r', rest)
    | 't' => .ok ('\t', rest)
    | '\\' => .ok ('\\', rest)
    | '"' => .ok ('"', rest)
    | 'u' => label "unicode 4-digit hex code" (cut (hexEscape 4)) rest
    | 'U' => label "unicode 8-digit hex code" (cut (hexEscape 8)) rest
    | _ => .error ⟨true, .label "escape sequence" :: escapeLetters.map (.expected ∘ .char), none⟩

/-- A backslash escape. -/
def escaped : Parser Char := do
  let _ ← char '\\'
  escapeSequence

/-- A run of a basic string's characters. -/
def basicChunk : Parser String :=
  orElse (do let cs ← takeWhile1 Chars.isBasicChar; Parser.pure (String.ofList cs))
    (do let c ← escaped; Parser.pure c.toString)

/-- A basic string, `"..."`. -/
def basicString : Parser String := do
  let _ ← char '"'
  let chunks ← many basicChunk
  let _ ← label "basic string" (cut (char '"'))
  Parser.pure (String.join chunks)

/-- A literal string, `'...'`. -/
def literalString : Parser String :=
  label "literal string" do
    let _ ← char '\''
    let cs ← cut (takeWhile Chars.isLiteralChar)
    let _ ← cut (char '\'')
    Parser.pure (String.ofList cs)

/-- Blanks and line ends after a line-ending backslash. -/
def blanksAndNewlines : Parser Unit := do
  newline
  let _ ← many (orElse newline (do let _ ← takeWhile1 Chars.isBlank; Parser.pure ()))
  Parser.pure ()

/-- A piece of a multi-line basic string. -/
def multilineBasicChunk : Parser String :=
  firstOf [
    do let cs ← takeWhile1 Chars.isBasicChar; Parser.pure (String.ofList cs),
    do
      let _ ← many1 (do let _ ← char '\\'; blanks; blanksAndNewlines)
      Parser.pure "",
    do let c ← escaped; Parser.pure c.toString,
    do newline; Parser.pure "\n"]

/-- One or two quotes, when `term` follows them. -/
def quotesBefore {β : Type} (q : Char) (term : Parser β) : Parser String :=
  let two := String.ofList [q, q]
  orElse (do let s ← literal two; let _ ← peek term; Parser.pure s)
    (do let s ← literal q.toString; let _ ← peek term; Parser.pure s)

/-- The body of a multi-line basic string: pieces, with runs of one or two quotes between
them and before the closing delimiter. -/
def multilineBasicBody : Parser String := fun cs =>
  let rec quoted : Nat → String → Parser String
    | 0, acc => Parser.pure acc
    | fuel + 1, acc => fun cs =>
      match optional (quotesBefore '"' (satisfy (· != '"'))) cs with
      | .error e => .error e
      | .ok (none, rest) => .ok (acc, rest)
      | .ok (some q, rest) =>
        match many1 multilineBasicChunk rest with
        | .error e => if e.final then .error e else .ok (acc, rest)
        | .ok (pieces, rest') => quoted fuel (acc ++ q ++ String.join pieces) rest'
  match many multilineBasicChunk cs with
  | .error e => .error e
  | .ok (pieces, rest) =>
    match quoted (rest.length + 1) (String.join pieces) rest with
    | .error e => .error e
    | .ok (body, rest') =>
      match optional (quotesBefore '"' (literal "\"\"\"")) rest' with
      | .error e => .error e
      | .ok (q, after) => .ok (body ++ q.getD "", after)

/-- A multi-line basic string, `"""..."""`; a line end right after the opening is dropped. -/
def multilineBasicString : Parser String :=
  label "multiline basic string" do
    let _ ← literal "\"\"\""
    let _ ← optional newline
    let body ← cut multilineBasicBody
    let _ ← cut (literal "\"\"\"")
    Parser.pure body

/-- A character of a multi-line literal string, a line end read as a line feed. -/
def multilineLiteralChar : Parser Char :=
  orElse (satisfy Chars.isLiteralChar) (do newline; Parser.pure '\n')

/-- The body of a multi-line literal string. -/
def multilineLiteralBody : Parser String := do
  let first ← many multilineLiteralChar
  let runs ← many (do
    let q ← quotesBefore '\'' (satisfy (· != '\''))
    let cs ← many1 multilineLiteralChar
    Parser.pure (q ++ String.ofList cs))
  let last ← optional (quotesBefore '\'' (literal "'''"))
  Parser.pure (String.ofList first ++ String.join runs ++ last.getD "")

/-- A multi-line literal string, `'''...'''`. -/
def multilineLiteralString : Parser String :=
  label "multiline literal string" do
    let _ ← literal "'''"
    let _ ← optional newline
    let body ← cut multilineLiteralBody
    let _ ← cut (literal "'''")
    Parser.pure body

/-- Any string. -/
def stringValue : Parser String :=
  firstOf [multilineBasicString, basicString, multilineLiteralString, literalString]

/-! ## 4. Keys -/

/-- A key of one part: bare, or quoted as a basic or a literal string. -/
def simpleKey : Parser Key := fun cs =>
  let p : Parser String := match cs with
    | '"' :: _ => basicString
    | '\'' :: _ => literalString
    | _ => do let k ← takeWhile1 Chars.isBareKeyChar; Parser.pure (String.ofList k)
  match p cs with
  | .ok (name, rest) => .ok (⟨name⟩, rest)
  | .error e => .error e

/-- The most parts a dotted key may have. -/
def maxKeyParts : Nat := 80

/-- A key, its parts separated by dots, each with blanks around it. -/
def key : Parser (List Key) :=
  tryMap (label "key" (sepBy1 (do blanks; let k ← simpleKey; blanks; Parser.pure k) (char '.')))
    fun ks => if maxKeyParts ≤ ks.length then .error Fault.tooDeep.message else .ok ks

/-! ## 5. Numbers -/

/-- A digit, or an underscore that must be followed by a digit of the class. -/
def digitOrSeparator (isDigit : Char → Bool) : Parser Char :=
  orElse (satisfy isDigit)
    (do
      let _ ← char '_'
      cut (expecting [.description "digit"] (satisfy isDigit)))

/-- Digits of a class, with single underscores between them. -/
def digitRun (isDigit : Char → Bool) : Parser (List Char) := do
  let d ← satisfy isDigit
  let ds ← many (digitOrSeparator isDigit)
  Parser.pure (d :: ds)

/-- A sign. -/
def sign : Parser Char := satisfy fun c => c == '+' || c == '-'

/-- A decimal integer as written: a sign, then `0` or digits not starting with `0`. -/
def decimalInt : Parser (List Char) :=
  label "integer" do
    let s ← optional sign
    let ds ← orElse
      (do
        let d ← satisfy fun c => '1' ≤ c && c ≤ '9'
        let ds ← many (digitOrSeparator Chars.isDigit)
        Parser.pure (d :: ds))
      (do let d ← satisfy Chars.isDigit; Parser.pure [d])
    Parser.pure (s.toList ++ ds)

/-- The smallest and the largest value of a 64-bit signed integer. -/
def minInt : Int := -((Nat.pow 2 63 : Nat) : Int)
def maxInt : Int := ((Nat.pow 2 63 : Nat) : Int) - 1

/-- The value of digits in a base, refused outside 64 signed bits. -/
def integerValue (negative : Bool) (base : Nat) (ds : List Char) : Except String Int :=
  let n := (ds.filter (· != '_')).foldl (fun acc c => base * acc + Chars.hexValue c) 0
  let v : Int := if negative then -(n : Int) else n
  if v < minInt then .error "number too small to fit in target type"
  else if maxInt < v then .error "number too large to fit in target type"
  else .ok v

/-- An integer after a base prefix. -/
def prefixedInt (pre name : String) (base : Nat) (isDigit : Char → Bool) : Parser Int :=
  tryMap (label name (do let _ ← literal pre; cut (digitRun isDigit)))
    (integerValue false base)

/-- An integer: hexadecimal, octal or binary after its prefix, or decimal. -/
def integer : Parser Int := fun cs =>
  match cs with
  | '0' :: 'x' :: _ => cut (prefixedInt "0x" "hexadecimal integer" 16 Chars.isHexDigit) cs
  | '0' :: 'o' :: _ =>
    cut (prefixedInt "0o" "octal integer" 8 fun c => '0' ≤ c && c ≤ '7') cs
  | '0' :: 'b' :: _ =>
    cut (prefixedInt "0b" "binary integer" 2 fun c => c == '0' || c == '1') cs
  | _ =>
    match decimalInt cs with
    | .error e => .error e
    | .ok (ds, rest) =>
      match integerValue (ds.head? == some '-') 10 (ds.filter Chars.isDigit) with
      | .ok v => .ok (v, rest)
      | .error cause => .error ⟨true, [], some cause⟩

/-- A fraction: a point and digits. -/
def fraction : Parser (List Char) := do
  let _ ← char '.'
  let ds ← cut (expecting [.description "digit"] (digitRun Chars.isDigit))
  Parser.pure ('.' :: ds)

/-- An exponent: `e`, a sign, digits. -/
def exponent : Parser (List Char) := do
  let e ← satisfy fun c => c == 'e' || c == 'E'
  let s ← optional sign
  let ds ← cut (digitRun Chars.isDigit)
  Parser.pure (e :: s.toList ++ ds)

/-- The value of a float's text, rounded to the nearest double. -/
def floatValue (text : List Char) : Binary64 :=
  let cs := text.filter (· != '_')
  let negative := cs.head? == some '-'
  let body := cs.dropWhile fun c => c == '+' || c == '-'
  let mantissa := body.takeWhile fun c => c != 'e' && c != 'E'
  let expText := (body.dropWhile fun c => c != 'e' && c != 'E').drop 1
  let whole := mantissa.takeWhile (· != '.')
  let frac := (mantissa.dropWhile (· != '.')).drop 1
  let digits := (whole ++ frac).foldl (fun acc c => 10 * acc + Chars.hexValue c) 0
  let expNeg := expText.head? == some '-'
  let expDigits := expText.filter Chars.isDigit
  let e : Nat := expDigits.foldl (fun acc c => 10 * acc + Chars.hexValue c) 0
  let e : Int := if expNeg then -(e : Int) else e
  Binary64.ofDecimal negative digits (e - frac.length)

/-- A float: decimal digits with a fraction, an exponent or both, or an infinity or NaN
with an optional sign; finite text must not round to positive infinity. -/
def float : Parser Binary64 :=
  label "floating-point number" (orElse
    (fun cs =>
      match (do
          let i ← decimalInt
          let rest ← orElse exponent (do
            let f ← fraction
            let e ← optional exponent
            Parser.pure (f ++ e.getD []))
          Parser.pure (i ++ rest)) cs with
      | .error e => .error e
      | .ok (text, rest) =>
        let v := floatValue text
        if v.isPositiveInfinity then .error ⟨true, [], none⟩ else .ok (v, rest))
    (do
      let s ← optional sign
      let v ← orElse (do let _ ← literal "inf"; Parser.pure (Binary64.infinite false))
        (do let _ ← literal "nan"; Parser.pure Binary64.nan)
      Parser.pure (match s, v with
        | some '-', .infinite _ => .infinite true
        | _, v => v)))

/-! ## 6. Dates and times -/

/-- The value of a run of decimal digits. -/
def decimalValue (ds : List Char) : Nat := ds.foldl (fun acc c => 10 * acc + Chars.hexValue c) 0

/-- Exactly `n` digits, with their value checked to lie in `lo ..= hi`. -/
def boundedDigits (n lo hi : Nat) : Parser (List Char) :=
  tryMap (takeWhileRange n n Chars.isDigit) fun ds =>
    let v := decimalValue ds
    if lo ≤ v && v ≤ hi then .ok ds else .error Fault.outOfRange.message

/-- Whether a year of the Gregorian calendar has a 29th of February. -/
def isLeapYear (year : Nat) : Bool := year % 4 == 0 && (year % 100 != 0 || year % 400 == 0)

/-- The number of days of a month of a year. -/
def daysInMonth (year month : Nat) : Nat :=
  if month == 2 then (if isLeapYear year then 29 else 28)
  else if month == 4 || month == 6 || month == 9 || month == 11 then 30
  else 31

/-- A date, `YYYY-MM-DD`, whose day exists in its month. -/
def fullDate : Parser (List Char) := do
  let y ← takeWhileRange 4 4 Chars.isDigit
  let _ ← char '-'
  let rest ← cut (do
    let m ← boundedDigits 2 1 12
    let _ ← char '-'
    let d ← boundedDigits 2 1 31
    if daysInMonth (decimalValue y) (decimalValue m) < decimalValue d then
      failWith Fault.outOfRange.message
    else Parser.pure (m ++ '-' :: d))
  Parser.pure (y ++ '-' :: rest)

/-- A time, `hh:mm:ss` with an optional fraction of a second. -/
def timeOfDay : Parser (List Char) := do
  let h ← boundedDigits 2 0 23
  let _ ← char ':'
  let rest ← cut (do
    let m ← boundedDigits 2 0 59
    let _ ← char ':'
    let s ← boundedDigits 2 0 60
    let f ← optional (do let _ ← char '.'; takeWhile1 Chars.isDigit)
    Parser.pure (m ++ ':' :: s ++ (f.map ('.' :: ·)).getD []))
  Parser.pure (h ++ ':' :: rest)

/-- A time offset: `Z`, or a sign, hours and minutes. -/
def timeOffset : Parser (List Char) :=
  label "time offset" (orElse
    (do let z ← satisfy fun c => c == 'Z' || c == 'z'; Parser.pure [z])
    (do
      let s ← sign
      let rest ← cut (do
        let h ← boundedDigits 2 0 23
        let _ ← char ':'
        let m ← boundedDigits 2 0 59
        Parser.pure (h ++ ':' :: m))
      Parser.pure (s :: rest)))

/-- A date with an optional time and offset, or a time alone. -/
def dateTime : Parser String :=
  orElse
    (label "date-time" do
      let d ← fullDate
      let t ← optional (do
        let sep ← satisfy fun c => c == 'T' || c == 't' || c == ' '
        let t ← timeOfDay
        let o ← optional timeOffset
        Parser.pure (sep :: t ++ o.getD []))
      Parser.pure (String.ofList (d ++ t.getD [])))
    (label "time" do
      let t ← timeOfDay
      Parser.pure (String.ofList t))

end Toml

end CipherEngine
