/-!
# Parsers over characters, and why they fail

The TOML reader is written with a handful of parser combinators over the list of the
document's characters.  A parser either succeeds with a value and the rest of the input, or
fails with a `Failure`:

* a failure is *final* when the reader has committed to a reading (after an opening quote,
  say); an alternative or an optional part is only tried after a failure that is not final;
* on its way out a failure collects notes: the construct it was reading (a label) and the
  tokens that would have done (expectations), innermost first;
* a failure found by a check after the grammar matched carries a cause.

The message of a failure is `invalid <label>` for the innermost label, then `expected ` and
the expectations, then the cause, each on its own line; any of them may be missing, and a
failure with none of them has the empty message.
-/

set_option autoImplicit false

namespace CipherEngine

namespace Toml

/-! ## 1. Failures -/

/-- A token a failed parse would have accepted. -/
inductive Expected where
  | char (c : Char)
  | literal (s : String)
  | description (s : String)
  deriving DecidableEq, Repr

/-- How a message names an expected token: a newline by name, other characters and
literals between backticks, descriptions as they are. -/
def Expected.render : Expected → String
  | .char '\n' => "newline"
  | .char '`' => "'`'"
  | .char c => "`" ++ c.toString ++ "`"
  | .literal s => "`" ++ s ++ "`"
  | .description s => s

/-- A note a failure collects on its way out. -/
inductive Note where
  | label (s : String)
  | expected (e : Expected)
  deriving DecidableEq, Repr

/-- Why a parse failed; see the module header. -/
structure Failure where
  final : Bool
  notes : List Note
  cause : Option String
  deriving DecidableEq, Repr

namespace Failure

/-- A failure that an alternative may still recover from. -/
def soft : Failure := ⟨false, [], none⟩

/-- A failure found by a check, with its cause. -/
def because (cause : String) : Failure := ⟨false, [], some cause⟩

/-- The innermost label. -/
def label? (f : Failure) : Option String :=
  f.notes.findSome? fun | .label s => some s | _ => none

/-- The expectations, innermost first. -/
def expectations (f : Failure) : List String :=
  f.notes.filterMap fun | .expected e => some e.render | _ => none

/-- The message of a failure. -/
def message (f : Failure) : String :=
  let lines :=
    (match f.label? with | some l => ["invalid " ++ l] | none => []) ++
    (match f.expectations with | [] => [] | es => ["expected " ++ ", ".intercalate es]) ++
    (match f.cause with | some c => [c] | none => [])
  "\n".intercalate lines

end Failure

/-! ## 2. Parsers -/

/-- A parser: a value and the rest of the input, or a failure. -/
abbrev Parser (α : Type) := List Char → Except Failure (α × List Char)

namespace Parser

variable {α β : Type}

/-- Succeeds with `a`, consuming nothing. -/
def pure (a : α) : Parser α := fun cs => .ok (a, cs)

/-- Fails softly. -/
def fail : Parser α := fun _ => .error .soft

/-- Runs `p`, then `f` on its value. -/
def bind (p : Parser α) (f : α → Parser β) : Parser β := fun cs =>
  match p cs with
  | .ok (a, rest) => f a rest
  | .error e => .error e

instance : Monad Parser where
  pure := Parser.pure
  bind := Parser.bind

/-- Fails softly with a cause. -/
def failWith (cause : String) : Parser α := fun _ => .error (.because cause)

/-- Adds a note to a failure of `p`. -/
def note (n : Note) (p : Parser α) : Parser α := fun cs =>
  match p cs with
  | .error f => .error { f with notes := f.notes ++ [n] }
  | ok => ok

/-- Labels a failure of `p` with the construct being read. -/
def label (s : String) (p : Parser α) : Parser α := note (.label s) p

/-- Adds expected tokens to a failure of `p`, in order. -/
def expecting (es : List Expected) (p : Parser α) : Parser α :=
  es.foldl (fun q e => note (.expected e) q) p

/-- Commits: a failure of `p` becomes final. -/
def cut (p : Parser α) : Parser α := fun cs =>
  match p cs with
  | .error f => .error { f with final := true }
  | ok => ok

/-- `p`, or `q` from the same input when `p` fails softly; a failure of `q` is the one
reported. -/
def orElse (p q : Parser α) : Parser α := fun cs =>
  match p cs with
  | .error f => if f.final then .error f else q cs
  | ok => ok

/-- The first of the parsers that does not fail softly. -/
def firstOf : List (Parser α) → Parser α
  | [] => fail
  | [p] => p
  | p :: ps => orElse p (firstOf ps)

/-- `p` when it does not fail softly, and nothing otherwise. -/
def optional (p : Parser α) : Parser (Option α) := fun cs =>
  match p cs with
  | .ok (a, rest) => .ok (some a, rest)
  | .error f => if f.final then .error f else .ok (none, cs)

/-- Runs `p` on the input without consuming it. -/
def peek (p : Parser α) : Parser α := fun cs =>
  match p cs with
  | .ok (a, _) => .ok (a, cs)
  | .error f => .error f

/-- `p`, then `q` is checked to fail softly on what follows, which is not consumed. -/
def notFollowedBy (p : Parser α) (q : Parser β) : Parser α := fun cs =>
  match p cs with
  | .ok (a, rest) =>
    match q rest with
    | .ok _ => .error .soft
    | .error f => if f.final then .error f else .ok (a, rest)
  | .error f => .error f

/-- Repeats `p` at most `fuel` times, while it succeeds. -/
def repeatFuel (p : Parser α) : Nat → List α → Parser (List α)
  | 0, acc => fun cs => .ok (acc.reverse, cs)
  | fuel + 1, acc => fun cs =>
    match p cs with
    | .ok (a, rest) => repeatFuel p fuel (a :: acc) rest
    | .error f => if f.final then .error f else .ok (acc.reverse, cs)

/-- Repeats `p` while it succeeds; every success consumes input, so the length of the
input bounds the repetitions. -/
def many (p : Parser α) : Parser (List α) := fun cs => repeatFuel p (cs.length + 1) [] cs

/-- One or more `p`. -/
def many1 (p : Parser α) : Parser (List α) := do
  let a ← p
  let as ← many p
  Parser.pure (a :: as)

/-- One or more `p` separated by `sep`; a separator not followed by a `p` is left
unconsumed. -/
def sepBy1 (p : Parser α) (sep : Parser β) : Parser (List α) := do
  let a ← p
  let as ← many (do let _ ← sep; p)
  Parser.pure (a :: as)

/-- Any one character. -/
def anyChar : Parser Char
  | c :: rest => .ok (c, rest)
  | [] => .error .soft

/-- One character satisfying `pred`. -/
def satisfy (pred : Char → Bool) : Parser Char
  | c :: rest => if pred c then .ok (c, rest) else .error .soft
  | [] => .error .soft

/-- Exactly the character `c`. -/
def char (c : Char) : Parser Char := satisfy (· == c)

/-- Exactly the characters of `s`. -/
def literal (s : String) : Parser String := fun cs =>
  let n := s.length
  if cs.take n == s.toList then .ok (s, cs.drop n) else .error .soft

/-- The longest prefix, at most `max` characters, satisfying `pred`. -/
def spanMax (pred : Char → Bool) : Nat → List Char → List Char × List Char
  | 0, cs => ([], cs)
  | _, [] => ([], [])
  | n + 1, c :: rest =>
    if pred c then
      let (xs, ys) := spanMax pred n rest
      (c :: xs, ys)
    else ([], c :: rest)

/-- From `min` to `max` characters satisfying `pred`, as many as there are. -/
def takeWhileRange (min max : Nat) (pred : Char → Bool) : Parser (List Char) := fun cs =>
  let (xs, rest) := spanMax pred max cs
  if min ≤ xs.length then .ok (xs, rest) else .error .soft

/-- Any number of characters satisfying `pred`. -/
def takeWhile (pred : Char → Bool) : Parser (List Char) := fun cs =>
  .ok (cs.span pred)

/-- At least one character satisfying `pred`. -/
def takeWhile1 (pred : Char → Bool) : Parser (List Char) := fun cs =>
  match cs.span pred with
  | ([], _) => .error .soft
  | r => .ok r

/-- The end of the input. -/
def eof : Parser Unit
  | [] => .ok ((), [])
  | _ => .error .soft

/-- The text `p` consumed, with its value. -/
def withText (p : Parser α) : Parser (α × List Char) := fun cs =>
  match p cs with
  | .ok (a, rest) => .ok ((a, cs.take (cs.length - rest.length)), rest)
  | .error f => .error f

/-- The value of `p` checked by `f`; a refusal is a soft failure with its cause. -/
def tryMap (p : Parser α) (f : α → Except String β) : Parser β := fun cs =>
  match p cs with
  | .ok (a, rest) =>
    match f a with
    | .ok b => .ok (b, rest)
    | .error cause => .error (.because cause)
  | .error e => .error e

end Parser

end Toml

end CipherEngine
