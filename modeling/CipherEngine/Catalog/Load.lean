import CipherEngine.Catalog.Manifest
import CipherEngine.Catalog.Builtin

/-!
# Loading manifest directories into a catalog

A catalog is loaded from the built-in one and, when configured, a directory of algorithm
manifests and a directory of mode manifests, in that order.  A directory's manifests are
its files whose extension is exactly `toml`, read in the order of their names; an entry
replaces the one of the same name before it.  The first failure stops the loading: a
missing directory, a path the system cannot resolve (a zero byte in it, more than 4095
bytes, or a name of more than 255 bytes on the way), a file that is not UTF-8, or a
manifest that is refused.

Directories are given as a `FsNode` tree below the working directory, and paths are
relative to it.  A manifest's path in a message is the directory as configured joined with
the file's name.
-/

set_option autoImplicit false

namespace CipherEngine

/-- A file-system tree: a file's bytes, or a directory's named entries. -/
inductive FsNode where
  | file (content : Bytes)
  | dir (entries : List (String × FsNode))
  deriving Repr

namespace FsNode

/-- The steps of a relative path, the pieces between its slashes; empty steps and `.` stay
where they are. -/
def steps (path : String) : List String :=
  ((path.toList.splitOn '/').map String.ofList).filter fun c => c != "" && c != "."

/-- The longest path the system resolves, in bytes, its terminating zero included. -/
def maxPathBytes : Nat := 4096

/-- The longest name of one directory entry, in bytes. -/
def maxNameBytes : Nat := 255

/-- The node a path of steps leads to from `node`, whose enclosing directories are `up`,
innermost first.  Step by step: a step out of a file is not a directory, `..` goes back
out (above the working directory lies a directory with nothing of the tree in it), a name
longer than any entry can have is too long, and a name that is not there is not found. -/
def walk : List FsNode → FsNode → List String → Except IoFault FsNode
  | _, node, [] => .ok node
  | up, node, c :: rest =>
    match node with
    | .file _ => .error .notADirectory
    | .dir entries =>
      if c == ".." then
        match up with
        | parent :: outer => walk outer parent rest
        | [] => walk [] (.dir []) rest
      else if maxNameBytes < c.utf8ByteSize then .error .nameTooLong
      else
        match entries.lookup c with
        | some n => walk (node :: up) n rest
        | none => .error .notFound

/-- The node a path of steps leads to from the working directory. -/
def find (root : FsNode) (path : List String) : Except IoFault FsNode := walk [] root path

/-- The entries of the directory at a relative path.  A path with a zero byte is refused
before anything is looked up, and so is a path too long to resolve. -/
def readDir (root : FsNode) (path : String) : Except IoFault (List (String × FsNode)) :=
  if path.contains (Char.ofNat 0) then .error .nulInName
  else if maxPathBytes ≤ path.utf8ByteSize then .error .nameTooLong
  else if path.isEmpty || path.startsWith "/" then .error .notFound
  else
    match root.find (steps path) with
    | .ok (.dir entries) => .ok entries
    | .ok (.file _) => .error .notADirectory
    | .error e => .error e

end FsNode

namespace FileName

/-- A file name cut at its last dot: the part before (absent when there is no dot), and
the part after; a name that is only a dot and a suffix has no extension. -/
def splitAtDot (name : String) : Option String × Option String :=
  if name == ".." then (some name, none)
  else
    let cs := name.toList
    match (cs.reverse.span (· != '.')) with
    | (_, []) => (none, some name)
    | (afterRev, _ :: beforeRev) =>
      if beforeRev.isEmpty then (some name, none)
      else (some (String.ofList beforeRev.reverse), some (String.ofList afterRev.reverse))

/-- The extension: what follows the last dot, when there is a part before it. -/
def extension (name : String) : Option String :=
  match splitAtDot name with
  | (some _, some after) => some after
  | _ => none

/-- The stem: the name without its extension. -/
def stem (name : String) : String :=
  match splitAtDot name with
  | (some before, _) => before
  | (none, some after) => after
  | (none, none) => name

/-- A directory path joined with a name. -/
def join (dir name : String) : String :=
  if dir.endsWith "/" then dir ++ name else dir ++ "/" ++ name

end FileName

namespace Catalog

/-- The manifest files of a directory, by name: files whose extension is `toml`. -/
def manifestFiles (root : FsNode) (dir : String) : Except IoFault (List (String × Bytes)) := do
  let entries ← root.readDir dir
  let files := entries.filterMap fun
    | (name, .file content) => if FileName.extension name == some "toml" then some (name, content) else none
    | _ => none
  pure (files.mergeSort fun a b => !decide (b.1 < a.1))

/-- Reads every manifest of a directory with `read`, stopping at the first failure. -/
def loadManifests {α : Type} (read : String → String → Except ManifestFault α) (root : FsNode)
    (dir : String) : Except EngineError (List α) := do
  let files ← (manifestFiles root dir).mapError .io
  files.mapM fun (name, content) => do
    let text ← match String.fromUTF8? ⟨content.toArray⟩ with
      | some t => pure t
      | none => throw (.io .invalidUtf8)
    (read (FileName.stem name) text).mapError fun f => .manifest (FileName.join dir name) f.message

/-- The built-in catalog with the manifests of the configured directories added, the
algorithms' first, each manifest read by `reader`. -/
def load (reader : ManifestReader) (root : FsNode) (algorithmDir modeDir : Option String) :
    Except EngineError Catalog := do
  let c := Catalog.builtin
  let c ← match algorithmDir with
    | some dir => do
      let es ← loadManifests (Manifest.algorithmEntry reader) root dir
      pure (es.foldl insertAlgorithm c)
    | none => pure c
  match modeDir with
  | some dir => do
    let es ← loadManifests (Manifest.modeEntry reader) root dir
    pure (es.foldl insertMode c)
  | none => pure c

end Catalog

end CipherEngine
