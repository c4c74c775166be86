import Keeper.Fault
import Keeper.Files.Path

/-!
# Keeper — file trees

What the program knows of the files around it: what stands at each place, and the working directory.
Written paths are followed name by name, and every name but the last must be a directory's.

* **`Tree.find?`** — what stands at a place.
* **`Tree.locate`** — the place of a written path.
* **`Tree.bytes`**, **`Tree.text`** — the content of a file; line ends of any kind become newlines.
* **`Tree.makeDirectories`**, **`Tree.touch`**, **`Tree.append`** — the changes the program makes.
-/

namespace Keeper.Files

inductive Entry where
  | file (content : List UInt8)
  | directory
deriving DecidableEq, Repr

/-- Files and directories below a top, and the working directory. -/
structure Tree where
  entries : List (Path × Entry) := []
  here : Path := []
deriving Repr

/-- Line ends of any kind as newlines. -/
def unixLines : List Char → List Char
  | '\r' :: '\n' :: cs => '\n' :: unixLines cs
  | '\r' :: cs => '\n' :: unixLines cs
  | c :: cs => c :: unixLines cs
  | [] => []

namespace Tree

/-- What stands at a place; the top is a directory. -/
def find? (t : Tree) (p : Path) : Option Entry :=
  if p.isEmpty then some .directory else t.entries.lookup p

def put (t : Tree) (p : Path) (e : Entry) : Tree :=
  { t with entries := (p, e) :: t.entries.filter (·.1 != p) }

def checkText (s : Text) : Except Fault Unit :=
  match Text.Utf8.systemBytes s with
  | .error gap => .error (.unencodable gap)
  | .ok bytes =>
    if s.contains '\x00' then .error (.badValue .nullByte)
    else if pathLimit < bytes.length then .error (.misuse .badName)
    else .ok ()

def checkName (name : Text) : Except Fault Unit :=
  if (Text.Utf8.systemBytes name).toOption.any fun bytes => nameLimit < bytes.length then
    .error (.misuse .badName)
  else .ok ()

def follow (t : Tree) : Path → List Text → Except Fault Path
  | p, [] => .ok p
  | p, name :: rest => do
    match t.find? p with
    | none => throw (.misuse .missingFile)
    | some (.file _) => throw (.misuse .notADirectory)
    | some .directory =>
      checkName name
      follow t (p.step name) rest

/-- The place of a written path; there need not be anything. -/
def locate (t : Tree) (s : Text) : Except Fault Path := do
  checkText s
  if s.isEmpty then throw (.misuse .missingFile)
  t.follow (start t.here s) (names s)

def at? (t : Tree) (s : Text) : Option Entry :=
  match t.locate s with
  | .ok p => t.find? p
  | .error _ => none

def bytes (t : Tree) (s : Text) : Except Fault (List UInt8) := do
  match t.find? (← t.locate s) with
  | some (.file content) => return content
  | some .directory => throw (.misuse .isDirectory)
  | none => throw (.misuse .missingFile)

def text (t : Tree) (s : Text) : Except Fault (List Char) := do
  match Text.Utf8.decode (← t.bytes s) with
  | .ok cs => return unixLines cs
  | .error failure => throw (.undecodable failure)

def makeWay (t : Tree) : Path → List Text → Except Fault Tree
  | _, [] => .ok t
  | p, name :: rest => do
    checkName name
    let p := p.step name
    match t.find? p with
    | none => makeWay (t.put p .directory) p rest
    | some .directory => makeWay t p rest
    | some (.file _) => throw (.misuse (if rest.all Text.isEmpty then .fileExists else .notADirectory))

/-- Makes a directory and those above it, where they are missing. -/
def makeDirectories (t : Tree) (s : Text) : Except Fault Tree := do
  checkText s
  if s.isEmpty then throw (.misuse .missingFile)
  t.makeWay (start t.here s) (names s)

def touch (t : Tree) (s : Text) : Except Fault Tree := do
  let p ← t.locate s
  match t.find? p with
  | some (.file _) => return t
  | some .directory => throw (.misuse .isDirectory)
  | none => return t.put p (.file [])

def append (t : Tree) (p : Path) (content : List UInt8) : Tree :=
  match t.find? p with
  | some (.file before) => t.put p (.file (before ++ content))
  | _ => t

def putDirectory (t : Tree) (p : Path) : Tree :=
  p.upward.foldl (fun t q => if (t.find? q).isSome then t else t.put q .directory) t

def putFile (t : Tree) (p : Path) (content : List UInt8) : Tree :=
  (t.putDirectory p.dropLast).put p (.file content)

end Tree

end Keeper.Files
