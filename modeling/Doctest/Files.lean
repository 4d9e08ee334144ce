import Doctest.Path
import Doctest.Text.Utf8

/-! A tree of files as seen from a working directory. A location is the names from the root down;
every location that leads to an entry is a directory. -/

namespace Doctest

abbrev Location := List String

inductive Entry
  | file : List UInt8 → Entry
  | directory : Entry
  deriving DecidableEq

inductive FileError
  | notFound : FileError
  | alreadyThere : FileError
  | notDirectory : FileError
  | isDirectory : FileError
  | invalidName : FileError
  | invalidText : FileError
  | noRoot : FileError
  deriving DecidableEq

def FileError.message : FileError → String
  | .notFound => "No such file or directory (os error 2)"
  | .alreadyThere => "File exists (os error 17)"
  | .notDirectory => "Not a directory (os error 20)"
  | .isDirectory => "Is a directory (os error 21)"
  | .invalidName => "file name contained an unexpected NUL byte"
  | .invalidText => "stream did not contain valid UTF-8"
  | .noRoot => "failed to create whole tree"

structure Files where
  entries : List (Location × Entry)
  workingDir : Location

namespace Files

def entryAt (fs : Files) (loc : Location) : Option Entry :=
  if loc.isEmpty then some .directory
  else match fs.entries.find? (·.1 = loc) with
    | some (_, e) => some e
    | none => if fs.entries.any (loc.isPrefixOf ·.1) then some .directory else none

def enter (fs : Files) (loc : Location) : Except FileError Location :=
  match fs.entryAt loc with
  | some .directory => .ok loc
  | some (.file _) => .error .notDirectory
  | none => .error .notFound

def follow (fs : Files) (loc : Location) : List (List Char) → Except FileError Location
  | [] => .ok loc
  | piece :: pieces => do
    let loc ← fs.enter loc
    let next :=
      if piece = ['.'] then loc
      else if piece = ['.', '.'] then loc.dropLast
      else loc ++ [String.ofList piece]
    fs.follow next pieces

def endsInSlash (p : Path) : Bool := p.text.toList.getLast? == some '/'

def piecesOf (p : Path) : List (List Char) := (Text.splitOn '/' p.text.toList).filter (· ≠ [])

def start (fs : Files) (p : Path) : Location := if p.isAbsolute then [] else fs.workingDir

def locate (fs : Files) (p : Path) : Except FileError Location :=
  if p.text.toList.contains '\x00' then .error .invalidName
  else if p.text.isEmpty then .error .notFound
  else fs.follow (fs.start p) (piecesOf p)

def resolve (fs : Files) (p : Path) : Except FileError Location := do
  let loc ← fs.locate p
  if endsInSlash p then fs.enter loc else .ok loc

def lookup (fs : Files) (p : Path) : Except FileError Entry := do
  let loc ← fs.resolve p
  match fs.entryAt loc with
  | some e => .ok e
  | none => .error .notFound

def isPresent (fs : Files) (p : Path) : Bool := (fs.lookup p).toOption.isSome

def isFile (fs : Files) (p : Path) : Bool :=
  match fs.lookup p with
  | .ok (.file _) => true
  | _ => false

def isDirectory (fs : Files) (p : Path) : Bool :=
  match fs.lookup p with
  | .ok .directory => true
  | _ => false

def read (fs : Files) (p : Path) : Except FileError (List UInt8) := do
  match ← fs.lookup p with
  | .file bytes => .ok bytes
  | .directory => .error .isDirectory

def readText (fs : Files) (p : Path) : Except FileError (List Char) := do
  match Text.Utf8.decode? (← fs.read p) with
  | some s => .ok s
  | none => .error .invalidText

def childName? (loc other : Location) : Option String :=
  if loc.isPrefixOf other then other[loc.length]? else none

def list (fs : Files) (p : Path) : Except FileError (List String) := do
  let loc ← fs.resolve p
  let loc ← fs.enter loc
  return (fs.entries.filterMap fun e => childName? loc e.1).eraseDups

def put (fs : Files) (loc : Location) (e : Entry) : Files :=
  { fs with entries := (loc, e) :: fs.entries.filter (·.1 ≠ loc) }

/-- A slash at the end names no file to be made, even where there is one without the slash. -/
def write (fs : Files) (p : Path) (bytes : List UInt8) : Except FileError Files := do
  let loc ← fs.locate p
  if endsInSlash p ∨ fs.entryAt loc = some .directory then .error .isDirectory
  else .ok (fs.put loc (.file bytes))

def makeDirectory (fs : Files) (p : Path) : Except FileError Files := do
  let loc ← fs.locate p
  match fs.entryAt loc with
  | some _ => .error .alreadyThere
  | none => .ok (fs.put loc .directory)

abbrev Change (ε α : Type) := EStateM ε Files α

def ensureDirectory (p : Path) : Change FileError Unit := fun fs =>
  match fs.makeDirectory p with
  | .ok fs => .ok () fs
  | .error e => if fs.isDirectory p then .ok () fs else .error e fs

/-- Makes a directory and all that lead to it, no more of them than the path has characters. -/
def makeDirectoriesWithin : Nat → Path → Change FileError Unit
  | 0, _ => pure ()
  | fuel + 1, p => fun fs =>
    if p.text.isEmpty then .ok () fs
    else match fs.makeDirectory p, p.parent? with
      | .error .notFound, some parent =>
        (do makeDirectoriesWithin fuel parent; ensureDirectory p : Change FileError Unit) fs
      | .error .notFound, none => .error .noRoot fs
      | _, _ => ensureDirectory p fs

def makeDirectories (p : Path) : Change FileError Unit :=
  makeDirectoriesWithin (p.text.length + 1) p

end Files

end Doctest
