import Doctest.Document.Marker
import Doctest.Files
import Doctest.ReturnSpec

namespace Doctest.Document

open Text (Line)

inductive Key
  | stdin : Key
  | stdout : Key
  | stderr : Key
  | ret : Key
  deriving DecidableEq

def Key.ofName? (name : Line) : Option Key :=
  if name = "stdin".toList then some .stdin
  else if name = "stdout".toList then some .stdout
  else if name = "stderr".toList then some .stderr
  else if name = "ret".toList ∨ name = "result".toList then some .ret
  else none

inductive Content
  | text : Line → Content
  | block : List Line → Content
  deriving DecidableEq

def Content.lines : Content → List Line
  | .text l => [l]
  | .block ls => ls

abbrev MetadataEntry := Key × Content

def blockWord : Line := "mlstr:".toList

def leadingBlock : List Line → List Line
  | [] => []
  | l :: ls =>
    match blockText? l with
    | some t => t :: leadingBlock ls
    | none => []

def entryAt (l : Line) (following : List Line) : Option MetadataEntry := do
  let (name, value) ← keyValue? l
  let key ← Key.ofName? name
  if key ≠ .ret ∧ Text.trim value = blockWord then return (key, .block (leadingBlock following))
  else return (key, .text value)

def entries : List Line → List MetadataEntry
  | [] => []
  | l :: ls =>
    match entryAt l ls with
    | some e => e :: entries ls
    | none => entries ls

def lastFor (key : Key) (es : List MetadataEntry) : Option Content :=
  ((es.filter (·.1 = key)).getLast?).map (·.2)

/-- The text that a metadata value stands for: that of a string in quotes, the content of the
regular file it names, or else the value itself without blanks around it. -/
def loadValue (fs : Files) (base : Path) (raw : Line) : String :=
  let value := Text.trim raw
  match value with
  | [] => ""
  | '"' :: _ => String.ofList (unquote value)
  | _ =>
    match fs.read (base.join ⟨String.ofList value⟩) with
    | .ok bytes => Text.Utf8.decodeString bytes
    | .error _ => String.ofList value

def Content.load (fs : Files) (base : Path) : Content → String
  | .text l => loadValue fs base l
  | .block ls => String.ofList (Text.joinLines ls)

def Content.returnSpec? : Content → Option ReturnSpec
  | .text l => ReturnSpec.parse l
  | .block _ => none

end Doctest.Document
