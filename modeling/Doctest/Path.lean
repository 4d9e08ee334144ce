import Doctest.Text.Line

/-! Paths. A path keeps its text as it was given and is read as a list of steps; repeated slashes
and dots inside it take no step. -/

namespace Doctest

structure Path where
  text : String
  deriving DecidableEq, Inhabited

namespace Path

inductive Step
  | root : Step
  | here : Step
  | up : Step
  | name : String → Step
  deriving DecidableEq

def isFiller (piece : List Char) : Bool := piece == [] || piece == ['.']

def stepOf (piece : List Char) : Step :=
  if piece = ['.', '.'] then .up else .name (String.ofList piece)

/-- A dot takes a step only at the very start of a relative path. -/
def stepsOf (text : List Char) : List Step :=
  let pieces := Text.splitOn '/' text
  let start := match text, pieces with
    | '/' :: _, _ => [Step.root]
    | _, ['.'] :: _ => [Step.here]
    | _, _ => []
  start ++ (pieces.filter (!isFiller ·)).map stepOf

def steps (p : Path) : List Step := stepsOf p.text.toList

def isAbsolute (p : Path) : Bool := p.text.toList.head? == some '/'

def join (p q : Path) : Path :=
  if q.isAbsolute then q
  else match p.text.toList.getLast? with
    | none => q
    | some '/' => ⟨p.text ++ q.text⟩
    | some _ => ⟨p.text ++ "/" ++ q.text⟩

def fileName? (p : Path) : Option String :=
  match p.steps.getLast? with
  | some (.name n) => some n
  | _ => none

def splitStart : List Char → List Char × List Char
  | '/' :: s => (['/'], s)
  | ['.'] => (['.'], [])
  | '.' :: '/' :: s => (['.'], '/' :: s)
  | s => ([], s)

/-- The text of the path less its last step; the root and the empty path have none to lose. -/
def parent? (p : Path) : Option Path :=
  let (start, body) := splitStart p.text.toList
  match (Text.splitOn '/' body).reverse.dropWhile isFiller with
  | [] => if start = ['.'] then some ⟨""⟩ else none
  | _ :: pieces =>
    let kept := (pieces.dropWhile isFiller).reverse
    some ⟨String.ofList (start ++ Text.joinWith ['/'] kept)⟩

def stepText : Step → List Char
  | .root => []
  | .here => ['.']
  | .up => ['.', '.']
  | .name n => n.toList

def ofSteps : List Step → Path
  | [.root] => ⟨"/"⟩
  | steps => ⟨String.ofList (Text.joinWith ['/'] (steps.map stepText))⟩

/-- One step put at the end of steps that are already in order. A step up takes back the step
before it, and stays where there is none or only the root. -/
def pushStep (done : List Step) : Step → List Step
  | .here => done
  | .up => if done = [] ∨ done = [.root] then done ++ [.up] else done.dropLast
  | s => done ++ [s]

def normalize (p : Path) : Path := ofSteps (p.steps.foldl pushStep [])

def endsWith (p q : Path) : Bool := q.steps.isSuffixOf p.steps

end Path

end Doctest
