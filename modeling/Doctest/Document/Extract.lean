import Doctest.Document.Section
import Doctest.TestCase

namespace Doctest

open Document (Section MissingFence)

inductive ExtractError
  | missingFence : Path → Nat → ExtractError
  | unreadable : Path → FileError → ExtractError
  deriving DecidableEq

def ExtractError.message : ExtractError → String
  | .missingFence p line => s!"doctest missing fence in {p.text} around line {line}"
  | .unreadable p e => s!"failed to read {p.text}: {e.message}"

def Origin.ofPath? (p : Path) : Option Origin := do
  let name ← p.fileName?
  if ".n.md".toList.isSuffixOf name.toList then some .fencedBlock
  else if ".nepl".toList.isSuffixOf name.toList then some .commentBlock
  else none

namespace Document

def baseOf (p : Path) : Path := p.parent?.getD ⟨"."⟩

def Section.toTest (s : Section) (fs : Files) (p : Path) (origin : Origin) (ordinal : Nat) :
    TestCase :=
  let es := entries s.metadata
  let file := p.fileName?.getD ""
  let text key := (lastFor key es).map (Content.load fs (baseOf p))
  { origin
    sourceFile := p.text
    name := s!"{origin.tag}:{file}:{ordinal}"
    line := s.line
    attributes := s.attributes
    stdin := text .stdin
    stdout := text .stdout
    stderr := text .stderr
    ret := (lastFor .ret es).bind Content.returnSpec?
    code := String.ofList s.code }

def sections (content : List Char) : Origin → Except MissingFence (List Section)
  | .commentBlock =>
    .ok (commentSections content 1 (leadingComment (Text.lines content)))
  | .fencedBlock => fencedSections 1 (Text.lines content)

end Document

def extractTests (fs : Files) (p : Path) (content : List Char) (origin : Origin) :
    Except ExtractError (List TestCase) :=
  match Document.sections content origin with
  | .ok ss => .ok (ss.mapIdx fun i s => s.toTest fs p origin i)
  | .error e => .error (.missingFence p e.line)

def extractFile (fs : Files) (p : Path) : Except ExtractError (List TestCase) :=
  match Origin.ofPath? p with
  | none => .ok []
  | some origin =>
    match fs.readText p with
    | .error e => .error (.unreadable p e)
    | .ok content => extractTests fs p content origin

end Doctest
