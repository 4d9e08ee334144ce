import Doctest.Text.Blank
import Doctest.Text.Line

namespace Doctest

structure Attributes where
  tags : List String
  deriving DecidableEq, Inhabited

namespace Attributes

inductive Tag
  | compileFail : Tag
  | compileOk : Tag
  | shouldPanic : Tag
  | skip : Tag
  | stripAnsi : Tag
  | normalizeNewlines : Tag
  deriving DecidableEq

def Tag.name : Tag → String
  | .compileFail => "compile_fail"
  | .compileOk => "compile_ok"
  | .shouldPanic => "should_panic"
  | .skip => "skip"
  | .stripAnsi => "strip_ansi"
  | .normalizeNewlines => "normalize_newlines"

def Tag.all : List Tag :=
  [.compileFail, .compileOk, .shouldPanic, .skip, .stripAnsi, .normalizeNewlines]

def insertTag (tag : String) : List String → List String
  | [] => [tag]
  | t :: ts =>
    if tag < t then tag :: t :: ts
    else if tag = t then t :: ts
    else t :: insertTag tag ts

def ofTags (tags : List String) : Attributes := ⟨tags.foldr insertTag []⟩

def parse (text : List Char) : Attributes :=
  let entries := (Text.splitOn ',' text).map Text.trim
  ofTags ((entries.filter (!·.isEmpty)).map String.ofList)

def has (a : Attributes) (tag : Tag) : Bool := a.tags.contains tag.name

end Attributes

end Doctest
