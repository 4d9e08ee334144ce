import Doctest.Attributes
import Doctest.Text.Blank
import Doctest.Text.Line

namespace Doctest.Document

open Text (Line)

def declarationWord : Line := "neplg2:test".toList

def bracketed? (s : Line) : Option Line :=
  match Text.trimEnd s with
  | '[' :: t => if t.getLast? = some ']' then some t.dropLast else none
  | _ => none

def declaration? (l : Line) : Option Attributes := do
  let rest ← Text.after? declarationWord l
  if (Text.trimEnd rest).isEmpty then return Attributes.parse []
  else return Attributes.parse (← bracketed? rest)

def isKeyChar (c : Char) : Bool := ('a' ≤ c && c ≤ 'z') || ('A' ≤ c && c ≤ 'Z') || c == '_'

def keyValue? (l : Line) : Option (Line × Line) :=
  let s := Text.trimStart l
  let key := s.takeWhile isKeyChar
  if key.isEmpty then none
  else match Text.trimStart (s.dropWhile isKeyChar) with
    | ':' :: value => some (key, Text.trimStart value)
    | _ => none

def dropBlank : Line → Line
  | [] => []
  | c :: s => if Text.isBlank c then s else c :: s

def blockMark : Line := "##:".toList

def blockText? (l : Line) : Option Line :=
  (Text.after? blockMark (Text.trimStart l)).map dropBlank

def fenceMark : Line := "```".toList

def isFence (l : Line) : Bool := fenceMark.isPrefixOf l

def isFenceInfoChar (c : Char) : Bool := !Text.isBlank c && c != '\x60'

/-- A fence that may open code: after it stands one word at most, without a backquote. -/
def opensFence (l : Line) : Bool :=
  match Text.after? fenceMark l with
  | some rest => (rest.dropWhile isFenceInfoChar).all Text.isBlank
  | none => false

def hiddenMark : Line := "//:|".toList

def reveal (l : Line) : Line :=
  match Text.after? hiddenMark (Text.trimStart l) with
  | some rest => dropBlank rest
  | none => l

def commentMark : Line := "//:".toList

def comment? (l : Line) : Option Line := (Text.after? commentMark l).map Text.trimEnd

end Doctest.Document
