import Doctest.Attributes
import Doctest.Text.Escape

namespace Doctest

def normalizeNewlines (s : List Char) : List Char := Text.dropFinalLf (Text.unifyLineEnds s)

def Attributes.normalize (a : Attributes) (s : List Char) : List Char :=
  let s := if a.has .stripAnsi then Text.Escape.strip s else s
  if a.has .normalizeNewlines then normalizeNewlines s else s

def Attributes.normalizeString (a : Attributes) (s : String) : String :=
  String.ofList (a.normalize s.toList)

end Doctest
