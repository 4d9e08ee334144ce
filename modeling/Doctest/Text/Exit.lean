import Doctest.Text.Blank
import Doctest.Text.Digit

namespace Doctest.Text.Exit

/-- Whether a character is a lower-case letter or one that folds to it. The long s folds to s. -/
def folds (letter c : Char) : Bool := c.toLower == letter || (letter == 's' && c == 'ſ')

def afterWord? : List Char → List Char → Option (List Char)
  | [], s => some s
  | letter :: word, c :: s => if folds letter c then afterWord? word s else none
  | _ :: _, [] => none

def afterColon : List Char → List Char
  | ':' :: s => s
  | s => s

def number? (s : List Char) : Option (List Char) :=
  let (sign, rest) := match s with
    | '-' :: rest => (['-'], rest)
    | rest => ([], rest)
  let digits := rest.takeWhile isDigit
  if digits.isEmpty then none else some (sign ++ digits)

def phrase? (s : List Char) : Option (List Char) := do
  let rest ← afterWord? "exit ".toList s
  let rest ← afterWord? "status".toList rest <|> afterWord? "code".toList rest
  number? (trimStart (afterColon rest))

def find? : List Char → Option (List Char)
  | [] => none
  | c :: s => phrase? (c :: s) <|> find? s

end Doctest.Text.Exit
