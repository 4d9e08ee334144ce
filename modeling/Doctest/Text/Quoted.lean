import Doctest.Text.Visible

namespace Doctest.Text

def hexDigits (n : Nat) : List Char := Nat.toDigits 16 n

def quoteChar (visible : Char → Bool) (c : Char) : List Char :=
  match c with
  | '\x00' => ['\\', '0']
  | '\t' => ['\\', 't']
  | '\r' => ['\\', 'r']
  | '\n' => ['\\', 'n']
  | '"' => ['\\', '"']
  | '\\' => ['\\', '\\']
  | c => if visible c then [c] else ['\\', 'u', '{'] ++ hexDigits c.toNat ++ ['}']

def quote (s : List Char) : List Char :=
  '"' :: (s.flatMap (quoteChar isVisible) ++ ['"'])

def quoted (s : String) : String := String.ofList (quote s.toList)

end Doctest.Text
