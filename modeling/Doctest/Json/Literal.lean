namespace Doctest.Json.Literal

inductive Piece
  | char : Char → Piece
  | unit : Nat → Piece
  deriving DecidableEq

def hexValue? (c : Char) : Option Nat :=
  if '0' ≤ c ∧ c ≤ '9' then some (c.toNat - '0'.toNat)
  else if 'a' ≤ c ∧ c ≤ 'f' then some (c.toNat - 'a'.toNat + 10)
  else if 'A' ≤ c ∧ c ≤ 'F' then some (c.toNat - 'A'.toNat + 10)
  else none

def unit? (a b c d : Char) : Option Nat := do
  let high := (← hexValue? a) * 16 + (← hexValue? b)
  let low := (← hexValue? c) * 16 + (← hexValue? d)
  return high * 256 + low

def escape? : Char → Option Char
  | '"' => some '"'
  | '\\' => some '\\'
  | '/' => some '/'
  | 'b' => some '\x08'
  | 'f' => some '\x0c'
  | 'n' => some '\n'
  | 'r' => some '\r'
  | 't' => some '\t'
  | _ => none

def isPlain (c : Char) : Bool := 0x20 ≤ c.toNat && c != '"' && c != '\\'

def pieces? : List Char → Option (List Piece)
  | [] => some []
  | '\\' :: 'u' :: a :: b :: c :: d :: s => do
    let n ← unit? a b c d
    return .unit n :: (← pieces? s)
  | '\\' :: c :: s => do
    let e ← escape? c
    return .char e :: (← pieces? s)
  | c :: s => if isPlain c then return .char c :: (← pieces? s) else none

def isHigh (n : Nat) : Bool := 0xD800 ≤ n && n ≤ 0xDBFF

def isLow (n : Nat) : Bool := 0xDC00 ≤ n && n ≤ 0xDFFF

def join? : List Piece → Option (List Char)
  | [] => some []
  | .char c :: ps => do return c :: (← join? ps)
  | .unit hi :: .unit lo :: ps =>
    if isHigh hi ∧ isLow lo then do
      return Char.ofNat (0x10000 + (hi - 0xD800) * 0x400 + (lo - 0xDC00)) :: (← join? ps)
    else if isHigh hi ∨ isLow hi then none
    else do return Char.ofNat hi :: (← join? (.unit lo :: ps))
  | .unit n :: ps =>
    if isHigh n ∨ isLow n then none
    else do return Char.ofNat n :: (← join? ps)

def decode? (body : List Char) : Option (List Char) := do join? (← pieces? body)

def read? : List Char → Option (List Char)
  | '"' :: s => if s.getLast? = some '"' then decode? s.dropLast else none
  | _ => none

def split? : List Char → Option (List Char × List Char)
  | [] => none
  | '"' :: s => some ([], s)
  | '\\' :: c :: s => do
    let (body, rest) ← split? s
    return ('\\' :: c :: body, rest)
  | c :: s => do
    let (body, rest) ← split? s
    return (c :: body, rest)

def hexDigit (n : Nat) : Char := if n < 10 then Char.ofNat (48 + n) else Char.ofNat (87 + n)

def encodeChar : Char → List Char
  | '"' => ['\\', '"']
  | '\\' => ['\\', '\\']
  | '\x08' => ['\\', 'b']
  | '\x0c' => ['\\', 'f']
  | '\n' => ['\\', 'n']
  | '\r' => ['\\', 'r']
  | '\t' => ['\\', 't']
  | c =>
    if c.toNat < 0x20 then ['\\', 'u', '0', '0', hexDigit (c.toNat / 16), hexDigit (c.toNat % 16)]
    else [c]

def encode (s : List Char) : List Char := s.flatMap encodeChar

def write (s : List Char) : List Char := '"' :: (encode s ++ ['"'])

end Doctest.Json.Literal
