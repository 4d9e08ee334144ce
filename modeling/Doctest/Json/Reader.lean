import Doctest.Json.Value

/-! Reading JSON text. An error is either an early end of the text, with what was being read then,
or a character that cannot stand where it does. -/

namespace Doctest.Json

inductive Place
  | value : Place
  | string : Place
  | list : Place
  | object : Place
  deriving DecidableEq

inductive ReadError
  | ended : Place → ReadError
  | misplaced : ReadError
  deriving DecidableEq

def isSpace (c : Char) : Bool := c == ' ' || c == '\t' || c == '\n' || c == '\r'

def skipSpace (s : List Char) : List Char := s.dropWhile isSpace

def readWord (word : List Char) (v : Value) (s : List Char) :
    Except ReadError (Value × List Char) :=
  if word.isPrefixOf s then .ok (v, s.drop word.length)
  else if s.isPrefixOf word then .error (.ended .value)
  else .error .misplaced

def digits? (s : List Char) : Option (List Char × List Char) :=
  let ds := s.takeWhile Text.isAsciiDigit
  if ds.isEmpty then none else some (ds, s.dropWhile Text.isAsciiDigit)

def readFraction (s : List Char) : Option (List Char × List Char) :=
  match s with
  | '.' :: rest => (digits? rest).map fun (ds, rest) => ('.' :: ds, rest)
  | _ => some ([], s)

def readExponent (s : List Char) : Option (List Char × List Char) :=
  match s with
  | c :: rest =>
    if c = 'e' ∨ c = 'E' then
      match rest with
      | sign :: rest' =>
        if sign = '+' ∨ sign = '-' then
          (digits? rest').map fun (ds, rest) => (c :: sign :: ds, rest)
        else (digits? rest).map fun (ds, rest) => (c :: ds, rest)
      | [] => none
    else some ([], s)
  | [] => some ([], s)

def readWhole (s : List Char) : Option (List Char × List Char) := do
  let (ds, rest) ← digits? s
  if ds.head? = some '0' ∧ 1 < ds.length then none else return (ds, rest)

def readNumber (s : List Char) : Except ReadError (Value × List Char) :=
  let (sign, start) := match s with
    | '-' :: rest => (['-'], rest)
    | rest => ([], rest)
  let number := do
    let (whole, rest) ← readWhole start
    let (fraction, rest) ← readFraction rest
    let (exponent, rest) ← readExponent rest
    return (Value.number (String.ofList (sign ++ whole ++ fraction ++ exponent)), rest)
  match number with
  | some r => .ok r
  | none => .error .misplaced

def readString (s : List Char) : Except ReadError (String × List Char) :=
  match Literal.split? s with
  | none => .error (.ended .string)
  | some (body, rest) =>
    if (Literal.pieces? body).isSome then .ok (String.ofList body, rest) else .error .misplaced

mutual

def readValue : Nat → List Char → Except ReadError (Value × List Char)
  | 0, _ => .error .misplaced
  | fuel + 1, s =>
    match skipSpace s with
    | [] => .error (.ended .value)
    | 'n' :: rest => readWord "null".toList .null ('n' :: rest)
    | 't' :: rest => readWord "true".toList (.bool true) ('t' :: rest)
    | 'f' :: rest => readWord "false".toList (.bool false) ('f' :: rest)
    | '"' :: rest => do
      let (body, rest) ← readString rest
      return (.string body, rest)
    | '[' :: rest =>
      match skipSpace rest with
      | ']' :: rest => .ok (.array [], rest)
      | [] => .error (.ended .list)
      | rest => do
        let (items, rest) ← readItems fuel rest
        return (.array items, rest)
    | '\x7b' :: rest =>
      match skipSpace rest with
      | '\x7d' :: rest => .ok (.object [], rest)
      | [] => .error (.ended .object)
      | rest => do
        let (fields, rest) ← readFields fuel rest
        return (.object fields, rest)
    | rest => readNumber rest

def readItems : Nat → List Char → Except ReadError (List Value × List Char)
  | 0, _ => .error .misplaced
  | fuel + 1, s => do
    let (item, rest) ← readValue fuel s
    match skipSpace rest with
    | ',' :: rest =>
      let (items, rest) ← readItems fuel rest
      return (item :: items, rest)
    | ']' :: rest => return ([item], rest)
    | [] => .error (.ended .list)
    | _ => .error .misplaced

def readFields : Nat → List Char → Except ReadError (List (String × Value) × List Char)
  | 0, _ => .error .misplaced
  | fuel + 1, s =>
    match skipSpace s with
    | '"' :: rest => do
      let (key, rest) ← readString rest
      match skipSpace rest with
      | ':' :: rest =>
        let (value, rest) ← readValue fuel rest
        match skipSpace rest with
        | ',' :: rest =>
          let (fields, rest) ← readFields fuel rest
          return ((key, value) :: fields, rest)
        | '\x7d' :: rest => return ([(key, value)], rest)
        | [] => .error (.ended .object)
        | _ => .error .misplaced
      | [] => .error (.ended .object)
      | _ => .error .misplaced
    | [] => .error (.ended .value)
    | _ => .error .misplaced

end

def Value.ofChars? (s : List Char) : Except ReadError Value := do
  let (v, rest) ← readValue (s.length + 1) s
  if (skipSpace rest).isEmpty then .ok v else .error .misplaced

def Value.parse? (s : String) : Option Value := (Value.ofChars? s.toList).toOption

def Place.noun : Place → String
  | .value => "a value"
  | .string => "a string"
  | .list => "a list"
  | .object => "an object"

/-- The message for an error in a text. An early end is found after the text's last byte. -/
def ReadError.message (text : List Char) : ReadError → String
  | .ended place =>
    let before := text.count '\n'
    let last := (text.reverse.takeWhile (· ≠ '\n')).reverse
    s!"EOF while parsing {place.noun} at line {before + 1} column {(Text.Utf8.encode last).length}"
  | .misplaced => "unexpected character"

end Doctest.Json
