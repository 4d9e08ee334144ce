import Doctest.Json.Value

namespace Doctest.Json.Value

mutual

def compact : Value → String
  | .null => "null"
  | .bool b => if b then "true" else "false"
  | .number digits => digits
  | .string body => "\"" ++ body ++ "\""
  | .array items => "[" ++ ",".intercalate (compactItems items) ++ "]"
  | .object fields => "\x7b" ++ ",".intercalate (compactFields fields) ++ "\x7d"

def compactItems : List Value → List String
  | [] => []
  | v :: vs => v.compact :: compactItems vs

def compactFields : List (String × Value) → List String
  | [] => []
  | (key, v) :: fields => ("\"" ++ key ++ "\":" ++ v.compact) :: compactFields fields

end

def newLine (depth : Nat) : String := "\n" ++ "".pushn ' ' (2 * depth)

mutual

def pretty (depth : Nat) : Value → String
  | .null => "null"
  | .bool b => if b then "true" else "false"
  | .number digits => digits
  | .string body => "\"" ++ body ++ "\""
  | .array [] => "[]"
  | .array (v :: vs) =>
    "[" ++ ",".intercalate (prettyItems (depth + 1) (v :: vs)) ++ newLine depth ++ "]"
  | .object [] => "\x7b\x7d"
  | .object (f :: fs) =>
    "\x7b" ++ ",".intercalate (prettyFields (depth + 1) (f :: fs)) ++ newLine depth ++ "\x7d"

def prettyItems (depth : Nat) : List Value → List String
  | [] => []
  | v :: vs => (newLine depth ++ v.pretty depth) :: prettyItems depth vs

def prettyFields (depth : Nat) : List (String × Value) → List String
  | [] => []
  | (key, v) :: fields =>
    (newLine depth ++ "\"" ++ key ++ "\": " ++ v.pretty depth) :: prettyFields depth fields

end

end Doctest.Json.Value
