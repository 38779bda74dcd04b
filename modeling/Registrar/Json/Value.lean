/-! # Values of JSON

Values and the text that they are written as, without blanks.
-/

namespace Registrar.Json

inductive Value
  | null
  | bool (b : Bool)
  | natural (n : Nat)
  | string (s : String)
  | array (values : List Value)
  | object (members : List (String × Value))

def hexPair (n : Nat) : List Char := [Nat.digitChar (n / 16), Nat.digitChar (n % 16)]

def encodeChar (c : Char) : List Char :=
  if c = '"' then ['\\', '"']
  else if c = '\\' then ['\\', '\\']
  else if c = '\x08' then ['\\', 'b']
  else if c = '\x0c' then ['\\', 'f']
  else if c = '\n' then ['\\', 'n']
  else if c = '\r' then ['\\', 'r']
  else if c = '\t' then ['\\', 't']
  else if c.toNat < 0x20 then '\\' :: 'u' :: '0' :: '0' :: hexPair c.toNat
  else [c]

def encodeString (s : String) : List Char := '"' :: s.toList.flatMap encodeChar ++ ['"']

def commaSeparated : List (List Char) → List Char
  | [] => []
  | [t] => t
  | t :: ts => t ++ ',' :: commaSeparated ts

namespace Value

mutual

def encode : Value → List Char
  | .null => ['n', 'u', 'l', 'l']
  | .bool true => ['t', 'r', 'u', 'e']
  | .bool false => ['f', 'a', 'l', 's', 'e']
  | .natural n => Nat.toDigits 10 n
  | .string s => encodeString s
  | .array values => '[' :: commaSeparated (encodeAll values) ++ [']']
  | .object members => '\x7b' :: commaSeparated (encodeMembers members) ++ ['\x7d']

def encodeAll : List Value → List (List Char)
  | [] => []
  | v :: vs => encode v :: encodeAll vs

def encodeMembers : List (String × Value) → List (List Char)
  | [] => []
  | (key, v) :: members => (encodeString key ++ ':' :: encode v) :: encodeMembers members

end

def render (v : Value) : String := String.ofList v.encode

end Value

end Registrar.Json
