import Registrar.Decimal.Shortest
import Registrar.Json.Place
import Registrar.Text.Quoted

/-! # Faults of a JSON text

A text may break the grammar, or hold a value of another kind than the one that is wanted.
-/

namespace Registrar.Json

/-- A number, as far as its size lets it be kept exactly. -/
inductive Number
  | natural (n : Nat)
  | negative (n : Nat)
  | floating (x : Float)

inductive Found
  | null
  | bool (b : Bool)
  | number (n : Number)
  | string (s : String)
  | sequence
  | map

inductive Cause
  | endInValue
  | endInObject
  | endInList
  | endInString
  | expectedValue
  | expectedWord
  | expectedColon
  | expectedCommaOrBrace
  | expectedCommaOrBracket
  | keyNoString
  | trailingComma
  | trailingCharacters
  | invalidNumber
  | numberOutOfRange
  | invalidEscape
  | loneSurrogate
  | endInSurrogates
  | controlCharacter
  | wrongKind (found : Found) (wanted : String)
  | negativeNumber (n : Nat) (wanted : String)
  | repeatedKey (key : String)

structure Fault where
  cause : Cause
  place : Place

/-- Finite numbers are written positionally from `1e-5` up to below `1e16`, with at least one
digit behind the point, and with an exponent otherwise. -/
def positional (exponent : Int) : Bool := -5 ≤ exponent && exponent ≤ 15

def exponentText (exponent : Int) : String :=
  "e" ++ (if exponent < 0 then "-" else "+") ++ toString exponent.natAbs

/-- The text of a decimal whose digits are `digits` and whose first digit has this exponent. -/
def decimalText (digits : List Char) (exponent : Int) : List Char :=
  let zeros (n : Nat) := List.replicate n '0'
  if positional exponent then
    if exponent < 0 then '0' :: '.' :: zeros ((-exponent).toNat - 1) ++ digits
    else
      let whole := exponent.toNat + 1
      let padded := digits ++ zeros (whole + 1 - digits.length)
      padded.take whole ++ '.' :: padded.drop whole
  else
    let mantissa := match digits with
      | d :: [] => [d]
      | d :: ds => d :: '.' :: ds
      | [] => []
    mantissa ++ (exponentText exponent).toList

def floatText (x : Float) : String :=
  let sign := if x.toBits.toNat / 0x8000000000000000 = 1 then "-" else ""
  let b := Decimal.Binary.ofFloat x
  if b.significand = 0 then sign ++ "0.0"
  else
    let d := b.shortest
    let all := Nat.toDigits 10 d.digits
    let digits := (all.reverse.dropWhile (· = '0')).reverse
    sign ++ String.ofList (decimalText digits (d.exponent + all.length - 1))

def Number.text : Number → String
  | .natural n => "integer `" ++ toString n ++ "`"
  | .negative n => "integer `-" ++ toString n ++ "`"
  | .floating x => "floating point `" ++ floatText x ++ "`"

def Found.text : Found → String
  | .null => "null"
  | .bool b => "boolean `" ++ toString b ++ "`"
  | .number n => n.text
  | .string s => "string " ++ Text.quoteText s
  | .sequence => "sequence"
  | .map => "map"

def Cause.message : Cause → String
  | .endInValue => "EOF while parsing a value"
  | .endInObject => "EOF while parsing an object"
  | .endInList => "EOF while parsing a list"
  | .endInString => "EOF while parsing a string"
  | .expectedValue => "expected value"
  | .expectedWord => "expected ident"
  | .expectedColon => "expected `:`"
  | .expectedCommaOrBrace => "expected `,` or `\x7d`"
  | .expectedCommaOrBracket => "expected `,` or `]`"
  | .keyNoString => "key must be a string"
  | .trailingComma => "trailing comma"
  | .trailingCharacters => "trailing characters"
  | .invalidNumber => "invalid number"
  | .numberOutOfRange => "number out of range"
  | .invalidEscape => "invalid escape"
  | .loneSurrogate => "lone leading surrogate in hex escape"
  | .endInSurrogates => "unexpected end of hex escape"
  | .controlCharacter => "control character (\\u0000-\\u001F) found while parsing a string"
  | .wrongKind found wanted => "invalid type: " ++ found.text ++ ", expected " ++ wanted
  | .negativeNumber n wanted =>
    "invalid value: integer `-" ++ toString n ++ "`, expected " ++ wanted
  | .repeatedKey key => "duplicate field `" ++ key ++ "`"

def Fault.message (fault : Fault) : String :=
  fault.cause.message ++ " at line " ++ toString fault.place.line ++ " column " ++
    toString fault.place.column

end Registrar.Json
