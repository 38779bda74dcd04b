import Registrar.Text.Cut
import Registrar.Text.Hex

/-! # Escapes

What stands behind a backslash in a string literal, a template or a word. Escapes stand for code
points, which may be halves of surrogate pairs.
-/

namespace Registrar.Module

open Registrar.Text

def isLineEnd (c : Char) : Bool :=
  c = '\n' || c = '\r' || c = '\u2028' || c = '\u2029'

def isOctalDigit (c : Char) : Bool := '0' ≤ c && c ≤ '7'

def startsWith (p : Char → Bool) (text : List Char) : Bool := text.head?.any p

def isSurrogate (n : Nat) : Bool := isHighSurrogate n || isLowSurrogate n

/-- The number in `count` hexadecimal digits, which underscores may set apart, and the characters
of it. -/
def hexDigits? (value width : Nat) : (count : Nat) → List Char → Option (Nat × Nat)
  | 0, _ => some (value, width)
  | _ + 1, [] => none
  | count + 1, c :: cs =>
    if c = '_' then hexDigits? value (width + 1) (count + 1) cs
    else (hexValue? c).bind fun d => hexDigits? (16 * value + d) (width + 1) count cs

/-- The number in braces, and the characters of it with the closing brace. A surrogate has four
digits. -/
def bracedNumber? (text : List Char) : Option (Nat × Nat) := do
  let digits := text.takeWhile (· ≠ '\x7d')
  let n ← hexNumber? (digits.filter (· ≠ '_'))
  guard (digits.length < text.length && n ≤ 0x10ffff)
  if isSurrogate n then
    let (_, width) ← hexDigits? 0 0 4 digits
    guard (width = digits.length)
  return (n, digits.length + 1)

def codePoint? : List Char → Option (Nat × Nat)
  | '\x7b' :: cs => (bracedNumber? cs).map fun (n, width) => (n, width + 1)
  | cs => hexDigits? 0 0 4 cs

/-- What an escape behind its `\u` stands for, latest code point first, and the characters of it.
A high surrogate takes the digits of an escape behind it along if they are a low one. -/
def unicodeEscape? (text : List Char) : Option (List Nat × Nat) := do
  let (n, width) ← codePoint? text
  if isHighSurrogate n then
    match text.drop width with
    | '\\' :: 'u' :: cs =>
      let (m, more) ← hexDigits? 0 0 4 cs
      return if isLowSurrogate m then ([m, n], width + 2 + more) else ([n], width)
    | _ => return ([n], width)
  return ([n], width)

/-- What an escape behind its backslash stands for, latest code point first, and the characters of
it. An escaped line end stands for nothing. -/
def escape? : List Char → Option (List Nat × Nat)
  | [] => none
  | '\r' :: '\n' :: _ => some ([], 2)
  | 'x' :: cs => (hexDigits? 0 0 2 cs).map fun (n, width) => ([n], width + 1)
  | 'u' :: cs => (unicodeEscape? cs).map fun (points, width) => (points, width + 1)
  | c :: cs =>
    if isLineEnd c then some ([], 1)
    else if isOctalDigit c then
      let digits := (c :: cs.take (if c ≤ '3' then 2 else 1)).takeWhile isOctalDigit
      some ([digits.foldl (fun n d => 8 * n + (d.toNat - '0'.toNat)) 0], digits.length)
    else match c with
      | 'n' => some (['\n'.toNat], 1)
      | 't' => some (['\t'.toNat], 1)
      | 'r' => some (['\r'.toNat], 1)
      | 'b' => some ([8], 1)
      | 'f' => some ([12], 1)
      | 'v' => some ([11], 1)
      | _ => some ([c.toNat], 1)

/-- Whether the escape that begins behind a backslash may stand in a template. Of octal numbers
only zero may, and no digit behind it. -/
def isTemplateEscape : List Char → Bool
  | [] => false
  | '0' :: cs => !startsWith Char.isDigit cs
  | c :: cs => !isOctalDigit c && (escape? (c :: cs)).isSome

/-- Join the halves of surrogate pairs; `none` if a half is alone. -/
def joinSurrogates : List Nat → Option (List Char)
  | [] => some []
  | n :: ns =>
    if isHighSurrogate n then
      match ns with
      | m :: ms =>
        if isLowSurrogate m then
          (joinSurrogates ms).map (ofSurrogates n m :: ·)
        else none
      | [] => none
    else if isLowSurrogate n then none
    else (joinSurrogates ns).map (Char.ofNat n :: ·)

end Registrar.Module
