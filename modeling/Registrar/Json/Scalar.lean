import Registrar.Json.Fault
import Registrar.Text.Hex

/-! # Reading scalars of JSON

A reader moves a cursor over the text. A value that is wanted is read in full; one that is not is
only skipped, which leaves surrogates unpaired and numbers of any size.
-/

namespace Registrar.Json

open Registrar.Text

abbrev Reader := StateT Cursor (Except Fault)

def isBlank (c : Char) : Bool := c = ' ' || c = '\n' || c = '\t' || c = '\r'

def Cursor.skipWhile (p : Char → Bool) (c : Cursor) : Cursor := go c.place c.rest
where
  go (place : Place) : List Char → Cursor
    | [] => ⟨place, []⟩
    | x :: xs => if p x then go (place.advance x) xs else ⟨place, x :: xs⟩

namespace Reader

def fail {α : Type} (cause : Cause) : Reader α := fun c => .error ⟨cause, c.place⟩

def failNext {α : Type} (cause : Cause) : Reader α := fun c => .error ⟨cause, c.peekPlace⟩

def peek : Reader (Option Char) := fun c => .ok (c.rest.head?, c)

def advance : Reader Unit := fun c => .ok ((), c.skip 1)

def skipBlanks : Reader Unit := fun c => .ok ((), c.skipWhile isBlank)

def peekToken : Reader (Option Char) := do
  skipBlanks
  peek

/-- The rest of a word whose first character has been passed. -/
def word : List Char → Reader Unit
  | [] => pure ()
  | x :: xs => do
    match ← peek with
    | none => fail .endInValue
    | some c =>
      if c = x then advance; word xs
      else failNext .expectedWord

/-! ## Strings -/

def hexEscape (place : Place) (text : List Char) : Except Fault Nat :=
  match text with
  | a :: b :: c :: d :: _ =>
    match hexNumber? [a, b, c, d] with
    | some n => .ok n
    | none => .error ⟨.invalidEscape, place.after 4 text⟩
  | _ =>
    if byteCount text < 4 then .error ⟨.endInString, place.after 4 text⟩
    else .error ⟨.invalidEscape, place.after 4 text⟩
where
  byteCount (text : List Char) : Nat := text.foldl (fun n c => n + c.utf8Size) 0

/-- The second half of a surrogate pair: its number, and the characters that it is written with. -/
def lowEscape (place : Place) : List Char → Except Fault Nat
  | [] => .error ⟨.endInString, place⟩
  | '\\' :: 'u' :: cs => do
    let place := place.after 2 ['\\', 'u']
    let n ← hexEscape place cs
    if isLowSurrogate n then .ok n else .error ⟨.loneSurrogate, place.after 4 cs⟩
  | '\\' :: [] => .error ⟨.endInString, place.advance '\\'⟩
  | '\\' :: cs => .error ⟨.endInSurrogates, (place.advance '\\').after 1 cs⟩
  | cs => .error ⟨.endInSurrogates, place.after 1 cs⟩

def unicodeEscape (place : Place) (text : List Char) : Except Fault (Char × Nat) := do
  let n ← hexEscape place text
  let behind := place.after 4 text
  if isLowSurrogate n then .error ⟨.loneSurrogate, behind⟩
  else if isHighSurrogate n then
    let m ← lowEscape behind (text.drop 4)
    .ok (ofSurrogates n m, 10)
  else .ok (Char.ofNat n, 4)

def shortEscape? : Char → Option Char
  | '"' => some '"'
  | '\\' => some '\\'
  | '/' => some '/'
  | 'b' => some '\x08'
  | 'f' => some '\x0c'
  | 'n' => some '\n'
  | 'r' => some '\r'
  | 't' => some '\t'
  | _ => none

/-- The character that an escape behind its backslash stands for, and the characters that it is
written with. -/
def escape (place : Place) : List Char → Except Fault (Char × Nat)
  | [] => .error ⟨.endInString, place⟩
  | 'u' :: cs => do
    let (c, width) ← unicodeEscape (place.advance 'u') cs
    .ok (c, width + 1)
  | c :: cs =>
    match shortEscape? c with
    | some x => .ok (x, 1)
    | none => .error ⟨.invalidEscape, place.after 1 (c :: cs)⟩

/-- The rest of a string; `value` holds what has been read, latest character first. -/
def stringFrom (value : List Char) (place : Place) : List Char → Except Fault (String × Cursor)
  | [] => .error ⟨.endInString, place⟩
  | c :: cs =>
    if c = '"' then .ok (String.ofList value.reverse, ⟨place.advance c, cs⟩)
    else if c = '\\' then
      match escape (place.advance c) cs with
      | .error fault => .error fault
      | .ok (x, width) =>
        let next := Cursor.mk (place.advance c) cs
        stringFrom (x :: value) (next.skip width).place (cs.drop width)
    else if c.toNat < 0x20 then .error ⟨.controlCharacter, place.advance c⟩
    else stringFrom (c :: value) (place.advance c) cs
termination_by text => text.length
decreasing_by
  all_goals simp only [List.length_cons, List.length_drop]; omega

def string : Reader String := fun c => stringFrom [] c.place c.rest

def skipEscape (place : Place) : List Char → Except Fault Nat
  | [] => .error ⟨.endInString, place⟩
  | 'u' :: cs => do
    discard (hexEscape (place.advance 'u') cs)
    .ok 5
  | c :: cs =>
    if (shortEscape? c).isSome then .ok 1 else .error ⟨.invalidEscape, place.after 1 (c :: cs)⟩

def skipStringFrom (place : Place) : List Char → Except Fault Cursor
  | [] => .error ⟨.endInString, place⟩
  | c :: cs =>
    if c = '"' then .ok ⟨place.advance c, cs⟩
    else if c = '\\' then
      match skipEscape (place.advance c) cs with
      | .error fault => .error fault
      | .ok width =>
        let next := Cursor.mk (place.advance c) cs
        skipStringFrom (next.skip width).place (cs.drop width)
    else if c.toNat < 0x20 then .error ⟨.controlCharacter, place⟩
    else skipStringFrom (place.advance c) cs
termination_by text => text.length
decreasing_by
  all_goals simp only [List.length_cons, List.length_drop]; omega

def skipString : Reader Unit := fun c => (skipStringFrom c.place c.rest).map ((), ·)

/-! ## Numbers -/

def digits : Reader (List Char) := fun c =>
  .ok (c.rest.takeWhile Char.isDigit, c.skipWhile Char.isDigit)

def digitValue (c : Char) : Nat := c.toNat - '0'.toNat

def maxNatural : Nat := 0xffffffffffffffff

/-- A digit at the end of a number of at most 64 bits; `none` if that is too large. -/
def pushDigit? (n : Nat) (c : Char) : Option Nat :=
  if 10 * n + digitValue c ≤ maxNatural then some (10 * n + digitValue c) else none

/-- As many leading digits as 64 bits hold behind `n`, and how many there are. -/
def leadingDigits (n used : Nat) : List Char → Nat × Nat
  | [] => (n, used)
  | c :: cs =>
    match pushDigit? n c with
    | some m => leadingDigits m (used + 1) cs
    | none => (n, used)

def powerOfTen (n : Nat) : Float := Float.ofScientific 1 false n

/-- `x * 10 ^ exponent`, by steps that a floating point number can hold; `none` if it is too
large. -/
def scaleFloat? (x : Float) (exponent : Int) : Nat → Option Float
  | 0 => some x
  | fuel + 1 =>
    if exponent.natAbs ≤ 308 then
      if 0 ≤ exponent then
        let y := x * powerOfTen exponent.natAbs
        if y.isInf then none else some y
      else some (x / powerOfTen exponent.natAbs)
    else if x == 0 then some x
    else if 0 ≤ exponent then none
    else scaleFloat? (x / powerOfTen 308) (exponent + 308) fuel

def floating (positive : Bool) (significand : Nat) (exponent : Int) : Reader Number := do
  match scaleFloat? (Float.ofNat significand) exponent 8 with
  | none => fail .numberOutOfRange
  | some x => return .floating (if positive then x else -x)

def maxExponent : Nat := 0x7fffffff

/-- The digits of an exponent behind `n`; `none` from where they say more than can be told. -/
def exponentFrom (n : Nat) (place : Place) : List Char → Option Nat × Cursor
  | [] => (some n, ⟨place, []⟩)
  | c :: cs =>
    if c.isDigit then
      if 10 * n + digitValue c ≤ maxExponent then
        exponentFrom (10 * n + digitValue c) (place.advance c) cs
      else (none, ⟨place.advance c, cs⟩)
    else (some n, ⟨place, c :: cs⟩)

/-- The sign of an exponent; the answer is false for a minus. -/
def exponentSign : Reader Bool := do
  match ← peek with
  | some '+' => do advance; return true
  | some '-' => do advance; return false
  | _ => return true

def exponent (positive : Bool) (significand : Nat) (start : Int) : Reader Number := do
  advance
  let raised ← exponentSign
  match ← peek with
  | none => fail .endInValue
  | some c =>
    if c.isDigit then
      let n ← modifyGet fun c => exponentFrom 0 c.place c.rest
      match n with
      | some n => floating positive significand (if raised then start + n else start - n)
      | none =>
        if significand ≠ 0 && raised then fail .numberOutOfRange
        else
          discard digits
          return .floating (if positive then 0 else -0.0)
    else failNext .invalidNumber

def exponentOrEnd (positive : Bool) (significand : Nat) (start : Int) : Reader Number := do
  match ← peek with
  | some 'e' | some 'E' => exponent positive significand start
  | _ => floating positive significand start

def fraction (positive : Bool) (significand : Nat) (start : Int) : Reader Number := do
  advance
  let ds ← digits
  if ds.isEmpty then
    if (← peek).isSome then failNext .invalidNumber else failNext .endInValue
  else
    let (n, used) := leadingDigits significand 0 ds
    exponentOrEnd positive n (start - used)

/-- A whole number, as far as it can be kept exactly. -/
def whole (positive : Bool) (n : Nat) : Number :=
  if positive then .natural n
  else if 0 < n && n ≤ 0x8000000000000000 then .negative n
  else .floating (-(Float.ofNat n))

def number (positive : Bool) : Reader Number := do
  match ← peek with
  | none => fail .endInValue
  | some '0' => do
    advance
    if (← peek).any Char.isDigit then failNext .invalidNumber
    else numberRest 0 0
  | some c =>
    if c.isDigit then
      let ds ← digits
      let (n, used) := leadingDigits 0 0 ds
      numberRest n (ds.length - used)
    else failNext .invalidNumber
where
  numberRest (n dropped : Nat) : Reader Number := do
    match ← peek with
    | some '.' => fraction positive n dropped
    | some 'e' | some 'E' => exponent positive n dropped
    | _ => if dropped = 0 then return whole positive n else floating positive n dropped

def skipExponent : Reader Unit := do
  advance
  discard exponentSign
  match ← peek with
  | none => fail .invalidNumber
  | some c => if c.isDigit then discard digits else failNext .invalidNumber

def skipExponentOrEnd : Reader Unit := do
  match ← peek with
  | some 'e' | some 'E' => skipExponent
  | _ => return

def skipNumber : Reader Unit := do
  match ← peek with
  | none => fail .invalidNumber
  | some '0' => do
    advance
    if (← peek).any Char.isDigit then failNext .invalidNumber
    else skipNumberRest
  | some c =>
    if c.isDigit then
      discard digits
      skipNumberRest
    else failNext .invalidNumber
where
  skipNumberRest : Reader Unit := do
    if (← peek) = some '.' then
      advance
      if (← digits).isEmpty then failNext .invalidNumber else skipExponentOrEnd
    else skipExponentOrEnd

end Reader

end Registrar.Json
