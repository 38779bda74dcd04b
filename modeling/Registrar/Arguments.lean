/-! # Command lines

A command line holds up to four values: the folder of the markup, the library, the wrap limit and
the indent. Behind `--` everything is a value; in front of it, what starts with a hyphen is an
option, unless it is nothing else.
-/

namespace Registrar

structure Arguments where
  markupRoot : String
  /-- An empty text asks for a search, like none. -/
  libraryRoot : Option String
  wrapLimit : Option Nat
  indentSize : Option Nat
deriving DecidableEq, Repr

inductive Request
  | generate (arguments : Arguments)
  | help
  | version
deriving DecidableEq, Repr

inductive UsageFault
  | missingMarkupRoot
  | emptyMarkupRoot
  | invalidNumber
  | unknownArgument
deriving DecidableEq, Repr

namespace Arguments

def maxNumber : Nat := 0xffffffffffffffff

def digitsNumber? (digits : List Char) : Option Nat :=
  if digits.isEmpty || !digits.all Char.isDigit then none
  else
    let n := digits.foldl (fun n c => 10 * n + (c.toNat - '0'.toNat)) 0
    if n ≤ maxNumber then some n else none

/-- A number in decimal digits, perhaps behind a plus sign. -/
def number? (text : String) : Option Nat :=
  match text.toList with
  | '+' :: digits => digitsNumber? digits
  | digits => digitsNumber? digits

/-- Check the latest value; values are given latest first. -/
def checkLatest : List String → Except UsageFault Unit
  | [root] => if root.isEmpty then .error .emptyMarkupRoot else .ok ()
  | [limit, _, _] => if (number? limit).isSome then .ok () else .error .invalidNumber
  | [indent, _, _, _] => if (number? indent).isSome then .ok () else .error .invalidNumber
  | _ => .ok ()

def ofValues : List String → Except UsageFault Arguments
  | [] => .error .missingMarkupRoot
  | root :: values =>
    .ok ⟨root, values[0]?, values[1]?.bind number?, values[2]?.bind number?⟩

def maxValues : Nat := 4

/-- What a word that is no value asks for; it says so in its first letter if it has one hyphen. -/
def option? (word : String) : Option Request :=
  match word.toList with
  | '-' :: '-' :: _ =>
    if word = "--help" then some .help else if word = "--version" then some .version else none
  | '-' :: 'h' :: _ => some .help
  | '-' :: 'V' :: _ => some .version
  | _ => none

def isOption (word : String) : Bool :=
  match word.toList with
  | '-' :: _ :: _ => true
  | _ => false

/-- Read words behind the values in `taken`, which are latest first; `plain` behind `--`. A value
is checked when the next value or option is accepted. -/
def readFrom (plain : Bool) (taken : List String) : List String → Except UsageFault Request
  | [] => do
    checkLatest taken
    return .generate (← ofValues taken.reverse)
  | word :: words =>
    if !plain && word = "--" then readFrom true taken words
    else if !plain && isOption word then
      match option? word with
      | some request => do
        checkLatest taken
        return request
      | none => .error .unknownArgument
    else if taken.length = maxValues then .error .unknownArgument
    else do
      checkLatest taken
      readFrom plain (word :: taken) words

def read (words : List String) : Except UsageFault Request := readFrom false [] words

def givenLibrary? (arguments : Arguments) : Option String :=
  arguments.libraryRoot.filter (!·.isEmpty)

end Arguments

end Registrar
