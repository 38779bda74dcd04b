import Registrar.Json.Scalar

/-! # Reading values of JSON

A reader asks for the kind of value that it wants and blames any other. Lists and objects are read
element by element. Values that nobody wants are skipped on a stack of open lists and objects.
-/

namespace Registrar.Json.Reader

/-- Blame a value for its kind, after reading it if it is a scalar. -/
def wrongKind {α : Type} (wanted : String) : Reader α := do
  match ← peek with
  | some 'n' => do advance; word ['u', 'l', 'l']; fail (.wrongKind .null wanted)
  | some 't' => do advance; word ['r', 'u', 'e']; fail (.wrongKind (.bool true) wanted)
  | some 'f' => do advance; word ['a', 'l', 's', 'e']; fail (.wrongKind (.bool false) wanted)
  | some '-' => do advance; fail (.wrongKind (.number (← number false)) wanted)
  | some '"' => do advance; fail (.wrongKind (.string (← string)) wanted)
  | some '[' => fail (.wrongKind .sequence wanted)
  | some '\x7b' => fail (.wrongKind .map wanted)
  | some c =>
    if c.isDigit then fail (.wrongKind (.number (← number true)) wanted)
    else failNext .expectedValue
  | none => failNext .endInValue

def boolean : Reader Bool := do
  match ← peekToken with
  | some 't' => do advance; word ['r', 'u', 'e']; return true
  | some 'f' => do advance; word ['a', 'l', 's', 'e']; return false
  | _ => wrongKind "a boolean"

def naturalKind : String := "usize"

/-- A natural number of at most 64 bits. -/
def natural : Reader Nat := do
  let n ← match ← peekToken with
    | some '-' => do advance; number false
    | some c => if c.isDigit then number true else wrongKind naturalKind
    | none => wrongKind naturalKind
  match n with
  | .natural n => return n
  | .negative n => fail (.negativeNumber n naturalKind)
  | .floating x => fail (.wrongKind (.number (.floating x)) naturalKind)

def text : Reader String := do
  match ← peekToken with
  | some '"' => do advance; string
  | _ => wrongKind "a string"

def optional {α : Type} (value : Reader α) : Reader (Option α) := do
  match ← peekToken with
  | some 'n' => do advance; word ['u', 'l', 'l']; return none
  | _ => some <$> value

/-! ## Lists -/

/-- Whether another element follows; `first` in front of the first one. -/
def hasElement (first : Bool) : Reader Bool := do
  match ← peekToken with
  | none => failNext .endInList
  | some ']' => return false
  | some c =>
    if first then return true
    else if c = ',' then
      advance
      match ← peekToken with
      | some ']' => failNext .trailingComma
      | some _ => return true
      | none => failNext .endInValue
    else failNext .expectedCommaOrBracket

def closeList : Reader Unit := do
  match ← peekToken with
  | some ']' => advance
  | some ',' => do
    advance
    if (← peekToken) = some ']' then failNext .trailingComma else failNext .trailingCharacters
  | some _ => failNext .trailingCharacters
  | none => failNext .endInList

def elements {α : Type} (element : Reader α) : Nat → Bool → Reader (List α)
  | 0, _ => fail .endInList
  | fuel + 1, first => do
    if ← hasElement first then
      let x ← element
      let xs ← elements element fuel false
      return x :: xs
    else return []

def list {α : Type} (element : Reader α) : Reader (List α) := do
  match ← peekToken with
  | some '[' => do
    advance
    let xs ← elements element ((← get).rest.length + 1) true
    closeList
    return xs
  | _ => wrongKind "a sequence"

/-! ## Objects -/

def hasMember (first : Bool) : Reader Bool := do
  match ← peekToken with
  | none => failNext .endInObject
  | some '\x7d' => return false
  | some c =>
    if first then
      if c = '"' then return true else failNext .keyNoString
    else if c = ',' then
      advance
      match ← peekToken with
      | some '"' => return true
      | some '\x7d' => failNext .trailingComma
      | some _ => failNext .keyNoString
      | none => failNext .endInValue
    else failNext .expectedCommaOrBrace

def key : Reader String := do
  advance
  string

def colon : Reader Unit := do
  match ← peekToken with
  | some ':' => advance
  | some _ => failNext .expectedColon
  | none => failNext .endInObject

/-- Blame a key that has been read before. The place is behind the blanks that follow it, and
behind the end of the object if that comes next. -/
def repeatedKey {α : Type} (key : String) : Reader α := do
  if (← peekToken) = some '\x7d' then advance
  fail (.repeatedKey key)

/-! ## Values that nobody wants -/

inductive Enclosure
  | list
  | object
deriving DecidableEq

/-- What comes next on the way over a value: a value, what stands behind the opening sign of a list
or an object, or what stands behind a finished value. -/
inductive Expecting
  | value
  | firstElement
  | nextElement

def skipHead : Reader (Option Enclosure) := do
  match ← peekToken with
  | none => failNext .endInValue
  | some 'n' => do advance; word ['u', 'l', 'l']; return none
  | some 't' => do advance; word ['r', 'u', 'e']; return none
  | some 'f' => do advance; word ['a', 'l', 's', 'e']; return none
  | some '-' => do advance; skipNumber; return none
  | some '"' => do advance; skipString; return none
  | some '[' => do advance; return some .list
  | some '\x7b' => do advance; return some .object
  | some c =>
    if c.isDigit then skipNumber; return none
    else failNext .expectedValue

def skipKey : Enclosure → Reader Unit
  | .list => return
  | .object => do
    match ← peekToken with
    | some '"' => advance
    | some _ => failNext .keyNoString
    | none => failNext .endInObject
    skipString
    colon

def isClosing : Enclosure → Char → Bool
  | .list, c => c = ']'
  | .object, c => c = '\x7d'

def endCause : Enclosure → Cause
  | .list => .endInList
  | .object => .endInObject

def commaCause : Enclosure → Cause
  | .list => .expectedCommaOrBracket
  | .object => .expectedCommaOrBrace

/-- Skip what is expected inside the open lists and objects, innermost first, by no more than
`fuel` steps. -/
def skipFrom : Nat → Expecting → List Enclosure → Reader Unit
  | 0, _, _ => fail .endInValue
  | fuel + 1, .value, outer => do
    match ← skipHead with
    | none => skipFrom fuel .nextElement outer
    | some inner => skipFrom fuel .firstElement (inner :: outer)
  | _ + 1, .nextElement, [] => return
  | fuel + 1, .nextElement, inner :: outer => do
    match ← peekToken with
    | none => failNext (endCause inner)
    | some c =>
      if c = ',' then
        advance
        skipKey inner
        skipFrom fuel .value (inner :: outer)
      else if isClosing inner c then
        advance
        skipFrom fuel .nextElement outer
      else failNext (commaCause inner)
  | _ + 1, .firstElement, [] => return
  | fuel + 1, .firstElement, inner :: outer => do
    match ← peekToken with
    | none => failNext (endCause inner)
    | some c =>
      if isClosing inner c then
        advance
        skipFrom fuel .nextElement outer
      else
        skipKey inner
        skipFrom fuel .value (inner :: outer)

/-- Skip a value. No character takes more than two steps. -/
def skipValue : Reader Unit := do
  skipFrom (2 * (← get).rest.length + 2) .value []

/-! ## Texts -/

def run {α : Type} (value : Reader α) (source : String) : Except Fault α :=
  (do
    let x ← value
    match ← peekToken with
    | some _ => failNext .trailingCharacters
    | none => return x : Reader α).run' (.ofText source.toList)

end Registrar.Json.Reader
