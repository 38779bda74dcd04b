import Registrar.Module.Function

/-! # Literals

Literals of arrays and objects turn out to be patterns when an assignment operator or an arrow
stands behind them, so they tell what patterns they may be.
-/

namespace Registrar.Module

inductive Entry
  | hole
  | plain (operand : Operand)
  | spread (operand : Operand)

namespace Entry

def fits (fit : Operand → Bool) : Entry → Bool
  | .plain operand => fit operand
  | _ => true

/-- Whether all entries fit, of which the last comes first. Spread ones in front of it are passed
over. -/
def allFit (fit : Operand → Bool) : List Entry → Bool
  | .spread operand :: before => fit operand && before.all (fits fit)
  | entries => entries.all (fits fit)

def isPlain : Entry → Bool
  | .plain _ => true
  | _ => false

end Entry

namespace Rules

open Reader

variable (r : Rules) (cx : Context)

def entry : Reader Entry := do
  if ← takeSign "..." then .spread <$> r.assignment cx.inner else .plain <$> r.assignment cx.inner

def array : Reader Operand := do
  expectSign "["
  let entries ← commaList r.bound "]" do
    if ← isSign "," then return .hole else r.entry cx
  return .pattern (Entry.allFit Operand.isAssignable entries)
    (Entry.allFit Operand.isBindable entries)

/-- A property behind a word: an accessor, an asynchronous method or the word alone. -/
def wordProperty (name : String) : Reader Operand := do
  discard (takeSign "?")
  if [.sign "=", .sign ",", .sign "\x7d"].contains (← get).token then
    r.fallback cx.inner
    return .other
  else
    require (["get", "set", "async"].contains name)
    let asynchronous := name = "async"
    let generator ← if asynchronous then takeSign "*" else pure false
    discard (r.key cx)
    r.methodRest cx generator asynchronous
    return .pattern false false

/-- A property as part of a pattern: methods are none, and what is spread is never bound. -/
def property : Reader Operand := do
  if ← takeSign "..." then return .pattern (← r.assignment cx.inner).isAssignable true
  if ← takeSign "*" then
    discard (r.key cx)
    r.methodRest cx true false
    return .pattern false false
  let key ← r.key cx
  if ← takeSign ":" then r.assignment cx.inner
  else if ← isSign "(" then
    r.methodRest cx false false
    return .pattern false false
  else match key with
    | .word name => r.wordProperty cx name
    | _ => refuse

def object : Reader Operand := do
  expectSign "\x7b"
  let properties ← commaList r.bound "\x7d" (r.property cx)
  return .pattern (properties.all Operand.isAssignable) (properties.all Operand.isBindable)

def regex : Reader Unit := do
  match scanRegex false ((← get).start.drop 1) with
  | .ok (_, rest) => set (Cursor.ofText false false rest)
  | .error rest => do
    set (Cursor.ofText false false rest)
    failure

def templateRest (tagged : Bool) : Reader Unit :=
  repeatWhile r.bound do
    discard (r.expression cx.inner)
    require (← isSign "\x7d")
    match scanTemplate true (← get).rest with
    | .error rest => do
      set (Cursor.ofText false false rest)
      failure
    | .ok ((isOpen, valid), rest) => do
      set (Cursor.ofText false false rest)
      require (tagged || valid)
      return isOpen

def template (tagged : Bool) : Reader Unit := do
  match (← get).token with
  | .template isOpen valid => do
    advance
    require (tagged || valid)
    if isOpen then r.templateRest cx tagged
  | _ => refuse

end Rules

end Registrar.Module
