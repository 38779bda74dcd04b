import Registrar.Module.Rules

/-! # Keys, patterns and parameters -/

namespace Registrar.Module

inductive Key
  | word (name : String)
  /-- A string literal; `none` if it is not a text. -/
  | literal (value : Option String)
  | other
deriving DecidableEq

def Key.isConstructor : Key → Bool
  | .word name => name = "constructor"
  | .literal value => value = some "constructor"
  | .other => false

namespace Rules

open Reader

variable (r : Rules) (cx : Context)

def key : Reader Key := do
  match (← get).token with
  | .name name => do advance; return .word name
  | .word _ spelling => do advance; return .word spelling
  | .literal value => do advance; return .literal value
  | .number => do advance; return .other
  | .sign "[" => do
    advance
    discard (r.assignment cx.inner)
    expectSign "]"
    return .other
  | _ => refuse

def fallback : Reader Unit := do if ← takeSign "=" then discard (r.assignment cx)

def bindingElement : Reader Unit := do
  discard (r.binding cx)
  r.fallback cx.inner

/-- A rest has no value to fall back on. -/
def arrayPattern : Reader Unit := do
  expectSign "["
  discard <| commaList r.bound "]" do
    if ← isSign "," then return
    if ← takeSign "..." then discard (r.binding cx) else r.bindingElement cx

/-- A property of a pattern. The answer is false for a rest that is no name. -/
def objectElement : Reader Bool := do
  if ← takeSign "..." then return (← r.binding cx).isSome
  let key ← r.key cx
  if ← takeSign ":" then r.bindingElement cx
  else match key with
    | .word _ => r.fallback cx.inner
    | _ => refuse
  return true

def objectPattern : Reader Unit := do
  expectSign "\x7b"
  let elements ← commaList r.bound "\x7d" (r.objectElement cx)
  require (elements.head?.all (·))

def bindingTarget : Reader (Option String) := do
  match (← get).token with
  | .sign "[" => do r.arrayPattern cx; return none
  | .sign "\x7b" => do r.objectPattern cx; return none
  | _ => some <$> bindingName

/-- Parameters in parentheses. The rest may have a value to fall back on if `restValue`. -/
def parameters (restValue : Bool) : Reader Unit := do
  expectSign "("
  discard <| commaList r.bound ")" do
    let isRest ← takeSign "..."
    discard (r.binding cx)
    if !isRest || restValue then r.fallback cx

end Rules

end Registrar.Module
