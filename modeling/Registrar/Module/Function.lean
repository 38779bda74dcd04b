import Registrar.Module.Pattern

/-! # Blocks and functions -/

namespace Registrar.Module.Rules

open Reader

variable (r : Rules) (cx : Context)

/-- Statements in braces; the last brace may be missing at the end of the text. -/
def block : Reader Unit := do
  expectSign "\x7b"
  repeatWhile r.bound do
    if ← takeSign "\x7d" then return false
    if (← get).token = .finish then return false
    r.read (.statement cx true)
    return true

def functionRest (generator asynchronous : Bool) : Reader Unit := do
  let inside := { cx with generator := false, asynchronous }
  r.parameters inside true
  r.block { inside.inner with generator }

def methodRest (generator asynchronous : Bool) : Reader Unit :=
  r.functionRest { cx with superMembers := true } generator asynchronous

def function {α : Type} (readName : Reader α) : Reader α := do
  let asynchronous ← takeWord "async"
  expectWord "function"
  let generator ← takeSign "*"
  let name ← readName
  r.functionRest { cx with superMembers := false } generator asynchronous
  return name

/-- The body of an arrow function. The answer tells whether it is a block. -/
def arrowBody (asynchronous : Bool) : Reader Bool := do
  if ← isSign "\x7b" then
    r.block (cx.inArrow asynchronous)
    return true
  else
    discard (r.assignment (cx.inArrow asynchronous))
    return false

end Registrar.Module.Rules
