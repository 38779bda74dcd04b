import Registrar.Module.Statement

/-! # Imports -/

namespace Registrar.Module

/-- How far an import goes: a module is run, loaded to be run later, or only its source is. -/
inductive Phase
  | evaluation
  | deferred
  | source
deriving DecidableEq

def Phase.ofWord? (word : String) : Option Phase :=
  if word = "defer" then some .deferred else if word = "source" then some .source else none

namespace Rules

open Reader

variable (r : Rules) (cx : Context)

/-- Attributes of a module in the line of its name. -/
def attributes : Reader Unit := do
  if ← isBroken then return
  let token := (← get).token
  if token.isWord "with" || token.isWord "assert" then
    advance
    discard (r.object cx)

def moduleName : Reader Unit := do
  match (← get).token with
  | .literal _ => advance
  | _ => refuse
  r.attributes cx
  endStatement

def fromModule : Reader Unit := do
  expectWord "from"
  r.moduleName cx

/-- A name in the eyes of another module, which may be any word or a string literal. The answer
tells a word. -/
def outerName : Reader Bool := do
  match (← get).token with
  | .name _ | .word _ _ => do advance; return true
  | .literal _ => do advance; return false
  | _ => refuse

def importSpecifier : Reader Unit := do
  let isWord ← outerName
  if ← takeWord "as" then discard bindingName else require isWord

/-- What an import binds besides a default. Names are bound by a whole import only. -/
def importBindings (phase : Phase) : Reader Unit := do
  let token := (← get).token
  if phase ≠ .source && token = .sign "*" then
    advance
    expectWord "as"
    discard bindingName
  else if phase = .evaluation && token = .sign "\x7b" then
    advance
    discard (commaList r.bound "\x7d" importSpecifier)

def followsPhase (c : Cursor) : Bool :=
  c.token = .sign "*" || c.token = .sign "\x7b" ||
    (c.token.isReference && (!c.token.isWord "from" || c.next.token.isWord "from"))

def importClause : Reader Unit := do
  let c ← get
  let phase := match c.token.spelling?.bind Phase.ofWord? with
    | some phase => if followsPhase c.next then phase else .evaluation
    | none => .evaluation
  if phase ≠ .evaluation then advance
  if (← get).token.isReference then
    discard bindingName
    if !(← isWord "from") then expectSign ","
  r.importBindings phase

def importDeclaration : Reader Unit := do
  advance
  match (← get).token with
  | .literal _ => r.moduleName cx
  | _ => do
    r.importClause
    r.fromModule cx

end Rules

end Registrar.Module
