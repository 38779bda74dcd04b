import Registrar.Module.Function

/-! # Classes -/

namespace Registrar.Module.Rules

open Reader

variable (r : Rules) (cx : Context)

def memberKey : Reader Key := do
  if (← get).token = .privateName then
    advance
    return .other
  else r.key cx

/-- The value and the end of a field. The end may be missing. -/
def fieldRest (key : Key) : Reader Unit := do
  require !key.isConstructor
  r.fallback cx.inner
  if !(← takeEnd) then passInvalid

def constructorRest : Reader Unit := do
  r.parameters cx false
  r.block (cx.inner.inArrow false)

def endsField (token : Token) : Bool := [.sign "=", .sign ";", .sign "\x7d"].contains token

/-- A member behind its first key, which is no method of that name. `get` in front of a star in
another line is a field, and `async` belongs to a method in its own line only, but to no
constructor. -/
def memberRest (key : Key) : Reader Unit := do
  let c ← get
  let isAccessor := (key = .word "get" || key = .word "set") && !endsField c.token &&
    !(c.broken && c.token = .sign "*")
  if !isAccessor && (c.token = .sign "=" || c.isEnd) then r.fieldRest cx key
  else if key = .word "async" && !c.broken then
    let generator ← takeSign "*"
    let key ← r.memberKey cx
    require !key.isConstructor
    r.methodRest cx generator true
  else
    require isAccessor
    discard (r.memberKey cx)
    r.methodRest cx false false

def memberBody (isStatic : Bool) : Reader Unit := do
  let c ← get
  if isStatic && c.token = .sign "\x7b" then r.block cx
  else if c.token.isWord "static" && c.next.token = .sign "\x7b" then
    advance
    r.block cx
  else if ← takeSign "*" then
    discard (r.memberKey cx)
    r.methodRest cx true false
  else
    let key ← r.memberKey cx
    if ← isSign "(" then
      if key.isConstructor then r.constructorRest cx else r.methodRest cx false false
    else r.memberRest cx key

def member : Reader Unit := do
  if ← takeSign ";" then return
  let isStatic ← takeWord "static"
  let token := (← get).token
  if isStatic && token = .sign "(" then r.methodRest cx false false
  else if isStatic && endsField token then r.fieldRest cx (.word "static")
  else r.memberBody cx isStatic

/-- What a class extends. A second one is let through. -/
def heritage : Reader Unit := do
  if ← takeWord "extends" then
    discard (r.read (.target cx))
    if ← takeWord "extends" then discard (r.read (.target cx))

def classDefinition {α : Type} (readName : Reader α) : Reader α := do
  expectWord "class"
  let name ← readName
  r.heritage cx
  expectSign "\x7b"
  repeatWhile r.bound do
    if ← takeSign "\x7d" then return false
    r.member { cx with superMembers := true }
    return true
  return name

/-- A class that is declared, which may have any name but `let`. -/
def namedClass : Reader String := do
  require !(← get).next.token.isWord "let"
  r.classDefinition cx bindingName

end Registrar.Module.Rules
