import Registrar.Module.Expression

/-! # Declarations of variables -/

namespace Registrar.Module

inductive DeclarationKind
  /-- Known all over a function; resources are declared like this, too. -/
  | variable
  | lexical
  | constant
deriving DecidableEq

def DeclarationKind.ofToken (token : Token) : DeclarationKind :=
  if token.isWord "const" then .constant
  else if token.isWord "let" then .lexical
  else .variable

namespace Rules

open Reader

variable (r : Rules) (cx : Context)

/-- Whether `let` in front of the token declares what follows and is no name itself. -/
def followsLet : Token → Bool
  | .name _ => true
  | .word word _ => !keywords.contains word
  | .sign s => s = "[" || s = "\x7b"
  | _ => false

/-- Whether variables are declared here. Constants and the like are declared in lists only. -/
def startsDeclaration (listed : Bool) (c : Cursor) : Bool :=
  c.token.isWord "var" || (listed && c.token.isWord "const") ||
    (listed && c.token.isWord "let" && followsLet c.next.token)

def startsResources (c : Cursor) : Bool :=
  c.token.isWord "using" && !c.next.broken && c.next.token.isReference

/-- A name or pattern behind the keyword, and its value. A pattern has a value unless it is constant
or a loop gives it one; `let` is no name of what is lexical or constant. -/
def declarator (kind : DeclarationKind) (inLoop : Bool) : Reader Declarator := do
  require (kind = .variable || !(← isWord "let"))
  let name ← r.binding cx
  let token := (← get).token
  if inLoop && (token.isWord "of" || token.isWord "in") then return ⟨name, none⟩
  if ← takeSign "=" then return ⟨name, some (← r.assignment cx).value⟩
  require (kind = .constant || name.isSome)
  return ⟨name, none⟩

/-- Declarators with commas between them; a semicolon may stand in place of one. -/
def declarators (kind : DeclarationKind) (inLoop : Bool) : Reader (List Declarator) :=
  iterate (fun declarators => do
    if ← isSign ";" then return .inr declarators.reverse
    let declarators := (← r.declarator cx kind inLoop) :: declarators
    if ← takeSign "," then return .inl declarators else return .inr declarators.reverse)
    r.bound []

/-- The end of a declaration. An expression and other tokens in front of it are let through. -/
def endDeclaration : Reader Unit := do
  if ← takeEnd then return
  passInvalid
  discard (attempt (r.expression cx))
  repeatWhile r.bound do
    if ← takeEnd then return false
    advance
    return (← get).token ≠ .invalid

def declaration : Reader (List Declarator) := do
  let kind := DeclarationKind.ofToken (← get).token
  advance
  let declarators ← r.declarators cx.inner kind false
  r.endDeclaration cx
  return declarators

def resources : Reader Unit := do
  advance
  discard (r.declarators cx .variable false)
  endStatement

end Rules

end Registrar.Module
