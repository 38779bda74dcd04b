import Registrar.Module.Import

/-! # Exports -/

namespace Registrar.Module.Rules

open Reader

variable (r : Rules) (cx : Context)

def exportSpecifier : Reader Unit := do
  discard outerName
  if ← takeWord "as" then discard outerName

/-- Exported names in braces; the end may be missing unless they come from another module. -/
def exportList : Reader Unit := do
  advance
  discard (commaList r.bound "\x7d" exportSpecifier)
  if ← isWord "from" then r.fromModule cx else discard takeEnd

def exportAll : Reader Unit := do
  advance
  if ← takeWord "as" then discard outerName
  r.fromModule cx

def exportDefault : Reader Unit := do
  advance
  let c ← get
  if startsFunction c then r.function cx optionalName
  else if c.token.isWord "class" then r.classDefinition cx optionalName
  else
    discard (r.assignment cx.inner)
    endStatement

def exportDeclaration : Reader Item := do
  advance
  let c ← get
  if c.token.isWord "default" then
    r.exportDefault cx
    return .other
  else if c.token = .sign "*" then
    r.exportAll cx
    return .other
  else if c.token = .sign "\x7b" then
    r.exportList cx
    return .other
  else if startsDeclaration true c then .exportVariables <$> r.declaration cx
  else if startsFunction c then .exportFunction <$> r.function cx bindingName
  else .exportClass <$> r.namedClass cx

end Registrar.Module.Rules
