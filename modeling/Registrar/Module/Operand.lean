import Registrar.Module.Class
import Registrar.Module.Literal

/-! # Operands

An operand and the members and calls behind it.
-/

namespace Registrar.Module.Rules

open Reader

variable (r : Rules) (cx : Context)

/-! ## Lists in parentheses -/

/-- An arrow behind the first entry, which the name in front of it left over; it makes a function
behind a name. -/
def lateArrow (first : Operand) : Reader (List Entry) := do
  if ← takeSign "=>" then
    if first = .name then
      discard (r.arrowBody cx.inner false)
      return [.plain .other, .plain first]
  return [.plain first]

/-- The entries of a list in parentheses, the last one first. -/
def group : Reader (List Entry) := do
  expectSign "("
  iterate (fun entries => do
    if ← takeSign ")" then return .inr entries
    let entry ← r.entry cx
    let entries ← match entries, entry with
      | [], .plain operand => r.lateArrow cx operand
      | _, _ => pure (entry :: entries)
    if ← takeSign "," then return .inl entries
    expectSign ")"
    return .inr entries) r.bound []

def isExpression (entries : List Entry) : Bool := !entries.isEmpty && entries.all Entry.isPlain

def arguments : Reader Nat := do
  expectSign "("
  return (← commaList r.bound ")" (r.entry cx)).length

/-! ## Operands by themselves -/

def startsFunction (c : Cursor) : Bool :=
  c.token.isWord "function" ||
    (c.token.isWord "async" && c.next.token.isWord "function" && !c.next.broken)

def wordOperand (word : String) : Reader Operand := do
  if startsFunction (← get) then
    r.function cx optionalName
    return .other
  else if word = "class" then
    r.classDefinition cx optionalName
    return .other
  else
    let isConstant := ["this", "null", "true", "false"].contains word
    require (isConstant || isReferenceWord word || word = "let")
    advance
    return if isConstant then .other else .name

def primary : Reader Operand := do
  match (← get).token with
  | .literal value => do advance; return .literal value
  | .number => do advance; return .other
  | .name _ => do advance; return .name
  | .word word _ => r.wordOperand cx word
  | .template _ _ => do r.template cx false; return .other
  | .privateName => do advance; return .other
  | .sign "#" => do
    advance
    require (← get).token.spelling?.isSome
    advance
    return .other
  | .sign "(" => do
    let entries ← r.group cx
    require (isExpression entries && !(← isSign "=>"))
    return .place
  | .sign "[" => r.array cx
  | .sign "\x7b" => r.object cx
  | .sign "/" | .sign "/=" => do regex; return .other
  | _ => refuse

/-! ## Members and calls -/

def memberName : Reader Unit := do
  match (← get).token with
  | .name _ | .word _ _ | .privateName => advance
  | _ => refuse

def index : Reader Unit := do
  expectSign "["
  discard (r.expression cx.inner)
  expectSign "]"

/-- A member or a call behind the sign of an optional step. -/
def optionalStep : Reader Unit := do
  match (← get).token with
  | .sign "(" => discard (r.arguments cx)
  | .sign "[" => r.index cx
  | _ => memberName

/-- What may stand behind an operand: members, and calls if `calls`. -/
def suffixes (calls : Bool) (operand : Operand) : Reader Operand :=
  iterate (fun operand => do
    let link (otherwise : Operand) : Operand := if operand = .chain then .chain else otherwise
    match (← get).token with
    | .sign "." => do
      advance
      memberName
      return .inl (link .place)
    | .sign "[" => do
      r.index cx
      return .inl (link .place)
    | .sign "?." => do
      advance
      r.optionalStep cx
      return .inl .chain
    | .sign "(" => do
      if calls then
        discard (r.arguments cx)
        return .inl (link .other)
      else return .inr operand
    | .template _ _ => do
      r.template cx true
      return .inl .other
    | _ => return .inr operand) r.bound operand

def superRest (calls : Bool) : Reader Operand := do
  advance
  match (← get).token with
  | .sign "(" => do
    require calls
    discard (r.arguments cx)
    r.suffixes cx calls .other
  | .sign "[" => do
    r.index cx
    require cx.superMembers
    r.suffixes cx calls .place
  | .sign "." => do
    advance
    require ((← get).token ≠ .privateName)
    memberName
    require cx.superMembers
    r.suffixes cx calls .place
  | _ => refuse

def importCall (calls : Bool) : Reader Operand := do
  require calls
  let count ← r.arguments cx
  require (count = 1 || count = 2)
  r.suffixes cx calls .other

def importRest (calls : Bool) : Reader Operand := do
  advance
  if ← takeSign "." then
    let name := (← get).token.spelling?
    require (["meta", "source", "defer"].any (some · = name))
    advance
    if name = some "meta" then r.suffixes cx calls .other else r.importCall cx calls
  else r.importCall cx calls

/-- An operand and what stands behind it, calls only if `calls`. -/
def operand (calls : Bool) : Reader Operand := do
  let token := (← get).token
  if token.isWord "new" then r.suffixes cx calls (← r.read (.construction cx))
  else if token.isWord "super" then r.superRest cx calls
  else if token.isWord "import" then r.importRest cx calls
  else r.suffixes cx calls (← r.primary cx)

/-- `new`, the class and perhaps the arguments, or `new.target`. No optional step leads to the
class. -/
def construction : Reader Operand := do
  expectWord "new"
  if ← takeSign "." then
    expectWord "target"
    return .other
  else
    let callee ← r.operand cx false
    require (callee ≠ .chain)
    if ← isSign "(" then discard (r.arguments cx)
    return .other

end Registrar.Module.Rules
