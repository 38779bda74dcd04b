import Registrar.Module.Rules

/-! # Operators -/

namespace Registrar.Module

/-- An operator in front of its operand that makes no place of it. -/
def isSignOperator : Token → Bool
  | .sign s => ["+", "-", "!", "~"].contains s
  | .word w _ => ["delete", "void", "typeof"].contains w
  | _ => false

def isBinarySign : Token → Bool
  | .sign s =>
    ["+", "-", "*", "/", "%", "**", "<<", ">>", ">>>", "&", "|", "^", "&&", "||", "??", "<", ">",
      "<=", ">=", "==", "!=", "===", "!=="].contains s
  | _ => false

def isBinaryOperator (cx : Context) (token : Token) : Bool :=
  isBinarySign token || token.isWord "instanceof" || (cx.inOperator && token.isWord "in")

def isAssignmentOperator : Token → Bool
  | .sign s =>
    ["=", "+=", "-=", "*=", "/=", "%=", "**=", "<<=", ">>=", ">>>=", "&=", "|=", "^=", "&&=",
      "||=", "??="].contains s
  | _ => false

def startsOperand (token : Token) : Bool :=
  match token with
  | .name _ | .privateName | .literal _ | .number | .template _ _ => true
  | .word w _ =>
    !keywords.contains w ||
      ["class", "delete", "false", "function", "import", "new", "null", "super", "this", "throw",
        "true", "typeof", "void"].contains w
  | .sign s => ["(", "[", "\x7b", "++", "--", "+", "-", "!", "~", "<", "*", "/", "/="].contains s
  | .finish | .invalid => false

namespace Rules

open Reader

variable (r : Rules) (cx : Context)

/-- Binary operators and their right operands behind a first operand. None of the operators in front
of an operand goes together with a power. -/
def binaryRest (operand : Operand) : Reader Operand :=
  iterate (fun (found, operand) => do
    let token := (← get).token
    if isBinaryOperator cx token then
      advance
      require (token ≠ .sign "**" || (operand ≠ .signed && operand ≠ .awaited))
      return .inl (true, ← r.unary cx)
    else return .inr (if found then .computed else operand)) r.bound (false, operand)

def conditionalRest (operand : Operand) : Reader Operand := do
  if ← takeSign "?" then
    discard (r.assignment cx.inner)
    expectSign ":"
    discard (r.assignment cx)
    return .computed
  else return operand

def assignmentRest (operand : Operand) : Reader Operand := do
  let token := (← get).token
  if operand = .signed || operand = .computed || !isAssignmentOperator token then return operand
  else
    require (operand.takes token)
    advance
    discard (r.assignment cx)
    return .other

/-- An operand behind which one may count up or down, in its own line. -/
def counted (operand : Operand) : Reader Operand := do
  if ← isBroken then return operand
  if ← takeSign "++" then return .computed
  if ← takeSign "--" then return .computed
  return operand

end Rules

end Registrar.Module
