import Registrar.Module.Operand
import Registrar.Module.Operator

/-! # Expressions -/

namespace Registrar.Module.Rules

open Reader

variable (r : Rules) (cx : Context)

/-! ## Operators in front -/

/-- What stands behind an `await`: its operand, unless the word is a name. -/
def awaitRest : Reader Operand := do
  let c ← get
  require (c.token ≠ .sign "*")
  if !cx.asynchronous && (c.isEnd || [.sign ")", .sign "]", .sign ","].contains c.token) then
    return .name
  else
    discard (r.unary cx)
    return .awaited

/-- An operand and the operators in front of it. A fault in the operand of some is let through. -/
def unaryExpression : Reader Operand := do
  let token := (← get).token
  if token = .sign "++" || token = .sign "--" then
    advance
    discard (r.unary cx)
    return .computed
  else if isSignOperator token then
    advance
    if (← attempt (r.unary cx)).isNone then passInvalid
    return .signed
  else if token.isWord "await" then
    advance
    r.awaitRest cx
  else counted (← r.operand cx true)

/-! ## Arrow functions -/

/-- An arrow function behind its parameters in parentheses. Its block may be an operand. -/
def arrowRest (asynchronous : Bool) (entries : List Entry) : Reader Operand := do
  require !(← isBroken)
  expectSign "=>"
  require (Entry.allFit Operand.isBindable entries)
  let isBlock ← r.arrowBody cx asynchronous
  if isBlock && isBinarySign (← get).token then r.binaryRest cx .other else return .arrow

/-- A name, or an arrow function whose parameter it is. In the head of a loop, `async of` goes over
a sequence. -/
def nameHead : Reader Operand := do
  let isAsync := (← get).token.spelling? = some "async"
  advance
  let c ← get
  if isAsync && !c.broken && c.token.isReference then
    if cx.loopHead && c.token.isWord "of" && c.next.token ≠ .sign "=>" then return .name
    advance
    expectSign "=>"
    discard (r.arrowBody cx true)
    return .arrow
  else if c.token = .sign "=>" && !c.broken then
    advance
    discard (r.arrowBody cx false)
    return .arrow
  else return .name

def arrowHead : Reader Operand := do
  let c ← get
  if c.token = .sign "(" then
    let entries ← r.group cx
    if ← isSign "=>" then r.arrowRest cx false entries
    else
      require (isExpression entries)
      return .place
  else if c.token.isWord "async" && c.next.token = .sign "(" && !c.next.broken then
    advance
    let entries ← r.group cx
    if ← isSign "=>" then r.arrowRest cx true entries else return .other
  else if startsFunction c then r.primary cx
  else r.nameHead cx

def firstOperand : Reader Operand := do
  let token := (← get).token
  if token = .sign "(" || token.isReference then
    match ← r.arrowHead cx with
    | .arrow => return .arrow
    | operand => counted (← r.suffixes cx true operand)
  else r.unaryExpression cx

/-! ## Operators behind -/

def yieldRest : Reader Unit := do
  let c ← get
  if !c.isEnd && startsOperand c.token then
    discard (takeSign "*")
    discard (r.assignment cx)

/-- An expression without commas. A fault in front of a binary operator is let through. -/
def assignmentExpression : Reader Operand := do
  if cx.generator && (← isWord "yield") then
    advance
    r.yieldRest cx
    return .other
  else
    match ← attempt (r.firstOperand cx) with
    | some .arrow => return .arrow
    | some operand =>
      r.assignmentRest cx (← r.conditionalRest cx (← r.binaryRest cx operand))
    | none =>
      require (isBinaryOperator cx (← get).token)
      r.conditionalRest cx (← r.binaryRest cx .other)

def expressionList : Reader Operand :=
  iterate (fun first => do
    let operand ← r.assignment cx
    let operand := if first then operand else .other
    if ← takeSign "," then return .inl false else return .inr operand) r.bound true

end Registrar.Module.Rules
