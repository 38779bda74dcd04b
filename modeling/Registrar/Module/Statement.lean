import Registrar.Module.Declaration

/-! # Statements -/

namespace Registrar.Module.Rules

open Reader

variable (r : Rules) (cx : Context)

/-- A statement that stands alone. -/
def body : Reader Unit := r.read (.statement cx false)

def condition : Reader Unit := do
  expectSign "("
  discard (r.expression cx.inner)
  expectSign ")"

/-! ## Branches and loops -/

def ifStatement : Reader Unit := do
  advance
  r.condition cx
  r.body cx
  if ← takeWord "else" then r.body cx

def whileStatement : Reader Unit := do
  advance
  r.condition cx
  r.body cx

def doStatement : Reader Unit := do
  advance
  r.body cx
  expectWord "while"
  r.condition cx
  discard takeEnd

/-- The cases of a `switch`; no more than one is the default. -/
def switchRest : Reader Unit := do
  expectSign "\x7b"
  iterate (fun (labelled, hasDefault) => do
    if ← takeSign "\x7d" then return .inr ()
    if ← takeWord "case" then
      discard (r.expression cx.inner)
      expectSign ":"
      return .inl (true, hasDefault)
    if ← takeWord "default" then
      require !hasDefault
      expectSign ":"
      return .inl (true, true)
    require labelled
    r.read (.statement cx true)
    return .inl (true, hasDefault)) r.bound (false, false)

/-- What a loop goes over, the values of a sequence or keys. The answer tells values. -/
def overRest : Reader Bool := do
  if ← takeWord "of" then
    discard (r.assignment cx)
    return true
  else
    expectWord "in"
    discard (r.expression cx)
    return false

def countingRest : Reader Unit := do
  expectSign ";"
  if !(← isSign ";") then discard (r.expression cx.inner)
  expectSign ";"
  if !(← isSign ")") then discard (r.expression cx.inner)

/-- The head of a loop. The answer tells whether the loop goes over values. -/
def forHead : Reader Bool := do
  let c ← get
  let outer := { cx with inOperator := false }
  if c.token = .sign ";" then
    r.countingRest cx
    return false
  if startsDeclaration true c then
    let kind := DeclarationKind.ofToken c.token
    advance
    discard (r.declarators (if kind = .variable then cx else cx.inner) kind true)
  else
    let operand ← r.expression outer
    if (← isWord "of") || (← isWord "in") then require operand.isAssignable
  if (← isWord "of") || (← isWord "in") then r.overRest cx.inner
  else
    r.countingRest cx
    return false

def forStatement : Reader Unit := do
  advance
  let awaited ← takeWord "await"
  expectSign "("
  let overValues ← r.forHead { cx with loopHead := true }
  expectSign ")"
  r.body cx
  require (overValues || !awaited)

/-! ## Faults and jumps -/

def catchClause : Reader Unit := do
  if ← takeWord "catch" then
    if ← takeSign "(" then
      discard (r.binding cx)
      expectSign ")"
    r.block cx

def finallyClause : Reader Unit := do if ← takeWord "finally" then r.block cx

/-- A `try` may stand without its clauses. -/
def tryStatement : Reader Unit := do
  advance
  r.block cx
  r.catchClause cx
  r.finallyClause cx

/-- The clauses of a `try` may stand without it, and faults in them are let through. -/
def clauses : Reader Unit := do
  discard (attempt (r.catchClause cx))
  discard (attempt (r.finallyClause cx))

def jump : Reader Unit := do
  advance
  if !(← takeEnd) then
    discard bindingName
    endStatement

def returnStatement : Reader Unit := do
  advance
  if !(← get).isEnd then discard (r.expression cx.inner)
  endStatement

def throwStatement : Reader Unit := do
  advance
  require !(← isBroken)
  discard (r.expression cx.inner)
  endStatement

/-! ## Expressions as statements -/

/-- An expression, or a statement with a label. Operators behind a whole arrow function are let
through. -/
def expressionStatement : Reader Unit := do
  let operand ← r.expression cx.inner
  if operand = .name && (← isSign ":") then
    advance
    r.body cx
  else if !(← takeEnd) then
    require (isBinarySign (← get).token)
    discard (r.binaryRest cx .other)

/-- An import of a module whose name is computed. Its end may be missing. -/
def importStatement : Reader Unit := do
  let next := (← get).next.token
  require (next = .sign "(" || next = .sign ".")
  discard (r.expression cx)
  discard takeEnd

def awaitUsing : Reader Unit := do
  advance
  if startsResources (← get) then r.resources cx
  else
    discard (r.binaryRest cx.inner (← r.awaitRest cx))
    discard takeEnd

def wordStatement (word : String) : Reader Unit :=
  match word with
  | "class" => discard (r.namedClass cx)
  | "if" => r.ifStatement cx
  | "for" => r.forStatement cx
  | "while" | "with" => r.whileStatement cx
  | "do" => r.doStatement cx
  | "switch" => do
    advance
    r.condition cx
    r.switchRest cx
  | "try" => r.tryStatement cx
  | "catch" | "finally" => r.clauses cx
  | "break" | "continue" => jump
  | "return" => r.returnStatement cx
  | "throw" => r.throwStatement cx
  | "debugger" => do
    advance
    endStatement
  | "import" => r.importStatement cx
  | _ => r.expressionStatement cx

def statement (listed : Bool) : Reader Unit := do
  let c ← get
  if startsDeclaration listed c then discard (r.declaration cx)
  else if listed && startsResources c then r.resources cx
  else if listed && c.token.isWord "await" && c.next.token.isWord "using" then r.awaitUsing cx
  else if startsFunction c then discard (r.function cx bindingName)
  else match c.token with
    | .sign "\x7b" => r.block cx
    | .sign ";" => advance
    | .word word _ => r.wordStatement cx word
    | _ => r.expressionStatement cx

end Registrar.Module.Rules
