import Registrar.Module.Export

/-! # Reading a module

The rules are closed by letting every reference to a rule use up one unit of depth. No more than
three references follow each other without a token between them, so a depth of four times the length
of the source is enough.
-/

namespace Registrar.Module

open Reader

def Rules.rule (r : Rules) : (goal : Goal) → Reader goal.Result
  | .assignment cx => r.assignmentExpression cx
  | .expression cx => r.expressionList cx
  | .unary cx => r.unaryExpression cx
  | .target cx => r.operand cx true
  | .construction cx => r.construction cx
  | .binding cx => r.bindingTarget cx
  | .statement cx listed => r.statement cx listed

def readGoal (bound : Nat) : Nat → (goal : Goal) → Reader goal.Result
  | 0, _ => failure
  | depth + 1, goal => Rules.rule ⟨bound, readGoal bound depth⟩ goal

namespace Rules

variable (r : Rules)

/-- Statements do not take `in` for an operator by themselves; most of their expressions do. -/
def topLevel : Context where
  inOperator := false
  generator := false
  asynchronous := false
  superMembers := false
  loopHead := false

def item : Reader Item := do
  let c ← get
  if c.token.isWord "export" then r.exportDeclaration topLevel
  else
    if c.token.isWord "import" && c.next.token ≠ .sign "(" && c.next.token ≠ .sign "." then
      r.importDeclaration topLevel
    else r.statement topLevel true
    return .other

def items : Reader (List Item) :=
  iterate (fun items => do
    if (← get).token = .finish then return .inr items.reverse
    return .inl ((← r.item) :: items)) r.bound []

end Rules

/-- The cursor behind a byte order mark and a line that names an interpreter. -/
def firstCursor (source : List Char) : Cursor :=
  match if source.head? = some '\ufeff' then source.tail else source with
  | '#' :: '!' :: cs => Cursor.ofText false true (dropLine cs)
  | text => Cursor.ofText true true text

/-- The items of a module; `none` if the source is not one. -/
def read? (source : String) : Option (List Item) :=
  let text := source.toList
  let bound := text.length + 1
  let rules : Rules := ⟨bound, readGoal bound (4 * bound)⟩
  (rules.items (firstCursor text)).1

end Registrar.Module
