import Registrar.Module.Cursor
import Registrar.Module.Item

/-! # Rules of the grammar

The rules refer to each other through `Rules`, which is closed elsewhere. They follow the grammar
and leave most rules on the meaning of names aside.
-/

namespace Registrar.Module

/-- What the place of an expression or statement allows. -/
structure Context where
  /-- `in` is an operator. -/
  inOperator : Bool
  /-- `yield` is an operator. -/
  generator : Bool
  /-- `await` is never a name. -/
  asynchronous : Bool
  /-- Members of `super` are known. -/
  superMembers : Bool
  /-- It is the head of a loop. -/
  loopHead : Bool

def Context.inner (cx : Context) : Context := { cx with inOperator := true }

def Context.inArrow (cx : Context) (asynchronous : Bool) : Context :=
  { cx with generator := false, asynchronous }

/-- What an operand is good for besides being read. -/
inductive Operand
  /-- A string literal that stands alone. -/
  | literal (value : Option String)
  | name
  /-- A member, or something in parentheses: a value may be assigned to it. -/
  | place
  /-- A place that is reached by an optional step. -/
  | chain
  /-- A literal of an array or object, and whether it may be a pattern of places to assign to or one
  of names to bind. -/
  | pattern (assignable bindable : Bool)
  /-- Behind an operator that is no `await`. -/
  | signed
  | awaited
  /-- With an operator behind it or on both sides. -/
  | computed
  /-- A whole arrow function, which nothing may follow. -/
  | arrow
  | other
deriving DecidableEq

namespace Operand

def value : Operand → Value
  | .literal v => .literal v
  | _ => .other

def isAssignable : Operand → Bool
  | .pattern assignable _ => assignable
  | _ => true

def isBindable : Operand → Bool
  | .pattern _ bindable => bindable
  | _ => true

/-- Whether an assignment operator may stand behind the operand. -/
def takes (operator : Token) : Operand → Bool
  | .name | .place | .chain => true
  | .pattern assignable _ => assignable && operator = .sign "="
  | _ => false

end Operand

inductive Goal
  | assignment (cx : Context)
  | expression (cx : Context)
  | unary (cx : Context)
  | target (cx : Context)
  | construction (cx : Context)
  | binding (cx : Context)
  /-- A statement, which may declare names if it is `listed` among others. -/
  | statement (cx : Context) (listed : Bool)

abbrev Goal.Result : Goal → Type
  | .binding _ => Option String
  | .statement _ _ => Unit
  | _ => Operand

/-- The rules that a rule may refer to, and a bound on the rounds of a loop. -/
structure Rules where
  bound : Nat
  read : (goal : Goal) → Reader goal.Result

namespace Rules

variable (r : Rules) (cx : Context)

def assignment : Reader Operand := r.read (.assignment cx)

def expression : Reader Operand := r.read (.expression cx)

def unary : Reader Operand := r.read (.unary cx)

/-- A name or a pattern; a name is given back. -/
def binding : Reader (Option String) := r.read (.binding cx)

end Rules

end Registrar.Module
