/-! # The top level of a module

Only exported declarations are told apart; every other item is a bystander. Of an initial value, a
string literal that stands alone is kept.
-/

namespace Registrar.Module

inductive Value
  /-- A string literal; `none` if it is not a text, for want of half a surrogate pair. -/
  | literal (value : Option String)
  | other
deriving DecidableEq, Repr

structure Declarator where
  /-- `none` for a pattern. -/
  name : Option String
  init : Option Value
deriving DecidableEq, Repr

inductive Item
  | exportVariables (declarators : List Declarator)
  | exportFunction (name : String)
  | exportClass (name : String)
  | other
deriving DecidableEq, Repr

end Registrar.Module
