import Registrar.Module.Item

/-! # What sources declare

The components of a library are the values of exported string constants. Its directives are the
names of exported variables, functions and classes.
-/

namespace Registrar

open Registrar.Module

/-- Why a file is no list of exported string constants. -/
inductive DeclarationFault
  | notExported
  | notVariables
  | notLiteral (name : String)
  | notText (name : String)
deriving DecidableEq, Repr

def DeclarationFault.message : DeclarationFault → String
  | .notExported => "expected only exported declarations at the top level"
  | .notVariables => "expected only exported variable declarations at the top level"
  | .notLiteral name => "`" ++ name ++ "` is not initialized with a string literal"
  | .notText name => "`" ++ name ++ "` is not a valid UTF-8 string"

namespace Declarations

def label (d : Declarator) : String := d.name.getD "<pattern>"

def value (d : Declarator) : Except DeclarationFault String :=
  match d.init with
  | some (.literal (some s)) => .ok s
  | some (.literal none) => .error (.notText (label d))
  | _ => .error (.notLiteral (label d))

def itemValues : Item → Except DeclarationFault (List String)
  | .exportVariables declarators => declarators.mapM value
  | .exportFunction _ => .error .notVariables
  | .exportClass _ => .error .notVariables
  | .other => .error .notExported

def componentNames (items : List Item) : Except DeclarationFault (List String) :=
  (items.mapM itemValues).map List.flatten

def itemExports : Item → List String
  | .exportVariables declarators => declarators.filterMap (·.name)
  | .exportFunction name => [name]
  | .exportClass name => [name]
  | .other => []

/-- The names that a file exports by declaring them, in order. -/
def exportedNames (items : List Item) : List String := items.flatMap itemExports

end Declarations

end Registrar
