import Registrar.Config.Basic
import Registrar.Json.Reader

/-! # Reading a configuration

The members of an object may stand in any order, each at most once; unknown ones are skipped. The
fields may also be written as a list, in their order and as far as they are wanted.
-/

namespace Registrar.Config

open Registrar.Json Registrar.Json.Reader

structure Draft where
  libraryRoot : Option (Option String) := none
  wrapLimit : Option Nat := none
  indentSize : Option Nat := none
  extensions : Option (List String) := none
  ignores : Option (List String) := none
  verbose : Option Bool := none

namespace Draft

/-- The configuration whose other fields have their standard values. -/
def complete (d : Draft) : Config where
  libraryRoot := d.libraryRoot.getD standard.libraryRoot
  wrapLimit := d.wrapLimit.getD standard.wrapLimit
  indentSize := d.indentSize.getD standard.indentSize
  extensions := d.extensions.getD standard.extensions
  ignores := d.ignores.getD standard.ignores
  verbose := d.verbose.getD standard.verbose

def field {α : Type} (key : String) (known : Option α) (value : Reader α) : Reader (Option α) := do
  if known.isSome then repeatedKey key
  else
    colon
    some <$> value

def member (d : Draft) (key : String) : Reader Draft := do
  match key with
  | "libraryRoot" => return { d with libraryRoot := ← field key d.libraryRoot (optional text) }
  | "wrapLimit" => return { d with wrapLimit := ← field key d.wrapLimit natural }
  | "indentSize" => return { d with indentSize := ← field key d.indentSize natural }
  | "extensions" => return { d with extensions := ← field key d.extensions (list text) }
  | "ignores" => return { d with ignores := ← field key d.ignores (list text) }
  | "verbose" => return { d with verbose := ← field key d.verbose boolean }
  | _ => do
    colon
    skipValue
    return d

def members : Nat → Bool → Draft → Reader Draft
  | 0, _, _ => fail .endInObject
  | fuel + 1, first, d => do
    if ← hasMember first then
      let d ← d.member (← key)
      members fuel false d
    else return d

def element {α : Type} (first : Bool) (value : Reader α) : Reader (Option α) := do
  if ← hasElement first then some <$> value else return none

/-- The fields as the elements of a list. -/
def elements : Reader Draft := do
  let libraryRoot ← element true (optional text)
  let wrapLimit ← element false natural
  let indentSize ← element false natural
  let extensions ← element false (list text)
  let ignores ← element false (list text)
  let verbose ← element false boolean
  return { libraryRoot, wrapLimit, indentSize, extensions, ignores, verbose }

end Draft

def reader : Reader Config := do
  match ← peekToken with
  | some '[' => do
    advance
    let d ← Draft.elements
    closeList
    return d.complete
  | some '\x7b' => do
    advance
    let d ← Draft.members ((← get).rest.length + 1) true {}
    advance
    return d.complete
  | _ => wrongKind "struct Config"

def read (source : String) : Except Fault Config := run reader source

end Registrar.Config
