import Registrar.Files.Glob
import Registrar.Json.Value
import Registrar.Registration

/-! # Configurations

A configuration may be kept in a file. What it leaves out has a standard value.
-/

namespace Registrar

structure Config where
  /-- Where the library is, seen from the folder of the configuration file. -/
  libraryRoot : Option String
  wrapLimit : Nat
  indentSize : Nat
  /-- The extensions of the files that hold templates, without the dot. -/
  extensions : List String
  /-- Patterns of paths that are passed over. -/
  ignores : List String
  verbose : Bool
deriving DecidableEq, Repr

inductive ConfigFault
  | invalidPattern (pattern : String) (fault : Files.Glob.Fault)
  | noExtensions
deriving DecidableEq, Repr

def ConfigFault.message : ConfigFault → String
  | .invalidPattern pattern fault =>
    "Invalid glob pattern in 'ignores': \"" ++ pattern ++ "\": " ++ fault.message
  | .noExtensions => "'extensions' must list at least one file extension"

namespace Config

def standard : Config where
  libraryRoot := none
  wrapLimit := Layout.standard.wrapLimit
  indentSize := Layout.standard.indentSize
  extensions := ["vue"]
  ignores := []
  verbose := false

def patternFault? : List String → Option ConfigFault
  | [] => none
  | pattern :: patterns =>
    match Files.Glob.ofText pattern with
    | .ok _ => patternFault? patterns
    | .error fault => some (.invalidPattern pattern fault)

/-- What is wrong with the values of a configuration, the first fault first. -/
def fault? (config : Config) : Option ConfigFault :=
  match patternFault? config.ignores with
  | some fault => some fault
  | none => if config.extensions.isEmpty then some .noExtensions else none

/-- The configuration as an object. A library that is not given is left out. -/
def toJson (config : Config) : Json.Value :=
  .object <|
    (config.libraryRoot.toList.map fun root => ("libraryRoot", .string root)) ++
    [("wrapLimit", .natural config.wrapLimit),
      ("indentSize", .natural config.indentSize),
      ("extensions", .array (config.extensions.map .string)),
      ("ignores", .array (config.ignores.map .string)),
      ("verbose", .bool config.verbose)]

def render (config : Config) : String := config.toJson.render

end Config

end Registrar
