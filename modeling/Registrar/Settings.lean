import Registrar.Arguments
import Registrar.Config.Search
import Registrar.Generation
import Registrar.Library

/-! # Settings

What the arguments leave open is taken from the configuration, and what that leaves open has a
standard value.
-/

namespace Registrar

open Registrar.Files

inductive SettingsFault
  | noMarkupFolder (path : FilePath)
  | config (fault : ConfigFileFault)
  | library (fault : LibraryFault)

def SettingsFault.message : SettingsFault → String
  | .noMarkupFolder path => (GenerationFault.noMarkupFolder path).message
  | .config fault => fault.message
  | .library fault => fault.message

structure Settings where
  options : GenerationOptions
  verbose : Bool
  /-- The file of the configuration. -/
  configPath : Option FilePath
deriving DecidableEq, Repr

namespace Settings

def falseTexts : List String := ["", "0", "false", "FALSE", "False"]

def saysYes (value : String) : Bool :=
  !falseTexts.contains (String.ofList (Text.trim value.toList))

def verboseVariable : String := "BVTRIM_VERBOSE"

def layout (arguments : Arguments) (config : Config) : Layout :=
  ⟨arguments.wrapLimit.getD config.wrapLimit, arguments.indentSize.getD config.indentSize⟩

/-- The settings of a run, where `verbose` is the value of the variable that asks for notes. -/
def resolve (d : Disk) (profile : Profile) (arguments : Arguments) (verbose : Option String) :
    Except SettingsFault Settings := do
  let markupRoot : FilePath := ⟨arguments.markupRoot⟩
  if !d.isFolder markupRoot then throw (.noMarkupFolder markupRoot)
  let loaded ← (LoadedConfig.load d markupRoot).mapError .config
  let given := (arguments.givenLibrary?.map FilePath.mk).or loaded.libraryRoot?
  let libraryRoot ← (Library.resolve d profile given markupRoot).mapError .library
  return {
    options := {
      markupRoot, libraryRoot
      extensions := loaded.config.extensions
      ignores := loaded.config.ignores
      layout := layout arguments loaded.config }
    verbose := loaded.config.verbose || verbose.any saysYes
    configPath := loaded.path }

end Settings

end Registrar
