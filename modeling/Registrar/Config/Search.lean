import Registrar.Config.Reader
import Registrar.Files.Disk

/-! # The configuration file

The file is looked for in a folder and in the folders around it as its path names them, but not
beyond the root of a repository.
-/

namespace Registrar

open Registrar.Files

inductive ConfigFileFault
  | unreadable (path : FilePath) (fault : Files.Fault)
  | malformed (path : FilePath) (fault : Json.Fault)
  | invalid (fault : ConfigFault)

def ConfigFileFault.message : ConfigFileFault → String
  | .unreadable path fault =>
    "Failed to read config file: " ++ path.text ++ ": " ++ fault.message
  | .malformed path fault =>
    "Failed to parse config file: " ++ Text.quoteText path.text ++ ": " ++ fault.message
  | .invalid fault => fault.message

namespace ConfigFile

def fileName : String := ".bvtrimrc.json"

def repositoryMark : String := ".git"

/-- The configuration file in the first of some folders that has one, no further than the first
that is the root of a repository. -/
def findAmong (d : Disk) : List FilePath → Option FilePath
  | [] => none
  | folder :: folders =>
    if d.has (folder.join fileName) then some (folder.join fileName)
    else if d.has (folder.join repositoryMark) then none
    else findAmong d folders

def find (d : Disk) (start : FilePath) : Option FilePath := findAmong d start.ancestors

end ConfigFile

structure LoadedConfig where
  config : Config
  path : Option FilePath

namespace LoadedConfig

def ofFile (d : Disk) (path : FilePath) : Except ConfigFileFault LoadedConfig := do
  let source ← (d.readText path).mapError (.unreadable path)
  let config ← (Config.read source).mapError (.malformed path)
  match config.fault? with
  | some fault => .error (.invalid fault)
  | none => .ok ⟨config, some path⟩

def load (d : Disk) (start : FilePath) : Except ConfigFileFault LoadedConfig :=
  match ConfigFile.find d start with
  | none => .ok ⟨.standard, none⟩
  | some path => ofFile d path

/-- Where the configuration says that the library is, seen from the folder of its file. -/
def libraryRoot? (loaded : LoadedConfig) : Option FilePath :=
  loaded.config.libraryRoot.map fun root =>
    match loaded.path.bind FilePath.parent? with
    | some base => base.join root
    | none => ⟨root⟩

end LoadedConfig

end Registrar
