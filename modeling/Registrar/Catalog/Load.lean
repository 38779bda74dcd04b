import Registrar.Catalog.Basic
import Registrar.Catalog.Declarations
import Registrar.Files.Disk
import Registrar.Module.Grammar
import Registrar.Profile

/-! # Loading a catalog

The components of a library are declared in one file. Each directive has a folder of its own, whose
entry file has the same name as the folder; other files there are of no interest.
-/

namespace Registrar

open Registrar.Files

inductive CatalogFault
  | unreadableComponents (path : FilePath) (fault : Files.Fault)
  | unreadableDirective (path : FilePath) (fault : Files.Fault)
  | notModule (path : FilePath)
  | unexpectedStructure (path : FilePath) (fault : DeclarationFault)
  | noComponents (path : FilePath)
  | noDirectivesFolder (path : FilePath)
deriving DecidableEq, Repr

def CatalogFault.message : CatalogFault → String
  | .unreadableComponents path fault =>
    "Failed to read component declarations: " ++ path.text ++ ": " ++ fault.message
  | .unreadableDirective path fault =>
    "Failed to read directive source: " ++ path.text ++ ": " ++ fault.message
  | .notModule path => "Failed to parse " ++ path.text
  | .unexpectedStructure path fault =>
    "Unexpected structure in " ++ path.text ++ ": " ++ fault.message
  | .noComponents path => "No components declared in " ++ path.text
  | .noDirectivesFolder path => "Directives directory not found: " ++ path.text

namespace Profile

def componentsPath (profile : Profile) (root : FilePath) : FilePath :=
  root.join profile.componentsFile

def directivesPath (profile : Profile) (root : FilePath) : FilePath :=
  root.join profile.directivesFolder

end Profile

namespace Catalog

def parse (path : FilePath) (source : String) : Except CatalogFault (List Module.Item) :=
  match Module.read? source with
  | some items => .ok items
  | none => .error (.notModule path)

def loadComponents (d : Disk) (profile : Profile) (root : FilePath) :
    Except CatalogFault (List String) := do
  let path := profile.componentsPath root
  let source ← (d.readText path).mapError (.unreadableComponents path)
  let items ← parse path source
  let names ← (Declarations.componentNames items).mapError (.unexpectedStructure path)
  if names.isEmpty then .error (.noComponents path) else .ok names

/-- Whether a file is the entry file of the folder it stands in. -/
def isEntryName (sourceExtension folder file : String) : Bool :=
  splitName file.toList = (folder.toList, some sourceExtension.toList)

def entryFiles (d : Disk) (sourceExtension : String) (folder : FilePath) :
    Except CatalogFault (List FilePath) :=
  if d.isFolder folder then
    .ok <| (d.below folder).filterMap fun
      | ([inner, file], .file _) =>
        if isEntryName sourceExtension inner file then some ((folder.join inner).join file)
        else none
      | _ => none
  else .error (.noDirectivesFolder folder)

def entryExports (d : Disk) (path : FilePath) : Except CatalogFault (List String) := do
  let source ← (d.readText path).mapError (.unreadableDirective path)
  let items ← parse path source
  return Declarations.exportedNames items

def loadDirectives (d : Disk) (profile : Profile) (root : FilePath) :
    Except CatalogFault (List String) := do
  let paths ← entryFiles d profile.sourceExtension (profile.directivesPath root)
  let names ← paths.mapM (entryExports d)
  return names.flatten

def load (d : Disk) (profile : Profile) (root : FilePath) : Except CatalogFault Catalog := do
  let components ← loadComponents d profile root
  let directives ← loadDirectives d profile root
  return .ofLists components directives

end Catalog

end Registrar
