import Registrar.Catalog.Load
import Registrar.Registration
import Registrar.Scan

/-! # Generating the module for a folder of markup

The catalog of the library is loaded first. Then the markup files are read one by one; the first
one that cannot be read or parsed is the fault of the run. A run that finds no fault writes the
module, or else the program ends since the module is too large.
-/

namespace Registrar

open Registrar.Files

structure GenerationOptions where
  markupRoot : FilePath
  libraryRoot : FilePath
  extensions : List String
  ignores : List String
  layout : Layout
deriving DecidableEq, Repr

inductive GenerationFault
  | noMarkupFolder (path : FilePath)
  | catalog (fault : CatalogFault)
  | unreadable (path : FilePath) (fault : Files.Fault)
  | malformed (path : FilePath) (fault : Markup.Fault) (source : String)
deriving DecidableEq, Repr

def GenerationFault.message : GenerationFault → String
  | .noMarkupFolder path =>
    "Markup directory does not exist or is not a directory: " ++ path.text
  | .catalog fault => fault.message
  | .unreadable path fault => "Failed to read " ++ path.text ++ ": " ++ fault.message
  | .malformed path fault source => "Failed to parse " ++ path.text ++ ": " ++ fault.message source

structure Findings where
  selection : Selection
  catalog : Catalog
  scan : Scan

structure Generation extends Findings where
  code : Option String

namespace Generation

def readTemplate (d : Disk) (path : FilePath) : Except GenerationFault Markup.TemplateUsage :=
  match d.readText path with
  | .error fault => .error (.unreadable path fault)
  | .ok source => (Markup.TemplateUsage.read source).mapError (.malformed path · source)

def readTemplates (d : Disk) (paths : List FilePath) : Except GenerationFault MarkupUsage :=
  (paths.mapM (readTemplate d)).map MarkupUsage.ofTemplates

def checkMarkupRoot (d : Disk) (root : FilePath) : Except GenerationFault Unit :=
  if d.isFolder root then .ok () else .error (.noMarkupFolder root)

/-- The catalog, if the run comes as far as the scan. -/
def prepare (d : Disk) (profile : Profile) (options : GenerationOptions) :
    Except GenerationFault Catalog := do
  checkMarkupRoot d options.markupRoot
  (Catalog.load d profile options.libraryRoot).mapError .catalog

def scanMarkup (d : Disk) (options : GenerationOptions) : Scan :=
  .run d options.markupRoot options.extensions options.ignores

def findings (d : Disk) (profile : Profile) (options : GenerationOptions) :
    Except GenerationFault Findings := do
  let catalog ← prepare d profile options
  let scan := scanMarkup d options
  let usage ← readTemplates d scan.files
  return { selection := .ofUsage usage catalog profile.marker, catalog, scan }

/-- What a run returns, be it a fault, unless the program ends on the way. -/
def run (d : Disk) (profile : Profile) (options : GenerationOptions) :
    Except Text.Overflow (Except GenerationFault Generation) :=
  match findings d profile options with
  | .error fault => .ok (.error fault)
  | .ok found => do
    let code ← Registration.generate profile options.layout found.selection
    return .ok { found with code }

/-- What the scan of a run warns of, even if the run fails later on. -/
def warnings (d : Disk) (profile : Profile) (options : GenerationOptions) : List ScanWarning :=
  match prepare d profile options with
  | .ok _ => (scanMarkup d options).warnings
  | .error _ => []

end Generation

end Registrar
