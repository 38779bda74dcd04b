import Registrar.Settings

/-! # Reports

The generated module is all that goes to the standard output, so that it can be kept as a file.
Notes and warnings go to the error output, with colours if the terminal shows them.
-/

namespace Registrar

namespace Report

def paint (color : Bool) (codes text : String) : String :=
  if color then "\x1b[" ++ codes ++ "m" ++ text ++ "\x1b[0m" else text

def boldCyan : String := "1;36"
def boldYellow : String := "1;33"
def cyan : String := "36"

def note (color : Bool) (text : String) : String := paint color boldCyan "note:" ++ " " ++ text

def warning (color : Bool) (text : String) : String :=
  paint color boldYellow "warning:" ++ " " ++ text

def settingsLines (color : Bool) (settings : Settings) : List String :=
  [match settings.configPath with
    | some path => note color ("using config " ++ path.text)
    | none => note color "no config file found, using defaults",
    note color ("library root " ++ settings.options.libraryRoot.text),
    note color ("wrap limit " ++ toString settings.options.layout.wrapLimit ++ ", indent size " ++
      toString settings.options.layout.indentSize)]

def scanLines (color : Bool) (warnings : List ScanWarning) : List String :=
  warnings.map fun w => warning color w.message

structure Summary where
  code : Option String
  catalogComponents : Nat
  catalogDirectives : Nat
  usedComponents : Nat
  usedDirectives : Nat
  filesScanned : Nat
  skipped : Nat

def Summary.ofGeneration (g : Generation) : Summary where
  code := g.code
  catalogComponents := g.catalog.components.size
  catalogDirectives := g.catalog.directives.size
  usedComponents := g.selection.components.size
  usedDirectives := g.selection.directives.size
  filesScanned := g.scan.files.length
  skipped := g.scan.skipped

def countText (components directives : Nat) : String :=
  toString components ++ " component(s) and " ++ toString directives ++ " directive(s)"

def summaryLines (color verbose : Bool) (package : String) (s : Summary) : List String :=
  (if s.code.isNone then
    [note color ("no " ++ package ++
      " components or directives are used, nothing to generate")] else []) ++
  (if verbose then
    [note color ("catalog has " ++ countText s.catalogComponents s.catalogDirectives),
      note color (toString s.filesScanned ++ " file(s) scanned, " ++
        countText s.usedComponents s.usedDirectives ++ " used")] else []) ++
  (if s.skipped > 0 && !verbose then
    [warning color (toString s.skipped ++ " path(s) could not be read (set " ++
      paint color cyan (Settings.verboseVariable ++ "=1") ++ " for details)")] else [])

def outputText (s : Summary) : String := s.code.getD ""

end Report

end Registrar
