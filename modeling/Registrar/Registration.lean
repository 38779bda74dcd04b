import Registrar.Profile
import Registrar.Selection
import Registrar.Text.Size

/-! # The registration module

The module imports the runtime and the selected names, then registers each component and each
directive on a line of its own. An import that would be too long is written with one name a line.
There is no module if a text on the way to it would be larger than texts can be.
-/

namespace Registrar

structure Layout where
  /-- The most characters of an import on one line. -/
  wrapLimit : Nat
  /-- The blanks in front of a name on a line of its own. -/
  indentSize : Nat
deriving DecidableEq, Repr

def Layout.standard : Layout := ⟨80, 2⟩

def Selection.imports (selection : Selection) : List String :=
  selection.components.names ++ selection.directives.names

namespace Registration

def importLine (package : String) (names : List String) : String :=
  "import \x7b " ++ ", ".intercalate names ++ " \x7d from '" ++ package ++ "';"

def nameLine (indent name : String) : String := indent ++ name ++ ","

def wrappedLines (package indent : String) (names : List String) : List String :=
  "import \x7b" :: names.map (nameLine indent) ++ ["\x7d from '" ++ package ++ "';"]

def importLines (package : String) (layout : Layout) (names : List String) :
    Except Text.Overflow (List String) :=
  if (importLine package names).length ≤ layout.wrapLimit then .ok [importLine package names]
  else (Text.makeBlanks layout.indentSize).map (wrappedLines package · names)

/-- The import without the end of its last line. -/
def importStatement (package : String) (layout : Layout) (names : List String) :
    Except Text.Overflow String := do
  Text.bounded ("\n".intercalate (← importLines package layout names))

def runtimeLine (profile : Profile) : String :=
  "import " ++ profile.binding ++ " from '" ++ profile.runtimeModule ++ "';"

def componentLine (profile : Profile) (name : String) : String :=
  profile.binding ++ ".component('" ++ name ++ "', " ++ name ++ ");"

def directiveLine (profile : Profile) (name : String) : String :=
  profile.binding ++ ".directive('" ++ Naming.registeredName profile.marker name ++ "', " ++ name ++
    ");"

/-- The lines of a module that registers a selection, around those of its import. -/
def moduleLines (profile : Profile) (selection : Selection) (importLines : List String) :
    List String :=
  let components := selection.components.names
  let directives := selection.directives.names
  runtimeLine profile :: importLines ++ [""] ++ components.map (componentLine profile) ++
    (if components.isEmpty || directives.isEmpty then [] else [""]) ++
    directives.map (directiveLine profile)

def unlines (lines : List String) : String := String.join (lines.map (· ++ "\n"))

/-- The module that registers a selection; there is none for an empty one. -/
def generate (profile : Profile) (layout : Layout) (selection : Selection) :
    Except Text.Overflow (Option String) :=
  if selection.isEmpty then .ok none
  else do
    let lines ← importLines profile.package layout selection.imports
    return some (← Text.bounded (unlines (moduleLines profile selection lines)))

end Registration

end Registrar
