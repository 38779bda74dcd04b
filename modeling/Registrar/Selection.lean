import Registrar.Catalog.Basic
import Registrar.Markup.Usage
import Registrar.Naming.Case

/-! # Selecting from a catalog

The names that templates use are merged over all files. A name selects the entry of its own
category under the name that the library gives it; names without an entry select nothing.
-/

namespace Registrar

/-- The names that templates use, as they are written. -/
structure MarkupUsage where
  components : NameSet
  directives : NameSet

namespace MarkupUsage

def empty : MarkupUsage := ⟨.empty, .empty⟩

def merge (usage : MarkupUsage) (template : Markup.TemplateUsage) : MarkupUsage :=
  ⟨usage.components.insertAll template.components, usage.directives.insertAll template.directives⟩

def ofTemplates (templates : List Markup.TemplateUsage) : MarkupUsage :=
  templates.foldl merge empty

end MarkupUsage

structure Selection where
  components : NameSet
  directives : NameSet

namespace Selection

def isEmpty (s : Selection) : Bool := s.components.isEmpty && s.directives.isEmpty

def ofUsage (usage : MarkupUsage) (catalog : Catalog) (marker : Char) : Selection where
  components := .ofList <|
    (usage.components.names.map Naming.componentName).filter catalog.components.contains
  directives := .ofList <|
    (usage.directives.names.map (Naming.directiveName marker)).filter catalog.directives.contains

end Selection

end Registrar
