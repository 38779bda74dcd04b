import Registrar.NameSet

/-! # Catalogs

The names that a library exports: its components and its directives.
-/

namespace Registrar

structure Catalog where
  components : NameSet
  directives : NameSet

def Catalog.ofLists (components directives : List String) : Catalog :=
  ⟨.ofList components, .ofList directives⟩

end Registrar
