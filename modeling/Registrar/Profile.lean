/-! # Conventions of a component library

Where a library keeps its declarations, how it names what it exports, and the runtime on which its
parts are registered.
-/

namespace Registrar

structure Profile where
  /-- The name of the package, from which the generated module imports. -/
  package : String
  /-- The folder under which packages are installed. -/
  dependencyFolder : String
  /-- The file that declares the names of the components. -/
  componentsFile : String
  /-- The folder that holds one folder for each directive. -/
  directivesFolder : String
  /-- The extension of source files, without the dot. -/
  sourceExtension : String
  /-- The character in front of the name of every exported directive. -/
  marker : Char
  /-- The identifier on which parts are registered. -/
  binding : String
  /-- The module that exports the binding. -/
  runtimeModule : String
deriving DecidableEq, Repr

def bootstrapVue : Profile where
  package := "bootstrap-vue"
  dependencyFolder := "node_modules"
  componentsFile := "src/constants/components.js"
  directivesFolder := "src/directives"
  sourceExtension := "js"
  marker := 'V'
  binding := "Vue"
  runtimeModule := "vue"

end Registrar
