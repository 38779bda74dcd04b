import Registrar.Catalog.Load

/-! # Finding the library

The package of a library is looked for in the dependency folders of a folder and of all folders
around it, unless a path to it is given. Such a path may also lead to the dependency folder.
-/

namespace Registrar

open Registrar.Files

inductive LibraryFault
  | unresolved (path : FilePath) (fault : Files.Fault)
  | notFound (profile : Profile) (start : FilePath)
  | noFolder (path : FilePath)
deriving DecidableEq, Repr

def LibraryFault.message : LibraryFault → String
  | .unresolved path fault => "Cannot resolve path: " ++ path.text ++ ": " ++ fault.message
  | .notFound profile start =>
    "Cannot find \"" ++ profile.dependencyFolder ++ "/" ++ profile.package ++ "\" above " ++
      start.text ++ "; pass the path to the " ++ profile.package ++
      " package as the second argument"
  | .noFolder path => "Library path does not exist or is not a directory: " ++ path.text

namespace Library

/-- Whether the file that declares the components is there. -/
def isRoot (d : Disk) (profile : Profile) (root : FilePath) : Bool :=
  d.isFile (profile.componentsPath root)

def installed (profile : Profile) (folder : FilePath) : FilePath :=
  (folder.join profile.dependencyFolder).join profile.package

/-- The package that is installed in the nearest folder from `start` outwards. -/
def locate (d : Disk) (profile : Profile) (start : FilePath) : Except LibraryFault FilePath :=
  match d.canonical start with
  | .error fault => .error (.unresolved start fault)
  | .ok start =>
    match (start.ancestors.map (installed profile)).find? d.isFolder with
    | some root => .ok root
    | none => .error (.notFound profile start)

/-- The library at a given path, or else the one that is installed around the markup. -/
def resolve (d : Disk) (profile : Profile) (given : Option FilePath) (markupRoot : FilePath) :
    Except LibraryFault FilePath :=
  match given with
  | none => locate d profile markupRoot
  | some path =>
    if d.isFolder path then
      let nested := path.join profile.package
      if !isRoot d profile path && d.isFolder nested then .ok nested else .ok path
    else .error (.noFolder path)

end Library

end Registrar
