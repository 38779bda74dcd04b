import Registrar.Files.Disk
import Registrar.Files.Glob

/-! # Scanning for files

A scan lists the files below a folder that have one of the wanted extensions and whose path no
pattern describes. Folders are entered whether or not a pattern describes their path. The files
stand in the order of a tree, entries of a folder sorted by name.
-/

namespace Registrar

open Registrar.Files

inductive ScanWarning
  | invalidPattern (pattern : String) (fault : Glob.Fault)
  | unreachable (path : FilePath) (fault : Files.Fault)
deriving DecidableEq, Repr

def ScanWarning.message : ScanWarning → String
  | .invalidPattern pattern fault =>
    "Invalid ignore pattern '" ++ pattern ++ "': " ++ fault.message
  | .unreachable path fault =>
    "Cannot access path: IO error for operation on " ++ path.text ++ ": " ++ fault.message

structure Scan where
  files : List FilePath
  warnings : List ScanWarning
  /-- The number of entries that could not be reached. -/
  skipped : Nat

namespace Scan

def entryPath (root : FilePath) (names : Location) : FilePath := names.foldl FilePath.join root

/-- The entries from a path on, each with its path. A link is followed at the very start. -/
def entries (d : Disk) (root : FilePath) : Except Files.Fault (List (FilePath × Node)) :=
  match d.find false root with
  | .error fault => .error fault
  | .ok (_, node) =>
    let inner := (d.below root).map fun e => (entryPath root e.1, e.2)
    match node with
    | .link _ => (d.node root).map fun _ => (root, node) :: inner
    | _ => .ok ((root, node) :: inner)

def patterns (ignores : List String) : List Glob :=
  ignores.filterMap fun text => (Glob.ofText text).toOption

def patternWarnings (ignores : List String) : List ScanWarning :=
  ignores.filterMap fun text =>
    match Glob.ofText text with
    | .ok _ => none
    | .error fault => some (.invalidPattern text fault)

def selects (extensions : List String) (ignored : List Glob) (e : FilePath × Node) : Bool :=
  !ignored.any (·.describes e.1.text) &&
    match e.2 with
    | .file _ => e.1.extension?.any extensions.contains
    | _ => false

def run (d : Disk) (root : FilePath) (extensions ignores : List String) : Scan :=
  match entries d root with
  | .ok found =>
    ⟨(found.filter (selects extensions (patterns ignores))).map Prod.fst, patternWarnings ignores,
      0⟩
  | .error fault => ⟨[], patternWarnings ignores ++ [.unreachable root fault], 1⟩

end Scan

end Registrar
