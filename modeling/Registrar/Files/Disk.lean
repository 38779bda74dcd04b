import Registrar.Files.FilePath
import Registrar.Files.Tree

/-! # Looking up paths

A disk is a file tree and the folder from which relative paths are seen. A path is followed name by
name, through links and to outer folders, until it ends or leads nowhere.
-/

namespace Registrar.Files

inductive Fault
  | notFound
  | notFolder
  | isFolder
  | tooManyLinks
  | nameTooLong
  | zeroInName
  | notText
deriving DecidableEq, Repr

def Fault.message : Fault → String
  | .notFound => "No such file or directory (os error 2)"
  | .notFolder => "Not a directory (os error 20)"
  | .isFolder => "Is a directory (os error 21)"
  | .tooManyLinks => "Too many levels of symbolic links (os error 40)"
  | .nameTooLong => "File name too long (os error 36)"
  | .zeroInName => "file name contained an unexpected NUL byte"
  | .notText => "stream did not contain valid UTF-8"

def pathNames (text : String) : List String := (segments text.toList).map String.ofList

/-- Whether a name leads nowhere else. -/
def staysHere (name : String) : Bool := name = "" || name = "."

/-- The most bytes of a name, and of a whole path. -/
def maxNameSize : Nat := 255
def maxPathSize : Nat := 4095

/-- The most links that are followed on one way. -/
def maxLinks : Nat := 40

/-- Follow names from a folder. A link at the end is followed if `last`. -/
def FileTree.follow (t : FileTree) (last : Bool) (links : Nat) (here : Location) :
    List String → Except Fault (Location × Node)
  | [] => .ok (here, .folder)
  | name :: names =>
    if staysHere name then t.follow last links here names
    else if name = ".." then t.follow last links here.dropLast names
    else if name.utf8ByteSize > maxNameSize then .error .nameTooLong
    else
      let next := here ++ [name]
      match t.lookup next with
      | none => .error .notFound
      | some .folder => t.follow last links next names
      | some (.file content) =>
        if names.isEmpty then .ok (next, .file content) else .error .notFolder
      | some (.link target) =>
        if names.isEmpty && !last then .ok (next, .link target)
        else
          match links with
          | 0 => .error .tooManyLinks
          | links + 1 =>
            t.follow last links (if (FilePath.mk target).isAbsolute then [] else here)
              (pathNames target ++ names)
termination_by names => (links, names.length)

structure Disk where
  tree : FileTree
  /-- The folder from which relative paths are seen. -/
  here : Location

namespace Disk

variable (d : Disk)

/-- What a path leads to, and where that is. A link at the end is followed if `last`. -/
def find (last : Bool) (p : FilePath) : Except Fault (Location × Node) :=
  if p.text.toList.contains '\x00' then .error .zeroInName
  else if p.text.isEmpty then .error .notFound
  else if p.text.utf8ByteSize > maxPathSize then .error .nameTooLong
  else d.tree.follow last maxLinks (if p.isAbsolute then [] else d.here) (pathNames p.text)

def resolve (p : FilePath) : Except Fault Location := (d.find true p).map Prod.fst

def node (p : FilePath) : Except Fault Node := (d.find true p).map Prod.snd

def has (p : FilePath) : Bool := (d.node p).isOk

def isFolder (p : FilePath) : Bool :=
  match d.node p with
  | .ok .folder => true
  | _ => false

def isFile (p : FilePath) : Bool :=
  match d.node p with
  | .ok (.file _) => true
  | _ => false

def readText (p : FilePath) : Except Fault String :=
  match d.node p with
  | .error fault => .error fault
  | .ok .folder => .error .isFolder
  | .ok (.link _) => .error .tooManyLinks
  | .ok (.file content) =>
    match String.fromUTF8? content with
    | some text => .ok text
    | none => .error .notText

def absolute (location : Location) : FilePath := ⟨"/" ++ "/".intercalate location⟩

def canonical (p : FilePath) : Except Fault FilePath := (d.resolve p).map absolute

/-- Whether a path leads to a folder, be it through a link, and where that is. -/
def folderAt? (p : FilePath) : Option Location :=
  match d.find true p with
  | .ok (location, .folder) => some location
  | _ => none

/-- What is below the folder that a path leads to: the names from there, and what they name. Links
below the folder are not followed. -/
def below (p : FilePath) : List Entry :=
  match d.folderAt? p with
  | some location => d.tree.below location
  | none => []

end Disk

end Registrar.Files
