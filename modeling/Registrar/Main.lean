import Registrar.Command

/-! # The program

The files that a run may look at are recorded as a file tree, the command is run on it, and its
two outputs are written.
-/

namespace Registrar.Program

open Registrar.Files

/-- A target for links that lead nowhere; no file has this name. -/
def nowhere : String := "\x00"

/-- What stands at a location, without the content of a file. -/
def kindAt (location : Location) : IO (Option IO.FS.FileType) := do
  let path := (← IO.currentDir) / (Disk.absolute location).text
  try
    return some (← path.symlinkMetadata).type
  catch _ => return none

def targetOf (location : Location) : IO String := do
  try
    return (← IO.FS.realPath (Disk.absolute location).text).toString
  catch _ => return nowhere

def contentOf (location : Location) : IO ByteArray := do
  try
    IO.FS.readBinFile (Disk.absolute location).text
  catch _ => return .empty

/-- Record what names lead to from a folder, with all links on the way. -/
partial def recordNames (t : FileTree) (here : Location) : List String → IO FileTree
  | [] => return t
  | name :: names => do
    if staysHere name then recordNames t here names
    else if name = ".." then recordNames t here.dropLast names
    else
      let next := here ++ [name]
      match ← kindAt next with
      | some .dir => recordNames (t.addFolder next) next names
      | some .symlink =>
        let target ← targetOf next
        let t := t.add next (.link target)
        if target = nowhere then return t else recordNames t [] (pathNames target ++ names)
      | some _ => return t.add next (.file (← contentOf next))
      | none => return t

def recordPath (d : Disk) (p : FilePath) : IO Disk := do
  return { d with
    tree := ← recordNames d.tree (if p.isAbsolute then [] else d.here) (pathNames p.text) }

partial def recordFiles (wanted : String → Bool) (t : FileTree) (folder : Location) :
    IO FileTree := do
  let path := (← IO.currentDir) / (Disk.absolute folder).text
  let found ← try path.readDir catch _ => pure #[]
  let mut t := t
  for e in found do
    let location := folder ++ [e.fileName]
    match ← kindAt location with
    | some .dir => t ← recordFiles wanted t location
    | some .file =>
      if wanted e.fileName then t := t.add location (.file (← contentOf location))
    | _ => pure ()
  return t

def recordBelow (wanted : String → Bool) (d : Disk) (p : FilePath) : IO Disk := do
  let d ← recordPath d p
  match d.folderAt? p with
  | none => return d
  | some location => return { d with tree := ← recordFiles wanted d.tree location }

def hasExtension (extensions : List String) (name : String) : Bool :=
  (splitName name.toList).2.any fun e => extensions.contains (String.ofList e)

def recordLibrary (profile : Profile) (d : Disk) (p : FilePath) : IO Disk := do
  let mut d := d
  for root in [p, p.join profile.package] do
    d ← recordPath d root
    d ← recordPath d (profile.componentsPath root)
    d ← recordBelow (hasExtension [profile.sourceExtension]) d (profile.directivesPath root)
  return d

/-- Record what a run in a folder may look at. -/
def record (profile : Profile) (here : Location) (arguments : Arguments) : IO Disk := do
  let markupRoot : FilePath := ⟨arguments.markupRoot⟩
  let mut d : Disk := ⟨FileTree.empty.addFolder here, here⟩
  d ← recordPath d markupRoot
  for folder in markupRoot.ancestors do
    d ← recordPath d (folder.join ConfigFile.fileName)
    d ← recordPath d (folder.join ConfigFile.repositoryMark)
  let loaded := (LoadedConfig.load d markupRoot).toOption.getD ⟨.standard, none⟩
  d ← recordBelow (hasExtension loaded.config.extensions) d markupRoot
  let installed := match d.canonical markupRoot with
    | .ok start => start.ancestors.map (Library.installed profile)
    | .error _ => []
  let given := (arguments.givenLibrary?.map FilePath.mk).toList ++ loaded.libraryRoot?.toList
  for root in given ++ installed do
    d ← recordLibrary profile d root
  return d

def usageText : String :=
  "Usage: bvtrim <MARKUP_ROOT> [LIBRARY_ROOT] [WRAP_LIMIT] [INDENT_SIZE]\n"

def versionText : String := "bvtrim 0.1.0\n"

def usageMessage : UsageFault → String
  | .missingMarkupRoot => "the argument <MARKUP_ROOT> is missing"
  | .emptyMarkupRoot => "the argument <MARKUP_ROOT> is empty"
  | .invalidNumber => "an argument is no number"
  | .unknownArgument => "there is an unexpected argument"

def generate (arguments : Arguments) : IO UInt32 := do
  let here := pathNames (← IO.FS.realPath (← IO.currentDir)).toString |>.filter (!staysHere ·)
  let d ← record bootstrapVue here arguments
  let verbose ← IO.getEnv Settings.verboseVariable
  let color ← (← IO.getStdout).isTty
  let outcome := Command.run d bootstrapVue color arguments verbose
  IO.print outcome.output
  IO.eprint outcome.errorText
  return outcome.exitCode.toUInt32

end Registrar.Program

open Registrar Registrar.Program

def main (words : List String) : IO UInt32 := do
  match Arguments.read words with
  | .ok (.generate arguments) => generate arguments
  | .ok .help => do IO.print usageText; return 0
  | .ok .version => do IO.print versionText; return 0
  | .error fault => do IO.eprint ("error: " ++ usageMessage fault ++ "\n\n" ++ usageText); return 2
