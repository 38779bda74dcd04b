import Registrar.Report

/-! # The command

The settings are resolved, the module is generated and the run is reported. A run that fails says
why on the error output and nothing on the standard output. A program that ends for a module that is
too large writes nothing more.
-/

namespace Registrar

open Registrar.Files

inductive CommandFault
  | settings (fault : SettingsFault)
  | generation (fault : GenerationFault)

def CommandFault.message : CommandFault → String
  | .settings fault => fault.message
  | .generation fault => fault.message

structure Outcome where
  exitCode : Nat
  output : String
  /-- The lines that the command writes to the error output. -/
  errors : List String
  fault : Option CommandFault

namespace Outcome

def errorText (o : Outcome) : String := Registration.unlines o.errors

end Outcome

namespace Command

def failed (notes : List String) (fault : CommandFault) : Outcome :=
  ⟨1, "", notes ++ ["Error: " ++ fault.message], some fault⟩

def aborted (notes : List String) : Outcome := ⟨101, "", notes, none⟩

/-- Run the command in a folder of a disk, where `verbose` is the value of the variable that asks
for notes. -/
def run (d : Disk) (profile : Profile) (color : Bool) (arguments : Arguments)
    (verbose : Option String) : Outcome :=
  match Settings.resolve d profile arguments verbose with
  | .error fault => failed [] (.settings fault)
  | .ok settings =>
    let notes :=
      if settings.verbose then
        Report.settingsLines color settings ++
          Report.scanLines color (Generation.warnings d profile settings.options)
      else []
    match Generation.run d profile settings.options with
    | .error _ => aborted notes
    | .ok (.error fault) => failed notes (.generation fault)
    | .ok (.ok generation) =>
      let summary := Report.Summary.ofGeneration generation
      ⟨0, Report.outputText summary,
        notes ++ Report.summaryLines color settings.verbose profile.package summary, none⟩

end Command

end Registrar
