import CellScript.Command.Line
import CellScript.Release.Constraint
import CellScript.Settings.Save
import CellScript.Stream.Cause

/-! Why a command fails. -/
namespace CellScript.Command

inductive Failure where
  | line (error : Line.Error)
  | settings (error : Settings.LoadError)
  /-- The version does not do for the settings of a file, or of no file. -/
  | version (file : Text) (error : Release.Error)
  | plan (error : Plan.Error)
  /-- A run over the standard input stopped. -/
  | stopped (stop : Stream.Stop)
  /-- A run over a file stopped. -/
  | stoppedAt (path : Text) (stop : Stream.Stop)
  | missingInput (path : Text)
  /-- There is neither a file nor a standard input to read. -/
  | noInput
  /-- Watching needs one input. -/
  | watchedInput
  /-- The first run over a file that is watched failed. -/
  | firstRun (failure : Failure)
  | settingsExist (path : Text)
  | unsavedSettings (error : Settings.SaveError)

namespace Failure

def message : Failure → Text
  | line error => error.message
  | settings error => error.message
  | version file error =>
    if file.isEmpty then error.message else file ++ ": " ++ error.message
  | plan error => error.message
  | stopped stop => stop.message
  | stoppedAt path stop => path ++ ": " ++ stop.message
  | missingInput path => "failed to open input: open " ++ path ++ ": file does not exist"
  | noInput => "there was no stdin for input"
  | watchedInput => "--watch needs exactly one --input file"
  | firstRun failure => "initial callback failed: " ++ failure.message
  | settingsExist path =>
    "config file already exists: " ++ path ++ " (use --force to overwrite)"
  | unsavedSettings error => "failed to write config: " ++ error.message

def cause : Failure → Cause
  | version _ (.incompatible _ _) => .incompatible
  | plan error => error.cause
  | stopped stop => stop.cause
  | stoppedAt _ stop => stop.cause
  | noInput => .noInput
  | watchedInput => .watchedInput
  | firstRun failure => failure.cause
  | _ => .other

/-- Why a run stopped, if that is what failed. -/
def stop? : Failure → Option Stream.Stop
  | stopped stop => some stop
  | stoppedAt _ stop => some stop
  | firstRun failure => failure.stop?
  | _ => none

end Failure
end CellScript.Command
