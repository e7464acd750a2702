import CellScript.Text.Basic

/-! What a build of the program says about itself. -/
namespace CellScript.Release

/-- A build: its version, when and from what it was made, and what it runs on. -/
structure Build where
  version : Text := "0.1.0"
  date : Text := "unknown"
  commit : Text := "unknown"
  platform : Text := "unknown"
  toolchain : Text := "unknown"

def Build.line (b : Build) : Text :=
  "csv-eval version " ++ b.version ++ " (" ++ b.platform ++ " " ++ b.toolchain ++ ")\n"

def Build.details (b : Build) : Text :=
  "csv-eval version " ++ b.version ++ "\n" ++
    "Build Date: " ++ b.date ++ "\n" ++
    "Git Commit: " ++ b.commit ++ "\n" ++
    "Platform: " ++ b.platform ++ "\n" ++
    "Go Version: " ++ b.toolchain ++ "\n"

end CellScript.Release
