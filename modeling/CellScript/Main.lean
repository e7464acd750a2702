import CellScript.Command.Run

/-! The program: it gives a command what it may read, and prints and writes what comes of it. -/
namespace CellScript.Program

open Settings

def textOf (bytes : ByteArray) : Text := bytes.data.toList

def bytesOf (t : Text) : ByteArray := ⟨t.toArray⟩

def pathOf (t : Text) : String := (String.fromUTF8? (bytesOf t)).getD ""

def readFile (m : Machine) (path : Text) : IO (Option (Text × Text)) := do
  let path := m.resolve path
  try return some (path, textOf (← IO.FS.readBinFile (pathOf path)))
  catch _ => return none

/-- The machine with the files at some paths. -/
def withFiles (m : Machine) (paths : List Text) : IO Machine := do
  let found ← paths.filterMapM (readFile m)
  return { m with files := found.foldl (fun files f => Dotenv.Vars.put files f.1 f.2) m.files }

/-- The variables of the environment that settings depend on. -/
def envNames : List Text :=
  "HOME" :: (settings {}).map fun (name, _) => variableName name

/-- The machine as far as a command line is about it. -/
def machineFor (args : List Text) : IO Machine := do
  let env ← envNames.filterMapM fun name => do
    return (← IO.getEnv (pathOf name)).map fun value => (name, Text.ofString value)
  let directory := Text.ofString (← IO.currentDir).toString
  let m ← withFiles { files := [], env, directory } envFiles
  withFiles m (Command.paths m.loadEnv args)

/-- Read a stream to its end. -/
partial def readAll (stream : IO.FS.Stream) (soFar : ByteArray) : IO ByteArray := do
  let bytes ← stream.read 65536
  if bytes.isEmpty then return soFar else readAll stream (soFar ++ bytes)

/-- The part of a path before its last component. -/
def parentOf (path : Text) : Text :=
  ((path.reverse.dropWhile (· != Text.ascii '/')).drop 1).reverse

def writeChanges (before after : Machine) : IO Unit :=
  for (path, content) in after.files do
    if before.files.get? path != some content then
      IO.FS.createDirAll (pathOf (parentOf path))
      IO.FS.writeBinFile (pathOf path) (bytesOf content)

def print (r : Command.Report) : IO Unit := do
  let out ← IO.getStdout
  let err ← IO.getStderr
  err.write (bytesOf r.stderr)
  out.write (bytesOf r.stdout)
  out.flush

/-- Run again whenever the content of a watched file changes. -/
partial def watch (m : Machine) (w : Command.Watch) : IO Unit := do
  IO.sleep 500
  let now ← withFiles { m with files := [] } [w.path]
  if now.file? w.path != m.file? w.path then print (w.run now false).announced
  watch now w

end CellScript.Program

open CellScript in
def main (args : List String) : IO UInt32 := do
  let args := args.map Text.ofString
  let m ← Program.machineFor args
  let stdin ← IO.getStdin
  let terminal ← stdin.isTty
  let input ← if Command.readsInput args && !terminal then Program.readAll stdin .empty
    else pure .empty
  let (after, report) := Command.run m { args, stdin := Program.textOf input, terminal }
  Program.writeChanges m after
  Program.print report.announced
  if let some w := report.watch then Program.watch after w
  return if report.failure.isSome then 1 else 0
