import CellScript.Settings.Dotenv

/-! The files and the environment that a command sees. -/
namespace CellScript.Settings

/-- Files by absolute path, the variables of the environment, and the directory that relative paths
start at. -/
structure Machine where
  files : Dotenv.Vars
  env : Dotenv.Vars
  directory : Text := "/"

/-- Resolve the parts of a path: empty parts and dots go, two dots take the part before them along. -/
def cleanParts (parts : List Text) : List Text :=
  parts.foldl (fun done part =>
    if part.isEmpty || part == Text.ofString "." then done
    else if part == Text.ofString ".." then done.dropLast
    else done ++ [part]) []

/-- A path from the root of the file tree. A relative path starts at a directory. -/
def absolute (directory path : Text) : Text :=
  let path := if path.head? == some (Text.ascii '/') then path else directory ++ "/" ++ path
  "/" ++ Text.join "/" (cleanParts (Text.splitOn "/" path))

namespace Machine

def resolve (m : Machine) (path : Text) : Text := absolute m.directory path

/-- Whether a path is a directory: the root, or the start of the path of a file. -/
def isDirectory (m : Machine) (path : Text) : Bool :=
  let path := m.resolve path
  path == Text.ofString "/" || m.files.any fun f => (path ++ "/").isPrefixOf f.1

def file? (m : Machine) (path : Text) : Option Text := m.files.get? (m.resolve path)

/-- What can be read at a path: the content of a file, and nothing at all from a directory. -/
def read? (m : Machine) (path : Text) : Option Text :=
  match m.file? path with
  | some content => some content
  | none => if m.isDirectory path then some [] else none

def write (m : Machine) (path content : Text) : Machine :=
  { m with files := m.files.put (m.resolve path) content }

def home (m : Machine) : Text := (m.env.get? "HOME").getD []

end Machine

/-- Whether the environment takes a variable: the name is not empty and has no equals sign, and nothing
holds a zero byte. -/
def settable (v : Text × Text) : Bool :=
  !v.1.isEmpty && !v.1.contains (Text.ascii '=') && !v.1.contains 0 && !v.2.contains 0

/-- Add the variables of one file to the environment, except those that were preset. -/
def addVars (preset : Text → Bool) (env vars : Dotenv.Vars) : Dotenv.Vars :=
  (vars.filter fun v => settable v && !preset v.1).foldl (fun env v => env.put v.1 v.2) env

/-- The environment after the files of variables have been read, later files over earlier ones and
what was set before over both. A file that cannot be read counts for nothing. -/
def withEnvFiles (env : Dotenv.Vars) (files : List (Option Text)) : Dotenv.Vars :=
  let preset (name : Text) : Bool := (env.get? name).isSome
  files.foldl (fun now file =>
    match file with
    | none => now
    | some content =>
      match Dotenv.read content with
      | .ok vars => addVars preset now vars
      | .error _ => now) env

/-- The files of variables, in the order they are read. -/
def envFiles : List Text := [".env", ".env.local"]

/-- The machine with its environment completed from the files of variables. -/
def Machine.loadEnv (m : Machine) : Machine :=
  { m with env := withEnvFiles m.env (envFiles.map m.file?) }

def Machine.envFaults (m : Machine) : List (Text × Dotenv.Error) :=
  envFiles.filterMap fun name =>
    match m.file? name with
    | none => none
    | some content =>
      match Dotenv.read content with
      | .ok _ => none
      | .error error => some (name, error)

end CellScript.Settings
