import Doctest.Compiler.Table
import Doctest.Session

namespace Doctest

def locationOf (path : String) : Location := (path.splitOn "/").filter (· ≠ "")

def takeFiles : IO Files := do
  let dir ← IO.currentDir
  let mut entries := []
  for path in ← dir.walkDir do
    let entry ← if ← path.isDir then pure Entry.directory
      else pure (Entry.file (← IO.FS.readBinFile path).toList)
    entries := (locationOf path.toString, entry) :: entries
  return { entries, workingDir := locationOf dir.toString }

def putFiles (before after : Files) : IO Unit := do
  for (loc, entry) in after.entries.reverse do
    if before.entryAt loc ≠ some entry then
      let path := "/" ++ "/".intercalate loc
      match entry with
      | .directory => IO.FS.createDirAll path
      | .file bytes => IO.FS.writeBinFile path ⟨bytes.toArray⟩

def variableNames : List String :=
  ["NMTEST_COMPILER_DIR", "NMTEST_INSTALL_DIR", "NMTEST_JOBS", "NMTEST_NODE", "NMTEST_PROFILE"]

def takeEnvironment : IO Settings.Environment := do
  let values ← variableNames.mapM fun name => do return (name, ← IO.getEnv name)
  return fun name => (values.find? (·.1 = name)).bind (·.2)

end Doctest

open Doctest in
def main (args : List String) : IO UInt32 := do
  match CommandLine.parse? args with
  | none =>
    (← IO.getStderr).putStrLn "usage: nmtest [OPTIONS]"
    return 2
  | some c =>
    let files ← takeFiles
    let own ← IO.appPath
    let session := c.session {
      files
      workingDir := ⟨(← IO.currentDir).toString⟩
      environment := ← takeEnvironment
      ownDir := own.parent.map fun p => ⟨p.toString⟩
      processors := 1
      launcher := Compiler.tableLauncher files Settings.default.nodeCommand }
    putFiles files session.files
    (← IO.getStdout).putStr session.stdout
    (← IO.getStderr).putStr session.ending.stderr
    return session.ending.exitStatus.toUInt32
