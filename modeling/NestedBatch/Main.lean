import NestedBatch.CommandLine.Reader
import NestedBatch.CommandLine.Run
import NestedBatch.CommandLine.Usage
import NestedBatch.Shell.Spawn
import Std.Time.DateTime.Timestamp

/-! The program: the files that a request names are brought in, the request is
carried out, and what became of the files is written back. -/
namespace NestedBatch.Program

/-- Brings in a file or directory, if there is one of the name. -/
def bring (files : Files) (name : String) : IO Files := do
  try
    return files.place name (.file (← IO.FS.readBinFile name))
  catch e =>
    match e with
    | .noFileOrDirectory .. => return files
    | _ => return files.place name .directory

def namedFiles : Request → List String
  | .run o => o.config :: o.store.toList
  | .status store => [store]
  | .demo => []

def configuredStore (m : Machine) : Request → List String
  | .run o => ((RunConfig.load m o.config).toOption.bind RunConfig.store).toList
  | _ => []

def writeBack (before after : Files) : IO Unit := do
  for (name, entry) in after.entries.entries do
    if before.entries.get? name ≠ some entry then
      match entry with
      | .file content => IO.FS.writeBinFile name content
      | .directory => IO.FS.createDirAll name
  for (name, _) in before.entries.entries do
    unless after.entries.contains name do IO.FS.removeFile name

def clock : IO Instant := do
  let now ← Std.Time.Timestamp.now
  let nanos := now.toNanosecondsSinceUnixEpoch.val
  return (Instant.of? (nanos / 1000000000) (nanos % 1000000000).toNat).getD .epoch

def environment : IO (KeyMap String String) := do
  let found ← IO.getEnv RunConfig.storeVariable
  return .ofList (found.toList.map fun store => (RunConfig.storeVariable, store))

def carryOut (c : CommandLine) : IO Nat := do
  let files ← (namedFiles c.request).foldlM bring .empty
  let m := { Machine.boot files (← environment) with clock := ← clock }
  let files ← (configuredStore m c.request).foldlM bring files
  let (outcome, after) := CommandLine.execute Shell.spawn c { m with files }
  IO.print after.output
  writeBack files after.files
  if let .failed message := outcome then IO.eprintln ("error: " ++ message)
  return outcome.code

end NestedBatch.Program

def main (args : List String) : IO UInt32 := do
  match NestedBatch.CommandLine.read args with
  | .error fault =>
    if fault.exitCode = 0 then IO.print fault.message else IO.eprint fault.message
    return fault.exitCode.toUInt32
  | .ok c => return (← NestedBatch.Program.carryOut c).toUInt32
