/-
**The program**: the command line on the files of the machine.

All decisions are made on a disk that holds the one file the program works with. What this module
adds is to read the arguments, the environment, the clock and that file, and to write the file and
the answer.
-/
import EpochLog.CommandLine
import Std.Time.DateTime.Timestamp

set_option autoImplicit false

namespace EpochLog.Main

open EpochLog.CommandLine

/-- The variables the program looks at. -/
def variableNames : List String :=
  ["UNITDB_DIR", "UNITDB_SIZE", "UNITDB_EPOCH_MS", "UNITDB_FSYNC", "UNITDB_BLOCK_ID",
    "UNITDB_LOG_LEVEL"]

def environment : IO Environment := do
  let found ← variableNames.filterMapM fun name => do
    return (← IO.getEnv name).map fun value => (name, value.toUTF8.toList)
  return fun name => found.lookup name

def now : IO Instant := do
  return .ofMillis (← Std.Time.Timestamp.now).toMillisecondsSinceUnixEpoch.val

def hasDirectory (dir : Path) : IO Bool := do
  try
    let _ ← IO.FS.Handle.mk (dir.join ".") .read
    return true
  catch _ => return false

/-- A disk with the directory of a configuration and the log in it, as far as they are there. A log
that cannot be read is no missing log: then the program ends before it can write over it. -/
def load (config : Config) : IO Disk := do
  try
    let bytes ← IO.FS.readBinFile config.logPath
    return Disk.empty.put config.logPath bytes.toList
  catch
    | .noFileOrDirectory .. =>
      if ← hasDirectory config.dir then
        return (Disk.empty.makeDirectories config.logPath.parent).1
      else return .empty
    | e => throw e

def save (config : Config) (disk : Disk) : IO Unit := do
  if let some bytes := disk.read? config.logPath then
    IO.FS.createDirAll config.dir
    IO.FS.writeBinFile config.logPath ⟨bytes.toArray⟩

/-- Does what is asked; the answer is the exit code. -/
def perform (request : Request) : IO UInt32 := do
  let (disk, reply) := request.run (← load request.config) (← now)
  save request.config disk
  match reply with
  | .ok () => return 0
  | .error e =>
    IO.eprintln ("Error: " ++ e.message?.getD "the platform refused")
    return 1

end EpochLog.Main

/-- Recovers the messages of a directory and applies them. -/
def main (args : List String) : IO UInt32 := do
  match EpochLog.CommandLine.Command.ofArguments args (← EpochLog.Main.environment) with
  | .help =>
    IO.println "options: --dir, --size, --epoch-ms, --block-id, --reset, --no-fsync, --log-level"
    return 0
  | .refused =>
    IO.eprintln "error: arguments refused, see --help"
    return 2
  | .run request => EpochLog.Main.perform request
