import PackageIndex.Command.Program
import Std.Time.DateTime.Timestamp

/-!
# The Command Line

The program as it is run from a shell. All that is decided is decided by
`Program.run`; what is left is to be its host and to carry out what a run
leaves behind. The output goes to the standard output, the log to its file or
to the standard error, and the failure to the standard error.

## Main definitions

* `Shell.host`: What the program needs, from the shell and the file system.
* `Shell.carryOut`: Carries out what a run leaves behind.
* `main`: Runs the program.
-/

namespace PackageIndex

namespace Shell

/-- The microseconds since the beginning of 1970. -/
def micros : IO Nat := do
  let now ← Std.Time.Timestamp.now
  return now.toNanosecondsSinceUnixEpoch.val.toNat / 1000

/-- The value that the environment gives a name. -/
def environment? (name : String) : IO (Option Text) := do
  return (← IO.getEnv name).map String.toList

/-- The bytes of a file, if it can be read. -/
def contentsOf (path : Text) : IO (Option ByteArray) := do
  let .ok bytes ← (IO.FS.readBinFile (String.ofList path)).toBaseIO | return none
  return some bytes

/-- All bytes of the standard input. -/
def readInput : IO ByteArray := do
  let input ← IO.getStdin
  let mut bytes := ByteArray.empty
  repeat
    let more ← input.read 65536
    if more.isEmpty then break
    bytes := bytes ++ more
  return bytes

/-- Makes a directory, and in it a file for the log if there is none. -/
def openLog (directory name : Text) : IO Opened := do
  let .ok () ← (IO.FS.createDirAll (String.ofList directory)).toBaseIO | return .noDirectory
  let file := String.ofList (Path.append directory name)
  let .ok _ ← (IO.FS.Handle.mk file .append).toBaseIO | return .noFile
  return .opened

/-- What the program needs, from the shell and the file system. -/
def host : IO (Host IO) := do
  return {
    contentsOf := contentsOf
    readInput := readInput
    openLog := openLog
    now := return Revision.timeOfMicros (← micros)
    logFilter := ← environment? "RUST_LOG"
    dataHome := ← environment? "XDG_DATA_HOME"
    home := ← environment? "HOME" }

/-- Puts lines into the log. -/
def record (log : Log) (lines : List String) : IO Unit := do
  let stream ← match log.file with
    | none => IO.getStderr
    | some path => do
      let file ← IO.FS.Handle.mk (String.ofList path) .append
      pure (IO.FS.Stream.ofHandle file)
  for line in lines do
    stream.putStrLn line
  stream.flush

/-- Carries out what a run leaves behind. -/
def carryOut (outcome : Outcome) : IO Unit := do
  if let some (log, events) := outcome.logged then
    let time := (DateTime.ofSeconds ((← micros) / 1000000 : Nat)).write
    record log (events.map fun e => String.ofList (log.line time e))
  IO.print (String.ofList outcome.output)
  (← IO.getStdout).flush
  if let some failure := outcome.failure then
    IO.eprintln (String.ofList failure.report)
  else if outcome.code = 2 then
    IO.eprint (String.ofList Program.usage)

end Shell

end PackageIndex

/-- Runs the program with the words of the command line, and ends with the
    exit code of the run. -/
def main (args : List String) : IO UInt32 := do
  let host ← PackageIndex.Shell.host
  let outcome ← PackageIndex.Program.run host (args.map String.toList)
  PackageIndex.Shell.carryOut outcome
  return outcome.code.toUInt32
