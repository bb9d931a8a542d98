import PackageIndex.Command.Arguments
import PackageIndex.Log.Filter
import PackageIndex.Log.Line
import PackageIndex.Settings

/-!
# The Program

A run of the program is told apart into what it decides and what it needs from
outside. What it needs is the host: files, the input, the clock, and a place
for the log. What it decides is a total function of what the host gives, and
runs in whatever the host runs in.

The settings are read first. Then the log is started, which is where an
invalid filter or a log file that cannot be made ends the run. Only then does
the command see its operands. A run that fails after the log was started has
logged what led up to the failure.

Most failures are reported as errors. Two of them break the run off instead,
with an exit code of their own: a filter with a torn directive, and a log file
that cannot be opened in a directory that is there.

## Main definitions

* `Host`: What the program needs from outside.
* `Opened`: What came of opening a file for the log.
* `Failure`: Why a run failed.
* `Log`: Where events go, and which are shown.
* `Outcome`: What a run leaves behind.
* `Program.run`: A run of the program.
-/

namespace PackageIndex

/-- What came of opening a file for the log. -/
inductive Opened where
  | opened
  /-- Its directory is not there and cannot be made. -/
  | noDirectory
  /-- The directory is there, but the file cannot be opened. -/
  | noFile
  deriving DecidableEq

/-- What the program needs from outside. -/
structure Host (m : Type → Type) where
  /-- The bytes of a file, if there is one. -/
  contentsOf : Text → m (Option ByteArray)
  /-- All bytes of the input. -/
  readInput : m ByteArray
  /-- Makes a directory and opens a file in it for the log. -/
  openLog : Text → Text → m Opened
  /-- The time. -/
  now : m Binary64
  /-- The filter that the environment sets for the log. -/
  logFilter : Option Text
  /-- The directory that the environment sets aside for data. -/
  dataHome : Option Text
  /-- The home directory. -/
  home : Option Text

/-- Why a run failed. -/
inductive Failure where
  | settings (path : Text) (fault : SettingsFault)
  | logLevel (level : Text)
  | logName (path : Text)
  | logDirectory (directory : Text)
  | logFile (path : Text)
  | tornFilter (filter : Text)
  | refused (refusal : Refusal)
  | input
  | ledger (fault : Json.Fault)
  deriving DecidableEq

namespace Failure

/-- What is wrong with a text that was to be read. -/
def faultMessage : Json.Fault → Text
  | .truncated => "the text ends too early".toList
  | .malformed => "the notation is broken".toList
  | .misshapen => "the value has the wrong shape".toList

/-- The sentence that reports a failure. -/
def message : Failure → Text
  | .settings path .missing => "Failed to read config file ".toList ++ Text.inspect path
  | .settings path .notText =>
    "Failed to read config file ".toList ++ Text.inspect path ++ ": not UTF-8".toList
  | .settings path (.unreadable fault) =>
    "Invalid config file ".toList ++ Text.inspect path ++ ": ".toList ++ faultMessage fault
  | .logLevel level => "Invalid log level '".toList ++ level ++ ['\'']
  | .logName path => "Log path ".toList ++ Text.inspect path ++ " has no file name".toList
  | .logDirectory directory =>
    "Failed to create log directory ".toList ++ Text.inspect directory
  | .logFile path => "The log file ".toList ++ Text.inspect path ++ " cannot be opened".toList
  | .tornFilter filter => "The log filter ".toList ++ Text.inspect filter ++ " is torn".toList
  | .refused refusal => refusal.message
  | .input => "Failed to read revision list from stdin".toList
  | .ledger fault => "Invalid revision list: ".toList ++ faultMessage fault

/-- Whether a failure breaks the run off, without being reported as an
    error. -/
def breaksOff : Failure → Bool
  | .logFile _ => true
  | .tornFilter _ => true
  | _ => false

/-- The exit code of a run that failed. -/
def code (failure : Failure) : Nat := if failure.breaksOff then 101 else 1

/-- What is written about a failure. -/
def report (failure : Failure) : Text :=
  (if failure.breaksOff then [] else "Error: ".toList) ++ failure.message

end Failure

/-- Where events go, and which are shown. -/
structure Log where
  /-- The file, or else the error stream. -/
  file : Option Text
  /-- Whether lines are structured text. -/
  json : Bool
  filter : Filter

namespace Log

/-- The message of an event as the lines of a log give it to their readers. -/
def message (log : Log) (e : Event) : Text := if log.json then e.message else e.plainMessage

/-- An event as a line of a log, logged at a time. -/
def line (log : Log) (time : Text) (e : Event) : Text :=
  if log.json then e.object time else e.line time

end Log

/-- What a run leaves behind. -/
structure Outcome where
  /-- The exit code. -/
  code : Nat
  /-- What was printed. -/
  output : Text
  /-- Why the run failed, if it did. -/
  failure : Option Failure
  /-- The log and what it shows, if it was started. -/
  logged : Option (Log × List Event)

namespace Outcome

/-- A run that failed before the log was started. -/
def failed (failure : Failure) : Outcome := ⟨failure.code, [], some failure, none⟩

/-- A run that prints and leaves nothing else. -/
def printed (code : Nat) (output : Text) : Outcome := ⟨code, output, none, none⟩

/-- A run that got as far as the command, from what the command gave and the
    events in order. -/
def ofCommand (log : Log) (events : List Event) (result : Except Failure Answer) : Outcome :=
  let logged := some (log, events.filter log.filter.shows)
  match result with
  | .ok answer => ⟨if answer.positive then 0 else 1, answer.output, none, logged⟩
  | .error failure => ⟨failure.code, [], some failure, logged⟩

end Outcome

namespace Program

/-- The name and version of the program. -/
def version : Text := "pkgver 0.1.0\n".toList

/-- How the program is used. -/
def usage : Text :=
  "Usage: pkgver [OPTIONS] <COMMAND>\n\nCommands: satisfies, resolve, compare, revisions\n".toList

variable {m : Type → Type} [Monad m]

/-- The settings of the file that the options name, or what holds without
    one. -/
def fileSettings (host : Host m) (options : Options) : m (Except Failure Settings) :=
  match options.settings with
  | none => pure (.ok {})
  | some path => do
    match Settings.load (← host.contentsOf path) with
    | .ok settings => return .ok settings
    | .error fault => return .error (.settings path fault)

/-- Settings with the options over them. A log that is asked to go to a file
    goes to the one that is set, or else to the one in the data directory. -/
def override (host : Host m) (options : Options) (settings : Settings) : Settings :=
  let file :=
    if options.logToFile then settings.log.file.or (some (logPath host.dataHome host.home))
    else settings.log.file
  ⟨options.prereleases.or settings.prereleases, { settings.log with file := file }⟩

/-- The filter that a text stands for, or what is wrong if it stands for
    none. -/
def readFilter (refused : Failure) (s : Text) : Except Failure Filter :=
  match Filter.parse s with
  | .ok filter => .ok filter
  | .error .refused => .error refused
  | .error .torn => .error (.tornFilter s)

/-- The filter in force: that of the environment if it has one, or else that
    of the settings. One of the environment that is refused counts as none. -/
def filter (logFilter : Option Text) (level : Text) : Except Failure Filter :=
  let refused := Failure.logLevel level
  match logFilter.map (readFilter refused) with
  | some (.ok filter) => .ok filter
  | some (.error failure) => if failure.breaksOff then .error failure else readFilter refused level
  | none => readFilter refused level

/-- The log, started. -/
def startLog (host : Host m) (settings : LogSettings) : m (Except Failure Log) := do
  match filter host.logFilter settings.level with
  | .error failure => return .error failure
  | .ok filter =>
    match settings.file with
    | none => return .ok ⟨none, settings.json, filter⟩
    | some path =>
      match Path.fileName? path with
      | none => return .error (.logName path)
      | some name =>
        let directory := Path.directory path
        match ← host.openLog directory name with
        | .opened => return .ok ⟨some path, settings.json, filter⟩
        | .noDirectory => return .error (.logDirectory directory)
        | .noFile => return .error (.logFile path)

/-- The ledger that the input of a run holds. -/
def ledger (input : ByteArray) : Except Failure Ledger :=
  match String.fromUTF8? input with
  | none => .error .input
  | some s =>
    match Edit.input s.toList with
    | .ok l => .ok l
    | .error fault => .error (.ledger fault)

/-- What a command gives, and what it has to say. -/
def perform (host : Host m) (settings : Settings) :
    Command → m (Except Failure Answer × List Event)
  | .question question =>
    return (match question.answer settings.prereleases with
      | .ok answer => .ok answer
      | .error refusal => .error (.refused refusal), question.report)
  | .edit edit => do
    match ledger (← host.readInput) with
    | .error failure => return (.error failure, [])
    | .ok l => return (.ok (edit.apply l (← host.now)), edit.report l)

/-- A command with its options. -/
def invoke (host : Host m) (invocation : Invocation) : m Outcome := do
  match ← fileSettings host invocation.options with
  | .error failure => return .failed failure
  | .ok loaded =>
    let settings := override host invocation.options loaded
    match ← startLog host settings.log with
    | .error failure => return .failed failure
    | .ok log =>
      let (result, events) ← perform host settings invocation.command
      return .ofCommand log (settings.loaded :: events) result

/-- A run of the program. -/
def run (host : Host m) (words : List Text) : m Outcome :=
  match Arguments.parse? words with
  | none => return .printed 2 []
  | some .version => return .printed 0 version
  | some .help => return .printed 0 usage
  | some (.invocation invocation) => invoke host invocation

end Program

end PackageIndex
