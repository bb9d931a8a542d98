import PackageIndex.Json.Shape
import PackageIndex.Log.Event
import PackageIndex.Path
import PackageIndex.Text.Inspect

/-!
# Settings

Settings say whether pre-releases are resolved and how the log is kept. They
are read from a file of structured text in which every field may be left out.
Unset, the question of pre-releases is left to each range, and the log is kept
as text, from warnings on, on the error stream.

A file whose bytes are no text is refused before it is read.

## Main definitions

* `Settings`, `LogSettings`: What can be set.
* `Settings.read`: The settings a text holds.
* `Settings.load`: The settings a file holds.
* `dataDirectory`: Where the program keeps its data.
* `Settings.loaded`: The event that shows the settings in force.
-/

namespace PackageIndex

/-- How the log is kept. -/
structure LogSettings where
  /-- The filter, unless the environment has one. -/
  level : Text := "warn".toList
  /-- Whether lines are structured text. -/
  json : Bool := false
  /-- The file the log goes to, or else the error stream. -/
  file : Option Text := none
  deriving DecidableEq

/-- What can be set. -/
structure Settings where
  /-- Whether pre-releases are resolved, or else what each range says. -/
  prereleases : Option Bool := none
  log : LogSettings := {}
  deriving DecidableEq

/-- Why settings could not be loaded. -/
inductive SettingsFault where
  /-- There is no such file. -/
  | missing
  /-- The bytes of the file are no text. -/
  | notText
  /-- The text of the file does not hold settings. -/
  | unreadable (fault : Json.Fault)
  deriving DecidableEq

namespace LogSettings

/-- The fields of log settings that have been read. -/
structure Seen where
  level : Option Text := none
  json : Option Bool := none
  file : Option (Option Text) := none

/-- Log settings from the fields that have been read. -/
def ofSeen (seen : Seen) : LogSettings :=
  let unset : LogSettings := {}
  ⟨seen.level.getD unset.level, seen.json.getD unset.json, seen.file.getD unset.file⟩

/-- A field of log settings. -/
def readField (seen : Seen) (key : Text) : Json.Reader Seen :=
  if key = "level".toList then Json.field seen.level Json.text ({ seen with level := some · })
  else if key = "json".toList then Json.field seen.json Json.flag ({ seen with json := some · })
  else if key = "file".toList then
    Json.field seen.file (Json.optional Json.text) ({ seen with file := some · })
  else Json.otherField seen

/-- Log settings written as an object. -/
def readObject : Json.Reader LogSettings := fun s => do
  let (seen, rest) ← Json.members readField {} s
  return (ofSeen seen, rest)

/-- Log settings written as an array. -/
def readArray : Json.Reader LogSettings := fun s => do
  let (level, s) ← Json.element? true Json.text s
  let (json, s) ← Json.element? false Json.flag s
  let (file, s) ← Json.element? false (Json.optional Json.text) s
  let rest ← Json.closeArray s
  return (ofSeen ⟨level, json, file⟩, rest)

/-- Log settings. -/
def read : Json.Reader LogSettings := Json.record readArray readObject

end LogSettings

namespace Settings

/-- The fields of settings that have been read. -/
structure Seen where
  prereleases : Option (Option Bool) := none
  log : Option LogSettings := none

/-- Settings from the fields that have been read. -/
def ofSeen (seen : Seen) : Settings := ⟨seen.prereleases.getD none, seen.log.getD {}⟩

/-- A field of settings. -/
def readField (seen : Seen) (key : Text) : Json.Reader Seen :=
  if key = "resolvePrerelease".toList then
    Json.field seen.prereleases (Json.optional Json.flag) ({ seen with prereleases := some · })
  else if key = "log".toList then
    Json.field seen.log LogSettings.read ({ seen with log := some · })
  else Json.otherField seen

/-- Settings written as an object. -/
def readObject : Json.Reader Settings := fun s => do
  let (seen, rest) ← Json.members readField {} s
  return (ofSeen seen, rest)

/-- Settings written as an array. -/
def readArray : Json.Reader Settings := fun s => do
  let (prereleases, s) ← Json.element? true (Json.optional Json.flag) s
  let (log, s) ← Json.element? false LogSettings.read s
  let rest ← Json.closeArray s
  return (ofSeen ⟨prereleases, log⟩, rest)

/-- The settings a text holds. -/
def read (s : Text) : Except Json.Fault Settings :=
  Json.document (Json.record readArray readObject) s

/-- The settings a file holds, given its bytes if there is such a file. -/
def load (file : Option ByteArray) : Except SettingsFault Settings :=
  match file with
  | none => .error .missing
  | some bytes =>
    match String.fromUTF8? bytes with
    | none => .error .notText
    | some s =>
      match read s.toList with
      | .ok settings => .ok settings
      | .error fault => .error (.unreadable fault)

/-- Something that may be unset, as the log shows it. -/
def showOption (shown : Option Text) : Text :=
  match shown with
  | none => "None".toList
  | some s => "Some(".toList ++ s ++ [')']

/-- A truth value, as the log shows it. -/
def showFlag (b : Bool) : Text := if b then "true".toList else "false".toList

/-- Settings as the log shows them. -/
def shown (settings : Settings) : Text :=
  "Config \x7b resolve_prerelease: ".toList ++ showOption (settings.prereleases.map showFlag) ++
    ", log: LogConfig \x7b level: ".toList ++ Text.inspect settings.log.level ++
    ", json: ".toList ++ showFlag settings.log.json ++ ", file: ".toList ++
    showOption (settings.log.file.map Text.inspect) ++ " \x7d \x7d".toList

/-- The event that shows the settings in force. -/
def loaded (settings : Settings) : Event where
  level := .debug
  source := "pkgver".toList
  message := "Loaded configuration: ".toList ++ settings.shown

end Settings

/-- The directory in which the program keeps its data: in the directory set
    aside for data if there is one, or else in the usual place in the home
    directory, or else here. -/
def dataDirectory (dataHome home : Option Text) : Text :=
  let base := match dataHome, home with
    | some directory, _ => directory
    | none, some directory => Path.append directory ".local/share".toList
    | none, none => ['.']
  Path.append base "pkgver".toList

/-- The file in the data directory that the log goes to when it is asked to go
    to a file. -/
def logPath (dataHome home : Option Text) : Text :=
  Path.append (dataDirectory dataHome home) "pkgver.log".toList

end PackageIndex
