import PackageIndex.Command.Edit

/-!
# Arguments

The words of a command line name a command and its operands, with options
anywhere between them. A command may have subcommands, and each word is read
at the level that the commands so far have reached.

An option is given at most once at a level. Given at several, the innermost
counts. Its value follows in the same word behind an equals sign, or is the
next word, which then may not begin with a dash unless it is a dash alone.
Neither may an operand, unless two dashes alone stand somewhere before it.
Names are never shortened.

Words are read from the left, and asking for the version or for help ends the
reading at once. Help can also be asked for by a command of its own, and then
all other words must name the commands that lead to what it is asked about.
Whatever is missing is noticed at the end.

## Main definitions

* `Command`: A question or an edit.
* `Options`: The options that may stand anywhere.
* `Invocation`: A command with its options.
* `Arguments`: What a command line asks for.
* `Arguments.parse?`: The meaning of a command line, if it has one.
-/

namespace PackageIndex

/-- A command with its operands. -/
inductive Command where
  | question (question : Question)
  | edit (edit : Edit)
  deriving DecidableEq

/-- The options that may stand anywhere. -/
structure Options where
  /-- The file that settings are read from. -/
  settings : Option Text := none
  /-- Whether pre-releases are resolved, whatever the settings say. -/
  prereleases : Option Bool := none
  /-- Whether the log goes to a file. -/
  logToFile : Bool := false
  deriving DecidableEq

/-- A command with its options. -/
structure Invocation where
  options : Options
  command : Command
  deriving DecidableEq

/-- What a command line asks for. -/
inductive Arguments where
  | version
  | help
  | invocation (invocation : Invocation)
  deriving DecidableEq

/-- The level that the commands so far have reached. -/
inductive CommandLevel where
  | root
  | satisfies
  | resolve
  | compare
  | revisions
  | add
  | remove
  | latest
  | list
  deriving DecidableEq

namespace CommandLevel

/-- The level a subcommand leads to. -/
def enter? : CommandLevel → Text → Option CommandLevel
  | .root, name =>
    if name = "satisfies".toList then some .satisfies
    else if name = "resolve".toList then some .resolve
    else if name = "compare".toList then some .compare
    else if name = "revisions".toList then some .revisions
    else none
  | .revisions, name =>
    if name = "add".toList then some .add
    else if name = "remove".toList then some .remove
    else if name = "latest".toList then some .latest
    else if name = "list".toList then some .list
    else none
  | _, _ => none

/-- Whether a subcommand is due. -/
def hasSubcommands : CommandLevel → Bool
  | .root => true
  | .revisions => true
  | _ => false

/-- Whether words lead from a level to a command that can be asked about. The
    command for help is one, and nothing is beneath it. -/
def leadsToCommand (level : CommandLevel) : List Text → Bool
  | [] => true
  | name :: rest =>
    if level.hasSubcommands && name = "help".toList then rest.isEmpty
    else
      match level.enter? name with
      | some level => leadsToCommand level rest
      | none => false

/-- Whether a level takes one more operand than it has. -/
def takesOperand : CommandLevel → List Text → Bool
  | .satisfies, operands => operands.length < 2
  | .compare, operands => operands.length < 2
  | .resolve, _ => true
  | .add, operands => operands.isEmpty
  | .remove, operands => operands.isEmpty
  | _, _ => false

/-- The command of a level with its operands, if they are complete. -/
def command? : CommandLevel → List Text → Option Command
  | .satisfies, [range, version] => some (.question (.satisfies range version))
  | .resolve, range :: version :: others =>
    some (.question (.resolve range (version :: others)))
  | .compare, [left, right] => some (.question (.compare left right))
  | .add, [id] => some (.edit (.add id))
  | .remove, [id] => some (.edit (.remove id))
  | .latest, [] => some (.edit .latest)
  | .list, [] => some (.edit .list)
  | _, _ => none

end CommandLevel

namespace Options

/-- The options of an inner level, and those of the outer ones where it has
    none. -/
def before (inner outer : Options) : Options where
  settings := inner.settings.or outer.settings
  prereleases := inner.prereleases.or outer.prereleases
  logToFile := inner.logToFile || outer.logToFile

/-- The options with a value given to the option of a name. -/
def withValue? (o : Options) (name value : Text) : Option Options :=
  if name = "config".toList then
    if o.settings.isSome || value.isEmpty then none else some { o with settings := some value }
  else if name = "prerelease".toList then
    if o.prereleases.isSome then none
    else if value = "true".toList then some { o with prereleases := some true }
    else if value = "false".toList then some { o with prereleases := some false }
    else none
  else none

/-- The options with the switch of a name. -/
def withSwitch? (o : Options) (name : Text) : Option Options :=
  if name = "log-to-file".toList && !o.logToFile then some { o with logToFile := true } else none

/-- The names of the options that take a value. -/
def takesValue (name : Text) : Bool := name = "config".toList || name = "prerelease".toList

end Options

/-- What has been read of a command line. -/
structure Reached where
  level : CommandLevel := .root
  /-- The options of the outer levels. -/
  outer : Options := {}
  /-- The options of this level. -/
  here : Options := {}
  operands : List Text := []
  /-- Whether two dashes alone have been read. -/
  literal : Bool := false

namespace Reached

/-- A command line that ends here. -/
def finish (r : Reached) : Option Arguments :=
  (r.level.command? r.operands).map fun command =>
    .invocation ⟨r.here.before r.outer, command⟩

/-- An operand. -/
def operand? (r : Reached) (word : Text) : Option Reached :=
  if r.level.takesOperand r.operands then some { r with operands := r.operands ++ [word] }
  else none

/-- A subcommand. Its level starts with no options of its own. -/
def subcommand? (r : Reached) (word : Text) : Option Reached :=
  (r.level.enter? word).map fun level =>
    { r with level := level, outer := r.here.before r.outer, here := {} }

/-- Whether a word asks for the version, which is answered before any
    command. -/
def asksVersion (r : Reached) (word : Text) : Bool :=
  r.level = .root && (word = "--version".toList || "-V".toList.isPrefixOf word)

/-- Whether a word asks for help. -/
def asksHelp (word : Text) : Bool := word = "--help".toList || "-h".toList.isPrefixOf word

/-- Whether a word is the command for help. -/
def isHelpCommand (r : Reached) (word : Text) : Bool :=
  r.level.hasSubcommands && word = "help".toList

/-- Whether a word begins with a dash and is not a dash alone. -/
def isDashed (word : Text) : Bool := word.head? = some '-' && word ≠ ['-']

end Reached

namespace Arguments

/-- The meaning of the words that are left. -/
def parseFrom (r : Reached) : List Text → Option Arguments
  | [] => r.finish
  | word :: rest =>
    if r.literal then
      match r.operand? word with
      | some r => parseFrom r rest
      | none => none
    else if word = ['-', '-'] then parseFrom { r with literal := true } rest
    else if r.asksVersion word then some .version
    else if Reached.asksHelp word then some .help
    else if r.isHelpCommand word then
      if r.level.leadsToCommand rest then some .help else none
    else if Reached.isDashed word then
      let (name, value) := Text.cut '=' (word.drop 2)
      if !"--".toList.isPrefixOf word then none
      else
        match value with
        | some value =>
          match r.here.withValue? name value with
          | some here => parseFrom { r with here := here } rest
          | none => none
        | none =>
          if Options.takesValue name then
            match rest with
            | [] => none
            | value :: rest =>
              if Reached.isDashed value then none
              else
                match r.here.withValue? name value with
                | some here => parseFrom { r with here := here } rest
                | none => none
          else
            match r.here.withSwitch? name with
            | some here => parseFrom { r with here := here } rest
            | none => none
    else if r.level.hasSubcommands then
      match r.subcommand? word with
      | some r => parseFrom r rest
      | none => none
    else
      match r.operand? word with
      | some r => parseFrom r rest
      | none => none

/-- The meaning of a command line, if it has one. -/
def parse? (words : List Text) : Option Arguments := parseFrom {} words

end Arguments

end PackageIndex
