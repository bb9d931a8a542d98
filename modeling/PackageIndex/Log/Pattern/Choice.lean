import PackageIndex.Log.Pattern.Basic

/-!
# Choices of Characters

A choice of characters stands in square brackets. Its members are characters,
ranges of characters, sets that have names, and choices inside it. A caret in
front takes all other characters, and two choices may be joined by doubled
signs, for what both have, what only the first has, or what only one has.

A closing bracket is a member in the first place, and hyphens are, as many as
there are in front. Elsewhere a hyphen between two characters makes a range,
which must not run backwards. A hyphen before a closing bracket or before
another hyphen makes none.

The choices that are open are kept as levels, the innermost first. Every step
takes at least one character off the text, so the number of characters bounds
the number of steps.

## Main definitions

* `Level`: What has been read of a choice.
* `range?`: What follows a member or a range.
* `read?`: How deep a choice is nested, and what follows it.
-/

namespace PackageIndex

namespace Pattern

namespace Choice

/-- What has been read of a choice. -/
structure Level where
  members : Parts := {}
  /-- How deep the choice is nested that this one is joined to. -/
  operand : Option Nat := none
  /-- Whether there have been hyphens at most. -/
  starts : Bool := true

namespace Level

/-- The level with one more member. -/
def add (level : Level) (depth : Nat) : Level :=
  { level with members := level.members.add depth, starts := false }

/-- How deep the level is nested. -/
def nesting (level : Level) : Nat :=
  match level.operand with
  | none => level.members.nesting
  | some depth => max depth level.members.nesting + 1

/-- The level behind a sign that joins. -/
def join (level : Level) : Level := ⟨{}, some level.nesting, false⟩

end Level

/-- The sets of ASCII that have names inside a choice. -/
def setNames : List Text :=
  ["alnum", "alpha", "ascii", "blank", "cntrl", "digit", "graph", "lower", "print", "punct",
    "space", "upper", "word", "xdigit"].map String.toList

/-- What follows a set that has a name, behind its opening bracket, and whether
    all others are taken. -/
def namedSet? : Text → Option (Bool × Text)
  | ':' :: s =>
    let others := s.head? = some '^'
    let s := if others then s.drop 1 else s
    let name := s.takeWhile (· ≠ ':')
    if setNames.contains name && [':', ']'].isPrefixOf (s.drop name.length) then
      some (others, s.drop (name.length + 2))
    else none
  | _ => none

/-- A member, and what follows it. -/
def member? (flags : Flags) : Text → Option (Atom × Text)
  | [] => none
  | '\\' :: rest => escape? flags rest
  | c :: rest => some (.char c false, rest)

/-- The character that a hyphen is judged by: the next one that is no blank. Of
    a comment it is the first one that is no blank either. -/
def judge? (flags : Flags) (s : Text) : Option Char :=
  let seen := s.dropWhile Text.isBlank
  let seen := if seen.head? = some '#' then (seen.drop 1).dropWhile Text.isBlank else seen
  if flags.verbose && !seen.isEmpty then seen.head? else s.head?

/-- What follows a member or a range of members. -/
def range? (flags : Flags) (s : Text) : Option Text :=
  match member? flags s with
  | none => none
  | some (first, rest) =>
    match flags.next rest with
    | [] => none
    | c :: after =>
      if c ≠ '-' || judge? flags after = some ']' || judge? flags after = some '-' then
        if first.isMember flags then some (c :: after) else none
      else
        match first, member? flags (flags.next after) with
        | .char low _, some (.char high byte, rest) =>
          if low ≤ high && first.isMember flags && (Atom.char high byte).isMember flags then
            some rest
          else none
        | _, _ => none

/-- What follows an opening bracket and a caret behind it. The other characters
    of a choice of bytes are not supported. -/
def opened? (flags : Flags) (s : Text) : Option Text :=
  match flags.next s with
  | '^' :: rest => if flags.unicode then some (flags.next rest) else none
  | s => some s

/-- How deep a choice is nested, and what follows it. The first argument bounds
    the steps. -/
def readFor (flags : Flags) : Nat → Level → List Level → Text → Option (Nat × Text)
  | 0, _, _, _ => none
  | steps + 1, level, outer, s =>
    let plain := (Atom.char '-' false).isMember flags
    match flags.next s with
    | [] => none
    | c :: rest =>
      if level.starts && c = '-' then
        if plain then readFor flags steps { level.add 0 with starts := true } outer rest
        else none
      else if level.starts && level.members.count = 0 && c = ']' then
        if plain then readFor flags steps (level.add 0) outer rest else none
      else
        let level := { level with starts := false }
        if c = '[' then
          match namedSet? rest with
          | some (others, rest) =>
            if plain && (flags.unicode || !others) then
              readFor flags steps (level.add 0) outer rest
            else none
          | none =>
            match opened? flags rest with
            | some rest => readFor flags steps {} (level :: outer) rest
            | none => none
        else if c = ']' then
          match outer with
          | [] => some (level.nesting + 1, rest)
          | around :: outer => readFor flags steps (around.add (level.nesting + 1)) outer rest
        else if c ∈ ['&', '-', '~'] && rest.head? = some c then
          readFor flags steps level.join outer (rest.drop 1)
        else
          match range? flags (c :: rest) with
          | some rest => readFor flags steps (level.add 0) outer rest
          | none => none

/-- How deep a choice is nested whose opening bracket has been read, and what
    follows it. -/
def read? (flags : Flags) (s : Text) : Option (Nat × Text) :=
  match opened? flags s with
  | some rest => readFor flags (rest.length + 1) {} [] rest
  | none => none

end Choice

end Pattern

end PackageIndex
