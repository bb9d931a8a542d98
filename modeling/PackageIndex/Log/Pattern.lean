import PackageIndex.Log.Pattern.Choice
import PackageIndex.Log.Pattern.Group

/-!
# Patterns

A log filter may ask for the value of a field, by a number or by a pattern. A
pattern is a sequence of atoms, choices of characters and groups, and any of
them may be repeated. Bars divide it into branches. Which texts it describes
plays no part here, only whether it is well formed and supported.

A repetition needs something in front of it, which the beginning of a branch
is not, nor are flags. Counted repetitions are not supported, and nothing may
be nested deeper than a limit. No two groups have one name.

The groups that are open are kept with what stands in front of them, the
innermost first. Every step takes at least one character off the pattern, so
the number of characters bounds the number of steps.

## Main definitions

* `Body`: What has been read of a group.
* `Progress`: What has been read of a pattern.
* `isWellFormed`: Whether a text is a pattern.
* `isValue`: Whether a text may stand for the value of a field.
-/

namespace PackageIndex

namespace Pattern

/-- What has been read of a group. -/
structure Body where
  /-- The parts of the branch that is being read. -/
  parts : Parts := {}
  /-- How deep the last part is nested, if it can be repeated. -/
  last : Option Nat := none
  /-- How deep the branches before it are nested, if there are any. -/
  branches : Option Nat := none

namespace Body

/-- The group with one more part. -/
def add (body : Body) (depth : Nat) : Body :=
  { body with parts := body.parts.add depth, last := some depth }

/-- The group with flags, which count as a part that cannot be repeated. -/
def addFlags (body : Body) : Body := { body with parts := body.parts.add 0, last := none }

/-- The group with its last part repeated. -/
def repeatLast? (body : Body) : Option Body :=
  body.last.map fun depth =>
    let parts := { body.parts with depth := max body.parts.depth (depth + 1) }
    { body with parts := parts, last := some (depth + 1) }

/-- The group when a new branch begins. -/
def branch (body : Body) : Body where
  branches := some (max (body.branches.getD 0) body.parts.nesting)

/-- How deep the inside of the group is nested. -/
def nesting (body : Body) : Nat :=
  match body.branches with
  | none => body.parts.nesting
  | some depth => max depth body.parts.nesting + 1

end Body

/-- What has been read of a pattern. -/
structure Progress where
  flags : Flags := {}
  body : Body := {}
  /-- The groups around, with the flags that hold in them. -/
  outer : List (Flags × Body) := []
  /-- The names of the groups so far. -/
  names : List Text := []

namespace Progress

/-- A part that is whole. -/
def add (p : Progress) (depth : Nat) : Progress := { p with body := p.body.add depth }

/-- What an opening bracket begins. -/
def begin? (p : Progress) : Head → Option Progress
  | .flags flags => some { p with flags := flags, body := p.body.addFlags }
  | .group flags => some ⟨flags, {}, (p.flags, p.body) :: p.outer, p.names⟩
  | .named name =>
    if p.names.contains name then none
    else some ⟨p.flags, {}, (p.flags, p.body) :: p.outer, name :: p.names⟩

/-- The innermost group closed. -/
def close? (p : Progress) : Option Progress :=
  match p.outer with
  | [] => none
  | (flags, body) :: outer => some ⟨flags, body.add (p.body.nesting + 1), outer, p.names⟩

end Progress

/-- An atom outside of a choice, and what follows it. -/
def atom? (flags : Flags) : Text → Option (Atom × Text)
  | [] => none
  | '\\' :: rest => escape? flags rest
  | '.' :: rest => some (.any, rest)
  | '^' :: rest => some (.edge, rest)
  | '$' :: rest => some (.edge, rest)
  | c :: rest => some (.char c false, rest)

/-- How deep a pattern is nested. The first argument bounds the steps. -/
def readFor : Nat → Progress → Text → Option Nat
  | 0, _, _ => none
  | steps + 1, p, s =>
    match p.flags.next s with
    | [] => if p.outer.isEmpty then some p.body.nesting else none
    | '(' :: rest =>
      match head? p.flags rest with
      | some (head, rest) =>
        match p.begin? head with
        | some p => readFor steps p rest
        | none => none
      | none => none
    | ')' :: rest =>
      match p.close? with
      | some p => readFor steps p rest
      | none => none
    | '|' :: rest => readFor steps { p with body := p.body.branch } rest
    | '[' :: rest =>
      match Choice.read? p.flags rest with
      | some (depth, rest) => readFor steps (p.add depth) rest
      | none => none
    | '{' :: _ => none
    | c :: rest =>
      if c ∈ ['?', '*', '+'] then
        -- A question mark behind a repetition asks for few instead of many.
        let rest := if rest.head? = some '?' then rest.drop 1 else rest
        match p.body.repeatLast? with
        | some body => readFor steps { p with body := body } rest
        | none => none
      else
        match atom? p.flags (c :: rest) with
        | some (atom, rest) =>
          if atom.isSupported p.flags then readFor steps (p.add 0) rest else none
        | none => none

/-- How deep a pattern may be nested. -/
def nestingLimit : Nat := 250

/-- Whether a text is a pattern. -/
def isWellFormed (s : Text) : Bool := (readFor (s.length + 1) {} s).any (· ≤ nestingLimit)

/-- Whether a text is a decimal number without a sign, with a fraction and an
    exponent of ten or without. -/
def isDecimal (s : Text) : Bool :=
  let whole := s.takeWhile Char.isDigit
  let s := s.drop whole.length
  let fraction := match s with
    | '.' :: rest => rest.takeWhile Char.isDigit
    | _ => []
  let s := match s with
    | '.' :: rest => rest.drop fraction.length
    | s => s
  let exponent := match s with
    | [] => true
    | e :: s =>
      let digits := if s.head? = some '+' || s.head? = some '-' then s.drop 1 else s
      e.toLower = 'e' && !digits.isEmpty && digits.all Char.isDigit
  !(whole ++ fraction).isEmpty && exponent

/-- Whether a text may stand for the value of a field. A number with a plus
    sign is no pattern, and all others are. -/
def isValue (s : Text) : Bool :=
  match s with
  | '+' :: s =>
    isDecimal s ||
      s.map Char.toLower ∈ ["inf".toList, "infinity".toList, "nan".toList]
  | s => isWellFormed s

end Pattern

end PackageIndex
