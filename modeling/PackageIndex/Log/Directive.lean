import PackageIndex.Log.Event
import PackageIndex.Log.Pattern
import PackageIndex.Text.Alphanumeric
import PackageIndex.Text.Blank
import PackageIndex.Text.Bytes

/-!
# Log Directives

A directive says how much is shown of a part of the program, and is written
`part[span{field=value}]=level`. A part is a beginning of the name that
events have as their source. The brackets restrict the directive, to what
happens inside spans, or to events that have a field. No span is ever open
here, and a value is looked at inside spans alone.

Every piece may be left out. A level alone holds for all parts, and a part
alone, or with nothing behind the equals sign, is shown in full. A level may
also be written as a number from zero to five.

Blanks around a directive are passed over when its pieces are found. But a
piece is then taken from the directive as it stands, at the place where it was
found, so blanks in front push all pieces aside. Places are counted in bytes,
and a piece with an end inside a character is torn.

## Main definitions

* `Restriction`: What a directive is restricted to.
* `Directive`: A part of the program and how much of it is shown.
* `Directive.Fault`: Why a directive cannot be used.
* `Directive.parse`: The directive a text stands for.
* `Directive.covers`: Whether a directive holds for an event.
-/

namespace PackageIndex

/-- What a directive is restricted to. -/
inductive Restriction where
  /-- It holds for every event of its part of the program. -/
  | none
  /-- It holds for the events that have a field. -/
  | field (name : Text)
  /-- It holds inside spans, and so for no event. -/
  | span
  deriving DecidableEq

/-- How much is shown of a part of the program: the events of at most this
    verbosity. -/
structure Directive where
  scope : Text
  restriction : Restriction
  verbosity : Nat
  deriving DecidableEq

namespace Directive

/-- Why a directive cannot be used. -/
inductive Fault where
  /-- It is none. -/
  | refused
  /-- A piece of it is torn. -/
  | torn
  deriving DecidableEq

/-- The verbosity that shows everything. -/
def full : Nat := 5

/-- The names of the levels, with the verbosity each lets through. -/
def levelNames : List (Text × Nat) :=
  [("off".toList, 0), ("error".toList, 1), ("warn".toList, 2), ("info".toList, 3),
    ("debug".toList, 4), ("trace".toList, full)]

/-- The verbosity that a level lets through, from its number, which may have a
    plus sign, or from its name in either case. -/
def verbosity? (s : Text) : Option Nat :=
  let digits := if s.head? = some '+' then s.drop 1 else s
  match Numeral.read? digits with
  | some n => if n ≤ full then some n else none
  | none => (levelNames.find? fun entry => entry.1 = s.map Char.toLower).map (·.2)

/-- Whether the name of a part may begin with a character. -/
def begins (c : Char) : Bool := Text.isAlphanumeric c || c = '-' || c = ':' || c = '_'

/-- A directive that is a level alone or a part alone. -/
def ofName (name : Text) : Directive :=
  match verbosity? name with
  | some verbosity => ⟨[], .none, verbosity⟩
  | none => ⟨name, .none, full⟩

/-- What is left of a directive while its pieces are taken off. -/
structure Reading where
  /-- What is left without the blanks, where the pieces are found. -/
  found : Text
  /-- What is left as it stands, from which they are taken. -/
  written : Text

namespace Reading

/-- The text as it stands, cut at a number of bytes. -/
def cut (bytes : Nat) (written : Text) : Except Fault (Text × Text) :=
  match Text.cutBytes? bytes written with
  | some parts => .ok parts
  | none => .error .torn

/-- The piece behind a number of marks, up to a character that ends it, of
    which there must be one. -/
def piece (marks : Nat) (ends : Char → Bool) (r : Reading) : Except Fault (Text × Reading) :=
  let found := r.found.drop marks
  if !found.any ends then .error .refused
  else do
    let (_, written) ← cut marks r.written
    let (piece, written) ← cut (Text.byteLength (found.takeWhile (!ends ·))) written
    return (piece, ⟨found.dropWhile (!ends ·), written⟩)

/-- The verbosity of the level behind a number of marks, which is all that is
    left. -/
def level (marks : Nat) (r : Reading) : Except Fault Nat := do
  let (_, level) ← cut marks r.written
  if level.isEmpty then return full
  match verbosity? level with
  | some verbosity => return verbosity
  | none => .error .refused

/-- The directive when only a level may be left, behind a number of marks. -/
def close (scope : Text) (restriction : Restriction) (marks : Nat) (r : Reading) :
    Except Fault Directive :=
  match r.found.drop marks with
  | [] => .ok ⟨scope, restriction, full⟩
  | '=' :: _ => do return ⟨scope, restriction, ← r.level (marks + 1)⟩
  | _ => .error .refused

end Reading

/-- The restriction to a span with a name, which may be empty, and to a field
    with a value or without. -/
def restriction? (span field : Text) : Option Restriction :=
  match Text.cut '=' field with
  | ([], none) => none
  | (name, none) => if span.isEmpty then some (.field name) else some .span
  | (_, some value) => if Pattern.isValue (Text.cut '=' value).1 then some .span else none

/-- The directive for a part of the program whose restriction follows. -/
def parseRestricted (scope : Text) (r : Reading) : Except Fault Directive := do
  let (span, r) ← r.piece 1 fun c => c = ']' || c = '{'
  if r.found.head? = some ']' then r.close scope .span 1
  else
    let (field, r) ← r.piece 1 (· = '}')
    match restriction? span field with
    | none => .error .refused
    | some restriction =>
      if (r.found.drop 1).head? = some ']' then r.close scope restriction 2
      else .error .refused

/-- The directive a text stands for. -/
def parse (s : Text) : Except Fault Directive :=
  let r : Reading := ⟨Text.trim s, s⟩
  let ends := fun c => c = '=' || c = '['
  match r.found.head? with
  | none => .error .refused
  | some c =>
    if c = '[' then parseRestricted [] r
    else if !begins c then .error .refused
    else if !r.found.any ends then .ok (ofName s)
    else do
      let (scope, r) ← r.piece 0 ends
      if r.found.head? = some '[' then parseRestricted scope r
      else r.close scope .none 0

/-- Whether a directive holds for an event. -/
def covers (d : Directive) (e : Event) : Bool :=
  d.scope.isPrefixOf e.source &&
    match d.restriction with
    | .none => true
    | .field name => e.fields.contains name
    | .span => false

end Directive

end PackageIndex
