import PackageIndex.Json.Shape
import PackageIndex.Revision.Ledger

/-!
# Ledgers as Text

A ledger is kept as structured text: an object with the field `revisions`, an
array of objects with the fields `revision` and `time`. It is written without
any space, and read with whatever form the notation allows.

Times are written with the fewest digits that identify them. A time that is
not finite has no digits and is written as null, which is no time when it is
read: a ledger with such a time can be written and not read again.

Two ledgers are equal when they are written alike.

## Main definitions

* `Ledger.write`: A ledger's text.
* `Ledger.read`: The ledger a text holds.
-/

namespace PackageIndex

namespace Revision

/-- How a time is written in a ledger: digits in place from five places behind
    the point to sixteen in front of it, and a zero behind the point of a whole
    number. -/
def stored : Layout where
  tie := .even
  inPlace := fun exponent => -5 ≤ exponent && exponent ≤ 15
  whole := ".0".toList

/-- A time as it is written in a ledger. -/
def writeTime (time : Binary64) : Text :=
  if time.isFinite then stored.write time else "null".toList

/-- A revision as it is written in a ledger. -/
def write (r : Revision) : Text :=
  "\x7b\"revision\":".toList ++ Json.quote r.id ++ ",\"time\":".toList ++ writeTime r.time ++
    "\x7d".toList

/-- The fields of a revision that have been read. -/
structure Seen where
  id : Option Text := none
  time : Option Binary64 := none

/-- A field of a revision. -/
def readField (seen : Seen) (key : Text) : Json.Reader Seen :=
  if key = "revision".toList then Json.field seen.id Json.text ({ seen with id := some · })
  else if key = "time".toList then
    Json.field seen.time Json.numeric ({ seen with time := some · })
  else Json.otherField seen

/-- A revision written as an object. -/
def readObject : Json.Reader Revision := fun s => do
  match ← Json.members readField {} s with
  | (⟨some id, some time⟩, rest) => .ok (⟨id, time⟩, rest)
  | _ => .error .misshapen

/-- A revision written as an array. -/
def readArray : Json.Reader Revision := fun s => do
  match ← Json.element? true Json.text s with
  | (none, _) => .error .misshapen
  | (some id, s) =>
    match ← Json.element? false Json.numeric s with
    | (none, _) => .error .misshapen
    | (some time, s) =>
      let rest ← Json.closeArray s
      return (⟨id, time⟩, rest)

/-- A revision. -/
def read : Json.Reader Revision := Json.record readArray readObject

end Revision

namespace Ledger

/-- A ledger's text. -/
def write (l : Ledger) : Text :=
  "\x7b\"revisions\":[".toList ++ Text.join [','] (l.revisions.map Revision.write) ++
    "]\x7d".toList

/-- A field of a ledger. -/
def readField : Option (List Revision) → Text → Json.Reader (Option (List Revision)) :=
  fun revisions key =>
    if key = "revisions".toList then Json.field revisions (Json.list Revision.read) some
    else Json.otherField revisions

/-- A ledger written as an object. -/
def readObject : Json.Reader Ledger := fun s => do
  match ← Json.members readField none s with
  | (some revisions, rest) => .ok (⟨revisions⟩, rest)
  | (none, _) => .error .misshapen

/-- A ledger written as an array. -/
def readArray : Json.Reader Ledger := fun s => do
  match ← Json.element? true (Json.list Revision.read) s with
  | (none, _) => .error .misshapen
  | (some revisions, s) =>
    let rest ← Json.closeArray s
    return (⟨revisions⟩, rest)

/-- The ledger a text holds. -/
def read (s : Text) : Except Json.Fault Ledger :=
  Json.document (Json.record readArray readObject) s

/-- Ledgers are equal when they are written alike. -/
instance : BEq Ledger where
  beq l m := l.write == m.write

end Ledger

end PackageIndex
