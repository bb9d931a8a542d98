import PackageIndex.Json.Skip

/-!
# Reading Values of a Known Shape

A reader that wants a value of one shape and finds another still reads a value
without brackets to its end, since the notation may be broken inside it, and
only then refuses the shape. At an opening bracket it refuses at once.

A record is written as an object with named fields, in any order, or as an
array of its fields in the order they are declared. Fields with other names
are passed over. A second field of the same name is refused as soon as its
name has been read, and a missing one when the closing bracket is reached.

## Main definitions

* `wrongShape`: The fault of a value that is not what is wanted.
* `text`, `numeric`, `flag`, `optional`: Readers of values without brackets.
* `elements`: The elements of an array.
* `element?`: The next element of an array, for a record written as one.
* `members`: The members of an object, folded into a state.
* `document`: A whole text that holds one value.
-/

namespace PackageIndex

namespace Json

/-- The outcome of a value without brackets that was read to its end and is
    not what is wanted. -/
def misread {α : Type} : Except Fault α → Fault
  | .ok _ => .misshapen
  | .error fault => fault

/-- The fault of a value that is not what is wanted. -/
def wrongShape : Text → Fault
  | [] => .truncated
  | 'n' :: rest => misread (literal "ull".toList rest)
  | 't' :: rest => misread (literal "rue".toList rest)
  | 'f' :: rest => misread (literal "alse".toList rest)
  | '"' :: rest => misread (unquote rest)
  | '[' :: _ => .misshapen
  | '{' :: _ => .misshapen
  | c :: rest => if c = '-' || c.isDigit then misread (number (c :: rest)) else .malformed

/-- A string. -/
def text : Reader Text := fun s =>
  match skipSpace s with
  | '"' :: rest => unquote rest
  | s => .error (wrongShape s)

/-- A number. -/
def numeric : Reader Binary64 := fun s =>
  match skipSpace s with
  | [] => .error .truncated
  | c :: rest =>
    if c = '-' || c.isDigit then number (c :: rest) else .error (wrongShape (c :: rest))

/-- A truth value. -/
def flag : Reader Bool := fun s =>
  match skipSpace s with
  | 't' :: rest => do
    let rest ← literal "rue".toList rest
    return (true, rest)
  | 'f' :: rest => do
    let rest ← literal "alse".toList rest
    return (false, rest)
  | s => .error (wrongShape s)

/-- A value that may also be null. -/
def optional {α : Type} (read : Reader α) : Reader (Option α) := fun s =>
  match skipSpace s with
  | 'n' :: rest => do
    let rest ← literal "ull".toList rest
    return (none, rest)
  | s => do
    let (a, rest) ← read s
    return (some a, rest)

/-- Where the next element of an array starts, or nothing if the array closes
    here. Before every element but the first there is a comma. -/
def elementStart (first : Bool) (s : Text) : Except Fault (Option Text) :=
  match skipSpace s with
  | [] => .error .truncated
  | ']' :: _ => .ok none
  | c :: rest =>
    if first then .ok (some (c :: rest))
    else if c = ',' then
      match skipSpace rest with
      | [] => .error .truncated
      | ']' :: _ => .error .malformed
      | rest => .ok (some rest)
    else .error .malformed

/-- What follows the bracket that closes an array. -/
def closeArray (s : Text) : Except Fault Text :=
  match skipSpace s with
  | [] => .error .truncated
  | ']' :: rest => .ok rest
  | _ => .error .malformed

/-- The next element of an array, or nothing if the array closes here. -/
def element? {α : Type} (first : Bool) (read : Reader α) : Reader (Option α) := fun s => do
  match ← elementStart first s with
  | none => return (none, s)
  | some start =>
    let (a, rest) ← read start
    return (some a, rest)

/-- The elements of an array and what follows it, where the first argument
    bounds their number. -/
def elementsFor {α : Type} (read : Reader α) : Nat → Bool → Reader (List α)
  | 0, _, _ => .error .truncated
  | bound + 1, first, s => do
    match ← element? first read s with
    | (none, rest) =>
      let rest ← closeArray rest
      return ([], rest)
    | (some a, rest) =>
      let (others, rest) ← elementsFor read bound false rest
      return (a :: others, rest)

/-- The elements of an array whose opening bracket has been read. Each of them
    takes at least one character. -/
def elements {α : Type} (read : Reader α) : Reader (List α) := fun s =>
  elementsFor read (s.length + 1) true s

/-- The next key of an object, or nothing if the object closes here. Before
    every key but the first there is a comma. -/
def key? (first : Bool) : Reader (Option Text) := fun s =>
  match skipSpace s with
  | [] => .error .truncated
  | '}' :: rest => .ok (none, rest)
  | c :: rest =>
    if first then
      if c = '"' then do
        let (key, rest) ← unquote rest
        return (some key, rest)
      else .error .malformed
    else if c = ',' then
      match skipSpace rest with
      | [] => .error .truncated
      | '"' :: rest => do
        let (key, rest) ← unquote rest
        return (some key, rest)
      | _ => .error .malformed
    else .error .malformed

/-- The members of an object and what follows it, folded into a state. The
    step is given a key, and reads the colon and the value itself. The first
    argument bounds the number of members. -/
def membersFor {σ : Type} (step : σ → Text → Reader σ) : Nat → Bool → σ → Reader σ
  | 0, _, _, _ => .error .truncated
  | bound + 1, first, state, s => do
    match ← key? first s with
    | (none, rest) => return (state, rest)
    | (some key, rest) =>
      let (state, rest) ← step state key rest
      membersFor step bound false state rest

/-- The members of an object whose opening bracket has been read, folded into
    a state. Each of them takes at least one character. -/
def members {σ : Type} (step : σ → Text → Reader σ) (state : σ) : Reader σ := fun s =>
  membersFor step (s.length + 1) true state s

/-- The value of a field that is known, if it has not been seen before. -/
def field {α σ : Type} (seen : Option α) (read : Reader α) (store : α → σ) : Reader σ := fun s => do
  match seen with
  | some _ => .error .misshapen
  | none =>
    let (a, rest) ← read (← colon s)
    return (store a, rest)

/-- A field that is not known, passed over. -/
def otherField {σ : Type} (state : σ) : Reader σ := fun s => do
  let rest ← pass (← colon s)
  return (state, rest)

/-- A record, from either way of writing it. Both readers start behind the
    opening bracket. -/
def record {α : Type} (ofArray ofObject : Reader α) : Reader α := fun s =>
  match skipSpace s with
  | '[' :: rest => ofArray rest
  | '{' :: rest => ofObject rest
  | s => .error (wrongShape s)

/-- A list, from its array. -/
def list {α : Type} (read : Reader α) : Reader (List α) := fun s =>
  match skipSpace s with
  | '[' :: rest => elements read rest
  | s => .error (wrongShape s)

/-- The value that a whole text holds. -/
def document {α : Type} (read : Reader α) (s : Text) : Except Fault α := do
  let (a, rest) ← read s
  if (skipSpace rest).isEmpty then .ok a else .error .malformed

end Json

end PackageIndex
