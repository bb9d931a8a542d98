import PackageIndex.Json.Number
import PackageIndex.Json.Quoted

/-!
# Values Passed Over

A field that means nothing here may hold any value. It is passed over, and
only its form is looked at, however deeply it is nested. The brackets that are
open are kept on a stack, the innermost first, so nesting costs no depth of
recursion.

Every step takes at least one character off the text, so the number of
characters bounds the number of steps.

## Main definitions

* `Bracket`: The kinds of bracket.
* `pass`: What follows a value that is passed over.
-/

namespace PackageIndex

namespace Json

/-- The kinds of bracket that can be open. -/
inductive Bracket where
  | array
  | object
  deriving DecidableEq

/-- What follows a value without brackets that is passed over. -/
def passScalar : Text → Except Fault Text
  | [] => .error .truncated
  | 'n' :: rest => literal "ull".toList rest
  | 't' :: rest => literal "rue".toList rest
  | 'f' :: rest => literal "alse".toList rest
  | '"' :: rest => passQuoted rest
  | c :: rest => if c = '-' || c.isDigit then passNumber (c :: rest) else .error .malformed

/-- What follows a colon, with the space before it. -/
def colon (s : Text) : Except Fault Text :=
  match skipSpace s with
  | [] => .error .truncated
  | ':' :: rest => .ok rest
  | _ => .error .malformed

/-- What follows a key that is passed over, and its colon. -/
def passKey (s : Text) : Except Fault Text :=
  match skipSpace s with
  | [] => .error .truncated
  | '"' :: rest =>
    match passQuoted rest with
    | .ok rest => colon rest
    | .error fault => .error fault
  | _ => .error .malformed

/-- What follows the brackets that are open, when a value is due or has just
    been passed over. The first argument bounds the steps. -/
def passFor : Nat → Bool → List Bracket → Text → Except Fault Text
  | 0, _, _, _ => .error .truncated
  | steps + 1, true, stack, s =>
    match skipSpace s with
    | '[' :: rest =>
      match skipSpace rest with
      | ']' :: _ => passFor steps false (.array :: stack) rest
      | _ => passFor steps true (.array :: stack) rest
    | '{' :: rest =>
      match skipSpace rest with
      | '}' :: _ => passFor steps false (.object :: stack) rest
      | _ =>
        match passKey rest with
        | .ok rest => passFor steps true (.object :: stack) rest
        | .error fault => .error fault
    | s =>
      match passScalar s with
      | .ok rest => passFor steps false stack rest
      | .error fault => .error fault
  | _ + 1, false, [], s => .ok s
  | steps + 1, false, .array :: stack, s =>
    match skipSpace s with
    | [] => .error .truncated
    | ',' :: rest => passFor steps true (.array :: stack) rest
    | ']' :: rest => passFor steps false stack rest
    | _ => .error .malformed
  | steps + 1, false, .object :: stack, s =>
    match skipSpace s with
    | [] => .error .truncated
    | ',' :: rest =>
      match passKey rest with
      | .ok rest => passFor steps true (.object :: stack) rest
      | .error fault => .error fault
    | '}' :: rest => passFor steps false stack rest
    | _ => .error .malformed

/-- What follows a value that is passed over. -/
def pass (s : Text) : Except Fault Text := passFor (s.length + 1) true [] s

end Json

end PackageIndex
