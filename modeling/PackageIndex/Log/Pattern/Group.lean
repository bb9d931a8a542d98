import PackageIndex.Log.Pattern.Basic
import PackageIndex.Text.Alphanumeric

/-!
# Groups

A group stands in round brackets. Behind the opening one there may be a
question mark, and then a name for the group, or flags. Flags hold for the
group, or, if nothing but them is in the brackets, for what follows.

## Main definitions

* `Head`: What an opening bracket begins.
* `head?`: What is said at the beginning of a group.
-/

namespace PackageIndex

namespace Pattern

/-- What an opening bracket begins. -/
inductive Head where
  /-- A group without a name. -/
  | group (flags : Flags)
  /-- A group with a name. -/
  | named (name : Text)
  /-- No group, but new flags. -/
  | flags (flags : Flags)

namespace Head

/-- Whether a character may be in the name of a group, at its beginning or
    not. -/
def isNameChar (first : Bool) (c : Char) : Bool :=
  c = '_' || if first then Text.isAlphabetic c else
    c = '.' || c = '[' || c = ']' || Text.isAlphanumeric c

/-- A group with a name, from its name on, and what follows the name. -/
def ofName? (s : Text) : Option (Head × Text) :=
  let name := s.takeWhile (· ≠ '>')
  match s.dropWhile (· ≠ '>') with
  | '>' :: rest =>
    if name.head?.any (isNameChar true) && (name.drop 1).all (isNameChar false) then
      some (.named name, rest)
    else none
  | _ => none

/-- The letters for flags, and the dash that takes away. -/
def flagLetters : Text := "imsURux-".toList

/-- A group with flags or flags alone, from the flags on, and what follows
    them. None is given twice, and a dash takes at least one away. -/
def ofFlags? (flags : Flags) (s : Text) : Option (Head × Text) :=
  let letters := s.takeWhile flagLetters.contains
  if !letters.Nodup || letters.getLast? = some '-' then none
  else
    match s.drop letters.length with
    | ':' :: rest => some (.group (flags.change letters), rest)
    | ')' :: rest => if letters.isEmpty then none else some (.flags (flags.change letters), rest)
    | _ => none

end Head

/-- What an opening bracket begins, and what follows. -/
def head? (flags : Flags) (s : Text) : Option (Head × Text) :=
  match flags.next s with
  | '?' :: 'P' :: '<' :: rest => Head.ofName? rest
  | '?' :: '<' :: rest => Head.ofName? rest
  | '?' :: rest => Head.ofFlags? flags rest
  | s => some (.group flags, s)

end Pattern

end PackageIndex
