import PackageIndex.Json.Quoted
import PackageIndex.Text.Blank

/-!
# Atoms of Patterns

A pattern describes texts. It is made of atoms, which describe a character, a
set of characters with a name, or a place between characters. Flags say how it
is read and what its atoms mean, and they may change inside a pattern.

The sets that have names, the boundaries of words, and what differs by case
alone all need to know the characters of the standard, and here only those of
ASCII are known. So an atom is not supported where it would need more. Where
characters stand for bytes, what could go beyond ASCII is not supported
either, since it could divide a character.

Blanks and comments between atoms are passed over if a flag says so.

## Main definitions

* `Flags`: How a pattern is read.
* `Flags.next`: What is left behind blanks and comments.
* `Atom`: What describes a character or a place.
* `escape?`: The atom that is written behind a backslash.
* `Parts`: How many parts there are, and how deep they are nested.
-/

namespace PackageIndex

namespace Pattern

/-- How a pattern is read. -/
structure Flags where
  /-- Whether case plays no part. -/
  caseless : Bool := false
  /-- Whether characters are those of the standard, and not bytes. -/
  unicode : Bool := true
  /-- Whether blanks and comments are passed over. -/
  verbose : Bool := false

namespace Flags

/-- The flags with the one that a letter stands for. The other letters make no
    difference here. -/
def set (on : Bool) (flags : Flags) (letter : Char) : Flags :=
  if letter = 'i' then { flags with caseless := on }
  else if letter = 'u' then { flags with unicode := on }
  else if letter = 'x' then { flags with verbose := on }
  else flags

/-- The flags when letters are added, and those behind a dash taken away. -/
def change (flags : Flags) (letters : Text) : Flags :=
  let (added, removed) := Text.cut '-' letters
  (removed.getD []).foldl (set false) (added.foldl (set true) flags)

/-- What is left behind blanks and comments, from inside a comment or not. A
    comment goes to the end of its line. -/
def skip (inComment : Bool) : Text → Text
  | [] => []
  | c :: rest =>
    if inComment then skip (c ≠ '\n') rest
    else if Text.isBlank c then skip false rest
    else if c = '#' then skip true rest
    else c :: rest

/-- What is left behind blanks and comments, if they are passed over. -/
def next (flags : Flags) (s : Text) : Text := if flags.verbose then skip false s else s

end Flags

/-- What describes a character or a place. -/
inductive Atom where
  /-- A character, which may be written as a byte. -/
  | char (c : Char) (byte : Bool)
  /-- The digits, the blanks or the characters of words, or all others. -/
  | named (others : Bool)
  /-- Any character of a line. -/
  | any
  /-- An end of the text or of a line. -/
  | edge
  /-- An end of a word. -/
  | wordEdge

namespace Atom

/-- Whether an atom is supported. -/
def isSupported (flags : Flags) : Atom → Bool
  | .char c byte => if flags.unicode then !flags.caseless else !byte || c.toNat < 0x80
  | .named others => !flags.unicode && !others
  | .any => flags.unicode
  | .edge => true
  | .wordEdge => !flags.unicode

/-- Whether an atom is supported as a member of a set. -/
def isMember (flags : Flags) : Atom → Bool
  | .char c _ => if flags.unicode then !flags.caseless else c.toNat < 0x80
  | .named others => !flags.unicode && !others
  | _ => false

end Atom

/-- The number that is written in some more hexadecimal digits, and what
    follows it. -/
def hexNumber? (flags : Flags) : Nat → Nat → Text → Option (Nat × Text)
  | 0, value, s => some (value, s)
  | digits + 1, value, s =>
    match flags.next s with
    | [] => none
    | c :: rest =>
      match Json.hexValue? c with
      | some digit => hexNumber? flags digits (16 * value + digit) rest
      | none => none

/-- The character whose code point is written in hexadecimal digits, of which
    two make a byte, and what follows it. -/
def hexChar? (flags : Flags) (digits : Nat) (s : Text) : Option (Atom × Text) :=
  match hexNumber? flags digits 0 s with
  | some (value, rest) =>
    if value.isValidChar then some (.char (Char.ofNat value) (digits = 2), rest) else none
  | none => none

/-- The letters that stand for control characters. -/
def controls : List (Char × Char) :=
  [('a', '\x07'), ('f', '\x0c'), ('t', '\t'), ('n', '\n'), ('r', '\r'), ('v', '\x0b')]

/-- The atom that is written behind a backslash, and what follows it. All
    characters of ASCII but letters and digits stand for themselves. -/
def escape? (flags : Flags) : Text → Option (Atom × Text)
  | [] => none
  | c :: rest =>
    if c = 'x' then hexChar? flags 2 rest
    else if c = 'u' then hexChar? flags 4 rest
    else if c = 'U' then hexChar? flags 8 rest
    else if c ∈ ['d', 's', 'w'] then some (.named false, rest)
    else if c ∈ ['D', 'S', 'W'] then some (.named true, rest)
    else if c ∈ ['A', 'z'] then some (.edge, rest)
    else if c ∈ ['b', 'B', '<', '>'] then some (.wordEdge, rest)
    else
      match controls.find? (·.1 = c) with
      | some (_, control) => some (.char control false, rest)
      | none =>
        if c.toNat < 0x80 && !c.isAlphanum then some (.char c false, rest) else none

/-- How many parts there are, and how deep the deepest is nested. -/
structure Parts where
  count : Nat := 0
  depth : Nat := 0

namespace Parts

/-- The parts and one more. -/
def add (parts : Parts) (depth : Nat) : Parts := ⟨parts.count + 1, max parts.depth depth⟩

/-- How deep the whole is nested. Several parts make a level of their own. -/
def nesting (parts : Parts) : Nat := if parts.count ≤ 1 then parts.depth else parts.depth + 1

end Parts

end Pattern

end PackageIndex
