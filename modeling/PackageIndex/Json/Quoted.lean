import PackageIndex.Json.Scan

/-!
# Quoted Strings

A string stands between quotes. Inside, a quote, a backslash and the control
characters below the space are written as escapes, and everything else is
written as itself. Reading accepts more escapes than writing produces: a slash
may be escaped, and any code point may be given by four hexadecimal digits, or
by two such groups, the halves of a pair, when it does not fit one.

Half of a pair alone is no character, so a string that is used may not contain
one. In a string that is passed over it does no harm, and only the form of its
escapes is looked at.

Reading goes one character at a time, and what has been seen of an escape is
kept as the state. When four hexadecimal digits are due, what counts is
whether four bytes are left: if not, the text ends too early, whatever it ends
with.

## Main definitions

* `quote`: A text as a quoted string.
* `Pending`: What has been seen of an escape.
* `unquote`: The text of a string whose opening quote has been read.
* `passQuoted`: What follows a string that is passed over.
-/

namespace PackageIndex

namespace Json

/-- The hexadecimal digit of a number below sixteen. -/
def hexDigit (n : Nat) : Char := Nat.digitChar n

/-- How a character is written inside a string. -/
def escape (c : Char) : Text :=
  if c = '"' then ['\\', '"']
  else if c = '\\' then ['\\', '\\']
  else if c = '\x08' then ['\\', 'b']
  else if c = '\x0c' then ['\\', 'f']
  else if c = '\n' then ['\\', 'n']
  else if c = '\r' then ['\\', 'r']
  else if c = '\t' then ['\\', 't']
  else if c < ' ' then
    ['\\', 'u', '0', '0', hexDigit (c.toNat / 16), hexDigit (c.toNat % 16)]
  else [c]

/-- A text as a quoted string. -/
def quote (s : Text) : Text := '"' :: s.flatMap escape ++ ['"']

/-- The character that a backslash and another character stand for. -/
def shortEscape? : Char → Option Char
  | '"' => some '"'
  | '\\' => some '\\'
  | '/' => some '/'
  | 'b' => some '\x08'
  | 'f' => some '\x0c'
  | 'n' => some '\n'
  | 'r' => some '\r'
  | 't' => some '\t'
  | _ => none

/-- The value of a hexadecimal digit, of either case. -/
def hexValue? (c : Char) : Option Nat :=
  if '0' ≤ c && c ≤ '9' then some (c.toNat - '0'.toNat)
  else if 'a' ≤ c && c ≤ 'f' then some (c.toNat - 'a'.toNat + 10)
  else if 'A' ≤ c && c ≤ 'F' then some (c.toNat - 'A'.toNat + 10)
  else none

/-- Whether fewer than four bytes are left of a text. -/
def underFourBytes (s : Text) : Bool :=
  (s.take 4).foldl (fun bytes c => bytes + c.utf8Size) 0 < 4

/-- Whether a number is the first half of a pair. -/
def isLeading (n : Nat) : Bool := 0xD800 ≤ n && n ≤ 0xDBFF

/-- Whether a number is the second half of a pair. -/
def isTrailing (n : Nat) : Bool := 0xDC00 ≤ n && n ≤ 0xDFFF

/-- The character that the two halves of a pair stand for. -/
def joinPair (leading trailing : Nat) : Char :=
  Char.ofNat (0x10000 + (leading - 0xD800) * 0x400 + (trailing - 0xDC00))

/-- What has been seen of an escape. -/
inductive Pending where
  /-- Nothing. -/
  | plain
  /-- A backslash. -/
  | backslash
  /-- A backslash and a `u`, with this many digits still due, the value of
      those seen, and the first half of a pair if one has been read. -/
  | hex (due value : Nat) (leading : Option Nat)
  /-- The first half of a pair. -/
  | half (leading : Nat)
  /-- The first half of a pair, and a backslash. -/
  | halfBackslash (leading : Nat)
  deriving DecidableEq

/-- A character put in front of what is read. -/
def prepend (c : Char) : Except Fault (Text × Text) → Except Fault (Text × Text)
  | .ok (s, rest) => .ok (c :: s, rest)
  | .error fault => .error fault

/-- The text of a string that is used, from inside it on, and what follows its
    closing quote. -/
def unquoteFrom : Pending → Reader Text
  | _, [] => .error .truncated
  | .plain, c :: rest =>
    if c = '"' then .ok ([], rest)
    else if c = '\\' then unquoteFrom .backslash rest
    else if c < ' ' then .error .malformed
    else prepend c (unquoteFrom .plain rest)
  | .backslash, c :: rest =>
    match shortEscape? c with
    | some d => prepend d (unquoteFrom .plain rest)
    | none =>
      if c = 'u' then
        if underFourBytes rest then .error .truncated else unquoteFrom (.hex 4 0 none) rest
      else .error .malformed
  | .hex due value leading, c :: rest =>
    match hexValue? c with
    | none => .error .malformed
    | some digit =>
      let n := value * 16 + digit
      if 1 < due then unquoteFrom (.hex (due - 1) n leading) rest
      else
        match leading with
        | none =>
          if isTrailing n then .error .malformed
          else if isLeading n then unquoteFrom (.half n) rest
          else prepend (Char.ofNat n) (unquoteFrom .plain rest)
        | some leading =>
          if isTrailing n then prepend (joinPair leading n) (unquoteFrom .plain rest)
          else .error .malformed
  | .half leading, c :: rest =>
    if c = '\\' then unquoteFrom (.halfBackslash leading) rest else .error .malformed
  | .halfBackslash leading, c :: rest =>
    if c = 'u' then
      if underFourBytes rest then .error .truncated
      else unquoteFrom (.hex 4 0 (some leading)) rest
    else .error .malformed

/-- The text of a string that is used, after its opening quote, and what
    follows its closing quote. -/
def unquote : Reader Text := unquoteFrom .plain

/-- What follows the closing quote of a string that is passed over, from
    inside it on. Of an escape only the digits still due matter, and whether a
    backslash has been seen. -/
def passFrom : Pending → Text → Except Fault Text
  | _, [] => .error .truncated
  | .backslash, c :: rest =>
    if (shortEscape? c).isSome then passFrom .plain rest
    else if c = 'u' then
      if underFourBytes rest then .error .truncated else passFrom (.hex 4 0 none) rest
    else .error .malformed
  | .hex due value leading, c :: rest =>
    if (hexValue? c).isNone then .error .malformed
    else passFrom (if 1 < due then .hex (due - 1) value leading else .plain) rest
  | _, c :: rest =>
    if c = '"' then .ok rest
    else if c = '\\' then passFrom .backslash rest
    else if c < ' ' then .error .malformed
    else passFrom .plain rest

/-- What follows a string that is passed over, after its opening quote. -/
def passQuoted : Text → Except Fault Text := passFrom .plain

end Json

end PackageIndex
