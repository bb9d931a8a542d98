import PackageIndex.Text.Basic
import PackageIndex.Text.Unseen

/-!
# Texts for Inspection

A log that shows settings shows texts in quotes, with everything that would
not be seen, or would be taken for the closing quote, written as an escape.
An escape gives the code point of the character in hexadecimal, between
braces. A few characters have shorter ones.

## Main definitions

* `codePoint`: A character as the escape that gives its code point.
* `inspectChar`: A character as it stands inside quotes.
* `inspect`: A text in quotes.
-/

namespace PackageIndex

namespace Text

/-- A character as the escape that gives its code point. -/
def codePoint (c : Char) : Text :=
  "\\u\x7b".toList ++ Nat.toDigits 16 c.toNat ++ "\x7d".toList

/-- A character as it stands inside quotes. -/
def inspectChar (c : Char) : Text :=
  if c = '"' || c = '\\' then ['\\', c]
  else if c = '\n' then ['\\', 'n']
  else if c = '\r' then ['\\', 'r']
  else if c = '\t' then ['\\', 't']
  else if c.toNat = 0 then ['\\', '0']
  else if isUnseen c then codePoint c
  else [c]

/-- A text in double quotes. -/
def inspect (s : Text) : Text := '"' :: s.flatMap inspectChar ++ ['"']

end Text

end PackageIndex
