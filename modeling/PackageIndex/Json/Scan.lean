import PackageIndex.Text.Basic

/-!
# Scanning Structured Text

Stored revision lists and configuration files are structured text. It is read
from left to right, and reading stops at the first fault. Which of three kinds
the fault is tells whoever wrote the text what to look for: it may end too
early, it may break the notation, or it may be well formed so far and not have
the shape that is wanted.

A reader takes a text and gives back what it read and what is left. Faults
further to the right are not seen, so the order in which a reader looks at
things is part of what it means.

## Main definitions

* `Fault`: The kinds of fault.
* `Reader`: What is read from the front of a text, and what is left.
* `skipSpace`: A text without the space at its front.
* `literal`: The rest of a fixed word.
-/

namespace PackageIndex

namespace Json

/-- The kinds of fault. -/
inductive Fault where
  /-- The text ends too early. -/
  | truncated
  /-- The notation is broken. -/
  | malformed
  /-- The text is well formed so far, and of the wrong shape. -/
  | misshapen
  deriving DecidableEq

/-- What is read from the front of a text, and what is left of it. -/
abbrev Reader (α : Type) := Text → Except Fault (α × Text)

/-- The four characters that may stand between tokens. -/
def isSpace (c : Char) : Bool := c = ' ' || c = '\t' || c = '\n' || c = '\r'

/-- A text without the space at its front. -/
def skipSpace (s : Text) : Text := s.dropWhile isSpace

/-- What follows the rest of a fixed word. -/
def literal : Text → Text → Except Fault Text
  | [], s => .ok s
  | _ :: _, [] => .error .truncated
  | e :: expected, c :: rest => if c = e then literal expected rest else .error .malformed

end Json

end PackageIndex
