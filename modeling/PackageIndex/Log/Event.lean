import PackageIndex.Text.Numeral

/-!
# Log Events

What the library has to say about its work is a value like any other result.
An operation that reports has a companion that lists its events in order, so
an operation's own definition is not interleaved with its reporting, and
whoever calls it decides which events are shown and where.

## Main definitions

* `Level`: How important an event is.
* `Event`: One message, with its level and the part of the program it is from.
-/

namespace PackageIndex

/-- How important an event is. -/
inductive Level where
  | error
  | warn
  | info
  | debug
  | trace
  deriving DecidableEq

namespace Level

/-- Levels from the most important on. A filter that lets a level through lets
    all lower numbers through. -/
def verbosity : Level → Nat
  | .error => 1
  | .warn => 2
  | .info => 3
  | .debug => 4
  | .trace => 5

/-- The name a level has in a log line. -/
def label : Level → Text
  | .error => "ERROR".toList
  | .warn => "WARN".toList
  | .info => "INFO".toList
  | .debug => "DEBUG".toList
  | .trace => "TRACE".toList

end Level

/-- One message, with its level and the part of the program it is from. -/
structure Event where
  level : Level
  source : Text
  message : Text
  deriving DecidableEq

namespace Event

/-- The names of the fields of an event. -/
def fields (_ : Event) : List Text := ["message".toList]

end Event

end PackageIndex
