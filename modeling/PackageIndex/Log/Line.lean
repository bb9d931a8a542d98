import PackageIndex.Json.Quoted
import PackageIndex.Log.Event
import PackageIndex.Text.Inspect

/-!
# Log Lines

An event becomes a line when it is logged, with the time of the logging in
front. A line is plain text or structured text. Plain text is for reading: the
levels are all as wide as the longest of them, so that what follows stands in
a column. Structured text is for other programs, and one event is one object.

A message may quote what a user wrote. On a terminal some control characters
do not show but act: they ring, erase, or start a command. A line of plain
text has them as escapes. Line breaks and tabs stand as they are. Structured
text is not shown on a terminal, and holds the message unchanged.

## Main definitions

* `Event.isActing`: Whether a terminal obeys a character.
* `Event.plainMessage`: A message that is safe to show on a terminal.
* `Event.line`: An event as a line of plain text.
* `Event.object`: An event as a line of structured text.

## Theorems

* `Event.plainMessage_eq_message`: Other messages are shown unchanged.
-/

namespace PackageIndex

namespace Event

/-- Whether a terminal obeys a character. These are the bell, the backspace,
    the form feed, the escape, the delete, and all controls after it. -/
def isActing (c : Char) : Bool :=
  c ∈ ['\x07', '\x08', '\x0c', '\x1b', '\x7f'] || 0x80 ≤ c.toNat && c.toNat ≤ 0x9F

/-- A character of a message, as plain text shows it. One that a terminal
    obeys is an escape, with two hexadecimal digits up to the delete. -/
def plainChar (c : Char) : Text :=
  if isActing c then
    if c.toNat ≤ 0x7F then
      ['\\', 'x', Nat.digitChar (c.toNat / 16), Nat.digitChar (c.toNat % 16)]
    else Text.codePoint c
  else [c]

/-- A message that is safe to show on a terminal. -/
def plainMessage (e : Event) : Text := e.message.flatMap plainChar

/-- A message that no terminal obeys is shown unchanged. -/
theorem plainMessage_eq_message {e : Event} (h : ∀ c ∈ e.message, isActing c = false) :
    e.plainMessage = e.message := by
  unfold plainMessage
  generalize e.message = s at h
  induction s with
  | nil => rfl
  | cons c s ih => simp_all [plainChar]

/-- An event as a line of plain text, logged at a time. -/
def line (time : Text) (e : Event) : Text :=
  time ++ List.replicate (6 - e.level.label.length) ' ' ++ e.level.label ++ [' '] ++ e.source ++
    ": ".toList ++ e.plainMessage

/-- An event as a line of structured text, logged at a time. -/
def object (time : Text) (e : Event) : Text :=
  "\x7b\"timestamp\":".toList ++ Json.quote time ++ ",\"level\":".toList ++
    Json.quote e.level.label ++ ",\"fields\":\x7b\"message\":".toList ++ Json.quote e.message ++
    "\x7d,\"target\":".toList ++ Json.quote e.source ++ "\x7d".toList

end Event

end PackageIndex
