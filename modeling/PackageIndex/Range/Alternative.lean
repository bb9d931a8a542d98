import PackageIndex.Log.Event
import PackageIndex.Range.Comparator
import PackageIndex.Text.Blank

/-!
# Alternatives

One alternative of a range: words separated by blanks, all of which must hold.

Pre-releases are left out unless they are asked for. An alternative asks for
them when the range does, or when one of its own words ends in `-`; that dash
belongs to the word's end and not to its version, so it is taken off before
anything else is read. The caller has the last word: a setting of `true` lets
pre-releases in everywhere, and a setting of `false` nowhere.

## Main definitions

* `Alternative`: Comparators that must all hold, and whether pre-releases are
  asked for.
* `Alternative.parse`: The alternative a text stands for.
* `Alternative.accepts`: Whether a version passes.
* `Alternative.parsed`: The event that reports an alternative.
-/

namespace PackageIndex

/-- One alternative of a range. -/
structure Alternative where
  /-- The tests, all of which must hold. -/
  comparators : List Comparator
  /-- Whether pre-releases are asked for. -/
  optsIn : Bool
  deriving DecidableEq

namespace Alternative

/-- A word without the dash at its end, and whether there was one. -/
def splitDash (word : Text) : Text × Bool :=
  if word.getLast? = some '-' then (word.dropLast, true) else (word, false)

/-- The alternative a text stands for, in a range that asks for pre-releases
    or does not. The first word that is refused decides. -/
def parse (s : Text) (optsIn : Bool) : Except Refusal Alternative := do
  let words := (Text.words s).map splitDash
  let comparators ← words.mapM fun word => Comparator.ofWord word.1
  return ⟨comparators.flatten, optsIn || words.any (·.2)⟩

/-- Whether a version that passes every test is let in: one that is no
    pre-release always is, a pre-release if the setting says so, or if there is
    no setting and the alternative asks for pre-releases. -/
def admits (a : Alternative) (v : Version) (setting : Option Bool) : Bool :=
  !v.isPrerelease || setting.getD a.optsIn

/-- Whether a version passes. -/
def accepts (a : Alternative) (v : Version) (setting : Option Bool) : Bool :=
  a.admits v setting && a.comparators.all (·.accepts v)

/-- An alternative as it is written, comparator by comparator. -/
def write (a : Alternative) : Text := Text.join [' '] (a.comparators.map Comparator.write)

/-- The event that reports an alternative read from a text. -/
def parsed (a : Alternative) (s : Text) : Event where
  level := .debug
  source := "pkgver::version::condition".toList
  message := "Parsed condition set '".toList ++ Text.trim s ++ "' as [".toList ++ a.write ++ [']']

end Alternative

end PackageIndex
