import PackageIndex.Range.Alternative

/-!
# Ranges

A range is alternatives separated by `||`, one of which must hold, and after
the first comma options that hold for all of them. The only option there is
asks for pre-releases; any other is passed over with a warning.

A range is refused when one of its alternatives is, and the leftmost refusal
is the one reported.

## Main definitions

* `Range`: The text of a range and its alternatives.
* `Range.parse`: The range a text stands for.
* `Range.contains`: Whether a version lies in a range.
* `Range.best?`: The greatest of several versions that lies in a range.
* `Range.report`: What reading a range has to say.
-/

namespace PackageIndex

/-- The text of a range and the alternatives it stands for. -/
structure Range where
  /-- The text as it was read. -/
  text : Text
  /-- The alternatives, one of which must hold. -/
  alternatives : List Alternative
  deriving DecidableEq

namespace Range

/-- The pieces between double bars. Of three bars in a row the first two
    separate. -/
def splitBars : Text → List Text
  | [] => [[]]
  | '|' :: '|' :: rest => [] :: splitBars rest
  | c :: rest =>
    match splitBars rest with
    | [] => [[c]]
    | first :: others => (c :: first) :: others

/-- The text of an option that asks for pre-releases. -/
def includePrerelease : Text := "include_prerelease".toList

/-- Whether a text occurs in another. -/
def occurs (pattern : Text) : Text → Bool
  | [] => pattern.isEmpty
  | c :: rest => pattern.isPrefixOf (c :: rest) || occurs pattern rest

/-- What stands before the first comma. -/
def alternativesText (s : Text) : Text := (Text.cut ',' s).1

/-- The options after the first comma, without blanks around them. Empty ones
    do not count. -/
def options (s : Text) : List Text :=
  ((Text.pieces ',' ((Text.cut ',' s).2.getD [])).map Text.trim).filter (!·.isEmpty)

/-- Whether an option asks for pre-releases. -/
def asksForPrereleases (option : Text) : Bool := occurs includePrerelease option

/-- Whether the options of a range ask for pre-releases. -/
def optsIn (s : Text) : Bool := (options s).any asksForPrereleases

/-- The range a text stands for. -/
def parse (s : Text) : Except Refusal Range := do
  let alternatives ← (splitBars (alternativesText s)).mapM (Alternative.parse · (optsIn s))
  return ⟨s, alternatives⟩

/-- Whether a version lies in a range. -/
def contains (r : Range) (v : Version) (setting : Option Bool) : Bool :=
  r.alternatives.any (·.accepts v setting)

/-- The versions that lie in a range, in the order they are given. -/
def satisfying (r : Range) (versions : List Version) (setting : Option Bool) : List Version :=
  versions.filter (r.contains · setting)

/-- The greatest version that lies in a range, the last one among equals. -/
def best? (r : Range) (versions : List Version) (setting : Option Bool) : Option Version :=
  Version.greatest? (r.satisfying versions setting)

/-- The part of the program that reports on ranges. -/
def source : Text := "pkgver::version::range".toList

/-- The warning about an option that means nothing here. -/
def unknownOption (s option : Text) : Event where
  level := .warn
  source := source
  message := "Ignoring unknown version range option '".toList ++ option ++ "' in '".toList ++ s ++
    ['\'']

/-- The event that reports a range read from a text. -/
def parsed (r : Range) : Event where
  level := .debug
  source := source
  message := "Parsed version range '".toList ++ r.text ++ "' into ".toList ++
    Numeral.write r.alternatives.length ++ " alternative(s)".toList

/-- What reading alternatives has to say: one event for each, up to the first
    that is refused. -/
def reportAlternatives (optsIn : Bool) : List Text → List Event
  | [] => []
  | s :: rest =>
    match Alternative.parse s optsIn with
    | .ok a => a.parsed s :: reportAlternatives optsIn rest
    | .error _ => []

/-- What reading a range has to say: the options passed over, the alternatives
    up to the first refusal, and the range itself if there was none. -/
def report (s : Text) : List Event :=
  ((options s).filter (!asksForPrereleases ·)).map (unknownOption s) ++
    reportAlternatives (optsIn s) (splitBars (alternativesText s)) ++
    match parse s with
    | .ok r => [r.parsed]
    | .error _ => []

end Range

namespace Version

/-- Whether a version lies in the range a text stands for. -/
def inRange (v : Version) (range : Text) (setting : Option Bool) : Except Refusal Bool := do
  let r ← Range.parse range
  return r.contains v setting

end Version

end PackageIndex
