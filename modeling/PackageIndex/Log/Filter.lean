import PackageIndex.Log.Directive

/-!
# Log Filters

A filter says which events are shown. It is written as directives between
commas. Where several directives hold for an event, the one that names the
longest part of the program decides. Of two that name the same part, the one
that names a field decides, or else the later one. An event that no directive
holds for is not shown.

## Main definitions

* `Filter.parse`: The filter a text stands for.
* `Filter.shows`: Whether an event is shown.
-/

namespace PackageIndex

/-- Directives, in the order they are written. -/
structure Filter where
  directives : List Directive
  deriving DecidableEq

namespace Filter

/-- The filter a text stands for. Nothing between commas is no directive. -/
def parse (s : Text) : Except Directive.Fault Filter := do
  return ⟨← ((Text.pieces ',' s).filter (!·.isEmpty)).mapM Directive.parse⟩

/-- Whether a directive is at least as specific as another that holds for the
    same event. -/
def isAsSpecific (d other : Directive) : Bool :=
  other.scope.length < d.scope.length ||
    other.scope.length = d.scope.length &&
      (other.restriction = .none || d.restriction ≠ .none)

/-- The directive that decides about an event. -/
def decisive? (f : Filter) (e : Event) : Option Directive :=
  (f.directives.filter (·.covers e)).foldl (fun best d =>
    match best with
    | none => some d
    | some b => if isAsSpecific d b then some d else some b) none

/-- Whether an event is shown. -/
def shows (f : Filter) (e : Event) : Bool :=
  (f.decisive? e).any (e.level.verbosity ≤ ·.verbosity)

end Filter

end PackageIndex
