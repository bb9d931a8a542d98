import PackageIndex.Text.Numeral

/-!
# Refusals

The ways in which a version or a range is refused. Nearly every text is a
version, so there are few: nothing at all, an operator with no version behind
it, and a component that would have to be counted up and cannot be.

## Main definitions

* `Refusal`: Why a version or a range was refused.
* `Refusal.message`: The sentence that reports it.
-/

namespace PackageIndex

/-- Why a version or a range was refused. -/
inductive Refusal where
  /-- The empty text is no version. -/
  | emptyVersion
  /-- An operator stands alone, with no version after it. -/
  | missingVersion (expression : Text)
  /-- The component at an index is text, or the greatest number there is, and
      so has no successor. -/
  | notNumeric (version : Text) (index : Nat)
  deriving DecidableEq

namespace Refusal

/-- The sentence that reports a refusal. -/
def message : Refusal → Text
  | .emptyVersion => "Empty version string".toList
  | .missingVersion expression => "Error parsing version range ".toList ++ expression
  | .notNumeric version index =>
    "Cannot bump '".toList ++ version ++ "' version index ".toList ++ Numeral.write index ++
      ", not an int".toList

end Refusal

end PackageIndex
