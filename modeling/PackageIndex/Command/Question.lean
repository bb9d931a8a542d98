import PackageIndex.Range.Basic

/-!
# Questions about Versions

The commands that answer a question about versions: whether a version lies in
a range, which of several is the best that does, and how two compare. An
answer is a line to print and whether it is a positive one, which becomes the
exit code.

What is refused is what stands first: the range before any version, and the
versions in their order.

## Main definitions

* `Question`: A question with the texts it was asked with.
* `Answer`: What is printed, and whether it is positive.
* `Question.answer`: The answer to a question.
* `Question.report`: What answering it has to say.
-/

namespace PackageIndex

/-- A question about versions, with the texts it was asked with. -/
inductive Question where
  /-- Whether a version lies in a range. -/
  | satisfies (range version : Text)
  /-- Which of several versions is the greatest that lies in a range. -/
  | resolve (range : Text) (versions : List Text)
  /-- How two versions compare. -/
  | compare (left right : Text)
  deriving DecidableEq

/-- What a command prints, and whether its answer is a positive one. -/
structure Answer where
  output : Text
  positive : Bool
  deriving DecidableEq

namespace Answer

/-- A line to print. -/
def line (s : Text) (positive : Bool) : Answer := ⟨s ++ ['\n'], positive⟩

end Answer

namespace Question

/-- The sign that stands between two versions that compare as given. -/
def sign : Ordering → Char
  | .lt => '<'
  | .eq => '='
  | .gt => '>'

/-- The answer to a question, where pre-releases are resolved as the setting
    says. -/
def answer (setting : Option Bool) : Question → Except Refusal Answer
  | .satisfies range version => do
    let r ← Range.parse range
    let v ← Version.parse version
    let inside := r.contains v setting
    return .line (if inside then "true".toList else "false".toList) inside
  | .resolve range versions => do
    let r ← Range.parse range
    let candidates ← versions.mapM Version.parse
    match r.best? candidates setting with
    | some v => return .line v.text true
    | none => return ⟨[], false⟩
  | .compare left right => do
    let v ← Version.parse left
    let w ← Version.parse right
    return .line (left ++ [' ', sign (Ord.compare v w), ' '] ++ right) true

/-- What answering a question has to say. -/
def report : Question → List Event
  | .satisfies range _ => Range.report range
  | .resolve range _ => Range.report range
  | .compare _ _ => []

end Question

end PackageIndex
