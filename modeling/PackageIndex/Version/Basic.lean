import PackageIndex.Refusal
import PackageIndex.Version.Component

/-!
# Versions

A version is a text, and what it means is read off that text. The first `+`
starts the build part. In what stands before it the first `-` starts the
pre-release part. What then remains at the front is the main part, dotted
components. Both parts are versions again, so `1-a-b+c-d` has the pre-release
`a-b`, whose own pre-release is `b`, and the build `c-d`, whose pre-release is
`d`.

Nothing is stored beside the text, so there is nothing that could disagree
with it. A part is shorter than the version it belongs to
(`length_pre_lt`, `length_build_lt`), which is why recursion over parts ends.

Every text but the empty one is accepted as a version. The empty text still
occurs as a part: `1-` has the empty pre-release, which marks the lower end of
all pre-releases of `1`.

## Main definitions

* `Version`: A version, as its text.
* `Version.parse`: Any text but the empty one.
* `Version.main`, `Version.pre?`, `Version.build?`: The parts.
* `Version.component?`: The main component at an index.
* `Version.zero`: The version below which there is none.

## Theorems

* `length_pre_lt`, `length_build_lt`: A part is shorter than the whole.
* `build?_of_pre?`: A pre-release part has no build.
* `main_ne_nil`: There is always a first component.
-/

namespace PackageIndex

/-- A version, as its text. -/
structure Version where
  /-- The text it was read from and is written as. -/
  text : Text
  deriving DecidableEq

namespace Version

/-- Any text but the empty one is a version. -/
def parse (s : Text) : Except Refusal Version :=
  if s.isEmpty then .error .emptyVersion else .ok ⟨s⟩

/-- What stands before the first `+`. -/
def body (v : Version) : Text := (Text.cut '+' v.text).1

/-- The build part, which is all that follows the first `+`. -/
def build? (v : Version) : Option Version := (Text.cut '+' v.text).2.map Version.mk

/-- What stands before the first `-` of the body. -/
def head (v : Version) : Text := (Text.cut '-' v.body).1

/-- The pre-release part, which is all of the body that follows its first
    `-`. -/
def pre? (v : Version) : Option Version := (Text.cut '-' v.body).2.map Version.mk

/-- The dotted components of a text. -/
def components (s : Text) : List Component := (Text.pieces '.' s).map Component.ofText

/-- The main components. -/
def main (v : Version) : List Component := components v.head

/-- The main component at an index, if there is one. -/
def component? (v : Version) (index : Nat) : Option Component := v.main[index]?

/-- A version with a pre-release part, however short. -/
def isPrerelease (v : Version) : Bool := v.pre?.isSome

/-- The least version. -/
def zero : Version := ⟨"0.0.0-".toList⟩

/-- Cutting leaves a shorter text behind. -/
theorem length_lt_of_cut {sep : Char} {s back : Text} (h : (Text.cut sep s).2 = some back) :
    back.length < s.length := by
  induction s with
  | nil => simp [Text.cut] at h
  | cons c rest ih =>
    rw [Text.cut] at h
    split at h
    · simp only [Option.some.injEq] at h
      simp [← h]
    · have := ih h
      simp only [List.length_cons]
      omega

/-- Cutting leaves no longer text in front. -/
theorem length_cut_le (sep : Char) (s : Text) : (Text.cut sep s).1.length ≤ s.length := by
  induction s with
  | nil => simp [Text.cut]
  | cons c rest ih =>
    rw [Text.cut]
    split
    · simp
    · simpa using ih

/-- The build part is shorter than the whole. -/
theorem length_build_lt {v b : Version} (h : v.build? = some b) :
    b.text.length < v.text.length := by
  obtain ⟨back, hb, rfl⟩ := Option.map_eq_some_iff.1 h
  exact length_lt_of_cut hb

/-- The pre-release part is shorter than the whole. -/
theorem length_pre_lt {v p : Version} (h : v.pre? = some p) :
    p.text.length < v.text.length := by
  obtain ⟨back, hb, rfl⟩ := Option.map_eq_some_iff.1 h
  exact Nat.lt_of_lt_of_le (length_lt_of_cut hb) (length_cut_le '+' v.text)

/-- No separator of a build is left in a pre-release part. -/
theorem plus_not_mem_of_pre? {v p : Version} (h : v.pre? = some p) : '+' ∉ p.text := by
  obtain ⟨back, hb, rfl⟩ := Option.map_eq_some_iff.1 h
  exact fun hc => Text.not_mem_cut '+' v.text (Text.mem_of_mem_cut hb hc)

/-- A pre-release part has no build. -/
theorem build?_of_pre? {v p : Version} (h : v.pre? = some p) : p.build? = none := by
  simp [build?, Text.cut_eq_of_not_mem (plus_not_mem_of_pre? h)]

/-- There is always a first component. -/
theorem main_ne_nil (v : Version) : v.main ≠ [] := by
  simp [main, components, Text.pieces_ne_nil]

end Version

end PackageIndex
