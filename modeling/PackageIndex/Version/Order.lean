import PackageIndex.Version.Basic

/-!
# The Order of Versions

Versions compare by their main components first, by their pre-release parts
next and by their build parts last, and both kinds of part compare as versions
again. Zeros at the end of any main part do not count. A version with no
pre-release comes after all its pre-releases; the empty pre-release comes
before every other one; a version with no build comes before all its builds.

Unfolded all the way, this is a comparison of lists. A pre-release part has no
build of its own, so everything up to the first `+` is one chain of main parts
separated by `-`, and the whole version is a list of such chains. Each chain
is closed by what ends it: by `release` when no further part follows, which is
greater than any part, or by `marker` when the last part is empty, which is
less. With the ends made explicit, comparing versions is comparing keys, list
against list, and the laws of the order are those of lists.

## Main definitions

* `Link`: One link of a chain: a main part, or how the chain ends.
* `Version.key`: The chains of a version, one for each build.
* `Version.greatest?`: The greatest of several, the last among equals.
* `Version.least?`: The least of several, the first among equals.
* `Version.fed`: What a version feeds to a hash.
-/

namespace PackageIndex

/-- One link of a chain of main parts. -/
inductive Link where
  /-- The chain ends with an empty part, below every other part. -/
  | marker
  /-- A main part, without the zeros at its end. -/
  | part (components : List Component)
  /-- The chain ends with no further part, above every part. -/
  | release
  deriving DecidableEq

namespace Link

/-- The kinds of link in ascending order. -/
def rank : Link → Nat
  | .marker => 0
  | .part _ => 1
  | .release => 2

/-- The components by which parts compare. -/
def components : Link → List Component
  | .part components => components
  | _ => []

instance : Ord Link where
  compare := compareLex (compareOn rank) (compareOn components)

instance : Std.TransOrd Link :=
  inferInstanceAs (Std.TransCmp (compareLex (compareOn rank) (compareOn components)))

instance : Std.LawfulEqOrd Link where
  eq_of_compare {a b} h := by
    obtain ⟨hr, hc⟩ := compareLex_eq_eq.1 h
    have hr : a.rank = b.rank := Std.LawfulEqOrd.eq_of_compare hr
    have hc : a.components = b.components := Std.LawfulEqOrd.eq_of_compare hc
    cases a <;> cases b <;> simp_all [rank, components]

end Link

namespace Version

/-- The main part that a text without separators stands for. -/
def part (s : Text) : Link := .part (significant (components s))

/-- The links after the first: the pre-release parts and the end of the
    chain. -/
def links : List Text → List Link
  | [] => [.release]
  | s :: rest => if s.isEmpty && rest.isEmpty then [.marker] else part s :: links rest

/-- The links of a chain, of which the first part is never a marker. -/
def chain : List Text → List Link
  | [] => []
  | s :: rest => part s :: links rest

/-- The chains of a version, one for each build it has and one more. -/
def key (v : Version) : List (List Link) :=
  (Text.pieces '+' v.text).map fun s => chain (Text.pieces '-' s)

instance : Ord Version where
  compare := compareOn key

instance : Std.TransOrd Version :=
  inferInstanceAs (Std.TransCmp (compareOn key))

/-- Versions are equal when neither comes before the other, so `1` and `1.0`
    are. -/
instance : BEq Version where
  beq v w := compare v w == .eq

/-- The greatest of several versions, the last one among equals. -/
def greatest? : List Version → Option Version
  | [] => none
  | v :: rest =>
    some (rest.foldl (fun best w => if (compare best w).isLE then w else best) v)

/-- The least of several versions, the first one among equals. -/
def least? : List Version → Option Version
  | [] => none
  | v :: rest => some (rest.foldl (fun best w => if (compare best w).isLE then best else w) v)

/-- The versions in ascending order, equal ones as they stood. -/
def sort (versions : List Version) : List Version :=
  versions.mergeSort fun v w => (compare v w).isLE

/-- What a version feeds to a hash, value by value. -/
inductive Fed where
  /-- How many components follow. -/
  | length (count : Nat)
  /-- A component. -/
  | component (component : Component)
  /-- A part that is not there. -/
  | absent
  /-- A part that is there and follows. -/
  | present
  deriving DecidableEq

/-- The values a version feeds to a hash: its significant components, then
    the pre-release part, then the build part. -/
def fed (v : Version) : List Fed :=
  let main := significant v.main
  .length main.length :: main.map .component ++
    (match _h : v.pre? with
      | none => [.absent]
      | some p => .present :: fed p) ++
    (match _h : v.build? with
      | none => [.absent]
      | some b => .present :: fed b)
termination_by v.text.length
decreasing_by
  · exact length_pre_lt (by assumption)
  · exact length_build_lt (by assumption)

end Version

end PackageIndex
