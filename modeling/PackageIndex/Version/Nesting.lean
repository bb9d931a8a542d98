import PackageIndex.Version.Order

/-!
# The Order Part by Part

The order of versions is defined on chains of main parts, because the laws of
an order are those of lists there. It can be read part by part as well: main
parts first, then pre-release parts, then build parts, where a part compares
as the version it is. Three rules come on top. A version without a
pre-release comes after those that have one, the empty pre-release comes
before all others, and a version without a build comes before those that have
one.

The chains follow from taking the text apart. The first chain of a version is
that of its body, and the others are the chains of its build (`key_eq`). In a
chain the links behind the first are the chain of the pre-release part, which
has no build and so no second chain (`key_of_pre?`).

## Main definitions

* `comparePre`: How pre-release parts compare.
* `compareBuild`: How build parts compare.

## Theorems

* `key_eq`: The chains of a version are that of its body and those of its
  build.
* `compare_eq_nested`: The order is the order part by part.
-/

namespace PackageIndex

namespace Version

/-- How two pre-release parts compare: a version without one comes last, and
    the empty part comes first. -/
def comparePre : Option Version → Option Version → Ordering
  | none, none => .eq
  | none, some _ => .gt
  | some _, none => .lt
  | some p, some q =>
    match p.text, q.text with
    | [], [] => .eq
    | [], _ :: _ => .lt
    | _ :: _, [] => .gt
    | _ :: _, _ :: _ => compare p q

/-- How two build parts compare: a version without one comes first. -/
def compareBuild : Option Version → Option Version → Ordering
  | none, none => .eq
  | none, some _ => .lt
  | some _, none => .gt
  | some b, some c => compare b c

/-- The first chain of a version is that of its body, and the others are those
    of its build. -/
theorem key_eq (v : Version) :
    key v = chain (Text.pieces '-' v.body) :: (v.build?.map key).getD [] := by
  rw [key, Text.pieces_eq_cut, List.map_cons]
  cases h : (Text.cut '+' v.text).2 <;> simp [body, build?, h, key]

/-- The chain of a body is its main part and what its pre-release part adds. -/
theorem chain_body (v : Version) :
    chain (Text.pieces '-' v.body) =
      .part (significant v.main) :: links ((v.pre?.map (Text.pieces '-' ·.text)).getD []) := by
  rw [Text.pieces_eq_cut]
  cases h : (Text.cut '-' v.body).2 <;> simp [chain, part, main, head, pre?, h]

/-- A pre-release part has a single chain. -/
theorem key_of_pre? {v p : Version} (h : v.pre? = some p) :
    key p = [chain (Text.pieces '-' p.text)] := by
  rw [key, Text.pieces_eq_of_not_mem (plus_not_mem_of_pre? h)]
  rfl

/-- What a pre-release part adds to a chain: the marker if it is empty, and its
    own chain if not. -/
theorem links_pieces (s : Text) :
    links (Text.pieces '-' s) = if s.isEmpty then [.marker] else chain (Text.pieces '-' s) := by
  obtain ⟨first, others, hp⟩ := List.exists_cons_of_ne_nil (Text.pieces_ne_nil '-' s)
  have hj := Text.join_pieces '-' s
  rw [hp] at hj ⊢
  cases first with
  | cons c first =>
    have : s.isEmpty = false := by
      rw [← hj]
      cases others <;> simp [Text.join]
    simp [links, chain, this]
  | nil =>
    cases others with
    | nil => simp [links, ← hj, Text.join]
    | cons next others => simp [links, chain, ← hj, Text.join]

/-- A chain starts with a part. -/
theorem chain_pieces (s : Text) :
    ∃ components others, chain (Text.pieces '-' s) = .part components :: others := by
  obtain ⟨first, others, hp⟩ := List.exists_cons_of_ne_nil (Text.pieces_ne_nil '-' s)
  exact ⟨significant (components first), links others, by rw [hp]; rfl⟩

/-- Two versions whose main parts are equal compare by what follows in their
    first chains as their pre-release parts do. -/
theorem compare_links (v w : Version) :
    compare (links ((v.pre?.map (Text.pieces '-' ·.text)).getD []))
      (links ((w.pre?.map (Text.pieces '-' ·.text)).getD [])) = comparePre v.pre? w.pre? := by
  -- On either side there is no pre-release part, an empty one, or another one.
  rcases hv : v.pre? with _ | ⟨_ | ⟨c, s⟩⟩ <;> rcases hw : w.pre? with _ | ⟨_ | ⟨d, t⟩⟩
  · rfl
  · rfl
  · obtain ⟨_, _, hq⟩ := chain_pieces (d :: t)
    simp only [Option.map_some, Option.getD_some, links_pieces, hq]
    rfl
  · rfl
  · rfl
  · obtain ⟨_, _, hq⟩ := chain_pieces (d :: t)
    simp only [Option.map_some, Option.getD_some, links_pieces, hq]
    rfl
  · obtain ⟨_, _, hp⟩ := chain_pieces (c :: s)
    simp only [Option.map_some, Option.getD_some, links_pieces, hp]
    rfl
  · obtain ⟨_, _, hp⟩ := chain_pieces (c :: s)
    simp only [Option.map_some, Option.getD_some, links_pieces, hp]
    rfl
  -- Two parts that are not empty have one chain each, and compare as these do.
  · change _ = compare (key ⟨c :: s⟩) (key ⟨d :: t⟩)
    rw [key_of_pre? hv, key_of_pre? hw, List.compare_cons_cons]
    simp only [Option.map_some, Option.getD_some, links_pieces]
    change _ = (compare _ _).then .eq
    simp

/-- The order part by part. -/
theorem compare_eq_nested (v w : Version) :
    compare v w = ((compare (significant v.main) (significant w.main)).then
      (comparePre v.pre? w.pre?)).then (compareBuild v.build? w.build?) := by
  have hpart (a b : List Component) : compare (Link.part a) (Link.part b) = compare a b := rfl
  -- The chains behind the first are those of the build, or none at all.
  have hbuild : compare ((v.build?.map key).getD []) ((w.build?.map key).getD []) =
      compareBuild v.build? w.build? := by
    rcases v.build? with _ | b <;> rcases w.build? with _ | c
    · rfl
    · exact congrArg (compare []) (key_eq c)
    · exact congrArg (compare · []) (key_eq b)
    · rfl
  change compare (key v) (key w) = _
  rw [key_eq v, key_eq w, List.compare_cons_cons, chain_body v, chain_body w,
    List.compare_cons_cons, compare_links, hpart, hbuild]

end Version
end PackageIndex
