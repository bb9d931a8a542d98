import Mathlib.Tactic.ByContra
import PackageIndex.Proofs.Text.Numeral
import PackageIndex.Proofs.Version.Bound

/-!
# Taking a Version Apart

A version is a text, and everything else about it is read off that text. What is
read off loses nothing. The first `+` and what stands behind it make the build,
the first `-` in front of that and what stands between the two make the
pre-release, and the pieces of what is left are the components. All of this
holds of the parts in the same way, because a part is a version, down to parts
that are the empty text.

A part of a part is named by the branches that lead to it (`Version.inner?`),
and what is said of every part at every depth follows by going from a version to
its parts (`parts_induction`). That comes to an end, since parts are shorter.

Without its texts a version is a tree of components (`Version.tree`). The tree
can be written as a text again, and that text has the same tree (`tree_rebuilt`).
It need not be the text that the tree came from, for a number is written without
leading zeros. Nothing else is lost: the two texts are the same exactly if no
number was written with a zero in front that it could do without
(`write_tree_eq_iff`).

## Main definitions

* `Text.SplitAt`: A text and what stands on either side of its first separator.
* `Branch`, `Version.part?`: The two kinds of part.
* `Version.inner?`: The part that branches lead to.
* `Version.Decomposed`: What a version consists of.
* `Tree`, `Version.tree`: The components of a version and of its parts.
* `Tree.write`: The text of a tree.
* `Version.rebuilt`: A version that is read from what its tree is written as.
* `Component.ZeroFilled`: A number that is written with a leading zero.

## Theorems

* `parts_induction`: What holds of a version if it does of its parts holds of all.
* `forall_inner?_iff`: What holds at every depth.
* `assembled`: The parts of a text that was put together from them.
* `tree_rebuilt`: Writing the tree of a version keeps the tree.
* `write_tree_eq_iff`: When writing the tree gives the text back.
* `parse_decomposed`: A version is taken apart without a loss.
-/

namespace PackageIndex

namespace Text

/-- A text is split at its first separator into what stands in front of it and
    what stands behind it. A text without one is all in front. -/
inductive SplitAt (sep : Char) : Text → Text → Option Text → Prop
  | whole {s : Text} (h : sep ∉ s) : SplitAt sep s s none
  | first {front : Text} (h : sep ∉ front) (back : Text) :
    SplitAt sep (front ++ sep :: back) front (some back)

theorem splitAt_cut (sep : Char) (s : Text) : SplitAt sep s (cut sep s).1 (cut sep s).2 := by
  induction s with
  | nil => exact .whole List.not_mem_nil
  | cons c s ih =>
      by_cases hc : c = sep
      · rw [cut, if_pos hc, hc]
        exact .first List.not_mem_nil s
      · rw [cut, if_neg hc]
        have hfront {t : Text} (h : sep ∉ t) : sep ∉ c :: t := List.not_mem_cons_of_ne_of_not_mem
          (fun heq => hc heq.symm) h
        -- The character goes in front of whatever the rest is split into.
        generalize cut sep s = halves at ih
        obtain ⟨front, back⟩ := halves
        cases ih with
        | whole h => exact .whole (hfront h)
        | first h back => exact .first (hfront h) back

/-- What a separator and a text behind it add, if there is one. -/
def behind (sep : Char) : Option Text → Text
  | none => []
  | some back => sep :: back

theorem SplitAt.text_eq {sep : Char} {s front : Text} {back : Option Text}
    (h : SplitAt sep s front back) : s = front ++ behind sep back := by
  cases h with
  | whole h => rw [behind, List.append_nil]
  | first h back => rfl

theorem cut_append_behind {sep : Char} {front : Text} (h : sep ∉ front) (back : Option Text) :
    cut sep (front ++ behind sep back) = (front, back) := by
  cases back with
  | none => rw [behind, List.append_nil, cut_eq_of_not_mem h]
  | some back => exact cut_append h back

theorem not_mem_behind {sep c : Char} (hc : c ≠ sep) {back : Option Text}
    (h : ∀ t ∈ back, c ∉ t) : c ∉ behind sep back := by
  cases back with
  | none => exact List.not_mem_nil
  | some t => exact List.not_mem_cons_of_ne_of_not_mem hc (h t rfl)

end Text

namespace Component

/-- A piece that stands for a number and is written with a leading zero that the
    number could do without. -/
def ZeroFilled (piece : Text) : Prop :=
  (∃ n, ofText piece = number n) ∧ piece.head? = some '0' ∧ piece.length ≠ 1

/-- A component is written as the piece that it was read from, unless that is
    filled with zeros. -/
theorem write_ofText_eq_iff (piece : Text) :
    (ofText piece).write = piece ↔ ¬ZeroFilled piece := by
  unfold ZeroFilled ofText
  by_cases hread : (!piece.isEmpty && piece.all Char.isDigit) = true
  · have hvalue : Numeral.read? piece = some (Nat.ofDigitChars 10 piece 0) := if_pos hread
    rw [hvalue]
    simp only [Bool.and_eq_true, Bool.not_eq_true', List.isEmpty_eq_false_iff,
      List.all_eq_true] at hread
    by_cases hfit : Nat.ofDigitChars 10 piece 0 < UInt64.size
    · simp only [dif_pos hfit, write, UInt64.toNat_ofNatLT,
        Numeral.write_ofDigitChars_eq_iff hread.1 hread.2, number.injEq, exists_eq', true_and,
        not_and, not_not]
    · simp [hfit, write]
  · have hvalue : Numeral.read? piece = none := if_neg hread
    simp [hvalue, write]

end Component

/-- The two kinds of part that a version may have. -/
inductive Branch where
  | pre
  | build
  deriving DecidableEq

namespace Version

theorem parse_of_ne_nil {s : Text} (hs : s ≠ []) : parse s = .ok ⟨s⟩ := by
  rw [parse, List.isEmpty_eq_false_iff.mpr hs]
  rfl

/-- The part of a kind, if there is one. -/
def part? (v : Version) : Branch → Option Version
  | .pre => v.pre?
  | .build => v.build?

/-- The part that branches lead to, one after the other. No branch leads to the
    version itself. -/
def inner? (v : Version) : List Branch → Option Version
  | [] => some v
  | branch :: path => (v.part? branch).bind fun part => part.inner? path

theorem length_part_lt {v part : Version} {branch : Branch} (h : v.part? branch = some part) :
    part.text.length < v.text.length := by
  cases branch with
  | pre => exact length_pre_lt h
  | build => exact length_build_lt h

/-- What holds of a version if it holds of its parts holds of every version. -/
theorem parts_induction {P : Version → Prop}
    (step : ∀ v : Version, (∀ branch part, v.part? branch = some part → P part) → P v)
    (v : Version) : P v := by
  generalize hn : v.text.length = n
  induction n using Nat.strongRecOn generalizing v with
  | _ n ih =>
      refine step v fun branch part hpart => ih part.text.length ?_ part rfl
      rw [← hn]
      exact length_part_lt hpart

/-- What holds at every depth holds of a version and at every depth of its
    parts. -/
theorem forall_inner?_iff {P : Version → Prop} (v : Version) :
    (∀ path w, v.inner? path = some w → P w) ↔
      P v ∧ ∀ branch part, v.part? branch = some part →
        ∀ path w, part.inner? path = some w → P w := by
  constructor
  · intro h
    refine ⟨h [] v rfl, fun branch part hpart path w hw => h (branch :: path) w ?_⟩
    rw [inner?, hpart, Option.bind_some, hw]
  · rintro ⟨hself, hparts⟩ path w hw
    cases path with
    | nil =>
        cases hw
        exact hself
    | cons branch path =>
        obtain ⟨part, hpart, hw⟩ := Option.bind_eq_some_iff.mp hw
        exact hparts branch part hpart path w hw

/-- What a version consists of. Its text is split at the first `+` into the body
    and the build, and the body at its first `-` into the head and the
    pre-release. The head is components with dots between them, and none of them
    holds a separator. A pre-release has no build, and parts are shorter than the
    whole. -/
structure Decomposed (v : Version) : Prop where
  build : Text.SplitAt '+' v.text v.body (v.build?.map Version.text)
  pre : Text.SplitAt '-' v.body v.head (v.pre?.map Version.text)
  main : ∃ pieces : List Text, pieces ≠ [] ∧ v.head = Text.join ['.'] pieces ∧
    v.main = pieces.map Component.ofText ∧
    ∀ c ∈ ['.', '-', '+'], ∀ piece ∈ pieces, c ∉ piece ∧ c ∉ (Component.ofText piece).write
  build_pre : ∀ p, v.pre? = some p → p.build? = none
  shorter : ∀ branch part, v.part? branch = some part → part.text.length < v.text.length

theorem splitAt_parts (sep : Char) (s : Text) :
    Text.SplitAt sep s (Text.cut sep s).1 (((Text.cut sep s).2.map mk).map text) := by
  have hid : text ∘ mk = id := rfl
  rw [Option.map_map, hid, Option.map_id]
  exact Text.splitAt_cut sep s

/-- No piece of a main part holds a separator, and neither does the component
    that it stands for. -/
theorem not_mem_of_piece {v : Version} {piece : Text} (h : piece ∈ Text.pieces '.' v.head)
    {sep : Char} (hsep : sep ∈ ['.', '-', '+']) :
    sep ∉ piece ∧ sep ∉ (Component.ofText piece).write := by
  simp only [List.mem_cons, List.not_mem_nil, or_false] at hsep
  have hdigit : ¬sep.isDigit = true := by
    rcases hsep with rfl | rfl | rfl <;> simp [Char.isDigit]
  have hpiece : sep ∉ piece := by
    intro hmem
    rcases hsep with rfl | rfl | rfl
    · exact Text.sep_not_mem_of_mem_pieces '.' v.head piece h hmem
    · exact v.not_mem_head.2 (Text.mem_of_mem_pieces h hmem)
    · exact v.not_mem_head.1 (Text.mem_of_mem_pieces h hmem)
  exact ⟨hpiece, fun hmem => (Component.mem_write_ofText hmem).elim hdigit hpiece⟩

/-- Every version is made up of its components and parts. -/
theorem decomposed (v : Version) : v.Decomposed where
  build := splitAt_parts '+' v.text
  pre := splitAt_parts '-' v.body
  main := ⟨Text.pieces '.' v.head, Text.pieces_ne_nil '.' v.head,
    (Text.join_pieces '.' v.head).symm, rfl,
    fun _ hsep _ hpiece => not_mem_of_piece hpiece hsep⟩
  build_pre := fun _ => build?_of_pre?
  shorter := fun _ _ => length_part_lt

end Version

/-- The components of a version, of its pre-release and of its build. -/
inductive Tree where
  | node (main : List Component) (pre build : Option Tree)

/-- The text of a tree: components with dots between them, and every part behind
    its separator. -/
def Tree.write : Tree → Text
  | .node main pre build =>
    Text.join ['.'] (main.map Component.write) ++
      (match pre with
        | none => []
        | some p => '-' :: p.write) ++
      (match build with
        | none => []
        | some b => '+' :: b.write)

theorem Tree.write_node (main : List Component) (pre build : Option Tree) :
    (Tree.node main pre build).write = Text.join ['.'] (main.map Component.write) ++
      Text.behind '-' (pre.map write) ++ Text.behind '+' (build.map write) := by
  cases pre <;> cases build <;> rfl

namespace Version

/-- What a version consists of without the texts that it was read from. -/
def tree (v : Version) : Tree :=
  .node v.main
    (match _h : v.pre? with
      | none => none
      | some p => some p.tree)
    (match _h : v.build? with
      | none => none
      | some b => some b.tree)
termination_by v.text.length
decreasing_by
  · exact length_pre_lt (by assumption)
  · exact length_build_lt (by assumption)

theorem tree_eq (v : Version) : v.tree = .node v.main (v.pre?.map tree) (v.build?.map tree) := by
  rw [tree]
  congr 1
  · split <;> rename_i h <;> rw [h] <;> rfl
  · split <;> rename_i h <;> rw [h] <;> rfl

theorem text_eq (v : Version) : v.text = v.head ++ Text.behind '-' (v.pre?.map text) ++
    Text.behind '+' (v.build?.map text) := by
  rw [v.decomposed.build.text_eq, v.decomposed.pre.text_eq]

/-- The parts of a text that was put together from them. -/
theorem assembled {v : Version} {front : Text} {pre build : Option Version}
    (hfront : '+' ∉ front ∧ '-' ∉ front) (hpre : ∀ p ∈ pre, '+' ∉ p.text)
    (hv : v.text = front ++ Text.behind '-' (pre.map text) ++ Text.behind '+' (build.map text)) :
    v.head = front ∧ v.pre? = pre ∧ v.build? = build := by
  have hbody : '+' ∉ front ++ Text.behind '-' (pre.map text) := by
    intro hmem
    refine (List.mem_append.mp hmem).elim hfront.1 (Text.not_mem_behind (by decide) ?_)
    simpa using hpre
  have hid : (mk ∘ text) = id := rfl
  unfold head pre? build? body
  simp only [hv, Text.cut_append_behind hbody, Text.cut_append_behind hfront.2, Option.map_map,
    hid, Option.map_id_apply, and_self]

/-- The version that is read from what a tree is written as. -/
def rebuilt (v : Version) : Version := ⟨v.tree.write⟩

/-- The main part, written anew. -/
def frontAnew (v : Version) : Text := Text.join ['.'] (v.main.map Component.write)

/-- The pieces of a main part, written anew. -/
def piecesAnew (v : Version) : List Text :=
  (Text.pieces '.' v.head).map fun piece => (Component.ofText piece).write

theorem frontAnew_eq (v : Version) : v.frontAnew = Text.join ['.'] v.piecesAnew := by
  rw [frontAnew, main, components, List.map_map]
  rfl

theorem rebuilt_text (v : Version) : v.rebuilt.text = v.frontAnew ++
    Text.behind '-' ((v.pre?.map rebuilt).map text) ++
    Text.behind '+' ((v.build?.map rebuilt).map text) := by
  rw [rebuilt, tree_eq, Tree.write_node, Option.map_map, Option.map_map, Option.map_map,
    Option.map_map]
  rfl

theorem not_mem_of_pieceAnew {v : Version} {piece : Text} (h : piece ∈ v.piecesAnew) {sep : Char}
    (hsep : sep ∈ ['.', '-', '+']) : sep ∉ piece := by
  rcases List.mem_map.mp h with ⟨read, hread, rfl⟩
  exact (not_mem_of_piece hread hsep).2

theorem not_mem_frontAnew (v : Version) : '+' ∉ v.frontAnew ∧ '-' ∉ v.frontAnew := by
  rw [frontAnew_eq]
  exact ⟨Text.not_mem_join (by decide) fun _ h => not_mem_of_pieceAnew h (by decide),
    Text.not_mem_join (by decide) fun _ h => not_mem_of_pieceAnew h (by decide)⟩

theorem pieces_frontAnew (v : Version) : Text.pieces '.' v.frontAnew = v.piecesAnew := by
  rw [frontAnew_eq, Text.pieces_join]
  · exact mt List.map_eq_nil_iff.mp (Text.pieces_ne_nil '.' v.head)
  · exact fun _ h => not_mem_of_pieceAnew h (by decide)

theorem components_frontAnew (v : Version) : components v.frontAnew = v.main := by
  rw [components, pieces_frontAnew, piecesAnew, List.map_map]
  exact List.map_congr_left fun piece _ => Component.ofText_write_ofText piece

/-- A version without a build is written without a `+`. -/
theorem plus_not_mem_rebuilt (v : Version) (hbuild : v.build? = none) : '+' ∉ v.rebuilt.text := by
  induction v using parts_induction with
  | step v ih =>
      -- The pre-release has no build either, so nothing in it is written with a `+`.
      have hpre : ∀ t ∈ (v.pre?.map rebuilt).map text, '+' ∉ t := by
        simp only [Option.mem_def, Option.map_eq_some_iff]
        rintro t ⟨_, ⟨p, hp, rfl⟩, rfl⟩
        exact ih .pre p hp (build?_of_pre? hp)
      rw [rebuilt_text, hbuild]
      intro hmem
      rcases List.mem_append.mp hmem with hmem | hmem
      · rcases List.mem_append.mp hmem with hmem | hmem
        · exact v.not_mem_frontAnew.1 hmem
        · exact Text.not_mem_behind (by decide) hpre hmem
      · exact absurd hmem List.not_mem_nil

/-- The parts of a version that is written anew are its parts, written anew. -/
theorem rebuilt_parts (v : Version) : v.rebuilt.head = v.frontAnew ∧
    ∀ branch, v.rebuilt.part? branch = (v.part? branch).map rebuilt := by
  have hpre : ∀ p ∈ v.pre?.map rebuilt, '+' ∉ p.text := by
    intro p hp
    obtain ⟨read, hread, rfl⟩ := Option.map_eq_some_iff.mp hp
    exact plus_not_mem_rebuilt read (build?_of_pre? hread)
  rcases assembled v.not_mem_frontAnew hpre v.rebuilt_text with ⟨hhead, hpre, hbuild⟩
  refine ⟨hhead, fun branch => ?_⟩
  cases branch with
  | pre => exact hpre
  | build => exact hbuild

/-- Writing the tree of a version keeps the tree. -/
theorem tree_rebuilt (v : Version) : v.rebuilt.tree = v.tree := by
  induction v using parts_induction with
  | step v ih =>
      rcases v.rebuilt_parts with ⟨hhead, hparts⟩
      have hmain : v.rebuilt.main = v.main := by rw [main, hhead, components_frontAnew]
      have htrees : ∀ branch, (v.rebuilt.part? branch).map tree = (v.part? branch).map tree := by
        intro branch
        rw [hparts branch, Option.map_map]
        exact Option.map_congr fun part hpart => ih branch part hpart
      rw [tree_eq, tree_eq v, hmain]
      exact congrArg₂ (Tree.node v.main) (htrees .pre) (htrees .build)

/-- The main part is written as it was read, unless one of its numbers is filled
    with zeros. -/
theorem frontAnew_eq_iff (v : Version) :
    v.frontAnew = v.head ↔ ∀ piece ∈ Text.pieces '.' v.head, ¬Component.ZeroFilled piece := by
  simp only [← Component.write_ofText_eq_iff]
  constructor
  · intro h
    -- Texts that are the same have the same pieces.
    have hpieces : v.piecesAnew = Text.pieces '.' v.head := by rw [← pieces_frontAnew, h]
    exact List.map_inj_left.mp (hpieces.trans (List.map_id _).symm)
  · intro h
    rw [frontAnew_eq, piecesAnew, List.map_congr_left h, List.map_id', Text.join_pieces]

/-- A version is written as it was read if its main part is and its parts are. -/
theorem rebuilt_eq_iff (v : Version) : v.rebuilt = v ↔ v.frontAnew = v.head ∧
    ∀ branch part, v.part? branch = some part → part.rebuilt = part := by
  rcases v.rebuilt_parts with ⟨hhead, hparts⟩
  constructor
  · intro h
    rw [h] at hhead hparts
    refine ⟨hhead.symm, fun branch part hpart => ?_⟩
    have hsame := hparts branch
    rw [hpart, Option.map_some] at hsame
    exact (Option.some.inj hsame).symm
  · rintro ⟨hfront, hkept⟩
    have hsame : ∀ branch, (v.part? branch).map rebuilt = v.part? branch := by
      intro branch
      cases hpart : v.part? branch with
      | none => rfl
      | some part => rw [Option.map_some, hkept branch part hpart]
    -- The text is put together from what is the same.
    have htext : v.rebuilt.text = v.text := by
      rw [rebuilt_text, text_eq v, hfront]
      exact congrArg₂ (fun pre build : Option Version => v.head ++
        Text.behind '-' (pre.map text) ++ Text.behind '+' (build.map text)) (hsame .pre)
        (hsame .build)
    exact congrArg mk htext

/-- The text of a version is what its tree is written as, unless a number is
    filled with zeros, in the version itself or in one of its parts. -/
theorem write_tree_eq_iff (v : Version) :
    v.tree.write = v.text ↔ ∀ path w, v.inner? path = some w →
      ∀ piece ∈ Text.pieces '.' w.head, ¬Component.ZeroFilled piece := by
  have hrebuilt : v.tree.write = v.text ↔ v.rebuilt = v :=
    ⟨fun h => congrArg mk h, fun h => congrArg text h⟩
  rw [hrebuilt]
  clear hrebuilt
  induction v using parts_induction with
  | step v ih =>
      rw [forall_inner?_iff, rebuilt_eq_iff, frontAnew_eq_iff]
      exact and_congr_right fun _ => forall_congr' fun branch => forall_congr' fun part =>
        imp_congr_right fun hpart => ih branch part hpart

/-- Only the empty version is written as the empty text. -/
theorem write_tree_ne_nil {v : Version} (hv : v.text ≠ []) : v.tree.write ≠ [] := by
  intro hnil
  have hempty : v.rebuilt = ⟨[]⟩ := congrArg mk hnil
  rcases v.rebuilt_parts with ⟨hhead, hparts⟩
  rw [hempty] at hhead hparts
  -- Nothing was read that could have been lost: neither a part nor a number.
  have hnone : ∀ branch, v.part? branch = none := by
    intro branch
    cases branch with
    | pre => exact Option.map_eq_none_iff.mp (hparts .pre).symm
    | build => exact Option.map_eq_none_iff.mp (hparts .build).symm
  have hpieces : v.piecesAnew = [[]] := by
    rw [← pieces_frontAnew, ← hhead]
    rfl
  have hsame : v.rebuilt = v := by
    rw [rebuilt_eq_iff, frontAnew_eq_iff]
    constructor
    · rintro piece hpiece ⟨⟨n, hn⟩, -⟩
      have hwrite : (Component.ofText piece).write ∈ v.piecesAnew := List.mem_map_of_mem hpiece
      rw [hpieces, hn, List.mem_singleton] at hwrite
      exact Numeral.write_ne_nil n.toNat hwrite
    · intro branch part hpart
      rw [hnone branch] at hpart
      cases hpart
  exact hv ((congrArg text hsame).symm.trans hnil)

/-- Every text but the empty one is read as a version that keeps it. The version
    is taken apart into components and parts, and so is every part of it at any
    depth. Its tree can be written and read again as the same tree, and is
    written as the text that it came from if and only if no number in it was
    filled with zeros. -/
theorem parse_decomposed (s : Text) (hs : s ≠ []) : ∃ v, parse s = .ok v ∧ v.text = s ∧
    (∀ path w, v.inner? path = some w → w.Decomposed) ∧
    (∃ w, parse v.tree.write = .ok w ∧ w.tree = v.tree) ∧
    (v.tree.write = s ↔ ∀ path w, v.inner? path = some w →
      ∀ piece ∈ Text.pieces '.' w.head, ¬Component.ZeroFilled piece) := by
  refine ⟨⟨s⟩, parse_of_ne_nil hs, rfl, fun _ w _ => w.decomposed, ?_, write_tree_eq_iff ⟨s⟩⟩
  exact ⟨_, parse_of_ne_nil (write_tree_ne_nil hs), tree_rebuilt ⟨s⟩⟩

/-- A version with a zero in front of its major number is not written as it was
    read, but with the same tree. -/
theorem parse_decomposed_zero : ∃ v, parse "01.x-1.0-rc+b-07".toList = .ok v ∧
    v.tree.write ≠ v.text ∧ ∃ w, parse v.tree.write = .ok w ∧ w.tree = v.tree := by
  rcases parse_decomposed "01.x-1.0-rc+b-07".toList (by decide) with
    ⟨v, hparse, htext, -, htree, hwrite⟩
  refine ⟨v, hparse, ?_, htree⟩
  intro heq
  have hzero : Component.ZeroFilled "01".toList := ⟨⟨1, by decide +kernel⟩, by decide, by decide⟩
  refine hwrite.mp (heq.trans htext) [] v rfl "01".toList ?_ hzero
  have hv : v = ⟨"01.x-1.0-rc+b-07".toList⟩ := congrArg mk htext
  rw [hv]
  decide

end Version

end PackageIndex
