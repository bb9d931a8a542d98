import PackageIndex.Proofs.Version.Decomposition

/-!
# Versions With a Suffix

A suffix that begins with `-` may be put behind any version, and where it ends up
depends on what the version already has. Behind a build it belongs to the build,
behind a pre-release to the pre-release, and only behind a plain main part does
it become a pre-release of its own. What the suffix is does not matter for the
order, and a build that it brings along comes too late to make a difference.

So the question of how the two versions compare is handed down to the last part
of the version, and the answer is found where there is no part left: a
pre-release sorts below its release. There is one way for the descent to end
earlier. A pre-release that is empty sorts below every other, so one that gets
longer rises, and this is the case exactly if the version ends in `-`
(`compare_suffixed`).

## Main definitions

* `Version.suffixed`: A version with something behind it.

## Theorems

* `suffixed_of_build`, `suffixed_of_no_build`: Where the suffix goes.
* `compare_suffixed`: How a version with a suffix compares with the version.
* `parse_suffixed_lt`: It sorts below the version, unless that ends in `-`.
-/

namespace PackageIndex

namespace Version

/-- The version with a suffix behind it. -/
def suffixed (v : Version) (s : Text) : Version := ⟨v.text ++ '-' :: s⟩

/-- Behind a build the suffix belongs to the build. -/
theorem suffixed_of_build {v b : Version} (hbuild : v.build? = some b) (s : Text) :
    (v.suffixed s).head = v.head ∧ (v.suffixed s).pre? = v.pre? ∧
      (v.suffixed s).build? = some (b.suffixed s) := by
  refine assembled v.not_mem_head (fun p hp => plus_not_mem_of_pre? hp) ?_
  rw [suffixed, text_eq v, hbuild]
  simp [Text.behind, suffixed]

/-- The pre-release of a version that gets a suffix and has no build. -/
def preSuffixed : Option Version → Text → Version
  | none, s => ⟨s⟩
  | some p, s => p.suffixed s

/-- Behind a version without a build the suffix goes to the pre-release, or is
    one, up to a build of its own. -/
theorem suffixed_of_no_build {v : Version} (hbuild : v.build? = none) (s : Text) :
    ∃ front, (v.suffixed s).head = v.head ∧
      (v.suffixed s).pre? = some (preSuffixed v.pre? front) := by
  have hfront := Text.not_mem_cut '+' s
  have hs := (Text.splitAt_cut '+' s).text_eq
  generalize Text.cut '+' s = halves at hfront hs
  obtain ⟨front, own⟩ := halves
  have hparts : (v.suffixed s).head = v.head ∧
      (v.suffixed s).pre? = some (preSuffixed v.pre? front) ∧
      (v.suffixed s).build? = own.map mk := by
    refine assembled v.not_mem_head ?_ ?_
    · intro p hp
      cases hp
      cases hpre : v.pre? with
      | none => simpa [preSuffixed] using hfront
      | some p => simpa [preSuffixed, suffixed] using ⟨plus_not_mem_of_pre? hpre, hfront⟩
    · rw [suffixed, text_eq v, hbuild, hs]
      cases v.pre? <;> cases own <;> simp [Text.behind, preSuffixed, suffixed]
  exact ⟨front, hparts.1, hparts.2.1⟩

/-- Of versions with the same main part the parts decide. -/
theorem compare_of_head {v w : Version} (h : v.head = w.head) :
    compare v w = (comparePre v.pre? w.pre?).then (compareBuild v.build? w.build?) := by
  rw [compare_eq_nested, main, main, h, Std.ReflOrd.compare_self, Ordering.eq_then]

theorem comparePre_self (v : Version) : comparePre v.pre? v.pre? = .eq := by
  have hself : compare v v = .eq := Std.ReflCmp.compare_self
  rw [compare_of_head rfl, Ordering.then_eq_eq] at hself
  exact hself.1

/-- A pre-release that is not empty sorts above the empty one. -/
theorem comparePre_of_nil {p q : Version} (hp : p.text ≠ []) (hq : q.text = []) :
    comparePre (some p) (some q) = .gt := by
  obtain ⟨c, rest, hp⟩ := List.exists_cons_of_ne_nil hp
  rw [comparePre, hp, hq]

/-- Two pre-releases that are not empty compare as versions. -/
theorem comparePre_of_ne_nil {p q : Version} (hp : p.text ≠ []) (hq : q.text ≠ []) :
    comparePre (some p) (some q) = compare p q := by
  obtain ⟨c, rest, hp⟩ := List.exists_cons_of_ne_nil hp
  obtain ⟨d, rest', hq⟩ := List.exists_cons_of_ne_nil hq
  rw [comparePre, hp, hq]

/-- A text with something behind its last separator ends in that, and otherwise
    in the separator. -/
theorem getLast?_append_cons (front back : Text) (sep : Char) :
    (front ++ sep :: back).getLast? = some (back.getLast?.getD sep) := by
  rw [List.getLast?_append, List.getLast?_cons, Option.some_or]

/-- A version with a build ends in `-` if the build does. -/
theorem getLast?_of_build {v b : Version} (hbuild : v.build? = some b) :
    v.text.getLast? = some '-' ↔ b.text.getLast? = some '-' := by
  rw [text_eq v, hbuild]
  change (_ ++ '+' :: b.text).getLast? = _ ↔ _
  rw [getLast?_append_cons]
  cases b.text.getLast? <;> simp

/-- A version without a build ends in `-` if its pre-release is empty or does. -/
theorem getLast?_of_no_build {v : Version} (hbuild : v.build? = none) :
    v.text.getLast? = some '-' ↔
      ∃ p, v.pre? = some p ∧ (p.text = [] ∨ p.text.getLast? = some '-') := by
  rw [text_eq v, hbuild]
  cases hpre : v.pre? with
  | none =>
      -- There is only the main part, which holds no `-`.
      change (v.head ++ [] ++ []).getLast? = _ ↔ _
      rw [List.append_nil, List.append_nil]
      exact iff_of_false (fun h => v.not_mem_head.2 (List.mem_of_getLast? h)) (by simp)
  | some p =>
      change (v.head ++ '-' :: p.text ++ []).getLast? = _ ↔ _
      rw [List.append_nil, getLast?_append_cons]
      cases hlast : p.text.getLast? with
      | none => simp [List.getLast?_eq_none_iff.mp hlast]
      | some c =>
          have hne : p.text ≠ [] := by
            intro hnil
            rw [hnil] at hlast
            cases hlast
          simp [hne, hlast]

/-- A version with a suffix sorts below the version, unless that ends in `-`, in
    which case it sorts above it. -/
theorem compare_suffixed (v : Version) (s : Text) :
    compare (v.suffixed s) v = if v.text.getLast? = some '-' then .gt else .lt := by
  induction v using parts_induction generalizing s with
  | step v ih =>
      cases hbuild : v.build? with
      | some b =>
          -- Nothing in front of the build has changed.
          rcases suffixed_of_build hbuild s with ⟨hhead, hpre, hparts⟩
          rw [compare_of_head hhead, hpre, hparts, hbuild, comparePre_self, Ordering.eq_then,
            compareBuild, ih .build b hbuild]
          simp only [getLast?_of_build hbuild]
      | none =>
          -- The pre-releases differ, so builds are not looked at.
          rcases suffixed_of_no_build hbuild s with ⟨front, hhead, hsuffix⟩
          rw [compare_of_head hhead, hsuffix]
          simp only [getLast?_of_no_build hbuild]
          cases hpre : v.pre? with
          | none => simp [comparePre]
          | some p =>
              have hne : (p.suffixed front).text ≠ [] :=
                List.append_ne_nil_of_right_ne_nil _ (List.cons_ne_nil _ _)
              rw [preSuffixed]
              by_cases hnil : p.text = []
              · -- The empty pre-release is left behind, whatever comes in its place.
                rw [comparePre_of_nil hne hnil, Ordering.gt_then,
                  if_pos ⟨p, rfl, Or.inl hnil⟩]
              · rw [comparePre_of_ne_nil hne hnil, ih .pre p hpre]
                by_cases hlast : p.text.getLast? = some '-'
                · rw [if_pos hlast, Ordering.gt_then, if_pos ⟨p, rfl, Or.inr hlast⟩]
                · rw [if_neg hlast, Ordering.lt_then, if_neg]
                  rintro ⟨q, ⟨⟩, hq⟩
                  exact hq.elim hnil hlast

/-- The empty pre-release sorts below what becomes of it. -/
example : compare (suffixed ⟨"1-".toList⟩ "a".toList) ⟨"1-".toList⟩ = .gt := by decide +kernel

/-- Any text that begins with `-` makes a version sort lower if it is put behind
    it, whatever parts the version has, unless the version ends in `-`. -/
theorem parse_suffixed_lt (v s : Text) (hv : v ≠ []) (hlast : v.getLast? ≠ some '-') :
    ∃ longer shorter, parse (v ++ '-' :: s) = .ok longer ∧ parse v = .ok shorter ∧
      compare longer shorter = .lt := by
  refine ⟨_, _, parse_of_ne_nil (List.append_ne_nil_of_left_ne_nil hv _), parse_of_ne_nil hv, ?_⟩
  change compare (suffixed ⟨v⟩ s) ⟨v⟩ = .lt
  rw [compare_suffixed, if_neg hlast]

/-- The suffix becomes part of a pre-release of the build and has a build
    itself. -/
theorem parse_suffixed_lt_build : ∃ longer shorter,
    parse "1.0-rc+b-2-x.-+y".toList = .ok longer ∧ parse "1.0-rc+b-2".toList = .ok shorter ∧
      compare longer shorter = .lt :=
  parse_suffixed_lt "1.0-rc+b-2".toList "x.-+y".toList (by decide) (by decide)

end Version

end PackageIndex
