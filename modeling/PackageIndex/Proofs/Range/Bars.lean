import PackageIndex.Range.Basic

/-!
# Double Bars

The alternatives of a range stand between double bars, and a separator of two
characters can overlap with itself. Of three bars in a row the first two
separate, so the third begins the next alternative, and no alternative ends in a
bar but the last one (`getLast?_of_mem_dropLast`). That is all one has to know to
put alternatives together again: texts that do not hold the separator, none of
which but the last ends in a bar, are what their joining is split into
(`splitBars_join`).

A text that does not hold the separator is a single alternative
(`splitBars_eq_self_iff`), and every alternative is such a text. Being a single
alternative is easier to carry through a construction than the absence of two
bars, since one character more is one step of the splitting
(`splitBars_cons_eq_self_iff`).

## Theorems

* `splitBars_cons_cases`: The two things a first character can do.
* `splitBars_append`: The alternatives on either side of a double bar.
* `splitBars_eq_self_iff`: Which texts are single alternatives.
* `splitBars_of_mem`, `getLast?_of_mem_dropLast`: What alternatives look like.
* `join_splitBars`, `splitBars_join`: Splitting and joining undo each other.
-/

namespace PackageIndex

namespace Range

theorem splitBars_ne_nil (s : Text) : splitBars s ≠ [] := by
  induction s using splitBars.induct with
  | case1 => exact List.cons_ne_nil _ _
  | case2 rest ih => exact List.cons_ne_nil _ _
  | case3 c rest hbars hnil ih => exact absurd hnil ih
  | case4 c rest hbars first others hcons ih =>
      rw [splitBars, hcons]
      · exact List.cons_ne_nil _ _
      · exact hbars

/-- A character that is not the first of two bars belongs to the piece that
    begins behind it. -/
theorem splitBars_cons {c : Char} {s first : Text} {others : List Text}
    (hbars : c = '|' → s.head? ≠ some '|') (hs : splitBars s = first :: others) :
    splitBars (c :: s) = (c :: first) :: others := by
  rw [splitBars, hs]
  intro rest hc hrest
  rw [hrest] at hbars
  exact hbars hc rfl

/-- Induction along the splitting of a text: at its end, at a separator, and at a
    character that belongs to the first piece. -/
theorem splitBars_induction {P : Text → Prop} (nil : P [])
    (bars : ∀ rest, P rest → P ('|' :: '|' :: rest))
    (cons : ∀ c s first others, (c = '|' → s.head? ≠ some '|') → splitBars s = first :: others →
      P s → P (c :: s)) (s : Text) : P s := by
  induction s using splitBars.induct with
  | case1 => exact nil
  | case2 rest ih => exact bars rest ih
  | case3 c rest hbars hnil ih => exact absurd hnil (splitBars_ne_nil rest)
  | case4 c rest hbars first others hcons ih =>
      refine cons c rest first others (fun hc hhead => ?_) hcons ih
      rcases List.head?_eq_some_iff.mp hhead with ⟨rest', hrest'⟩
      exact hbars rest' hc hrest'

/-- The alternatives on either side of a double bar, if no bar stands directly
    in front of it. -/
theorem splitBars_append {a : Text} (ha : a.getLast? ≠ some '|') (b : Text) :
    splitBars (a ++ ['|', '|'] ++ b) = splitBars a ++ splitBars b := by
  induction a using splitBars_induction with
  | nil => rfl
  | bars rest ih =>
      have hrest : rest.getLast? ≠ some '|' := by
        cases rest with
        | nil => exact absurd rfl ha
        | cons d rest => exact ha
      change [] :: splitBars (rest ++ ['|', '|'] ++ b) = [] :: (splitBars rest ++ splitBars b)
      rw [ih hrest]
  | cons c rest first others hsingle hcons ih =>
      -- What stands behind `c` ends like the whole, and a bar that begins the
      -- separator is not behind another one.
      have hrest : rest.getLast? ≠ some '|' ∧
          (c = '|' → (rest ++ ['|', '|'] ++ b).head? ≠ some '|') := by
        cases rest with
        | nil => exact ⟨fun h => absurd h (by simp), fun hc => absurd (by rw [hc]; rfl) ha⟩
        | cons d rest => exact ⟨ha, hsingle⟩
      have happend : splitBars (rest ++ ['|', '|'] ++ b) = first :: (others ++ splitBars b) := by
        rw [ih hrest.1, hcons, List.cons_append]
      rw [splitBars_cons hsingle hcons, List.cons_append]
      exact splitBars_cons hrest.2 happend

/-- A character and a bar behind it are a separator if it is a bar, and
    otherwise it belongs to the first piece. -/
theorem splitBars_cons_cases (c : Char) (s : Text) :
    (∃ rest, c = '|' ∧ s = '|' :: rest ∧ splitBars (c :: s) = [] :: splitBars rest) ∨
      (c = '|' → s.head? ≠ some '|') ∧ ∃ first others, splitBars s = first :: others ∧
        splitBars (c :: s) = (c :: first) :: others := by
  by_cases hbars : c = '|' ∧ s.head? = some '|'
  · rcases List.head?_eq_some_iff.mp hbars.2 with ⟨rest, rfl⟩
    exact Or.inl ⟨rest, hbars.1, rfl, by rw [hbars.1]; rfl⟩
  · obtain ⟨first, others, hs⟩ := List.exists_cons_of_ne_nil (splitBars_ne_nil s)
    have hsingle : c = '|' → s.head? ≠ some '|' := fun hc hhead => hbars ⟨hc, hhead⟩
    exact Or.inr ⟨hsingle, first, others, hs, splitBars_cons hsingle hs⟩

/-- The first piece begins like the text. -/
theorem head?_of_splitBars {s first : Text} {others : List Text} {c : Char}
    (h : splitBars s = first :: others) (hc : first.head? = some c) : s.head? = some c := by
  cases s with
  | nil =>
      rw [← (List.cons.inj h).1] at hc
      exact hc
  | cons d s =>
      rcases splitBars_cons_cases d s with ⟨rest, -, -, hcons⟩ | ⟨-, front, back, -, hcons⟩
      · rw [hcons] at h
        rw [← (List.cons.inj h).1] at hc
        exact absurd hc (by simp)
      · rw [hcons] at h
        rw [← (List.cons.inj h).1] at hc
        exact hc

/-- One character more leaves a single piece single, unless it makes a separator
    with the first one. -/
theorem splitBars_cons_eq_self_iff (c : Char) (s : Text) :
    splitBars (c :: s) = [c :: s] ↔ (c = '|' → s.head? ≠ some '|') ∧ splitBars s = [s] := by
  rcases splitBars_cons_cases c s with ⟨rest, hc, hs, hcons⟩ | ⟨hsingle, first, others, hs, hcons⟩
  · rw [hcons, hs]
    exact iff_of_false (by simp) fun h => h.1 hc rfl
  · rw [hcons, hs, and_iff_right hsingle]
    simp

/-- A text is a single alternative if it has no two bars in a row. -/
theorem splitBars_eq_self_iff (s : Text) : splitBars s = [s] ↔ ¬['|', '|'] <:+: s := by
  induction s with
  | nil => exact iff_of_true rfl (by simp)
  | cons c s ih =>
      rw [splitBars_cons_eq_self_iff, ih, List.infix_cons_iff, not_or, List.cons_prefix_cons]
      refine and_congr_left fun _ => ?_
      cases s with
      | nil => simp
      | cons d s => simp [eq_comm]

/-- A character that is no bar keeps single alternatives on either side of it in
    one. -/
theorem splitBars_append_cons {c : Char} (hc : c ≠ '|') {x y : Text} (hx : splitBars x = [x])
    (hy : splitBars y = [y]) : splitBars (x ++ c :: y) = [x ++ c :: y] := by
  induction x with
  | nil => exact (splitBars_cons_eq_self_iff c y).mpr ⟨fun h => absurd h hc, hy⟩
  | cons d x ih =>
      rw [splitBars_cons_eq_self_iff] at hx
      refine (splitBars_cons_eq_self_iff d (x ++ c :: y)).mpr ⟨fun hd => ?_, ih hx.2⟩
      cases x with
      | nil => exact fun h => hc (Option.some.inj h)
      | cons e x => exact hx.1 hd

/-- Every alternative is a single one. -/
theorem splitBars_of_mem {s a : Text} (h : a ∈ splitBars s) : splitBars a = [a] := by
  induction s using splitBars_induction generalizing a with
  | nil =>
      rw [List.mem_singleton.mp h]
      rfl
  | bars rest ih =>
      rcases List.mem_cons.mp h with rfl | h
      · rfl
      · exact ih h
  | cons c s first others hsingle hs ih =>
      rw [splitBars_cons hsingle hs] at h
      rw [hs] at ih
      rcases List.mem_cons.mp h with rfl | h
      · refine (splitBars_cons_eq_self_iff c first).mpr ⟨fun hc hhead => ?_, ih List.mem_cons_self⟩
        exact hsingle hc (head?_of_splitBars hs hhead)
      · exact ih (List.mem_cons_of_mem _ h)

/-- An empty alternative in front of another one ends at once. -/
theorem head?_of_splitBars_nil {s next : Text} {others : List Text}
    (h : splitBars s = [] :: next :: others) : s.head? = some '|' := by
  cases s with
  | nil => exact absurd (List.cons.inj h).2 (by simp)
  | cons c s =>
      rcases splitBars_cons_cases c s with ⟨rest, hc, -⟩ | ⟨-, first, back, -, hcons⟩
      · rw [hc, List.head?_cons]
      · rw [hcons] at h
        exact absurd (List.cons.inj h).1 (by simp)

/-- No alternative but the last ends in a bar. -/
theorem getLast?_of_mem_dropLast {s a : Text} (h : a ∈ (splitBars s).dropLast) :
    a.getLast? ≠ some '|' := by
  induction s using splitBars_induction generalizing a with
  | nil => exact absurd h List.not_mem_nil
  | bars rest ih =>
      change a ∈ ([] :: splitBars rest).dropLast at h
      rw [List.dropLast_cons_of_ne_nil (splitBars_ne_nil rest)] at h
      rcases List.mem_cons.mp h with rfl | h
      · simp
      · exact ih h
  | cons c s first others hsingle hs ih =>
      rw [splitBars_cons hsingle hs] at h
      rw [hs] at ih
      cases others with
      | nil => exact absurd h List.not_mem_nil
      | cons next others =>
          rw [List.dropLast_cons_of_ne_nil (List.cons_ne_nil _ _)] at h ih
          rcases List.mem_cons.mp h with rfl | h
          · cases first with
            | nil =>
                -- A bar in front of the separator would have been part of it.
                exact fun hlast => hsingle (Option.some.inj hlast) (head?_of_splitBars_nil hs)
            | cons d first =>
                rw [List.getLast?_cons_cons]
                exact ih List.mem_cons_self
          · exact ih (List.mem_cons_of_mem _ h)

/-- Joining the alternatives gives the text back. -/
theorem join_splitBars (s : Text) : Text.join ['|', '|'] (splitBars s) = s := by
  induction s using splitBars_induction with
  | nil => rfl
  | bars rest ih =>
      obtain ⟨first, others, hrest⟩ := List.exists_cons_of_ne_nil (splitBars_ne_nil rest)
      change Text.join ['|', '|'] ([] :: splitBars rest) = _
      rw [hrest] at ih ⊢
      rw [Text.join, ih]
      rfl
  | cons c s first others hsingle hs ih =>
      rw [hs] at ih
      rw [splitBars_cons hsingle hs, ← ih]
      cases others <;> rfl

/-- Splitting undoes joining. -/
theorem splitBars_join {ps : List Text} (hne : ps ≠ []) (hsingle : ∀ a ∈ ps, splitBars a = [a])
    (hlast : ∀ a ∈ ps.dropLast, a.getLast? ≠ some '|') :
    splitBars (Text.join ['|', '|'] ps) = ps := by
  induction ps with
  | nil => exact absurd rfl hne
  | cons a ps ih =>
      cases ps with
      | nil => exact hsingle a List.mem_cons_self
      | cons b ps =>
          rw [Text.join, splitBars_append (hlast a List.mem_cons_self),
            hsingle a List.mem_cons_self, ih (List.cons_ne_nil _ _)]
          · rfl
          · exact fun a ha => hsingle a (List.mem_cons_of_mem _ ha)
          · exact fun a ha => hlast a (List.mem_cons_of_mem _ ha)

end Range

end PackageIndex
