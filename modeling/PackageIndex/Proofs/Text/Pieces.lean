import PackageIndex.Text.Blank

/-!
# Putting Texts Together and Taking Them Apart

Texts that are written with separators are taken apart at the same ones. What
is in front of the first separator must not hold one itself
(`cut_append`), and of the pieces that are joined none may (`pieces_join`). A
text without blanks is a single word (`words_eq_of_no_blank`), and a blank
between two texts keeps the words of one apart from those of the other
(`words_append_blank`). Taking the blanks off at both ends leaves every part
that has none (`infix_trim_iff`).

## Theorems

* `cut_append`: Cutting undoes putting a separator between two texts.
* `not_mem_of_cut_none`: A text that is not cut holds no separator.
* `pieces_append_cons`: The first piece ends at the first separator.
* `pieces_join`: Splitting undoes joining.
* `mem_join`: What occurs in joined pieces.
* `infix_join`, `infix_of_mem_pieces`: Pieces are part of the text.
* `infix_trim_iff`: What trimming leaves.
* `wordsFrom_cons`, `wordsFrom_ended`: How a run goes on and where it ends.
* `words_eq_of_no_blank`: A text without blanks is one word.
* `words_append_blank`: The words on either side of a blank.
-/

namespace PackageIndex

namespace Text

/-- Cutting undoes putting a separator between two texts. -/
theorem cut_append {sep : Char} {a : Text} (ha : sep ∉ a) (b : Text) :
    cut sep (a ++ sep :: b) = (a, some b) := by
  induction a with
  | nil => rw [List.nil_append, cut, if_pos rfl]
  | cons c a ih =>
      have hc : ¬c = sep := fun h => ha (h ▸ List.mem_cons_self)
      rw [List.cons_append, cut, if_neg hc, ih fun h => ha (List.mem_cons_of_mem _ h)]

/-- A text that is not cut holds no separator. -/
theorem not_mem_of_cut_none {sep : Char} {s : Text} (h : (cut sep s).2 = none) : sep ∉ s := by
  induction s with
  | nil => exact List.not_mem_nil
  | cons c s ih =>
      by_cases hc : c = sep
      · rw [cut, if_pos hc] at h
        exact absurd h (by simp)
      · rw [cut, if_neg hc] at h
        intro hmem
        rcases List.mem_cons.mp hmem with heq | hmem
        · exact hc heq.symm
        · exact ih h hmem

/-- The text begins with what stands before the first separator. -/
theorem cut_isPrefix (sep : Char) (s : Text) : (cut sep s).1 <+: s := by
  induction s with
  | nil => exact List.prefix_rfl
  | cons c s ih =>
      by_cases hc : c = sep
      · rw [cut, if_pos hc]
        exact List.nil_prefix
      · rw [cut, if_neg hc]
        exact List.cons_prefix_cons.mpr ⟨rfl, ih⟩

theorem mem_of_mem_cut_front {sep c : Char} {s : Text} (h : c ∈ (cut sep s).1) : c ∈ s :=
  (cut_isPrefix sep s).subset h

/-- The first piece ends at the first separator. -/
theorem pieces_append_cons {sep : Char} {a : Text} (ha : sep ∉ a) (b : Text) :
    pieces sep (a ++ sep :: b) = a :: pieces sep b := by
  rw [pieces_eq_cut, cut_append ha, Option.map_some, Option.getD_some]

/-- What occurs in pieces joined by a separator occurs in the separator or in a
    piece. -/
theorem mem_join {sep : Text} {c : Char} {ps : List Text} (h : c ∈ join sep ps) :
    c ∈ sep ∨ ∃ p ∈ ps, c ∈ p := by
  induction ps with
  | nil => exact absurd h List.not_mem_nil
  | cons p ps ih =>
      cases ps with
      | nil => exact Or.inr ⟨p, List.mem_cons_self, h⟩
      | cons q ps =>
          rw [join, List.append_assoc] at h
          rcases List.mem_append.mp h with h | h
          · exact Or.inr ⟨p, List.mem_cons_self, h⟩
          · rcases List.mem_append.mp h with h | h
            · exact Or.inl h
            · rcases ih h with h | ⟨r, hr, hc⟩
              · exact Or.inl h
              · exact Or.inr ⟨r, List.mem_cons_of_mem _ hr, hc⟩

theorem not_mem_join {sep c : Char} {ps : List Text} (hc : c ≠ sep) (hps : ∀ p ∈ ps, c ∉ p) :
    c ∉ join [sep] ps := by
  intro h
  rcases mem_join h with h | ⟨p, hp, hmem⟩
  · exact hc (List.mem_singleton.mp h)
  · exact hps p hp hmem

/-- Splitting undoes joining, if no piece holds the separator. -/
theorem pieces_join {sep : Char} {ps : List Text} (hne : ps ≠ []) (hps : ∀ p ∈ ps, sep ∉ p) :
    pieces sep (join [sep] ps) = ps := by
  induction ps with
  | nil => exact absurd rfl hne
  | cons p ps ih =>
      have hp := hps p List.mem_cons_self
      cases ps with
      | nil => exact pieces_eq_of_not_mem hp
      | cons q ps =>
          rw [join, List.append_assoc, List.singleton_append, pieces_append_cons hp,
            ih (List.cons_ne_nil _ _) fun r hr => hps r (List.mem_cons_of_mem _ hr)]

/-- A joined text begins as its first piece does, unless that is empty. -/
theorem head?_join {sep c : Char} {p : Text} {ps : List Text}
    (h : (join [sep] (p :: ps)).head? = some c) : c = sep ∨ p.head? = some c := by
  cases ps with
  | nil => exact Or.inr h
  | cons q ps =>
      cases p with
      | nil => exact Or.inl (Option.some.inj h).symm
      | cons d p => exact Or.inr h

/-- Every piece is part of the joined text. -/
theorem infix_join (sep : Text) {ps : List Text} {p : Text} (h : p ∈ ps) : p <:+: join sep ps := by
  induction ps with
  | nil => exact absurd h List.not_mem_nil
  | cons q ps ih =>
      cases ps with
      | nil =>
          rw [List.mem_singleton.mp h]
          exact List.infix_rfl
      | cons r ps =>
          rw [join]
          rcases List.mem_cons.mp h with rfl | h
          · exact ((List.prefix_append _ _).trans (List.prefix_append _ _)).isInfix
          · exact (ih h).trans (List.suffix_append _ _).isInfix

/-- Every piece is part of the text. -/
theorem infix_of_mem_pieces {sep : Char} {s p : Text} (h : p ∈ pieces sep s) : p <:+: s := by
  have hjoin := infix_join [sep] h
  rwa [join_pieces] at hjoin

theorem mem_of_mem_pieces {sep c : Char} {s p : Text} (hp : p ∈ pieces sep s) (hc : c ∈ p) :
    c ∈ s :=
  (infix_of_mem_pieces hp).subset hc

/-- Whether a text holds no blank can be computed. -/
theorem no_blank_of_all {s : Text} (h : s.all (!isBlank ·) = true) : ∀ c ∈ s, isBlank c = false := by
  simpa only [List.all_eq_true, Bool.not_eq_true'] using h

/-- Dropping blanks in front leaves what begins with another character. -/
theorem infix_dropWhile {p : Char → Bool} {c : Char} {x s : Text} (hc : p c = false)
    (h : c :: x <:+: s) : c :: x <:+: s.dropWhile p := by
  induction s with
  | nil => exact h
  | cons d s ih =>
      cases hd : p d with
      | false => rwa [List.dropWhile_cons_of_neg (by rw [hd]; exact Bool.false_ne_true)]
      | true =>
          rw [List.dropWhile_cons_of_pos hd]
          rcases List.infix_cons_iff.mp h with h | h
          · rw [(List.cons_prefix_cons.mp h).1, hd] at hc
            exact Bool.noConfusion hc
          · exact ih h

/-- Trimming leaves what holds no blank. -/
theorem infix_trim_iff {x s : Text} (hne : x ≠ []) (hx : ∀ c ∈ x, isBlank c = false) :
    x <:+: trim s ↔ x <:+: s := by
  -- Either end is trimmed in the same way, the far one of the text read backwards.
  have hdrop : ∀ x s : Text, x ≠ [] → (∀ c ∈ x, isBlank c = false) →
      (x <:+: s.dropWhile isBlank ↔ x <:+: s) := by
    intro x s hne hx
    obtain ⟨c, rest, rfl⟩ := List.exists_cons_of_ne_nil hne
    exact ⟨fun h => h.trans (List.dropWhile_suffix isBlank).isInfix,
      infix_dropWhile (hx c List.mem_cons_self)⟩
  rw [trim, ← List.reverse_infix, List.reverse_reverse,
    hdrop x.reverse _ (mt List.reverse_eq_nil_iff.mp hne)
      fun c hc => hx c (List.mem_reverse.mp hc),
    List.reverse_infix, hdrop x s hne hx]

/-- A character that is not blank goes on with the run in front of it. -/
theorem wordsFrom_cons {c : Char} (hc : isBlank c = false) (run s : Text) :
    wordsFrom run (c :: s) = wordsFrom (run ++ [c]) s := by
  rw [wordsFrom, hc, if_neg Bool.false_ne_true]

theorem wordsFrom_append {x : Text} (hx : ∀ c ∈ x, isBlank c = false) (run s : Text) :
    wordsFrom run (x ++ s) = wordsFrom (run ++ x) s := by
  induction x generalizing run with
  | nil => rw [List.nil_append, List.append_nil]
  | cons c x ih =>
      rw [List.cons_append, wordsFrom_cons (hx c List.mem_cons_self),
        ih fun d hd => hx d (List.mem_cons_of_mem _ hd), List.append_assoc, List.singleton_append]

/-- A run ends in front of a blank and at the end of the text. -/
theorem wordsFrom_ended {run s : Text} (hrun : run ≠ []) (hs : s.head?.all isBlank = true) :
    wordsFrom run s = run :: words s := by
  have hempty : ¬run.isEmpty = true := by rwa [List.isEmpty_iff]
  cases s with
  | nil =>
      rw [wordsFrom, if_neg hempty]
      rfl
  | cons c s =>
      have hc : isBlank c = true := hs
      rw [wordsFrom, if_pos hc, if_neg hempty, words, wordsFrom, if_pos hc, if_pos List.isEmpty_nil]

/-- A text without blanks is one word. -/
theorem words_eq_of_no_blank {s : Text} (hne : s ≠ []) (hs : ∀ c ∈ s, isBlank c = false) :
    words s = [s] := by
  have hrun := wordsFrom_append hs [] []
  rw [List.append_nil, List.nil_append, wordsFrom_ended hne rfl] at hrun
  exact hrun

theorem words_append_blank {blank : Char} (hblank : isBlank blank = true) (x y : Text) :
    words (x ++ blank :: y) = words x ++ words y := by
  -- The run that is open when the blank comes ends there, as it does at the end of a text.
  have hfrom : ∀ run, wordsFrom run (x ++ blank :: y) = wordsFrom run x ++ words y := by
    induction x with
    | nil =>
        intro run
        rw [List.nil_append, wordsFrom, wordsFrom, if_pos hblank]
        by_cases hrun : run.isEmpty = true
        · rw [if_pos hrun, if_pos hrun, List.nil_append, words]
        · rw [if_neg hrun, if_neg hrun, List.singleton_append, words]
    | cons c x ih =>
        intro run
        rw [List.cons_append, wordsFrom, wordsFrom]
        by_cases hc : isBlank c = true
        · rw [if_pos hc, if_pos hc, ih]
          by_cases hrun : run.isEmpty = true
          · rw [if_pos hrun, if_pos hrun]
          · rw [if_neg hrun, if_neg hrun, List.cons_append]
        · rw [if_neg hc, if_neg hc, ih]
  exact hfrom []

end Text

end PackageIndex
