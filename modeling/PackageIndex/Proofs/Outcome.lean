/-!
# Outcomes One After the Other

Reading goes from left to right and stops at the first refusal. That is so for
the parts of a text, for the words of a part and for the two halves of a text
that is put together, and it is the same rule each time: an outcome made of
several others fails as the first of them that does, and what stands behind it
is not looked at.

Two shapes of it are needed. A list is refused for its first refused member
(`mapM_eq_error_iff`), and lists of lists are refused as all their members in a
row are (`mapM_flatMap_eq_error_iff`), so loops inside loops need no thought of
their own. `InTurn` is the rule for two halves, whatever is made of what they
give.

## Main definitions

* `InTurn`: An outcome that is made of two others, the left one first.

## Theorems

* `bind_eq_error_iff`: Two outcomes one after the other.
* `mapM_eq_error_iff`: A list is refused for its first refused member.
* `exists_mapM_eq_error_iff`: A list is refused if one of its members is.
* `length_of_mapM_eq_ok`: A list that is not refused keeps its length.
* `mapM_flatMap_eq_error_iff`: Lists in a list are refused as one list.
* `InTurn.of_eq_bind`: Two outcomes one after the other are taken in turn.
-/

namespace PackageIndex

variable {α β γ δ ε : Type}

/-- What is made of an outcome afterwards does not change how it fails. -/
theorem bind_pure_eq_error_iff (x : Except ε α) (f : α → β) (e : ε) :
    (x >>= fun a => pure (f a)) = .error e ↔ x = .error e := by
  cases x with
  | error other =>
      change Except.error other = .error e ↔ _
      rw [Except.error.injEq, Except.error.injEq]
  | ok a =>
      change Except.ok _ = .error e ↔ _
      simp

/-- One outcome after another fails as the first of them, or as the second if
    the first does not fail. -/
theorem bind_eq_error_iff (x : Except ε α) (y : Except ε β) (join : α → β → γ) (e : ε) :
    (x >>= fun a => y >>= fun b => pure (join a b)) = .error e ↔
      x = .error e ∨ (∀ other, x ≠ .error other) ∧ y = .error e := by
  cases x with
  | error other =>
      change Except.error other = .error e ↔ _
      simp
  | ok a =>
      cases y with
      | error other =>
          change Except.error other = .error e ↔ _
          simp
      | ok b =>
          change Except.ok _ = .error e ↔ _
          simp

theorem mapM_cons_eq_error_iff (f : α → Except ε β) (a : α) (l : List α) (e : ε) :
    (a :: l).mapM f = .error e ↔
      f a = .error e ∨ (∀ other, f a ≠ .error other) ∧ l.mapM f = .error e := by
  rw [List.mapM_cons, bind_eq_error_iff]

theorem mapM_append_eq_error_iff (f : α → Except ε β) (l k : List α) (e : ε) :
    (l ++ k).mapM f = .error e ↔
      l.mapM f = .error e ∨ (∀ other, l.mapM f ≠ .error other) ∧ k.mapM f = .error e := by
  rw [List.mapM_append, bind_eq_error_iff]

theorem mapM_eq_error_iff (f : α → Except ε β) (l : List α) (e : ε) :
    l.mapM f = .error e ↔ ∃ front a back, l = front ++ a :: back ∧
      (∀ b ∈ front, ∀ other, f b ≠ .error other) ∧ f a = .error e := by
  induction l with
  | nil =>
      refine iff_of_false (fun h => absurd h (by simp [pure, Except.pure])) ?_
      rintro ⟨front, a, back, h, -⟩
      exact absurd h.symm (List.append_ne_nil_of_right_ne_nil front (List.cons_ne_nil a back))
  | cons c l ih =>
      rw [mapM_cons_eq_error_iff, ih]
      -- The first member is the refused one, or it is in front of it.
      constructor
      · intro h
        rcases h with h | ⟨hc, front, a, back, rfl, hfront, ha⟩
        · exact ⟨[], c, l, rfl, fun b hb => absurd hb List.not_mem_nil, h⟩
        · refine ⟨c :: front, a, back, rfl, fun b hb => ?_, ha⟩
          rcases List.mem_cons.mp hb with rfl | hb
          · exact hc
          · exact hfront b hb
      · rintro ⟨front, a, back, h, hfront, ha⟩
        cases front with
        | nil =>
            rw [(List.cons.inj h).1]
            exact Or.inl ha
        | cons d front =>
            rcases List.cons.inj h with ⟨rfl, rfl⟩
            exact Or.inr ⟨hfront c List.mem_cons_self, front, a, back, rfl,
              fun b hb => hfront b (List.mem_cons_of_mem c hb), ha⟩

theorem exists_mapM_eq_error_iff (f : α → Except ε β) (l : List α) :
    (∃ e, l.mapM f = .error e) ↔ ∃ a ∈ l, ∃ e, f a = .error e := by
  induction l with
  | nil => exact iff_of_false (by simp [pure, Except.pure]) (by simp)
  | cons a l ih =>
      simp only [mapM_cons_eq_error_iff, exists_or, exists_and_left, ih, List.mem_cons,
        exists_eq_or_imp]
      -- Either the first member is refused, or it is not and plays no part.
      by_cases ha : ∃ e, f a = .error e
      · exact iff_of_true (Or.inl ha) (Or.inl ha)
      · exact or_congr_right (and_iff_right fun other h => ha ⟨other, h⟩)

/-- A list that is not refused gives one result for each member. -/
theorem length_of_mapM_eq_ok {f : α → Except ε β} {l : List α} {bs : List β}
    (h : l.mapM f = .ok bs) : bs.length = l.length := by
  induction l generalizing bs with
  | nil =>
      rw [← Except.ok.inj h]
      rfl
  | cons a l ih =>
      rw [List.mapM_cons] at h
      cases ha : f a with
      | error e =>
          rw [ha] at h
          exact absurd h (by simp [bind, Except.bind])
      | ok b =>
          cases hl : l.mapM f with
          | error e =>
              rw [ha, hl] at h
              exact absurd h (by simp [bind, Except.bind])
          | ok others =>
              rw [ha, hl] at h
              rw [← Except.ok.inj h, List.length_cons, List.length_cons, ih hl]

/-- If each member is refused as a list of pieces is, the whole list is refused
    as all pieces in a row are. -/
theorem mapM_flatMap_eq_error_iff {g : α → Except ε β} {pieces : α → List γ} {f : γ → Except ε δ}
    (hg : ∀ a e, g a = .error e ↔ (pieces a).mapM f = .error e) (l : List α) (e : ε) :
    l.mapM g = .error e ↔ (l.flatMap pieces).mapM f = .error e := by
  induction l with
  | nil => exact iff_of_false (by simp [pure, Except.pure]) (by simp [pure, Except.pure])
  | cons a l ih =>
      rw [mapM_cons_eq_error_iff, List.flatMap_cons, mapM_append_eq_error_iff, ih]
      simp only [hg, ne_eq]

/-- An outcome that is made of two others. If both succeed, what they give is
    joined, and if not, the first of them that fails decides. -/
structure InTurn (Joins : α → α → α → Prop) (left right whole : Except ε α) : Prop where
  isOk_iff : whole.isOk = true ↔ left.isOk = true ∧ right.isOk = true
  joins : ∀ a b, left = .ok a → right = .ok b → ∃ c, whole = .ok c ∧ Joins a b c
  left_refused : ∀ refusal, left = .error refusal → whole = .error refusal
  right_refused : ∀ a refusal, left = .ok a → right = .error refusal → whole = .error refusal

theorem InTurn.of_eq_bind {Joins : α → α → α → Prop} {left right whole : Except ε α}
    {join : α → α → α}
    (hwhole : whole = left.bind fun a => right.map (join a))
    (hjoin : ∀ a b, Joins a b (join a b)) :
    InTurn Joins left right whole := by
  subst hwhole
  cases left with
  | error refusal =>
      refine ⟨?_, fun a b ha _ => ?_, fun other h => h, fun a other ha _ => ?_⟩
      · exact ⟨fun h => absurd h Bool.false_ne_true, fun h => h.1⟩
      · exact absurd ha (by simp)
      · exact absurd ha (by simp)
  | ok a =>
      cases right with
      | error refusal =>
          refine ⟨?_, fun b c _ hc => ?_, fun other h => ?_, fun b other _ h => h⟩
          · exact ⟨fun h => absurd h Bool.false_ne_true, fun h => h.2⟩
          · exact absurd hc (by simp)
          · exact absurd h (by simp)
      | ok b =>
          refine ⟨⟨fun _ => ⟨rfl, rfl⟩, fun _ => rfl⟩, fun c d hc hd => ?_, fun other h => ?_,
            fun c other _ h => ?_⟩
          · rw [← Except.ok.inj hc, ← Except.ok.inj hd]
            exact ⟨join a b, rfl, hjoin a b⟩
          · exact absurd h (by simp)
          · exact absurd h (by simp)

end PackageIndex
