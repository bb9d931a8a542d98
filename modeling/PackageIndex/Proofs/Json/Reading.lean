import PackageIndex.Json.Shape
import PackageIndex.Proofs.Json.Quoted
import PackageIndex.Proofs.Json.Spelling

/-!
# Reading What Was Written

Each reader of a value of known shape, on the text a writer leaves for it.
There is no space in such a text, and something always follows, so every
theorem here is about a text with an arbitrary rest behind it: the value is
read and the rest is left. Where what was written is no value of the shape, it
is refused, and so is everything it is a part of.

Elements and members are read with a bound on their number. The bound is taken
from the length of the text and never met, since every element takes a
character.

## Main definitions

* `StartsValue`: A text that begins with a value.

## Theorems

* `text_quote`, `numeric_text`: Strings and numbers are read back.
* `elements_join_outcome`: An array is read as its elements are.
* `elements_join`: An array is read back, if its elements are.
* `membersFor_member`, `membersFor_close`: An object is read back member by
  member.
* `membersFor_refused`, `field_refused`: An object is refused for a member.
* `document_ok`: A text that holds one value is read to its end.
-/

namespace PackageIndex

namespace Json

theorem skipSpace_cons {c : Char} (hc : isSpace c = false) (s : Text) :
    skipSpace (c :: s) = c :: s := by
  rw [skipSpace, List.dropWhile_cons, hc, if_neg Bool.false_ne_true]

/-- A string is read back. -/
theorem text_quote (s rest : Text) : text (quote s ++ rest) = .ok (s, rest) := by
  unfold quote
  rw [List.cons_append, List.cons_append, List.append_assoc, List.singleton_append]
  exact unquote_quote s rest

/-- The sign or the first digit of a number. -/
theorem Spelling.Proper.exists_text_eq {sp : Spelling} (h : sp.Proper) (rest : Text) :
    ∃ c s, sp.text ++ rest = c :: s ∧ isSpace c = false ∧ (c = '-' || c.isDigit) = true := by
  unfold Spelling.text
  cases sp.negative with
  | true => exact ⟨'-', _, rfl, by decide, by decide⟩
  | false =>
      obtain ⟨c, others, hwhole⟩ := List.exists_cons_of_ne_nil h.whole_ne_nil
      have hdigit : c.isDigit = true := h.whole_digits c (hwhole ▸ List.mem_cons_self)
      rw [hwhole]
      refine ⟨c, _, rfl, ?_, by rw [hdigit, Bool.or_true]⟩
      -- Space is no digit.
      rw [isSpace, ← Bool.not_eq_true]
      intro hspace
      simp only [Bool.or_eq_true, decide_eq_true_eq] at hspace
      rcases hspace with ((rfl | rfl) | rfl) | rfl <;> exact absurd hdigit (by decide)

/-- A number is read back. -/
theorem numeric_text {sp : Spelling} (h : sp.Proper) {x : Binary64} (hx : sp.value? = some x)
    {rest : Text} (hrest : EndsNumber rest) : numeric (sp.text ++ rest) = .ok (x, rest) := by
  have hread : number (sp.text ++ rest) = .ok (x, rest) := by
    rw [number, spelling_text h hrest, ok_bind]
    simp only
    rw [hx]
  obtain ⟨c, s, hs, hspace, hfirst⟩ := h.exists_text_eq rest
  rw [hs] at hread
  rw [hs, numeric, skipSpace_cons hspace]
  change (if _ then _ else _ : Except Fault (Binary64 × Text)) = _
  rw [if_pos hfirst, hread]

/-- A text that begins with a value. -/
def StartsValue (t : Text) : Prop := ∃ c s, t = c :: s ∧ isSpace c = false ∧ c ≠ ']'

/-- The first element starts at once, and any other behind a comma. -/
theorem elementStart_append {t : Text} (hstart : StartsValue t) (first : Bool) (rest : Text) :
    elementStart first ((if first then [] else [',']) ++ (t ++ rest)) = .ok (some (t ++ rest)) := by
  rcases hstart with ⟨c, s, rfl, hspace, hclose⟩
  have hvalue : skipSpace (c :: (s ++ rest)) = c :: (s ++ rest) := skipSpace_cons hspace _
  unfold elementStart
  cases first with
  | true =>
      rw [if_pos rfl, List.nil_append, List.cons_append, hvalue]
      split
      · rename_i h
        exact absurd h (List.cons_ne_nil _ _)
      · rename_i h
        exact absurd (List.cons.inj h).1 hclose
      · rename_i h
        rw [if_pos rfl, ← h]
  | false =>
      have hcomma : skipSpace (',' :: (c :: (s ++ rest))) = ',' :: (c :: (s ++ rest)) :=
        skipSpace_cons (by decide) _
      rw [if_neg Bool.false_ne_true, List.singleton_append, List.cons_append, hcomma]
      split
      · rename_i h
        exact absurd h (List.cons_ne_nil _ _)
      · rename_i h
        exact absurd (List.cons.inj h).1 (by decide)
      · rename_i h
        rw [if_neg Bool.false_ne_true, if_pos (List.cons.inj h).1.symm, ← (List.cons.inj h).2,
          hvalue]
        split
        · rename_i h
          exact absurd h (List.cons_ne_nil _ _)
        · rename_i h
          exact absurd (List.cons.inj h).1 hclose
        · rfl

/-- An element that is the first, or behind a comma, is read as it is by itself,
    or refused for the same reason. -/
theorem element?_append {α : Type} {read : Reader α} {t rest : Text} {outcome : Except Fault α}
    (hstart : StartsValue t) (hread : read (t ++ rest) = outcome.map (·, rest)) (first : Bool) :
    element? first read ((if first then [] else [',']) ++ (t ++ rest)) =
      outcome.map (some ·, rest) := by
  rw [element?, elementStart_append hstart, ok_bind]
  simp only
  rw [hread]
  cases outcome <;> rfl

/-- One element and then the others. -/
theorem elementsFor_cons {α : Type} {read : Reader α} {bound : Nat} {first : Bool}
    {s t rest : Text} {outcome : Except Fault α} {outcomes : Except Fault (List α)}
    (hitem : element? first read s = outcome.map (some ·, t))
    (hothers : elementsFor read bound false t = outcomes.map (·, rest)) :
    elementsFor read (bound + 1) first s =
      (outcome >>= fun a => outcomes >>= fun others => pure (a :: others)).map (·, rest) := by
  rw [elementsFor, hitem]
  cases outcome with
  | error fault => rfl
  | ok a =>
      change (elementsFor read bound false t >>= fun p => pure (a :: p.1, p.2)) = _
      rw [hothers]
      cases outcomes <;> rfl

section Elements

variable {α β : Type} {read : Reader α} {write : β → Text} {value : β → Except Fault α}

theorem join_map_cons (write : β → Text) (b : β) (items : List β) :
    Text.join [','] ((b :: items).map write) =
      write b ++ items.flatMap fun b => ',' :: write b := by
  induction items generalizing b with
  | nil => rw [List.flatMap_nil, List.append_nil, List.map_singleton, Text.join]
  | cons next items ih =>
      rw [List.map_cons, List.map_cons, Text.join, ← List.map_cons, ih, List.flatMap_cons]
      simp only [List.append_assoc, List.cons_append, List.nil_append]

/-- Elements are no more than their commas. -/
theorem length_le_length_flatMap (write : β → Text) (items : List β) :
    items.length ≤ (items.flatMap fun b => ',' :: write b).length := by
  induction items with
  | nil => exact Nat.le_refl 0
  | cons b items ih =>
      rw [List.flatMap_cons, List.length_append, List.length_cons, List.length_cons]
      omega

/-- The elements behind the first one, each behind a comma. -/
theorem elementsFor_flatMap {items : List β}
    (hstart : ∀ b ∈ items, StartsValue (write b))
    (hread : ∀ b ∈ items, ∀ rest, read (write b ++ rest) = (value b).map (·, rest))
    (bound : Nat) (hbound : items.length < bound) (rest : Text) :
    elementsFor read bound false ((items.flatMap fun b => ',' :: write b) ++ ']' :: rest) =
      (items.mapM value).map (·, rest) := by
  induction items generalizing bound with
  | nil =>
      obtain ⟨bound, rfl⟩ : ∃ k, bound = k + 1 := ⟨bound - 1, by simp at hbound; omega⟩
      rfl
  | cons b items ih =>
      obtain ⟨bound, rfl⟩ : ∃ k, bound = k + 1 := ⟨bound - 1, by simp at hbound; omega⟩
      -- The element behind the comma is read, and then the ones behind it.
      have hitem := element?_append (hstart b List.mem_cons_self)
        (hread b List.mem_cons_self ((items.flatMap fun b => ',' :: write b) ++ ']' :: rest)) false
      have hothers := ih (fun b hb => hstart b (List.mem_cons_of_mem _ hb))
        (fun b hb => hread b (List.mem_cons_of_mem _ hb)) bound
        (by rw [List.length_cons] at hbound; omega)
      rw [if_neg Bool.false_ne_true, List.singleton_append] at hitem
      rw [List.flatMap_cons, List.cons_append, List.cons_append, List.append_assoc, List.mapM_cons]
      exact elementsFor_cons hitem hothers

/-- An array is read as its elements are by themselves. It is refused for the
    first of them that is. -/
theorem elements_join_outcome {items : List β} (hstart : ∀ b ∈ items, StartsValue (write b))
    (hread : ∀ b ∈ items, ∀ rest, read (write b ++ rest) = (value b).map (·, rest))
    (rest : Text) :
    elements read (Text.join [','] (items.map write) ++ ']' :: rest) =
      (items.mapM value).map (·, rest) := by
  unfold elements
  cases items with
  | nil => rfl
  | cons b items =>
      have hitem := element?_append (hstart b List.mem_cons_self)
        (hread b List.mem_cons_self ((items.flatMap fun b => ',' :: write b) ++ ']' :: rest)) true
      have hothers := fun bound hbound =>
        elementsFor_flatMap (fun b hb => hstart b (List.mem_cons_of_mem _ hb))
          (fun b hb => hread b (List.mem_cons_of_mem _ hb)) bound hbound rest
      have hlength := length_le_length_flatMap write items
      rw [if_pos rfl, List.nil_append] at hitem
      rw [join_map_cons, List.append_assoc, List.mapM_cons]
      refine elementsFor_cons hitem (hothers _ ?_)
      -- The text behind the first element bounds the number of the others.
      simp only [List.length_append, List.length_cons]
      omega

/-- An array is read back, if its elements are. -/
theorem elements_join {value : β → α} {items : List β}
    (hstart : ∀ b ∈ items, StartsValue (write b))
    (hread : ∀ b ∈ items, ∀ rest, read (write b ++ rest) = .ok (value b, rest)) (rest : Text) :
    elements read (Text.join [','] (items.map write) ++ ']' :: rest) =
      .ok (items.map value, rest) := by
  have houtcome : elements read (Text.join [','] (items.map write) ++ ']' :: rest) =
      (items.mapM fun b => (pure (value b) : Except Fault α)).map (·, rest) :=
    elements_join_outcome hstart hread rest
  rw [houtcome, List.mapM_pure]
  rfl

end Elements

section Members

variable {σ : Type} {step : σ → Text → Reader σ}

/-- A key that is the first, or behind a comma, is read. -/
theorem key?_quote (first : Bool) (key rest : Text) :
    key? first ((if first then [] else [',']) ++ (quote key ++ rest)) = .ok (some key, rest) := by
  have hquote : quote key ++ rest = '"' :: (key.flatMap escape ++ '"' :: rest) := by
    unfold quote
    rw [List.cons_append, List.cons_append, List.append_assoc, List.singleton_append]
  -- Either way the reader goes on behind the opening quote.
  have hkey : (unquote (key.flatMap escape ++ '"' :: rest) >>= fun p => .ok (some p.1, p.2)) =
      (.ok (some key, rest) : Except Fault (Option Text × Text)) := by
    rw [unquote_quote]
    rfl
  rw [hquote]
  cases first with
  | true => exact hkey
  | false => exact hkey

/-- A member is read, and the members behind it are left. -/
theorem membersFor_member {state next : σ} {key t rest : Text}
    (hstep : step state key (':' :: (t ++ rest)) = .ok (next, rest)) (bound : Nat) (first : Bool) :
    membersFor step (bound + 1) first state
        ((if first then [] else [',']) ++ (quote key ++ ':' :: (t ++ rest))) =
      membersFor step bound false next rest := by
  rw [membersFor, key?_quote, ok_bind]
  simp only
  rw [hstep, ok_bind]

/-- An object is refused where the value of a member is. -/
theorem membersFor_refused {state : σ} {key s : Text} {fault : Fault}
    (hstep : step state key s = .error fault) (bound : Nat) (first : Bool) :
    membersFor step (bound + 1) first state
        ((if first then [] else [',']) ++ (quote key ++ s)) = .error fault := by
  rw [membersFor, key?_quote, ok_bind]
  simp only
  rw [hstep]
  rfl

/-- The bracket that closes an object ends its members. -/
theorem membersFor_close (bound : Nat) (first : Bool) (state : σ) (rest : Text) :
    membersFor step (bound + 1) first state ('}' :: rest) = .ok (state, rest) := rfl

/-- The value of a field that has not been seen is read and stored. -/
theorem field_none {α : Type} {read : Reader α} {s rest : Text} {a : α}
    (hread : read s = .ok (a, rest)) (store : α → σ) :
    field none read store (':' :: s) = .ok (store a, rest) := by
  change (read s >>= fun p => .ok (store p.1, p.2)) = _
  rw [hread]
  rfl

theorem field_refused {α : Type} {read : Reader α} {s : Text} {fault : Fault}
    (hread : read s = .error fault) (store : α → σ) :
    field none read store (':' :: s) = .error fault := by
  change (read s >>= fun p => .ok (store p.1, p.2)) = _
  rw [hread]
  rfl

end Members

/-- A text that holds one value, and nothing but space behind it. -/
theorem document_ok {α : Type} {read : Reader α} {s tail : Text} {a : α}
    (htail : skipSpace tail = []) (hread : read s = .ok (a, tail)) : document read s = .ok a := by
  rw [document, hread]
  simp only [bind, Except.bind, htail, List.isEmpty_nil, if_true]

end Json

end PackageIndex
