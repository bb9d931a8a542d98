import PackageIndex.Json.Shape

/-!
# What Readers Let Through

A text may come from anywhere, and what is known about a value that was read
from it is only what its reader has seen to. `Yields` is the statement that
everything a reader reads has a property, and each way of putting readers
together hands the property on: from elements to the list, from the fields to
the state they are folded into, and from either way of writing a record to
the record.

The one property that begins at the bottom is that numbers are finite. There
is no spelling for any other.

## Main definitions

* `Yields`: Everything a reader reads has a property.

## Theorems

* `yields_numeric`: Only finite numbers are read.
* `Yields.list`: What every element has, every element of a list has.
* `yields_members`: What every field preserves, an object has.
* `Yields.record`: What both ways of writing a record give, a record has.
-/

namespace PackageIndex

namespace Json

/-- Everything a reader reads has a property. -/
def Yields {α : Type} (read : Reader α) (P : α → Prop) : Prop :=
  ∀ s a rest, read s = .ok (a, rest) → P a

/-- What a reader that goes on with another one has read. -/
theorem bind_eq_ok {ε α β : Type} {x : Except ε α} {f : α → Except ε β} {b : β}
    (h : x >>= f = .ok b) : ∃ a, x = .ok a ∧ f a = .ok b := by
  cases x with
  | error e => exact absurd h (by simp [bind, Except.bind])
  | ok a => exact ⟨a, rfl, h⟩

/-- What a reader that ends without reading on has read. -/
theorem eq_of_pure_eq_ok {ε α : Type} {a b : α} {s rest : Text}
    (h : (pure (a, s) : Except ε (α × Text)) = .ok (b, rest)) : b = a := by
  have hpair : (a, s) = (b, rest) := Except.ok.inj h
  exact (congrArg Prod.fst hpair).symm

/-- Only finite numbers are read. -/
theorem yields_number : Yields number fun x => x.isFinite = true := by
  intro s x rest h
  rcases bind_eq_ok h with ⟨⟨sp, left⟩, -, h⟩
  simp only at h
  cases hvalue : sp.value? with
  | none =>
      rw [hvalue] at h
      exact absurd h (by simp)
  | some y =>
      rw [hvalue] at h
      rcases Option.map_eq_some_iff.mp hvalue with ⟨m, -, hm⟩
      rw [eq_of_pure_eq_ok h, ← hm]
      rfl

theorem yields_numeric : Yields numeric fun x => x.isFinite = true := by
  intro s x rest h
  unfold numeric at h
  split at h
  · exact absurd h (by simp)
  · split at h
    · exact yields_number _ x rest h
    · exact absurd h (by simp)

namespace Yields

variable {α : Type} {read : Reader α} {P : α → Prop}

theorem element? (h : Yields read P) (first : Bool) :
    Yields (Json.element? first read) fun a => ∀ x ∈ a, P x := by
  intro s a rest hread x hx
  rcases bind_eq_ok hread with ⟨start, -, hread⟩
  cases start with
  | none =>
      rw [eq_of_pure_eq_ok hread] at hx
      exact absurd hx (Option.not_mem_none x)
  | some start =>
      rcases bind_eq_ok hread with ⟨⟨y, left⟩, hy, hread⟩
      rw [eq_of_pure_eq_ok hread, Option.mem_some_iff] at hx
      rw [← hx]
      exact h start y left hy

/-- What every element has, every element of an array has. -/
theorem elementsFor (h : Yields read P) (bound : Nat) (first : Bool) :
    Yields (Json.elementsFor read bound first) fun items => ∀ a ∈ items, P a := by
  induction bound generalizing first with
  | zero =>
      intro s items rest hread
      exact absurd hread (by simp [Json.elementsFor])
  | succ bound ih =>
      intro s items rest hread
      rw [Json.elementsFor] at hread
      rcases bind_eq_ok hread with ⟨⟨head, left⟩, hhead, hread⟩
      cases head with
      | none =>
          rcases bind_eq_ok hread with ⟨left, -, hread⟩
          rw [eq_of_pure_eq_ok hread]
          exact fun a ha => absurd ha List.not_mem_nil
      | some x =>
          rcases bind_eq_ok hread with ⟨⟨others, left⟩, hothers, hread⟩
          rw [eq_of_pure_eq_ok hread]
          intro a ha
          -- It is the element just read, or one of those behind it.
          rcases List.mem_cons.mp ha with rfl | ha
          · exact h.element? first s (some a) _ hhead a rfl
          · exact ih false _ others left hothers a ha

theorem list (h : Yields read P) : Yields (Json.list read) fun items => ∀ a ∈ items, P a := by
  intro s items rest hread
  unfold Json.list at hread
  split at hread
  · exact h.elementsFor _ true _ items rest hread
  · exact absurd hread (by simp)

theorem record {ofArray ofObject : Reader α} (harray : Yields ofArray P)
    (hobject : Yields ofObject P) : Yields (Json.record ofArray ofObject) P := by
  intro s a rest hread
  unfold Json.record at hread
  split at hread
  · exact harray _ a rest hread
  · exact hobject _ a rest hread
  · exact absurd hread (by simp)

theorem document (h : Yields read P) {s : Text} {a : α} (hread : Json.document read s = .ok a) :
    P a := by
  rcases bind_eq_ok hread with ⟨⟨b, rest⟩, hb, hread⟩
  simp only at hread
  split at hread
  · rw [← Except.ok.inj hread]
    exact h s b rest hb
  · exact absurd hread (by simp)

theorem field {σ : Type} {Q : σ → Prop} {store : α → σ} (h : Yields read P)
    (hstore : ∀ a, P a → Q (store a)) (seen : Option α) :
    Yields (Json.field seen read store) Q := by
  intro s state rest hread
  unfold Json.field at hread
  cases seen with
  | some _ => exact absurd hread (by simp)
  | none =>
      rcases bind_eq_ok hread with ⟨left, -, hread⟩
      rcases bind_eq_ok hread with ⟨⟨a, left⟩, ha, hread⟩
      rw [eq_of_pure_eq_ok hread]
      exact hstore a (h _ a left ha)

end Yields

section Members

variable {σ : Type} {step : σ → Text → Reader σ} {Q : σ → Prop}

theorem yields_otherField {state : σ} (h : Q state) : Yields (otherField state) Q := by
  intro s next rest hread
  rcases bind_eq_ok hread with ⟨left, -, hread⟩
  rcases bind_eq_ok hread with ⟨left, -, hread⟩
  rw [eq_of_pure_eq_ok hread]
  exact h

/-- What every field preserves, the members of an object preserve. -/
theorem yields_membersFor (hstep : ∀ state key, Q state → Yields (step state key) Q) (bound : Nat)
    (first : Bool) {state : σ} (hstate : Q state) :
    Yields (membersFor step bound first state) Q := by
  induction bound generalizing first state with
  | zero =>
      intro s next rest hread
      exact absurd hread (by simp [membersFor])
  | succ bound ih =>
      intro s next rest hread
      rw [membersFor] at hread
      rcases bind_eq_ok hread with ⟨⟨key, left⟩, -, hread⟩
      cases key with
      | none =>
          rw [eq_of_pure_eq_ok hread]
          exact hstate
      | some key =>
          rcases bind_eq_ok hread with ⟨⟨after, left⟩, hafter, hread⟩
          exact ih false (hstep state key hstate _ after left hafter) _ next rest hread

theorem yields_members (hstep : ∀ state key, Q state → Yields (step state key) Q) {state : σ}
    (hstate : Q state) : Yields (members step state) Q :=
  fun s => yields_membersFor hstep _ true hstate s

end Members

end Json

end PackageIndex
