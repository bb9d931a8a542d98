import PackageIndex.Text.Basic

/-!
# Catalogs

A catalog holds one value for each of finitely many names, and lists its names
in ascending order. The entries are kept in that order, which is part of the
type, so listing needs no sorting and two catalogs with the same values under
the same names are the same catalog.

## Main definitions

* `Catalog`: Names with values, in ascending order of the names.
* `Catalog.get?`: The value under a name.
* `Catalog.insert`: A catalog with a value put under a name.
* `Catalog.names`: The names, ascending.

## Theorems

* `get?_insert`: What is found after putting a value under a name.
* `ascending_names`: Names are listed in ascending order.
* `mem_names_iff`: The names are those that have a value.
-/

namespace PackageIndex

/-- Entries with their names strictly ascending. -/
def Ascending {α : Type} (entries : List (Text × α)) : Prop :=
  entries.Pairwise fun a b => compare a.1 b.1 = .lt

/-- Entries with a value put under a name, in the place where the name
    belongs. -/
def insertEntry {α : Type} (name : Text) (value : α) : List (Text × α) → List (Text × α)
  | [] => [(name, value)]
  | entry :: rest =>
    match compare name entry.1 with
    | .lt => (name, value) :: entry :: rest
    | .eq => (name, value) :: rest
    | .gt => entry :: insertEntry name value rest

/-- What is among entries after one was put in. -/
theorem mem_insertEntry {α : Type} {name : Text} {value : α} {entries : List (Text × α)}
    {entry : Text × α} (h : entry ∈ insertEntry name value entries) :
    entry = (name, value) ∨ entry ∈ entries := by
  induction entries with
  | nil => exact Or.inl (List.mem_singleton.1 h)
  | cons first rest ih =>
    rw [insertEntry] at h
    split at h
    · exact (List.mem_cons.1 h).imp id id
    · rcases List.mem_cons.1 h with h | h
      · exact Or.inl h
      · exact Or.inr (List.mem_cons_of_mem _ h)
    · rcases List.mem_cons.1 h with h | h
      · exact Or.inr (by simp [h])
      · exact (ih h).imp id (List.mem_cons_of_mem _)

/-- Entries stay in order when one is put in. -/
theorem ascending_insertEntry {α : Type} (name : Text) (value : α) {entries : List (Text × α)}
    (h : Ascending entries) : Ascending (insertEntry name value entries) := by
  induction entries with
  | nil => exact List.pairwise_singleton _ _
  | cons first rest ih =>
    obtain ⟨hfirst, hrest⟩ := List.pairwise_cons.1 h
    rw [insertEntry]
    split
    -- In front of the first entry, and so in front of all that are behind it.
    · rename_i hlt
      refine List.pairwise_cons.2 ⟨fun entry hmem => ?_, h⟩
      rcases List.mem_cons.1 hmem with rfl | hmem
      · exact hlt
      · exact Std.TransCmp.lt_trans hlt (hfirst entry hmem)
    -- In the place of an entry of the same name.
    · rename_i heq
      have hname : name = first.1 := Std.LawfulEqOrd.eq_of_compare heq
      exact List.pairwise_cons.2 ⟨fun entry hmem => hname ▸ hfirst entry hmem, hrest⟩
    -- Further down: the first entry stays in front of the new one too.
    · rename_i hgt
      refine List.pairwise_cons.2 ⟨fun entry hmem => ?_, ih hrest⟩
      rcases mem_insertEntry hmem with rfl | hmem
      · exact Std.OrientedCmp.lt_of_gt hgt
      · exact hfirst entry hmem

/-- Names with values, in ascending order of the names. -/
structure Catalog (α : Type) where
  entries : List (Text × α)
  ascending : Ascending entries

namespace Catalog

variable {α : Type}

/-- The catalog without names. -/
def empty : Catalog α := ⟨[], List.Pairwise.nil⟩

/-- The value under a name, if there is one. -/
def get? (c : Catalog α) (name : Text) : Option α :=
  (c.entries.find? fun entry => entry.1 = name).map (·.2)

/-- A catalog with a value put under a name. -/
def insert (c : Catalog α) (name : Text) (value : α) : Catalog α :=
  ⟨insertEntry name value c.entries, ascending_insertEntry name value c.ascending⟩

/-- The names, ascending. -/
def names (c : Catalog α) : List Text := c.entries.map (·.1)

/-- What is found after putting a value under a name: that value under that
    name, and under any other name what was found before. -/
theorem get?_insert (c : Catalog α) (name other : Text) (value : α) :
    (c.insert name value).get? other = if other = name then some value else c.get? other := by
  obtain ⟨entries, h⟩ := c
  simp only [insert, get?]
  induction entries with
  | nil =>
    by_cases ho : other = name
    · simp [insertEntry, ho]
    · have hn : ¬name = other := fun hc => ho hc.symm
      simp [insertEntry, ho, hn]
  | cons first rest ih =>
    have ih := ih (List.pairwise_cons.1 h).2
    rw [insertEntry]
    split
    · by_cases ho : other = name
      · simp [ho]
      · have hn : ¬name = other := fun hc => ho hc.symm
        simp [ho, hn]
    · rename_i heq
      have hname : name = first.1 := Std.LawfulEqOrd.eq_of_compare heq
      by_cases ho : other = name
      · simp [ho]
      · have hn : ¬name = other := fun hc => ho hc.symm
        simp [ho, hn, ← hname]
    · rename_i hgt
      have hne : ¬first.1 = name := by
        intro hc
        simp [hc] at hgt
      by_cases hf : first.1 = other
      · have ho : ¬other = name := fun hc => hne (hf.trans hc)
        simp [hf, ho]
      · simpa [hf] using ih

theorem ascending_names (c : Catalog α) :
    c.names.Pairwise fun name other => compare name other = .lt := by
  rw [names, List.pairwise_map]
  exact c.ascending

/-- The names are those that have a value. -/
theorem mem_names_iff (c : Catalog α) (name : Text) :
    name ∈ c.names ↔ (c.get? name).isSome = true := by
  simp only [names, get?, List.mem_map, Option.isSome_map, List.find?_isSome, decide_eq_true_eq]

end Catalog

end PackageIndex
