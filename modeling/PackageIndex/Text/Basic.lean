/-!
# Texts and Their Pieces

Every notation this library reads — versions, ranges, log filters — is taken
apart at single characters, and two ways of taking apart are enough.

`cut` stops at the first separator and keeps what follows it whole. `pieces`
goes on to the end. They agree: the first piece is what `cut` leaves in front,
and the remaining pieces are those of what `cut` leaves behind
(`pieces_eq_cut`). A text is never lost by either, since joining the pieces
with the separator gives it back (`join_pieces`).

A text is the list of its code points. Its order is the one lists of
characters have, code point by code point with a proper beginning first, which
is also the order of the bytes that encode it.

## Main definitions

* `Text`: A text as a list of code points.
* `cut`: What stands before the first separator, and what stands after it.
* `pieces`: The pieces between separators, of which there is at least one.
* `join`: The pieces with a separator between neighbours.

## Theorems

* `pieces_ne_nil`: There is always a first piece.
* `pieces_eq_cut`: Splitting everywhere is cutting again and again.
* `join_pieces`: Joining the pieces gives the text back.
* `sep_not_mem_of_mem_pieces`: No piece holds the separator.
* `not_mem_cut`: Nor does what stands before the first one.
* `pieces_eq_of_not_mem`: A text without the separator is a single piece.
-/

namespace PackageIndex

/-- A text is the list of its code points. -/
abbrev Text := List Char

namespace Text

/-- The part before the first separator, and the part after it if there is
    one. -/
def cut (sep : Char) : Text → Text × Option Text
  | [] => ([], none)
  | c :: rest =>
    if c = sep then ([], some rest)
    else
      let (front, back) := cut sep rest
      (c :: front, back)

/-- The pieces between separators. A text without a separator is its own
    single piece, the empty text included. -/
def pieces (sep : Char) : Text → List Text
  | [] => [[]]
  | c :: rest =>
    if c = sep then [] :: pieces sep rest
    else
      match pieces sep rest with
      | [] => [[c]]
      | first :: others => (c :: first) :: others

/-- The pieces one after the other, with a separator between neighbours. -/
def join (sep : Text) : List Text → Text
  | [] => []
  | [piece] => piece
  | piece :: next :: others => piece ++ sep ++ join sep (next :: others)

/-- There is always a first piece. -/
theorem pieces_ne_nil (sep : Char) (s : Text) : pieces sep s ≠ [] := by
  cases s with
  | nil => simp [pieces]
  | cons c rest =>
    rw [pieces]
    split
    · simp
    · split <;> simp

/-- Splitting everywhere is cutting again and again. -/
theorem pieces_eq_cut (sep : Char) (s : Text) :
    pieces sep s = (cut sep s).1 :: ((cut sep s).2.map (pieces sep)).getD [] := by
  induction s with
  | nil => simp [pieces, cut]
  | cons c rest ih =>
    by_cases h : c = sep
    · simp [pieces, cut, h]
    · simp [pieces, cut, h, ih]

/-- Joining the pieces gives the text back. -/
theorem join_pieces (sep : Char) (s : Text) : join [sep] (pieces sep s) = s := by
  induction s with
  | nil => simp [pieces, join]
  | cons c rest ih =>
    obtain ⟨first, others, hp⟩ := List.exists_cons_of_ne_nil (pieces_ne_nil sep rest)
    rw [hp] at ih
    by_cases h : c = sep
    -- A separator puts an empty piece in front of those of the rest.
    · simp [pieces, h, hp, join, ih]
    -- Any other character goes in front of the first piece of the rest.
    · cases others with
      | nil =>
        simp only [join] at ih
        simp [pieces, h, hp, join, ih]
      | cons next others =>
        rw [pieces, if_neg h, hp, ← ih]
        simp [join]

/-- No piece holds the separator. -/
theorem sep_not_mem_of_mem_pieces (sep : Char) (s : Text) :
    ∀ piece ∈ pieces sep s, sep ∉ piece := by
  induction s with
  | nil => simp [pieces]
  | cons c rest ih =>
    obtain ⟨first, others, hp⟩ := List.exists_cons_of_ne_nil (pieces_ne_nil sep rest)
    rw [hp] at ih
    by_cases h : c = sep
    · simpa [pieces, h, hp] using ih
    · have hne : sep ≠ c := fun hc => h hc.symm
      simp only [List.mem_cons, forall_eq_or_imp] at ih
      simp [pieces, h, hp, hne, ih.1]
      exact ih.2

/-- What stands before the first separator does not hold it. -/
theorem not_mem_cut (sep : Char) (s : Text) : sep ∉ (cut sep s).1 := by
  induction s with
  | nil => simp [cut]
  | cons c rest ih =>
    rw [cut]
    split
    · simp
    · rename_i h
      simp only [List.mem_cons, not_or]
      exact ⟨fun hc => h hc.symm, ih⟩

/-- A text without the separator is left whole in front. -/
theorem cut_eq_of_not_mem {sep : Char} {s : Text} (h : sep ∉ s) : cut sep s = (s, none) := by
  induction s with
  | nil => rfl
  | cons c rest ih =>
    simp only [List.mem_cons, not_or] at h
    rw [cut, if_neg (fun hc => h.1 hc.symm), ih h.2]

/-- A text without the separator is a single piece. -/
theorem pieces_eq_of_not_mem {sep : Char} {s : Text} (h : sep ∉ s) : pieces sep s = [s] := by
  simp [pieces_eq_cut, cut_eq_of_not_mem h]

/-- What stands after the first separator is from the text. -/
theorem mem_of_mem_cut {sep c : Char} {s back : Text} (h : (cut sep s).2 = some back)
    (hc : c ∈ back) : c ∈ s := by
  induction s with
  | nil => simp [cut] at h
  | cons d rest ih =>
    rw [cut] at h
    split at h
    · simp only [Option.some.injEq] at h
      exact List.mem_cons_of_mem _ (h ▸ hc)
    · exact List.mem_cons_of_mem _ (ih h)

end Text

end PackageIndex
