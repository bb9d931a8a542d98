import PackageIndex.Text.Basic

/-!
# Blank Characters

A range is written with blanks between its parts, and a revision list that is
all blank counts as empty. What is blank is the white-space property of the
character standard: twenty-five code points, of which the library's own test
on characters knows only four. They are kept as ranges of code points, in
ascending order.

## Main definitions

* `blankRanges`: The code points of the white-space property, as ranges.
* `isBlank`: Membership in that property.
* `words`: The longest runs of characters that are not blank.
* `trim`: A text without the blanks at either end.

## Theorems

* `isBlank_of_isWhitespace`: The property extends the library's own test.
* `words_no_blank`: A word holds no blank.
* `nil_not_mem_words`: No word is empty.
-/

namespace PackageIndex

namespace Text

/-- The code points of the white-space property, as first and last of each
    run. -/
def blankRanges : List (Nat × Nat) :=
  [(0x9, 0xD), (0x20, 0x20), (0x85, 0x85), (0xA0, 0xA0), (0x1680, 0x1680), (0x2000, 0x200A),
    (0x2028, 0x2029), (0x202F, 0x202F), (0x205F, 0x205F), (0x3000, 0x3000)]

/-- Whether a character has the white-space property. -/
def isBlank (c : Char) : Bool :=
  blankRanges.any fun (first, last) => first ≤ c.toNat && c.toNat ≤ last

/-- The longest runs of characters that are not blank, with the run in front
    of the text given as it stands so far. -/
def wordsFrom (run : Text) : Text → List Text
  | [] => if run.isEmpty then [] else [run]
  | c :: rest =>
    if isBlank c then
      if run.isEmpty then wordsFrom [] rest else run :: wordsFrom [] rest
    else wordsFrom (run ++ [c]) rest

/-- The longest runs of characters that are not blank, in order. -/
def words (s : Text) : List Text := wordsFrom [] s

/-- A text without the blanks at its beginning and at its end. -/
def trim (s : Text) : Text :=
  ((s.dropWhile isBlank).reverse.dropWhile isBlank).reverse

/-- The property extends the library's own test on characters. -/
theorem isBlank_of_isWhitespace (c : Char) (h : c.isWhitespace = true) : isBlank c = true := by
  simp only [Char.isWhitespace, Bool.or_eq_true, decide_eq_true_eq] at h
  rcases h with ((rfl | rfl) | rfl) | rfl <;> decide

/-- A word holds no blank. -/
theorem words_no_blank (s : Text) : ∀ word ∈ words s, ∀ c ∈ word, isBlank c = false := by
  have key : ∀ (s run : Text), (∀ c ∈ run, isBlank c = false) →
      ∀ word ∈ wordsFrom run s, ∀ c ∈ word, isBlank c = false := by
    intro s
    induction s with
    | nil =>
      intro run hrun word hword
      rw [wordsFrom] at hword
      split at hword
      · simp at hword
      · rw [List.mem_singleton.1 hword]
        exact hrun
    | cons c rest ih =>
      intro run hrun word hword
      rw [wordsFrom] at hword
      split at hword
      -- A blank ends the run, which is a word if there is anything in it.
      · split at hword
        · exact ih [] (by simp) word hword
        · rcases List.mem_cons.1 hword with rfl | hw
          · exact hrun
          · exact ih [] (by simp) word hw
      -- Any other character goes on with the run, which still holds no blank.
      · rename_i hc
        refine ih (run ++ [c]) ?_ word hword
        intro d hd
        rcases List.mem_append.1 hd with h | h
        · exact hrun d h
        · rw [List.mem_singleton.1 h]
          simpa using hc
  exact key s [] (by simp)

/-- No word is empty. -/
theorem nil_not_mem_words (s : Text) : [] ∉ words s := by
  have key : ∀ s run : Text, [] ∉ wordsFrom run s := by
    intro s
    induction s with
    | nil =>
      intro run hmem
      rw [wordsFrom] at hmem
      split at hmem
      · simp at hmem
      · rename_i hrun
        exact hrun (by simp [← List.mem_singleton.1 hmem])
    | cons c rest ih =>
      intro run hmem
      rw [wordsFrom] at hmem
      split at hmem
      · split at hmem
        · exact ih [] hmem
        · rename_i hrun
          rcases List.mem_cons.1 hmem with h | h
          · exact hrun (by simp [← h])
          · exact ih [] h
      · exact ih _ hmem
  exact key s []

end Text

end PackageIndex
