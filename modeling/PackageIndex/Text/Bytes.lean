import PackageIndex.Text.Basic

/-!
# Lengths in Bytes

The length of a text is also counted in the bytes that encode it, of which a
character takes one to four. A text can be cut at every number of bytes that
does not fall inside a character, and cutting at the length of a beginning
gives that beginning (`cutBytes?_append`).

## Main definitions

* `byteLength`: The number of bytes that encode a text.
* `cutBytes?`: The first bytes of a text, and what follows them.

## Theorems

* `append_of_cutBytes?`: Cutting loses nothing.
* `cutBytes?_append`: A beginning is cut off at its length.
-/

namespace PackageIndex

namespace Text

/-- The number of bytes that encode a text. -/
def byteLength : Text → Nat
  | [] => 0
  | c :: rest => c.utf8Size + byteLength rest

/-- The first bytes of a text and what follows them, unless the text is
    shorter or the place falls inside a character. -/
def cutBytes? (n : Nat) : Text → Option (Text × Text)
  | [] => if n = 0 then some ([], []) else none
  | c :: rest =>
    if n = 0 then some ([], c :: rest)
    else if c.utf8Size ≤ n then
      (cutBytes? (n - c.utf8Size) rest).map fun (front, back) => (c :: front, back)
    else none

/-- Cutting loses nothing. -/
theorem append_of_cutBytes? {n : Nat} {s front back : Text}
    (h : cutBytes? n s = some (front, back)) : front ++ back = s := by
  induction s generalizing n front with
  | nil =>
    rw [cutBytes?] at h
    split at h <;> simp_all
  | cons c rest ih =>
    rw [cutBytes?] at h
    split at h
    · simp_all
    · split at h
      · obtain ⟨⟨f, b⟩, hcut, heq⟩ := Option.map_eq_some_iff.1 h
        simp only [Prod.mk.injEq] at heq
        obtain ⟨rfl, rfl⟩ := heq
        rw [List.cons_append, ih hcut]
      · simp at h

/-- A beginning is cut off at its length. -/
theorem cutBytes?_append (front back : Text) :
    cutBytes? (byteLength front) (front ++ back) = some (front, back) := by
  induction front with
  | nil => cases back <;> simp [cutBytes?, byteLength]
  | cons c rest ih =>
    have hpos := c.utf8Size_pos
    rw [byteLength, List.cons_append, cutBytes?, if_neg (by omega), if_pos (by omega),
      Nat.add_sub_cancel_left, ih]
    rfl

end Text

end PackageIndex
