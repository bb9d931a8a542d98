import Mathlib.Data.List.Nodup
import PackageIndex.Proofs.Revision.History
import PackageIndex.Proofs.Revision.Kept

/-!
# Ledgers That Hold an Identifier Twice

A ledger that began empty never holds an identifier twice. One that was read
may, because nothing is checked when it is read. Looking up then finds the
oldest revision of that name, and the latest revision is another one.

How often an identifier occurs is all that has to be followed. Adding takes one
occurrence out and puts one at the end, or does nothing where there is one at
the end, so either way no identifier becomes more frequent than it was, unless
it was not there (`count_add`). Removing takes one occurrence out
(`count_remove`). So an identifier that was read a number of times is single
again as soon as it was removed often enough, and from then on it stays single
(`count_run_le_one_iff`).

That an identifier is single is also what lookups need to be consistent with
each other. If every identifier is gone after it was removed once, then none
occurs twice, so the two say the same (`nodup_iff_consistent`).

## Main definitions

* `Ledger.Consistent`: Looking up, adding and removing agree with each other.

## Theorems

* `count_add`, `count_remove`: How often an identifier occurs after one call.
* `count_run_le_one_iff`: When an identifier is single after calls.
* `nodup_iff_consistent`: Lookups agree exactly if no identifier occurs twice.
* `run_nodup_iff`: When no identifier occurs twice after calls.
* `not_nodup_of_read`: A ledger that is read with an identifier twice.
-/

namespace PackageIndex

namespace Ledger

/-- Looking up, adding and removing agree with each other: the latest revision
    is found under its identifier, a revision that was added is the latest and
    is found, and one that was removed is not. -/
structure Consistent (l : Ledger) : Prop where
  latest : ∀ r, l.latest? = some r → l.time? r.id = some r.time
  added : ∀ id time, ∃ r, (l.add id time).latest? = some r ∧ r.id = id ∧
    (l.add id time).time? id = some r.time
  removed : ∀ id, (l.remove id).time? id = none

theorem time?_eq_none_iff (l : Ledger) (id : Text) : l.time? id = none ↔ id ∉ l.ids := by
  simp [time?, find?, ids]

theorem isLatest_iff (l : Ledger) (id : Text) :
    l.isLatest id = true ↔ ∃ r, l.latest? = some r ∧ r.id = id := by
  rw [isLatest]
  cases l.latest? <;> simp

theorem count_remove (l : Ledger) (id x : Text) :
    (l.remove id).ids.count x = l.ids.count x - if id = x then 1 else 0 := by
  rw [ids_remove_eq_erase, List.count_erase]
  simp

theorem count_add (l : Ledger) (id x : Text) (time : Binary64) :
    (l.add id time).ids.count x = if id = x then max (l.ids.count x) 1 else l.ids.count x := by
  rw [ids_add, ← isLatest_eq]
  by_cases hlatest : l.isLatest id = true
  · rw [if_pos hlatest]
    by_cases hx : id = x
    · -- What is the latest occurs at least once.
      rcases (l.isLatest_iff id).mp hlatest with ⟨r, hr, hid⟩
      have hmem : x ∈ l.ids := by
        rw [← hx, ← hid]
        exact mem_ids_of_mem (List.mem_of_getLast? hr)
      have hpos := List.count_pos_iff.mpr hmem
      rw [if_pos hx]
      omega
    · rw [if_neg hx]
  · rw [if_neg hlatest, ← List.erase_eq_eraseP', List.count_append, List.count_erase]
    by_cases hx : id = x
    · simp only [hx, beq_self_eq_true, if_true, List.count_singleton_self]
      omega
    · simp [hx]

/-- An identifier is single after calls exactly if it was removed often enough,
    wherever among the calls. -/
theorem count_run_le_one_iff (l : Ledger) (history : List Change) (x : Text) :
    (l.run history).ids.count x ≤ 1 ↔ l.ids.count x ≤ history.count (.remove x) + 1 := by
  induction history generalizing l with
  | nil => rfl
  | cons c history ih =>
      change ((l.change c).run history).ids.count x ≤ 1 ↔ _
      rw [ih]
      cases c with
      | add id time =>
          -- At most one occurrence is as good as none.
          have hcount : (l.change (.add id time)).ids.count x =
              if id = x then max (l.ids.count x) 1 else l.ids.count x := l.count_add id x time
          have hother : (Change.add id time :: history).count (.remove x) =
              history.count (.remove x) := List.count_cons_of_ne (by simp)
          rw [hcount, hother]
          split <;> omega
      | remove id =>
          have hcount : (l.change (.remove id)).ids.count x =
              l.ids.count x - if id = x then 1 else 0 := l.count_remove id x
          rw [hcount, List.count_cons]
          by_cases hx : id = x
          · simp only [hx, if_true, beq_self_eq_true]
            omega
          · simp [hx]

theorem nodup_add {l : Ledger} (hl : l.ids.Nodup) (id : Text) (time : Binary64) :
    (l.add id time).ids.Nodup := by
  rw [List.nodup_iff_count_le_one] at hl ⊢
  intro x
  have hx := hl x
  rw [count_add]
  split <;> omega

/-- A revision that was added is the latest, whether or not it was before. -/
theorem latest?_add (l : Ledger) (id : Text) (time : Binary64) :
    ∃ r, (l.add id time).latest? = some r ∧ r.id = id := by
  by_cases hlatest : l.isLatest id = true
  · rw [add, if_pos hlatest]
    exact (l.isLatest_iff id).mp hlatest
  · refine ⟨⟨id, time⟩, ?_, rfl⟩
    rw [add, if_neg hlatest, latest?, List.getLast?_concat]

theorem Consistent.of_nodup {l : Ledger} (hl : l.ids.Nodup) : l.Consistent where
  latest r hr := time?_of_mem hl (List.mem_of_getLast? hr)
  added id time := by
    rcases l.latest?_add id time with ⟨r, hr, hid⟩
    refine ⟨r, hr, hid, ?_⟩
    rw [← hid]
    exact time?_of_mem (nodup_add hl r.id time) (List.mem_of_getLast? (hid ▸ hr))
  removed id := by
    rw [time?_eq_none_iff, ids_remove_eq_erase]
    exact hl.not_mem_erase

theorem nodup_iff_consistent (l : Ledger) : l.ids.Nodup ↔ l.Consistent := by
  refine ⟨Consistent.of_nodup, fun h => List.nodup_iff_count_le_one.mpr fun x => ?_⟩
  -- What is gone after one removal was there once at most.
  have hgone := (time?_eq_none_iff _ x).mp (h.removed x)
  rw [← List.count_eq_zero, count_remove, if_pos rfl] at hgone
  omega

/-- No identifier occurs twice after calls on a ledger exactly if each one was
    removed as often as it occurred to begin with, but for one time, and that is
    exactly when lookups agree with each other. It always is if the ledger began
    empty or with no identifier twice. -/
theorem run_nodup_iff (l : Ledger) (history : List Change) :
    ((l.run history).ids.Nodup ↔ ∀ id, l.ids.count id ≤ history.count (.remove id) + 1) ∧
      ((l.run history).ids.Nodup ↔ (l.run history).Consistent) ∧
      (l = empty ∨ l.ids.Nodup → (l.run history).ids.Nodup) := by
  have hcount : (l.run history).ids.Nodup ↔
      ∀ id, l.ids.count id ≤ history.count (.remove id) + 1 := by
    rw [List.nodup_iff_count_le_one]
    exact forall_congr' fun id => l.count_run_le_one_iff history id
  refine ⟨hcount, nodup_iff_consistent _, fun hl => hcount.mpr fun id => ?_⟩
  have hnodup : l.ids.Nodup := by
    rcases hl with rfl | hl
    · exact List.nodup_nil
    · exact hl
  have hid := List.nodup_iff_count_le_one.mp hnodup id
  omega

/-- A ledger that is read with an identifier twice. The latest revision is not
    the one that is found, not even when it is added once more, and removing it
    leaves a revision of that name. -/
theorem not_nodup_of_read :
    ∃ l, read ("\x7b\"revisions\":[\x7b\"revision\":\"a\",\"time\":1.0\x7d," ++
        "\x7b\"revision\":\"b\",\"time\":2.0\x7d,\x7b\"revision\":\"a\",\"time\":3.0\x7d]\x7d").toList =
        .ok l ∧
      ¬l.ids.Nodup ∧ l.time? ['a'] ≠ l.latest?.map (·.time) ∧
      (l.add ['a'] .one).time? ['a'] ≠ (l.add ['a'] .one).latest?.map (·.time) ∧
      (l.remove ['a']).time? ['a'] ≠ none := by
  refine ⟨⟨[⟨['a'], .one⟩, ⟨['b'], .nearest false (2 * unitsOfOne) 1⟩,
    ⟨['a'], .nearest false (3 * unitsOfOne) 1⟩]⟩, ?_, by decide +kernel, by decide +kernel,
    by decide +kernel, by decide +kernel⟩
  decide +kernel

end Ledger

end PackageIndex
