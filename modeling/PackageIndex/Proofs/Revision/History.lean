import Mathlib.Data.List.Induction
import Mathlib.Data.List.Nodup
import Mathlib.Data.List.Perm.Basic
import PackageIndex.Proofs.Revision.Shelf

/-!
# What a Ledger Remembers

A ledger that began empty is what it is because of the calls that were made on
it, and it can be read off these calls without going through the ledgers in
between. A revision is there if it was added after its last removal. Revisions
stand in the order of their last additions, whether or not these did anything:
adding what is already the latest changes nothing, but it is the latest then, so
its place is right all the same. The time of a revision is that of the last
addition that did something.

Calls are named by their positions in the history, so "last" and "after" are
comparisons of numbers. One call is considered at a time, at the end of a
history (`Recounts.add`, `Recounts.remove`). What an addition does to the
identifiers is the same whether it does anything or not: the identifier is taken
out and put at the end (`ids_add_of_nodup`), provided that no identifier occurs
twice.

What is said here of a ledger is all there is to say. Only one ledger answers to
it (`Recounts.unique`).

## Main definitions

* `Ledger.Change`, `Ledger.run`: Calls that change a ledger, one after the other.
* `Ledger.LastAdded`: The position of the last addition of an identifier.
* `Ledger.LastRecorded`: The position of the last addition that did something.
* `Ledger.Stands`: An identifier was added after its last removal.
* `Ledger.Recounts`: A ledger is what a history makes of the empty one.

## Theorems

* `ids_add_of_nodup`: Adding puts an identifier at the end.
* `stands_add`, `stands_remove`: One more call, and who stands after it.
* `Recounts.add`, `Recounts.remove`: One more call, and what the ledger is.
* `Recounts.unique`: A history determines the ledger.
* `run_recounts`: A ledger is what its history says.
-/

namespace PackageIndex

namespace Ledger

/-- A call that changes a ledger. -/
inductive Change where
  | add (id : Text) (time : Binary64)
  | remove (id : Text)
  deriving DecidableEq

/-- A ledger after one call. -/
def change (l : Ledger) : Change → Ledger
  | .add id time => l.add id time
  | .remove id => l.remove id

/-- A ledger after calls one after the other. -/
def run (l : Ledger) (history : List Change) : Ledger := history.foldl change l

theorem run_concat (l : Ledger) (history : List Change) (c : Change) :
    l.run (history ++ [c]) = (l.run history).change c := by
  rw [run, List.foldl_append, run]
  rfl

/-- An identifier is added at a position of a history. -/
def AddedAt (history : List Change) (id : Text) (k : Nat) : Prop :=
  ∃ time, history[k]? = some (.add id time)

/-- An identifier is removed at a position of a history. -/
def RemovedAt (history : List Change) (id : Text) (k : Nat) : Prop :=
  history[k]? = some (.remove id)

/-- The last addition of an identifier is at a position, whether it did anything
    or not. -/
def LastAdded (history : List Change) (id : Text) (k : Nat) : Prop :=
  AddedAt history id k ∧ ∀ j, k < j → ¬AddedAt history id j

/-- The last addition of an identifier that was not the latest already is at a
    position, with a time. -/
def LastRecorded (history : List Change) (id : Text) (time : Binary64) (k : Nat) : Prop :=
  history[k]? = some (.add id time) ∧ (empty.run (history.take k)).isLatest id = false ∧
    ∀ j other, k < j → history[j]? = some (.add id other) →
      (empty.run (history.take j)).isLatest id = true

/-- An identifier was added at least once after its last removal. -/
def Stands (history : List Change) (id : Text) : Prop :=
  ∃ k, AddedAt history id k ∧ ∀ j, k < j → ¬RemovedAt history id j

/-- The last addition of one identifier is before that of another. -/
def Before (history : List Change) (older newer : Text) : Prop :=
  ∃ j k, LastAdded history older j ∧ LastAdded history newer k ∧ j < k

/-- A ledger is what a history makes of the empty one. No identifier occurs
    twice, and there are those that were added after their last removal. They
    stand in the order of their last additions. Times are those of the last
    additions of what was not the latest already. -/
structure Recounts (history : List Change) (l : Ledger) : Prop where
  nodup : l.ids.Nodup
  mem_ids_iff : ∀ id, id ∈ l.ids ↔ Stands history id
  ordered : l.ids.Pairwise (Before history)
  times : ∀ r ∈ l.revisions, l.time? r.id = some r.time ∧ ∃ k, LastRecorded history r.id r.time k

section Positions

variable {history : List Change} {c : Change} {id x : Text} {time : Binary64} {k : Nat}

/-- A call of a longer history is one of the shorter, or the one at the end. -/
theorem getElem?_concat_iff (d : Change) :
    (history ++ [c])[k]? = some d ↔ history[k]? = some d ∨ k = history.length ∧ c = d := by
  rcases Nat.lt_trichotomy k history.length with hk | rfl | hk
  · rw [List.getElem?_append_left hk]
    exact ⟨Or.inl, fun h => h.resolve_right fun h => by omega⟩
  · rw [List.getElem?_concat_length, List.getElem?_eq_none (Nat.le_refl _)]
    simp
  · rw [List.getElem?_eq_none (by simp; omega), List.getElem?_eq_none (by omega)]
    simp only [reduceCtorEq, false_or, false_iff]
    omega

theorem lt_of_getElem? {d : Change} (h : history[k]? = some d) : k < history.length :=
  (List.getElem?_eq_some_iff.mp h).1

theorem addedAt_concat :
    AddedAt (history ++ [c]) x k ↔
      AddedAt history x k ∨ k = history.length ∧ ∃ time, c = .add x time := by
  simp only [AddedAt, getElem?_concat_iff, exists_or, exists_and_left]

theorem removedAt_concat :
    RemovedAt (history ++ [c]) x k ↔
      RemovedAt history x k ∨ k = history.length ∧ c = .remove x := by
  rw [RemovedAt, getElem?_concat_iff, RemovedAt]

theorem AddedAt.lt (h : AddedAt history x k) : k < history.length := by
  rcases h with ⟨time, h⟩
  exact lt_of_getElem? h

/-- What was added at all was added a last time. -/
theorem AddedAt.exists_last (h : AddedAt history x k) : ∃ j, LastAdded history x j := by
  induction history using List.reverseRecOn generalizing k with
  | nil => exact absurd h.lt (Nat.not_lt_zero k)
  | append_singleton history c ih =>
      by_cases hc : ∃ time, c = .add x time
      · refine ⟨history.length, addedAt_concat.mpr (Or.inr ⟨rfl, hc⟩), fun j hj hadded => ?_⟩
        rcases addedAt_concat.mp hadded with hadded | hadded
        · exact absurd hadded.lt (by omega)
        · omega
      · -- The call at the end is no addition, so the last one is further in front.
        rcases ih ((addedAt_concat.mp h).resolve_right fun h => hc h.2) with ⟨j, hlast⟩
        refine ⟨j, addedAt_concat.mpr (Or.inl hlast.1), fun i hi hadded => ?_⟩
        exact hlast.2 i hi ((addedAt_concat.mp hadded).resolve_right fun h => hc h.2)

theorem LastAdded.unique {j : Nat} (hj : LastAdded history x j) (hk : LastAdded history x k) :
    j = k := by
  rcases Nat.lt_trichotomy j k with h | h | h
  · exact absurd hk.1 (hj.2 k h)
  · exact h
  · exact absurd hj.1 (hk.2 j h)

/-- An addition at the end is the last one of its identifier. -/
theorem lastAdded_concat_self : LastAdded (history ++ [.add id time]) id history.length := by
  refine ⟨addedAt_concat.mpr (Or.inr ⟨rfl, time, rfl⟩), fun j hj hadded => ?_⟩
  rcases addedAt_concat.mp hadded with hadded | hadded
  · exact absurd hadded.lt (by omega)
  · omega

/-- Another call at the end does not change which addition was the last. -/
theorem LastAdded.concat (h : LastAdded history x k) (hc : ∀ time, c ≠ .add x time) :
    LastAdded (history ++ [c]) x k := by
  refine ⟨addedAt_concat.mpr (Or.inl h.1), fun j hj hadded => ?_⟩
  rcases addedAt_concat.mp hadded with hadded | ⟨-, time, hadded⟩
  · exact h.2 j hj hadded
  · exact hc time hadded

theorem Before.concat {older newer : Text} (h : Before history older newer)
    (holder : ∀ time, c ≠ .add older time) (hnewer : ∀ time, c ≠ .add newer time) :
    Before (history ++ [c]) older newer := by
  rcases h with ⟨j, k, hj, hk, hlt⟩
  exact ⟨j, k, hj.concat holder, hk.concat hnewer, hlt⟩

/-- An addition at the end is behind those of all other identifiers. -/
theorem before_concat_self (hx : x ≠ id) (hadded : AddedAt history x k) :
    Before (history ++ [.add id time]) x id := by
  rcases hadded.exists_last with ⟨j, hlast⟩
  refine ⟨j, history.length, hlast.concat fun other h => ?_, lastAdded_concat_self, hlast.1.lt⟩
  exact hx (Change.add.inj h).1.symm

/-- An addition at the end that does something is the last such. -/
theorem lastRecorded_concat_self (h : (empty.run history).isLatest id = false) :
    LastRecorded (history ++ [.add id time]) id time history.length := by
  refine ⟨(getElem?_concat_iff _).mpr (Or.inr ⟨rfl, rfl⟩), ?_, fun j other hj hget => ?_⟩
  · rwa [List.take_append_of_le_length (Nat.le_refl _), List.take_length]
  · have hlt := lt_of_getElem? hget
    rw [List.length_append, List.length_singleton] at hlt
    omega

/-- A call at the end that does not record an identifier anew does not change
    which addition recorded it last. -/
theorem LastRecorded.concat (h : LastRecorded history x time k)
    (hc : ∀ other, c = .add x other → (empty.run history).isLatest x = true) :
    LastRecorded (history ++ [c]) x time k := by
  rcases h with ⟨hget, hlatest, hlast⟩
  have hk := lt_of_getElem? hget
  refine ⟨(getElem?_concat_iff _).mpr (Or.inl hget), ?_, fun j other hj hadd => ?_⟩
  · rwa [List.take_append_of_le_length (Nat.le_of_lt hk)]
  · rcases (getElem?_concat_iff _).mp hadd with hfront | ⟨rfl, hend⟩
    · rw [List.take_append_of_le_length (Nat.le_of_lt (lt_of_getElem? hfront))]
      exact hlast j other hj hfront
    · rw [List.take_append_of_le_length (Nat.le_refl _), List.take_length]
      exact hc other hend

theorem LastRecorded.unique {other : Binary64} {j : Nat} (hj : LastRecorded history x time j)
    (hk : LastRecorded history x other k) : time = other := by
  rcases hj with ⟨hgetj, hlatestj, hlastj⟩
  rcases hk with ⟨hgetk, hlatestk, hlastk⟩
  -- Behind the last addition that did something there is none that did.
  rcases Nat.lt_trichotomy j k with h | rfl | h
  · rw [hlastj k other h hgetk] at hlatestk
    exact absurd hlatestk (by simp)
  · rw [hgetj] at hgetk
    exact (Change.add.inj (Option.some.inj hgetk)).2
  · rw [hlastk j time h hgetj] at hlatestj
    exact absurd hlatestj (by simp)

theorem Stands.exists_addedAt (h : Stands history x) : ∃ k, AddedAt history x k := by
  rcases h with ⟨k, hadded, -⟩
  exact ⟨k, hadded⟩

/-- After an addition its identifier stands, and so does what stood before. -/
theorem stands_add : Stands (history ++ [.add id time]) x ↔ x = id ∨ Stands history x := by
  have hremoved : ∀ j, RemovedAt (history ++ [.add id time]) x j ↔ RemovedAt history x j := by
    intro j
    simp [removedAt_concat]
  unfold Stands
  simp only [hremoved]
  constructor
  · rintro ⟨k, hadded, hlast⟩
    rcases addedAt_concat.mp hadded with hadded | ⟨-, other, hadded⟩
    · exact Or.inr ⟨k, hadded, hlast⟩
    · exact Or.inl (Change.add.inj hadded).1.symm
  · rintro (rfl | ⟨k, hadded, hlast⟩)
    · -- Nothing is removed behind the end.
      refine ⟨history.length, addedAt_concat.mpr (Or.inr ⟨rfl, time, rfl⟩), fun j hj h => ?_⟩
      exact absurd (lt_of_getElem? h) (by omega)
    · exact ⟨k, addedAt_concat.mpr (Or.inl hadded), hlast⟩

/-- After a removal everything stands that stood before, but its identifier. -/
theorem stands_remove : Stands (history ++ [.remove id]) x ↔ x ≠ id ∧ Stands history x := by
  have hadded : ∀ k, AddedAt (history ++ [.remove id]) x k ↔ AddedAt history x k := by
    intro k
    simp [addedAt_concat]
  unfold Stands
  simp only [hadded]
  constructor
  · rintro ⟨k, hk, hlast⟩
    refine ⟨?_, k, hk, fun j hj h => hlast j hj (removedAt_concat.mpr (Or.inl h))⟩
    -- The removal is behind every addition.
    rintro rfl
    exact hlast history.length hk.lt (removedAt_concat.mpr (Or.inr ⟨rfl, rfl⟩))
  · rintro ⟨hx, k, hk, hlast⟩
    refine ⟨k, hk, fun j hj h => ?_⟩
    rcases removedAt_concat.mp h with h | ⟨-, h⟩
    · exact hlast j hj h
    · exact hx (Change.remove.inj h).symm

end Positions

theorem ids_add_of_nodup {l : Ledger} (hl : l.ids.Nodup) (id : Text) (time : Binary64) :
    (l.add id time).ids = l.ids.erase id ++ [id] := by
  rw [ids_add, ← List.erase_eq_eraseP']
  have hany : l.ids.getLast?.any (· == id) = true ↔ l.ids.getLast? = some id := by
    cases l.ids.getLast? <;> simp
  by_cases hlatest : l.ids.getLast? = some id
  · rw [if_pos (hany.mpr hlatest)]
    -- What is the latest already is at the end, and nowhere else.
    rcases List.getLast?_eq_some_iff.mp hlatest with ⟨front, hfront⟩
    rw [hfront] at hl ⊢
    have hnot : id ∉ front := fun h => (List.nodup_append.mp hl).2.2 id h id List.mem_cons_self rfl
    rw [List.erase_append_right _ hnot, List.erase_cons_head, List.append_nil]
  · rw [if_neg fun h => hlatest (hany.mp h)]

theorem ids_remove_eq_erase (l : Ledger) (id : Text) : (l.remove id).ids = l.ids.erase id := by
  rw [ids_remove, List.erase_eq_eraseP']

theorem mem_ids_of_mem {l : Ledger} {r : Revision} (h : r ∈ l.revisions) : r.id ∈ l.ids :=
  List.mem_map_of_mem h

/-- If no identifier occurs twice, removing one takes out all that have it. -/
theorem mem_remove {l : Ledger} (hl : l.ids.Nodup) {id : Text} {r : Revision}
    (hr : r ∈ (l.remove id).revisions) : r.id ≠ id ∧ r ∈ l.revisions := by
  have hmem := mem_ids_of_mem hr
  rw [ids_remove_eq_erase, hl.mem_erase_iff] at hmem
  exact ⟨hmem.1, List.mem_of_mem_eraseP hr⟩

theorem time?_of_mem {l : Ledger} (hl : l.ids.Nodup) {r : Revision} (hr : r ∈ l.revisions) :
    l.time? r.id = some r.time := by
  rcases l with ⟨revisions⟩
  have hfind : revisions.find? (·.id == r.id) = some r := by
    induction revisions with
    | nil => exact absurd hr List.not_mem_nil
    | cons s revisions ih =>
        -- No revision in front of the one in question has its identifier.
        have hcons := List.nodup_cons.mp hl
        rcases List.mem_cons.mp hr with rfl | hr
        · rw [List.find?_cons_of_pos (by simp)]
        · have hne : s.id ≠ r.id := fun h => hcons.1 (List.mem_map.mpr ⟨r, hr, h.symm⟩)
          rw [List.find?_cons_of_neg (by simpa using hne)]
          exact ih hcons.2 hr
  rw [time?, find?, hfind]
  rfl

namespace Recounts

variable {history : List Change} {id : Text} {time : Binary64}

theorem nil : Recounts [] empty where
  nodup := List.nodup_nil
  mem_ids_iff id := by
    refine iff_of_false List.not_mem_nil fun h => ?_
    rcases h.exists_addedAt with ⟨k, hadded⟩
    exact absurd hadded.lt (Nat.not_lt_zero k)
  ordered := List.Pairwise.nil
  times r hr := absurd hr List.not_mem_nil

/-- What stands in a ledger still stands in the same order after a call on
    another identifier. -/
theorem ordered_erase {l : Ledger} {c : Change} (h : Recounts history l)
    (hc : ∀ x other, c = .add x other → x = id) :
    (l.ids.erase id).Pairwise (Before (history ++ [c])) := by
  have hne : ∀ x ∈ l.ids.erase id, ∀ other, c ≠ .add x other := by
    intro x hx other hadd
    exact (h.nodup.mem_erase_iff.mp hx).1 (hc x other hadd)
  refine List.Pairwise.imp_of_mem ?_ (h.ordered.sublist List.erase_sublist)
  intro older newer holder hnewer hbefore
  exact hbefore.concat (hne older holder) (hne newer hnewer)

theorem add (h : Recounts history (empty.run history)) (id : Text) (time : Binary64) :
    Recounts (history ++ [.add id time]) ((empty.run history).add id time) := by
  have hids := ids_add_of_nodup h.nodup id time
  have hmem : ∀ x, x ∈ ((empty.run history).add id time).ids ↔
      x = id ∨ x ∈ (empty.run history).ids := by
    intro x
    rw [hids, List.mem_append, h.nodup.mem_erase_iff, List.mem_singleton]
    by_cases hx : x = id
    · simp [hx]
    · simp [hx]
  have hnodup : ((empty.run history).add id time).ids.Nodup := by
    rw [hids]
    refine List.nodup_append.mpr ⟨h.nodup.erase id, List.nodup_singleton id, ?_⟩
    intro x hx y hy hxy
    rw [List.mem_singleton.mp hy] at hxy
    exact (h.nodup.mem_erase_iff.mp hx).1 hxy
  refine ⟨hnodup, fun x => ?_, ?_, fun r hr => ⟨time?_of_mem hnodup hr, ?_⟩⟩
  · rw [hmem, stands_add, h.mem_ids_iff]
  · rw [hids]
    refine List.pairwise_append.mpr ⟨h.ordered_erase fun x other hadd => ?_,
      List.pairwise_singleton _ _, ?_⟩
    · exact (Change.add.inj hadd).1.symm
    · -- The identifier comes behind all that were added before.
      intro x hx y hy
      rw [List.mem_singleton.mp hy]
      rcases h.nodup.mem_erase_iff.mp hx with ⟨hne, hx⟩
      rcases ((h.mem_ids_iff x).mp hx).exists_addedAt with ⟨k, hadded⟩
      exact before_concat_self hne hadded
  · unfold Ledger.add at hr
    by_cases hlatest : (empty.run history).isLatest id = true
    · -- What is the latest already keeps its time.
      rw [if_pos hlatest] at hr
      rcases (h.times r hr).2 with ⟨k, hk⟩
      refine ⟨k, hk.concat fun other hadd => ?_⟩
      rwa [← (Change.add.inj hadd).1]
    · rw [if_neg hlatest] at hr
      rcases List.mem_append.mp hr with hr | hr
      · -- A revision that stays was not the one that is added.
        rcases mem_remove h.nodup hr with ⟨hne, hr⟩
        rcases (h.times r hr).2 with ⟨k, hk⟩
        exact ⟨k, hk.concat fun other hadd => absurd (Change.add.inj hadd).1.symm hne⟩
      · rw [List.mem_singleton.mp hr]
        exact ⟨history.length, lastRecorded_concat_self (by simpa using hlatest)⟩

theorem remove (h : Recounts history (empty.run history)) (id : Text) :
    Recounts (history ++ [.remove id]) ((empty.run history).remove id) := by
  have hids := ids_remove_eq_erase (empty.run history) id
  have hnodup : ((empty.run history).remove id).ids.Nodup := by
    rw [hids]
    exact h.nodup.erase id
  refine ⟨hnodup, fun x => ?_, ?_, fun r hr => ⟨time?_of_mem hnodup hr, ?_⟩⟩
  · rw [hids, h.nodup.mem_erase_iff, stands_remove, h.mem_ids_iff]
  · rw [hids]
    exact h.ordered_erase fun x other hadd => absurd hadd (by simp)
  · rcases mem_remove h.nodup hr with ⟨-, hr⟩
    rcases (h.times r hr).2 with ⟨k, hk⟩
    exact ⟨k, hk.concat fun other hadd => absurd hadd (by simp)⟩

theorem of_run (history : List Change) : Recounts history (empty.run history) := by
  induction history using List.reverseRecOn with
  | nil => exact nil
  | append_singleton history c ih =>
      -- One step for each kind of call.
      rw [run_concat]
      cases c with
      | add id time => exact ih.add id time
      | remove id => exact ih.remove id

/-- A history determines the ledger. The identifiers are determined by which of
    them stand and by their order, and the times by the identifiers. -/
theorem unique {k l : Ledger} (hk : Recounts history k) (hl : Recounts history l) : k = l := by
  have hids : k.ids = l.ids := by
    have hperm : k.ids.Perm l.ids := (List.perm_ext_iff_of_nodup hk.nodup hl.nodup).mpr fun x => by
      rw [hk.mem_ids_iff, hl.mem_ids_iff]
    refine hperm.eq_of_pairwise (fun x y _ _ hxy hyx => ?_) hk.ordered hl.ordered
    -- Two identifiers are not before each other.
    rcases hxy with ⟨i, j, hi, hj, hlt⟩
    rcases hyx with ⟨j', i', hj', hi', hlt'⟩
    rw [hi.unique hi', hj.unique hj'] at hlt
    exact absurd hlt (by omega)
  -- At each position the identifiers agree, and so do the times.
  rcases k with ⟨ks⟩
  rcases l with ⟨ls⟩
  refine congrArg Ledger.mk (List.ext_getElem ?_ fun i hik hil => ?_)
  · simpa [ids] using congrArg List.length hids
  · have hid : ks[i].id = ls[i].id := by
      have hget := congrArg (fun xs : List Text => xs[i]?) hids
      simpa [ids, hik, hil] using hget
    rcases hk.times ks[i] (List.getElem_mem hik) with ⟨-, j, hj⟩
    rcases hl.times ls[i] (List.getElem_mem hil) with ⟨-, j', hj'⟩
    rw [← hid] at hj'
    have htime := hj.unique hj'
    cases hr : ks[i]
    cases hs : ls[i]
    simp_all

end Recounts

/-- A ledger that began empty can be read off the calls that were made on it. It
    holds what was added after its last removal, in the order of the last
    additions, each with the time of the last addition that found it not to be
    the latest. Listings show the same order from its other end, which is where
    the latest revision is. No other ledger answers to the same description. -/
theorem run_recounts (history : List Change) :
    Recounts history (empty.run history) ∧
      (empty.run history).newestFirst = (empty.run history).revisions.reverse ∧
      ((empty.run history).newestFirst.map (·.id)).Pairwise
        (fun newer older => Before history older newer) ∧
      (empty.run history).latest? = (empty.run history).newestFirst.head? ∧
      ∀ l, Recounts history l ↔ l = empty.run history := by
  have hrun := Recounts.of_run history
  refine ⟨hrun, rfl, ?_, ?_, fun l => ⟨fun hl => hl.unique hrun, fun hl => hl ▸ hrun⟩⟩
  · rw [newestFirst_ids, List.pairwise_reverse]
    exact hrun.ordered
  · rw [latest?, newestFirst, List.head?_reverse]

end Ledger

end PackageIndex
