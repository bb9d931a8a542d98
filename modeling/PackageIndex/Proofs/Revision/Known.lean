import PackageIndex.Proofs.Revision.Apart
import PackageIndex.Proofs.Revision.Runs

/-!
# Known References

A store knows a reference from the first time something is written under it,
and it never forgets one. Writing is recording a revision, or putting a ledger
there that can be read. It does not matter what comes of it. A clock that fails
breaks the lock of a ledger that is there by then, and what is refused was known
before (`Refuses.mem_references`). Removing is no writing, even though it puts a
text back: it does so only where there was one.

So one operation adds at most the reference it writes under and takes none away
(`mem_references_step_iff`). What a run adds up to is the references that one of
its operations writes under (`mem_references_run_iff`), and everything a store
tells about which references it knows agrees with that (`known_iff_written`).

## Main definitions

* `Request.Writes`: An operation writes something under a reference.

## Theorems

* `mem_references_step_iff`: Which references one operation leaves.
* `mem_references_run_iff`: Which references a run leaves.
* `known_iff_written`: What a store tells about the references it knows.
-/

namespace PackageIndex

/-- An operation writes something under a reference: a revision, or a ledger
    that can be read. -/
inductive Request.Writes (reference : Text) : Request → Prop
  | add (id : Text) : Writes reference (.add reference id)
  | replace {contents : Text} {l : Ledger} (hread : Ledger.read contents = .ok l) :
      Writes reference (.replace reference contents)

namespace Request

variable {request : Request} {reference other : Text}

theorem writes_add_iff (id : Text) : (add reference id).Writes other ↔ other = reference := by
  constructor
  · rintro ⟨⟩
    rfl
  · rintro rfl
    exact .add id

theorem writes_replace_iff {contents : Text} {l : Ledger} (hread : Ledger.read contents = .ok l) :
    (replace reference contents).Writes other ↔ other = reference := by
  constructor
  · rintro ⟨⟩
    rfl
  · rintro rfl
    exact .replace hread

theorem Writes.reference?_eq (hwrites : request.Writes reference) :
    request.reference? = some reference := by
  cases hwrites with
  | add id => rfl
  | replace hread => rfl

theorem Writes.asks_eq_false (hwrites : request.Writes reference) : request.asks = false := by
  cases hwrites with
  | add id => rfl
  | replace hread => rfl

end Request

namespace Store

variable {s : Store} {reference other : Text}

theorem mem_references_of_holding? {h : Holding} (hheld : s.holding? reference = some h) :
    reference ∈ s.references := by
  rw [mem_references_iff, hheld, Option.isSome_some]

theorem mem_references_put (s : Store) (reference other : Text) (h : Holding) :
    other ∈ (s.put reference h).references ↔ other ∈ s.references ∨ other = reference := by
  rw [mem_references_iff, mem_references_iff, holding?_put]
  by_cases hother : other = reference
  · simp [hother]
  · simp [hother]

/-- What is refused was going to write under a reference that is known. -/
theorem Refuses.mem_references {request : Request} {fault : StoreFault}
    (hrefuses : s.Refuses request fault) (hwrites : request.Writes reference) :
    reference ∈ s.references := by
  cases hrefuses with
  | contents hfault =>
      cases hwrites with
      | replace hread => exact absurd (hfault.symm.trans hread) (by simp)
  | ledger haccepted hreference hheld hread =>
      rw [hwrites.reference?_eq] at hreference
      cases hreference
      exact mem_references_of_holding? hheld

/-- An unknown reference has no text, and a known one has some text or is
    refused. -/
theorem written_eq_none_iff (s : Store) (reference : Text) :
    s.written reference = .ok none ↔ reference ∉ s.references := by
  rw [mem_references_iff, written]
  cases hheld : s.holding? reference with
  | none => simp
  | some h =>
      refine iff_of_false (fun hnone => ?_) (by simp)
      cases hread : h.ledger with
      | error fault =>
          simp only [hread] at hnone
          exact absurd hnone (by simp [Except.map])
      | ok l =>
          simp only [hread] at hnone
          exact absurd hnone (by simp [Except.map])

end Store

namespace Session

variable {clock : Nat → Reading} {t : Session} {request : Request} {reference : Text}

/-- An operation adds the reference it writes under and takes none away. -/
theorem mem_references_step_iff (clock : Nat → Reading) (t : Session) (request : Request)
    (reference : Text) :
    reference ∈ (t.step clock request).1.store.references ↔
      reference ∈ t.store.references ∨ request.Writes reference := by
  have hdoes := step_does clock t request
  generalize t.step clock request = out at hdoes
  cases hdoes with
  | refused hrefuses => exact (or_iff_left_of_imp hrefuses.mem_references).symm
  | broke hread hclock => rw [Store.mem_references_put, Request.writes_add_iff]
  | added hread hclock => rw [Store.mem_references_put, Request.writes_add_iff]
  | @removed other id h l hheld hread =>
      -- The text is put back where there was one.
      have hknown := Store.mem_references_of_holding? hheld
      rw [Store.mem_references_put, or_iff_left_of_imp fun hsame => hsame ▸ hknown]
      exact (or_iff_left (by rintro ⟨⟩)).symm
  | replaced hcontents hread =>
      rw [Store.mem_references_put, Request.writes_replace_iff hcontents]
  | absent hheld => exact (or_iff_left (by rintro ⟨⟩)).symm
  | told hasks =>
      refine (or_iff_left fun hwrites => ?_).symm
      exact absurd hasks (by simp [hwrites.asks_eq_false])

theorem mem_references_run_iff (clock : Nat → Reading) (t : Session) (requests : List Request)
    (reference : Text) :
    reference ∈ (t.run clock requests).1.store.references ↔
      reference ∈ t.store.references ∨ ∃ request ∈ requests, request.Writes reference := by
  rw [← meets_iff_exists_mem clock t]
  exact run_iff_of_step clock (P := fun t => reference ∈ t.store.references)
    (fun t request => mem_references_step_iff clock t request reference) t requests

/-- After any run the references a store lists are ascending, and they are those
    that something was written under. They are the ones that have a text, or are
    refused. No further operation takes one of them away, and one that does not
    write adds none. -/
theorem known_iff_written (clock : Nat → Reading) (history : List Request) :
    ((after clock history).step clock .references).2 =
        .ok (.references (after clock history).store.references) ∧
      (after clock history).store.references.Pairwise
        (fun reference other => compare reference other = .lt) ∧
      (∀ reference, reference ∈ (after clock history).store.references ↔
        ∃ request ∈ history, request.Writes reference) ∧
      (∀ reference, ((after clock history).step clock (.written reference)).2 = .ok (.text none) ↔
        reference ∉ (after clock history).store.references) ∧
      ∀ request reference,
        reference ∈ ((after clock history).step clock request).1.store.references ↔
          reference ∈ (after clock history).store.references ∨ request.Writes reference := by
  refine ⟨rfl, Catalog.ascending_names _, fun reference => ?_, fun reference => ?_,
    mem_references_step_iff clock _⟩
  · rw [after, mem_references_run_iff]
    exact or_iff_right List.not_mem_nil
  · rw [← Store.written_eq_none_iff]
    simp only [step]
    cases (after clock history).store.written reference with
    | error fault => simp [Except.map]
    | ok text => simp [Except.map]

end Session

end PackageIndex
