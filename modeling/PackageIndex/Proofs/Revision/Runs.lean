import PackageIndex.Proofs.Revision.Refinement

/-!
# What Runs Come To

A run is one operation after another, so what holds at its end is put together
from what single operations do. Two ways of putting it together are enough.

Something that no operation takes away is still there at the end
(`run_of_step`). And something that is there after an operation exactly if it
was there before or the operation met some condition is there at the end exactly
if it was there at the start or one operation of the run met that condition
(`run_iff_of_step`). The condition may depend on the state that the operation
finds.

## Main definitions

* `Session.Meets`: One operation of a run meets a condition.
* `Session.after`: Where a run leads that starts with nothing.

## Theorems

* `run_of_step`: What every operation keeps is kept by a run.
* `run_iff_of_step`: What single operations bring about is brought about by a run.
* `meets_iff_exists_mem`: Conditions that do not depend on the state.
-/

namespace PackageIndex

namespace Session

variable {clock : Nat → Reading} {t : Session} {P : Session → Prop}
  {Q : Session → Request → Prop} {request : Request} {requests rest : List Request}

/-- One operation of a run meets a condition, in the state that it finds. -/
def Meets (clock : Nat → Reading) (Q : Session → Request → Prop) (t : Session)
    (requests : List Request) : Prop :=
  ∃ front request back, requests = front ++ request :: back ∧ Q (t.run clock front).1 request

theorem not_meets_nil : ¬t.Meets clock Q [] := by
  rintro ⟨front, request, back, hrequests, -⟩
  exact absurd hrequests.symm (List.append_ne_nil_of_right_ne_nil front (List.cons_ne_nil _ _))

theorem meets_cons_iff :
    t.Meets clock Q (request :: rest) ↔
      Q t request ∨ (t.step clock request).1.Meets clock Q rest := by
  constructor
  · rintro ⟨front, other, back, hrequests, hmeets⟩
    cases front with
    | nil =>
        cases hrequests
        exact Or.inl hmeets
    | cons first front =>
        cases hrequests
        exact Or.inr ⟨front, other, back, rfl, hmeets⟩
  · rintro (hmeets | ⟨front, other, back, rfl, hmeets⟩)
    · exact ⟨[], request, rest, rfl, hmeets⟩
    · exact ⟨request :: front, other, back, rfl, hmeets⟩

theorem meets_iff_exists_mem (clock : Nat → Reading) (t : Session) {Q : Request → Prop} :
    t.Meets clock (fun _ => Q) requests ↔ ∃ request ∈ requests, Q request := by
  constructor
  · rintro ⟨front, request, back, rfl, hmeets⟩
    exact ⟨request, List.mem_append_right front List.mem_cons_self, hmeets⟩
  · rintro ⟨request, hmem, hmeets⟩
    rcases List.append_of_mem hmem with ⟨front, back, rfl⟩
    exact ⟨front, request, back, rfl, hmeets⟩

/-- Where a run leads that starts with nothing. -/
def after (clock : Nat → Reading) (history : List Request) : Session :=
  (start.run clock history).1

theorem run_append (clock : Nat → Reading) (t : Session) (requests rest : List Request) :
    (t.run clock (requests ++ rest)).1 = ((t.run clock requests).1.run clock rest).1 := by
  induction requests generalizing t with
  | nil => rfl
  | cons request requests ih => exact ih _

/-- What every operation keeps is kept by a run. -/
theorem run_of_step (clock : Nat → Reading)
    (hstep : ∀ t request, P t → P (t.step clock request).1) (h : P t) (requests : List Request) :
    P (t.run clock requests).1 := by
  induction requests generalizing t with
  | nil => exact h
  | cons request rest ih => exact ih (hstep t request h)

/-- What is there after an operation if it was before or the operation meets a
    condition is there after a run if it was before or one operation meets it. -/
theorem run_iff_of_step (clock : Nat → Reading)
    (hstep : ∀ t request, P (t.step clock request).1 ↔ P t ∨ Q t request) (t : Session)
    (requests : List Request) :
    P (t.run clock requests).1 ↔ P t ∨ t.Meets clock Q requests := by
  induction requests generalizing t with
  | nil => exact (or_iff_left not_meets_nil).symm
  | cons request rest ih => rw [run_cons, ih, hstep, meets_cons_iff, or_assoc]

end Session

end PackageIndex
