import PackageIndex.Proofs.Revision.Refused

/-!
# References Kept Apart

All references of a store share one catalog and one clock, and still none of
them can tell what is done under another. What a run does to a reference is what
the operations on it would have done alone, on a store of their own with a clock
of their own, which gives them the readings they were given in the run
(`run_alone`). Two runs that do the same to a reference, and have the same
readings for it, are both like one and the same lone run, whatever else they do
(`run_apart`).

Two facts carry this along a run. An operation leaves what is held under every
other reference as it was (`holding?_step_other`), even if it is refused or
breaks a lock. And what an operation gives back and leaves under its own
reference depends on nothing but what was held there and on the reading it is
given, if it comes to reading the clock (`step_alike`).

Readings are counted for the reference they are taken for, not by their place in
the run, since other operations read the clock too.

## Main definitions

* `Request.concerns`: An operation is about a reference.
* `Request.takes`: An operation comes to reading the clock.
* `Session.heard`: The readings the operations on a reference are given.
* `repliesOn`: What the operations on a reference give back.

## Theorems

* `holding?_step_other`: What is held under other references stays.
* `step_alike`: What an operation depends on.
* `run_alone`: The operations on a reference, alone.
* `run_apart`: Runs that do the same to a reference.
-/

namespace PackageIndex

namespace Request

/-- An operation is about a reference. -/
def concerns (reference : Text) (request : Request) : Bool :=
  request.reference? == some reference

theorem concerns_iff {reference : Text} {request : Request} :
    request.concerns reference = true ↔ request.reference? = some reference := beq_iff_eq

/-- An operation comes to reading the clock. -/
def takes (s : Store) : Request → Bool
  | .add reference _ => s.readsClock reference
  | _ => false

end Request

/-- What the operations on a reference give back, in order. -/
def repliesOn (reference : Text) (requests : List Request)
    (replies : List (Except StoreFault Reply)) : List (Except StoreFault Reply) :=
  ((requests.zip replies).filter fun p => p.1.concerns reference).map (·.2)

theorem repliesOn_cons (reference : Text) (request : Request) (requests : List Request)
    (reply : Except StoreFault Reply) (replies : List (Except StoreFault Reply)) :
    repliesOn reference (request :: requests) (reply :: replies) =
      if request.concerns reference then reply :: repliesOn reference requests replies
      else repliesOn reference requests replies := by
  rw [repliesOn, List.zip_cons_cons, List.filter_cons]
  split
  · rw [List.map_cons, repliesOn]
  · rw [repliesOn]

namespace Store

variable {s q : Store} {reference : Text}

theorem holding_congr (h : s.holding? reference = q.holding? reference) :
    s.holding reference = q.holding reference := by
  rw [holding, holding, h]

theorem readsClock_congr (h : s.holding? reference = q.holding? reference) :
    s.readsClock reference = q.readsClock reference := by
  rw [readsClock, readsClock, holding_congr h]

theorem ask_congr (h : s.holding? reference = q.holding? reference) {α : Type}
    (question : Ledger → α) : s.ask reference question = q.ask reference question := by
  rw [ask, ask, h]

theorem written_congr (h : s.holding? reference = q.holding? reference) :
    s.written reference = q.written reference := by
  rw [written, written, h]

theorem holding?_put_self (s : Store) (reference : Text) (h : Holding) :
    (s.put reference h).holding? reference = some h := by
  rw [holding?_put, if_pos rfl]

theorem holding_put_self (s : Store) (reference : Text) (h : Holding) :
    (s.put reference h).holding reference = h := by
  rw [holding, holding?_put_self, Option.getD_some]

theorem holding_put_other (s : Store) (h : Holding) {reference other : Text}
    (hother : reference ≠ other) : (s.put other h).holding reference = s.holding reference := by
  rw [holding, holding?_put, if_neg hother, holding]

theorem holding?_enter (s : Store) (reference : Text) :
    (s.enter reference).holding? reference = some (s.holding reference) := by
  unfold enter holding
  cases hheld : s.holding? reference with
  | none => exact holding?_put_self s reference .fresh
  | some h => exact hheld

theorem takes_congr {request : Request} (hrequest : request.reference? = some reference)
    (h : s.holding? reference = q.holding? reference) : request.takes s = request.takes q := by
  cases request with
  | add r id =>
      cases hrequest
      exact readsClock_congr h
  | _ => rfl

/-- Two outcomes that give back the same and leave the same under a reference. -/
structure Alike {α : Type} (reference : Text) (out other : Store × α) : Prop where
  outcome : out.2 = other.2
  held : out.1.holding? reference = other.1.holding? reference

theorem alike_add (h : s.holding? reference = q.holding? reference) (id : Text)
    {reading reading' : Reading} (hreading : s.readsClock reference = true → reading = reading') :
    Alike reference (s.add reference id reading) (q.add reference id reading') := by
  have hholding := holding_congr h
  unfold add
  cases hread : (q.holding reference).ledger with
  | error fault =>
      simp only [hholding, hread]
      exact ⟨rfl, by rw [holding?_enter, holding?_enter, hholding]⟩
  | ok l =>
      -- The ledger can be read, so the readings are the same.
      have hsame := hreading (by rw [readsClock, hholding, hread])
      simp only [hholding, hread, hsame]
      cases reading' with
      | failure => exact ⟨rfl, by rw [holding?_put_self, holding?_put_self]⟩
      | time time => exact ⟨rfl, by rw [holding?_put_self, holding?_put_self]⟩

theorem alike_remove (h : s.holding? reference = q.holding? reference) (id : Text) :
    Alike reference (s.remove reference id) (q.remove reference id) := by
  unfold remove
  rw [h]
  cases hheld : q.holding? reference with
  | none => exact ⟨rfl, h⟩
  | some held =>
      simp only
      cases held.ledger with
      | error fault => exact ⟨rfl, h⟩
      | ok l => exact ⟨rfl, by rw [holding?_put_self, holding?_put_self]⟩

theorem alike_replace (h : s.holding? reference = q.holding? reference) (contents : Text) :
    Alike reference (s.replace reference contents) (q.replace reference contents) := by
  have hholding := holding_congr h
  unfold replace
  rw [hholding]
  cases Ledger.read contents with
  | error fault => exact ⟨rfl, h⟩
  | ok l =>
      simp only
      cases (q.holding reference).ledger with
      | error fault => exact ⟨rfl, by rw [holding?_enter, holding?_enter, hholding]⟩
      | ok there => exact ⟨rfl, by rw [holding?_put_self, holding?_put_self]⟩

end Store

namespace Session

variable {clock clock' : Nat → Reading} {t u : Session} {request : Request} {reference : Text}

/-- What is held under a reference stays, if an operation is about another one
    or about none. -/
theorem holding?_step_other (clock : Nat → Reading) (t : Session)
    (hother : request.reference? ≠ some reference) :
    (t.step clock request).1.store.holding? reference = t.store.holding? reference := by
  have hdoes := step_does clock t request
  generalize t.step clock request = out at hdoes
  -- What puts something under a reference is about that reference.
  have hput : ∀ (r : Text) (h : Holding), request.reference? = some r →
      (t.store.put r h).holding? reference = t.store.holding? reference := by
    intro r h hr
    rw [Store.holding?_put, if_neg]
    rintro rfl
    exact hother hr
  cases hdoes with
  | refused hrefuses => rfl
  | broke hread hclock => exact hput _ _ rfl
  | added hread hclock => exact hput _ _ rfl
  | removed hheld hread => exact hput _ _ rfl
  | replaced hcontents hread => exact hput _ _ rfl
  | absent hheld => rfl
  | told hasks => rfl

theorem readings_step (clock : Nat → Reading) (t : Session) (request : Request) :
    (t.step clock request).1.readings = t.readings + if request.takes t.store then 1 else 0 := by
  cases request with
  | add reference id =>
      have htakes : (Request.add reference id).takes t.store = t.store.readsClock reference := rfl
      rw [htakes]
      simp only [step]
      by_cases hreads : t.store.readsClock reference = true
      · rw [if_pos hreads, if_pos hreads]
      · rw [if_neg hreads, if_neg hreads, Nat.add_zero]
  | _ => rfl

/-- Two sessions after one operation each, which gave back the same and left the
    same under a reference. -/
structure StepAlike (reference : Text) (out other : Session × Except StoreFault Reply) : Prop where
  outcome : out.2 = other.2
  held : out.1.store.holding? reference = other.1.store.holding? reference

/-- What an operation does under its reference depends on what is held there,
    and on the reading it is given if it comes to that. -/
theorem step_alike (hrequest : request.reference? = some reference)
    (h : t.store.holding? reference = u.store.holding? reference)
    (hclock : request.takes t.store = true → clock t.readings = clock' u.readings) :
    StepAlike reference (t.step clock request) (u.step clock' request) := by
  cases request with
  | add r id =>
      cases hrequest
      have hadd := Store.alike_add h id hclock
      simp only [step]
      exact ⟨by rw [hadd.outcome], hadd.held⟩
  | remove r id =>
      cases hrequest
      have hremove := Store.alike_remove h id
      simp only [step]
      exact ⟨by rw [hremove.outcome], hremove.held⟩
  | replace r contents =>
      cases hrequest
      have hreplace := Store.alike_replace h contents
      simp only [step]
      exact ⟨by rw [hreplace.outcome], hreplace.held⟩
  | written r =>
      cases hrequest
      simp only [step, Store.written_congr h]
      exact ⟨rfl, h⟩
  | latest r =>
      cases hrequest
      simp only [step, Store.ask_congr h]
      exact ⟨rfl, h⟩
  | time r id =>
      cases hrequest
      simp only [step, Store.ask_congr h]
      exact ⟨rfl, h⟩
  | revisions r =>
      cases hrequest
      simp only [step, Store.ask_congr h]
      exact ⟨rfl, h⟩
  | references => cases hrequest

/-- The readings that the operations on a reference are given in a run, in
    order. An operation that does not come to reading the clock is given none. -/
def heard (clock : Nat → Reading) (reference : Text) (t : Session) : List Request → List Reading
  | [] => []
  | request :: rest =>
    if request.concerns reference ∧ request.takes t.store then
      clock t.readings :: heard clock reference (t.step clock request).1 rest
    else heard clock reference (t.step clock request).1 rest

/-- What a run does to a reference is what the operations on it do alone, with a
    clock that gives them the same readings. -/
theorem run_alone {requests : List Request}
    (h : t.store.holding? reference = u.store.holding? reference)
    (hclock : ∀ k x, (heard clock reference t requests)[k]? = some x →
      clock' (u.readings + k) = x) :
    repliesOn reference requests (t.run clock requests).2 =
        (u.run clock' (requests.filter (·.concerns reference))).2 ∧
      (t.run clock requests).1.store.holding? reference =
        (u.run clock' (requests.filter (·.concerns reference))).1.store.holding? reference := by
  induction requests generalizing t u with
  | nil => exact ⟨rfl, h⟩
  | cons request rest ih =>
      rw [run_cons, repliesOn_cons]
      by_cases hconcerns : request.concerns reference = true
      · have hrequest := Request.concerns_iff.mp hconcerns
        have htakes := Store.takes_congr hrequest h
        have hafter := readings_step clock' u request
        rw [List.filter_cons_of_pos hconcerns, run_cons, if_pos hconcerns]
        by_cases hreads : request.takes t.store = true
        · -- The reading of this operation is the first, and the others come behind it.
          rw [heard, if_pos ⟨hconcerns, hreads⟩] at hclock
          have halike := step_alike hrequest h fun _ => (hclock 0 _ rfl).symm
          have hrest := ih halike.held fun k x hk => by
            rw [hafter, ← htakes, if_pos hreads, Nat.add_right_comm]
            exact hclock (k + 1) x hk
          rw [hrest.1, hrest.2, halike.outcome]
          exact ⟨rfl, rfl⟩
        · rw [heard, if_neg fun hc => hreads hc.2] at hclock
          have halike : StepAlike reference (t.step clock request) (u.step clock' request) :=
            step_alike hrequest h fun hc => absurd hc hreads
          have hrest := ih halike.held fun k x hk => by
            rw [hafter, ← htakes, if_neg hreads]
            exact hclock k x hk
          rw [hrest.1, hrest.2, halike.outcome]
          exact ⟨rfl, rfl⟩
      · have hother : request.reference? ≠ some reference :=
          fun hc => hconcerns (Request.concerns_iff.mpr hc)
        rw [List.filter_cons_of_neg hconcerns, if_neg hconcerns]
        refine ih ((holding?_step_other clock t hother).trans h) fun k x hk => hclock k x ?_
        rw [heard, if_neg fun hc => hconcerns hc.1]
        exact hk

/-- Two runs that contain the same operations on a reference, in the same order
    and with the same readings for them, give back the same for these, and end
    with the same ledger under that reference. Whatever they do under other
    references, and whatever comes of that, makes no difference. -/
theorem run_apart {clock clock' : Nat → Reading} {requests requests' : List Request}
    (reference : Text)
    (hrequests : requests.filter (·.concerns reference) = requests'.filter (·.concerns reference))
    (hheard : ∀ (k : Nat) (x y : Reading), (heard clock reference start requests)[k]? = some x →
      (heard clock' reference start requests')[k]? = some y → x = y) :
    repliesOn reference requests (start.run clock requests).2 =
        repliesOn reference requests' (start.run clock' requests').2 ∧
      (start.run clock requests).1.store.written reference =
        (start.run clock' requests').1.store.written reference ∧
      (start.run clock requests).1.store.ask reference Ledger.newestFirst =
        (start.run clock' requests').1.store.ask reference Ledger.newestFirst ∧
      (reference ∈ (start.run clock requests).1.store.references ↔
        reference ∈ (start.run clock' requests').1.store.references) := by
  -- One clock gives the readings of both runs, since they agree where both have some.
  have hone : ∃ alone : Nat → Reading,
      (∀ k x, (heard clock reference start requests)[k]? = some x → alone (0 + k) = x) ∧
      ∀ k y, (heard clock' reference start requests')[k]? = some y → alone (0 + k) = y := by
    refine ⟨fun k => ((heard clock reference start requests)[k]?).getD
      (((heard clock' reference start requests')[k]?).getD .failure), fun k x hk => ?_,
      fun k y hk => ?_⟩
    · simp only [Nat.zero_add, hk, Option.getD_some]
    · simp only [Nat.zero_add, hk, Option.getD_some]
      cases hx : (heard clock reference start requests)[k]? with
      | none => rfl
      | some x => exact hheard k x y hx hk
  rcases hone with ⟨alone, hleft, hright⟩
  obtain ⟨hreplies, hheld⟩ := run_alone (Eq.refl (start.store.holding? reference)) hleft
  obtain ⟨hreplies', hheld'⟩ := run_alone (Eq.refl (start.store.holding? reference)) hright
  rw [hrequests] at hreplies hheld
  have hsame := hheld.trans hheld'.symm
  refine ⟨hreplies.trans hreplies'.symm, Store.written_congr hsame, Store.ask_congr hsame _, ?_⟩
  rw [Store.mem_references_iff, Store.mem_references_iff, hsame]

/-- A run that breaks the lock of another reference, and one that is refused a
    ledger under a third. -/
theorem run_apart_broken :
    [Request.add ['r'] ['a'], .add ['s'] ['b'], .revisions ['r']].filter (·.concerns ['r']) =
        [Request.replace ['q'] ['['], .add ['r'] ['a'], .revisions ['r']].filter
          (·.concerns ['r']) ∧
      (∀ (k : Nat) (x y : Reading),
        (heard (fun n => if n = 0 then .time .one else .failure) ['r'] start
          [.add ['r'] ['a'], .add ['s'] ['b'], .revisions ['r']])[k]? = some x →
        (heard (fun _ => .time .one) ['r'] start
          [.replace ['q'] ['['], .add ['r'] ['a'], .revisions ['r']])[k]? = some y → x = y) ∧
      repliesOn ['r'] [.add ['r'] ['a'], .add ['s'] ['b'], .revisions ['r']]
          (start.run (fun n => if n = 0 then .time .one else .failure)
            [.add ['r'] ['a'], .add ['s'] ['b'], .revisions ['r']]).2 =
        repliesOn ['r'] [.replace ['q'] ['['], .add ['r'] ['a'], .revisions ['r']]
          (start.run (fun _ => .time .one)
            [.replace ['q'] ['['], .add ['r'] ['a'], .revisions ['r']]).2 := by
  have hrequests : [Request.add ['r'] ['a'], .add ['s'] ['b'], .revisions ['r']].filter
      (·.concerns ['r']) = [Request.replace ['q'] ['['], .add ['r'] ['a'],
        .revisions ['r']].filter (·.concerns ['r']) := by decide
  -- Both runs have the same one reading for the reference in question.
  have hheard : heard (fun n => if n = 0 then .time .one else .failure) ['r'] start
      [.add ['r'] ['a'], .add ['s'] ['b'], .revisions ['r']] =
      heard (fun _ => .time .one) ['r'] start
        [.replace ['q'] ['['], .add ['r'] ['a'], .revisions ['r']] := by decide +kernel
  have hagree : ∀ (k : Nat) (x y : Reading),
      (heard (fun n => if n = 0 then .time .one else .failure) ['r'] start
        [.add ['r'] ['a'], .add ['s'] ['b'], .revisions ['r']])[k]? = some x →
      (heard (fun _ => .time .one) ['r'] start
        [.replace ['q'] ['['], .add ['r'] ['a'], .revisions ['r']])[k]? = some y → x = y := by
    intro k x y hx hy
    rw [hheard, hy] at hx
    exact (Option.some.inj hx).symm
  exact ⟨hrequests, hagree, (run_apart ['r'] hrequests hagree).1⟩

end Session

end PackageIndex
