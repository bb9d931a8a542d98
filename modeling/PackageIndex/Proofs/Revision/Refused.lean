import PackageIndex.Proofs.Revision.Refinement

/-!
# Refused Operations

An operation on a store can be refused in three places: the ledger that is to be
put there cannot be read, the lock of the ledger that is there is broken, or its
text cannot be read. By the time the second and the third are found out, the
reference may have been entered already, and a reference that is known is never
forgotten. That a refused operation leaves nothing behind all the same rests on
one fact: what a new reference holds is the empty ledger, with its lock in
order, and that is never refused. So a reference under which something is
refused was known before, and entering it changed nothing (`enter_of_refused`).

The clock is read only after that, so a refused operation takes no reading
either. A clock that fails is no refusal: by then the reading has been taken,
and the lock breaks.

`Session.Does` says once what an operation can do, with one case for each way it
can end. What follows from it for a whole run is that refused operations might
as well not have been asked for (`run_carried`).

## Main definitions

* `Request.reference?`: The reference an operation is about.
* `Store.Refuses`: Why an operation is refused.
* `Session.Does`: What an operation does and gives back.
* `Session.carried`: The operations of a run that are not refused.

## Theorems

* `enter_of_refused`: Where a ledger is refused, the reference was known.
* `step_of_refuses`: A refused operation changes nothing.
* `step_does`: Every operation does one of seven things.
* `run_carried`: A run without its refused operations.
* `refused_unchanged`: What is refused, and that it leaves everything as it was.
-/

namespace PackageIndex

namespace Request

/-- The reference an operation is about, if it is about one. -/
def reference? : Request → Option Text
  | .add reference _ => some reference
  | .remove reference _ => some reference
  | .replace reference _ => some reference
  | .written reference => some reference
  | .latest reference => some reference
  | .time reference _ => some reference
  | .revisions reference => some reference
  | .references => none

/-- Whether an operation only asks. -/
def asks : Request → Bool
  | .add _ _ => false
  | .remove _ _ => false
  | .replace _ _ => false
  | _ => true

theorem accepted_of_asks {request : Request} (hasks : request.asks = true) :
    request.accepted = true := by
  cases request with
  | add reference id => cases hasks
  | remove reference id => cases hasks
  | replace reference contents => cases hasks
  | _ => rfl

end Request

namespace Holding

theorem ledger_fresh : fresh.ledger = .ok .empty := rfl

theorem ledger_ne_clockFailed (h : Holding) : h.ledger ≠ .error .clockFailed := by
  unfold ledger
  split
  · simp
  · split
    · simp
    · split <;> simp

end Holding

namespace Store

variable {s : Store} {reference other : Text} {h : Holding} {fault : StoreFault}

theorem holding_of_holding? (hheld : s.holding? reference = some h) : s.holding reference = h := by
  rw [holding, hheld, Option.getD_some]

theorem enter_of_holding? (hheld : s.holding? reference = some h) : s.enter reference = s := by
  unfold enter
  rw [hheld]

/-- A new reference holds what is never refused, so one under which something is
    refused was known. -/
theorem holding?_of_refused (hrefused : (s.holding reference).ledger = .error fault) :
    s.holding? reference = some (s.holding reference) := by
  cases hheld : s.holding? reference with
  | none =>
      rw [holding, hheld, Option.getD_none, Holding.ledger_fresh] at hrefused
      exact absurd hrefused (by simp)
  | some h => rw [holding_of_holding? hheld]

theorem enter_of_refused (hrefused : (s.holding reference).ledger = .error fault) :
    s.enter reference = s :=
  enter_of_holding? (holding?_of_refused hrefused)

/-- Why an operation is refused: the ledger it brings cannot be read, or else
    the ledger it is about cannot. -/
inductive Refuses (s : Store) : Request → StoreFault → Prop
  | contents {reference contents : Text} {fault : Json.Fault}
      (hread : Ledger.read contents = .error fault) :
      Refuses s (.replace reference contents) (.unreadable fault)
  | ledger {request : Request} {reference : Text} {h : Holding} {fault : StoreFault}
      (haccepted : request.accepted = true) (hreference : request.reference? = some reference)
      (hheld : s.holding? reference = some h) (hread : h.ledger = .error fault) :
      Refuses s request fault

theorem Refuses.ne_clockFailed {request : Request} (hrefuses : s.Refuses request fault) :
    fault ≠ .clockFailed := by
  cases hrefuses with
  | contents hread => simp
  | ledger haccepted hreference hheld hread =>
      rintro rfl
      exact Holding.ledger_ne_clockFailed _ hread

theorem Refuses.ledger_of_add {id : Text} (hrefuses : s.Refuses (.add reference id) fault) :
    (s.holding reference).ledger = .error fault := by
  cases hrefuses with
  | ledger haccepted hreference hheld hread =>
      cases hreference
      rw [holding_of_holding? hheld, hread]

theorem Refuses.of_replace {contents : Text} {l : Ledger}
    (hcontents : Ledger.read contents = .ok l)
    (hread : (s.holding reference).ledger = .error fault) :
    s.Refuses (.replace reference contents) fault := by
  have haccepted : (Request.replace reference contents).accepted = true := by
    rw [Request.accepted, hcontents]
    rfl
  exact .ledger haccepted rfl (holding?_of_refused hread) hread

end Store

namespace Session

variable {clock : Nat → Reading} {t : Session} {request : Request} {fault : StoreFault}

/-- What an operation does and gives back. -/
inductive Does (clock : Nat → Reading) (t : Session) :
    Request → Session × Except StoreFault Reply → Prop
  /-- It is refused, and nothing happens. -/
  | refused {request : Request} {fault : StoreFault} (hrefuses : t.store.Refuses request fault) :
      Does clock t request (t, .error fault)
  /-- The clock fails, and the lock breaks. -/
  | broke {reference id : Text} {l : Ledger} (hread : (t.store.holding reference).ledger = .ok l)
      (hclock : clock t.readings = .failure) :
      Does clock t (.add reference id)
        (⟨t.store.put reference { t.store.holding reference with broken := true },
          t.readings + 1⟩, .error .clockFailed)
  /-- A revision is recorded at the time the clock gives. -/
  | added {reference id : Text} {l : Ledger} {time : Binary64}
      (hread : (t.store.holding reference).ledger = .ok l)
      (hclock : clock t.readings = .time time) :
      Does clock t (.add reference id)
        (⟨t.store.put reference (.ofLedger (l.add id time)), t.readings + 1⟩, .ok .done)
  /-- A revision is removed, or looked for in vain. -/
  | removed {reference id : Text} {h : Holding} {l : Ledger}
      (hheld : t.store.holding? reference = some h) (hread : h.ledger = .ok l) :
      Does clock t (.remove reference id)
        (⟨t.store.put reference (.ofLedger (l.remove id)), t.readings⟩, .ok (.revision (l.find? id)))
  /-- A ledger is put in the place of another one. -/
  | replaced {reference contents : Text} {l there : Ledger}
      (hcontents : Ledger.read contents = .ok l)
      (hread : (t.store.holding reference).ledger = .ok there) :
      Does clock t (.replace reference contents)
        (⟨t.store.put reference (.ofLedger l), t.readings⟩, .ok .done)
  /-- There is nothing to remove from. -/
  | absent {reference id : Text} (hheld : t.store.holding? reference = none) :
      Does clock t (.remove reference id) (t, .ok (.revision none))
  /-- A question is answered. -/
  | told {request : Request} {reply : Reply} (hasks : request.asks = true) :
      Does clock t request (t, .ok reply)

/-- A refused operation changes nothing, and says why. -/
theorem step_of_refuses (hrefuses : t.store.Refuses request fault) :
    t.step clock request = (t, .error fault) := by
  cases hrefuses with
  | contents hread => simp only [step, Store.replace, hread, Except.map]
  | @ledger _ reference h _ haccepted hreference hheld hread =>
      have hholding : (t.store.holding reference).ledger = .error fault := by
        rw [Store.holding_of_holding? hheld, hread]
      have henter := Store.enter_of_refused hholding
      cases request with
      | add other id =>
          cases hreference
          simp only [step, Store.add, Store.readsClock, hholding, henter, Bool.false_eq_true,
            if_false, Except.map]
      | remove other id =>
          cases hreference
          simp only [step, Store.remove, hheld, hread, Except.map]
      | replace other contents =>
          cases hreference
          -- What is brought can be read, so it is the ledger there that cannot.
          cases hcontents : Ledger.read contents with
          | error fault => simp [Request.accepted, hcontents, Except.isOk, Except.toBool] at haccepted
          | ok l => simp only [step, Store.replace, hcontents, hholding, henter, Except.map]
      | written other =>
          cases hreference
          simp only [step, Store.written, hheld, hread, Except.map]
      | latest other =>
          cases hreference
          simp only [step, Store.ask, hheld, hread, Except.map]
      | time other id =>
          cases hreference
          simp only [step, Store.ask, hheld, hread, Except.map]
      | revisions other =>
          cases hreference
          simp only [step, Store.ask, hheld, hread, Except.map]
      | references => cases hreference

/-- A question is refused, or it is answered and changes nothing. -/
theorem does_of_ledger {reference : Text} {h : Holding} (reply : Ledger → Reply)
    (hasks : request.asks = true) (hreference : request.reference? = some reference)
    (hheld : t.store.holding? reference = some h)
    (hstep : t.step clock request = (t, h.ledger.map reply)) :
    Does clock t request (t.step clock request) := by
  have haccepted := Request.accepted_of_asks hasks
  cases hread : h.ledger with
  | error fault =>
      rw [step_of_refuses (.ledger haccepted hreference hheld hread)]
      exact .refused (.ledger haccepted hreference hheld hread)
  | ok l =>
      rw [hstep, hread]
      exact .told hasks

theorem does_of_ask {reference : Text} {α : Type} {question : Ledger → α} {reply : α → Reply}
    (hasks : request.asks = true) (hreference : request.reference? = some reference)
    (hstep : t.step clock request = (t, (t.store.ask reference question).map reply)) :
    Does clock t request (t.step clock request) := by
  cases hheld : t.store.holding? reference with
  | none =>
      rw [hstep, Store.ask, hheld]
      exact .told hasks
  | some h =>
      refine does_of_ledger (fun l => reply (question l)) hasks hreference hheld ?_
      simp only [hstep, Store.ask, hheld]
      cases h.ledger <;> rfl

theorem step_does (clock : Nat → Reading) (t : Session) (request : Request) :
    Does clock t request (t.step clock request) := by
  cases request with
  | add reference id =>
      cases hread : (t.store.holding reference).ledger with
      | error fault =>
          have hrefuses : t.store.Refuses (.add reference id) fault :=
            .ledger rfl rfl (Store.holding?_of_refused hread) hread
          rw [step_of_refuses hrefuses]
          exact .refused hrefuses
      | ok l =>
          cases hclock : clock t.readings with
          | failure =>
              simp only [step, Store.add, Store.readsClock, hread, hclock, if_true, Except.map]
              exact .broke hread hclock
          | time time =>
              simp only [step, Store.add, Store.readsClock, hread, hclock, if_true, Except.map]
              exact .added hread hclock
  | remove reference id =>
      cases hheld : t.store.holding? reference with
      | none =>
          simp only [step, Store.remove, hheld, Except.map]
          exact .absent hheld
      | some h =>
          cases hread : h.ledger with
          | error fault =>
              rw [step_of_refuses (.ledger rfl rfl hheld hread)]
              exact .refused (.ledger rfl rfl hheld hread)
          | ok l =>
              simp only [step, Store.remove, hheld, hread, Except.map]
              exact .removed hheld hread
  | replace reference contents =>
      cases hcontents : Ledger.read contents with
      | error fault =>
          rw [step_of_refuses (.contents hcontents)]
          exact .refused (.contents hcontents)
      | ok l =>
          cases hread : (t.store.holding reference).ledger with
          | error fault =>
              have hrefuses : t.store.Refuses (.replace reference contents) fault :=
                .of_replace hcontents hread
              rw [step_of_refuses hrefuses]
              exact .refused hrefuses
          | ok there =>
              simp only [step, Store.replace, hcontents, hread, Except.map]
              exact .replaced hcontents hread
  | written reference =>
      cases hheld : t.store.holding? reference with
      | none =>
          simp only [step, Store.written, hheld, Except.map]
          exact .told rfl
      | some h =>
          refine does_of_ledger (fun l => .text (some l.write)) rfl rfl hheld ?_
          simp only [step, Store.written, hheld]
          cases h.ledger <;> rfl
  | latest reference => exact does_of_ask rfl rfl rfl
  | time reference id => exact does_of_ask rfl rfl rfl
  | revisions reference => exact does_of_ask rfl rfl rfl
  | references => exact .told rfl

/-- Whether an operation was refused. A clock that fails is no refusal. -/
def refused : Except StoreFault Reply → Bool
  | .error .brokenLock => true
  | .error (.unreadable _) => true
  | _ => false

theorem refused_iff {outcome : Except StoreFault Reply} :
    refused outcome = true ↔ ∃ fault, outcome = .error fault ∧ fault ≠ .clockFailed := by
  rcases outcome with fault | reply
  · cases fault <;> simp [refused]
  · simp [refused]

/-- What is refused is refused for a reason, and only then. -/
theorem step_refused_iff :
    (t.step clock request).2 = .error fault ∧ fault ≠ .clockFailed ↔
      t.store.Refuses request fault := by
  constructor
  · rintro ⟨houtcome, hfault⟩
    have hdoes := step_does clock t request
    generalize t.step clock request = out at hdoes houtcome
    cases hdoes with
    | refused hrefuses =>
        cases houtcome
        exact hrefuses
    | broke hread hclock =>
        cases houtcome
        exact absurd rfl hfault
    | added hread hclock => cases houtcome
    | removed hheld hread => cases houtcome
    | replaced hcontents hread => cases houtcome
    | absent hheld => cases houtcome
    | told hasks => cases houtcome
  · intro hrefuses
    rw [step_of_refuses hrefuses]
    exact ⟨rfl, hrefuses.ne_clockFailed⟩

/-- The operations of a run that are not refused. -/
def carried (clock : Nat → Reading) (t : Session) : List Request → List Request
  | [] => []
  | request :: rest =>
    if refused (t.step clock request).2 then carried clock (t.step clock request).1 rest
    else request :: carried clock (t.step clock request).1 rest

/-- A run without its refused operations ends the same, and all others give back
    the same. -/
theorem run_carried (clock : Nat → Reading) (t : Session) (requests : List Request) :
    t.run clock (t.carried clock requests) =
      ((t.run clock requests).1, (t.run clock requests).2.filter fun outcome => !refused outcome) := by
  induction requests generalizing t with
  | nil => rfl
  | cons request rest ih =>
      rw [run_cons, carried]
      by_cases hrefused : refused (t.step clock request).2 = true
      · -- What is refused leaves the session as it was.
        rcases refused_iff.mp hrefused with ⟨fault, houtcome⟩
        have hsame : t.step clock request = (t, .error fault) :=
          step_of_refuses (step_refused_iff.mp houtcome)
        rw [if_pos hrefused, List.filter_cons_of_neg (by simp [hrefused]), hsame]
        exact ih t
      · rw [if_neg hrefused, run_cons, List.filter_cons_of_pos (by simpa using hrefused), ih]

/-- An operation is refused for one of two reasons, and then nothing has changed:
    the store knows the same references and holds the same under each of them,
    and the clock has not been read. This is so in whatever state the store is.
    A whole run is what it would be without the operations it refused. -/
theorem refused_unchanged (clock : Nat → Reading) (t : Session) :
    (∀ request fault, (t.step clock request).2 = .error fault → fault ≠ .clockFailed →
        (t.step clock request).1 = t) ∧
      (∀ request fault, (t.step clock request).2 = .error fault ∧ fault ≠ .clockFailed ↔
        t.store.Refuses request fault) ∧
      ∀ requests, t.run clock (t.carried clock requests) =
        ((t.run clock requests).1,
          (t.run clock requests).2.filter fun outcome => !refused outcome) := by
  refine ⟨fun request fault houtcome hfault => ?_, fun request fault => step_refused_iff,
    t.run_carried clock⟩
  rw [step_of_refuses (step_refused_iff.mp ⟨houtcome, hfault⟩)]

/-- A ledger that can be read is refused where a clock has broken the lock. -/
theorem refused_unchanged_broken :
    ((start.run (fun _ => .failure) [.add ['r'] ['a']]).1.step (fun _ => .failure)
        (.replace ['r'] "\x7b\"revisions\":[]\x7d".toList)).2 = .error .brokenLock ∧
      ((start.run (fun _ => .failure) [.add ['r'] ['a']]).1.step (fun _ => .failure)
        (.replace ['r'] "\x7b\"revisions\":[]\x7d".toList)).1 =
        (start.run (fun _ => .failure) [.add ['r'] ['a']]).1 := by
  have hrefused : ((start.run (fun _ => .failure) [.add ['r'] ['a']]).1.step (fun _ => .failure)
      (.replace ['r'] "\x7b\"revisions\":[]\x7d".toList)).2 = .error .brokenLock := by
    decide +kernel
  exact ⟨hrefused, (refused_unchanged _ _).1 _ _ hrefused (by decide)⟩

end Session

end PackageIndex
