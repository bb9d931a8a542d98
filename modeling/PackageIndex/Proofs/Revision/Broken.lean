import PackageIndex.Proofs.Revision.Known

/-!
# Locks That Stay Broken

The clock is read while the lock of a ledger is held. If it fails then, the lock
breaks, and nothing mends it. The reference is known by that time, since it is
entered before its ledger is read.

From then on every operation on that ledger is refused before it looks at the
text, so none of them changes the text or comes to reading the clock. The
operations that bring nothing of their own are all refused in the same way. One
that brings a ledger is refused for the lock only if what it brings can be read,
since that is found out first. Operations on other references go on as before.

A lock is broken at the end of a run exactly if it was broken at the start or one
operation of the run broke it (`run_broken_iff`). And an operation is refused for
a broken lock exactly if the lock of its own ledger is broken
(`step_brokenLock_iff`). Both together say which operations of a run are refused
for that reason.

## Main definitions

* `Session.BreaksBy`: An operation breaks the lock of a ledger.

## Theorems

* `step_of_breaksBy`: What the operation does that breaks a lock.
* `step_broken_iff`, `run_broken_iff`: Which locks are broken.
* `step_brokenLock_iff`: What is refused for a broken lock.
* `run_holding?_of_broken`: Under a broken lock nothing changes any more.
* `broken_for_good`: Which operations of a run are refused for a broken lock.
-/

namespace PackageIndex

namespace Holding

variable {h : Holding}

theorem ledger_eq_brokenLock_iff : h.ledger = .error .brokenLock ↔ h.broken = true := by
  unfold ledger
  by_cases hbroken : h.broken = true
  · simp [hbroken]
  · rw [if_neg hbroken]
    refine iff_of_false (fun herror => ?_) hbroken
    split at herror
    · cases herror
    · split at herror <;> cases herror

theorem broken_of_ledger {l : Ledger} (hread : h.ledger = .ok l) : h.broken = false := by
  by_contra hbroken
  rw [ledger_eq_brokenLock_iff.mpr (by simpa using hbroken)] at hread
  cases hread

end Holding

namespace Store

variable {s : Store} {reference : Text}

theorem readsClock_of_ledger {l : Ledger} (hread : (s.holding reference).ledger = .ok l) :
    s.readsClock reference = true := by
  rw [readsClock, hread]

theorem exists_ledger_of_readsClock (hreads : s.readsClock reference = true) :
    ∃ l, (s.holding reference).ledger = .ok l := by
  unfold readsClock at hreads
  split at hreads
  · exact ⟨_, by assumption⟩
  · cases hreads

/-- A new reference has its lock in order, so one with a broken lock is known. -/
theorem holding?_of_broken (hbroken : (s.holding reference).broken = true) :
    s.holding? reference = some (s.holding reference) :=
  holding?_of_refused (Holding.ledger_eq_brokenLock_iff.mpr hbroken)

end Store

namespace Session

variable {clock : Nat → Reading} {t : Session} {request : Request} {reference : Text}

/-- An operation breaks the lock of the ledger under a reference: it comes to
    reading the clock, and the clock fails. -/
def BreaksBy (clock : Nat → Reading) (reference : Text) (t : Session) (request : Request) : Prop :=
  request.reference? = some reference ∧ request.takes t.store = true ∧
    clock t.readings = .failure

/-- What breaks a lock is an addition, and it leaves the text as it was. -/
theorem step_of_breaksBy (hbreaks : t.BreaksBy clock reference request) :
    t.step clock request =
      (⟨t.store.put reference { t.store.holding reference with broken := true },
        t.readings + 1⟩, .error .clockFailed) := by
  rcases hbreaks with ⟨hrequest, htakes, hclock⟩
  cases request with
  | add other id =>
      cases hrequest
      rcases Store.exists_ledger_of_readsClock htakes with ⟨l, hread⟩
      simp only [step, Store.add, Store.readsClock, hread, hclock, if_true, Except.map]
  | _ => cases htakes

/-- A failure of the clock is reported by what breaks a lock, and by nothing
    else. -/
theorem step_clockFailed_iff :
    (t.step clock request).2 = .error .clockFailed ↔
      ∃ reference, t.BreaksBy clock reference request := by
  constructor
  · intro houtcome
    have hdoes := step_does clock t request
    generalize t.step clock request = out at hdoes houtcome
    cases hdoes with
    | refused hrefuses => exact absurd (Except.error.inj houtcome) hrefuses.ne_clockFailed
    | broke hread hclock => exact ⟨_, rfl, Store.readsClock_of_ledger hread, hclock⟩
    | added hread hclock => cases houtcome
    | removed hheld hread => cases houtcome
    | replaced hcontents hread => cases houtcome
    | absent hheld => cases houtcome
    | told hasks => cases houtcome
  · rintro ⟨reference, hbreaks⟩
    rw [step_of_breaksBy hbreaks]

theorem not_breaksBy_of_asks (hasks : request.asks = true) :
    ¬t.BreaksBy clock reference request := by
  rintro ⟨-, htakes, -⟩
  cases request with
  | add other id => cases hasks
  | _ => cases htakes

/-- What is refused does not come to reading the clock. -/
theorem not_breaksBy_of_refuses {fault : StoreFault} (hrefuses : t.store.Refuses request fault) :
    ¬t.BreaksBy clock reference request := by
  rintro ⟨-, htakes, -⟩
  cases request with
  | add other id =>
      rcases Store.exists_ledger_of_readsClock htakes with ⟨l, hread⟩
      exact absurd (hrefuses.ledger_of_add.symm.trans hread) (by simp)
  | _ => cases htakes

theorem step_broken_iff (clock : Nat → Reading) (reference : Text) (t : Session)
    (request : Request) :
    ((t.step clock request).1.store.holding reference).broken = true ↔
      (t.store.holding reference).broken = true ∨ t.BreaksBy clock reference request := by
  by_cases hconcerns : request.reference? = some reference
  · have hdoes := step_does clock t request
    generalize t.step clock request = out at hdoes
    -- A ledger that could be read had its lock in order, and it has when it is written back.
    have hput : ∀ {r : Text} {l : Ledger} (m : Ledger),
        request.reference? = some r → (t.store.holding r).ledger = .ok l →
        ¬t.BreaksBy clock reference request →
        (((t.store.put r (.ofLedger m)).holding reference).broken = true ↔
          (t.store.holding reference).broken = true ∨ t.BreaksBy clock reference request) := by
      intro r l m hr hread hbreaks
      cases hr.symm.trans hconcerns
      rw [Store.holding_put_self, Holding.broken_of_ledger hread]
      exact iff_of_false Bool.false_ne_true fun h => h.elim Bool.false_ne_true hbreaks
    cases hdoes with
    | refused hrefuses => exact (or_iff_left (not_breaksBy_of_refuses hrefuses)).symm
    | broke hread hclock =>
        cases hconcerns
        rw [Store.holding_put_self]
        exact iff_of_true rfl (Or.inr ⟨rfl, Store.readsClock_of_ledger hread, hclock⟩)
    | added hread hclock =>
        exact hput _ rfl hread fun hbreaks => absurd (hclock.symm.trans hbreaks.2.2) (by simp)
    | removed hheld hread =>
        rw [← Store.holding_of_holding? hheld] at hread
        exact hput _ rfl hread fun hbreaks => Bool.false_ne_true hbreaks.2.1
    | replaced hcontents hread =>
        exact hput _ rfl hread fun hbreaks => Bool.false_ne_true hbreaks.2.1
    | absent hheld => exact (or_iff_left fun hbreaks => Bool.false_ne_true hbreaks.2.1).symm
    | told hasks => exact (or_iff_left (not_breaksBy_of_asks hasks)).symm
  · rw [Store.holding_congr (holding?_step_other clock t hconcerns)]
    exact (or_iff_left fun hbreaks => hconcerns hbreaks.1).symm

theorem run_broken_iff (clock : Nat → Reading) (reference : Text) (t : Session)
    (requests : List Request) :
    ((t.run clock requests).1.store.holding reference).broken = true ↔
      (t.store.holding reference).broken = true ∨
        t.Meets clock (BreaksBy clock reference) requests :=
  run_iff_of_step clock (P := fun t => (t.store.holding reference).broken = true)
    (step_broken_iff clock reference) t requests

/-- An operation is refused for a broken lock if the lock of its own ledger is
    broken and what it brings can be read. -/
theorem step_brokenLock_iff :
    (t.step clock request).2 = .error .brokenLock ↔
      ∃ reference, request.reference? = some reference ∧ request.accepted = true ∧
        (t.store.holding reference).broken = true := by
  rw [← and_iff_left (show StoreFault.brokenLock ≠ .clockFailed by decide) (a := _ = _),
    step_refused_iff]
  constructor
  · intro hrefuses
    cases hrefuses with
    | @ledger _ reference h _ haccepted hreference hheld hread =>
        refine ⟨reference, hreference, haccepted, ?_⟩
        rw [Store.holding_of_holding? hheld]
        exact Holding.ledger_eq_brokenLock_iff.mp hread
  · rintro ⟨reference, hreference, haccepted, hbroken⟩
    exact .ledger haccepted hreference (Store.holding?_of_broken hbroken)
      (Holding.ledger_eq_brokenLock_iff.mpr hbroken)

/-- Under a broken lock an operation is refused, for the lock or for what it
    brings. -/
theorem refuses_of_broken (hreference : request.reference? = some reference)
    (hbroken : (t.store.holding reference).broken = true) :
    ∃ fault, t.store.Refuses request fault := by
  by_cases haccepted : request.accepted = true
  · exact ⟨.brokenLock, .ledger haccepted hreference (Store.holding?_of_broken hbroken)
      (Holding.ledger_eq_brokenLock_iff.mpr hbroken)⟩
  · cases request with
    | replace other contents =>
        cases hread : Ledger.read contents with
        | error fault => exact ⟨.unreadable fault, .contents hread⟩
        | ok l => exact absurd (by rw [Request.accepted, hread]; rfl) haccepted
    | _ => exact absurd rfl haccepted

theorem step_holding?_of_broken (hbroken : (t.store.holding reference).broken = true) :
    (t.step clock request).1.store.holding? reference = t.store.holding? reference := by
  by_cases hconcerns : request.reference? = some reference
  · rcases refuses_of_broken hconcerns hbroken with ⟨fault, hrefuses⟩
    rw [step_of_refuses hrefuses]
  · exact holding?_step_other clock t hconcerns

/-- Under a broken lock nothing changes any more. -/
theorem run_holding?_of_broken (clock : Nat → Reading)
    (hbroken : (t.store.holding reference).broken = true) (requests : List Request) :
    (t.run clock requests).1.store.holding? reference = t.store.holding? reference := by
  refine run_of_step clock (P := fun u => u.store.holding? reference = t.store.holding? reference)
    (fun u request hsame => ?_) rfl requests
  rw [step_holding?_of_broken (by rwa [Store.holding_congr hsame]), hsame]

/-- Where a run has broken a lock, it stays broken however the run goes on: the
    reference is known, what is held under it does not change, and what is done
    with it is refused and changes nothing at all. Only a lock that was broken
    makes an operation refused in this way, and only a clock that fails breaks
    one. -/
theorem broken_for_good (clock : Nat → Reading) (history : List Request) :
    (∀ reference, start.Meets clock (BreaksBy clock reference) history → ∀ later,
        reference ∈ (after clock (history ++ later)).store.references ∧
          (after clock (history ++ later)).store.holding? reference =
            (after clock history).store.holding? reference ∧
          ∀ request, request.reference? = some reference → request.accepted = true →
            (after clock (history ++ later)).step clock request =
              (after clock (history ++ later), .error .brokenLock)) ∧
      (∀ request, ((after clock history).step clock request).2 = .error .brokenLock ↔
        ∃ reference, request.reference? = some reference ∧ request.accepted = true ∧
          start.Meets clock (BreaksBy clock reference) history) ∧
      ∀ request, ((after clock history).step clock request).2 = .error .clockFailed ↔
        ∃ reference, (after clock history).BreaksBy clock reference request := by
  -- At the start every lock is in order, so the broken ones are those the run has broken.
  have hbroken (reference : Text) :
      ((after clock history).store.holding reference).broken = true ↔
        start.Meets clock (BreaksBy clock reference) history := by
    rw [after, run_broken_iff]
    exact or_iff_right Bool.false_ne_true
  refine ⟨fun reference hmeets later => ?_, fun request => ?_, fun request => step_clockFailed_iff⟩
  · have hthere := (hbroken reference).mpr hmeets
    have hsame : (after clock (history ++ later)).store.holding? reference =
        (after clock history).store.holding? reference := by
      rw [after, run_append]
      exact run_holding?_of_broken clock hthere later
    have hstill : ((after clock (history ++ later)).store.holding reference).broken = true := by
      rwa [Store.holding_congr hsame]
    have hheld := Store.holding?_of_broken hstill
    refine ⟨Store.mem_references_of_holding? hheld, hsame,
      fun request hreference haccepted => ?_⟩
    exact step_of_refuses (.ledger haccepted hreference hheld
      (Holding.ledger_eq_brokenLock_iff.mpr hstill))
  · simp only [step_brokenLock_iff, hbroken]

/-- A ledger that can be read is refused where the clock failed in the second
    addition, whatever was recorded under another reference since. -/
theorem broken_for_good_second :
    start.Meets (fun n => if n = 1 then .failure else .time .one)
        (BreaksBy (fun n => if n = 1 then .failure else .time .one) ['r'])
        [.add ['r'] ['a'], .add ['r'] ['b']] ∧
      (after (fun n => if n = 1 then .failure else .time .one)
        ([.add ['r'] ['a'], .add ['r'] ['b']] ++ [.add ['s'] ['c']])).step
          (fun n => if n = 1 then .failure else .time .one)
          (.replace ['r'] "\x7b\"revisions\":[]\x7d".toList) =
        (after (fun n => if n = 1 then .failure else .time .one)
          ([.add ['r'] ['a'], .add ['r'] ['b']] ++ [.add ['s'] ['c']]), .error .brokenLock) := by
  have hmeets : start.Meets (fun n => if n = 1 then .failure else .time .one)
      (BreaksBy (fun n => if n = 1 then .failure else .time .one) ['r'])
      [.add ['r'] ['a'], .add ['r'] ['b']] :=
    ⟨[.add ['r'] ['a']], .add ['r'] ['b'], [], rfl, rfl, by decide +kernel, by decide +kernel⟩
  exact ⟨hmeets, (((broken_for_good _ _).1 _ hmeets _).2.2 _ rfl (by decide +kernel))⟩

end Session

end PackageIndex
