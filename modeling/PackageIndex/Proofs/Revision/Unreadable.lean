import PackageIndex.Proofs.Outcome
import PackageIndex.Proofs.Revision.Apart
import PackageIndex.Proofs.Revision.Runs

/-!
# Ledgers That Cannot Be Read Again

A time that is not finite has no digits. It is written as null, which is no
number, so the revision that has it is refused when it is read, and the whole
ledger with it (`read_write_eq_ok_iff`). Nothing keeps a clock from giving such
a time, and the ledger is written with it all the same.

After that the ledger is lost. Every operation on it reads it first, even the
one that would put another ledger in its place and has no use for what it reads.
None of them can get past that, and so nothing ever changes what is there.

A run therefore spoils a reference at one point, or it does not. It does if an
addition that gets as far as the clock, and that is not of the latest revision
already, is given a time that is not finite. An operation leaves a ledger
readable exactly if it was readable before and the operation does not spoil it
(`step_readable_iff`), and what holds at the end of a run follows by induction
(`run_readable_iff`).

## Main definitions

* `Revision.reread?`: What is read of a revision after it was written.
* `Store.Readable`: The ledger under a reference can be read.
* `Session.SpoilsBy`: An operation makes a ledger unreadable.
* `Session.Spoils`: A run does.
* `Session.reached`: Where a run with a clock that does not fail leads.

## Theorems

* `Revision.read_write_outcome`: What becomes of a written revision.
* `Ledger.read_write_eq_ok_iff`: Which ledgers can be read again.
* `step_readable_iff`, `run_readable_iff`: Whether a ledger stays readable.
* `replace_done_iff`: When a ledger can be put in the place of another.
* `not_replace_done`: A ledger that cannot be.
-/

namespace PackageIndex

namespace Revision

/-- What is read of a revision after it was written. -/
def reread? (r : Revision) : Except Json.Fault Revision :=
  if r.time.isFinite then .ok r.reread else .error .misshapen

theorem numeric_null (rest : Text) : Json.numeric ("null".toList ++ rest) = .error .misshapen := rfl

/-- A revision is read whatever follows, or refused for its time. -/
theorem read_write_outcome (r : Revision) (rest : Text) :
    read (r.write ++ rest) = r.reread?.map (·, rest) := by
  unfold reread?
  by_cases hfinite : r.time.isFinite = true
  · rw [if_pos hfinite]
    exact read_write hfinite rest
  · have htime : Json.numeric (writeTime r.time ++ '}' :: rest) =
        (Except.error .misshapen).map (·, '}' :: rest) := by
      rw [writeTime, if_neg hfinite]
      exact numeric_null _
    rw [if_neg hfinite, read_of_time htime]
    rfl

theorem reread?_eq_error_iff (r : Revision) (fault : Json.Fault) :
    r.reread? = .error fault ↔ r.time.isFinite = false ∧ fault = .misshapen := by
  unfold reread?
  by_cases hfinite : r.time.isFinite = true
  · simp [hfinite]
  · simp [hfinite, eq_comm]

end Revision

namespace Ledger

theorem finite_empty : empty.Finite := fun _ hr => absurd hr List.not_mem_nil

/-- A ledger with a time that is not finite is refused for it. -/
theorem mapM_reread?_of_not_finite {l : Ledger} (h : ¬l.Finite) :
    l.revisions.mapM Revision.reread? = .error .misshapen := by
  have hsome : ∃ r ∈ l.revisions, r.time.isFinite = false := by
    simpa [Finite, Times] using h
  rcases hsome with ⟨r, hr, htime⟩
  rcases (exists_mapM_eq_error_iff Revision.reread? l.revisions).mpr
    ⟨r, hr, .misshapen, (r.reread?_eq_error_iff _).mpr ⟨htime, rfl⟩⟩ with ⟨fault, hfault⟩
  -- Whichever revision is refused first, it is for the same reason.
  rcases (mapM_eq_error_iff _ _ _).mp hfault with ⟨front, s, back, -, -, hs⟩
  rw [hfault, ((s.reread?_eq_error_iff fault).mp hs).2]

theorem read_write_of_not_finite {l : Ledger} (h : ¬l.Finite) :
    read l.write = .error .misshapen := by
  have helements := Json.elements_join_outcome (fun r _ => r.startsValue_write)
    (fun (r : Revision) (_ : r ∈ l.revisions) => r.read_write_outcome) ['}']
  rw [← List.append_nil l.write, read_append_of_elements rfl helements,
    mapM_reread?_of_not_finite h]
  rfl

/-- A ledger can be read again exactly if its times are finite. -/
theorem read_write_eq_ok_iff (l : Ledger) : (∃ m, read l.write = .ok m) ↔ l.Finite := by
  constructor
  · rintro ⟨m, hm⟩
    by_contra hfinite
    rw [read_write_of_not_finite hfinite] at hm
    exact absurd hm (by simp)
  · intro hfinite
    exact ⟨l.reread, read_write hfinite⟩

end Ledger

namespace Holding

theorem ledger_ofLedger {l : Ledger} (h : l.Finite) : (ofLedger l).ledger = .ok l.reread := by
  rw [ledger_ofLedger_eq, Ledger.read_write h]
  rfl

theorem ledger_ofLedger_of_not_finite {l : Ledger} (h : ¬l.Finite) :
    (ofLedger l).ledger = .error (.unreadable .misshapen) := by
  rw [ledger_ofLedger_eq, Ledger.read_write_of_not_finite h]
  rfl

/-- What can be read has finite times, wherever it comes from. -/
theorem finite_of_ledger {h : Holding} {l : Ledger} (hread : h.ledger = .ok l) : l.Finite := by
  unfold ledger at hread
  split at hread
  · exact absurd hread (by simp)
  · split at hread
    · rw [← Except.ok.inj hread]
      exact Ledger.finite_empty
    · split at hread
      · rename_i hcontents
        rw [← Except.ok.inj hread]
        exact Ledger.finite_of_read hcontents
      · exact absurd hread (by simp)

end Holding

/-- The ledger under a reference can be read. -/
def Store.Readable (s : Store) (reference : Text) : Prop :=
  ∃ l, (s.holding reference).ledger = .ok l

namespace Store

variable {s : Store} {reference other : Text} {l : Ledger}

theorem readable_put_ofLedger_iff (s : Store) (reference : Text) (l : Ledger) :
    (s.put reference (.ofLedger l)).Readable reference ↔ l.Finite := by
  rw [Readable, holding_put_self]
  constructor
  · rintro ⟨m, hm⟩
    by_contra hfinite
    rw [Holding.ledger_ofLedger_of_not_finite hfinite] at hm
    exact absurd hm (by simp)
  · intro hfinite
    exact ⟨l.reread, Holding.ledger_ofLedger hfinite⟩

/-- A ledger that cannot be read is refused for a time that is not finite. -/
def OnlySpoilt (s : Store) : Prop :=
  ∀ reference fault, (s.holding reference).ledger = .error fault → fault = .unreadable .misshapen

theorem OnlySpoilt.put_ofLedger (h : s.OnlySpoilt) (reference : Text) (l : Ledger) :
    (s.put reference (.ofLedger l)).OnlySpoilt := by
  intro other fault hread
  by_cases hother : other = reference
  · rw [hother, holding_put_self] at hread
    by_cases hfinite : l.Finite
    · rw [Holding.ledger_ofLedger hfinite] at hread
      exact absurd hread (by simp)
    · rw [Holding.ledger_ofLedger_of_not_finite hfinite] at hread
      exact (Except.error.inj hread).symm
  · rw [holding_put_other s (.ofLedger l) hother] at hread
    exact h other fault hread

end Store

namespace Ledger

/-- Adding to a ledger with finite times leaves them finite, unless the time is
    not and the revision is not the latest already. -/
theorem finite_add_iff {l : Ledger} (h : l.Finite) (id : Text) (time : Binary64) :
    (l.add id time).Finite ↔ ¬(l.isLatest id = false ∧ time.isFinite = false) := by
  by_cases hlatest : l.isLatest id = true
  · rw [add, if_pos hlatest]
    simp [h, hlatest]
  · by_cases htime : time.isFinite = true
    · have hadd : (l.add id time).Finite := add_times h id htime
      simp [hadd, htime]
    · refine iff_of_false (fun hfinite => ?_) (by simp [hlatest, htime])
      -- The revision that was added is there, with its time.
      rw [add, if_neg hlatest] at hfinite
      exact htime (hfinite ⟨id, time⟩ (List.mem_append_right _ List.mem_cons_self))

end Ledger

namespace Session

variable {clock : Nat → Binary64} {t : Session} {request : Request} {reference : Text}

/-- An operation makes the ledger under a reference unreadable: it records a
    revision that is not the latest already, at a time that is not finite. -/
def SpoilsBy (clock : Nat → Binary64) (reference : Text) (t : Session) (request : Request) : Prop :=
  ∃ id l, request = .add reference id ∧ (t.store.holding reference).ledger = .ok l ∧
    l.isLatest id = false ∧ (clock t.readings).isFinite = false

theorem not_spoilsBy (hrequest : ∀ id, request ≠ .add reference id) :
    ¬t.SpoilsBy clock reference request := by
  rintro ⟨id, l, hadd, -⟩
  exact hrequest id hadd

theorem spoilsBy_add_iff {id : Text} {l : Ledger}
    (hread : (t.store.holding reference).ledger = .ok l) :
    t.SpoilsBy clock reference (.add reference id) ↔
      l.isLatest id = false ∧ (clock t.readings).isFinite = false := by
  constructor
  · rintro ⟨other, m, hrequest, hm, hspoils⟩
    rw [hread] at hm
    cases hm
    cases hrequest
    exact hspoils
  · intro hspoils
    exact ⟨id, l, rfl, hread, hspoils⟩

/-- What an operation leaves can be read exactly if it could be read before and
    the operation does not spoil it. -/
theorem step_readable_iff (clock : Nat → Binary64) (reference : Text) (t : Session)
    (request : Request) :
    (t.step (fun n => .time (clock n)) request).1.store.Readable reference ↔
      t.store.Readable reference ∧ ¬t.SpoilsBy clock reference request := by
  by_cases hconcerns : request.reference? = some reference
  · have hdoes := step_does (fun n => .time (clock n)) t request
    generalize t.step (fun n => .time (clock n)) request = out at hdoes
    cases hdoes with
    | refused hrefuses =>
        refine (and_iff_left ?_).symm
        -- An addition that is refused has no ledger to spoil.
        rintro ⟨id, l, rfl, hread, -⟩
        rw [hrefuses.ledger_of_add] at hread
        exact absurd hread (by simp)
    | broke hread hclock => exact absurd hclock (by simp)
    | @added _ id l time hread hclock =>
        cases hconcerns
        cases hclock
        rw [Store.readable_put_ofLedger_iff, spoilsBy_add_iff hread,
          Ledger.finite_add_iff (Holding.finite_of_ledger hread)]
        exact (and_iff_right ⟨l, hread⟩).symm
    | @removed _ id h l hheld hread =>
        cases hconcerns
        have hfinite := Ledger.remove_times (Holding.finite_of_ledger hread) id
        rw [← Store.holding_of_holding? hheld] at hread
        exact iff_of_true ((t.store.readable_put_ofLedger_iff _ _).mpr hfinite)
          ⟨⟨l, hread⟩, not_spoilsBy (by simp)⟩
    | @replaced _ contents l there hcontents hread =>
        cases hconcerns
        have hfinite := Ledger.finite_of_read hcontents
        exact iff_of_true ((t.store.readable_put_ofLedger_iff _ _).mpr hfinite)
          ⟨⟨there, hread⟩, not_spoilsBy (by simp)⟩
    | absent hheld => exact (and_iff_left (not_spoilsBy (by simp))).symm
    | told hasks =>
        refine (and_iff_left (not_spoilsBy ?_)).symm
        rintro id rfl
        cases hasks
  · have hheld := holding?_step_other (fun n => .time (clock n)) t hconcerns
    unfold Store.Readable
    rw [Store.holding_congr hheld]
    refine (and_iff_left (not_spoilsBy ?_)).symm
    rintro id rfl
    exact hconcerns rfl

/-- A run makes the ledger under a reference unreadable: one of its operations
    does. -/
def Spoils (clock : Nat → Binary64) (reference : Text) (t : Session) (requests : List Request) :
    Prop :=
  ∃ front request back, requests = front ++ request :: back ∧
    (t.run (fun n => .time (clock n)) front).1.SpoilsBy clock reference request

theorem run_readable_iff (clock : Nat → Binary64) (reference : Text) (t : Session)
    (requests : List Request) :
    (t.run (fun n => .time (clock n)) requests).1.store.Readable reference ↔
      t.store.Readable reference ∧ ¬t.Spoils clock reference requests := by
  -- What operations bring about is that the ledger is not readable any more.
  have hrun := run_iff_of_step (fun n => .time (clock n))
    (P := fun t => ¬t.store.Readable reference) (Q := SpoilsBy clock reference)
    (fun t request => by rw [step_readable_iff, not_and_or, not_not]) t requests
  rw [← not_iff_not, not_and_or, not_not]
  exact hrun

/-- Where a run with a clock that does not fail leads. -/
def reached (clock : Nat → Binary64) (history : List Request) : Session :=
  (start.run (fun n => .time (clock n)) history).1

/-- A ledger can be read as long as the run has not spoilt it. -/
theorem readable_reached_iff (clock : Nat → Binary64) (reference : Text) (history : List Request) :
    (reached clock history).store.Readable reference ↔ ¬start.Spoils clock reference history := by
  rw [reached, run_readable_iff]
  exact and_iff_right ⟨.empty, rfl⟩

theorem step_onlySpoilt (h : t.store.OnlySpoilt) (request : Request) :
    (t.step (fun n => .time (clock n)) request).1.store.OnlySpoilt := by
  have hdoes := step_does (fun n => .time (clock n)) t request
  generalize t.step (fun n => .time (clock n)) request = out at hdoes
  cases hdoes with
  | refused hrefuses => exact h
  | broke hread hclock => exact absurd hclock (by simp)
  | added hread hclock => exact h.put_ofLedger _ _
  | removed hheld hread => exact h.put_ofLedger _ _
  | replaced hcontents hread => exact h.put_ofLedger _ _
  | absent hheld => exact h
  | told hasks => exact h

theorem onlySpoilt_reached (clock : Nat → Binary64) (history : List Request) :
    (reached clock history).store.OnlySpoilt := by
  refine run_of_step _ (P := fun t => t.store.OnlySpoilt)
    (fun t request h => step_onlySpoilt h request) (fun reference fault hread => ?_) history
  exact absurd hread (by simp [start, Store.holding, Store.holding?, Store.empty, Catalog.empty,
    Catalog.get?, Holding.ledger_fresh])

theorem step_replace_of_readable {contents : Text} {l : Ledger}
    (hcontents : Ledger.read contents = .ok l) (hreadable : t.store.Readable reference) :
    t.step (fun n => .time (clock n)) (.replace reference contents) =
      (⟨t.store.put reference (.ofLedger l), t.readings⟩, .ok .done) := by
  rcases hreadable with ⟨there, hthere⟩
  simp only [step, Store.replace, hcontents, hthere, Except.map]

theorem step_replace_of_spoilt {contents : Text} {l : Ledger}
    (hcontents : Ledger.read contents = .ok l) (hspoilt : t.store.OnlySpoilt)
    (hunreadable : ¬t.store.Readable reference) :
    t.step (fun n => .time (clock n)) (.replace reference contents) =
      (t, .error (.unreadable .misshapen)) := by
  cases hthere : (t.store.holding reference).ledger with
  | ok there => exact absurd ⟨there, hthere⟩ hunreadable
  | error fault =>
      rw [hspoilt reference fault hthere] at hthere
      exact step_of_refuses (.of_replace hcontents hthere)

/-- A ledger that can be read is put in the place of what is there, and its
    revisions are listed from then on, exactly if the run before has not spoilt
    what is there. If it has, the ledger is refused and nothing changes. -/
theorem replace_done_iff (clock : Nat → Binary64) (history : List Request)
    (reference contents : Text) {l : Ledger} (hread : Ledger.read contents = .ok l) :
    (((reached clock history).step (fun n => .time (clock n)) (.replace reference contents)).2 =
        .ok .done ↔ ¬start.Spoils clock reference history) ∧
      (¬start.Spoils clock reference history →
        ∃ rs, ((reached clock history).step (fun n => .time (clock n))
            (.replace reference contents)).1.store.ask reference Ledger.newestFirst = .ok rs ∧
          rs.map (·.id) = l.ids.reverse) ∧
      (start.Spoils clock reference history →
        (reached clock history).step (fun n => .time (clock n)) (.replace reference contents) =
          (reached clock history, .error (.unreadable .misshapen))) := by
  have hreadable := readable_reached_iff clock reference history
  by_cases hspoils : start.Spoils clock reference history
  · rw [step_replace_of_spoilt hread (onlySpoilt_reached clock history) fun h => hreadable.mp h hspoils]
    exact ⟨iff_of_false (by simp) (not_not_intro hspoils), fun h => absurd hspoils h, fun _ => rfl⟩
  · rw [step_replace_of_readable hread (hreadable.mpr hspoils)]
    refine ⟨iff_of_true rfl hspoils, fun _ => ⟨l.reread.newestFirst, ?_, ?_⟩,
      fun h => absurd h hspoils⟩
    · rw [Store.ask, Store.holding?_put_self]
      change (Holding.ofLedger l).ledger.map Ledger.newestFirst = _
      rw [Holding.ledger_ofLedger (Ledger.finite_of_read hread)]
      rfl
    · rw [Ledger.newestFirst_ids, Ledger.ids_reread]

/-- A ledger put in the place of one whose latest revision was added once more,
    when the clock did not give a finite time. -/
theorem replace_done_latest :
    Ledger.read "\x7b\"revisions\":[\x7b\"revision\":\"b\",\"time\":1.0\x7d]\x7d".toList =
        .ok ⟨[⟨['b'], .one⟩]⟩ ∧
      ((reached (fun n => if n = 0 then .one else .nan) [.add ['r'] ['a'], .add ['r'] ['a']]).step
        (fun n => .time (if n = 0 then .one else .nan)) (.replace ['r']
          "\x7b\"revisions\":[\x7b\"revision\":\"b\",\"time\":1.0\x7d]\x7d".toList)).2 =
        .ok .done := by
  have hread : Ledger.read
      "\x7b\"revisions\":[\x7b\"revision\":\"b\",\"time\":1.0\x7d]\x7d".toList =
      .ok ⟨[⟨['b'], .one⟩]⟩ := by decide +kernel
  have hreadable : (reached (fun n => if n = 0 then .one else .nan)
      [.add ['r'] ['a'], .add ['r'] ['a']]).store.Readable ['r'] :=
    ⟨⟨[⟨['a'], .one⟩]⟩, by decide +kernel⟩
  exact ⟨hread, (replace_done_iff _ _ ['r'] _ hread).1.mpr
    ((readable_reached_iff _ _ _).mp hreadable)⟩

/-- A revision is recorded when the clock does not give a finite time, and then
    no ledger can be put in the place of what was written. -/
theorem not_replace_done :
    Ledger.read "\x7b\"revisions\":[\x7b\"revision\":\"b\",\"time\":1.0\x7d]\x7d".toList =
        .ok ⟨[⟨['b'], .one⟩]⟩ ∧
      (start.run (fun _ => .time .nan) [.add ['r'] ['a'], .replace ['r']
        "\x7b\"revisions\":[\x7b\"revision\":\"b\",\"time\":1.0\x7d]\x7d".toList]).2 =
        [.ok .done, .error (.unreadable .misshapen)] := by
  exact ⟨by decide +kernel, by decide +kernel⟩

end Session

end PackageIndex
