import PackageIndex.Proofs.Revision.Runs

/-!
# The Order of Times

A clock that never goes back gives times in the order in which revisions are
recorded. A ledger keeps that order, although it does not keep every revision
and does not record every time it is given. Removing leaves the others in their
order, whether it takes the last revision or one out of the middle. Recording
puts a revision at the end with the newest time there is, or it changes nothing
because the revision is at the end already, and then it has an older time that
stands behind none.

What carries this along a run is that the times of a ledger ascend and that each
of them is one of the readings taken so far (`Ledger.Timed`). The second part
says that the next reading is at least as late as all of them. On the shelf that
a store stands for, every operation but putting a ledger there preserves it
(`step_timed`), and as long as the readings are kept by their text the store has
the same ledgers as the shelf.

## Main definitions

* `Ledger.Timed`: The times of a ledger ascend and are readings of a clock.

## Theorems

* `Binary64.le_trans`, `Binary64.le_self`: The order of times.
* `Ledger.Timed.add`, `Ledger.Timed.remove`: Changes of a ledger keep its times in order.
* `step_timed`, `run_timed`: Operations on a shelf keep its times in order.
* `run_chronological`: Revisions are listed from the latest time to the earliest.
-/

namespace PackageIndex

namespace Binary64

theorem le_finite_iff {s t : Bool} {m n : Magnitude} :
    (finite s m).le (finite t n) = true ↔ signed s m.units ≤ signed t n.units :=
  decide_eq_true_iff

/-- A finite number is at most itself. -/
theorem le_self {x : Binary64} (hx : x.isFinite = true) : x.le x = true := by
  rcases exists_of_isFinite hx with ⟨s, m, rfl⟩
  exact le_finite_iff.mpr (Int.le_refl _)

theorem le_trans {x y z : Binary64} (hx : x.isFinite = true) (hy : y.isFinite = true)
    (hz : z.isFinite = true) (hxy : x.le y = true) (hyz : y.le z = true) : x.le z = true := by
  rcases exists_of_isFinite hx with ⟨s, m, rfl⟩
  rcases exists_of_isFinite hy with ⟨t, n, rfl⟩
  rcases exists_of_isFinite hz with ⟨u, k, rfl⟩
  rw [le_finite_iff] at hxy hyz ⊢
  exact Int.le_trans hxy hyz

/-- Readings that never go back from one to the next never go back at all. -/
theorem le_of_successive {clock : Nat → Binary64} {count : Nat}
    (hfinite : ∀ n < count, (clock n).isFinite = true)
    (hnext : ∀ n, n + 1 < count → (clock n).le (clock (n + 1)) = true) {m n : Nat}
    (hmn : m ≤ n) (hn : n < count) : (clock m).le (clock n) = true := by
  induction n, hmn using Nat.le_induction with
  | base => exact le_self (hfinite m hn)
  | succ n hmn ih =>
      exact le_trans (hfinite m (by omega)) (hfinite n (by omega)) (hfinite (n + 1) hn)
        (ih (by omega)) (hnext n hn)

end Binary64

namespace Ledger

variable {clock : Nat → Binary64} {l : Ledger} {count : Nat}

/-- The times of a ledger never decrease from the oldest revision to the latest,
    and each is one of the first readings of a clock. -/
structure Timed (clock : Nat → Binary64) (count : Nat) (l : Ledger) : Prop where
  ascends : l.revisions.Pairwise fun older newer => older.time.le newer.time = true
  readings : ∀ r ∈ l.revisions, ∃ n < count, r.time = clock n

namespace Timed

theorem empty : Timed clock count .empty :=
  ⟨List.Pairwise.nil, fun _ hr => absurd hr List.not_mem_nil⟩

theorem later (h : l.Timed clock count) {more : Nat} (hmore : count ≤ more) :
    l.Timed clock more := by
  refine ⟨h.ascends, fun r hr => ?_⟩
  rcases h.readings r hr with ⟨n, hn, htime⟩
  exact ⟨n, Nat.lt_of_lt_of_le hn hmore, htime⟩

theorem remove (h : l.Timed clock count) (id : Text) : (l.remove id).Timed clock count :=
  ⟨h.ascends.sublist List.eraseP_sublist, fun r hr => h.readings r (List.mem_of_mem_eraseP hr)⟩

/-- The next reading is put behind the others, or not used at all. -/
theorem add (h : l.Timed clock count) (id : Text)
    (hnext : ∀ n < count, (clock n).le (clock count) = true) :
    (l.add id (clock count)).Timed clock (count + 1) := by
  unfold Ledger.add
  split
  · exact h.later (Nat.le_succ count)
  · have hrest := h.remove id
    refine ⟨List.pairwise_append.mpr ⟨hrest.ascends, List.pairwise_singleton _ _, ?_⟩, ?_⟩
    · intro r hr newest hnewest
      rw [List.mem_singleton.mp hnewest]
      rcases hrest.readings r hr with ⟨n, hn, htime⟩
      rw [htime]
      exact hnext n hn
    · intro r hr
      rcases List.mem_append.mp hr with hr | hr
      · exact (hrest.later (Nat.le_succ count)).readings r hr
      · exact ⟨count, Nat.lt_succ_self count, by rw [List.mem_singleton.mp hr]⟩

end Timed

end Ledger

namespace Shelf

variable {clock : Nat → Binary64} {s : Shelf}

/-- All ledgers on a shelf have times in order, from the readings taken so
    far. -/
def Timed (clock : Nat → Binary64) (s : Shelf) : Prop :=
  ∀ reference, (s.ledger reference).Timed clock s.readings

theorem ledger_put (s : Shelf) (reference other : Text) (l : Ledger) :
    (s.put reference l).ledger other = if other = reference then l else s.ledger other := by
  unfold ledger
  rw [ledgers_put]
  split <;> rfl

/-- Putting a ledger there that has its times in order keeps them in order,
    whether or not the clock was read for it. -/
theorem Timed.put (h : s.Timed clock) {readings : Nat} (hreadings : s.readings ≤ readings)
    {l : Ledger} (hl : l.Timed clock readings) (reference : Text) :
    Timed clock { s.put reference l with readings := readings } := by
  intro other
  change ((s.put reference l).ledger other).Timed clock readings
  rw [ledger_put]
  split
  · exact hl
  · exact (h other).later hreadings

theorem ledger_of_ledgers {reference : Text} {l : Ledger} (hl : s.ledgers reference = some l) :
    s.ledger reference = l := by
  rw [ledger, hl, Option.getD_some]

/-- An operation that puts no ledger on the shelf keeps all times in order, if
    the reading it takes is no earlier than those before. -/
theorem step_timed (h : s.Timed clock) {request : Request}
    (hrequest : ∀ reference contents, request ≠ .replace reference contents)
    (hnext : request.readsClock = true →
      ∀ n < s.readings, (clock n).le (clock s.readings) = true) :
    (s.step clock request).1.Timed clock := by
  cases request with
  | add reference id =>
      exact h.put (Nat.le_succ s.readings) ((h reference).add id (hnext rfl)) reference
  | remove reference id =>
      simp only [step]
      split
      · exact h
      · rename_i l hl
        rw [← ledger_of_ledgers hl]
        exact h.put (Nat.le_refl s.readings) ((h reference).remove id) reference
  | replace reference contents => exact absurd rfl (hrequest reference contents)
  | _ => exact h

theorem run_timed (h : s.Timed clock) {requests : List Request}
    (hrequests : ∀ request ∈ requests, ∀ reference contents,
      request ≠ .replace reference contents)
    (hclock : ∀ m n, m ≤ n → n < s.readings + requests.countP Request.readsClock →
      (clock m).le (clock n) = true) :
    (s.run clock requests).1.Timed clock := by
  induction requests generalizing s with
  | nil => exact h
  | cons request rest ih =>
      rw [List.countP_cons] at hclock
      have hreadings := step_readings clock s request
      have hstep := step_timed h (hrequests request List.mem_cons_self) fun hreads n hn =>
        hclock n s.readings (Nat.le_of_lt hn) (by rw [if_pos hreads]; omega)
      rw [run_cons]
      exact ih hstep (fun r hr => hrequests r (List.mem_cons_of_mem _ hr))
        (fun m n hmn hn => hclock m n hmn (by omega))

end Shelf

namespace Session

/-- Where no ledger is put in the place of another and the clock never goes
    back, revisions are listed from the latest time to the earliest. No time is
    later than the last reading of the clock, and the latest revision has the
    latest time. This is so for every reference and after every operation. -/
theorem run_chronological (clock : Nat → Binary64) (requests : List Request)
    (hrequests : ∀ request ∈ requests, ∀ reference contents,
      request ≠ .replace reference contents)
    (hfinite : ∀ n < requests.countP Request.readsClock, (clock n).isFinite = true)
    (hnext : ∀ n, n + 1 < requests.countP Request.readsClock →
      (clock n).le (clock (n + 1)) = true)
    (hkept : ∀ n < requests.countP Request.readsClock, (clock n).reread = clock n)
    (reference : Text) :
    ∃ rs : List Revision,
      ((after (fun n => .time (clock n)) requests).step (fun n => .time (clock n))
          (.revisions reference)).2 = .ok (.revisions rs) ∧
        rs.Pairwise (fun newer older => older.time.le newer.time = true) ∧
        (∀ r ∈ rs, ∃ n, (after (fun n => .time (clock n)) requests).readings = n + 1 ∧
          r.time.le (clock n) = true) ∧
        ((after (fun n => .time (clock n)) requests).step (fun n => .time (clock n))
          (.latest reference)).2 = .ok (.revision rs.head?) ∧
        ∀ latest ∈ rs.head?, ∀ r ∈ rs, r.time.le latest.time = true := by
  have hclock (m n : Nat) (hmn : m ≤ n) (hn : n < requests.countP Request.readsClock) :
      (clock m).le (clock n) = true := Binary64.le_of_successive hfinite hnext hmn hn
  have hzero : Shelf.start.readings + requests.countP Request.readsClock =
      requests.countP Request.readsClock := Nat.zero_add _
  have hbrought : ∀ request ∈ requests, request.Kept := by
    intro request hmem
    cases request with
    | replace reference contents => exact absurd rfl (hrequests _ hmem reference contents)
    | _ => trivial
  -- All times are kept by their text, so the store has the ledgers of the shelf.
  have hstart : start.Matches True .start := ⟨.empty, rfl⟩
  obtain ⟨hmatch, -, -⟩ := run_refines_from hstart requests (fun n _ hn => hfinite n (hzero ▸ hn))
    (fun _ n _ hn => hkept n (hzero ▸ hn)) fun _ => hbrought
  obtain ⟨l, hl, hask⟩ := hmatch.store.ask reference
  have hcount : (after (fun n => .time (clock n)) requests).readings =
      requests.countP Request.readsClock := by
    rw [after, hmatch.readings, Shelf.run_readings, hzero]
  have htimed : l.Timed clock (requests.countP Request.readsClock) := by
    have hshelf := Shelf.run_timed (fun _ => .empty) hrequests (hzero ▸ hclock) reference
    rw [Shelf.run_readings, hzero] at hshelf
    rw [(hl.same trivial).1]
    exact hshelf
  have hlisted : l.newestFirst.Pairwise fun newer older => older.time.le newer.time = true :=
    List.pairwise_reverse.mpr htimed.ascends
  have hread (r : Revision) (hr : r ∈ l.newestFirst) :
      ∃ n < requests.countP Request.readsClock, r.time = clock n :=
    htimed.readings r (List.mem_reverse.mp hr)
  refine ⟨l.newestFirst, ?_, hlisted, fun r hr => ?_, ?_, fun latest hlatest r hr => ?_⟩
  · simp only [step, after, hask, Except.map]
  · rcases hread r hr with ⟨n, hn, htime⟩
    refine ⟨requests.countP Request.readsClock - 1, by omega, ?_⟩
    rw [htime]
    exact hclock n _ (by omega) (by omega)
  · simp only [step, after, hask, Except.map, Ledger.latest?, Ledger.newestFirst,
      List.head?_reverse]
  · -- The latest is in front of all others, and its time is at most itself.
    obtain ⟨rest, hrest⟩ := List.head?_eq_some_iff.mp hlatest
    rw [hrest] at hlisted hr
    rcases List.mem_cons.mp hr with rfl | hr
    · rcases hread r (hrest ▸ List.mem_cons_self) with ⟨n, hn, htime⟩
      rw [htime]
      exact Binary64.le_self (hfinite n hn)
    · exact (List.pairwise_cons.mp hlisted).1 r hr

/-- A clock counts the seconds while three revisions are recorded, the first of
    them once more, and the last of them is removed from between the others. -/
theorem run_chronological_moved :
    ((after (fun n => .time (.nearest false ((n + 1) * unitsOfOne) 1))
        [.add ['r'] ['a'], .add ['r'] ['b'], .add ['r'] ['c'], .add ['r'] ['a'],
          .remove ['r'] ['c']]).step
        (fun n => .time (.nearest false ((n + 1) * unitsOfOne) 1)) (.revisions ['r'])).2 =
        .ok (.revisions [⟨['a'], .nearest false (4 * unitsOfOne) 1⟩,
          ⟨['b'], .nearest false (2 * unitsOfOne) 1⟩]) ∧
      [(⟨['a'], .nearest false (4 * unitsOfOne) 1⟩ : Revision),
          ⟨['b'], .nearest false (2 * unitsOfOne) 1⟩].Pairwise
        fun newer older => older.time.le newer.time = true := by
  have hlist : ((after (fun n => .time (.nearest false ((n + 1) * unitsOfOne) 1))
      [.add ['r'] ['a'], .add ['r'] ['b'], .add ['r'] ['c'], .add ['r'] ['a'],
        .remove ['r'] ['c']]).step
      (fun n => .time (.nearest false ((n + 1) * unitsOfOne) 1)) (.revisions ['r'])).2 =
      .ok (.revisions [⟨['a'], .nearest false (4 * unitsOfOne) 1⟩,
        ⟨['b'], .nearest false (2 * unitsOfOne) 1⟩]) := by
    decide +kernel
  have hnext : ∀ n < 3, (Binary64.nearest false ((n + 1) * unitsOfOne) 1).le
      (.nearest false ((n + 1 + 1) * unitsOfOne) 1) = true := by
    decide +kernel
  obtain ⟨rs, hrs, hlisted, -⟩ := run_chronological
    (fun n => .nearest false ((n + 1) * unitsOfOne) 1)
    [.add ['r'] ['a'], .add ['r'] ['b'], .add ['r'] ['c'], .add ['r'] ['a'], .remove ['r'] ['c']]
    (by simp) (by decide +kernel) (fun n hn => hnext n (Nat.lt_of_succ_lt_succ hn))
    (by decide +kernel) ['r']
  rw [hlist, Except.ok.injEq, Reply.revisions.injEq] at hrs
  exact ⟨hlist, hrs ▸ hlisted⟩

end Session

end PackageIndex
