import PackageIndex.Proofs.Revision.Shelf

/-!
# A Store Is a Shelf

A store that starts with nothing behaves like a shelf of ledgers, although it
keeps texts and reads and writes them all the time. The relation that carries
this over any run is `Matches`: where the shelf has a ledger, the store holds
the text of one that stands in for it, and where it has none, nothing is held.
So both list the same references. Every operation preserves the relation
(`step_refines`), and so every run does (`run_refines`).

What follows is that nothing is ever refused but a ledger that cannot be read
to begin with, and that what is given back has the same form and the same
identifiers. Only times may differ, from being read and written once more with
every operation. Where the times involved are kept by that, nothing differs.

## Main definitions

* `Holding.Holds`: A holding has the text of a ledger that stands in.
* `Store.Matches`: A store holds what is on a shelf.
* `Reply.Agrees`: Two replies that are equal but for times.
* `Request.accepted`: Whether an operation is carried out.
* `Request.Kept`: An operation brings in no time that is not kept.

## Theorems

* `ledger_of_holds`: What is held can be read, and still stands in.
* `Store.Matches.put`: Putting ledgers that match preserves the relation.
* `Store.Matches.references`: Both list the same references.
* `step_refines`: One operation preserves the relation.
* `run_refines`: A store answers every run of operations as the shelf does.
-/

namespace PackageIndex

namespace Holding

/-- A holding whose lock is in order has the text of a ledger that stands in
    for the one on the shelf. -/
def Holds (kept : Prop) (h : Holding) (l : Ledger) : Prop :=
  h.broken = false ∧ ∃ k : Ledger, h.text = k.write ∧ k.Follows kept l

theorem holds_ofLedger {kept : Prop} {k l : Ledger} (h : k.Follows kept l) :
    Holds kept (.ofLedger k) l := ⟨rfl, k, rfl, h⟩

/-- A ledger is never written as the empty text, so what is held is what is read
    of it. -/
theorem ledger_ofLedger_eq (l : Ledger) :
    (ofLedger l).ledger = (Ledger.read l.write).mapError .unreadable := by
  have hlock : (ofLedger l).broken = false := rfl
  have hne : (ofLedger l).text.isEmpty = false := by
    rw [ofLedger, Ledger.write_eq]
    rfl
  simp only [ledger, hlock, hne, Bool.false_eq_true, if_false]
  change _ = (Ledger.read (ofLedger l).text).mapError StoreFault.unreadable
  cases Ledger.read (ofLedger l).text <;> rfl

/-- What is held can be read, and what is read still stands in. -/
theorem ledger_of_holds {kept : Prop} {h : Holding} {l : Ledger} (hholds : h.Holds kept l) :
    ∃ k, h.ledger = .ok k ∧ k.Follows kept l := by
  rcases hholds with ⟨hbroken, k, htext, hk⟩
  have hwritten : h = .ofLedger k := by
    rw [ofLedger, ← htext, ← hbroken]
  refine ⟨k.reread, ?_, hk.reread⟩
  rw [hwritten, ledger_ofLedger_eq, Ledger.read_write hk.finite]
  rfl

end Holding

namespace Store

/-- A store holds what is on a shelf: under each reference the text of a ledger
    that stands in for the one on the shelf, or nothing where there is none. -/
def Matches (kept : Prop) (s : Store) (shelf : Shelf) : Prop :=
  ∀ reference, Option.Rel (Holding.Holds kept) (s.holding? reference) (shelf.ledgers reference)

variable {kept : Prop} {s : Store} {shelf : Shelf}

namespace Matches

theorem empty : Matches kept .empty .start := fun _ => .none

/-- Putting ledgers that match preserves the relation. -/
theorem put (hs : s.Matches kept shelf) (reference : Text) {k l : Ledger}
    (h : k.Follows kept l) :
    (s.put reference (.ofLedger k)).Matches kept (shelf.put reference l) := by
  intro other
  rw [Store.holding?_put, Shelf.ledgers_put]
  by_cases hother : other = reference
  · rw [if_pos hother, if_pos hother]
    exact .some (Holding.holds_ofLedger h)
  · rw [if_neg hother, if_neg hother]
    exact hs other

/-- A reference is known to both or to neither. What is held under it can be
    read, and stands in. -/
theorem holding? (hs : s.Matches kept shelf) (reference : Text) :
    (s.holding? reference = none ∧ shelf.ledgers reference = none) ∨
      ∃ h k l, s.holding? reference = some h ∧ shelf.ledgers reference = some l ∧
        h.ledger = .ok k ∧ k.Follows kept l := by
  have hrel := hs reference
  generalize s.holding? reference = h at *
  generalize shelf.ledgers reference = l at *
  cases hrel with
  | none => exact Or.inl ⟨rfl, rfl⟩
  | some hholds =>
      obtain ⟨k, hread, hk⟩ := Holding.ledger_of_holds hholds
      exact Or.inr ⟨_, k, _, rfl, rfl, hread, hk⟩

/-- Both list the same references, since both list those they know. -/
theorem references (hs : s.Matches kept shelf) : s.references = shelf.references := by
  refine eq_of_ascending s.holdings.ascending_names shelf.ascending fun reference => ?_
  rw [Store.mem_references_iff, shelf.known]
  rcases hs.holding? reference with ⟨hnone, hl⟩ | ⟨h, k, l, hsome, hl, -⟩
  · rw [hnone, hl]
    rfl
  · rw [hsome, hl]
    rfl

/-- What is held under a reference, known or not, can be read. -/
theorem holding (hs : s.Matches kept shelf) (reference : Text) :
    ∃ k, (s.holding reference).ledger = .ok k ∧ k.Follows kept (shelf.ledger reference) := by
  unfold Store.holding Shelf.ledger
  rcases hs.holding? reference with ⟨hnone, hl⟩ | ⟨h, k, l, hsome, hl, hread, hk⟩
  · rw [hnone, hl]
    exact ⟨.empty, rfl, .empty⟩
  · rw [hsome, hl]
    exact ⟨k, hread, hk⟩

/-- Whatever is asked about a reference is answered by one ledger, which stands
    in for the one on the shelf. -/
theorem ask (hs : s.Matches kept shelf) (reference : Text) :
    ∃ k, k.Follows kept (shelf.ledger reference) ∧
      ∀ {α : Type} (question : Ledger → α), s.ask reference question = .ok (question k) := by
  unfold Shelf.ledger
  rcases hs.holding? reference with ⟨hnone, hl⟩ | ⟨h, k, l, hsome, hl, hread, hk⟩
  · refine ⟨.empty, ?_, fun question => ?_⟩
    · rw [hl]
      exact .empty
    · rw [Store.ask, hnone]
  · refine ⟨k, ?_, fun question => ?_⟩
    · rw [hl]
      exact hk
    · rw [Store.ask, hsome]
      change h.ledger.map question = _
      rw [hread]
      rfl

end Matches

end Store

/-- Two replies that are equal but for times: they give the same identifiers in
    the same order, and ledgers in written form with the same identifiers. -/
def Reply.Agrees : Reply → Reply → Prop
  | .done, .done => True
  | .text s, .text t =>
    Option.Rel (fun s t => ∃ k l : Ledger, s = k.write ∧ t = l.write ∧ k.Finite ∧ k.ids = l.ids) s t
  | .revision r, .revision q => r.map (·.id) = q.map (·.id)
  | .time s, .time t => s.isSome = t.isSome
  | .revisions rs, .revisions qs => rs.map (·.id) = qs.map (·.id)
  | .references s, .references t => s = t
  | _, _ => False

/-- Two outcomes that are the same refusal, or replies that agree. -/
def Agree : Except StoreFault Reply → Except StoreFault Reply → Prop
  | .ok reply, .ok other => reply.Agrees other
  | .error fault, .error other => fault = other
  | _, _ => False

theorem Agree.map_isOk {outcomes others : List (Except StoreFault Reply)}
    (h : List.Forall₂ Agree outcomes others) :
    outcomes.map Except.isOk = others.map Except.isOk := by
  induction h with
  | nil => rfl
  | @cons outcome other _ _ hagree _ ih =>
      have hone : outcome.isOk = other.isOk := by
        cases outcome with
        | error fault =>
            cases other with
            | error other => rfl
            | ok other => exact hagree.elim
        | ok reply =>
            cases other with
            | error other => exact hagree.elim
            | ok other => rfl
      rw [List.map_cons, List.map_cons, hone, ih]

namespace Request

/-- Whether an operation is carried out. Only a ledger that cannot be read is
    refused. -/
def accepted : Request → Bool
  | .replace _ contents => (Ledger.read contents).isOk
  | _ => true

/-- Whether an operation reads the clock. -/
def readsClock : Request → Bool
  | .add _ _ => true
  | _ => false

/-- An operation brings in no time that is not kept, other than from the
    clock. -/
def Kept : Request → Prop
  | .replace _ contents =>
    ∀ l, Ledger.read contents = .ok l → l.Times fun time => time.reread = time
  | _ => True

end Request

namespace Shelf

theorem step_isOk (clock : Nat → Binary64) (s : Shelf) (request : Request) :
    (s.step clock request).2.isOk = request.accepted := by
  cases request with
  | remove reference id =>
      simp only [step]
      split <;> rfl
  | replace reference contents =>
      simp only [step, Request.accepted]
      split
      · rename_i hread
        rw [hread]
        rfl
      · rename_i hread
        rw [hread]
        rfl
  | _ => rfl

theorem step_readings (clock : Nat → Binary64) (s : Shelf) (request : Request) :
    (s.step clock request).1.readings =
      s.readings + if request.readsClock then 1 else 0 := by
  cases request with
  | remove reference id =>
      simp only [step]
      split <;> rfl
  | replace reference contents =>
      simp only [step]
      split <;> rfl
  | _ => rfl

theorem run_isOk (clock : Nat → Binary64) (s : Shelf) (requests : List Request) :
    (s.run clock requests).2.map Except.isOk = requests.map Request.accepted := by
  induction requests generalizing s with
  | nil => rfl
  | cons request rest ih =>
      rw [run_cons, List.map_cons, List.map_cons, step_isOk, ih]

theorem run_readings (clock : Nat → Binary64) (s : Shelf) (requests : List Request) :
    (s.run clock requests).1.readings = s.readings + requests.countP Request.readsClock := by
  induction requests generalizing s with
  | nil => rfl
  | cons request rest ih =>
      rw [run_cons, ih, step_readings, List.countP_cons]
      omega

end Shelf

namespace Session

/-- A session has a store that holds what is on a shelf, and has read the clock
    as often. -/
structure Matches (kept : Prop) (t : Session) (s : Shelf) : Prop where
  store : t.store.Matches kept s
  readings : t.readings = s.readings

variable {kept : Prop} {t : Session} {s : Shelf} {clock : Nat → Binary64}

/-- What one operation does to a session and to a shelf that match: they still
    match, and the replies agree. If the times are kept, they are the same. -/
structure StepMatches (kept : Prop) (out : Session × Except StoreFault Reply)
    (expected : Shelf × Except StoreFault Reply) : Prop where
  state : out.1.Matches kept expected.1
  agree : Agree out.2 expected.2
  same : kept → out.2 = expected.2

theorem step_add (h : t.Matches kept s) (reference id : Text)
    (hfinite : (clock s.readings).isFinite = true)
    (hclock : kept → (clock s.readings).reread = clock s.readings) :
    StepMatches kept (t.step (fun n => .time (clock n)) (.add reference id))
      (s.step clock (.add reference id)) := by
  obtain ⟨k, hread, hk⟩ := h.store.holding reference
  -- The ledger can be read, so the clock is read and nothing is refused.
  have hadd : t.store.add reference id (.time (clock t.readings)) =
      (t.store.put reference (.ofLedger (k.add id (clock t.readings))), .ok ()) := by
    unfold Store.add
    simp only [hread]
  have hcount : t.store.readsClock reference = true := by
    unfold Store.readsClock
    rw [hread]
  have hnext := h.store.put reference (hk.add id hfinite hclock)
  simp only [step, Shelf.step, hadd, hcount, if_true]
  rw [h.readings]
  exact ⟨⟨hnext, rfl⟩, trivial, fun _ => rfl⟩

theorem step_remove (h : t.Matches kept s) (reference id : Text) :
    StepMatches kept (t.step (fun n => .time (clock n)) (.remove reference id))
      (s.step clock (.remove reference id)) := by
  rcases h.store.holding? reference with ⟨hnone, hl⟩ | ⟨held, k, l, hsome, hl, hread, hk⟩
  · have hremove : t.store.remove reference id = (t.store, .ok none) := by
      unfold Store.remove
      simp only [hnone]
    simp only [step, Shelf.step, hremove, hl]
    exact ⟨h, rfl, fun _ => rfl⟩
  · -- A known reference has its text rewritten, whether or not a revision goes.
    have hremove : t.store.remove reference id =
        (t.store.put reference (.ofLedger (k.remove id)), .ok (k.find? id)) := by
      unfold Store.remove
      simp only [hsome, hread]
    have hnext := h.store.put reference (hk.remove id)
    simp only [step, Shelf.step, hremove, hl]
    refine ⟨⟨hnext, h.readings⟩, ?_, fun hkept => ?_⟩
    · change (k.find? id).map (·.id) = (l.find? id).map (·.id)
      rw [Ledger.find?_id, Ledger.find?_id, hk.ids]
    · rw [(hk.same hkept).1]
      rfl

theorem step_replace (h : t.Matches kept s) (reference contents : Text)
    (hcontents : kept → (Request.replace reference contents).Kept) :
    StepMatches kept (t.step (fun n => .time (clock n)) (.replace reference contents))
      (s.step clock (.replace reference contents)) := by
  simp only [step, Shelf.step, Store.replace]
  cases hread : Ledger.read contents with
  | error fault => exact ⟨h, rfl, fun _ => rfl⟩
  | ok l =>
      -- What is there is read too, which is no obstacle.
      obtain ⟨k, hthere, -⟩ := h.store.holding reference
      have hl : l.Follows kept l :=
        ⟨Ledger.finite_of_read hread, rfl, fun hkept => ⟨rfl, hcontents hkept l hread⟩⟩
      simp only [hthere]
      exact ⟨⟨h.store.put reference hl, h.readings⟩, trivial, fun _ => rfl⟩

theorem step_written (h : t.Matches kept s) (reference : Text) :
    StepMatches kept (t.step (fun n => .time (clock n)) (.written reference))
      (s.step clock (.written reference)) := by
  simp only [step, Shelf.step, Store.written]
  rcases h.store.holding? reference with ⟨hnone, hl⟩ | ⟨held, k, l, hsome, hl, hread, hk⟩
  · rw [hnone, hl]
    exact ⟨h, .none, fun _ => rfl⟩
  · rw [hsome, hl]
    simp only [hread]
    refine ⟨h, .some ⟨k, l, rfl, rfl, hk.finite, hk.ids⟩, fun hkept => ?_⟩
    rw [(hk.same hkept).1]
    rfl

/-- The four questions about a ledger are answered in the same way. -/
theorem step_ask (h : t.Matches kept s) {request : Request} {reference : Text} {α : Type}
    {question : Ledger → α} {reply : α → Reply}
    (hstep : t.step (fun n => .time (clock n)) request =
      (t, (t.store.ask reference question).map reply))
    (hshelf : s.step clock request = (s, .ok (reply (question (s.ledger reference)))))
    (hids : ∀ k l : Ledger, k.ids = l.ids → (reply (question k)).Agrees (reply (question l))) :
    StepMatches kept (t.step (fun n => .time (clock n)) request) (s.step clock request) := by
  obtain ⟨k, hk, hask⟩ := h.store.ask reference
  rw [hstep, hshelf, hask]
  refine ⟨h, hids k _ hk.ids, fun hkept => ?_⟩
  rw [(hk.same hkept).1]
  rfl

theorem time?_isSome {k l : Ledger} (h : k.ids = l.ids) (id : Text) :
    (k.time? id).isSome = (l.time? id).isSome := by
  have hfind : (k.find? id).map (·.id) = (l.find? id).map (·.id) := by
    rw [Ledger.find?_id, Ledger.find?_id, h]
  have hsome := congrArg Option.isSome hfind
  rw [Option.isSome_map, Option.isSome_map] at hsome
  rw [Ledger.time?, Ledger.time?, Option.isSome_map, Option.isSome_map, hsome]

/-- One operation on a session and on a shelf that match. -/
theorem step_refines (h : t.Matches kept s) (request : Request)
    (hfinite : request.readsClock = true → (clock s.readings).isFinite = true)
    (hclock : kept → request.readsClock = true → (clock s.readings).reread = clock s.readings)
    (hrequest : kept → request.Kept) :
    StepMatches kept (t.step (fun n => .time (clock n)) request) (s.step clock request) := by
  cases request with
  | add reference id => exact step_add h reference id (hfinite rfl) fun hkept => hclock hkept rfl
  | remove reference id => exact step_remove h reference id
  | replace reference contents => exact step_replace h reference contents hrequest
  | written reference => exact step_written h reference
  | latest reference =>
      refine step_ask h rfl rfl fun k l hids => ?_
      change k.latest?.map (·.id) = l.latest?.map (·.id)
      rw [Ledger.latest?_id, Ledger.latest?_id, hids]
  | time reference id =>
      refine step_ask h rfl rfl fun k l hids => ?_
      exact time?_isSome hids id
  | revisions reference =>
      refine step_ask h rfl rfl fun k l hids => ?_
      change k.newestFirst.map (·.id) = l.newestFirst.map (·.id)
      rw [Ledger.newestFirst_ids, Ledger.newestFirst_ids, hids]
  | references =>
      have hnames := h.store.references
      refine ⟨h, hnames, fun _ => ?_⟩
      simp only [step, Shelf.step, hnames]

theorem run_cons (clock : Nat → Reading) (t : Session) (request : Request) (rest : List Request) :
    t.run clock (request :: rest) =
      (((t.step clock request).1.run clock rest).1,
        (t.step clock request).2 :: ((t.step clock request).1.run clock rest).2) := rfl

/-- Operations one after the other, on a session and on a shelf that match. -/
theorem run_refines_from (h : t.Matches kept s) (requests : List Request)
    (hfinite : ∀ n, s.readings ≤ n → n < s.readings + requests.countP Request.readsClock →
      (clock n).isFinite = true)
    (hclock : kept → ∀ n, s.readings ≤ n → n < s.readings + requests.countP Request.readsClock →
      (clock n).reread = clock n)
    (hrequests : kept → ∀ request ∈ requests, request.Kept) :
    (t.run (fun n => .time (clock n)) requests).1.Matches kept (s.run clock requests).1 ∧
      List.Forall₂ Agree (t.run (fun n => .time (clock n)) requests).2 (s.run clock requests).2 ∧
      (kept → (t.run (fun n => .time (clock n)) requests).2 = (s.run clock requests).2) := by
  induction requests generalizing t s with
  | nil => exact ⟨h, .nil, fun _ => rfl⟩
  | cons request rest ih =>
      rw [List.countP_cons] at hfinite hclock
      have hreadings := Shelf.step_readings clock s request
      have hstep := step_refines h request
        (fun hreads => hfinite _ (Nat.le_refl _) (by rw [if_pos hreads]; omega))
        (fun hkept hreads => hclock hkept _ (Nat.le_refl _) (by rw [if_pos hreads]; omega))
        (fun hkept => hrequests hkept request List.mem_cons_self)
      -- The readings left for the rest are those after the first operation's.
      obtain ⟨hmatch, hagree, hsame⟩ := ih hstep.state
        (fun n hlow hhigh => hfinite n (by omega) (by omega))
        (fun hkept n hlow hhigh => hclock hkept n (by omega) (by omega))
        (fun hkept r hr => hrequests hkept r (List.mem_cons_of_mem _ hr))
      rw [run_cons, Shelf.run_cons]
      refine ⟨hmatch, .cons hstep.agree hagree, fun hkept => ?_⟩
      simp only
      rw [hstep.same hkept, hsame hkept]

/-- A store answers every run of operations as the shelf does. It refuses only
    ledgers that cannot be read, reads the clock once for every revision
    recorded, and gives back the same but for times, which are the same too if
    all times involved are kept. -/
theorem run_refines (clock : Nat → Binary64) (requests : List Request)
    (hfinite : ∀ n < requests.countP Request.readsClock, (clock n).isFinite = true) :
    (start.run (fun n => .time (clock n)) requests).2.map Except.isOk =
        requests.map Request.accepted ∧
      (start.run (fun n => .time (clock n)) requests).1.readings =
        requests.countP Request.readsClock ∧
      List.Forall₂ Agree (start.run (fun n => .time (clock n)) requests).2
        (Shelf.start.run clock requests).2 ∧
      ((∀ n < requests.countP Request.readsClock, (clock n).reread = clock n) →
        (∀ request ∈ requests, request.Kept) →
        (start.run (fun n => .time (clock n)) requests).2 = (Shelf.start.run clock requests).2) := by
  -- The run is followed with the condition on its times as a parameter, so one
  -- induction gives both what holds without it and what holds with it.
  have hstart : start.Matches
      ((∀ n < requests.countP Request.readsClock, (clock n).reread = clock n) ∧
        ∀ request ∈ requests, request.Kept) .start := ⟨.empty, rfl⟩
  have hzero : Shelf.start.readings + requests.countP Request.readsClock =
      requests.countP Request.readsClock := Nat.zero_add _
  obtain ⟨hmatch, hagree, hsame⟩ := run_refines_from hstart requests
    (fun n _ hn => hfinite n (hzero ▸ hn)) (fun hkept n _ hn => hkept.1 n (hzero ▸ hn))
    (fun hkept => hkept.2)
  refine ⟨?_, ?_, hagree, fun hclock hrequests => hsame ⟨hclock, hrequests⟩⟩
  · rw [← Shelf.run_isOk clock .start requests]
    exact Agree.map_isOk hagree
  · rw [hmatch.readings, Shelf.run_readings, hzero]

/-- Two revisions recorded under one reference and then asked for, of which the
    second is listed first. -/
theorem run_refines_two :
    (∀ n < [Request.add ['r'] ['a'], .add ['r'] ['b'], .revisions ['r']].countP Request.readsClock,
        ((fun _ => Binary64.one) n).isFinite = true) ∧
      (start.run (fun _ => .time .one) [.add ['r'] ['a'], .add ['r'] ['b'], .revisions ['r']]).2 =
        (Shelf.start.run (fun _ => .one) [.add ['r'] ['a'], .add ['r'] ['b'], .revisions ['r']]).2 ∧
      (start.run (fun _ => .time .one) [.add ['r'] ['a'], .add ['r'] ['b'], .revisions ['r']]).2 =
        [.ok .done, .ok .done, .ok (.revisions [⟨['b'], .one⟩, ⟨['a'], .one⟩])] := by
  have hfinite : ∀ n < [Request.add ['r'] ['a'], .add ['r'] ['b'], .revisions ['r']].countP
      Request.readsClock, ((fun _ => Binary64.one) n).isFinite = true := fun _ _ => rfl
  obtain ⟨-, -, -, hsame⟩ := run_refines (fun _ => .one) _ hfinite
  refine ⟨hfinite, hsame (fun _ _ => Binary64.reread_one) fun request hrequest => ?_,
    by decide +kernel⟩
  simp only [List.mem_cons, List.not_mem_nil, or_false] at hrequest
  rcases hrequest with rfl | rfl | rfl <;> trivial

end Session

end PackageIndex
