import Mathlib.Data.List.Sort
import PackageIndex.Proofs.Revision.RoundTrip
import PackageIndex.Revision.Store

/-!
# The Shelf a Store Stands For

A store keeps texts and takes them apart on every operation. What it is meant
to be is much simpler: a shelf with a ledger for each reference, on which the
operations work directly. `Shelf.step` says what each operation does there,
with no text and no reading involved, except that a ledger may be put on the
shelf in its written form. A shelf is a function of the reference and the list
of references that have a ledger. How a store finds a text has no part in it.

To compare the two, it has to be said when a ledger that went through its text
still counts as the one on the shelf (`Ledger.Follows`). It holds the same
identifiers in the same order. If the times involved are all kept by reading,
it is the same ledger. That is a condition on times which every operation
preserves, because no operation makes up a time (`add_times`, `remove_times`).

## Main definitions

* `Ledger.ids`: The identifiers of a ledger, oldest first.
* `Ledger.Follows`: A ledger that stands in for another.
* `enter`: Names with one more in its place.
* `Shelf`: Ledgers by reference, and how often the clock has been read.
* `Shelf.put`: A shelf with a ledger put under a reference.
* `Shelf.step`, `Shelf.run`: What operations do to a shelf.

## Theorems

* `ids_add`, `ids_remove`: Identifiers change without regard to times.
* `Follows.add`, `Follows.remove`, `Follows.reread`: Standing in is preserved.
* `mem_enter_iff`, `ascending_enter`: What is among names, and their order.
* `eq_of_ascending`: Names in ascending order are told by which of them there are.
-/

namespace PackageIndex

namespace Ledger

/-- The identifiers of a ledger, oldest first. -/
def ids (l : Ledger) : List Text := l.revisions.map (·.id)

theorem latest?_id (l : Ledger) : l.latest?.map (·.id) = l.ids.getLast? := by
  rw [latest?, ids, List.getLast?_map]

theorem find?_id (l : Ledger) (id : Text) : (l.find? id).map (·.id) = l.ids.find? (· == id) := by
  rw [find?, ids, List.find?_map, Function.comp_def]

theorem newestFirst_ids (l : Ledger) : l.newestFirst.map (·.id) = l.ids.reverse := by
  rw [newestFirst, ids, List.map_reverse]

theorem ids_remove (l : Ledger) (id : Text) : (l.remove id).ids = l.ids.eraseP (· == id) := by
  rw [remove, ids, ids, List.eraseP_map]
  rfl

theorem isLatest_eq (l : Ledger) (id : Text) : l.isLatest id = l.ids.getLast?.any (· == id) := by
  rw [isLatest, ← latest?_id, Option.any_map]

theorem ids_add (l : Ledger) (id : Text) (time : Binary64) :
    (l.add id time).ids =
      if l.ids.getLast?.any (· == id) then l.ids else l.ids.eraseP (· == id) ++ [id] := by
  rw [add, isLatest_eq]
  split
  · rfl
  · rw [← ids_remove, ids, List.map_append]
    rfl

theorem ids_reread (l : Ledger) : l.reread.ids = l.ids := by
  rw [ids, reread, List.map_map]
  rfl

theorem remove_times {P : Binary64 → Prop} {l : Ledger} (h : l.Times P) (id : Text) :
    (l.remove id).Times P := fun r hr => h r (List.mem_of_mem_eraseP hr)

theorem add_times {P : Binary64 → Prop} {l : Ledger} (h : l.Times P) (id : Text)
    {time : Binary64} (htime : P time) : (l.add id time).Times P := by
  unfold add
  split
  · exact h
  · intro r hr
    rcases List.mem_append.mp hr with hr | hr
    · exact remove_times h id r hr
    · rw [List.mem_singleton.mp hr]
      exact htime

/-- A ledger that stands in for another: its times are finite, and it has the
    same identifiers in the same order. If the times are kept, it is the same
    ledger. -/
structure Follows (kept : Prop) (k l : Ledger) : Prop where
  finite : k.Finite
  ids : k.ids = l.ids
  same : kept → k = l ∧ k.Times fun time => time.reread = time

namespace Follows

variable {kept : Prop} {k l : Ledger}

theorem empty : Follows kept .empty .empty :=
  ⟨fun _ hr => absurd hr List.not_mem_nil, rfl,
    fun _ => ⟨rfl, fun _ hr => absurd hr List.not_mem_nil⟩⟩

/-- A ledger that was written and read again still stands in. -/
theorem reread (h : Follows kept k l) : Follows kept k.reread l := by
  refine ⟨finite_reread h.finite, k.ids_reread.trans h.ids, fun hkept => ?_⟩
  rw [k.reread_eq_self_iff.mpr (h.same hkept).2]
  exact h.same hkept

theorem add (h : Follows kept k l) (id : Text) {time : Binary64} (hfinite : time.isFinite = true)
    (hkept : kept → time.reread = time) : Follows kept (k.add id time) (l.add id time) := by
  refine ⟨add_times h.finite id hfinite, ?_, fun hk => ⟨?_, add_times (h.same hk).2 id (hkept hk)⟩⟩
  · rw [ids_add, ids_add, h.ids]
  · rw [(h.same hk).1]

theorem remove (h : Follows kept k l) (id : Text) : Follows kept (k.remove id) (l.remove id) := by
  refine ⟨remove_times h.finite id, ?_, fun hk => ⟨?_, remove_times (h.same hk).2 id⟩⟩
  · rw [ids_remove, ids_remove, h.ids]
  · rw [(h.same hk).1]

end Follows

end Ledger

/-- Names with one more among them. It has its place between those below it and
    those above it, and stands once even if it was there before. -/
def enter (name : Text) (names : List Text) : List Text :=
  names.filter (compare · name == .lt) ++ name :: names.filter (compare · name == .gt)

theorem mem_enter_iff {name other : Text} {names : List Text} :
    other ∈ enter name names ↔ other = name ∨ other ∈ names := by
  rw [enter, List.mem_append, List.mem_cons, List.mem_filter, List.mem_filter]
  -- The other name is below the new one, or it is the new one, or it is above.
  cases hother : compare other name with
  | lt => simp [or_comm]
  | eq => simp [Std.LawfulEqOrd.eq_of_compare hother]
  | gt => simp

theorem ascending_enter (name : Text) {names : List Text}
    (h : names.Pairwise fun a b => compare a b = .lt) :
    (enter name names).Pairwise fun a b => compare a b = .lt := by
  have hbelow (a : Text) (ha : a ∈ names.filter (compare · name == .lt)) :
      compare a name = .lt := beq_iff_eq.mp (List.mem_filter.mp ha).2
  have habove (a : Text) (ha : a ∈ names.filter (compare · name == .gt)) :
      compare name a = .lt := Std.OrientedCmp.lt_of_gt (beq_iff_eq.mp (List.mem_filter.mp ha).2)
  refine List.pairwise_append.mpr ⟨h.filter _, List.pairwise_cons.mpr ⟨habove, h.filter _⟩, ?_⟩
  intro a ha b hb
  rcases List.mem_cons.mp hb with rfl | hb
  · exact hbelow a ha
  · exact Std.TransCmp.lt_trans (hbelow a ha) (habove b hb)

/-- Names in ascending order are told by which of them there are. -/
theorem eq_of_ascending {names others : List Text}
    (hnames : names.Pairwise fun a b => compare a b = .lt)
    (hothers : others.Pairwise fun a b => compare a b = .lt)
    (hmem : ∀ name, name ∈ names ↔ name ∈ others) : names = others := by
  have : Std.Irrefl fun a b : Text => compare a b = .lt :=
    ⟨fun _ hlt => Std.OrientedCmp.not_lt_of_lt hlt hlt⟩
  have : Std.Antisymm fun a b : Text => compare a b = .lt :=
    ⟨fun _ _ hlt hgt => absurd hgt (Std.OrientedCmp.not_lt_of_lt hlt)⟩
  exact List.Pairwise.eq_of_mem_iff hnames hothers hmem

/-- Ledgers by reference, the references that have one in ascending order, and
    how often the clock has been read. -/
structure Shelf where
  ledgers : Text → Option Ledger
  references : List Text
  ascending : references.Pairwise fun a b => compare a b = .lt
  known : ∀ reference, reference ∈ references ↔ (ledgers reference).isSome = true
  readings : Nat

namespace Shelf

/-- A shelf with no ledger, and a clock not read yet. -/
def start : Shelf where
  ledgers _ := none
  references := []
  ascending := .nil
  known _ := by simp
  readings := 0

/-- A shelf with a ledger put under a reference. Under any other reference there
    is what there was. -/
def put (s : Shelf) (reference : Text) (l : Ledger) : Shelf where
  ledgers other := if other = reference then some l else s.ledgers other
  references := enter reference s.references
  ascending := ascending_enter reference s.ascending
  known other := by
    rw [mem_enter_iff, s.known]
    by_cases hother : other = reference
    · simp [hother]
    · simp [hother]
  readings := s.readings

theorem ledgers_put (s : Shelf) (reference other : Text) (l : Ledger) :
    (s.put reference l).ledgers other = if other = reference then some l else s.ledgers other := rfl

/-- The ledger under a reference. An unknown reference has the empty ledger. -/
def ledger (s : Shelf) (reference : Text) : Ledger := (s.ledgers reference).getD .empty

/-- What one operation does to a shelf, and what it gives back. The clock is
    read for every revision that is recorded. -/
def step (clock : Nat → Binary64) (s : Shelf) : Request → Shelf × Except StoreFault Reply
  | .add reference id =>
    ({ s.put reference ((s.ledger reference).add id (clock s.readings)) with
        readings := s.readings + 1 }, .ok .done)
  | .remove reference id =>
    match s.ledgers reference with
    | none => (s, .ok (.revision none))
    | some l => (s.put reference (l.remove id), .ok (.revision (l.find? id)))
  | .replace reference contents =>
    match Ledger.read contents with
    | .error fault => (s, .error (.unreadable fault))
    | .ok l => (s.put reference l, .ok .done)
  | .written reference => (s, .ok (.text ((s.ledgers reference).map Ledger.write)))
  | .latest reference => (s, .ok (.revision (s.ledger reference).latest?))
  | .time reference id => (s, .ok (.time ((s.ledger reference).time? id)))
  | .revisions reference => (s, .ok (.revisions (s.ledger reference).newestFirst))
  | .references => (s, .ok (.references s.references))

/-- Operations one after the other, and what each of them gives back. -/
def run (clock : Nat → Binary64) (s : Shelf) :
    List Request → Shelf × List (Except StoreFault Reply)
  | [] => (s, [])
  | request :: rest =>
    let (s, reply) := s.step clock request
    let (s, replies) := run clock s rest
    (s, reply :: replies)

theorem run_cons (clock : Nat → Binary64) (s : Shelf) (request : Request) (rest : List Request) :
    s.run clock (request :: rest) =
      (((s.step clock request).1.run clock rest).1,
        (s.step clock request).2 :: ((s.step clock request).1.run clock rest).2) := rfl

end Shelf

end PackageIndex
