import PackageIndex.Revision.Catalog
import PackageIndex.Revision.Persisted

/-!
# The Store of Ledgers

A store keeps the ledgers of many packages, each under its own reference and
each in its written form. An operation on a ledger reads the text, works on
what it read, and writes the whole ledger back, so a ledger that cannot be
read cannot be changed either, not even replaced.

Every ledger has a lock of its own, which is held while it is worked on. The
clock is read under that lock, after the ledger has been read. When the clock
fails, the lock breaks and stays broken: from then on every operation on that
ledger is refused, and no other ledger is touched.

A reference is known from the first time something is recorded under it, or a
ledger that could be read is put under it. Asking about an unknown reference
does not make it known.

## Main definitions

* `Holding`: A ledger's text and the state of its lock.
* `Store`: Holdings by reference.
* `Reading`: What the clock gives.
* `StoreFault`: Why an operation was refused.
* `Store.enter`: A reference made known.
* `Store.add`, `Store.remove`, `Store.replace`: What changes a store.
* `Store.written`, `Store.ask`: What a store tells.
* `Request`, `Session`: Operations as values, run against a clock.
-/

namespace PackageIndex

/-- A ledger's text and whether its lock is broken. -/
structure Holding where
  text : Text
  broken : Bool
  deriving DecidableEq

/-- Why an operation on a store was refused. -/
inductive StoreFault where
  /-- The ledger's lock is broken. -/
  | brokenLock
  /-- The text of a ledger cannot be read. -/
  | unreadable (fault : Json.Fault)
  /-- The clock failed. -/
  | clockFailed
  deriving DecidableEq

/-- What the clock gives when it is read. -/
inductive Reading where
  | time (time : Binary64)
  | failure
  deriving DecidableEq

namespace Holding

/-- What a reference holds before anything is recorded under it. Its text is
    empty, which is the one text that is not written by a ledger. -/
def fresh : Holding := ⟨[], false⟩

/-- A ledger in its written form, with its lock in order. -/
def ofLedger (l : Ledger) : Holding := ⟨l.write, false⟩

/-- The ledger that is held, if the lock is in order and the text can be
    read. The empty text is the empty ledger. -/
def ledger (h : Holding) : Except StoreFault Ledger :=
  if h.broken then .error .brokenLock
  else if h.text.isEmpty then .ok .empty
  else
    match Ledger.read h.text with
    | .ok l => .ok l
    | .error fault => .error (.unreadable fault)

end Holding

/-- Holdings by reference. -/
structure Store where
  holdings : Catalog Holding

namespace Store

/-- The store that knows no reference. -/
def empty : Store := ⟨.empty⟩

/-- The references that are known, ascending. -/
def references (s : Store) : List Text := s.holdings.names

/-- What is held under a reference, if it is known. -/
def holding? (s : Store) (reference : Text) : Option Holding := s.holdings.get? reference

theorem mem_references_iff (s : Store) (reference : Text) :
    reference ∈ s.references ↔ (s.holding? reference).isSome = true :=
  s.holdings.mem_names_iff reference

/-- What is held under a reference, known or not. -/
def holding (s : Store) (reference : Text) : Holding := (s.holding? reference).getD .fresh

/-- A store with a holding put under a reference. -/
def put (s : Store) (reference : Text) (h : Holding) : Store := ⟨s.holdings.insert reference h⟩

theorem holding?_put (s : Store) (reference other : Text) (h : Holding) :
    (s.put reference h).holding? other = if other = reference then some h else s.holding? other :=
  s.holdings.get?_insert reference other h

/-- A store that knows a reference. Under one that it did not know there is
    nothing yet. -/
def enter (s : Store) (reference : Text) : Store :=
  match s.holding? reference with
  | some _ => s
  | none => s.put reference .fresh

/-- Whether recording under a reference gets as far as reading the clock. -/
def readsClock (s : Store) (reference : Text) : Bool :=
  match (s.holding reference).ledger with
  | .ok _ => true
  | .error _ => false

/-- A revision recorded under a reference, with what the clock gives. The
    reference is entered before its ledger is read. -/
def add (s : Store) (reference id : Text) (reading : Reading) : Store × Except StoreFault Unit :=
  let h := s.holding reference
  match h.ledger with
  | .error fault => (s.enter reference, .error fault)
  | .ok l =>
    match reading with
    | .failure => (s.put reference { h with broken := true }, .error .clockFailed)
    | .time time => (s.put reference (.ofLedger (l.add id time)), .ok ())

/-- A revision removed, and what was removed. -/
def remove (s : Store) (reference id : Text) : Store × Except StoreFault (Option Revision) :=
  match s.holding? reference with
  | none => (s, .ok none)
  | some h =>
    match h.ledger with
    | .error fault => (s, .error fault)
    | .ok l => (s.put reference (.ofLedger (l.remove id)), .ok (l.find? id))

/-- The ledger that a text holds put under a reference. The reference is
    entered, and the ledger that was there is read, though nothing of it is
    kept. -/
def replace (s : Store) (reference contents : Text) : Store × Except StoreFault Unit :=
  match Ledger.read contents with
  | .error fault => (s, .error (.unreadable fault))
  | .ok l =>
    match (s.holding reference).ledger with
    | .error fault => (s.enter reference, .error fault)
    | .ok _ => (s.put reference (.ofLedger l), .ok ())

/-- What the ledger under a reference tells. An unknown reference has the empty
    ledger. -/
def ask {α : Type} (s : Store) (reference : Text) (question : Ledger → α) :
    Except StoreFault α :=
  match s.holding? reference with
  | none => .ok (question .empty)
  | some h => h.ledger.map question

/-- The text of the ledger under a reference, if the reference is known. -/
def written (s : Store) (reference : Text) : Except StoreFault (Option Text) :=
  match s.holding? reference with
  | none => .ok none
  | some h => h.ledger.map fun l => some l.write

/-- The part of the program that reports on stores. -/
def source : Text := "pkgver::revision::store".toList

/-- What recording a revision has to say. -/
def addReport (s : Store) (reference id : Text) (reading : Reading) : List Event :=
  match (s.holding reference).ledger, reading with
  | .ok l, .time _ =>
    l.addReport id ++
      [⟨.debug, source, "Added revision ".toList ++ id ++ " to ".toList ++ reference⟩]
  | _, _ => []

/-- What removing a revision has to say. -/
def removeReport (s : Store) (reference id : Text) : List Event :=
  match (s.remove reference id).2 with
  | .ok (some _) =>
    [⟨.debug, source, "Removed revision ".toList ++ id ++ " from ".toList ++ reference⟩]
  | _ => []

/-- What replacing a ledger has to say, as soon as the new one has been
    read. -/
def replaceReport (reference contents : Text) : List Event :=
  match Ledger.read contents with
  | .ok l =>
    [⟨.info, source, "Imported ".toList ++ Numeral.write l.revisions.length ++
      " revision(s) for ".toList ++ reference⟩]
  | .error _ => []

end Store

/-- An operation on a store. -/
inductive Request where
  | add (reference id : Text)
  | remove (reference id : Text)
  | replace (reference contents : Text)
  | written (reference : Text)
  | latest (reference : Text)
  | time (reference id : Text)
  | revisions (reference : Text)
  | references
  deriving DecidableEq

/-- What an operation on a store gives back. -/
inductive Reply where
  | done
  | text (text : Option Text)
  | revision (revision : Option Revision)
  | time (time : Option Binary64)
  | revisions (revisions : List Revision)
  | references (references : List Text)
  deriving DecidableEq

/-- A store and how often its clock has been read. -/
structure Session where
  store : Store
  readings : Nat

namespace Session

/-- A store that knows no reference, with a clock not read yet. -/
def start : Session := ⟨.empty, 0⟩

/-- One operation. The clock gives its readings in order, and recording takes
    the next one as soon as the ledger has been read, whether or not the
    revision is the latest already. -/
def step (clock : Nat → Reading) (t : Session) : Request → Session × Except StoreFault Reply
  | .add reference id =>
    let (store, outcome) := t.store.add reference id (clock t.readings)
    let readings := if t.store.readsClock reference then t.readings + 1 else t.readings
    (⟨store, readings⟩, outcome.map fun _ => .done)
  | .remove reference id =>
    let (store, outcome) := t.store.remove reference id
    (⟨store, t.readings⟩, outcome.map .revision)
  | .replace reference contents =>
    let (store, outcome) := t.store.replace reference contents
    (⟨store, t.readings⟩, outcome.map fun _ => .done)
  | .written reference => (t, (t.store.written reference).map .text)
  | .latest reference => (t, (t.store.ask reference Ledger.latest?).map .revision)
  | .time reference id => (t, (t.store.ask reference (·.time? id)).map .time)
  | .revisions reference => (t, (t.store.ask reference Ledger.newestFirst).map .revisions)
  | .references => (t, .ok (.references t.store.references))

/-- What one operation has to say. -/
def report (clock : Nat → Reading) (t : Session) : Request → List Event
  | .add reference id => t.store.addReport reference id (clock t.readings)
  | .remove reference id => t.store.removeReport reference id
  | .replace reference contents => Store.replaceReport reference contents
  | _ => []

/-- Operations one after the other, and what each of them gives back. -/
def run (clock : Nat → Reading) (t : Session) :
    List Request → Session × List (Except StoreFault Reply)
  | [] => (t, [])
  | request :: rest =>
    let (t, reply) := t.step clock request
    let (t, replies) := run clock t rest
    (t, reply :: replies)

end Session

end PackageIndex
