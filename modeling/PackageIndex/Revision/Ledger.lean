import PackageIndex.Log.Event
import PackageIndex.Revision.Basic

/-!
# Ledgers

A ledger is the revisions of one package in the order in which they were
recorded, oldest first. Recording a revision that is in the ledger already
moves it to the end, unless it is there: every file of a revision that is
uploaded reports the revision again, and only the first report counts.

A ledger that was read may hold an identifier twice. Then looking up and
removing find the oldest revision of that name.

## Main definitions

* `Ledger`: Revisions in the order recorded.
* `Ledger.add`: A revision recorded at a time.
* `Ledger.remove`: A revision removed.
* `Ledger.latest?`, `Ledger.time?`, `Ledger.newestFirst`: What a ledger tells.
-/

namespace PackageIndex

/-- The revisions of one package in the order recorded, oldest first. -/
structure Ledger where
  revisions : List Revision
  deriving DecidableEq

namespace Ledger

/-- The ledger with no revision. -/
def empty : Ledger := ⟨[]⟩

/-- The revision recorded last. -/
def latest? (l : Ledger) : Option Revision := l.revisions.getLast?

/-- The oldest revision with an identifier. -/
def find? (l : Ledger) (id : Text) : Option Revision := l.revisions.find? (·.id == id)

/-- The time of the oldest revision with an identifier. -/
def time? (l : Ledger) (id : Text) : Option Binary64 := (l.find? id).map (·.time)

/-- The revisions, the one recorded last first. -/
def newestFirst (l : Ledger) : List Revision := l.revisions.reverse

/-- The ledger without the oldest revision that has an identifier. -/
def remove (l : Ledger) (id : Text) : Ledger := ⟨l.revisions.eraseP (·.id == id)⟩

/-- Whether an identifier is that of the revision recorded last. -/
def isLatest (l : Ledger) (id : Text) : Bool := l.latest?.any (·.id == id)

/-- A revision recorded at a time. -/
def add (l : Ledger) (id : Text) (time : Binary64) : Ledger :=
  if l.isLatest id then l else ⟨(l.remove id).revisions ++ [⟨id, time⟩]⟩

/-- What recording a revision has to say. -/
def addReport (l : Ledger) (id : Text) : List Event :=
  if l.isLatest id then
    [⟨.debug, "pkgver::revision::list".toList,
      "Revision ".toList ++ id ++ " is already the latest".toList⟩]
  else []

end Ledger

end PackageIndex
