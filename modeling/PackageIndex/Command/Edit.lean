import PackageIndex.Command.Question
import PackageIndex.Revision.Persisted
import PackageIndex.Text.Blank

/-!
# Edits of a Ledger

The commands that read a ledger and print it changed, or print what it tells.
What they read is what they print, so edits can be chained. Input that is all
blank is the empty ledger.

## Main definitions

* `Edit`: What is done with a ledger.
* `Edit.input`: The ledger that an input holds.
* `Edit.apply`: What an edit prints for a ledger.
-/

namespace PackageIndex

/-- What is done with a ledger. -/
inductive Edit where
  /-- Records a revision and prints the ledger. -/
  | add (id : Text)
  /-- Removes a revision and prints the ledger. -/
  | remove (id : Text)
  /-- Prints the revision recorded last. -/
  | latest
  /-- Prints the revisions, the one recorded last first. -/
  | list
  deriving DecidableEq

namespace Edit

/-- The ledger that an input holds. -/
def input (s : Text) : Except Json.Fault Ledger :=
  if s.all Text.isBlank then .ok .empty else Ledger.read s

/-- What an edit prints for a ledger, at a time. -/
def apply (l : Ledger) (now : Binary64) : Edit → Answer
  | .add id => .line (l.add id now).write true
  | .remove id => .line (l.remove id).write true
  | .latest =>
    match l.latest? with
    | some r => .line r.listed true
    | none => ⟨[], false⟩
  | .list => ⟨l.newestFirst.flatMap fun r => r.listed ++ ['\n'], true⟩

/-- What an edit has to say. -/
def report (l : Ledger) : Edit → List Event
  | .add id => l.addReport id
  | _ => []

end Edit

end PackageIndex
