import PackageIndex.Proofs.Command.Questions
import PackageIndex.Proofs.Revision.History

/-!
# Edits in a Pipeline

A run that changes a ledger reads it from its input and prints it changed. So
runs can be put one behind the other, and together they should come to what the
same changes come to that are made on one ledger, with no text in between.

What goes from one run to the next is a text, and it is not quite the text of the
ledger: a line break ends it. The reader takes that for the space that it is
(`input_write`). Whatever the identifiers are, they are read back. Times need
not be, so what is passed on stands in for the ledger in memory just as a ledger
on a shelf does (`Ledger.Follows`): the identifiers agree, and if the times that
are involved are kept by reading, everything does. In any case the next run can
read it, provided that the clock gives times that are finite.

The first input need not have been printed by a run. It may be blank, or be
written in any form that can be read, and may hold an identifier twice.

## Main definitions

* `Editing`: A run that edits the ledger that it reads.
* `Editing.ofHost`: Every edit can be asked for.
* `Stage`: A run that prints a ledger again.
* `Stage.change`: The change that it makes.
* `outcomes`, `piped`: What runs in a pipeline leave behind, and what they print.
* `Carries`: A text stands for a ledger.
* `Refines`: A pipeline prints what is in memory.

## Theorems

* `Editing.prints`: A run prints what the edit says about the ledger in its input.
* `Edit.input_write`: What was printed can be read.
* `Carries.step`, `Carries.run`: What stages pass on stands for the ledger in memory.
* `refines_ledger`: A pipeline does what the changes do to a ledger in memory.
-/

namespace PackageIndex

namespace Edit

theorem finite_of_input {s : Text} {l : Ledger} (h : input s = .ok l) : l.Finite := by
  unfold input at h
  by_cases hblank : s.all Text.isBlank = true
  · rw [if_pos hblank] at h
    cases h
    exact fun _ hr => absurd hr List.not_mem_nil
  · rw [if_neg hblank] at h
    exact Ledger.finite_of_read h

/-- A ledger with finite times that is printed is an input that holds it, with
    the times read again. -/
theorem input_write {l : Ledger} (h : l.Finite) : input (l.write ++ ['\n']) = .ok l.reread := by
  have hblank : ¬(l.write ++ ['\n']).all Text.isBlank = true := by
    have hbrace : Text.isBlank '{' = false := by decide
    rw [Ledger.write_eq, List.cons_append, List.all_cons, hbrace, Bool.false_and]
    exact Bool.false_ne_true
  rw [input, if_neg hblank, Ledger.read_write_append h rfl]

/-- An edit in words is read as the edit, if its operand would not be taken for
    an option. -/
theorem parse?_words (e : Edit)
    (hplain : ∀ word ∈ (Command.edit e).operands, Reached.isDashed word = false) :
    Arguments.parse? ((Command.edit e).path ++ (Command.edit e).operands) =
      some (.invocation ⟨{}, .edit e⟩) :=
  Arguments.parseFrom_words rfl rfl rfl trivial hplain

/-- Behind two dashes alone the operand may be anything. -/
theorem parse?_words_literal (e : Edit) :
    Arguments.parse? ((Command.edit e).path ++ ['-', '-'] :: (Command.edit e).operands) =
      some (.invocation ⟨{}, .edit e⟩) :=
  Arguments.parseFrom_words_literal rfl rfl rfl trivial

end Edit

/-- A run that edits the ledger that it reads. Its settings can be read and its
    log can be started. What it reads is left open. -/
structure Editing (e : Edit) where
  host : Host Id
  words : List Text
  options : Options
  loaded : Settings
  asks : Arguments.parse? words = some (.invocation ⟨options, .edit e⟩)
  loads : Program.fileSettings host options = .ok loaded
  starts : ∃ log, Program.startLog host (Program.override host options loaded).log = .ok log

namespace Editing

variable {e : Edit}

/-- Every edit can be asked for, in any words that are read as the edit. -/
def ofHost (host : Host Id) (hfilter : host.logFilter = none) (words : List Text)
    (hwords : Arguments.parse? words = some (.invocation ⟨{}, .edit e⟩)) : Editing e where
  host := host
  words := words
  options := {}
  loaded := {}
  asks := hwords
  loads := rfl
  starts := by
    rw [Program.startLog, hfilter]
    exact ⟨_, rfl⟩

/-- The time at which the run takes place. -/
def time (r : Editing e) : Binary64 := r.host.now

/-- The host of a run that reads a text. -/
def reading (r : Editing e) (input : Text) : Host Id :=
  { r.host with readInput := (String.ofList input).toUTF8 }

/-- What the run leaves behind if it reads a text. -/
def outcome (r : Editing e) (input : Text) : Outcome := Program.run (r.reading input) r.words

theorem ledger_toUTF8 {input : Text} {l : Ledger} (h : Edit.input input = .ok l) :
    Program.ledger (String.ofList input).toUTF8 = .ok l := by
  have hread (s : String) : String.fromUTF8? s.toUTF8 = some s := dif_pos s.isValidUTF8
  rw [Program.ledger, hread]
  simp only [String.toList_ofList, h]

/-- A run prints what the edit says about the ledger in its input. -/
theorem prints (r : Editing e) {input : Text} {l : Ledger} (h : Edit.input input = .ok l) :
    (r.outcome input).Prints (if (e.apply l r.time).positive then 0 else 1)
      (e.apply l r.time).output := by
  rcases r.starts with ⟨log, hlog⟩
  -- Neither the settings nor the log depend on the input.
  have hloads : Program.fileSettings (r.reading input) r.options = .ok r.loaded := r.loads
  have hstarts : Program.startLog (r.reading input)
      (Program.override (r.reading input) r.options r.loaded).log = .ok log := hlog
  have hinput : Program.ledger (r.reading input).readInput = .ok l := ledger_toUTF8 h
  rw [outcome, Program.run, r.asks]
  change Outcome.Prints (Program.invoke (r.reading input) ⟨r.options, .edit e⟩) _ _
  simp only [Program.invoke, hloads, hstarts, Program.perform, hinput, bind, pure]
  exact ⟨rfl, rfl, rfl⟩

theorem prints_latest_some (r : Editing .latest) {input : Text} {l : Ledger} {latest : Revision}
    (h : Edit.input input = .ok l) (hlatest : l.latest? = some latest) :
    (r.outcome input).Prints 0 (latest.listed ++ ['\n']) := by
  have hprints := r.prints h
  simp only [Edit.apply, hlatest] at hprints
  exact hprints

theorem prints_latest_none (r : Editing .latest) {input : Text} {l : Ledger}
    (h : Edit.input input = .ok l) (hlatest : l.latest? = none) :
    (r.outcome input).Prints 1 [] := by
  have hprints := r.prints h
  simp only [Edit.apply, hlatest] at hprints
  exact hprints

end Editing

/-- A run that prints the ledger again that it reads, with a revision recorded or
    removed. -/
inductive Stage where
  | add (id : Text) (run : Editing (.add id))
  | remove (id : Text) (run : Editing (.remove id))

namespace Stage

/-- The change that the run makes. A revision is recorded at the time of the
    run. -/
def change : Stage → Ledger.Change
  | add id run => .add id run.time
  | remove id _ => .remove id

/-- What the run leaves behind if it reads a text. -/
def outcome : Stage → Text → Outcome
  | add _ run => run.outcome
  | remove _ run => run.outcome

theorem prints (stage : Stage) {input : Text} {l : Ledger} (h : Edit.input input = .ok l) :
    (stage.outcome input).Prints 0 ((l.change stage.change).write ++ ['\n']) := by
  cases stage with
  | add id run => exact run.prints h
  | remove id run => exact run.prints h

end Stage

namespace Ledger

/-- A property of the time that a change records, if it records one. -/
def Change.Records (P : Binary64 → Prop) : Change → Prop
  | .add _ time => P time
  | .remove _ => True

theorem Follows.change {kept : Prop} {k l : Ledger} (h : Follows kept k l) {c : Change}
    (hfinite : c.Records fun time => time.isFinite = true)
    (hkept : kept → c.Records fun time => time.reread = time) :
    Follows kept (k.change c) (l.change c) := by
  cases c with
  | add id time => exact h.add id hfinite hkept
  | remove id => exact h.remove id

end Ledger

namespace Pipeline

/-- What runs leave behind, each of which reads what the one before it
    printed. -/
def outcomes : Text → List Stage → List Outcome
  | _, [] => []
  | input, stage :: rest => stage.outcome input :: outcomes (stage.outcome input).output rest

/-- What the last of several runs prints, each of which reads what the one before
    it printed. Without a run the input is passed on as it is. -/
def piped : Text → List Stage → Text
  | input, [] => input
  | input, stage :: rest => piped (stage.outcome input).output rest

/-- What is passed on in the end is what the last run printed. -/
theorem exists_last_outcome (input : Text) {stages : List Stage} (hne : stages ≠ []) :
    ∃ o, (outcomes input stages)[stages.length - 1]? = some o ∧ o.output = piped input stages := by
  induction stages generalizing input with
  | nil => exact absurd rfl hne
  | cons stage rest ih =>
      cases rest with
      | nil => exact ⟨_, rfl, rfl⟩
      | cons next rest => exact ih (stage.outcome input).output (List.cons_ne_nil next rest)

/-- A text stands for a ledger. What it holds has the same identifiers, and is the
    ledger if times are kept. -/
def Carries (kept : Prop) (text : Text) (l : Ledger) : Prop :=
  ∃ k, Edit.input text = .ok k ∧ k.Follows kept l

namespace Carries

variable {kept : Prop} {text : Text} {l : Ledger}

/-- What is printed of a ledger that stands in for another stands for it. -/
theorem of_write {k : Ledger} (h : k.Follows kept l) : Carries kept (k.write ++ ['\n']) l :=
  ⟨k.reread, Edit.input_write h.finite, h.reread⟩

/-- A stage prints a ledger that stands in for the one that its change makes. -/
theorem step (h : Carries kept text l) (stage : Stage)
    (hfinite : stage.change.Records fun time => time.isFinite = true)
    (hkept : kept → stage.change.Records fun time => time.reread = time) :
    ∃ k : Ledger, (stage.outcome text).Prints 0 (k.write ++ ['\n']) ∧
      k.Follows kept (l.change stage.change) := by
  rcases h with ⟨k, hinput, hfollows⟩
  exact ⟨k.change stage.change, stage.prints hinput, hfollows.change hfinite hkept⟩

/-- Every stage prints a ledger that stands in for the one in memory, and what is
    printed in the end stands for it. -/
theorem run (h : Carries kept text l) {stages : List Stage}
    (hfinite : ∀ stage ∈ stages, stage.change.Records fun time => time.isFinite = true)
    (hkept : kept → ∀ stage ∈ stages, stage.change.Records fun time => time.reread = time) :
    (∀ i < stages.length, ∃ (o : Outcome) (k : Ledger), (outcomes text stages)[i]? = some o ∧
      o.Prints 0 (k.write ++ ['\n']) ∧
      k.Follows kept (l.run ((stages.map Stage.change).take (i + 1)))) ∧
    Carries kept (piped text stages) (l.run (stages.map Stage.change)) := by
  induction stages generalizing text l with
  | nil => exact ⟨fun i hi => absurd hi (Nat.not_lt_zero i), h⟩
  | cons stage rest ih =>
      simp only [List.forall_mem_cons] at hfinite hkept
      rcases h.step stage hfinite.1 fun hk => (hkept hk).1 with ⟨k, hprints, hfollows⟩
      have hnext : Carries kept (stage.outcome text).output (l.change stage.change) := by
        rw [hprints.2.2]
        exact of_write hfollows
      rcases ih hnext hfinite.2 fun hk => (hkept hk).2 with ⟨hlater, hlast⟩
      refine ⟨fun i hi => ?_, hlast⟩
      cases i with
      | zero => exact ⟨_, k, rfl, hprints, hfollows⟩
      | succ i => exact hlater i (Nat.lt_of_succ_lt_succ hi)

end Carries

/-- A pipeline does in texts what changes do to a ledger in memory. Each stage
    prints the ledger as it is by then, and of what the last one prints the
    questions about a ledger are answered as of the ledger in memory. -/
structure Refines (input : Text) (stages : List Stage) (l : Ledger) : Prop where
  stage : ∀ i < stages.length, ∃ o, (outcomes input stages)[i]? = some o ∧
    o.Prints 0 ((l.run ((stages.map Stage.change).take (i + 1))).write ++ ['\n'])
  last : stages ≠ [] → piped input stages = (l.run (stages.map Stage.change)).write ++ ['\n']
  list : ∀ r : Editing .list, (r.outcome (piped input stages)).Prints 0
    ((l.run (stages.map Stage.change)).newestFirst.flatMap fun entry => entry.listed ++ ['\n'])
  latest_some : ∀ (r : Editing .latest) (newest : Revision),
    (l.run (stages.map Stage.change)).newestFirst.head? = some newest →
      (r.outcome (piped input stages)).Prints 0 (newest.listed ++ ['\n'])
  latest_none : ∀ r : Editing .latest, (l.run (stages.map Stage.change)).newestFirst = [] →
    (r.outcome (piped input stages)).Prints 1 []

/-- Runs that change a ledger, each of which reads what the one before it
    printed, all succeed if the clock gives finite times. The identifiers are
    those that the same changes leave in the ledger that the first input holds. If
    no time is lost in reading, neither the ones in that ledger nor those that the
    clock gave, it is the very ledger that is printed. -/
theorem refines_ledger {input : Text} {l : Ledger} (hinput : Edit.input input = .ok l)
    (stages : List Stage)
    (hfinite : ∀ stage ∈ stages, stage.change.Records fun time => time.isFinite = true) :
    (∀ i < stages.length, ∃ (o : Outcome) (k : Ledger), (outcomes input stages)[i]? = some o ∧
      o.Prints 0 (k.write ++ ['\n']) ∧
      k.ids = (l.run ((stages.map Stage.change).take (i + 1))).ids) ∧
    (l.Times (fun time => time.reread = time) →
      (∀ stage ∈ stages, stage.change.Records fun time => time.reread = time) →
      Refines input stages l) := by
  generalize hkept : (l.Times (fun time => time.reread = time) ∧
    ∀ stage ∈ stages, stage.change.Records fun time => time.reread = time) = kept
  have hstart : Carries kept input l :=
    ⟨l, hinput, Edit.finite_of_input hinput, rfl, fun hk => ⟨rfl, (hkept ▸ hk).1⟩⟩
  rcases hstart.run hfinite fun hk => (hkept ▸ hk).2 with ⟨hstages, text, hpiped, hfollows⟩
  constructor
  · intro i hi
    rcases hstages i hi with ⟨o, k, ho, hprints, hk⟩
    exact ⟨o, k, ho, hprints, hk.ids⟩
  · intro hloaded hrecorded
    have hk : kept := hkept ▸ ⟨hloaded, hrecorded⟩
    rw [(hfollows.same hk).1] at hpiped
    have hstage : ∀ i < stages.length, ∃ o, (outcomes input stages)[i]? = some o ∧
        o.Prints 0 ((l.run ((stages.map Stage.change).take (i + 1))).write ++ ['\n']) := by
      intro i hi
      rcases hstages i hi with ⟨o, k, ho, hprints, hfollows⟩
      rw [(hfollows.same hk).1] at hprints
      exact ⟨o, ho, hprints⟩
    refine ⟨hstage, fun hne => ?_, fun r => r.prints hpiped, fun r newest hnewest => ?_,
      fun r hnil => ?_⟩
    · have hpos := List.length_pos_of_ne_nil hne
      rcases exists_last_outcome input hne with ⟨o, ho, houtput⟩
      rcases hstage (stages.length - 1) (by omega) with ⟨o', ho', hprints⟩
      rw [ho, Option.some.injEq] at ho'
      rw [← houtput, ho', hprints.2.2, Nat.sub_add_cancel hpos, List.take_of_length_le (by simp)]
    · rw [Ledger.newestFirst, List.head?_reverse] at hnewest
      exact r.prints_latest_some hpiped hnewest
    · refine r.prints_latest_none hpiped ?_
      rw [Ledger.latest?, ← List.head?_reverse, ← Ledger.newestFirst, hnil, List.head?_nil]

end Pipeline

/-- A host with a clock that stands still a second after the beginning of 1970. -/
def Host.second : Host Id := { Host.blank with now := Binary64.one }

namespace Pipeline

/-- Two revisions are added to blank input and one of them is removed. The
    identifier of the other would be taken for an option if no two dashes stood
    in front of it. -/
theorem refines_ledger_three :
    ∃ (first : Editing (.add "a".toList)) (second : Editing (.add "-b".toList))
      (third : Editing (.remove "a".toList)),
      Refines "\n".toList
        [.add "a".toList first, .add "-b".toList second, .remove "a".toList third] .empty := by
  refine ⟨.ofHost Host.second rfl _ (Edit.parse?_words _ (by decide)),
    .ofHost Host.second rfl _ (Edit.parse?_words_literal _),
    .ofHost Host.second rfl _ (Edit.parse?_words _ (by decide)), ?_⟩
  have hinput : Edit.input "\n".toList = .ok .empty := by decide
  refine (refines_ledger hinput _ ?_).2 (fun _ hr => absurd hr List.not_mem_nil) ?_
  · simp only [List.forall_mem_cons]
    exact ⟨rfl, rfl, trivial, List.forall_mem_nil _⟩
  · simp only [List.forall_mem_cons]
    exact ⟨Binary64.reread_one, Binary64.reread_one, trivial, List.forall_mem_nil _⟩

end Pipeline

end PackageIndex
