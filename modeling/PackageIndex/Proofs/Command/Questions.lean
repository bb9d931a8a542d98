import PackageIndex.Command.Program
import PackageIndex.Proofs.Command.Words
import PackageIndex.Proofs.Outcome
import PackageIndex.Proofs.Range.Best
import PackageIndex.Proofs.Version.Decomposition

/-!
# Questions Asked One by One

The three commands that answer questions about versions tell the same story,
each in its own run. Whoever asks of every version whether it lies in a range,
and of every two how they compare, can tell from what was printed which version
resolving the range will print, or that it will print none, or that it will be
refused.

The runs need not be alike. Each may have a host of its own, with other options,
other settings and another log. All that they must share is the setting for
pre-releases (`Inquiry`), for what a run prints depends on nothing else beside
the question (`outcome_of_answer`, `refused_iff`).

The version that is printed is known by its place, since the same text may be
given more than once and equal versions may be spelled differently. It lies in
the range and none that does compares greater (`Leads`), and it is the last of
which that can be said.

## Main definitions

* `Outcome.Refused`, `Outcome.Prints`: How a run that asks a question ends.
* `Question.words`: A command line that asks a question.
* `Inquiry`: A run that asks a question.
* `Inquiry.ofHost`: Every question can be asked, under every setting.
* `Surveyed`: All questions about a range and versions have been asked.
* `Leads`: What was printed says that no version in the range is greater.

## Theorems

* `parse?_words`: A question in words is read as the question.
* `outcome_of_answer`, `refused_iff`: A run ends as the answer to its question says.
* `satisfies_refused_iff`, `resolve_refused_iff`: Which questions are refused.
* `resolve_refused_iff_satisfies`: Resolving is refused if asking about a version is.
* `exists_last_leads`: The best version is the last of those that lead.
* `commands_agree`: What resolving prints follows from what the other commands print.
-/

namespace PackageIndex

variable {setting : Option Bool} {q : Question} {range : Text} {versions : List Text}
variable {r : Range} {s t : Text}

namespace Outcome

/-- A run that reports what it refuses, and prints nothing. -/
def Refused (o : Outcome) : Prop :=
  o.code = 1 ∧ o.output = [] ∧ ∃ refusal, o.failure = some (.refused refusal)

/-- A run that does not fail, with its exit code and what it prints. -/
def Prints (o : Outcome) (code : Nat) (output : Text) : Prop :=
  o.failure = none ∧ o.code = code ∧ o.output = output

theorem Prints.not_refused {o : Outcome} {code : Nat} {output : Text} (h : o.Prints code output) :
    ¬o.Refused := by
  rintro ⟨-, -, refusal, hrefused⟩
  rw [h.1] at hrefused
  cases hrefused

end Outcome

namespace Version

theorem parse_refused_iff : (∃ refusal, parse s = .error refusal) ↔ s = [] := by
  by_cases hs : s = []
  · exact iff_of_true ⟨.emptyVersion, by rw [hs]; rfl⟩ hs
  · rw [parse_of_ne_nil hs]
    exact iff_of_false (by rintro ⟨refusal, h⟩; cases h) hs

/-- Texts that are all versions are read as those. -/
theorem mapM_parse (h : [] ∉ versions) : versions.mapM parse = .ok (versions.map Version.mk) := by
  induction versions with
  | nil => rfl
  | cons s rest ih =>
      rw [List.mem_cons, not_or] at h
      rw [List.mapM_cons, parse_of_ne_nil (Ne.symm h.1), ih h.2]
      rfl

theorem mapM_parse_refused_iff :
    (∃ refusal, versions.mapM parse = .error refusal) ↔ [] ∈ versions := by
  rw [exists_mapM_eq_error_iff]
  simp only [parse_refused_iff, exists_eq_right]

end Version

namespace Question

/-- A question that asks about a range and versions: whether one of them lies in
    it, which is the best, or how two of them compare. -/
inductive Concerns (range : Text) (versions : List Text) : Question → Prop where
  | satisfies (s : Text) : s ∈ versions → Concerns range versions (.satisfies range s)
  | resolve : Concerns range versions (.resolve range versions)
  | compare (s t : Text) : s ∈ versions → t ∈ versions → Concerns range versions (.compare s t)

theorem Concerns.complete (hversions : versions ≠ []) (h : q.Concerns range versions) :
    (Command.question q).Complete := by
  cases h with
  | satisfies s hs => trivial
  | resolve => exact hversions
  | compare s t hs ht => trivial

theorem answer_satisfies (hr : Range.parse range = .ok r) (hs : s ≠ []) :
    (satisfies range s).answer setting =
      .ok (.line (if r.contains ⟨s⟩ setting then "true".toList else "false".toList)
        (r.contains ⟨s⟩ setting)) := by
  rw [answer, hr, Version.parse_of_ne_nil hs]
  rfl

theorem answer_compare (hs : s ≠ []) (ht : t ≠ []) :
    (compare s t).answer setting =
      .ok (.line (s ++ [' ', sign (Ord.compare (⟨s⟩ : Version) ⟨t⟩), ' '] ++ t) true) := by
  rw [answer, Version.parse_of_ne_nil hs, Version.parse_of_ne_nil ht]
  rfl

theorem answer_resolve_some {v : Version} (hr : Range.parse range = .ok r) (hs : [] ∉ versions)
    (hbest : r.best? (versions.map Version.mk) setting = some v) :
    (resolve range versions).answer setting = .ok (.line v.text true) := by
  simp only [answer, hr, Version.mapM_parse hs, bind, Except.bind, hbest]
  rfl

theorem answer_resolve_none (hr : Range.parse range = .ok r) (hs : [] ∉ versions)
    (hbest : r.best? (versions.map Version.mk) setting = none) :
    (resolve range versions).answer setting = .ok ⟨[], false⟩ := by
  simp only [answer, hr, Version.mapM_parse hs, bind, Except.bind, hbest]
  rfl

/-- A question about a range and a version is refused if one of them is. -/
theorem satisfies_refused_iff :
    (∃ refusal, (satisfies range s).answer setting = .error refusal) ↔
      (∃ refusal, Range.parse range = .error refusal) ∨ s = [] := by
  cases hr : Range.parse range with
  | error refusal =>
      refine iff_of_true ⟨refusal, ?_⟩ (Or.inl ⟨refusal, rfl⟩)
      rw [answer, hr]
      rfl
  | ok r =>
      by_cases hs : s = []
      · refine iff_of_true ⟨.emptyVersion, ?_⟩ (Or.inr hs)
        rw [answer, hr, hs]
        rfl
      · rw [answer_satisfies hr hs]
        exact iff_of_false (by simp) (by simp [hs])

/-- A question about a range and several versions is refused if the range or one
    of the versions is. -/
theorem resolve_refused_iff :
    (∃ refusal, (resolve range versions).answer setting = .error refusal) ↔
      (∃ refusal, Range.parse range = .error refusal) ∨ [] ∈ versions := by
  cases hr : Range.parse range with
  | error refusal =>
      refine iff_of_true ⟨refusal, ?_⟩ (Or.inl ⟨refusal, rfl⟩)
      rw [answer, hr]
      rfl
  | ok r =>
      by_cases hs : [] ∈ versions
      · rcases Version.mapM_parse_refused_iff.mpr hs with ⟨refusal, hrefusal⟩
        refine iff_of_true ⟨refusal, ?_⟩ (Or.inr hs)
        rw [answer, hr, hrefusal]
        rfl
      · refine iff_of_false ?_ (by simp [hs])
        cases hbest : r.best? (versions.map Version.mk) setting with
        | none =>
            rw [answer_resolve_none hr hs hbest]
            simp
        | some v =>
            rw [answer_resolve_some hr hs hbest]
            simp

end Question

namespace Options

/-- The words of an option that says whether pre-releases are resolved. -/
def words (setting : Option Bool) : List Text :=
  match setting with
  | none => []
  | some true => ["--prerelease".toList, "true".toList]
  | some false => ["--prerelease".toList, "false".toList]

end Options

namespace Question

/-- A question in words, under a setting for pre-releases. -/
def words (setting : Option Bool) (q : Question) : List Text :=
  Options.words setting ++
    ((Command.question q).path ++ ['-', '-'] :: (Command.question q).operands)

/-- A question in words is read as the question. -/
theorem parse?_words (setting : Option Bool) (hcomplete : (Command.question q).Complete) :
    Arguments.parse? (q.words setting) =
      some (.invocation ⟨{ prereleases := setting }, .question q⟩) := by
  have hread : Arguments.parse? (q.words setting) =
      Arguments.parseFrom { here := { prereleases := setting } }
        ((Command.question q).path ++ ['-', '-'] :: (Command.question q).operands) := by
    -- The option stands in front of the command, so it is read at the outermost level.
    rcases setting with _ | _ | _
    · rfl
    · rw [words, Arguments.parse?, Options.words, List.cons_append, Arguments.parseFrom]
      rfl
    · rw [words, Arguments.parse?, Options.words, List.cons_append, Arguments.parseFrom]
      rfl
  rw [hread, Arguments.parseFrom_words_literal rfl rfl rfl hcomplete]
  cases setting <;> rfl

end Question

/-- A run that asks a question. Its settings can be read, they or an option
    before them say how pre-releases are resolved, and its log can be started. -/
structure Inquiry (setting : Option Bool) (q : Question) where
  host : Host Id
  words : List Text
  options : Options
  loaded : Settings
  asks : Arguments.parse? words = some (.invocation ⟨options, .question q⟩)
  loads : Program.fileSettings host options = .ok loaded
  resolves : options.prereleases.or loaded.prereleases = setting
  starts : ∃ log, Program.startLog host (Program.override host options loaded).log = .ok log

namespace Inquiry

/-- Every question can be asked under every setting, unless it is about no
    versions at all. -/
def ofHost (host : Host Id) (hfilter : host.logFilter = none) (setting : Option Bool) (q : Question)
    (hcomplete : (Command.question q).Complete) : Inquiry setting q where
  host := host
  words := q.words setting
  options := { prereleases := setting }
  loaded := {}
  asks := Question.parse?_words setting hcomplete
  loads := rfl
  resolves := Option.or_none
  starts := by
    rw [Program.startLog, hfilter]
    exact ⟨_, rfl⟩

/-- What a run leaves behind. -/
def outcome (i : Inquiry setting q) : Outcome := Program.run i.host i.words

/-- The run gets as far as the question, which is answered under the setting. -/
theorem outcome_eq (i : Inquiry setting q) : ∃ log events,
    i.outcome = .ofCommand log events ((q.answer setting).mapError .refused) := by
  rcases i.starts with ⟨log, hlog⟩
  refine ⟨log, (Program.override i.host i.options i.loaded).loaded :: q.report, ?_⟩
  rw [outcome, Program.run, i.asks]
  change Program.invoke i.host ⟨i.options, .question q⟩ = _
  have hsetting : (Program.override i.host i.options i.loaded).prereleases = setting := i.resolves
  simp only [Program.invoke, i.loads, hlog, Program.perform, hsetting, bind, pure]
  cases q.answer setting <;> rfl

/-- A run prints the answer to its question, and its exit code says whether that
    is a positive one. -/
theorem outcome_of_answer (i : Inquiry setting q) {a : Answer} (h : q.answer setting = .ok a) :
    i.outcome.Prints (if a.positive then 0 else 1) a.output := by
  rcases i.outcome_eq with ⟨log, events, houtcome⟩
  rw [houtcome, h]
  exact ⟨rfl, rfl, rfl⟩

theorem refused_iff (i : Inquiry setting q) :
    i.outcome.Refused ↔ ∃ refusal, q.answer setting = .error refusal := by
  cases h : q.answer setting with
  | ok a => exact iff_of_false (i.outcome_of_answer h).not_refused (by simp)
  | error refusal =>
      rcases i.outcome_eq with ⟨log, events, houtcome⟩
      rw [houtcome, h]
      exact iff_of_true ⟨rfl, rfl, refusal, rfl⟩ ⟨refusal, rfl⟩

end Inquiry

/-- Every question about a range and versions has been asked in a run of its own,
    all under one setting. -/
def Surveyed (setting : Option Bool) (range : Text) (versions : List Text)
    (outcome : Question → Outcome) : Prop :=
  ∀ q, q.Concerns range versions → ∃ i : Inquiry setting q, i.outcome = outcome q

/-- What was printed says that the version at an index lies in the range, and that
    none that does is greater. -/
def Leads (outcome : Question → Outcome) (range : Text) (versions : List Text) (k : Nat) : Prop :=
  ∃ s, versions[k]? = some s ∧ (outcome (.satisfies range s)).output = "true\n".toList ∧
    ∀ t ∈ versions, (outcome (.satisfies range t)).output = "true\n".toList →
      (outcome (.compare t s)).output = t ++ " < ".toList ++ s ++ ['\n'] ∨
        (outcome (.compare t s)).output = t ++ " = ".toList ++ s ++ ['\n']

namespace Surveyed

variable {outcome : Question → Outcome}

/-- All questions about a range and versions can be asked. -/
theorem ofHost (host : Host Id) (hfilter : host.logFilter = none) (setting : Option Bool)
    (range : Text) (hversions : versions ≠ []) :
    Surveyed setting range versions fun q => Program.run host (q.words setting) :=
  fun q hq => ⟨.ofHost host hfilter setting q (hq.complete hversions), rfl⟩

theorem resolve_refused_iff (h : Surveyed setting range versions outcome) :
    (outcome (.resolve range versions)).Refused ↔
      (∃ refusal, Range.parse range = .error refusal) ∨ [] ∈ versions := by
  rcases h _ .resolve with ⟨i, hi⟩
  rw [← hi, i.refused_iff, Question.resolve_refused_iff]

theorem satisfies_refused_iff (h : Surveyed setting range versions outcome) (hs : s ∈ versions) :
    (outcome (.satisfies range s)).Refused ↔
      (∃ refusal, Range.parse range = .error refusal) ∨ s = [] := by
  rcases h _ (.satisfies s hs) with ⟨i, hi⟩
  rw [← hi, i.refused_iff, Question.satisfies_refused_iff]

/-- Resolving is refused if asking about one of the versions is. -/
theorem resolve_refused_iff_satisfies (h : Surveyed setting range versions outcome)
    (hversions : versions ≠ []) :
    (outcome (.resolve range versions)).Refused ↔
      ∃ s ∈ versions, (outcome (.satisfies range s)).Refused := by
  rw [h.resolve_refused_iff]
  constructor
  · -- A range that is refused is refused with every version, and there is one.
    intro hcause
    rcases hcause with hrange | hempty
    · rcases List.exists_mem_of_ne_nil versions hversions with ⟨s, hs⟩
      exact ⟨s, hs, (h.satisfies_refused_iff hs).mpr (Or.inl hrange)⟩
    · exact ⟨[], hempty, (h.satisfies_refused_iff hempty).mpr (Or.inr rfl)⟩
  · intro hsome
    rcases hsome with ⟨s, hs, hrefused⟩
    rcases (h.satisfies_refused_iff hs).mp hrefused with hrange | rfl
    · exact Or.inl hrange
    · exact Or.inr hs

section Accepted

variable (h : Surveyed setting range versions outcome) (hr : Range.parse range = .ok r)
  (hversions : [] ∉ versions)

include h hr hversions

theorem satisfies_output (hs : s ∈ versions) :
    (outcome (.satisfies range s)).output =
      (if r.contains ⟨s⟩ setting then "true".toList else "false".toList) ++ ['\n'] := by
  rcases h _ (.satisfies s hs) with ⟨i, hi⟩
  have hne : s ≠ [] := fun hnil => hversions (hnil ▸ hs)
  rw [← hi, (i.outcome_of_answer (Question.answer_satisfies hr hne)).2.2]
  rfl

theorem satisfies_true_iff (hs : s ∈ versions) :
    (outcome (.satisfies range s)).output = "true\n".toList ↔ r.contains ⟨s⟩ setting = true := by
  rw [h.satisfies_output hr hversions hs]
  cases r.contains ⟨s⟩ setting <;> decide

theorem satisfies_false_iff (hs : s ∈ versions) :
    (outcome (.satisfies range s)).output = "false\n".toList ↔ r.contains ⟨s⟩ setting = false := by
  rw [h.satisfies_output hr hversions hs]
  cases r.contains ⟨s⟩ setting <;> decide

omit hr in
/-- The sign between two versions says whether the first is at most the second. -/
theorem compare_isLE_iff (hs : s ∈ versions) (ht : t ∈ versions) :
    ((outcome (.compare s t)).output = s ++ " < ".toList ++ t ++ ['\n'] ∨
        (outcome (.compare s t)).output = s ++ " = ".toList ++ t ++ ['\n']) ↔
      (compare (⟨s⟩ : Version) ⟨t⟩).isLE = true := by
  rcases h _ (.compare s t hs ht) with ⟨i, hi⟩
  have hsne : s ≠ [] := fun hnil => hversions (hnil ▸ hs)
  have htne : t ≠ [] := fun hnil => hversions (hnil ▸ ht)
  rw [← hi, (i.outcome_of_answer (Question.answer_compare hsne htne)).2.2]
  cases compare (⟨s⟩ : Version) ⟨t⟩ <;> simp [Answer.line, Question.sign]

theorem leads_iff (k : Nat) :
    Leads outcome range versions k ↔
      ∃ s, versions[k]? = some s ∧ r.contains ⟨s⟩ setting = true ∧
        ∀ t ∈ versions, r.contains ⟨t⟩ setting = true →
          (compare (⟨t⟩ : Version) ⟨s⟩).isLE = true := by
  refine exists_congr fun s => and_congr_right fun hk => ?_
  have hs := List.mem_of_getElem? hk
  rw [h.satisfies_true_iff hr hversions hs]
  refine and_congr_right fun _ => forall₂_congr fun t ht => ?_
  rw [h.satisfies_true_iff hr hversions ht, h.compare_isLE_iff hversions ht hs]

/-- There is no best version if each was found to lie outside. -/
theorem best?_eq_none_iff :
    r.best? (versions.map Version.mk) setting = none ↔
      ∀ s ∈ versions, (outcome (.satisfies range s)).output = "false\n".toList := by
  rw [Range.best?_eq_none_iff, List.forall_mem_map]
  exact forall₂_congr fun s hs => (h.satisfies_false_iff hr hversions hs).symm

theorem resolve_prints_none (hbest : r.best? (versions.map Version.mk) setting = none) :
    (outcome (.resolve range versions)).Prints 1 [] := by
  rcases h _ .resolve with ⟨i, hi⟩
  rw [← hi]
  exact i.outcome_of_answer (Question.answer_resolve_none hr hversions hbest)

theorem resolve_prints_some {v : Version}
    (hbest : r.best? (versions.map Version.mk) setting = some v) :
    (outcome (.resolve range versions)).Prints 0 (v.text ++ ['\n']) := by
  rcases h _ .resolve with ⟨i, hi⟩
  rw [← hi]
  exact i.outcome_of_answer (Question.answer_resolve_some hr hversions hbest)

/-- The best version is the last of those that lead. -/
theorem exists_last_leads {v : Version}
    (hbest : r.best? (versions.map Version.mk) setting = some v) :
    ∃ k, versions[k]? = some v.text ∧ Leads outcome range versions k ∧
      ∀ j, Leads outcome range versions j → j ≤ k := by
  rcases Range.best?_position hbest with ⟨k, hk, hv, hothers⟩
  rw [List.getElem?_map, Option.map_eq_some_iff] at hk
  rcases hk with ⟨s, hk, rfl⟩
  have hplace (j : Nat) (t : Text) (hj : versions[j]? = some t) :
      (versions.map Version.mk)[j]? = some ⟨t⟩ := by
    rw [List.getElem?_map, hj]
    rfl
  refine ⟨k, hk, (h.leads_iff hr hversions k).mpr ⟨s, hk, hv, fun t ht hcontains => ?_⟩, ?_⟩
  · rcases List.mem_iff_getElem?.mp ht with ⟨j, hj⟩
    exact (hothers j ⟨t⟩ (hplace j t hj) hcontains).1
  · intro j hj
    rcases (h.leads_iff hr hversions j).mp hj with ⟨t, ht, hcontains, hleads⟩
    -- A version behind the best one is less, so that one is greater and it does not lead.
    refine Nat.le_of_not_lt fun hlater => ?_
    have hlt := (hothers j ⟨t⟩ (hplace j t ht) hcontains).2 hlater
    have hle := hleads s (List.mem_of_getElem? hk) hv
    rw [Version.compare_swap, hlt] at hle
    cases hle

end Accepted

end Surveyed

/-- What the three commands print agrees. Resolving a range is refused when the
    range or a version is, which asking about the versions one by one shows as
    well. Otherwise it prints no version if each was found to lie outside, and if
    not, the last that was found inside and at least as great as all that were. -/
theorem commands_agree (setting : Option Bool) (range : Text) (versions : List Text)
    (hversions : versions ≠ []) (outcome : Question → Outcome)
    (hruns : Surveyed setting range versions outcome) :
    ((outcome (.resolve range versions)).Refused ↔
      (∃ refusal, Range.parse range = .error refusal) ∨ [] ∈ versions) ∧
    ((outcome (.resolve range versions)).Refused ↔
      ∃ s ∈ versions, (outcome (.satisfies range s)).Refused) ∧
    (¬(outcome (.resolve range versions)).Refused →
      ((outcome (.resolve range versions)).Prints 1 [] ↔
        ∀ s ∈ versions, (outcome (.satisfies range s)).output = "false\n".toList) ∧
      (¬(∀ s ∈ versions, (outcome (.satisfies range s)).output = "false\n".toList) →
        ∃ k s, versions[k]? = some s ∧
          (outcome (.resolve range versions)).Prints 0 (s ++ ['\n']) ∧
          Leads outcome range versions k ∧ ∀ j, Leads outcome range versions j → j ≤ k)) := by
  refine ⟨hruns.resolve_refused_iff, hruns.resolve_refused_iff_satisfies hversions,
    fun haccepted => ?_⟩
  rw [hruns.resolve_refused_iff, not_or] at haccepted
  rcases haccepted with ⟨hrange, hempty⟩
  obtain ⟨r, hr⟩ : ∃ r, Range.parse range = .ok r := by
    cases hparse : Range.parse range with
    | ok r => exact ⟨r, rfl⟩
    | error refusal => exact absurd ⟨refusal, hparse⟩ hrange
  rw [← hruns.best?_eq_none_iff hr hempty]
  cases hbest : r.best? (versions.map Version.mk) setting with
  | none =>
      have hprints := hruns.resolve_prints_none hr hempty hbest
      exact ⟨iff_of_true hprints rfl, fun hsome => absurd rfl hsome⟩
  | some v =>
      have hprints := hruns.resolve_prints_some hr hempty hbest
      rcases hruns.exists_last_leads hr hempty hbest with ⟨k, hk, hleads, hlast⟩
      refine ⟨iff_of_false (fun hnone => ?_) (by simp), fun _ => ?_⟩
      · exact absurd (hprints.2.1.symm.trans hnone.2.1) (by decide)
      · exact ⟨k, v.text, hk, hprints, hleads, hlast⟩

/-- A host on which there is nothing: no files, no input and no environment. -/
def Host.blank : Host Id where
  contentsOf _ := none
  readInput := .empty
  openLog _ _ := .noDirectory
  now := Binary64.infinite false
  logFilter := none
  dataHome := none
  home := none

/-- The last of two pre-releases that are equal and spelled differently. -/
theorem commands_agree_prereleases : ∃ outcome : Question → Outcome,
    Surveyed (some true) ">=1".toList ["2-a".toList, "2.0-a".toList, "1".toList] outcome ∧
    (outcome (.resolve ">=1".toList ["2-a".toList, "2.0-a".toList, "1".toList])).Prints 0
      "2.0-a\n".toList ∧
    Leads outcome ">=1".toList ["2-a".toList, "2.0-a".toList, "1".toList] 1 ∧
    ∀ k, Leads outcome ">=1".toList ["2-a".toList, "2.0-a".toList, "1".toList] k → k ≤ 1 := by
  refine ⟨fun q => Program.run Host.blank (q.words (some true)), ?_⟩
  have hruns := Surveyed.ofHost Host.blank rfl (some true) ">=1".toList
    (List.cons_ne_nil "2-a".toList ["2.0-a".toList, "1".toList])
  refine ⟨hruns, ?_⟩
  rcases hruns _ .resolve with ⟨i, hi⟩
  have hprints := i.outcome_of_answer (a := .line "2.0-a".toList true) rfl
  rw [hi] at hprints
  obtain ⟨-, -, haccepted⟩ := commands_agree _ _ _ (List.cons_ne_nil _ _) _ hruns
  obtain ⟨hnone, hsome⟩ := haccepted hprints.not_refused
  obtain ⟨k, s, hk, hresolved, hleads⟩ := hsome fun h =>
    absurd (hprints.2.1.symm.trans (hnone.mpr h).2.1) (by decide)
  have hs : s = "2.0-a".toList :=
    List.append_cancel_right (hresolved.2.2.symm.trans hprints.2.2)
  have hplace : k = 1 := by
    rw [hs] at hk
    rcases k with _ | _ | _ | k
    · exact absurd hk (by decide)
    · rfl
    · exact absurd hk (by decide)
    · cases hk
  exact ⟨hprints, hplace ▸ hleads⟩

end PackageIndex
