import PackageIndex.Proofs.Outcome
import PackageIndex.Proofs.Range.Bars
import PackageIndex.Proofs.Text.Pieces

/-!
# Putting Ranges Together

A range is written in a notation that is taken apart three times: at the first
comma, at double bars and at blanks. What it means can be put together from
what its parts mean, as long as putting the texts together makes no separator
that was not there.

For double bars that takes two conditions. The texts hold no comma, and the one
in front does not end in a bar: of three bars in a row the first two separate,
so the third one would change sides. The text behind may begin with a bar, and
either may be blank. Options stand behind both texts and hold for both
(`parse_options`).

For blanks nothing can go wrong, since a blank belongs to no word. A dash at the
end of a word asks for pre-releases on behalf of both texts, which is why only
the setting that lets them in everywhere makes the whole accept what both parts
accept. The order of the two texts is never seen in what is accepted.

Reading goes from left to right and stops at the first refusal, so the left part
decides how the whole fails. `InTurn` is this rule.

## Main definitions

* `Alternative.Combines`: An alternative with the tests of two others.
* `Range.Unites`: A range with the alternatives of two others.

## Theorems

* `parse_options`: Options behind a text without commas.
* `Alternative.parse_eq`: An alternative is read word by word.
* `parse_compositional`: Double bars unite ranges, and blanks combine
  alternatives.
-/

namespace PackageIndex

namespace Alternative

/-- An alternative with the tests of two others, which asks for pre-releases if
    one of them does. With pre-releases let in everywhere it accepts what both
    accept. -/
structure Combines (a b whole : Alternative) : Prop where
  comparators : whole.comparators = a.comparators ++ b.comparators
  optsIn : whole.optsIn = (a.optsIn || b.optsIn)
  accepts : ∀ v, whole.accepts v (some true) = (a.accepts v (some true) && b.accepts v (some true))

/-- The tests that words stand for, with the dashes at their ends taken off. -/
def comparatorsOf (words : List Text) : Except Refusal (List Comparator) :=
  ((words.map splitDash).mapM fun word => Comparator.ofWord word.1).map List.flatten

/-- Whether a word ends in a dash. -/
def dashed (words : List Text) : Bool := (words.map splitDash).any (·.2)

theorem parse_eq (s : Text) (optsIn : Bool) :
    parse s optsIn =
      (comparatorsOf (Text.words s)).map (⟨·, optsIn || dashed (Text.words s)⟩) := by
  rw [parse, comparatorsOf, dashed]
  cases ((Text.words s).map splitDash).mapM fun word => Comparator.ofWord word.1 with
  | error refusal => rfl
  | ok comparators => rfl

theorem comparatorsOf_append (front back : List Text) :
    comparatorsOf (front ++ back) =
      (comparatorsOf front).bind fun cs => (comparatorsOf back).map (cs ++ ·) := by
  rw [comparatorsOf, List.map_append, List.mapM_append, comparatorsOf, comparatorsOf]
  cases (front.map splitDash).mapM fun word => Comparator.ofWord word.1 with
  | error refusal => rfl
  | ok cs =>
      cases (back.map splitDash).mapM fun word => Comparator.ofWord word.1 with
      | error refusal => rfl
      | ok ds =>
          change Except.ok (cs ++ ds).flatten = .ok (cs.flatten ++ ds.flatten)
          rw [List.flatten_append]

theorem dashed_append (front back : List Text) :
    dashed (front ++ back) = (dashed front || dashed back) := by
  rw [dashed, List.map_append, List.any_append, dashed, dashed]

/-- A text behind another and a blank adds its tests to those of the other. -/
theorem parse_append_blank (x y : Text) (optsIn : Bool) :
    parse (x ++ [' '] ++ y) optsIn =
      (parse x optsIn).bind fun a => (parse y optsIn).map fun b =>
        ⟨a.comparators ++ b.comparators, a.optsIn || b.optsIn⟩ := by
  have hwords : Text.words (x ++ [' '] ++ y) = Text.words x ++ Text.words y := by
    rw [List.append_assoc, List.singleton_append, Text.words_append_blank (by decide)]
  rw [parse_eq, parse_eq, parse_eq, hwords, comparatorsOf_append, dashed_append]
  cases comparatorsOf (Text.words x) with
  | error refusal => rfl
  | ok cs =>
      cases comparatorsOf (Text.words y) with
      | error refusal => rfl
      | ok ds =>
          -- Either text may be the one that asks, and so may the range.
          have hasks : ∀ p q r : Bool, (p || (q || r)) = ((p || q) || (p || r)) := by decide
          change Except.ok (⟨cs ++ ds, _⟩ : Alternative) = .ok ⟨cs ++ ds, _⟩
          rw [hasks]

theorem accepts_some_true (a : Alternative) (v : Version) :
    a.accepts v (some true) = a.comparators.all (·.accepts v) := by
  rw [accepts, admits, Option.getD_some, Bool.or_true, Bool.true_and]

theorem combines_append (a b : Alternative) :
    Combines a b ⟨a.comparators ++ b.comparators, a.optsIn || b.optsIn⟩ := by
  refine ⟨rfl, rfl, fun v => ?_⟩
  rw [accepts_some_true, accepts_some_true, accepts_some_true, List.all_append]

/-- What is accepted does not depend on which of two texts is in front. -/
theorem accepts_append_comm (x y : Text) (optsIn : Bool) (v : Version) (setting : Option Bool) :
    ((parse (x ++ [' '] ++ y) optsIn).map (·.accepts v setting)).toOption =
      ((parse (y ++ [' '] ++ x) optsIn).map (·.accepts v setting)).toOption := by
  rw [parse_append_blank, parse_append_blank]
  cases parse x optsIn with
  | error refusal =>
      cases parse y optsIn with
      | error other => rfl
      | ok b => rfl
  | ok a =>
      cases parse y optsIn with
      | error other => rfl
      | ok b =>
          change some (accepts ⟨_, _⟩ v setting) = some (accepts ⟨_, _⟩ v setting)
          simp only [accepts, admits, List.all_append, Bool.or_comm a.optsIn,
            Bool.and_comm (a.comparators.all _)]

end Alternative

namespace Range

/-- A range with the alternatives of two others, which holds what one of them
    holds. -/
structure Unites (r s whole : Range) : Prop where
  alternatives : whole.alternatives = r.alternatives ++ s.alternatives
  contains : ∀ v setting, whole.contains v setting = (r.contains v setting || s.contains v setting)

/-- Options behind a text without commas are the options of the whole, and the
    text is what the alternatives are read from. -/
theorem parse_options {front options : Text} (hfront : ',' ∉ front)
    (hoptions : options = [] ∨ options.head? = some ',') :
    parse (front ++ options) =
      ((splitBars front).mapM (Alternative.parse · (optsIn options))).map (⟨front ++ options, ·⟩) := by
  have hread : alternativesText (front ++ options) = front ∧
      optsIn (front ++ options) = optsIn options := by
    unfold alternativesText optsIn Range.options
    cases options with
    | nil =>
        rw [List.append_nil, Text.cut_eq_of_not_mem hfront]
        exact ⟨rfl, rfl⟩
    | cons c rest =>
        have hc : c = ',' := by
          rcases hoptions with h | h
          · exact absurd h (List.cons_ne_nil _ _)
          · exact Option.some.inj h
        subst hc
        rw [Text.cut_append hfront]
        exact ⟨rfl, rfl⟩
  rw [parse, hread.1, hread.2]
  cases (splitBars front).mapM (Alternative.parse · (optsIn options)) with
  | error refusal => rfl
  | ok alternatives => rfl

theorem unites_append (r s : Range) (text : Text) :
    Unites r s ⟨text, r.alternatives ++ s.alternatives⟩ :=
  ⟨rfl, fun _ _ => List.any_append⟩

/-- Texts with a double bar between them are read one after the other, with the
    options behind them read for both. -/
theorem parse_append_bars {a b options : Text} (ha : ',' ∉ a) (hb : ',' ∉ b)
    (hbar : a.getLast? ≠ some '|') (hoptions : options = [] ∨ options.head? = some ',') :
    parse (a ++ ['|', '|'] ++ b ++ options) =
      (parse (a ++ options)).bind fun r => (parse (b ++ options)).map fun s =>
        ⟨a ++ ['|', '|'] ++ b ++ options, r.alternatives ++ s.alternatives⟩ := by
  -- The separator brings no comma in.
  have hwhole : ',' ∉ a ++ ['|', '|'] ++ b := by
    intro h
    rcases List.mem_append.mp h with h | h
    · rcases List.mem_append.mp h with h | h
      · exact ha h
      · exact absurd h (by decide)
    · exact hb h
  rw [parse_options hwhole hoptions, parse_options ha hoptions, parse_options hb hoptions,
    splitBars_append hbar, List.mapM_append]
  cases (splitBars a).mapM (Alternative.parse · (optsIn options)) with
  | error refusal => rfl
  | ok front =>
      cases (splitBars b).mapM (Alternative.parse · (optsIn options)) with
      | error refusal => rfl
      | ok back => rfl

/-- Ranges are put together from their parts. Two texts with a double bar
    between them are the ranges of both, with the options behind them holding
    for each, and two texts with a blank between them are the alternative with
    the tests of both. Either way the left text is read first, and its refusal
    is the one that is reported. -/
theorem parse_compositional :
    (∀ a b options : Text, ',' ∉ a → ',' ∉ b → a.getLast? ≠ some '|' →
      options = [] ∨ options.head? = some ',' →
        InTurn Unites (parse (a ++ options)) (parse (b ++ options))
          (parse (a ++ ['|', '|'] ++ b ++ options))) ∧
      ∀ (x y : Text) (optsIn : Bool),
        InTurn Alternative.Combines (Alternative.parse x optsIn) (Alternative.parse y optsIn)
            (Alternative.parse (x ++ [' '] ++ y) optsIn) ∧
          ∀ v setting,
            ((Alternative.parse (x ++ [' '] ++ y) optsIn).map (·.accepts v setting)).toOption =
              ((Alternative.parse (y ++ [' '] ++ x) optsIn).map (·.accepts v setting)).toOption := by
  refine ⟨fun a b options ha hb hbar hoptions => ?_, fun x y optsIn => ⟨?_, fun v setting => ?_⟩⟩
  · exact InTurn.of_eq_bind (parse_append_bars ha hb hbar hoptions)
      fun r s => unites_append r s _
  · exact InTurn.of_eq_bind (Alternative.parse_append_blank x y optsIn)
      Alternative.combines_append
  · exact Alternative.accepts_append_comm x y optsIn v setting

/-- Of three bars the third belongs to the second alternative, and the dash in
    the first one does not ask for pre-releases there. -/
theorem parse_compositional_bars :
    ∃ whole, parse "1-|||2 >=3, loose".toList = .ok whole ∧ whole.alternatives =
      [⟨[⟨.eq, ⟨"1".toList⟩⟩], true⟩,
        ⟨[⟨.eq, ⟨"|2".toList⟩⟩, ⟨.ge, ⟨"3-".toList⟩⟩], false⟩] := by
  have hturn := parse_compositional.1 "1-".toList "|2 >=3".toList ", loose".toList (by decide)
    (by decide) (by decide) (Or.inr rfl)
  obtain ⟨whole, hwhole, hunites⟩ := hturn.joins
    ⟨"1-, loose".toList, [⟨[⟨.eq, ⟨"1".toList⟩⟩], true⟩]⟩
    ⟨"|2 >=3, loose".toList, [⟨[⟨.eq, ⟨"|2".toList⟩⟩, ⟨.ge, ⟨"3-".toList⟩⟩], false⟩]⟩ rfl rfl
  exact ⟨whole, hwhole, hunites.alternatives⟩

end Range

end PackageIndex
