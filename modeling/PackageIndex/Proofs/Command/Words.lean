import PackageIndex.Command.Arguments

/-!
# Commands in Words

Every command can be written as a command line: the names that lead to it, and
its operands behind them. An operand that begins with a dash would be read as an
option, so the operands of a plain line must not (`parseFrom_words`). Behind two
dashes alone they may be anything (`parseFrom_words_literal`), and so there is no
command that cannot be asked for. The only thing that is refused is to choose
among no versions at all.

Options may stand in front. What is read of the words behind them does not depend
on which they were, so both statements are about whatever has been read so far.

## Main definitions

* `Command.path`: The names that lead to a command.
* `Command.operands`: The operands of a command.
* `Command.Complete`: Whether all operands that a command needs are there.

## Theorems

* `parseFrom_path`: The names of a command lead to its level.
* `parseFrom_operands`: Operands are read one after the other.
* `parseFrom_words`, `parseFrom_words_literal`: A command in words is read as the command.
-/

namespace PackageIndex

namespace Command

/-- The names that lead to a command. -/
def path : Command → List Text
  | .question (.satisfies _ _) => ["satisfies".toList]
  | .question (.resolve _ _) => ["resolve".toList]
  | .question (.compare _ _) => ["compare".toList]
  | .edit (.add _) => ["revisions".toList, "add".toList]
  | .edit (.remove _) => ["revisions".toList, "remove".toList]
  | .edit .latest => ["revisions".toList, "latest".toList]
  | .edit .list => ["revisions".toList, "list".toList]

/-- The level that the names of a command lead to. -/
def level : Command → CommandLevel
  | .question (.satisfies _ _) => .satisfies
  | .question (.resolve _ _) => .resolve
  | .question (.compare _ _) => .compare
  | .edit (.add _) => .add
  | .edit (.remove _) => .remove
  | .edit .latest => .latest
  | .edit .list => .list

/-- The operands of a command. -/
def operands : Command → List Text
  | .question (.satisfies range version) => [range, version]
  | .question (.resolve range versions) => range :: versions
  | .question (.compare left right) => [left, right]
  | .edit (.add id) => [id]
  | .edit (.remove id) => [id]
  | .edit .latest => []
  | .edit .list => []

/-- A command has all operands that it needs: there is something to choose
    among. -/
def Complete : Command → Prop
  | .question (.resolve _ versions) => versions ≠ []
  | _ => True

variable {c : Command}

theorem hasSubcommands_level (c : Command) : c.level.hasSubcommands = false := by
  cases c with
  | question question => cases question <;> rfl
  | edit edit => cases edit <;> rfl

theorem command?_level (hcomplete : c.Complete) : c.level.command? c.operands = some c := by
  cases c with
  | question question =>
      cases question with
      | satisfies range version => rfl
      | resolve range versions =>
          rcases List.exists_cons_of_ne_nil hcomplete with ⟨version, others, rfl⟩
          rfl
      | compare left right => rfl
  | edit edit => cases edit <;> rfl

theorem takesOperand_level (c : Command) {n : Nat} (hn : n < c.operands.length) :
    c.level.takesOperand (c.operands.take n) = true := by
  have hlength : (c.operands.take n).length = n := List.length_take_of_le (Nat.le_of_lt hn)
  cases c with
  | question question =>
      cases question with
      | satisfies range version => exact decide_eq_true (hlength.symm ▸ hn)
      | resolve range versions => rfl
      | compare left right => exact decide_eq_true (hlength.symm ▸ hn)
  | edit edit =>
      cases edit with
      | add id => exact List.isEmpty_iff_length_eq_zero.mpr (hlength.trans (Nat.lt_one_iff.mp hn))
      | remove id =>
          exact List.isEmpty_iff_length_eq_zero.mpr (hlength.trans (Nat.lt_one_iff.mp hn))
      | latest => exact absurd hn (Nat.not_lt_zero n)
      | list => exact absurd hn (Nat.not_lt_zero n)

end Command

theorem Options.empty_before (o : Options) : ({} : Options).before o = o := by
  simp [before]

namespace Reached

variable {word : Text}

/-- What begins with no dash, or is a dash alone, does not begin with a dash and
    something behind it. -/
theorem isPrefixOf_of_plain (hplain : isDashed word = false) (c : Char) :
    ['-', c].isPrefixOf word = false := by
  cases word with
  | nil => rfl
  | cons d rest =>
      by_cases hd : d = '-'
      · have hrest : rest = [] := by simpa [isDashed, hd] using hplain
        rw [hrest, List.isPrefixOf_cons_cons, List.isPrefixOf_cons_nil, Bool.and_false]
      · have hne : ('-' == d) = false := beq_false_of_ne fun h => hd h.symm
        rw [List.isPrefixOf_cons_cons, hne, Bool.false_and]

theorem asksHelp_of_plain (hplain : isDashed word = false) : asksHelp word = false := by
  have hname : word ≠ "--help".toList := by
    rintro rfl
    cases hplain
  have hshort : "-h".toList.isPrefixOf word = false := isPrefixOf_of_plain hplain 'h'
  rw [asksHelp, hshort, Bool.or_false]
  exact decide_eq_false hname

theorem asksVersion_of_plain (r : Reached) (hplain : isDashed word = false) :
    r.asksVersion word = false := by
  have hname : word ≠ "--version".toList := by
    rintro rfl
    cases hplain
  have hshort : "-V".toList.isPrefixOf word = false := isPrefixOf_of_plain hplain 'V'
  rw [asksVersion, hshort, Bool.or_false, decide_eq_false hname, Bool.and_false]

end Reached

namespace Arguments

variable {r : Reached} {word : Text} {words rest : List Text}

/-- A word that is no option names a command where one is due, and is an operand
    anywhere else. -/
theorem parseFrom_plain (hliteral : r.literal = false) (hplain : Reached.isDashed word = false) :
    parseFrom r (word :: rest) =
      if r.isHelpCommand word then
        if r.level.leadsToCommand rest then some .help else none
      else if r.level.hasSubcommands then
        (r.subcommand? word).bind fun r => parseFrom r rest
      else (r.operand? word).bind fun r => parseFrom r rest := by
  have hdashes : word ≠ ['-', '-'] := by
    rintro rfl
    cases hplain
  rw [parseFrom]
  simp only [hliteral, if_neg hdashes, r.asksVersion_of_plain hplain,
    Reached.asksHelp_of_plain hplain, hplain, Bool.false_eq_true, if_false]
  cases r.subcommand? word <;> cases r.operand? word <;> rfl

theorem parseFrom_literal (hliteral : r.literal = true) :
    parseFrom r (word :: rest) = (r.operand? word).bind fun r => parseFrom r rest := by
  rw [parseFrom, if_pos hliteral]
  cases r.operand? word <;> rfl

theorem parseFrom_operand (hlevel : r.level.hasSubcommands = false)
    (hplain : r.literal = true ∨ Reached.isDashed word = false) :
    parseFrom r (word :: rest) = (r.operand? word).bind fun r => parseFrom r rest := by
  by_cases hliteral : r.literal = true
  · exact parseFrom_literal hliteral
  · have hhelp : r.isHelpCommand word = false := by
      rw [Reached.isHelpCommand, hlevel, Bool.false_and]
    rw [parseFrom_plain (Bool.eq_false_iff.mpr hliteral) (hplain.resolve_left hliteral), hhelp,
      hlevel]
    rfl

/-- Operands are read one after the other, if the level takes as many. -/
theorem parseFrom_operands (hlevel : r.level.hasSubcommands = false)
    (hplain : r.literal = true ∨ ∀ word ∈ words, Reached.isDashed word = false)
    (htakes : ∀ n < words.length, r.level.takesOperand (r.operands ++ words.take n) = true) :
    parseFrom r words = ({ r with operands := r.operands ++ words } : Reached).finish := by
  induction words generalizing r with
  | nil =>
      rw [List.append_nil]
      rfl
  | cons word rest ih =>
      have htake : r.level.takesOperand r.operands = true := by
        have hfirst := htakes 0 (Nat.zero_lt_succ _)
        rwa [List.take_zero, List.append_nil] at hfirst
      have hword := hplain.imp_right fun h => h word List.mem_cons_self
      have hrest := hplain.imp_right fun h other hother =>
        h other (List.mem_cons_of_mem word hother)
      have hlater (n : Nat) (hn : n < rest.length) :
          r.level.takesOperand (r.operands ++ [word] ++ rest.take n) = true := by
        have hnth := htakes (n + 1) (Nat.succ_lt_succ hn)
        rwa [List.take_succ_cons, List.append_cons] at hnth
      have hnext := ih (r := { r with operands := r.operands ++ [word] }) hlevel hrest hlater
      rw [parseFrom_operand hlevel hword, Reached.operand?, if_pos htake, Option.bind_some, hnext,
        ← List.append_cons]

/-- The name of a subcommand leads to its level. -/
theorem parseFrom_name {level : CommandLevel} (hliteral : r.literal = false)
    (hplain : Reached.isDashed word = false) (hhelp : word ≠ "help".toList)
    (henter : r.level.enter? word = some level) :
    parseFrom r (word :: rest) =
      parseFrom { r with level := level, outer := r.here.before r.outer, here := {} } rest := by
  have hsub : r.level.hasSubcommands = true := by
    cases hlevel : r.level with
    | root => rfl
    | revisions => rfl
    | _ =>
        rw [hlevel] at henter
        cases henter
  have hcommand : r.isHelpCommand word = false := by
    rw [Reached.isHelpCommand, decide_eq_false hhelp, Bool.and_false]
  rw [parseFrom_plain hliteral hplain, hcommand, hsub, Reached.subcommand?, henter]
  rfl

/-- The names of a command lead to its level. -/
theorem parseFrom_path (hroot : r.level = .root) (hliteral : r.literal = false) (c : Command)
    (rest : List Text) :
    parseFrom r (c.path ++ rest) =
      parseFrom { r with level := c.level, outer := r.here.before r.outer, here := {} } rest := by
  have hfirst (rest : List Text) : parseFrom r ("revisions".toList :: rest) =
      parseFrom { r with level := .revisions, outer := r.here.before r.outer, here := {} } rest :=
    parseFrom_name hliteral (by decide) (by decide) (by rw [hroot]; rfl)
  have hedit (name : Text) (level : CommandLevel) (hplain : Reached.isDashed name = false)
      (hhelp : name ≠ "help".toList) (henter : CommandLevel.revisions.enter? name = some level) :
      parseFrom r ("revisions".toList :: name :: rest) =
        parseFrom { r with level := level, outer := r.here.before r.outer, here := {} } rest := by
    rw [hfirst, ← Options.empty_before (r.here.before r.outer)]
    exact parseFrom_name hliteral hplain hhelp henter
  cases c with
  | question question =>
      cases question with
      | satisfies range version =>
          exact parseFrom_name hliteral (by decide) (by decide) (by rw [hroot]; rfl)
      | resolve range versions =>
          exact parseFrom_name hliteral (by decide) (by decide) (by rw [hroot]; rfl)
      | compare left right =>
          exact parseFrom_name hliteral (by decide) (by decide) (by rw [hroot]; rfl)
  | edit edit =>
      cases edit with
      | add id => exact hedit _ .add (by decide) (by decide) rfl
      | remove id => exact hedit _ .remove (by decide) (by decide) rfl
      | latest => exact hedit _ .latest (by decide) (by decide) rfl
      | list => exact hedit _ .list (by decide) (by decide) rfl

/-- At the level of a command its operands are what is missing. -/
theorem parseFrom_command {c : Command} (hlevel : r.level = c.level) (hhere : r.here = {})
    (hoperands : r.operands = []) (hcomplete : c.Complete)
    (hplain : r.literal = true ∨ ∀ word ∈ c.operands, Reached.isDashed word = false) :
    parseFrom r c.operands = some (.invocation ⟨r.outer, c⟩) := by
  have hsub : r.level.hasSubcommands = false := by rw [hlevel, c.hasSubcommands_level]
  rw [parseFrom_operands hsub hplain fun n hn => ?_]
  · simp only [hoperands, List.nil_append, Reached.finish, hlevel, hhere,
      Command.command?_level hcomplete, Options.empty_before]
    rfl
  · rw [hlevel, hoperands, List.nil_append]
    exact c.takesOperand_level hn

/-- A command in words is read as the command, behind whatever options there
    are, if none of its operands would be taken for an option. -/
theorem parseFrom_words (hroot : r.level = .root) (hliteral : r.literal = false)
    (hoperands : r.operands = []) {c : Command} (hcomplete : c.Complete)
    (hplain : ∀ word ∈ c.operands, Reached.isDashed word = false) :
    parseFrom r (c.path ++ c.operands) = some (.invocation ⟨r.here.before r.outer, c⟩) := by
  rw [parseFrom_path hroot hliteral]
  exact parseFrom_command rfl rfl hoperands hcomplete (Or.inr hplain)

/-- Behind two dashes alone the operands may be anything. -/
theorem parseFrom_words_literal (hroot : r.level = .root) (hliteral : r.literal = false)
    (hoperands : r.operands = []) {c : Command} (hcomplete : c.Complete) :
    parseFrom r (c.path ++ ['-', '-'] :: c.operands) =
      some (.invocation ⟨r.here.before r.outer, c⟩) := by
  rw [parseFrom_path hroot hliteral, parseFrom]
  simp only [hliteral, Bool.false_eq_true, if_false, if_true]
  exact parseFrom_command rfl rfl hoperands hcomplete (Or.inl rfl)

end Arguments

end PackageIndex
