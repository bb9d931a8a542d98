import Mathlib.Data.List.Forall2
import PackageIndex.Proofs.Revision.Time

/-!
# What the Text of a Ledger Tells

Ledgers are equal when they are written alike, so equality is only as good as the
text. It has to be clear from the text where an identifier ends, although an
identifier may hold anything, quotes and braces and what looks like another
revision included, and where one revision ends and the next one begins.

The text is taken apart from the left. Every lemma is about what was written and
an arbitrary rest, and says that the rest is told as well as the value
(`write_append_inj`), so that one revision after the other can be taken off. An
identifier is told because its escapes can be read back, and a finite time because
no two times share their digits. A time that is not finite has no digits. All of
them are written as null, and that is the one thing that a ledger's text does not
tell (`write_eq_iff`).

Finite times are told to the last bit, and the sign of a zero is one of these. So
zero and minus zero make two ledgers, although neither time comes before the other.

## Main definitions

* `Binary64.Alike`: Times that are written alike.
* `Revision.Alike`: Revisions that are written alike.
* `Ledger.Times`: A property of all times of a ledger.
* `Ledger.Finite`: Every time of the ledger is finite.

## Theorems

* `writeTime_brace_inj`: What is told of a time.
* `Revision.write_append_inj`: What is told of a revision.
* `write_eq_iff`: What is told of a ledger.
* `write_inj`: A ledger with finite times is the only one with its text.
* `beq_iff_contents`: Equality of ledgers is equality of what they hold.
-/

namespace PackageIndex

namespace Binary64

/-- Times that are written alike: the same time, or two that are not finite. -/
inductive Alike : Binary64 → Binary64 → Prop
  | same (x : Binary64) : Alike x x
  | unwritten {x y : Binary64} (hx : x.isFinite = false) (hy : y.isFinite = false) : Alike x y

/-- A finite time is written like no other. -/
theorem Alike.eq {x y : Binary64} (h : Alike x y) (hx : x.isFinite = true) : x = y := by
  cases h with
  | same => rfl
  | unwritten hnot _ =>
      rw [hnot] at hx
      exact absurd hx Bool.false_ne_true

theorem exists_of_isFinite {x : Binary64} (h : x.isFinite = true) :
    ∃ negative m, x = .finite negative m := by
  cases x with
  | nan => exact absurd h (by decide)
  | infinite negative => exact absurd h (by simp [isFinite])
  | finite negative m => exact ⟨negative, m, rfl⟩

end Binary64

namespace Revision

/-- A brace closes a number. -/
theorem endsNumber_brace (rest : Text) : Json.EndsNumber ('}' :: rest) := by
  intro c hc
  rw [List.head?_cons, Option.mem_some_iff] at hc
  rw [← hc]
  decide

theorem writeTime_of_not_finite {x : Binary64} (h : ¬x.isFinite = true) :
    writeTime x = "null".toList := by
  rw [writeTime, if_neg h]

/-- A finite time begins with a sign or a digit, and null does not. -/
theorem writeTime_ne_null {x : Binary64} (h : x.isFinite = true) (p q : Text) :
    writeTime x ++ p ≠ "null".toList ++ q := by
  rcases Binary64.exists_of_isFinite h with ⟨negative, m, rfl⟩
  intro hnull
  change stored.write (.finite negative m) ++ p = 'n' :: ("ull".toList ++ q) at hnull
  rw [write_eq_text] at hnull
  rcases (proper_spellingOf negative m).exists_text_eq p with ⟨c, s, htext, -, hfirst⟩
  rw [htext, List.cons.injEq] at hnull
  rw [hnull.1] at hfirst
  exact absurd hfirst (by decide)

/-- The text of a time, closed by a brace, tells the time unless it is not
    finite. -/
theorem writeTime_brace_inj {x y : Binary64} {p q : Text}
    (h : writeTime x ++ '}' :: p = writeTime y ++ '}' :: q) : x.Alike y ∧ p = q := by
  by_cases hx : x.isFinite = true
  · by_cases hy : y.isFinite = true
    · rcases Binary64.exists_of_isFinite hx with ⟨a, m, rfl⟩
      rcases Binary64.exists_of_isFinite hy with ⟨b, n, rfl⟩
      rcases writeTime_append_inj (endsNumber_brace p) (endsNumber_brace q) h with ⟨htime, hrest⟩
      rw [htime]
      exact ⟨.same _, (List.cons.inj hrest).2⟩
    · rw [writeTime_of_not_finite hy] at h
      exact absurd h (writeTime_ne_null hx _ _)
  · by_cases hy : y.isFinite = true
    · rw [writeTime_of_not_finite hx] at h
      exact absurd h.symm (writeTime_ne_null hy _ _)
    · rw [writeTime_of_not_finite hx, writeTime_of_not_finite hy] at h
      have hrest := List.append_cancel_left h
      exact ⟨.unwritten (Bool.eq_false_iff.mpr hx) (Bool.eq_false_iff.mpr hy),
        (List.cons.inj hrest).2⟩

theorem writeTime_congr {x y : Binary64} (h : x.Alike y) : writeTime x = writeTime y := by
  cases h with
  | same => rfl
  | unwritten hx hy =>
      rw [writeTime_of_not_finite (Bool.eq_false_iff.mp hx),
        writeTime_of_not_finite (Bool.eq_false_iff.mp hy)]

/-- The text of a revision, as two members of an object. -/
theorem write_append (r : Revision) (rest : Text) :
    r.write ++ rest = '{' :: (Json.quote "revision".toList ++ ':' :: (Json.quote r.id ++
      (',' :: (Json.quote "time".toList ++ ':' :: (writeTime r.time ++ '}' :: rest))))) := by
  unfold write
  simp only [List.append_assoc]
  rfl

theorem startsValue_write (r : Revision) : Json.StartsValue r.write := by
  have h := write_append r []
  rw [List.append_nil] at h
  exact ⟨'{', _, h, by decide, by decide⟩

/-- Revisions that are written alike. -/
structure Alike (r s : Revision) : Prop where
  id : r.id = s.id
  time : r.time.Alike s.time

/-- A revision with a finite time is written like no other. -/
theorem Alike.eq {r s : Revision} (h : r.Alike s) (hr : r.time.isFinite = true) : r = s := by
  have htime := h.time.eq hr
  cases r
  cases s
  rw [mk.injEq]
  exact ⟨h.id, htime⟩

theorem write_congr {r s : Revision} (h : r.Alike s) : r.write = s.write := by
  unfold write
  rw [h.id, writeTime_congr h.time]

/-- The text of a revision tells the revision and where it ends, whatever
    follows. -/
theorem write_append_inj {r s : Revision} {p q : Text} (h : r.write ++ p = s.write ++ q) :
    r.Alike s ∧ p = q := by
  rw [write_append, write_append, List.cons.injEq] at h
  have hrest := List.append_cancel_left h.2
  rw [List.cons.injEq] at hrest
  -- What is read of the identifier is the same, and so is what is left.
  have hid := Json.text_quote r.id
    (',' :: (Json.quote "time".toList ++ ':' :: (writeTime r.time ++ '}' :: p)))
  rw [hrest.2, Json.text_quote, Except.ok.injEq, Prod.mk.injEq, List.cons.injEq] at hid
  have htime := List.append_cancel_left hid.2.2
  rw [List.cons.injEq] at htime
  -- The two sides have changed places with the reading.
  rcases writeTime_brace_inj htime.2.symm with ⟨hsame, htail⟩
  exact ⟨⟨hid.1.symm, hsame⟩, htail⟩

end Revision

namespace Ledger

/-- A property of all times of a ledger. -/
def Times (P : Binary64 → Prop) (l : Ledger) : Prop := ∀ r ∈ l.revisions, P r.time

/-- Every time of the ledger is finite. -/
def Finite (l : Ledger) : Prop := l.Times fun time => time.isFinite = true

/-- The text of a ledger, as one member of an object. -/
theorem write_eq (l : Ledger) :
    l.write = '{' :: (Json.quote "revisions".toList ++ ':' ::
      ('[' :: (Text.join [','] (l.revisions.map Revision.write) ++ [']']) ++ ['}'])) := by
  unfold write
  rw [List.cons_append, List.append_assoc, List.append_assoc]
  rfl

/-- Revisions behind commas, up to the bracket that closes them. -/
theorem flatMap_write_inj {rs ss : List Revision} {p q : Text}
    (h : (rs.flatMap fun r => ',' :: r.write) ++ ']' :: p =
      (ss.flatMap fun s => ',' :: s.write) ++ ']' :: q) : List.Forall₂ Revision.Alike rs ss := by
  induction rs generalizing ss with
  | nil =>
      cases ss with
      | nil => exact .nil
      | cons s ss => exact absurd (List.cons.inj h).1 (by decide)
  | cons r rs ih =>
      cases ss with
      | nil => exact absurd (List.cons.inj h).1 (by decide)
      | cons s ss =>
          rw [List.flatMap_cons, List.flatMap_cons, List.cons_append, List.cons_append,
            List.cons_append, List.cons_append, List.append_assoc, List.append_assoc,
            List.cons.injEq] at h
          rcases Revision.write_append_inj h.2 with ⟨hhead, htail⟩
          exact .cons hhead (ih htail)

/-- Revisions with commas between them, up to the bracket that closes them. -/
theorem join_write_inj {rs ss : List Revision} {p q : Text}
    (h : Text.join [','] (rs.map Revision.write) ++ ']' :: p =
      Text.join [','] (ss.map Revision.write) ++ ']' :: q) : List.Forall₂ Revision.Alike rs ss := by
  cases rs with
  | nil =>
      cases ss with
      | nil => exact .nil
      | cons s ss =>
          -- A revision does not begin with the bracket that closes the list.
          rcases s.startsValue_write with ⟨c, t, ht, -, hc⟩
          rw [Json.join_map_cons, ht] at h
          exact absurd (List.cons.inj h).1.symm hc
  | cons r rs =>
      cases ss with
      | nil =>
          rcases r.startsValue_write with ⟨c, t, ht, -, hc⟩
          rw [Json.join_map_cons, ht] at h
          exact absurd (List.cons.inj h).1 hc
      | cons s ss =>
          rw [Json.join_map_cons, Json.join_map_cons, List.append_assoc, List.append_assoc] at h
          rcases Revision.write_append_inj h with ⟨hhead, htail⟩
          exact .cons hhead (flatMap_write_inj htail)

theorem map_write_congr {rs ss : List Revision} (h : List.Forall₂ Revision.Alike rs ss) :
    rs.map Revision.write = ss.map Revision.write := by
  induction h with
  | nil => rfl
  | cons hhead _ ih => rw [List.map_cons, List.map_cons, Revision.write_congr hhead, ih]

/-- Ledgers have the same text if and only if their revisions are written alike
    place by place. -/
theorem write_eq_iff (l m : Ledger) :
    l.write = m.write ↔ List.Forall₂ Revision.Alike l.revisions m.revisions := by
  constructor
  · intro h
    rw [write_eq, write_eq, List.cons.injEq] at h
    have hbody := List.append_cancel_left h.2
    simp only [List.cons_append, List.append_assoc, List.cons.injEq, true_and] at hbody
    exact join_write_inj hbody
  · intro h
    unfold write
    rw [map_write_congr h]

theorem revisions_inj {l m : Ledger} : l.revisions = m.revisions ↔ l = m := by
  cases l
  cases m
  rw [mk.injEq]

theorem eq_of_forall₂_alike {rs ss : List Revision} (h : List.Forall₂ Revision.Alike rs ss)
    (hr : ∀ r ∈ rs, r.time.isFinite = true) : rs = ss := by
  induction h with
  | nil => rfl
  | cons hhead _ ih =>
      rw [hhead.eq (hr _ List.mem_cons_self), ih fun r hmem => hr r (List.mem_cons_of_mem _ hmem)]

/-- A ledger with finite times is the only one with its text. -/
theorem write_inj {l m : Ledger} (hl : l.Finite) : l.write = m.write ↔ l = m := by
  refine ⟨fun h => ?_, congrArg write⟩
  exact revisions_inj.mp (eq_of_forall₂_alike ((write_eq_iff l m).mp h) hl)

/-- Ledgers are equal when they are written alike. -/
theorem beq_iff (l m : Ledger) : (l == m) = true ↔ l.write = m.write := by
  change (l.write == m.write) = true ↔ _
  exact beq_iff_eq

/-- Lists are the same if they are as long and the same at every place. -/
theorem revisions_eq_iff (rs ss : List Revision) :
    rs = ss ↔ rs.length = ss.length ∧ ∀ (k : Nat) (r s : Revision),
      rs[k]? = some r → ss[k]? = some s → r.id = s.id ∧ r.time = s.time := by
  constructor
  · rintro rfl
    refine ⟨rfl, fun k r s hr hs => ?_⟩
    rw [hr, Option.some.injEq] at hs
    rw [hs]
    exact ⟨rfl, rfl⟩
  · rintro ⟨hlength, hplace⟩
    refine List.ext_getElem hlength fun k hr hs => ?_
    have hsame := hplace k rs[k] ss[k] (List.getElem?_eq_getElem hr) (List.getElem?_eq_getElem hs)
    rw [← Revision.mk.injEq] at hsame
    exact hsame

/-- Equality of ledgers is equality of what they hold. Ledgers with finite times are
    equal if and only if they are as long and have, place by place, the same
    identifiers and the same times. Of any ledgers only times that are not finite are
    not told apart. -/
theorem beq_iff_contents (l m : Ledger) :
    (l.Finite → m.Finite → ((l == m) = true ↔
      l.revisions.length = m.revisions.length ∧
        ∀ (k : Nat) (r s : Revision), l.revisions[k]? = some r → m.revisions[k]? = some s →
          r.id = s.id ∧ r.time = s.time)) ∧
      ((l == m) = true ↔ List.Forall₂ Revision.Alike l.revisions m.revisions) := by
  refine ⟨fun hl _ => ?_, (beq_iff l m).trans (write_eq_iff l m)⟩
  rw [beq_iff, write_inj hl, ← revisions_inj, revisions_eq_iff]

/-- An identifier that reads like the end of one revision and the beginning of
    another makes a ledger of its own, and so does the sign of a zero. Times that are
    not finite do not. -/
theorem beq_iff_contents_imitation :
    ((⟨[⟨['a'], .finite false .zero⟩, ⟨['b'], .finite false .zero⟩]⟩ : Ledger) ==
      ⟨[⟨"a\",\"time\":0.0\x7d,\x7b\"revision\":\"b".toList, .finite false .zero⟩]⟩) = false ∧
    ((⟨[⟨['a'], .finite false .zero⟩]⟩ : Ledger) == ⟨[⟨['a'], .finite true .zero⟩]⟩) = false ∧
    ((⟨[⟨['a'], .nan⟩]⟩ : Ledger) == ⟨[⟨['a'], .infinite true⟩]⟩) = true := by
  have hzero : ∀ negative id, Finite ⟨[⟨id, .finite negative .zero⟩]⟩ := by
    intro negative id r hr
    rw [List.mem_singleton.mp hr]
    rfl
  have htwo : Finite ⟨[⟨['a'], .finite false .zero⟩, ⟨['b'], .finite false .zero⟩]⟩ := by
    intro r hr
    rcases List.mem_cons.mp hr with rfl | hr
    · rfl
    · exact hzero false ['b'] r hr
  refine ⟨Bool.eq_false_iff.mpr fun h => ?_, Bool.eq_false_iff.mpr fun h => ?_, ?_⟩
  · have hsame := ((beq_iff_contents _ _).1 htwo (hzero _ _)).mp h
    exact absurd hsame.1 (by decide)
  · have hsame := ((beq_iff_contents _ _).1 (hzero _ _) (hzero _ _)).mp h
    exact absurd (hsame.2 0 _ _ rfl rfl).2 (by decide)
  · exact (beq_iff_contents _ _).2.mpr (.cons ⟨rfl, .unwritten rfl rfl⟩ .nil)

end Ledger

end PackageIndex
