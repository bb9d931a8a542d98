import PackageIndex.Proofs.Json.Yields
import PackageIndex.Proofs.Revision.Contents

/-!
# Ledgers That Are Written and Read Again

A ledger with finite times is always read back from its text, with the same
identifiers in the same order. Only the times may differ, because reading
rounds more than once (`Magnitude.reread`). So a ledger equals what is read
back from its text if and only if each of its times is kept, and not every
finite time is.

## Main definitions

* `Binary64.reread`: What a time is read as after it was written.
* `Ledger.reread`: A ledger with every time read again.

## Theorems

* `Revision.read_write`, `Ledger.read_write`: What was written is read.
* `read_write_append`: Space behind it does not matter.
* `finite_of_read`: Whatever is read has finite times.
* `finite_reread`: Reading again leaves the times finite.
* `read_write_eq_iff`: A ledger is kept exactly if its times are.
* `not_read_write_eq`: A ledger that is not kept.
-/

namespace PackageIndex

namespace Binary64

/-- What a time is read as after it was written. A time that is not finite has
    no digits. -/
def reread : Binary64 → Binary64
  | .finite negative m => .finite negative (m.reread.get m.reread_isSome)
  | other => other

/-- One, as the number of a time a second after the beginning of 1970. -/
def one : Binary64 := .finite false ⟨1023 * runLength, by decide +kernel⟩

theorem reread_one : one.reread = one := by decide +kernel

theorem isFinite_reread {x : Binary64} (h : x.isFinite = true) : x.reread.isFinite = true := by
  obtain ⟨negative, m, rfl⟩ := exists_of_isFinite h
  rfl

end Binary64

namespace Revision

/-- A revision with its time read again. -/
def reread (r : Revision) : Revision := { r with time := r.time.reread }

theorem reread_eq_self_iff (r : Revision) : r.reread = r ↔ r.time.reread = r.time := by
  constructor
  · intro h
    exact congrArg Revision.time h
  · intro h
    rw [reread, h]

/-- A finite time is read back, changed or not, whatever follows. -/
theorem numeric_writeTime_eq {time : Binary64} (h : time.isFinite = true) {rest : Text}
    (hrest : Json.EndsNumber rest) :
    Json.numeric (writeTime time ++ rest) = .ok (time.reread, rest) := by
  obtain ⟨negative, m, rfl⟩ := Binary64.exists_of_isFinite h
  exact numeric_writeTime negative (Option.some_get m.reread_isSome).symm hrest

theorem readField_id {s rest id : Text} (hread : Json.text s = .ok (id, rest))
    (time : Option Binary64) :
    readField ⟨none, time⟩ "revision".toList (':' :: s) = .ok (⟨some id, time⟩, rest) := by
  unfold readField
  rw [if_pos rfl]
  exact Json.field_none hread _

theorem readField_time {s rest : Text} {time : Binary64} (hread : Json.numeric s = .ok (time, rest))
    (id : Option Text) :
    readField ⟨id, none⟩ "time".toList (':' :: s) = .ok (⟨id, some time⟩, rest) := by
  unfold readField
  rw [if_neg (by decide), if_pos rfl]
  exact Json.field_none hread _

/-- A revision is read with its identifier, and with the time as it is read, or
    refused for the same reason. -/
theorem read_of_time {r : Revision} {rest : Text} {outcome : Except Json.Fault Binary64}
    (htime : Json.numeric (writeTime r.time ++ '}' :: rest) = outcome.map (·, '}' :: rest)) :
    read (r.write ++ rest) = outcome.map (⟨r.id, ·⟩, rest) := by
  -- The first key alone is longer than the bound has to be.
  have hbound : ∀ s : Text, (Json.quote "revision".toList ++ s).length + 1 = s.length + 8 + 3 := by
    intro s
    have hkey : (Json.quote "revision".toList).length = 10 := rfl
    rw [List.length_append, hkey]
    omega
  -- Of the two members the first is read with nothing seen, and the second with
  -- the identifier.
  have hid := readField_id (Json.text_quote r.id
    (',' :: (Json.quote "time".toList ++ ':' :: (writeTime r.time ++ '}' :: rest)))) none
  have hone := fun bound => Json.membersFor_member hid (bound + 2) true
  simp only [if_true, List.nil_append] at hone
  rw [write_append]
  change readObject _ = _
  unfold readObject Json.members
  rw [hbound, hone]
  cases outcome with
  | error fault =>
      have hfield : readField ⟨some r.id, none⟩ "time".toList
          (':' :: (writeTime r.time ++ '}' :: rest)) = .error fault := by
        unfold readField
        rw [if_neg (by decide), if_pos rfl]
        exact Json.field_refused htime _
      have htwo := fun bound => Json.membersFor_refused hfield (bound + 1) false
      simp only [Bool.false_eq_true, if_false, List.singleton_append] at htwo
      rw [htwo]
      rfl
  | ok time =>
      have htwo := fun bound => Json.membersFor_member (readField_time htime (some r.id)) (bound + 1)
        false
      simp only [Bool.false_eq_true, if_false, List.singleton_append, Json.membersFor_close] at htwo
      rw [htwo]
      rfl

/-- A revision with a finite time is read back, with the time read again. -/
theorem read_write {r : Revision} (h : r.time.isFinite = true) (rest : Text) :
    read (r.write ++ rest) = .ok (r.reread, rest) := by
  have htime : Json.numeric (writeTime r.time ++ '}' :: rest) =
      (Except.ok r.time.reread).map (·, '}' :: rest) :=
    numeric_writeTime_eq h (endsNumber_brace rest)
  exact read_of_time htime

/-- Whatever is read of a revision, its time is finite. -/
theorem yields_read : Json.Yields read fun r => r.time.isFinite = true := by
  have hfields : Json.Yields (Json.members readField {}) fun seen =>
      ∀ t ∈ seen.time, t.isFinite = true := by
    refine Json.yields_members (fun seen key hfinite => ?_) fun t ht => absurd ht
      (Option.not_mem_none t)
    have htext : Json.Yields Json.text fun _ => True := fun _ _ _ _ => trivial
    unfold readField
    split
    · exact htext.field (fun _ _ => hfinite) seen.id
    · split
      · exact Json.yields_numeric.field (fun t ht u hu => Option.mem_some_iff.mp hu ▸ ht) seen.time
      · exact Json.yields_otherField hfinite
  have hobject : Json.Yields readObject fun r => r.time.isFinite = true := by
    intro s r rest hread
    rcases Json.bind_eq_ok hread with ⟨⟨seen, left⟩, hseen, hread⟩
    have hfinite := hfields s seen left hseen
    rcases seen with ⟨id, time⟩
    -- A field that is missing makes the reader fail.
    cases id with
    | none => exact absurd hread (by simp)
    | some id =>
        cases time with
        | none => exact absurd hread (by simp)
        | some time =>
            rw [Json.eq_of_pure_eq_ok hread]
            exact hfinite time rfl
  have harray : Json.Yields readArray fun r => r.time.isFinite = true := by
    intro s r rest hread
    rcases Json.bind_eq_ok hread with ⟨⟨id, left⟩, -, hread⟩
    cases id with
    | none => exact absurd hread (by simp)
    | some id =>
        rcases Json.bind_eq_ok hread with ⟨⟨time, left⟩, htime, hread⟩
        cases time with
        | none => exact absurd hread (by simp)
        | some time =>
            rcases Json.bind_eq_ok hread with ⟨left, -, hread⟩
            rw [Json.eq_of_pure_eq_ok hread]
            exact Json.yields_numeric.element? false _ (some time) _ htime time rfl
  exact harray.record hobject

end Revision

namespace Ledger

/-- A ledger with every time read again. -/
def reread (l : Ledger) : Ledger := ⟨l.revisions.map Revision.reread⟩

/-- A ledger stays the same exactly if its times do. -/
theorem reread_eq_self_iff (l : Ledger) :
    l.reread = l ↔ l.Times fun time => time.reread = time := by
  have hmap : l.reread = l ↔ l.revisions.map Revision.reread = l.revisions.map id := by
    rw [reread, List.map_id, ← Ledger.mk.injEq]
  rw [hmap, List.map_inj_left]
  exact forall₂_congr fun r _ => r.reread_eq_self_iff

/-- Reading again leaves the times finite. -/
theorem finite_reread {l : Ledger} (h : l.Finite) : l.reread.Finite := by
  intro r hr
  obtain ⟨s, hs, rfl⟩ := List.mem_map.mp hr
  exact Binary64.isFinite_reread (h s hs)

/-- A ledger is read as the list of its revisions is, or refused for the same
    reason. Space may follow. -/
theorem read_of_list {body tail : Text} (htail : Json.skipSpace tail = [])
    {outcome : Except Json.Fault (List Revision)}
    (hlist : Json.list Revision.read (body ++ '}' :: tail) = outcome.map (·, '}' :: tail)) :
    read ('{' :: (Json.quote "revisions".toList ++ ':' :: (body ++ '}' :: tail))) =
      outcome.map Ledger.mk := by
  have hbound : ∀ s : Text, (Json.quote "revisions".toList ++ s).length + 1 = s.length + 10 + 2 := by
    intro s
    have hkey : (Json.quote "revisions".toList).length = 11 := rfl
    rw [List.length_append, hkey]
    omega
  change Json.document readObject _ = _
  cases outcome with
  | error fault =>
      have hfield : readField none "revisions".toList (':' :: (body ++ '}' :: tail)) =
          .error fault := by
        unfold readField
        rw [if_pos rfl]
        exact Json.field_refused hlist some
      have hmembers := fun bound => Json.membersFor_refused hfield bound true
      simp only [if_true, List.nil_append] at hmembers
      unfold Json.document readObject Json.members
      rw [hmembers]
      rfl
  | ok revisions =>
      have hfield : readField none "revisions".toList (':' :: (body ++ '}' :: tail)) =
          .ok (some revisions, '}' :: tail) := by
        unfold readField
        rw [if_pos rfl]
        exact Json.field_none hlist some
      -- Behind the one member there is the bracket that closes the object.
      have hmembers := fun bound => Json.membersFor_member hfield (bound + 1) true
      simp only [if_true, List.nil_append, Json.membersFor_close] at hmembers
      refine Json.document_ok htail ?_
      unfold readObject Json.members
      rw [hbound, hmembers]
      rfl

/-- A ledger is read as the array of its revisions is. -/
theorem read_append_of_elements {l : Ledger} {tail : Text} (htail : Json.skipSpace tail = [])
    {outcome : Except Json.Fault (List Revision)}
    (helements : Json.elements Revision.read
      (Text.join [','] (l.revisions.map Revision.write) ++ ']' :: '}' :: tail) =
      outcome.map (·, '}' :: tail)) : read (l.write ++ tail) = outcome.map Ledger.mk := by
  have hwrite : l.write ++ tail = '{' :: (Json.quote "revisions".toList ++ ':' ::
      ('[' :: (Text.join [','] (l.revisions.map Revision.write) ++ [']']) ++ '}' :: tail)) := by
    rw [write_eq]
    simp only [List.cons_append, List.append_assoc, List.nil_append]
  rw [hwrite]
  refine read_of_list htail ?_
  rw [List.cons_append, List.append_assoc, List.singleton_append]
  exact helements

/-- A ledger with finite times is read back from its text, with the times read
    again, also if space follows. -/
theorem read_write_append {l : Ledger} (h : l.Finite) {tail : Text}
    (htail : Json.skipSpace tail = []) : read (l.write ++ tail) = .ok l.reread := by
  have helements : Json.elements Revision.read
      (Text.join [','] (l.revisions.map Revision.write) ++ ']' :: '}' :: tail) =
      (Except.ok (l.revisions.map Revision.reread)).map (·, '}' :: tail) :=
    Json.elements_join (fun r _ => r.startsValue_write)
      (fun r hr => Revision.read_write (h r hr)) ('}' :: tail)
  exact read_append_of_elements htail helements

theorem read_write {l : Ledger} (h : l.Finite) : read l.write = .ok l.reread := by
  have happend : read (l.write ++ []) = .ok l.reread := read_write_append h rfl
  rwa [List.append_nil] at happend

/-- Whatever is read has finite times. -/
theorem finite_of_read {s : Text} {l : Ledger} (h : read s = .ok l) : l.Finite := by
  have hlist := Revision.yields_read.list
  have hfields : Json.Yields (Json.members readField none) fun seen =>
      ∀ rs ∈ seen, ∀ r ∈ rs, r.time.isFinite = true := by
    refine Json.yields_members (fun seen key hfinite => ?_) fun rs hrs => absurd hrs
      (Option.not_mem_none rs)
    unfold readField
    split
    · exact hlist.field (fun rs hrs ss hss => Option.mem_some_iff.mp hss ▸ hrs) seen
    · exact Json.yields_otherField hfinite
  have hobject : Json.Yields readObject Finite := by
    intro s l rest hread
    rcases Json.bind_eq_ok hread with ⟨⟨seen, left⟩, hseen, hread⟩
    have hfinite := hfields s seen left hseen
    cases seen with
    | none => exact absurd hread (by simp)
    | some revisions =>
        rw [Json.eq_of_pure_eq_ok hread]
        exact hfinite revisions rfl
  have harray : Json.Yields readArray Finite := by
    intro s l rest hread
    rcases Json.bind_eq_ok hread with ⟨⟨revisions, left⟩, hrevisions, hread⟩
    cases revisions with
    | none => exact absurd hread (by simp)
    | some revisions =>
        rcases Json.bind_eq_ok hread with ⟨left, -, hread⟩
        rw [Json.eq_of_pure_eq_ok hread]
        exact hlist.element? true s (some revisions) _ hrevisions revisions rfl
  exact (harray.record hobject).document h

/-- A ledger with finite times can always be read back from its text. The
    identifiers are kept, and so is their order. The result equals the ledger
    if and only if every time is kept. -/
theorem read_write_eq_iff (l : Ledger) (h : l.Finite) :
    ∃ m, read l.write = .ok m ∧ m.revisions.map (·.id) = l.revisions.map (·.id) ∧
      m.revisions.map (·.time) = l.revisions.map (·.time.reread) ∧
      ((m == l) = true ↔ ∀ r ∈ l.revisions, r.time.reread = r.time) := by
  refine ⟨l.reread, read_write h, ?_, ?_, ?_⟩
  · rw [reread, List.map_map]
    rfl
  · rw [reread, List.map_map]
    rfl
  · rw [beq_iff, write_inj (finite_reread h), reread_eq_self_iff]
    rfl

/-- A ledger that is kept: one revision, recorded a second after the beginning
    of 1970. -/
theorem read_write_eq_one :
    Finite ⟨[⟨['a'], .one⟩]⟩ ∧
      ∃ m, read (write ⟨[⟨['a'], .one⟩]⟩) = .ok m ∧ (m == ⟨[⟨['a'], .one⟩]⟩) = true := by
  have hfinite : Finite ⟨[⟨['a'], .one⟩]⟩ := by
    intro r hr
    rw [List.mem_singleton.mp hr]
    rfl
  obtain ⟨m, hread, -, -, hkept⟩ := read_write_eq_iff _ hfinite
  refine ⟨hfinite, m, hread, hkept.mpr fun r hr => ?_⟩
  rw [List.mem_singleton.mp hr]
  exact Binary64.reread_one

/-- A text that holds one revision, by the spelling of its time. -/
def textAt (time : String) : Text :=
  "\x7b\"revisions\":[\x7b\"revision\":\"a\",\"time\":".toList ++ time.toList ++ "\x7d]\x7d".toList

/-- A ledger that is not kept: one revision, recorded at 1699087017.4183881. It can be
    read from a text itself, in which its time is spelled with a digit more. -/
theorem not_read_write_eq :
    ∃ l : Ledger, read (textAt "1699087017.41838813") = .ok l ∧ l.Finite ∧
      l.write = textAt "1699087017.4183881" ∧
      ∃ m, read l.write = .ok m ∧ (m == l) = false ∧ m.write = textAt "1699087017.418388" := by
  have hread : read (textAt "1699087017.41838813") =
      .ok ⟨[⟨['a'], .finite false ⟨4744913295467267807, by decide +kernel⟩⟩]⟩ := by
    decide +kernel
  have hfinite := finite_of_read hread
  exact ⟨_, hread, hfinite, by decide +kernel, _, read_write hfinite, by decide +kernel,
    by decide +kernel⟩

end Ledger

end PackageIndex
