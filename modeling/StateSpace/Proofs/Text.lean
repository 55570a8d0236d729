import Mathlib.Data.List.DropRight
import Mathlib.Data.List.Infix
import StateSpace.Text.Split

/-!
# StateSpace.Proofs.Text

What is left when a text is trimmed or cut into pieces.

* `trim_trim`, `trim_infix`: a trimmed text is a part of the text, with nothing left to trim.
* `afterInitial?_eq_some_iff`, `splitFirst?_eq_some_iff`: what follows a given beginning, and the
  two sides of the first occurrence of a character.
* `splitAll_eq_splitOn`: cutting a text everywhere is what the library calls splitting.
* `undoubled_of_mem_splitDouble`: no piece holds the doubled separator. A text without it is its
  own only piece (`splitDouble_of_undoubled`), and every other text is cut where it runs into its
  first separator (`undoubled_or_first`, `splitDouble_append`).
-/

namespace StateSpace
namespace Text

variable {l before after piece : List Char} {sep : Char}

/-! ## Trimming -/

theorem trimEnd_eq_rdropWhile (l : List Char) : trimEnd l = l.rdropWhile isBlank := rfl

theorem trimStart_of_prefix {l' : List Char} (hp : l' <+: l) (h : trimStart l = l) :
    trimStart l' = l' := by
  refine List.dropWhile_eq_self_iff.2 fun hl' => ?_
  obtain ⟨rest, rfl⟩ := hp
  have hpos : 0 < (l' ++ rest).length := by
    rw [List.length_append]
    omega
  have hhead := List.dropWhile_eq_self_iff.1 h hpos
  rwa [List.getElem_append_left hl'] at hhead

theorem trim_trim (l : List Char) : trim (trim l) = trim l := by
  have hstart : trimStart (trim l) = trim l := by
    refine trimStart_of_prefix (List.rdropWhile_prefix isBlank (trimStart l)) ?_
    exact List.dropWhile_idempotent isBlank l
  rw [trim, hstart, trim, trimEnd_eq_rdropWhile, trimEnd_eq_rdropWhile,
    List.rdropWhile_idempotent]

theorem trim_infix (l : List Char) : trim l <:+: l :=
  (List.rdropWhile_prefix isBlank _).isInfix.trans (List.dropWhile_suffix isBlank).isInfix

/-! ## Cutting once -/

theorem afterInitial?_eq_some_iff {start text rest : List Char} :
    afterInitial? start text = some rest ↔ text = start ++ rest := by
  induction start generalizing text with
  | nil => simp [afterInitial?]
  | cons c start ih =>
    cases text with
    | nil => simp [afterInitial?]
    | cons d text =>
      by_cases hcd : c = d
      · rw [afterInitial?, if_pos hcd, ih, hcd, List.cons_append, List.cons_inj_right]
      · simp [afterInitial?, hcd, Ne.symm hcd]

theorem afterInitial?_eq_none_iff {start text : List Char} :
    afterInitial? start text = none ↔ ¬ start <+: text := by
  rw [Option.eq_none_iff_forall_ne_some]
  constructor
  · rintro h ⟨rest, rfl⟩
    exact h rest (afterInitial?_eq_some_iff.2 rfl)
  · rintro h rest hrest
    exact h ⟨rest, (afterInitial?_eq_some_iff.1 hrest).symm⟩

theorem splitFirst?_eq_some_iff :
    splitFirst? sep l = some (before, after) ↔ l = before ++ sep :: after ∧ sep ∉ before := by
  induction l generalizing before with
  | nil => simp [splitFirst?]
  | cons c rest ih =>
    by_cases hc : c = sep
    · rw [splitFirst?, if_pos hc]
      constructor
      · intro h
        obtain ⟨rfl, rfl⟩ : [] = before ∧ rest = after := by simpa using h
        simp [hc]
      · rintro ⟨hl, hsep⟩
        cases before with
        | nil => simpa using (List.cons.inj hl).2
        | cons d before => exact absurd (by simp [← (List.cons.inj hl).1, hc]) hsep
    · rw [splitFirst?, if_neg hc, Option.map_eq_some_iff]
      constructor
      · rintro ⟨⟨front, back⟩, hsplit, heq⟩
        obtain ⟨rfl, rfl⟩ : c :: front = before ∧ back = after := by simpa using heq
        obtain ⟨rfl, hsep⟩ := ih.1 hsplit
        exact ⟨rfl, by simp [hsep, Ne.symm hc]⟩
      · rintro ⟨hl, hsep⟩
        cases before with
        | nil => exact absurd (List.cons.inj hl).1 hc
        | cons d before =>
          obtain ⟨rfl, rfl⟩ := List.cons.inj hl
          exact ⟨(before, after), ih.2 ⟨rfl, fun h => hsep (List.mem_cons_of_mem c h)⟩, rfl⟩

theorem splitFirst?_eq_none_iff : splitFirst? sep l = none ↔ sep ∉ l := by
  rw [Option.eq_none_iff_forall_ne_some]
  constructor
  · intro h hmem
    obtain ⟨before, after, hl, hsep⟩ := List.eq_append_cons_of_mem hmem
    exact h (before, after) (splitFirst?_eq_some_iff.2 ⟨hl, hsep⟩)
  · rintro h ⟨before, after⟩ hsplit
    rw [(splitFirst?_eq_some_iff.1 hsplit).1] at h
    simp at h

/-! ## Cutting everywhere -/

theorem splitAll_eq_splitOn : splitAll sep l = l.splitOn sep := by
  induction l with
  | nil => rfl
  | cons c rest ih =>
    obtain ⟨first, pieces, hpieces⟩ := List.exists_cons_of_ne_nil (List.splitOn_ne_nil sep rest)
    rw [splitAll, List.splitOn_cons_eq_if_modifyHead, ih, hpieces]
    simp only [beq_iff_eq, List.modifyHead_cons]

theorem notMem_of_mem_splitAll (h : piece ∈ splitAll sep l) : sep ∉ piece := by
  induction l generalizing piece with
  | nil =>
    rw [List.mem_singleton.1 h]
    exact List.not_mem_nil
  | cons c rest ih =>
    rw [splitAll] at h
    split at h
    · rcases List.mem_cons.1 h with rfl | h
      · exact List.not_mem_nil
      · exact ih h
    · rename_i hc
      split at h
      · rw [List.mem_singleton.1 h, List.mem_singleton]
        exact Ne.symm hc
      · rename_i first pieces hpieces
        rw [hpieces, List.forall_mem_cons] at ih
        rcases List.mem_cons.1 h with rfl | h
        · simp [ih.1, Ne.symm hc]
        · exact ih.2 piece h

/-! ## Cutting at a doubled character -/

/-- The separator stands nowhere in the text. -/
def Undoubled (sep : Char) (l : List Char) : Prop := ¬ [sep, sep] <:+: l

instance (sep : Char) (l : List Char) : Decidable (Undoubled sep l) :=
  inferInstanceAs (Decidable (¬ [sep, sep] <:+: l))

theorem Undoubled.mono {l' : List Char} (h : Undoubled sep l) (hi : l' <:+: l) :
    Undoubled sep l' := fun hdouble => h (hdouble.trans hi)

theorem undoubled_cons_iff {c : Char} :
    Undoubled sep (c :: l) ↔ ¬ [sep, sep] <+: c :: l ∧ Undoubled sep l := by
  rw [Undoubled, List.infix_cons_iff, not_or, Undoubled]

theorem undoubled_nil : Undoubled sep [] := fun h => by simpa using h.length_le

theorem undoubled_concat_iff :
    Undoubled sep (l ++ [sep]) ↔ Undoubled sep l ∧ l.getLast? ≠ some sep := by
  have hlast : [sep, sep] <:+ l ++ [sep] ↔ l.getLast? = some sep := by
    rw [List.getLast?_eq_some_iff]
    constructor
    · rintro ⟨front, hfront⟩
      exact ⟨front, List.append_cancel_right (by simpa using hfront.symm)⟩
    · rintro ⟨front, rfl⟩
      exact ⟨front, by simp⟩
  rw [Undoubled, List.infix_concat_iff, hlast, not_or, and_comm, Undoubled]

theorem isPrefix_append_double (before : List Char) :
    before ++ [sep] <+: before ++ sep :: sep :: after := ⟨sep :: after, by simp⟩

/-- A character that opens no separator joins the first piece of what follows. -/
theorem splitDouble_cons {c : Char} {pieces : List (List Char)}
    (hc : ¬ [sep, sep] <+: c :: l) (h : splitDouble sep l = piece :: pieces) :
    splitDouble sep (c :: l) = (c :: piece) :: pieces := by
  cases l with
  | nil =>
    obtain ⟨rfl, rfl⟩ : [] = piece ∧ [] = pieces := by simpa [splitDouble] using h
    rfl
  | cons d rest =>
    have hsep : ¬ (c = sep ∧ d = sep) := by
      rintro ⟨rfl, rfl⟩
      exact hc ⟨rest, rfl⟩
    rw [splitDouble, if_neg hsep, h]

theorem splitDouble_of_undoubled (h : Undoubled sep l) : splitDouble sep l = [l] := by
  induction l with
  | nil => rfl
  | cons c rest ih =>
    obtain ⟨hc, hrest⟩ := undoubled_cons_iff.1 h
    exact splitDouble_cons hc (ih hrest)

/-- The text is cut at its first separator, if the character before it does not open one. -/
theorem splitDouble_append (h : Undoubled sep (before ++ [sep])) :
    splitDouble sep (before ++ sep :: sep :: after) = before :: splitDouble sep after := by
  induction before with
  | nil => simp [splitDouble]
  | cons c before ih =>
    obtain ⟨hc, hrest⟩ := undoubled_cons_iff.1 h
    refine splitDouble_cons (fun hdouble => hc ?_) (ih hrest)
    -- The two characters in question stand before the second half of the separator.
    refine List.prefix_of_prefix_length_le hdouble (isPrefix_append_double (c :: before)) ?_
    simp

/-- A text without a separator, or one that runs into its first separator. -/
theorem undoubled_or_first (sep : Char) (l : List Char) :
    Undoubled sep l ∨
      ∃ before after, Undoubled sep (before ++ [sep]) ∧ before ++ sep :: sep :: after = l := by
  induction l with
  | nil => exact .inl undoubled_nil
  | cons c rest ih =>
    by_cases hc : [sep, sep] <+: c :: rest
    · obtain ⟨after, hafter⟩ := hc
      have hlone : Undoubled sep [sep] := fun h => by simpa using h.length_le
      exact .inr ⟨[], after, hlone, by simpa using hafter⟩
    · obtain hrest | ⟨before, after, hbefore, rfl⟩ := ih
      · exact .inl (undoubled_cons_iff.2 ⟨hc, hrest⟩)
      · refine .inr ⟨c :: before, after, undoubled_cons_iff.2 ⟨fun h => hc ?_, hbefore⟩, rfl⟩
        exact h.trans (isPrefix_append_double (c :: before))

theorem undoubled_of_mem_splitDouble (h : piece ∈ splitDouble sep l) : Undoubled sep piece := by
  induction hn : l.length using Nat.strong_induction_on generalizing l with
  | _ n ih =>
    subst hn
    obtain hl | ⟨before, after, hbefore, rfl⟩ := undoubled_or_first sep l
    · rw [splitDouble_of_undoubled hl, List.mem_singleton] at h
      rwa [h]
    · rw [splitDouble_append hbefore, List.mem_cons] at h
      obtain rfl | hafter := h
      · exact hbefore.mono (List.prefix_append _ _).isInfix
      · refine ih after.length ?_ hafter rfl
        simp only [List.length_append, List.length_cons]
        omega

end Text
end StateSpace
