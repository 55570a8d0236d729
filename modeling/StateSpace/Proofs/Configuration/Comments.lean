import StateSpace.Proofs.Configuration.Grammar

/-!
# StateSpace.Proofs.Configuration.Comments

Lines that are put into a configuration text, or taken out of it.

* `Edit`: what becomes of a line. `oldLines` and `newLines` are those of the text before and after.
* `Line.IsRemark`, `Line.IsInert`: a comment, as told by its first word, and also a blank line.
* `Alike`: two texts give the same options, or the same line stops both of them.
* `edited_loadText`: remarks and blank lines make no difference, unless a remark begins with the
  word for including and goes on without a blank. Such a line stops the text that it stands in.
-/

namespace StateSpace
namespace Configuration

namespace Line

/-- What stands before the first blank. -/
def firstWord (l : List Char) : List Char := l.takeWhile (!Text.isBlank ·)

/-- A comment whose first word is not the one for including. -/
def IsRemark (l : List Char) : Prop :=
  (['#'] <+: l ∨ ['/', '/'] <+: l) ∧ firstWord l ≠ includeWord

def IsInert (l : List Char) : Prop := l = [] ∨ IsRemark l

instance (l : List Char) : Decidable (IsRemark l) := inferInstanceAs (Decidable (_ ∧ _))

instance (l : List Char) : Decidable (IsInert l) := inferInstanceAs (Decidable (_ ∨ _))

end Line

/-! ## Edits -/

/-- What becomes of a line. -/
inductive Edit where
  | kept (line : List Char)
  | inserted (line : List Char)
  | deleted (line : List Char)
deriving DecidableEq, Repr

namespace Edit

def old? : Edit → Option (List Char)
  | kept line | deleted line => some line
  | inserted _ => none

def new? : Edit → Option (List Char)
  | kept line | inserted line => some line
  | deleted _ => none

/-- The line that was put in or taken out. -/
def edited? : Edit → Option (List Char)
  | inserted line | deleted line => some line
  | kept _ => none

def isInserted : Edit → Bool
  | inserted _ => true
  | _ => false

def isDeleted : Edit → Bool
  | deleted _ => true
  | _ => false

end Edit

def oldLines (edits : List Edit) : List (List Char) := edits.filterMap Edit.old?

def newLines (edits : List Edit) : List (List Char) := edits.filterMap Edit.new?

def editedLines (edits : List Edit) : List (List Char) := edits.filterMap Edit.edited?

variable {edits done todo : List Edit} {edit : Edit} {line header : List Char} {origin : String}
  {text text' : String} {c : Configuration} {old new : Loaded}

theorem oldLines_cons : oldLines (edit :: todo) = edit.old?.toList ++ oldLines todo := by
  cases edit <;> rfl

theorem newLines_cons : newLines (edit :: todo) = edit.new?.toList ++ newLines todo := by
  cases edit <;> rfl

theorem editedLines_cons :
    editedLines (edit :: todo) = edit.edited?.toList ++ editedLines todo := by
  cases edit <;> rfl

theorem length_filterMap_concat (line? : Edit → Option (List Char)) :
    ((done ++ [edit]).filterMap line?).length =
      (done.filterMap line?).length + (line? edit).toList.length := by
  rw [List.filterMap_append, List.length_append, List.filterMap_cons]
  cases line? edit <;> rfl

theorem length_newLines (edits : List Edit) :
    (newLines edits).length + edits.countP Edit.isDeleted =
      (oldLines edits).length + edits.countP Edit.isInserted := by
  induction edits with
  | nil => rfl
  | cons edit rest ih =>
    rw [newLines_cons, oldLines_cons, List.length_append, List.length_append, List.countP_cons,
      List.countP_cons]
    cases edit <;> simp [Edit.new?, Edit.old?, Edit.isInserted, Edit.isDeleted] <;> omega

/-! ## Two texts at once -/

/-- Both texts are loaded to the same options, or the same line stops both. Its number is then
another one by as many lines as were put in above it and taken out. -/
inductive Alike (origin : String) (edits : List Edit) : (old new : Loaded) → Prop where
  | loaded (c : Configuration) : Alike origin edits ⟨c, none⟩ ⟨c, none⟩
  | stopped {above below : List Edit} {line : List Char} {number number' : Nat}
      (c : Configuration) : edits = above ++ .kept line :: below →
      number = (oldLines above).length + 1 →
      number' + above.countP Edit.isDeleted = number + above.countP Edit.isInserted →
      Alike origin edits ⟨c, some (.malformed origin number (String.ofList line))⟩
        ⟨c, some (.malformed origin number' (String.ofList line))⟩

theorem Alike.error?_eq_none_iff (h : Alike origin edits old new) :
    old.error? = none ↔ new.error? = none := by
  cases h <;> simp

theorem alike_stopped (origin : String) (c : Configuration) :
    Alike origin (done ++ .kept line :: todo)
      ⟨c, some (.malformed origin ((oldLines done).length + 1) (String.ofList line))⟩
      ⟨c, some (.malformed origin ((newLines done).length + 1) (String.ofList line))⟩ := by
  have hlength := length_newLines done
  exact .stopped c rfl rfl (by omega)

/-- The edits are gone through one by one; `done` holds those above. -/
theorem alike_loadLines (done : List Edit)
    (hidle : ∀ line ∈ editedLines todo, Line.read line = .idle) :
    Alike origin (done ++ todo)
      (loadLines ⟨origin, none⟩ ((oldLines done).length + 1) header (oldLines todo) c)
      (loadLines ⟨origin, none⟩ ((newLines done).length + 1) header (newLines todo) c) := by
  induction todo generalizing done header c with
  | nil => exact .loaded c
  | cons edit rest ih =>
    rw [editedLines_cons, List.forall_mem_append] at hidle
    obtain ⟨hedit, hrest⟩ := hidle
    have hnext : ∀ header c, Alike origin (done ++ edit :: rest)
        (loadLines ⟨origin, none⟩ ((oldLines (done ++ [edit])).length + 1) header
          (oldLines rest) c)
        (loadLines ⟨origin, none⟩ ((newLines (done ++ [edit])).length + 1) header
          (newLines rest) c) := by
      intro header c
      rw [List.append_cons]
      exact ih (done ++ [edit]) hrest
    have hold : (oldLines (done ++ [edit])).length =
        (oldLines done).length + edit.old?.toList.length := length_filterMap_concat Edit.old?
    have hnew : (newLines (done ++ [edit])).length =
        (newLines done).length + edit.new?.toList.length := length_filterMap_concat Edit.new?
    rw [hold, hnew] at hnext
    rw [oldLines_cons, newLines_cons]
    cases edit with
    | inserted line =>
      have hline : Line.read line = .idle := hedit line (by simp [Edit.edited?])
      simp only [Edit.old?, Edit.new?, Option.toList] at hnext ⊢
      rw [List.singleton_append, loadLines, hline]
      exact hnext header c
    | deleted line =>
      have hline : Line.read line = .idle := hedit line (by simp [Edit.edited?])
      simp only [Edit.old?, Edit.new?, Option.toList] at hnext ⊢
      rw [List.singleton_append, loadLines, hline]
      exact hnext header c
    | kept line =>
      simp only [Edit.old?, Edit.new?, Option.toList] at hnext ⊢
      rw [List.singleton_append, List.singleton_append, loadLines, loadLines]
      cases Line.read line with
      | idle => exact hnext header c
      | header name => exact hnext name c
      | assignment key value => exact hnext header _
      | includes path => exact alike_stopped origin c
      | malformed => exact alike_stopped origin c

/-! ## Remarks and blank lines -/

theorem Line.read_of_isInert (h : Line.IsInert (Text.trim line))
    (hword : ¬ Line.includeWord <+: Text.trim line) : Line.read line = .idle :=
  (Line.judged_read line).eq_idle ⟨hword, h.imp_right And.left⟩

/-- Some line stops the loading, and at most `bound` lines stand above it. -/
def StopsWithin (origin : String) (lines : List (List Char)) (bound : Nat)
    (loaded : Loaded) : Prop :=
  ∃ above line, StopsAt lines above line ∧ above.length ≤ bound ∧
    loaded.toExcept = .error (.malformed origin (above.length + 1) (String.ofList line))

theorem stopsWithin_loadText {above below : List (List Char)}
    (hlines : Text.lines text.toList = above ++ line :: below)
    (hword : Line.includeWord <+: Text.trim line) :
    StopsWithin origin (Text.lines text.toList) above.length (loadText origin text c) := by
  obtain ⟨above', line', hstops, hle⟩ := exists_stopsAt_of_split hlines fun h => h.1 hword
  exact ⟨above', line', hstops, hle, toExcept_loadText_of_stopsAt hstops⟩

structure Edited (origin : String) (edits : List Edit) (old new : Loaded) : Prop where
  /-- Lines that do not begin with the word for including make no difference. -/
  alike : (∀ line ∈ editedLines edits, ¬ Line.includeWord <+: Text.trim line) →
    Alike origin edits old new
  /-- A line that begins with it lets none of the lines below it count. -/
  inserted : ∀ above line below, edits = above ++ .inserted line :: below →
    Line.includeWord <+: Text.trim line →
      StopsWithin origin (newLines edits) (newLines above).length new
  deleted : ∀ above line below, edits = above ++ .deleted line :: below →
    Line.includeWord <+: Text.trim line →
      StopsWithin origin (oldLines edits) (oldLines above).length old

/-- Remarks and blank lines may be put in and taken out anywhere. -/
theorem edited_loadText (origin : String) (c : Configuration)
    (hold : Text.lines text.toList = oldLines edits)
    (hnew : Text.lines text'.toList = newLines edits)
    (hinert : ∀ line ∈ editedLines edits, Line.IsInert (Text.trim line)) :
    Edited origin edits (loadText origin text c) (loadText origin text' c) := by
  constructor
  case alike =>
    intro hwords
    rw [loadText, loadText, hold, hnew]
    exact alike_loadLines [] fun line hline =>
      Line.read_of_isInert (hinert line hline) (hwords line hline)
  case inserted =>
    rintro above line below rfl hword
    have hsplit : Text.lines text'.toList = newLines above ++ line :: newLines below := by
      rw [hnew, newLines, List.filterMap_append]
      rfl
    rw [← hnew]
    exact stopsWithin_loadText hsplit hword
  case deleted =>
    rintro above line below rfl hword
    have hsplit : Text.lines text.toList = oldLines above ++ line :: oldLines below := by
      rw [hold, oldLines, List.filterMap_append]
      rfl
    rw [← hold]
    exact stopsWithin_loadText hsplit hword

/-- The third line becomes the fourth. -/
theorem edited_loadText_renumbered :
    Alike "text" [.deleted "# a".toList, .kept "k = 1".toList, .inserted [],
        .inserted " // b".toList, .kept "c".toList]
      (loadText "text" "# a\nk = 1\nc" .empty) (loadText "text" "k = 1\n\n // b\nc" .empty) ∧
    (loadText "text" "# a\nk = 1\nc" .empty).error? = some (.malformed "text" 3 "c") ∧
    (loadText "text" "k = 1\n\n // b\nc" .empty).error? = some (.malformed "text" 4 "c") :=
  ⟨(edited_loadText "text" .empty (by decide) (by decide) (by decide)).alike (by decide),
    by decide +kernel, by decide +kernel⟩

/-- The first word of the line is another one, and yet the line counts as a directive. -/
theorem not_alike_includedByHand :
    Line.IsRemark (Text.trim "#included by hand".toList) ∧
    Text.lines "k = 1".toList =
      oldLines [.inserted "#included by hand".toList, .kept "k = 1".toList] ∧
    Text.lines "#included by hand\nk = 1".toList =
      newLines [.inserted "#included by hand".toList, .kept "k = 1".toList] ∧
    (loadText "text" "k = 1" .empty).error? = none ∧
    (loadText "text" "#included by hand\nk = 1" .empty).error? =
      some (.malformed "text" 1 "#included by hand") ∧
    ¬ Alike "text" [.inserted "#included by hand".toList, .kept "k = 1".toList]
      (loadText "text" "k = 1" .empty) (loadText "text" "#included by hand\nk = 1" .empty) := by
  have hold : (loadText "text" "k = 1" .empty).error? = none := by decide +kernel
  have hnew : (loadText "text" "#included by hand\nk = 1" .empty).error? =
      some (.malformed "text" 1 "#included by hand") := by decide +kernel
  refine ⟨by decide, by decide, by decide, hold, hnew, fun h => ?_⟩
  cases hnew.symm.trans (h.error?_eq_none_iff.1 hold)

end Configuration
end StateSpace
