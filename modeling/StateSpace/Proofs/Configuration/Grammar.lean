import StateSpace.Proofs.Configuration.Nesting
import StateSpace.Proofs.Text

/-!
# StateSpace.Proofs.Configuration.Grammar

The grammar of a configuration text that includes no other texts.

* `Line.IsWellFormed`: the lines that are allowed. They are idle, headers, or assignments.
* `Line.Judged`, `Line.judged_readTrimmed`: what a line is read as, as told by the grammar.
* `HeadedBy`, `Assigns`: the nearest header above a line, and what a line assigns below it.
* `Takes`: what some lines make of a configuration. The last assignment to a key counts, and the
  other keys keep their values.
* `parsed_loadText`: a text is loaded just if all of its lines are allowed. The first line that is
  not ends the loading, and the lines above it count.
-/

namespace StateSpace
namespace Configuration

/-! ## Lines without the blanks at their ends -/

namespace Line

variable {l name name' key key' value value' : List Char} {line : Line}

/-- A line that says nothing. -/
def IsIdle (l : List Char) : Prop :=
  ¬ includeWord <+: l ∧ (l = [] ∨ ['#'] <+: l ∨ ['/', '/'] <+: l)

/-- A name in brackets. -/
def IsHeader (l name : List Char) : Prop :=
  ∃ inner, l = '[' :: (inner ++ [']']) ∧ name = Text.trim inner

/-- A key that is not blank, and a value behind the first sign of equality. -/
def IsAssignment (l key value : List Char) : Prop :=
  ¬ ['#'] <+: l ∧ ¬ ['/', '/'] <+: l ∧ ¬ ['['] <+: l ∧
    ∃ before after, l = before ++ '=' :: after ∧ '=' ∉ before ∧ Text.trim before ≠ [] ∧
      key = Text.trim before ∧ value = Text.trim after

/-- The lines that are allowed in a text which includes no others. -/
def IsWellFormed (l : List Char) : Prop :=
  ¬ includeWord <+: l ∧
    (l = [] ∨ ['#'] <+: l ∨ ['/', '/'] <+: l ∨ (∃ inner, l = '[' :: (inner ++ [']'])) ∨
      ¬ ['['] <+: l ∧
        ∃ before after, l = before ++ '=' :: after ∧ '=' ∉ before ∧ Text.trim before ≠ [])

theorem IsIdle.isWellFormed (h : IsIdle l) : IsWellFormed l :=
  ⟨h.1, h.2.imp_right fun h => h.imp_right .inl⟩

theorem IsHeader.isWellFormed (h : IsHeader l name) : IsWellFormed l := by
  obtain ⟨inner, rfl, -⟩ := h
  exact ⟨by simp [includeWord], .inr (.inr (.inr (.inl ⟨inner, rfl⟩)))⟩

/-- The word for including begins like a comment. -/
theorem not_include_of_not_hash (h : ¬ ['#'] <+: l) : ¬ includeWord <+: l := by
  have hhash : ['#'] <+: includeWord := ⟨_, rfl⟩
  exact fun hword => h (hhash.trans hword)

theorem IsAssignment.isWellFormed (h : IsAssignment l key value) : IsWellFormed l := by
  obtain ⟨hhash, -, hbracket, before, after, hl, hsep, hkey, -⟩ := h
  exact ⟨not_include_of_not_hash hhash,
    .inr (.inr (.inr (.inr ⟨hbracket, before, after, hl, hsep, hkey⟩)))⟩

/-- What a line is read as, as told by the grammar. -/
inductive Judged (l : List Char) : Line → Prop where
  | idle : IsIdle l → Judged l .idle
  | header {name : List Char} : IsHeader l name → Judged l (.header name)
  | assignment {key value : List Char} : IsAssignment l key value →
      Judged l (.assignment key value)
  | includes {path : List Char} : ¬ IsWellFormed l → Judged l (.includes path)
  | malformed : ¬ IsWellFormed l → Judged l .malformed

theorem isComment_iff : isComment l = true ↔ ['#'] <+: l ∨ ['/', '/'] <+: l := by
  unfold isComment
  split
  · simp
  · simp
  · rename_i hhash hslashes
    simp only [Bool.false_eq_true, false_iff, not_or]
    constructor
    · rintro ⟨rest, hrest⟩
      exact hhash rest hrest.symm
    · rintro ⟨rest, hrest⟩
      exact hslashes rest hrest.symm

theorem judged_readHeader (rest : List Char) : Judged ('[' :: rest) (readHeader rest) := by
  unfold readHeader
  split
  · rename_i hlast
    obtain ⟨inner, rfl⟩ := List.getLast?_eq_some_iff.1 hlast
    exact .header ⟨inner, rfl, by rw [List.dropLast_concat]⟩
  · rename_i hlast
    refine .malformed fun h => hlast ?_
    rcases h.2 with hnil | hhash | hslashes | ⟨inner, hinner⟩ | ⟨hbracket, -⟩
    · cases hnil
    · simp at hhash
    · simp at hslashes
    · rw [(List.cons.inj hinner).2, List.getLast?_concat]
    · exact absurd ⟨rest, rfl⟩ hbracket

theorem judged_readAssignment (hnil : l ≠ []) (hhash : ¬ ['#'] <+: l)
    (hslashes : ¬ ['/', '/'] <+: l) (hbracket : ¬ ['['] <+: l) :
    Judged l (readAssignment l) := by
  -- Of all the kinds of lines only an assignment is left.
  have hleft : IsWellFormed l →
      ∃ before after, l = before ++ '=' :: after ∧ '=' ∉ before ∧ Text.trim before ≠ [] := by
    rintro ⟨-, h | h | h | ⟨inner, h⟩ | ⟨-, h⟩⟩
    · exact absurd h hnil
    · exact absurd h hhash
    · exact absurd h hslashes
    · exact absurd ⟨_, h.symm⟩ hbracket
    · exact h
  unfold readAssignment
  split
  · rename_i hsplit
    refine .malformed fun h => ?_
    obtain ⟨before, after, rfl, -⟩ := hleft h
    exact absurd (Text.splitFirst?_eq_none_iff.1 hsplit) (by simp)
  · rename_i before after hsplit
    obtain ⟨hl, hsep⟩ := Text.splitFirst?_eq_some_iff.1 hsplit
    split
    · rename_i hblank
      refine .malformed fun h => ?_
      obtain ⟨before', after', hl', hsep', hkey⟩ := hleft h
      have hsame := hsplit.symm.trans (Text.splitFirst?_eq_some_iff.2 ⟨hl', hsep'⟩)
      obtain ⟨rfl, -⟩ : before = before' ∧ after = after' := by simpa using hsame
      exact hkey hblank
    · rename_i hkey
      exact .assignment ⟨hhash, hslashes, hbracket, before, after, hl, hsep, hkey, rfl, rfl⟩

theorem judged_readTrimmed (l : List Char) : Judged l (readTrimmed l) := by
  unfold readTrimmed
  split
  · rename_i rest hword
    have hreject : ¬ IsWellFormed l := fun h =>
      h.1 ⟨rest, (Text.afterInitial?_eq_some_iff.1 hword).symm⟩
    split
    · exact .malformed hreject
    · exact .includes hreject
  · rename_i hword
    have hplain := Text.afterInitial?_eq_none_iff.1 hword
    unfold readPlain
    split
    · rename_i hidle
      rw [Bool.or_eq_true, decide_eq_true_eq, isComment_iff] at hidle
      exact .idle ⟨hplain, hidle⟩
    · rename_i hidle
      rw [Bool.or_eq_true, decide_eq_true_eq, isComment_iff, not_or, not_or] at hidle
      obtain ⟨hnil, hhash, hslashes⟩ := hidle
      split
      · rename_i rest
        exact judged_readHeader rest
      · rename_i hbracket
        refine judged_readAssignment hnil hhash hslashes ?_
        rintro ⟨rest, hrest⟩
        exact hbracket rest hrest.symm

/-! ### The kinds of lines exclude each other -/

theorem IsHeader.not_isIdle (h : IsHeader l name) : ¬ IsIdle l := by
  obtain ⟨inner, rfl, -⟩ := h
  simp [IsIdle]

theorem IsHeader.not_isAssignment (h : IsHeader l name) : ¬ IsAssignment l key value := by
  obtain ⟨inner, rfl, -⟩ := h
  simp [IsAssignment]

theorem IsHeader.eq (h : IsHeader l name) (h' : IsHeader l name') : name = name' := by
  obtain ⟨inner, hl, rfl⟩ := h
  obtain ⟨inner', hl', rfl⟩ := h'
  rw [List.append_cancel_right (List.cons.inj (hl.symm.trans hl')).2]

theorem IsAssignment.not_isIdle (h : IsAssignment l key value) : ¬ IsIdle l := by
  obtain ⟨hhash, hslashes, -, before, after, hl, -⟩ := h
  rintro ⟨-, hnil | h | h⟩
  · simp [hnil] at hl
  · exact hhash h
  · exact hslashes h

theorem IsAssignment.eq (h : IsAssignment l key value) (h' : IsAssignment l key' value') :
    key = key' ∧ value = value' := by
  obtain ⟨-, -, -, before, after, hl, hsep, -, rfl, rfl⟩ := h
  obtain ⟨-, -, -, before', after', hl', hsep', -, rfl, rfl⟩ := h'
  have hsame := (Text.splitFirst?_eq_some_iff.2 ⟨hl, hsep⟩).symm.trans
    (Text.splitFirst?_eq_some_iff.2 ⟨hl', hsep'⟩)
  obtain ⟨rfl, rfl⟩ : before = before' ∧ after = after' := by simpa using hsame
  exact ⟨rfl, rfl⟩

theorem Judged.eq_idle (hj : Judged l line) (h : IsIdle l) : line = .idle := by
  cases hj with
  | idle => rfl
  | header h' => exact absurd h h'.not_isIdle
  | assignment h' => exact absurd h h'.not_isIdle
  | includes h' => exact absurd h.isWellFormed h'
  | malformed h' => exact absurd h.isWellFormed h'

theorem Judged.eq_header_iff (hj : Judged l line) : line = .header name ↔ IsHeader l name := by
  constructor
  · rintro rfl
    cases hj with
    | header h => exact h
  · intro h
    cases hj with
    | idle h' => exact absurd h' h.not_isIdle
    | header h' => rw [h'.eq h]
    | assignment h' => exact absurd h' h.not_isAssignment
    | includes h' => exact absurd h.isWellFormed h'
    | malformed h' => exact absurd h.isWellFormed h'

theorem Judged.eq_assignment_iff (hj : Judged l line) :
    line = .assignment key value ↔ IsAssignment l key value := by
  constructor
  · rintro rfl
    cases hj with
    | assignment h => exact h
  · intro h
    cases hj with
    | idle h' => exact absurd h' h.not_isIdle
    | header h' => exact absurd h h'.not_isAssignment
    | assignment h' =>
      obtain ⟨rfl, rfl⟩ := h'.eq h
      rfl
    | includes h' => exact absurd h.isWellFormed h'
    | malformed h' => exact absurd h.isWellFormed h'

theorem Judged.not_isWellFormed_iff (hj : Judged l line) :
    ¬ IsWellFormed l ↔ line = .malformed ∨ ∃ path, line = .includes path := by
  cases hj with
  | idle h => simp [h.isWellFormed]
  | header h => simp [h.isWellFormed]
  | assignment h => simp [h.isWellFormed]
  | includes h => simp [h]
  | malformed h => simp [h]

theorem judged_read (l : List Char) : Judged (Text.trim l) (read l) := judged_readTrimmed _

end Line

/-! ## What lines assign -/

/-- The nearest header above a line has this name. Where there is none, the name is empty. -/
def HeadedBy (above : List (List Char)) (name : List Char) : Prop :=
  (∃ earlier header between, above = earlier ++ header :: between ∧
    Line.IsHeader (Text.trim header) name ∧
    ∀ line ∈ between, ∀ other, ¬ Line.IsHeader (Text.trim line) other) ∨
  (∀ line ∈ above, ∀ other, ¬ Line.IsHeader (Text.trim line) other) ∧ name = []

/-- What a line assigns that stands below the lines `above`. -/
def Assigns (above : List (List Char)) (line : List Char) (key value : String) : Prop :=
  ∃ name k whole v, HeadedBy above name ∧ Line.IsAssignment (Text.trim line) k v ∧
    IsKeyBelow name k whole ∧ key = String.ofList whole ∧ value = String.ofList v

/-- What lines make of a configuration. -/
structure Takes (lines : List (List Char)) (c d : Configuration) : Prop where
  /-- A key has the value of the last line that assigns it. -/
  assigned : ∀ above line below key value, lines = above ++ line :: below →
    Assigns above line key value →
    (∀ between later rest v, below = between ++ later :: rest →
      ¬ Assigns (above ++ line :: between) later key v) →
    d.get? key = some value
  /-- A key that no line assigns keeps its value. -/
  kept : ∀ key, (∀ above line below value, lines = above ++ line :: below →
    ¬ Assigns above line key value) → d.get? key = c.get? key

variable {origin : String} {above lines lines' : List (List Char)} {line name : List Char}
  {key value : String} {c : Configuration}

/-- The name in a header. -/
def headerName? (line : List Char) : Option (List Char) :=
  match Line.read line with
  | .header name => some name
  | _ => none

theorem headerOf_eq : headerOf above = (above.reverse.findSome? headerName?).getD [] := rfl

theorem headerName?_eq_some_iff :
    headerName? line = some name ↔ Line.IsHeader (Text.trim line) name := by
  rw [← (Line.judged_read line).eq_header_iff, headerName?]
  cases Line.read line <;> simp

theorem headerName?_eq_none_iff :
    headerName? line = none ↔ ∀ other, ¬ Line.IsHeader (Text.trim line) other := by
  rw [Option.eq_none_iff_forall_not_mem]
  exact forall_congr' fun other => not_congr headerName?_eq_some_iff

theorem headedBy_iff : HeadedBy above name ↔ headerOf above = name := by
  have hnames : HeadedBy above name ↔
      (∃ earlier header between, above = earlier ++ header :: between ∧
        headerName? header = some name ∧ ∀ line ∈ between, headerName? line = none) ∨
      (∀ line ∈ above, headerName? line = none) ∧ name = [] := by
    simp only [HeadedBy, headerName?_eq_some_iff, headerName?_eq_none_iff]
  rw [hnames, ← findSome?_reverse_eq_some_iff, headerOf_eq]
  have hnone : (∀ line ∈ above, headerName? line = none) ↔
      above.reverse.findSome? headerName? = none := by
    simp only [List.findSome?_eq_none_iff, List.mem_reverse]
  rw [hnone]
  cases above.reverse.findSome? headerName? <;> simp [eq_comm]

/-! ## The points of a text without other texts -/

theorem mem_pointsOf_iff :
    .assigned key value ∈ pointsOf origin none above line ↔ Assigns above line key value := by
  have hjudged := Line.judged_read line
  unfold Assigns
  simp only [headedBy_iff, ← hjudged.eq_assignment_iff, isKeyBelow_iff]
  unfold pointsOf
  cases hread : Line.read line <;> simp

theorem pointsOf_of_assigns (h : Assigns above line key value) :
    pointsOf origin none above line = [.assigned key value] := by
  obtain ⟨name, k, whole, v, hheader, hline, hkey, rfl, rfl⟩ := h
  obtain rfl := isKeyBelow_iff.1 hkey
  rw [pointsOf, (Line.judged_read line).eq_assignment_iff.2 hline, headedBy_iff.1 hheader]

theorem pointsOf_of_not_isWellFormed (h : ¬ Line.IsWellFormed (Text.trim line)) :
    pointsOf origin none above line =
      [.failed (.malformed origin (above.length + 1) (String.ofList line))] := by
  rcases (Line.judged_read line).not_isWellFormed_iff.1 h with hread | ⟨path, hread⟩ <;>
    rw [pointsOf, hread]

theorem failed_notMem_pointsOf (h : Line.IsWellFormed (Text.trim line)) (e : Error) :
    .failed e ∉ pointsOf origin none above line := by
  have hread := mt (Line.judged_read line).not_isWellFormed_iff.2 (not_not.2 h)
  rw [not_or, not_exists] at hread
  unfold pointsOf
  cases hline : Line.read line with
  | includes path => exact absurd hline (hread.2 path)
  | malformed => exact absurd hline hread.1
  | _ => simp

theorem failed_notMem_walkLines (h : ∀ line ∈ lines, Line.IsWellFormed (Text.trim line))
    (e : Error) : .failed e ∉ walkLines origin none above lines := by
  rw [mem_walkLines_iff]
  rintro ⟨between, line, after, rfl, hmem⟩
  exact failed_notMem_pointsOf (h line (by simp)) e hmem

theorem walkLines_append :
    walkLines origin none above (lines ++ lines') =
      walkLines origin none above lines ++ walkLines origin none (above ++ lines) lines' := by
  induction lines generalizing above with
  | nil => simp [walkLines]
  | cons line rest ih =>
    rw [List.cons_append, walkLines, ih, walkLines, List.append_assoc, List.append_assoc,
      List.singleton_append]

/-- The first line that is not allowed is where the walk fails. -/
theorem walkLines_of_not_isWellFormed (below : List (List Char))
    (h : ¬ Line.IsWellFormed (Text.trim line)) :
    walkLines origin none [] (above ++ line :: below) =
      walkLines origin none [] above ++
        .failed (.malformed origin (above.length + 1) (String.ofList line)) ::
          walkLines origin none (above ++ [line]) below := by
  rw [walkLines_append, List.nil_append, walkLines, pointsOf_of_not_isWellFormed h,
    List.singleton_append]

theorem takes_foldl_walkLines :
    Takes lines c ((walkLines origin none [] lines).foldl Point.apply c) := by
  constructor
  case assigned =>
    rintro above line below key value rfl hline hlater
    have hlast : lastValue? key (walkLines origin none [] (above ++ line :: below)) =
        some value := by
      refine lastValue?_eq_some_iff.2 ⟨walkLines origin none [] above,
        walkLines origin none (above ++ [line]) below, ?_, fun v hmem => ?_⟩
      · rw [walkLines_append, List.nil_append, walkLines, pointsOf_of_assigns hline,
          List.singleton_append]
      · obtain ⟨between, later, rest, hbelow, hv⟩ := mem_walkLines_iff.1 hmem
        rw [List.append_assoc, List.singleton_append] at hv
        exact hlater between later rest v hbelow (mem_pointsOf_iff.1 hv)
    rw [get?_foldl_apply, hlast, Option.some_or]
  case kept =>
    intro key hnone
    have hlast : lastValue? key (walkLines origin none [] lines) = none := by
      refine lastValue?_eq_none_iff.2 fun value hmem => ?_
      obtain ⟨above, line, below, hsplit, hline⟩ := mem_walkLines_iff.1 hmem
      exact hnone above line below value hsplit (mem_pointsOf_iff.1 hline)
    rw [get?_foldl_apply, hlast, Option.none_or]

/-! ## What loading comes to -/

/-- The first of the lines that is not allowed, and the lines above it. -/
structure StopsAt (lines above : List (List Char)) (line : List Char) : Prop where
  isSplit : ∃ below, lines = above ++ line :: below
  above_isWellFormed : ∀ l ∈ above, Line.IsWellFormed (Text.trim l)
  not_isWellFormed : ¬ Line.IsWellFormed (Text.trim line)

structure Parsed (origin : String) (lines : List (List Char)) (c : Configuration)
    (loaded : Loaded) : Prop where
  /-- A text is loaded exactly when all of its lines are allowed. -/
  ok_iff : (∃ d, loaded.toExcept = .ok d) ↔ ∀ line ∈ lines, Line.IsWellFormed (Text.trim line)
  values : ∀ d, loaded.toExcept = .ok d → Takes lines c d
  /-- The error names the first line that is not allowed, as it stands in the text. -/
  error_iff : ∀ e, loaded.toExcept = .error e ↔
    ∃ above line, StopsAt lines above line ∧
      e = .malformed origin (above.length + 1) (String.ofList line)
  /-- Up to there the lines count, and no further. -/
  partial_values : ∀ above line, StopsAt lines above line → Takes above c loaded.configuration

theorem firstFailure?_walkLines_eq_none
    (h : ∀ line ∈ lines, Line.IsWellFormed (Text.trim line)) :
    firstFailure? (walkLines origin none [] lines) = none :=
  firstFailure?_eq_none_iff.2 (failed_notMem_walkLines h)

theorem firstFailure?_walkLines (h : StopsAt lines above line) :
    firstFailure? (walkLines origin none [] lines) =
      some (.malformed origin (above.length + 1) (String.ofList line)) := by
  obtain ⟨⟨below, rfl⟩, habove, hline⟩ := h
  exact firstFailure?_eq_some_iff.2 ⟨_, _, walkLines_of_not_isWellFormed below hline,
    failed_notMem_walkLines habove⟩

theorem forall_isWellFormed_or_stopsAt (lines : List (List Char)) :
    (∀ line ∈ lines, Line.IsWellFormed (Text.trim line)) ∨
      ∃ above line, StopsAt lines above line := by
  induction lines with
  | nil => exact .inl (by simp)
  | cons first rest ih =>
    by_cases hfirst : Line.IsWellFormed (Text.trim first)
    · rcases ih with hrest | ⟨above, line, ⟨below, rfl⟩, habove, hline⟩
      · exact .inl (List.forall_mem_cons.2 ⟨hfirst, hrest⟩)
      · exact .inr ⟨first :: above, line, ⟨below, rfl⟩,
          List.forall_mem_cons.2 ⟨hfirst, habove⟩, hline⟩
    · exact .inr ⟨[], first, ⟨rest, rfl⟩, by simp, hfirst⟩

/-- The loading stops at a line that is not allowed, unless it stops above. -/
theorem exists_stopsAt_of_split {below : List (List Char)} (hlines : lines = above ++ line :: below)
    (hline : ¬ Line.IsWellFormed (Text.trim line)) :
    ∃ above' line', StopsAt lines above' line' ∧ above'.length ≤ above.length := by
  rcases forall_isWellFormed_or_stopsAt (above ++ [line]) with
    hall | ⟨above', line', ⟨rest, hsplit⟩, habove, hline'⟩
  · exact absurd (hall line (by simp)) hline
  · refine ⟨above', line', ⟨⟨rest ++ below, ?_⟩, habove, hline'⟩, ?_⟩
    · rw [hlines, List.append_cons, hsplit, List.append_assoc, List.cons_append]
    · have hlength := congrArg List.length hsplit
      simp only [List.length_append, List.length_cons, List.length_nil] at hlength
      omega

theorem loadText_eq_ran {text : String} :
    loadText origin text c = ran (walkLines origin none [] (Text.lines text.toList)) c :=
  loadLines_eq_ran [] rfl

theorem toExcept_loadText_of_stopsAt {text : String}
    (h : StopsAt (Text.lines text.toList) above line) :
    (loadText origin text c).toExcept =
      .error (.malformed origin (above.length + 1) (String.ofList line)) := by
  rw [loadText_eq_ran]
  exact toExcept_ran_eq_error_iff.2 (firstFailure?_walkLines h)

theorem exists_toExcept_loadText_of_isWellFormed {text : String} (origin : String)
    (c : Configuration) (h : ∀ line ∈ Text.lines text.toList, Line.IsWellFormed (Text.trim line)) :
    ∃ d, (loadText origin text c).toExcept = .ok d := by
  rw [loadText_eq_ran]
  exact ⟨_, toExcept_ran_eq_ok_iff.2 ⟨firstFailure?_walkLines_eq_none h, rfl⟩⟩

/-- A text without other texts is judged line by line, whatever stands in it. -/
theorem parsed_loadText (origin text : String) (c : Configuration) :
    Parsed origin (Text.lines text.toList) c (loadText origin text c) := by
  have hcases := forall_isWellFormed_or_stopsAt (Text.lines text.toList)
  constructor
  case ok_iff =>
    refine ⟨fun ⟨d, hd⟩ => ?_, exists_toExcept_loadText_of_isWellFormed origin c⟩
    rcases hcases with hall | ⟨above, line, h⟩
    · exact hall
    · cases hd.symm.trans (toExcept_loadText_of_stopsAt h)
  case values =>
    intro d hd
    rw [loadText_eq_ran] at hd
    obtain ⟨hnone, rfl⟩ := toExcept_ran_eq_ok_iff.1 hd
    rw [ran, untilFailure_of_none (firstFailure?_eq_none_iff.1 hnone)]
    exact takes_foldl_walkLines
  case error_iff =>
    intro e
    constructor
    · intro he
      rcases hcases with hall | ⟨above, line, h⟩
      · obtain ⟨d, hd⟩ := exists_toExcept_loadText_of_isWellFormed origin c hall
        cases he.symm.trans hd
      · exact ⟨above, line, h,
          Except.error.inj (he.symm.trans (toExcept_loadText_of_stopsAt h))⟩
    · rintro ⟨above, line, h, rfl⟩
      exact toExcept_loadText_of_stopsAt h
  case partial_values =>
    rintro above line ⟨⟨below, hlines⟩, habove, hline⟩
    have huntil : untilFailure (walkLines origin none [] (Text.lines text.toList)) =
        walkLines origin none [] above := by
      rw [hlines, walkLines_of_not_isWellFormed below hline,
        untilFailure_append (failed_notMem_walkLines habove)]
      simp [untilFailure, Point.failure?]
    rw [loadText_eq_ran, ran, huntil]
    exact takes_foldl_walkLines

/-- An empty header ends the one above it, and a value may hold further signs of equality. -/
example : (loadText "text" "[a]\n k = 1 = 2 \n// k\n[ ]\nk=3\n = 4\nk=5" .empty).error? =
      some (.malformed "text" 6 " = 4") ∧
    (loadText "text" "[a]\n k = 1 = 2 \n// k\n[ ]\nk=3\n = 4\nk=5" .empty).configuration.toList =
      [("a.k", "1 = 2"), ("k", "3")] := by decide +kernel

end Configuration
end StateSpace
