import StateSpace.Configuration.Path
import StateSpace.Proofs.Text

/-!
# StateSpace.Proofs.Configuration.Path

Where paths lead, told by the names on the way.

* `names_join`: in a directory, the names of a path come after those of the directory, unless the
  path is absolute.
* `names_of_parentOf`, `exists_parent?`: a path with names lies in a directory, which has all of
  them but the last one.
* `Beside`, `beside_join`: what a name stands for in a file. An absolute one stands for itself, and
  any other takes the place of the last name of the file.
-/

namespace StateSpace
namespace Path

variable {path directory piece first : List Char} {l rest : List (List Char)}

/-! ## Pieces -/

theorem pieces_eq_splitOn (path : List Char) : pieces path = path.splitOn '/' :=
  Text.splitAll_eq_splitOn

theorem exists_pieces (path : List Char) : ∃ first rest, pieces path = first :: rest := by
  rw [pieces_eq_splitOn]
  exact List.exists_cons_of_ne_nil (List.splitOn_ne_nil '/' path)

theorem slash_notMem_of_mem_pieces (h : piece ∈ pieces path) : '/' ∉ piece :=
  Text.notMem_of_mem_splitAll h

theorem eq_nil_iff (h : pieces path = first :: rest) : path = [] ↔ first = [] ∧ rest = [] := by
  constructor
  · rintro rfl
    exact ⟨(List.cons.inj h).1.symm, (List.cons.inj h).2.symm⟩
  · rintro ⟨rfl, rfl⟩
    have hpath : ['/'].intercalate (path.splitOn '/') = path := List.intercalate_splitOn '/'
    rw [← hpath, ← pieces_eq_splitOn, h]
    rfl

theorem pieces_ofPieces (h : ∀ piece ∈ l, '/' ∉ piece) (hl : l ≠ []) : pieces (ofPieces l) = l := by
  rw [pieces_eq_splitOn, ofPieces, List.splitOn_intercalate '/' h hl]

theorem counted_append (l l' : List (List Char)) : counted (l ++ l') = counted l ++ counted l' :=
  List.filter_append ..

theorem names_append_slash (path path' : List Char) :
    names (path ++ '/' :: path') = names path ++ names path' := by
  rw [names, pieces_eq_splitOn, List.splitOn_append_cons_self, ← pieces_eq_splitOn,
    ← pieces_eq_splitOn, counted_append, names, names]

theorem isAbsolute_iff (h : pieces path = first :: rest) :
    isAbsolute path = true ↔ first = [] ∧ rest ≠ [] := by
  rw [pieces_eq_splitOn] at h
  cases path with
  | nil =>
    obtain ⟨rfl, rfl⟩ := List.cons.inj h
    simp [isAbsolute]
  | cons c path =>
    obtain ⟨next, others, hnext⟩ := exists_pieces path
    rw [List.splitOn_cons_eq_if_modifyHead, ← pieces_eq_splitOn, hnext] at h
    by_cases hc : c = '/'
    · rw [if_pos (by simpa using hc)] at h
      obtain ⟨rfl, rfl⟩ := List.cons.inj h
      simp [isAbsolute, hc]
    · rw [if_neg (by simpa using hc)] at h
      obtain ⟨rfl, rfl⟩ := List.cons.inj h
      simp [isAbsolute, hc]

/-! ## Joined paths -/

theorem join_of_isAbsolute (around : String) {path : String} (h : isAbsolute path.toList = true) :
    join around path = path := by
  have hhead : path.toList.head? = some '/' := by simpa [isAbsolute] using h
  simp [join, hhead]

/-- A path that is not absolute is appended to the directory, with one slash between them. -/
theorem toList_join (around path : String) (h : isAbsolute path.toList = false) :
    around = "" ∧ join around path = path ∨
      ∃ outer, (join around path).toList = outer ++ '/' :: path.toList ∧
        (around.toList = outer ∧ outer ≠ [] ∨ around.toList = outer ++ ['/']) := by
  unfold join
  split
  · rename_i hhead
    simp [isAbsolute, hhead] at h
  · rename_i hlast _
    exact .inl ⟨by simpa using hlast, rfl⟩
  · rename_i hlast _
    obtain ⟨outer, houter⟩ := List.getLast?_eq_some_iff.1 hlast
    exact .inr ⟨outer, by simp [houter], .inr houter⟩
  · rename_i hlast _
    refine .inr ⟨around.toList, by simp, .inl ⟨rfl, ?_⟩⟩
    intro hnil
    simp [hnil] at hlast

/-- A path lies in the directory that it is read from. -/
theorem names_join (around : String) {path : String} (h : isAbsolute path.toList = false) :
    names (join around path).toList = names around.toList ++ names path.toList := by
  rcases toList_join around path h with
    ⟨rfl, hjoin⟩ | ⟨outer, hjoin, ⟨haround, -⟩ | haround⟩
  · rw [hjoin]
    rfl
  · rw [hjoin, names_append_slash, haround]
  · rw [hjoin, names_append_slash, haround, names_append_slash]
    simp [names, pieces, Text.splitAll, counted, isIdle]

theorem isAbsolute_join (around : String) {path : String} (h : isAbsolute path.toList = false) :
    isAbsolute (join around path).toList = isAbsolute around.toList := by
  rcases toList_join around path h with
    ⟨rfl, hjoin⟩ | ⟨outer, hjoin, ⟨haround, hne⟩ | haround⟩
  · rw [hjoin, h]
    rfl
  · rw [hjoin, haround, isAbsolute, isAbsolute, List.head?_append_of_ne_nil _ hne]
  · rw [hjoin, haround, isAbsolute, isAbsolute]
    cases outer <;> rfl

/-! ## The directory of a file -/

theorem dropIdleEnd_eq_rdropWhile (l : List (List Char)) :
    dropIdleEnd l = l.rdropWhile isIdle := rfl

theorem counted_eq_nil_iff : counted l = [] ↔ ∀ piece ∈ l, isIdle piece = true := by
  simp [counted]

theorem dropIdleEnd_eq_nil_iff : dropIdleEnd l = [] ↔ counted l = [] := by
  rw [dropIdleEnd_eq_rdropWhile, List.rdropWhile_eq_nil_iff, counted_eq_nil_iff]

theorem counted_dropIdleEnd (l : List (List Char)) : counted (dropIdleEnd l) = counted l := by
  have hend : counted (l.rtakeWhile isIdle) = [] :=
    counted_eq_nil_iff.2 fun piece hpiece => List.mem_rtakeWhile_imp hpiece
  calc counted (dropIdleEnd l)
      = counted (l.rdropWhile isIdle ++ l.rtakeWhile isIdle) := by
        rw [counted_append, hend, List.append_nil, dropIdleEnd_eq_rdropWhile]
    _ = counted l := by rw [List.rdropWhile_append_rtakeWhile]

theorem counted_dropLast_dropIdleEnd (l : List (List Char)) :
    counted (dropIdleEnd l).dropLast = (counted l).dropLast := by
  rcases List.eq_nil_or_concat' (dropIdleEnd l) with hnil | ⟨before, last, hconcat⟩
  · rw [hnil, dropIdleEnd_eq_nil_iff.1 hnil]
    rfl
  · have hne : l.rdropWhile isIdle ≠ [] := by simp [← dropIdleEnd_eq_rdropWhile, hconcat]
    have hlast := List.rdropWhile_last_not isIdle l hne
    simp only [← dropIdleEnd_eq_rdropWhile, hconcat, List.getLast_concat] at hlast
    rw [← counted_dropIdleEnd l, hconcat, List.dropLast_concat, counted_append]
    simp [counted, hlast]

/-- The pieces around the last one that counts. -/
theorem counted_around (l : List (List Char)) :
    counted (dropIdleEnd (dropIdleEnd l).dropLast) = (counted l).dropLast := by
  rw [counted_dropIdleEnd, counted_dropLast_dropIdleEnd]

theorem mem_of_mem_dropIdleEnd (h : piece ∈ dropIdleEnd l) : piece ∈ l :=
  (List.rdropWhile_prefix isIdle l).subset h

theorem mem_of_mem_around (h : piece ∈ dropIdleEnd (dropIdleEnd l).dropLast) : piece ∈ l :=
  mem_of_mem_dropIdleEnd (List.mem_of_mem_dropLast (mem_of_mem_dropIdleEnd h))

/-- A path lies in the empty directory if only its first piece counts. Otherwise its directory has
the same first piece, and then all that counts but the last. -/
theorem pieces_of_parentOf (hpieces : pieces path = first :: rest)
    (h : parentOf path = some directory) :
    first ≠ [] ∧ counted rest = [] ∧ directory = [] ∨
      ∃ around, pieces directory = first :: around ∧ counted rest ≠ [] ∧
        counted around = (counted rest).dropLast ∧ (first = [] → around ≠ []) := by
  have hslash : ∀ piece ∈ first :: rest, '/' ∉ piece := fun piece hpiece =>
    slash_notMem_of_mem_pieces (hpieces ▸ hpiece)
  rw [List.forall_mem_cons] at hslash
  simp only [parentOf, hpieces] at h
  split at h
  · rename_i hidle
    split at h
    · cases h
    · rename_i hfirst
      cases h
      exact .inl ⟨hfirst, dropIdleEnd_eq_nil_iff.1 hidle, rfl⟩
  · rename_i next others hothers
    rw [← hothers] at h
    have hrest : counted rest ≠ [] := fun hnil => by
      cases hothers.symm.trans (dropIdleEnd_eq_nil_iff.2 hnil)
    have hcounted := counted_around rest
    refine .inr ?_
    split at h
    · rename_i haround
      rw [haround] at hcounted
      split at h
      · rename_i hfirst
        cases h
        exact ⟨[[]], by rw [hfirst]; decide, hrest, hcounted, fun _ => by simp⟩
      · rename_i hfirst
        have hpiece : pieces first = [first] := by
          rw [pieces_eq_splitOn, List.splitOn_eq_singleton hslash.1]
        rw [← Option.some.inj h]
        exact ⟨[], hpiece, hrest, hcounted, fun hnil => absurd hnil hfirst⟩
    · rename_i last inner haround
      cases h
      have hinner : ∀ piece ∈ dropIdleEnd (dropIdleEnd rest).dropLast, '/' ∉ piece :=
        fun piece hpiece => hslash.2 piece (mem_of_mem_around hpiece)
      rw [haround] at hcounted hinner
      exact ⟨_, pieces_ofPieces (List.forall_mem_cons.2 ⟨hslash.1, hinner⟩) (by simp), hrest,
        hcounted, fun _ => by simp⟩

/-- The directory of a file has all its names but the last. -/
theorem names_of_parentOf (h : parentOf path = some directory) :
    names directory = (names path).dropLast := by
  obtain ⟨first, rest, hpieces⟩ := exists_pieces path
  have hcons : ∀ l, counted (first :: l) = counted [first] ++ counted l := counted_append [first]
  rw [names, names, hpieces, hcons rest]
  rcases pieces_of_parentOf hpieces h with ⟨-, hrest, rfl⟩ | ⟨around, haround, hrest, hcounted, -⟩
  · have hnil : counted (pieces []) = [] := by decide
    rw [hnil, hrest, List.append_nil]
    cases hfirst : isIdle first <;> simp [counted, hfirst]
  · rw [haround, hcons around, hcounted, List.dropLast_append_of_ne_nil hrest]

theorem isAbsolute_of_parentOf (h : parentOf path = some directory) :
    isAbsolute directory = isAbsolute path := by
  obtain ⟨first, rest, hpieces⟩ := exists_pieces path
  rw [Bool.eq_iff_iff, isAbsolute_iff hpieces]
  rcases pieces_of_parentOf hpieces h with ⟨hfirst, -, rfl⟩ | ⟨around, haround, hrest, -, hroot⟩
  · exact iff_of_false (by simp [isAbsolute]) fun h => hfirst h.1
  · have hne : rest ≠ [] := by
      rintro rfl
      exact hrest rfl
    rw [isAbsolute_iff haround]
    exact ⟨fun h => ⟨h.1, hne⟩, fun h => ⟨h.1, hroot h.1⟩⟩

/-- Only the empty path lies in no directory, and an absolute one without names. -/
theorem parentOf_eq_none_iff :
    parentOf path = none ↔ names path = [] ∧ (path = [] ∨ isAbsolute path = true) := by
  obtain ⟨first, rest, hpieces⟩ := exists_pieces path
  have hfirst : path = [] ∨ isAbsolute path = true ↔ first = [] := by
    rw [eq_nil_iff hpieces, isAbsolute_iff hpieces, ← and_or_left]
    exact and_iff_left (em _)
  have hnone : parentOf path = none ↔ counted rest = [] ∧ first = [] := by
    rw [← dropIdleEnd_eq_nil_iff]
    simp only [parentOf, hpieces]
    split
    · rename_i hidle
      simp [hidle]
    · rename_i next others hothers
      simp only [hothers]
      split
      · split <;> simp
      · simp
  rw [hnone, hfirst, names, hpieces]
  -- An empty first piece does not count.
  refine and_congr_left fun hempty => ?_
  rw [hempty]
  exact Iff.rfl

/-! ## Names in a file -/

/-- What a name stands for in a file. -/
inductive Beside (file name : String) : String → Prop where
  | absolute : isAbsolute name.toList = true → Beside file name name
  | relative {target : String} : isAbsolute name.toList = false →
      isAbsolute target.toList = isAbsolute file.toList →
      names target.toList = (names file.toList).dropLast ++ names name.toList →
      Beside file name target

theorem exists_parent? {file : String} (h : names file.toList ≠ []) :
    ∃ directory, parent? file = some directory := by
  cases hparent : parentOf file.toList with
  | none => exact absurd (parentOf_eq_none_iff.1 hparent).1 h
  | some directory => exact ⟨_, congrArg (Option.map String.ofList) hparent⟩

theorem beside_join {file directory name : String} (h : parent? file = some directory) :
    Beside file name (join directory name) := by
  obtain ⟨d, hd, rfl⟩ := Option.map_eq_some_iff.1 h
  cases hname : isAbsolute name.toList with
  | true =>
    rw [join_of_isAbsolute _ hname]
    exact .absolute hname
  | false =>
    refine .relative hname ?_ ?_
    · rw [isAbsolute_join _ hname, String.toList_ofList, isAbsolute_of_parentOf hd]
    · rw [names_join _ hname, String.toList_ofList, names_of_parentOf hd]

end Path
end StateSpace
