import StateSpace.Portfolio.Reference
import StateSpace.Proofs.Text

/-!
# StateSpace.Proofs.Portfolio.Reference

Reading a reference back from its text.

* `Reference.WellFormed`: what every reference that was read has to its path
  (`wellFormed_of_read`): a trimmed text that is not empty and holds no separator.
* `Reference.RunsIntoTag`: a path that ends in a colon, with a tag behind it. In the text three
  colons follow each other, and the leftmost two of them count as the separator.
* `read_text_of_read`: the text of a reference that was read stands for that reference, unless the
  path runs into the tag. Then the text is refused, for the tag that it seems to have.
-/

namespace StateSpace
namespace Portfolio

namespace Role

theorem ofTag?_of_tag? {role : Role} {tag : String} (h : role.tag? = some tag) :
    ofTag? tag = some role := by
  cases role with
  | none => cases h
  | reachedSetSupplier => cases h; rfl
  | analysisSupplier => cases h; rfl

theorem tag?_eq_none_iff {role : Role} : role.tag? = Option.none ↔ role = .none := by
  cases role with
  | none => simp [tag?]
  | reachedSetSupplier => simp [tag?]
  | analysisSupplier => simp [tag?]

/-- A tag is written without blanks around it, and stands behind a colon without making a
separator. -/
theorem tag?_written {role : Role} {tag : String} (h : role.tag? = some tag) :
    Text.trim tag.toList = tag.toList ∧ Text.trim (':' :: tag.toList) = ':' :: tag.toList ∧
      Text.Undoubled ':' (':' :: tag.toList) ∧ ofTag? (":" ++ tag) = Option.none := by
  cases role with
  | none => cases h
  | reachedSetSupplier => cases h; decide
  | analysisSupplier => cases h; decide

end Role

namespace Reference

variable {r : Reference} {s : String}

structure WellFormed (r : Reference) : Prop where
  nonempty : r.path.isEmpty = false
  trimmed : Text.trim r.path.toList = r.path.toList
  undoubled : Text.Undoubled ':' r.path.toList

/-- The path ends in a colon, and the separator of a tag follows it. -/
def RunsIntoTag (r : Reference) : Prop :=
  r.role ≠ .none ∧ r.path.toList.getLast? = some ':'

instance (r : Reference) : Decidable r.RunsIntoTag :=
  inferInstanceAs (Decidable (r.role ≠ .none ∧ r.path.toList.getLast? = some ':'))

/-! ## What was read -/

theorem checked_eq_ok_iff {path : String} {role : Role} :
    checked path role = .ok r ↔ path.isEmpty = false ∧ ⟨path, role⟩ = r := by
  cases h : path.isEmpty <;> simp [checked, h]

theorem path_of_ofParts {ps : List String} (h : ofParts ps = .ok r) :
    r.path ∈ ps ∧ r.path.isEmpty = false := by
  unfold ofParts at h
  split at h
  next path =>
    obtain ⟨hpath, rfl⟩ := checked_eq_ok_iff.1 h
    exact ⟨List.mem_cons_self, hpath⟩
  next path tag =>
    split at h
    · obtain ⟨hpath, rfl⟩ := checked_eq_ok_iff.1 h
      exact ⟨List.mem_cons_self, hpath⟩
    · cases h
  next => cases h

theorem part_of_mem_parts {part : String} {l : List Char} (h : part ∈ parts l) :
    Text.trim part.toList = part.toList ∧ Text.Undoubled ':' part.toList := by
  obtain ⟨piece, hpiece, rfl⟩ := List.mem_map.1 h
  rw [String.toList_ofList]
  exact ⟨Text.trim_trim piece,
    (Text.undoubled_of_mem_splitDouble hpiece).mono (Text.trim_infix piece)⟩

theorem read_eq_ok_iff : read s = .ok r ↔ ofParts (parts s.toList) = .ok r := by
  cases h : ofParts (parts s.toList) <;> simp [read, h]

theorem wellFormed_of_read (h : read s = .ok r) : r.WellFormed := by
  obtain ⟨hmem, hnonempty⟩ := path_of_ofParts (read_eq_ok_iff.1 h)
  obtain ⟨htrimmed, hundoubled⟩ := part_of_mem_parts hmem
  exact ⟨hnonempty, htrimmed, hundoubled⟩

/-! ## Reading the text again -/

theorem text_of_untagged (h : r.role.tag? = none) : r.text = r.path := by
  simp [text, h]

theorem toList_text_of_tagged {tag : String} (h : r.role.tag? = some tag) :
    r.text.toList = r.path.toList ++ ':' :: ':' :: tag.toList := by
  have htext : r.text = r.path ++ "::" ++ tag := by rw [text, h]; rfl
  simp [htext]

theorem read_text_of_untagged (hr : r.WellFormed) (h : r.role.tag? = none) :
    read r.text = .ok r := by
  have hrole : ⟨r.path, .none⟩ = r := by rw [← Role.tag?_eq_none_iff.1 h]
  have hparts : parts r.text.toList = [r.path] := by
    simp [parts, text_of_untagged h, Text.splitDouble_of_undoubled hr.undoubled, hr.trimmed]
  rw [read_eq_ok_iff, hparts]
  exact checked_eq_ok_iff.2 ⟨hr.nonempty, hrole⟩

theorem read_text_of_tagged {tag : String} (hr : r.WellFormed) (h : r.role.tag? = some tag)
    (hlast : r.path.toList.getLast? ≠ some ':') : read r.text = .ok r := by
  obtain ⟨htrimmed, _, hundoubled, _⟩ := Role.tag?_written h
  have hsplit : Text.splitDouble ':' r.text.toList = [r.path.toList, tag.toList] := by
    rw [toList_text_of_tagged h,
      Text.splitDouble_append (Text.undoubled_concat_iff.2 ⟨hr.undoubled, hlast⟩),
      Text.splitDouble_of_undoubled (Text.undoubled_cons_iff.1 hundoubled).2]
  have hparts : parts r.text.toList = [r.path, tag] := by
    simp [parts, hsplit, hr.trimmed, htrimmed]
  rw [read_eq_ok_iff, hparts, ofParts, Role.ofTag?_of_tag? h]
  exact checked_eq_ok_iff.2 ⟨hr.nonempty, rfl⟩

/-- The colon that ends the path and the first one of the separator count as the separator, and
the other colon counts as the beginning of the tag. -/
theorem read_text_of_getLast?_eq {tag : String} (hr : r.WellFormed) (h : r.role.tag? = some tag)
    (hlast : r.path.toList.getLast? = some ':') :
    read r.text = .error (.invalidReference r.text (Defect.unknownTag (":" ++ tag)).message) := by
  obtain ⟨_, htrimmed, hundoubled, hunknown⟩ := Role.tag?_written h
  obtain ⟨front, hfront⟩ := List.getLast?_eq_some_iff.1 hlast
  have hsplit : Text.splitDouble ':' r.text.toList = [front, ':' :: tag.toList] := by
    have hopen : Text.Undoubled ':' (front ++ [':']) := hfront ▸ hr.undoubled
    rw [toList_text_of_tagged h, hfront, List.append_assoc, List.singleton_append,
      Text.splitDouble_append hopen, Text.splitDouble_of_undoubled hundoubled]
  have hparts : parts r.text.toList = [String.ofList (Text.trim front), ":" ++ tag] := by
    simp [parts, hsplit, htrimmed, String.ofList_cons]
  simp only [read, hparts, ofParts, hunknown]

/-- A reference that was read is read back from its text, exactly if its path does not run into
its tag. -/
theorem read_text_of_read (h : read s = .ok r) :
    (¬ r.RunsIntoTag → read r.text = .ok r) ∧
      (r.RunsIntoTag → ∃ tag, r.role.tag? = some tag ∧
        read r.text =
          .error (.invalidReference r.text (Defect.unknownTag (":" ++ tag)).message)) := by
  have hr := wellFormed_of_read h
  cases htag : r.role.tag? with
  | none =>
    have hrole : r.role = .none := Role.tag?_eq_none_iff.1 htag
    exact ⟨fun _ => read_text_of_untagged hr htag, fun hon => absurd hrole hon.1⟩
  | some tag =>
    have hrole : r.role ≠ .none := fun hnone => by
      simp [Role.tag?_eq_none_iff.2 hnone] at htag
    exact ⟨fun hclear => read_text_of_tagged hr htag fun hlast => hclear ⟨hrole, hlast⟩,
      fun hon => ⟨tag, rfl, read_text_of_getLast?_eq hr htag hon.2⟩⟩

theorem read_text_of_read_colons :
    read "\tC: :x.properties :: cpa-inv-sup" = .ok ⟨"C: :x.properties", .analysisSupplier⟩ ∧
      ¬ RunsIntoTag ⟨"C: :x.properties", .analysisSupplier⟩ ∧
      read "C: :x.properties::cpa-inv-sup" = .ok ⟨"C: :x.properties", .analysisSupplier⟩ := by
  have hread : read "\tC: :x.properties :: cpa-inv-sup" =
      .ok ⟨"C: :x.properties", .analysisSupplier⟩ := by decide
  have hclear : ¬ RunsIntoTag ⟨"C: :x.properties", .analysisSupplier⟩ := by decide
  exact ⟨hread, hclear, (read_text_of_read hread).1 hclear⟩

/-- A blank may part a colon at the end of the path from the separator. Nothing does so in the
text of the reference. -/
theorem read_text_after_blank :
    read "a: ::reached-inv-sup" = .ok ⟨"a:", .reachedSetSupplier⟩ ∧
      text ⟨"a:", .reachedSetSupplier⟩ = "a:::reached-inv-sup" ∧
      read "a:::reached-inv-sup" = .error (.invalidReference "a:::reached-inv-sup"
        "unknown tag `:reached-inv-sup`") := by
  decide

end Reference
end Portfolio
end StateSpace
