import SchemaOnRead.Proofs.Storage.Objects

/-!
# Names of paths

The name of a path is its last segment. A child of a directory has the name under which it is joined to the
directory (`name_join`).
-/

namespace SchemaOnRead.Path

theorem ofSegments_concat (ss : List (List Char)) (s : List Char) :
    ∃ before, ofSegments (ss ++ [s]) = before ++ '/' :: s := by
  induction ss with
  | nil => exact ⟨[], rfl⟩
  | cons first rest ih =>
    obtain ⟨before, parted⟩ := ih
    refine ⟨'/' :: first ++ before, ?_⟩
    rw [List.cons_append, ofSegments, parted, List.append_assoc]
    simp

theorem lastPart_append_slash (before : List Char) {s : List Char} (plain : '/' ∉ s) :
    lastPart (before ++ '/' :: s) = s := by
  rw [lastPart, split_append_slash, split_of_no_slash plain]
  simp

/-- What is added without a slash goes to the last part. -/
theorem lastPart_append (cs : List Char) {ds : List Char} (plain : '/' ∉ ds) :
    lastPart (cs ++ ds) = lastPart cs ++ ds := by
  suffices ∃ before last, split cs = before ++ [last] ∧ split (cs ++ ds) = before ++ [last ++ ds] by
    obtain ⟨before, last, own, added⟩ := this
    simp [lastPart, own, added]
  induction cs with
  | nil => exact ⟨[], [], rfl, split_of_no_slash plain⟩
  | cons c rest ih =>
    obtain ⟨before, last, own, added⟩ := ih
    rw [List.cons_append, split, split, own, added]
    by_cases slash : c = '/'
    · exact ⟨[] :: before, last, by cases before <;> simp [slash], by cases before <;> simp [slash]⟩
    · cases before with
      | nil => exact ⟨[], c :: last, by simp [slash], by simp [slash]⟩
      | cons part parts => exact ⟨(c :: part) :: parts, last, by simp [slash], by simp [slash]⟩

theorem dropEndSlashes_append (before : List Char) {s : List Char} (one : IsSegment s) :
    dropEndSlashes (before ++ s) = before ++ s := by
  obtain ⟨some, plain⟩ := one
  obtain ⟨front, c, rfl⟩ : ∃ front c, s = front ++ [c] :=
    ⟨s.dropLast, s.getLast some, (List.dropLast_concat_getLast some).symm⟩
  have last : (c == '/') = false := by
    rw [beq_eq_false_iff_ne]
    rintro rfl
    exact plain (by simp)
  rw [dropEndSlashes, ← List.append_assoc, List.reverse_append]
  simp [last]

/-- The name of a path is its last segment. -/
theorem name_ofNames (ss : List (List Char)) {s : List Char} (one : IsSegment s) :
    name (ofNames (ss ++ [s])) = String.ofList s := by
  obtain ⟨before, parted⟩ := ofSegments_concat ss s
  have apart : before ++ '/' :: s = (before ++ ['/']) ++ s := by simp
  rw [name, ofNames, String.toList_ofList, parted, apart, dropEndSlashes_append _ one, ← apart,
    lastPart_append_slash _ one.2]

/-- The child of a directory has the name by which it is joined if that is one segment. -/
theorem name_join {child : String} (one : IsSegment child.toList) (directory : String) :
    name (join directory child) = child := by
  rw [← format_join, format_eq_ofNames, segments_join, segments_of_isSegment one, name_ofNames _ one,
    String.ofList_toList]

/-- The name of a path that has segments is one segment. -/
theorem isSegment_name {path : String} (standard : format path = path) (some : segments path.toList ≠ []) :
    IsSegment (name path).toList := by
  have last := isSegment_of_mem_segments (List.getLast_mem some)
  have named : name path = String.ofList ((segments path.toList).getLast some) := by
    rw [← name_ofNames (segments path.toList).dropLast last, List.dropLast_concat_getLast some,
      ← format_eq_ofNames, standard]
  rw [named, String.toList_ofList]
  exact last

end SchemaOnRead.Path
