/-!
# Ends of lines

A line ends with a line feed or a carriage return. What is known of a text that ends where a line
ends holds of all that is left of it while it is read.
-/

namespace SchemaOnRead.Text

/-- A character that ends a line. -/
def isBreak (c : Char) : Bool := c == '\n' || c == '\r'

theorem isBreak_iff {c : Char} : isBreak c = true ↔ c = '\n' ∨ c = '\r' := by
  rw [isBreak, Bool.or_eq_true, beq_iff_eq, beq_iff_eq]

/-- A text that has ends of lines at its end only. -/
def Unbroken (cs : List Char) : Prop :=
  ∃ body ending, cs = body ++ ending ∧ (∀ c ∈ body, isBreak c = false) ∧
    ∀ c ∈ ending, isBreak c = true

/-- A text is empty, or a line ends at its end. -/
def LineEnded (cs : List Char) : Prop := ∀ c, cs.getLast? = some c → isBreak c = true

namespace LineEnded

variable {cs rest : List Char}

theorem nil : LineEnded [] := fun _ last => nomatch last

theorem suffix (ended : LineEnded cs) (later : rest <:+ cs) : LineEnded rest := by
  obtain ⟨before, rfl⟩ := later
  intro c last
  exact ended c (by rw [List.getLast?_append, last, Option.some_or])

theorem tail {c : Char} (ended : LineEnded (c :: rest)) : LineEnded rest :=
  ended.suffix (List.suffix_cons c rest)

/-- After a character that ends no line there is more. -/
theorem tail_ne_nil {c : Char} (ended : LineEnded (c :: rest)) (inside : isBreak c = false) :
    rest ≠ [] := by
  rintro rfl
  exact absurd (ended c rfl) (by simp [inside])

theorem append (first : LineEnded cs) (second : LineEnded rest) : LineEnded (cs ++ rest) := by
  intro c last
  rw [List.getLast?_append] at last
  cases found : rest.getLast? with
  | none =>
    rw [found, Option.none_or] at last
    exact first c last
  | some d =>
    rw [found, Option.some_or] at last
    exact second c (found.trans last)

end LineEnded

end SchemaOnRead.Text
