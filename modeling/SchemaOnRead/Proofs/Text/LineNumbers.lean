import SchemaOnRead.Proofs.Text.LineEnds

/-!
# Counting ends of lines

A line feed ends a line, and so does a carriage return, unless a line feed follows that ends the same
line. Counting line feeds misses just the carriage returns that stand alone (`lineEnds_eq`). The ends of
lines in two texts add up unless the texts meet between a carriage return and a line feed.
-/

namespace SchemaOnRead.Text

/-- How many lines end in a text. -/
def lineEnds : List Char → Nat
  | [] => 0
  | '\r' :: '\n' :: rest => lineEnds rest + 1
  | '\n' :: rest => lineEnds rest + 1
  | '\r' :: rest => lineEnds rest + 1
  | _ :: rest => lineEnds rest

/-- Whether a character is a carriage return that no line feed follows. -/
def isLoneReturn (c : Char) (rest : List Char) : Bool := c == '\r' && rest.head? != some '\n'

/-- How many carriage returns in a text have no line feed after them. -/
def loneReturns : List Char → Nat
  | [] => 0
  | c :: rest => (isLoneReturn c rest).toNat + loneReturns rest

/-- Two texts do not meet between a carriage return and a line feed. -/
def Apart (first second : List Char) : Prop :=
  first.getLast? = some '\r' → second.head? ≠ some '\n'

variable {first second cs : List Char}

theorem isLoneReturn_of_ne {c : Char} (other : c ≠ '\r') (rest : List Char) :
    isLoneReturn c rest = false := by
  rw [isLoneReturn, beq_false_of_ne other, Bool.false_and]

theorem isLoneReturn_return {rest : List Char} (alone : rest.head? ≠ some '\n') :
    isLoneReturn '\r' rest = true := by
  rw [isLoneReturn, beq_self_eq_true, Bool.true_and, bne_iff_ne]
  exact alone

/-- Counting line feeds misses the carriage returns that stand alone. -/
theorem lineEnds_eq (cs : List Char) : lineEnds cs = cs.count '\n' + loneReturns cs := by
  fun_induction lineEnds cs with
  | case1 => rfl
  | case2 rest ih =>
    simp [loneReturns, isLoneReturn, ih]
    omega
  | case3 rest ih =>
    simp [loneReturns, isLoneReturn, ih]
    omega
  | case4 rest noFeed ih =>
    have alone : rest.head? ≠ some '\n' := by
      cases rest with
      | nil => simp
      | cons c later => simpa using fun same : c = '\n' => noFeed later (by rw [same])
    simp [loneReturns, isLoneReturn_return alone, ih]
    omega
  | case5 c rest _ noFeed noReturn ih =>
    have other : c ≠ '\n' := noFeed
    simp [loneReturns, isLoneReturn_of_ne noReturn, ih, other]

theorem Apart.tail {c d : Char} (apart : Apart (c :: d :: first) second) :
    Apart (d :: first) second := by
  simpa [Apart] using apart

theorem loneReturns_append (apart : Apart first second) :
    loneReturns (first ++ second) = loneReturns first + loneReturns second := by
  induction first with
  | nil => simp [loneReturns]
  | cons c rest ih =>
    cases rest with
    | nil =>
      by_cases return' : c = '\r'
      · subst return'
        have alone : second.head? ≠ some '\n' := apart rfl
        have last : isLoneReturn '\r' [] = true := rfl
        simp [loneReturns, isLoneReturn_return alone, last]
      · simp [loneReturns, isLoneReturn_of_ne return']
    | cons d more =>
      have later := ih apart.tail
      have same : isLoneReturn c (d :: more ++ second) = isLoneReturn c (d :: more) := rfl
      rw [List.cons_append, loneReturns, same, later, loneReturns.eq_2 c, Nat.add_assoc]

theorem lineEnds_append (apart : Apart first second) :
    lineEnds (first ++ second) = lineEnds first + lineEnds second := by
  rw [lineEnds_eq, lineEnds_eq, lineEnds_eq, List.count_append, loneReturns_append apart]
  omega

theorem apart_of_head {c : Char} (head : second.head? = some c) (other : c ≠ '\n') :
    Apart first second := by
  intro _ feed
  cases head.symm.trans feed
  exact other rfl

theorem apart_of_last {c : Char} (last : first.getLast? = some c) (other : c ≠ '\r') :
    Apart first second := by
  intro ends
  cases last.symm.trans ends
  exact absurd rfl other

/-! ## Texts without ends of lines -/

theorem count_of_plain (plain : ∀ c ∈ cs, isBreak c = false) : cs.count '\n' = 0 := by
  apply List.count_eq_zero_of_not_mem
  intro feed
  cases plain '\n' feed

theorem lineEnds_of_plain (plain : ∀ c ∈ cs, isBreak c = false) : lineEnds cs = 0 := by
  have none : loneReturns cs = 0 := by
    induction cs with
    | nil => rfl
    | cons c rest ih =>
      obtain ⟨inside, later⟩ := List.forall_mem_cons.mp plain
      have noReturn : c ≠ '\r' := by
        rintro rfl
        cases inside
      rw [loneReturns, isLoneReturn_of_ne noReturn, ih later]
      rfl
  rw [lineEnds_eq, count_of_plain plain, none]

theorem lineEnds_append_plain (plain : ∀ c ∈ second, isBreak c = false) :
    lineEnds (first ++ second) = lineEnds first := by
  have apart : Apart first second := by
    intro _ feed
    cases plain '\n' (List.mem_of_head? feed)
  rw [lineEnds_append apart, lineEnds_of_plain plain, Nat.add_zero]

theorem lineEnds_plain_append (plain : ∀ c ∈ first, isBreak c = false) :
    lineEnds (first ++ second) = lineEnds second := by
  have apart : Apart first second := by
    intro return'
    cases plain '\r' (List.mem_of_getLast? return')
  rw [lineEnds_append apart, lineEnds_of_plain plain, Nat.zero_add]

/-! ## Parts of lines -/

theorem Unbroken.suffix (unbroken : Unbroken (first ++ second)) : Unbroken second := by
  obtain ⟨body, ending, whole, plain, breaks⟩ := unbroken
  rcases List.append_eq_append_iff.mp whole with ⟨more, inside, rfl⟩ | ⟨more, -, same⟩
  · exact ⟨more, ending, rfl, fun c member => plain c (inside ▸ List.mem_append_right _ member), breaks⟩
  · exact ⟨[], second, rfl, by simp, fun c member => breaks c (same ▸ List.mem_append_right _ member)⟩

/-- A part of a line that goes on after it with a character which ends no line has no end of a line. -/
theorem Unbroken.plain (unbroken : Unbroken (first ++ second)) {c : Char}
    (solid : c ∈ second) (inside : isBreak c = false) : ∀ d ∈ first, isBreak d = false := by
  obtain ⟨body, ending, whole, plain, breaks⟩ := unbroken
  rcases List.append_eq_append_iff.mp whole with ⟨more, same, -⟩ | ⟨more, -, same⟩
  · exact fun d member => plain d (same ▸ List.mem_append_left _ member)
  · have ends := breaks c (same ▸ List.mem_append_right _ solid)
    rw [inside] at ends
    cases ends

theorem Unbroken.plain_of_last (unbroken : Unbroken (first ++ second)) {c : Char}
    (last : first.getLast? = some c) (inside : isBreak c = false) : ∀ d ∈ first, isBreak d = false := by
  obtain ⟨before, rfl⟩ := List.getLast?_eq_some_iff.mp last
  rw [List.append_assoc] at unbroken
  intro d member
  rcases List.mem_append.mp member with earlier | here
  · exact unbroken.plain List.mem_cons_self inside d earlier
  · rw [List.mem_singleton.mp here]
    exact inside

/-- The part of a text through the last end of a line in it. -/
def throughBreak (cs : List Char) : List Char := (cs.reverse.dropWhile (!isBreak ·)).reverse

theorem throughBreak_append_plain (plain : ∀ c ∈ second, isBreak c = false) :
    throughBreak (first ++ second) = throughBreak first := by
  have all : ∀ c ∈ second.reverse, (!isBreak c) = true := by
    intro c member
    rw [plain c (List.mem_reverse.mp member)]
    rfl
  rw [throughBreak, throughBreak, List.reverse_append, List.dropWhile_append_of_pos all]

theorem length_throughBreak_le (cs : List Char) : (throughBreak cs).length ≤ cs.length := by
  rw [throughBreak, List.length_reverse]
  exact Nat.le_trans (List.dropWhile_suffix _).length_le (Nat.le_of_eq List.length_reverse)

/-- What a text has through its last end of a line is no less than a part of it that one ends. -/
theorem length_le_throughBreak (some : first ≠ []) (ended : LineEnded first) :
    first.length ≤ (throughBreak (first ++ second)).length := by
  have last := ended _ (List.getLast?_eq_some_getLast some)
  have stays : first.reverse.dropWhile (!isBreak ·) = first.reverse := by
    rw [← List.dropLast_concat_getLast some, List.reverse_append, List.reverse_singleton,
      List.singleton_append, List.dropWhile_cons_of_neg]
    simpa using last
  rw [throughBreak, List.length_reverse, List.reverse_append, List.dropWhile_append, stays]
  split
  · exact Nat.le_of_eq List.length_reverse.symm
  · rw [List.length_append, List.length_reverse]
    omega

end SchemaOnRead.Text
