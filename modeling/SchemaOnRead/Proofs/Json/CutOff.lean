import Mathlib.Data.List.TakeWhile
import SchemaOnRead.Proofs.Json.Progress
import SchemaOnRead.Proofs.Text.LineEnds

/-!
# Text that is cut off at the end of a line

A text that is cut off where a line ends is read as the whole text is, unless the reader comes to the
cut: then it is malformed at its end, and what follows decides (`extends_value`). No token goes on
beyond the end of a line, so the reader never stops early in a token.
-/

namespace SchemaOnRead.Json

open Text

/-! ## Outcomes of a text and of one that goes on -/

/-- What becomes of an outcome when the text goes on: a value stays with more text after it, and so
does a fault, unless nothing was left of the text where it was found. A value that is found then goes on
into what follows. -/
def Extends {α : Type} (more : List Char) (part whole : Except Fault (α × List Char)) : Prop :=
  match part with
  | .ok (a, rest) => whole = .ok (a, rest ++ more)
  | .error (.malformed problem remaining) =>
    remaining = 0 ∧ (∀ a rest, whole = .ok (a, rest) → rest <:+ more) ∨
      whole = .error (.malformed problem (remaining + more.length))
  | .error fault => whole = .error fault

namespace Extends

variable {α β : Type} {more : List Char} {part whole : Except Fault (α × List Char)}

theorem malformed {problem : Problem} {cs : List Char} :
    Extends (α := α) more (.error (.malformed problem cs.length))
      (.error (.malformed problem (cs ++ more).length)) :=
  .inr (by rw [List.length_append])

/-- Nothing becomes of an outcome when no text follows. -/
theorem nil : Extends [] part part := by
  match part with
  | .ok (a, rest) => exact congrArg (fun rest => Except.ok (a, rest)) (List.append_nil rest).symm
  | .error (.malformed _ _) => exact .inr rfl
  | .error .exponentOutOfRange => exact rfl
  | .error .tooManyDigits => exact rfl

/-- A text that is malformed at its end says nothing of what follows. -/
theorem atEnd {problem : Problem} (later : ∀ a rest, whole = .ok (a, rest) → rest <:+ more) :
    Extends more (.error (.malformed problem 0)) whole := .inl ⟨rfl, later⟩

theorem bind (extended : Extends more part whole)
    {f g : α × List Char → Except Fault (β × List Char)}
    (leaves : ∀ a rest b after, g (a, rest) = .ok (b, after) → after <:+ rest)
    (next : ∀ a rest, part = .ok (a, rest) → Extends more (f (a, rest)) (g (a, rest ++ more))) :
    Extends more (part.bind f) (whole.bind g) := by
  match part with
  | .ok (a, rest) =>
    cases extended
    exact next a rest rfl
  | .error (.malformed problem remaining) =>
    rcases extended with ⟨atEnd, later⟩ | rfl
    · refine .inl ⟨atEnd, fun b after read => ?_⟩
      obtain ⟨⟨a, rest⟩, first, second⟩ := ok_of_bind read
      exact (leaves a rest b after second).trans (later a rest first)
    · exact .inr rfl
  | .error .exponentOutOfRange =>
    cases extended
    rfl
  | .error .tooManyDigits =>
    cases extended
    rfl

theorem map (extended : Extends more part whole) (f : α → β) :
    Extends more (part.map fun p => (f p.1, p.2)) (whole.map fun p => (f p.1, p.2)) := by
  have step : ∀ x : Except Fault (α × List Char),
      (x.map fun p => (f p.1, p.2)) = x.bind fun p => .ok (f p.1, p.2) := fun x => by
    cases x <;> rfl
  rw [step, step]
  refine extended.bind (fun a rest b after same => ?_) fun a rest _ => rfl
  cases same
  exact List.suffix_rfl

end Extends

/-! ## Strings -/

theorem hexDigit?_of_isBreak {c : Char} (ends : isBreak c = true) : hexDigit? c = none := by
  rcases isBreak_iff.mp ends with rfl | rfl <;> decide

theorem hex4?_of_isBreak {cs : List Char} {c : Char} (ends : isBreak c = true)
    (member : c ∈ cs.take 4) : hex4? cs = none := by
  have noDigit := hexDigit?_of_isBreak ends
  match cs with
  | [] | [_] | [_, _] | [_, _, _] => rfl
  | w :: x :: y :: z :: rest =>
    unfold hex4?
    simp only [List.take_succ_cons, List.take_zero, List.mem_cons, List.not_mem_nil, or_false] at member
    rcases member with rfl | rfl | rfl | rfl
    · simp [noDigit]
    · simp [noDigit]
    · simp [noDigit]
    · simp [noDigit]

/-- Four hexadecimal digits are not cut off. -/
theorem hex4?_append {cs : List Char} (ended : LineEnded cs) (some : cs ≠ []) (more : List Char) :
    hex4? (cs ++ more) = (hex4? cs).map fun p => (p.1, p.2 ++ more) := by
  by_cases short : cs.length < 4
  · have last := List.getLast?_eq_some_getLast some
    have ends := ended _ last
    have allTaken : cs.take 4 = cs := List.take_of_length_le (by omega)
    have inside : cs.getLast some ∈ cs.take 4 := allTaken.symm ▸ List.mem_of_getLast? last
    have whole : cs.getLast some ∈ (cs ++ more).take 4 := by
      rw [List.take_append]
      exact List.mem_append_left _ inside
    rw [hex4?_of_isBreak ends whole, hex4?_of_isBreak ends inside]
    rfl
  · match cs with
    | [] | [_] | [_, _] | [_, _, _] => exact absurd (by simp) short
    | a :: b :: c :: d :: rest =>
      unfold hex4?
      simp only [List.cons_append]
      cases hexDigit? a <;> cases hexDigit? b <;> cases hexDigit? c <;> cases hexDigit? d <;> rfl

/-- The rest after four hexadecimal digits is not empty. -/
theorem rest_of_hex4 {cs rest : List Char} (ended : LineEnded cs) {n : Nat}
    (read : hex4? cs = some (n, rest)) : rest ≠ [] := by
  rintro rfl
  obtain ⟨a, b, c, d, rfl⟩ := hex4?_eq_some read
  have ends : isBreak d = true := ended d rfl
  rw [hex4?_of_isBreak ends (by simp)] at read
  cases read

/-- What becomes of an escape when the text goes on: it stays as it is, unless the second half of a
surrogate pair is cut off, which is no escape in either case. -/
def EscapeExtends (cs more : List Char) : Prop :=
  Extends more (unicodeEscape cs) (unicodeEscape (cs ++ more)) ∨
    ∃ c second, unicodeEscape cs = .ok (c, '\\' :: 'u' :: second) ∧ hex4? second = none ∧
      unicodeEscape (cs ++ more) = .error (.malformed .badUnicodeEscape ((second ++ more).length + 1))

theorem escapeExtends_of_single {cs rest more : List Char} {n : Nat} (nonempty : rest ≠ [])
    (ended : LineEnded rest) (read : hex4? cs = some (n, rest))
    (append : hex4? (cs ++ more) = some (n, rest ++ more))
    (single : isHighSurrogate n = false ∨ ∀ second, rest ≠ '\\' :: 'u' :: second) :
    EscapeExtends cs more := by
  have single' : isHighSurrogate n = false ∨ ∀ second, rest ++ more ≠ '\\' :: 'u' :: second := by
    refine single.imp_right fun noEscape second same => ?_
    match rest with
    | [] => exact nonempty rfl
    | [c] =>
      cases same
      exact absurd (ended '\\' rfl) (by decide)
    | c :: d :: later =>
      cases same
      exact noEscape later rfl
  rw [EscapeExtends, unicodeEscape_of_single read nonempty single,
    unicodeEscape_of_single append (by simp [nonempty]) single']
  exact .inl rfl

theorem escapeExtends_of_pair {cs second more : List Char} {n : Nat} (nonempty : second ≠ [])
    (ended : LineEnded second) (high : isHighSurrogate n = true)
    (read : hex4? cs = some (n, '\\' :: 'u' :: second))
    (append : hex4? (cs ++ more) = some (n, '\\' :: 'u' :: (second ++ more))) :
    EscapeExtends cs more := by
  have appendSecond := hex4?_append ended nonempty more
  rw [EscapeExtends, unicodeEscape_of_pair read high, unicodeEscape_of_pair append high]
  cases readSecond : hex4? second with
  | none =>
    rw [readSecond] at appendSecond
    replace appendSecond : hex4? (second ++ more) = none := appendSecond
    rw [appendSecond]
    by_cases short : second.length < 5
    · by_cases short' : (second ++ more).length < 5
      · exact .inl (by simp only [short, short', if_true]; exact rfl)
      · exact .inr ⟨_, second, by rw [if_pos short], readSecond, by rw [if_neg short']⟩
    · have long : ¬ (second ++ more).length < 5 := by rw [List.length_append]; omega
      rw [if_neg short, if_neg long]
      exact .inl (.inr (by rw [List.length_append, Nat.add_right_comm]))
  | some found =>
    obtain ⟨m, after⟩ := found
    rw [readSecond] at appendSecond
    have long : ¬ second.length < 5 := by
      obtain ⟨a, b, c, d, rfl⟩ := hex4?_eq_some readSecond
      have := List.length_pos_iff.mpr (rest_of_hex4 ended readSecond)
      simp only [List.length_cons]
      omega
    have long' : ¬ (second ++ more).length < 5 := by rw [List.length_append]; omega
    rw [if_neg long, if_neg long', appendSecond]
    simp only [Option.map_some]
    refine .inl ?_
    split
    · exact rfl
    · exact rfl

theorem escapeExtends {cs : List Char} (ended : LineEnded cs) (nonempty : cs ≠ [])
    (more : List Char) : EscapeExtends cs more := by
  have append := hex4?_append ended nonempty more
  cases read : hex4? cs with
  | none =>
    rw [read] at append
    rw [EscapeExtends, unicodeEscape_of_none read, unicodeEscape_of_none append]
    exact .inl (.inr (by rw [List.length_append, Nat.add_right_comm]))
  | some found =>
    obtain ⟨n, rest⟩ := found
    rw [read] at append
    have restEnded := ended.suffix (leaves_hex4 read).suffix
    rcases pair_or_single n rest with ⟨high, second, rfl⟩ | single
    · exact escapeExtends_of_pair (restEnded.tail.tail_ne_nil (by decide)) restEnded.tail.tail high
        read append
    · exact escapeExtends_of_single (rest_of_hex4 ended read) restEnded read append single

/-- The rest after an escape is not empty. -/
theorem rest_of_unicodeEscape {cs rest : List Char} (ended : LineEnded cs) {c : Char}
    (read : unicodeEscape cs = .ok (c, rest)) : rest ≠ [] := by
  cases first : hex4? cs with
  | none =>
    rw [unicodeEscape_of_none first] at read
    cases read
  | some found =>
    obtain ⟨n, after⟩ := found
    have nonempty := rest_of_hex4 ended first
    rcases pair_or_single n after with ⟨high, second, rfl⟩ | single
    · have secondEnded : LineEnded second := (ended.suffix (leaves_hex4 first).suffix).tail.tail
      rw [unicodeEscape_of_pair first high] at read
      split at read
      · cases read
        exact nonempty
      · split at read
        · cases read
        · rename_i m later found
          split at read
          · generalize Char.ofNat (0x10000 + (n - 0xD800) * 0x400 + (m - 0xDC00)) = d at read
            cases read
            exact rest_of_hex4 secondEnded found
          · cases read
            exact nonempty
    · rw [unicodeEscape_of_single first nonempty single] at read
      cases read
      exact nonempty

theorem simpleEscape?_of_isBreak {c : Char} (ends : isBreak c = true) : simpleEscape? c = none := by
  rcases isBreak_iff.mp ends with rfl | rfl <;> rfl

theorem toNat_lt_of_isBreak {c : Char} (ends : isBreak c = true) : c.toNat < 32 := by
  rcases isBreak_iff.mp ends with rfl | rfl <;> decide

/-- What becomes of a string in `n` steps when the text goes on and there are `m` steps. -/
def StringExtends (more : List Char) (start n m : Nat) : Prop :=
  ∀ acc cs, LineEnded cs → cs ≠ [] → cs.length < n → (cs ++ more).length < m →
    Extends more (stringRest start n acc cs) (stringRest (start + more.length) m acc (cs ++ more))

namespace StringExtends

variable {more later : List Char} {start n m : Nat}

theorem unicode (inner : StringExtends more start n m) (acc : List Char) (ended : LineEnded later)
    (nonempty : later ≠ []) (few : later.length < n) (many : (later ++ more).length < m) :
    Extends more (stringRest start (n + 1) acc ('\\' :: 'u' :: later))
      (stringRest (start + more.length) (m + 1) acc ('\\' :: 'u' :: (later ++ more))) := by
  rw [stringRest_unicode, stringRest_unicode]
  rcases escapeExtends ended nonempty more with extended | ⟨e, second, part, noDigits, whole⟩
  · refine extended.bind (fun _ _ _ _ read => (leaves_stringRest read).suffix) fun e rest read => ?_
    have used := (leaves_unicodeEscape read).length_lt
    have restEnded := ended.suffix (leaves_unicodeEscape read).suffix
    have short : (rest ++ more).length < m := by
      rw [List.length_append] at many ⊢
      omega
    exact inner _ rest restEnded (rest_of_unicodeEscape ended read) (by omega) short
  · -- The second half of the pair is cut off: the part fails at it in its next step.
    have used := (leaves_unicodeEscape part).length_lt
    obtain ⟨k, rfl⟩ : ∃ k, n = k + 1 := ⟨n - 1, by omega⟩
    rw [part, whole]
    change Extends more (stringRest start (k + 1) (e :: acc) ('\\' :: 'u' :: second)) _
    rw [stringRest_unicode, unicodeEscape_of_none noDigits]
    exact .inr (by rw [List.length_append, Nat.add_right_comm]; rfl)

theorem escape (inner : StringExtends more start n m) (acc : List Char) {c : Char}
    (ended : LineEnded (c :: later)) (simple : c ≠ 'u') (few : later.length < n)
    (many : (later ++ more).length < m) :
    Extends more (stringRest start (n + 1) acc ('\\' :: c :: later))
      (stringRest (start + more.length) (m + 1) acc ('\\' :: c :: (later ++ more))) := by
  cases found : simpleEscape? c with
  | none =>
    rw [stringRest_badEscape _ _ _ _ simple found, stringRest_badEscape _ _ _ _ simple found]
    exact .inr (by rw [List.length_append, Nat.add_right_comm])
  | some e =>
    have inside : isBreak c = false := by
      by_contra ends
      rw [simpleEscape?_of_isBreak (eq_true_of_ne_false ends)] at found
      cases found
    rw [stringRest_escape _ _ _ _ simple found, stringRest_escape _ _ _ _ simple found]
    exact inner _ later ended.tail (ended.tail_ne_nil inside) few many

theorem plain (inner : StringExtends more start n m) (acc : List Char) {c : Char}
    (ended : LineEnded (c :: later)) (noQuote : c ≠ '"') (noEscape : c ≠ '\\')
    (few : later.length < n) (many : (later ++ more).length < m) :
    Extends more (stringRest start (n + 1) acc (c :: later))
      (stringRest (start + more.length) (m + 1) acc (c :: (later ++ more))) := by
  rw [stringRest_plain _ _ _ _ noQuote noEscape, stringRest_plain _ _ _ _ noQuote noEscape]
  by_cases control : c.toNat < 32
  · rw [if_pos control, if_pos control]
    exact .malformed
  · have inside : isBreak c = false := by
      by_contra ends
      exact control (toNat_lt_of_isBreak (eq_true_of_ne_false ends))
    rw [if_neg control, if_neg control]
    exact inner _ later ended.tail (ended.tail_ne_nil inside) few many

end StringExtends

theorem stringExtends (more : List Char) (start n m : Nat) : StringExtends more start n m := by
  induction n generalizing m with
  | zero => exact fun _ _ _ _ few _ => absurd few (by omega)
  | succ n ih =>
    intro acc cs ended nonempty few many
    obtain ⟨m, rfl⟩ : ∃ k, m = k + 1 := ⟨m - 1, by omega⟩
    obtain ⟨c, rest, rfl⟩ := List.exists_cons_of_ne_nil nonempty
    simp only [List.cons_append, List.length_cons] at few many ⊢
    by_cases isQuote : c = '"'
    · subst isQuote
      rw [stringRest_quote, stringRest_quote]
      exact rfl
    · by_cases isEscape : c = '\\'
      · subst isEscape
        obtain ⟨d, later, rfl⟩ := List.exists_cons_of_ne_nil (ended.tail_ne_nil (by decide))
        simp only [List.cons_append, List.length_cons] at few many ⊢
        by_cases isUnicode : d = 'u'
        · subst isUnicode
          have laterNonempty : later ≠ [] := ended.tail.tail_ne_nil (by decide)
          exact (ih m).unicode acc ended.tail.tail laterNonempty (by omega) (by omega)
        · exact (ih m).escape acc ended.tail isUnicode (by omega) (by omega)
      · exact (ih m).plain acc ended isQuote isEscape (by omega) (by omega)

/-- A string is not cut off where a line ends. -/
theorem extends_string {cs : List Char} (ended : LineEnded cs) (nonempty : cs ≠ [])
    (more : List Char) : Extends more (string cs) (string (cs ++ more)) := by
  rw [string, string]
  have start : (cs ++ more).length + 1 = cs.length + 1 + more.length := by
    rw [List.length_append, Nat.add_right_comm]
  rw [start]
  exact stringExtends more _ _ _ _ cs ended nonempty (by omega) (by rw [List.length_append]; omega)

/-! ## Numbers and words -/

theorem isAsciiDigit_of_isBreak {c : Char} (ends : isBreak c = true) : isAsciiDigit c = false := by
  rcases isBreak_iff.mp ends with rfl | rfl <;> decide

/-- A part of a token goes on with more text as it is, and text is left after it. -/
def Kept (more : List Char) (part whole : List Char × List Char) : Prop :=
  part.2 ≠ [] ∧ whole = (part.1, part.2 ++ more)

theorem kept_spanDigits {cs : List Char} (ended : LineEnded cs) (nonempty : cs ≠ [])
    (more : List Char) : Kept more (Decimal.spanDigits cs) (Decimal.spanDigits (cs ++ more)) := by
  have last := List.getLast?_eq_some_getLast nonempty
  have noDigit := isAsciiDigit_of_isBreak (ended _ last)
  have left : (Decimal.spanDigits cs).2 ≠ [] := by
    intro all
    rw [spanDigits_eq] at all
    have digit := List.dropWhile_eq_nil_iff.mp all _ (List.mem_of_getLast? last)
    rw [noDigit] at digit
    cases digit
  exact ⟨left, spanDigits_more left more⟩

theorem kept_fractionPart {cs : List Char} (ended : LineEnded cs) (nonempty : cs ≠ [])
    (more : List Char) : Kept more (fractionPart cs) (fractionPart (cs ++ more)) := by
  obtain ⟨c, rest, rfl⟩ := List.exists_cons_of_ne_nil nonempty
  by_cases point : c = '.'
  · subst point
    have restNonempty : rest ≠ [] := ended.tail_ne_nil (by decide)
    obtain ⟨left, whole⟩ := kept_spanDigits ended.tail restNonempty more
    rw [List.cons_append, fractionPart, fractionPart, whole]
    match Decimal.spanDigits rest, left with
    | ([], after), _ => exact ⟨by simp, rfl⟩
    | (d :: ds, after), left => exact ⟨left, rfl⟩
  · have none : ∀ {cs : List Char}, fractionPart (c :: cs) = ([], c :: cs) := by
      intro cs
      rw [fractionPart]
      exact fun _ same => point (List.cons.inj same).1
    rw [List.cons_append, none, none]
    exact ⟨by simp, rfl⟩

theorem kept_exponentSign {cs : List Char} (ended : LineEnded cs) (nonempty : cs ≠ [])
    (more : List Char) : Kept more (exponentSign cs) (exponentSign (cs ++ more)) := by
  refine ⟨?_, exponentSign_more nonempty more⟩
  unfold exponentSign
  split
  · exact ended.tail_ne_nil (by decide)
  · exact ended.tail_ne_nil (by decide)
  · exact nonempty

theorem kept_exponentPart {cs : List Char} (ended : LineEnded cs) (nonempty : cs ≠ [])
    (more : List Char) : Kept more (exponentPart cs) (exponentPart (cs ++ more)) := by
  obtain ⟨c, rest, rfl⟩ := List.exists_cons_of_ne_nil nonempty
  rw [List.cons_append, exponentPart, exponentPart]
  by_cases letter : c = 'e' ∨ c = 'E'
  · have restNonempty : rest ≠ [] := by
      refine ended.tail_ne_nil ?_
      rcases letter with rfl | rfl <;> decide
    rw [if_pos letter, if_pos letter]
    obtain ⟨signLeft, sign⟩ := kept_exponentSign ended.tail restNonempty more
    have bodyEnded := ended.tail.suffix (exponentSign_suffix rest)
    obtain ⟨left, digits⟩ := kept_spanDigits bodyEnded signLeft more
    simp only [sign, digits]
    match Decimal.spanDigits (exponentSign rest).2, left with
    | ([], after), _ => exact ⟨by simp, rfl⟩
    | (d :: ds, after), left => exact ⟨left, rfl⟩
  · rw [if_neg letter, if_neg letter]
    exact ⟨by simp, rfl⟩

/-- A number with a sign is what the digits after the sign say. -/
theorem numberSign_append {cs : List Char} (ended : LineEnded cs) (nonempty : cs ≠ [])
    (more : List Char) :
    (numberSign cs).2 ≠ [] ∧ LineEnded (numberSign cs).2 ∧
      numberSign (cs ++ more) = ((numberSign cs).1, (numberSign cs).2 ++ more) := by
  refine ⟨?_, ?_, numberSign_more nonempty more⟩
  · unfold numberSign
    split
    · exact ended.tail_ne_nil (by decide)
    · exact nonempty
  · unfold numberSign
    split
    · exact ended.tail
    · exact ended

theorem wholeDigits?_append {cs : List Char} (ended : LineEnded cs) (nonempty : cs ≠ [])
    (more : List Char) :
    wholeDigits? (cs ++ more) = (wholeDigits? cs).map (fun p => (p.1, p.2 ++ more)) ∧
      ∀ ds rest, wholeDigits? cs = some (ds, rest) → rest ≠ [] := by
  obtain ⟨c, rest, rfl⟩ := List.exists_cons_of_ne_nil nonempty
  by_cases zero : c = '0'
  · subst zero
    refine ⟨rfl, fun ds after read => ?_⟩
    cases read
    exact ended.tail_ne_nil (by decide)
  · obtain ⟨left, whole⟩ := kept_spanDigits ended nonempty more
    rw [List.cons_append] at whole ⊢
    rw [wholeDigits?_of_ne zero, wholeDigits?_of_ne zero, whole]
    split
    · exact ⟨rfl, fun _ _ read => nomatch read⟩
    · refine ⟨rfl, fun ds after read => ?_⟩
      rw [Option.some.inj read] at left
      exact left

/-- The parts of a number only fail in ways that do not depend on what follows. -/
theorem extends_numeral (negative : Bool) (whole fraction exponent rest more : List Char) :
    Extends more ((numeral negative whole fraction exponent).map fun v => (v, rest))
      ((numeral negative whole fraction exponent).map fun v => (v, rest ++ more)) := by
  rw [numeral]
  split
  · split <;> exact rfl
  · split <;> exact rfl

/-- A number is not cut off where a line ends. -/
theorem extends_number {cs : List Char} (ended : LineEnded cs) (nonempty : cs ≠ [])
    (more : List Char) : Extends more (number cs) (number (cs ++ more)) := by
  obtain ⟨bodyNonempty, bodyEnded, sign⟩ := numberSign_append ended nonempty more
  obtain ⟨digits, left⟩ := wholeDigits?_append bodyEnded bodyNonempty more
  rw [number, number, sign, digits]
  cases read : wholeDigits? (numberSign cs).2 with
  | none => exact .malformed
  | some found =>
    obtain ⟨whole, rest⟩ := found
    have restEnded := bodyEnded.suffix (leaves_wholeDigits read).suffix
    obtain ⟨fractionLeft, fraction⟩ := kept_fractionPart restEnded (left whole rest read) more
    have fractionEnded := restEnded.suffix (fractionPart_suffix rest)
    obtain ⟨-, exponent⟩ := kept_exponentPart fractionEnded fractionLeft more
    simp only [Option.map_some, fraction, exponent]
    exact extends_numeral ..

theorem dropWord?_append {word cs : List Char} (inside : ∀ c ∈ word, isBreak c = false)
    (ended : LineEnded cs) (nonempty : cs ≠ []) (more : List Char) :
    dropWord? word (cs ++ more) = (dropWord? word cs).map (· ++ more) := by
  induction word generalizing cs with
  | nil => rfl
  | cons w ws ih =>
    obtain ⟨c, rest, rfl⟩ := List.exists_cons_of_ne_nil nonempty
    obtain ⟨first, others⟩ := List.forall_mem_cons.mp inside
    rw [List.cons_append, dropWord?, dropWord?]
    by_cases same : w = c
    · subst same
      rw [if_pos rfl, if_pos rfl]
      exact ih others ended.tail (ended.tail_ne_nil first)
    · rw [if_neg same, if_neg same]
      rfl

/-- A word is not cut off where a line ends. -/
theorem constant?_append {cs : List Char} (ended : LineEnded cs) (nonempty : cs ≠ [])
    (more : List Char) :
    constant? (cs ++ more) = (constant? cs).map fun p => (p.1, p.2 ++ more) := by
  have inside : ∀ p ∈ constants, ∀ c ∈ p.1, isBreak c = false := by
    have all : (constants.all fun p => p.1.all fun c => !isBreak c) = true := by decide +kernel
    simpa only [List.all_eq_true, Bool.not_eq_true'] using all
  rw [constant?, constant?]
  generalize constants = words at inside ⊢
  induction words with
  | nil => rfl
  | cons p rest ih =>
    obtain ⟨word, v⟩ := p
    obtain ⟨first, others⟩ := List.forall_mem_cons.mp inside
    rw [List.findSome?_cons, List.findSome?_cons]
    simp only [dropWord?_append first ended nonempty]
    cases dropWord? word cs with
    | none => exact ih others
    | some after => rfl

theorem extends_scalar {cs : List Char} (ended : LineEnded cs) (nonempty : cs ≠ [])
    (more : List Char) : Extends more (scalar cs) (scalar (cs ++ more)) := by
  rw [scalar, scalar, constant?_append ended nonempty]
  cases constant? cs with
  | none => exact extends_number ended nonempty more
  | some found => exact rfl

/-! ## Values -/

theorem skipSpace_of_blank {cs : List Char} (blank : skipSpace cs = []) (more : List Char) :
    skipSpace (cs ++ more) = skipSpace more := by
  rw [skipSpace, List.dropWhile_append, if_pos (by simpa [skipSpace] using blank)]
  rfl

/-- What follows white space is the same when the text goes on, unless there is nothing yet. -/
theorem Extends.afterSpace {α : Type} {more rest : List Char} (ended : LineEnded rest)
    {f g : List Char → Except Fault (α × List Char)}
    (leaves : ∀ cs a rest, g cs = .ok (a, rest) → rest <:+ cs)
    (nil : ∀ whole, (∀ a rest, whole = .ok (a, rest) → rest <:+ more) → Extends more (f []) whole)
    (next : ∀ cs, LineEnded cs → cs ≠ [] → Extends more (f cs) (g (cs ++ more))) :
    Extends more (f (skipSpace rest)) (g (skipSpace (rest ++ more))) := by
  by_cases blank : skipSpace rest = []
  · rw [blank]
    refine nil _ fun a after read => (leaves _ a after read).trans ?_
    rw [skipSpace_of_blank blank]
    exact skipSpace_suffix more
  · rw [skipSpace_more blank]
    exact next _ (ended.suffix (skipSpace_suffix rest)) blank

/-- Three readers with the same steps read a text that is cut off where a line ends as they read the
whole text, unless they come to the cut. -/
structure Extending (more : List Char) (n : Nat) : Prop where
  value : ∀ cs, LineEnded cs → Extends more (valueFrom n cs) (valueFrom n (cs ++ more))
  members : ∀ acc cs, LineEnded cs →
    Extends more (membersFrom n acc cs) (membersFrom n acc (cs ++ more))
  elements : ∀ acc cs, LineEnded cs →
    Extends more (elementsFrom n acc cs) (elementsFrom n acc (cs ++ more))

variable {more : List Char} {n : Nat}

theorem elementsFrom_nil (n : Nat) (acc : List Value) :
    elementsFrom n acc [] = .error (.malformed .expectingValue 0) := by
  cases n with
  | zero => rfl
  | succ n =>
    rw [elementsFrom_succ, valueFrom_nil]
    rfl

theorem membersFrom_nil (n : Nat) (acc : List (String × Value)) :
    membersFrom n acc [] = .error (.malformed .expectingName 0) := by
  cases n with
  | zero => rfl
  | succ n => exact membersFrom_other _ _ fun _ same => nomatch same

theorem atEnd_elementsFrom (n : Nat) (acc : List Value) (whole : Except Fault (List Value × List Char))
    (later : ∀ a rest, whole = .ok (a, rest) → rest <:+ more) :
    Extends more (elementsFrom n acc []) whole := by
  rw [elementsFrom_nil]
  exact .atEnd later

theorem atEnd_membersFrom (n : Nat) (acc : List (String × Value))
    (whole : Except Fault (List (String × Value) × List Char))
    (later : ∀ a rest, whole = .ok (a, rest) → rest <:+ more) :
    Extends more (membersFrom n acc []) whole := by
  rw [membersFrom_nil]
  exact .atEnd later

theorem extends_afterPart {α : Type} (closing : Char) (parts : α)
    {next next' : List Char → Except Fault (α × List Char)}
    (leaves : ∀ cs a rest, next' cs = .ok (a, rest) → rest <:+ cs)
    (nil : ∀ whole, (∀ a rest, whole = .ok (a, rest) → rest <:+ more) → Extends more (next []) whole)
    (extended : ∀ cs, LineEnded cs → Extends more (next cs) (next' (cs ++ more))) {cs : List Char}
    (ended : LineEnded cs) (nonempty : cs ≠ []) :
    Extends more (afterPart closing parts next cs) (afterPart closing parts next' (cs ++ more)) := by
  obtain ⟨c, rest, rfl⟩ := List.exists_cons_of_ne_nil nonempty
  rw [List.cons_append, afterPart, afterPart]
  by_cases isEnd : c = closing
  · rw [if_pos isEnd, if_pos isEnd]
    exact rfl
  · by_cases comma : c = ','
    · rw [if_neg isEnd, if_neg isEnd, if_pos comma, if_pos comma]
      exact .afterSpace ended.tail leaves nil fun cs ended _ => extended cs ended
    · rw [if_neg isEnd, if_neg isEnd, if_neg comma, if_neg comma]
      change Extends more (.error (.malformed .expectingComma (c :: rest).length))
        (.error (.malformed .expectingComma (c :: rest ++ more).length))
      exact .malformed

theorem extends_opened {α : Type} (closing : Char) (empty : α)
    {parts parts' : List Char → Except Fault (α × List Char)} {cs : List Char} (nonempty : cs ≠ [])
    (extended : Extends more (parts cs) (parts' (cs ++ more))) :
    Extends more (opened closing empty parts cs) (opened closing empty parts' (cs ++ more)) := by
  obtain ⟨c, rest, rfl⟩ := List.exists_cons_of_ne_nil nonempty
  rw [List.cons_append] at extended ⊢
  rw [opened, opened]
  by_cases isEnd : c = closing
  · rw [if_pos isEnd, if_pos isEnd]
    exact rfl
  · rw [if_neg isEnd, if_neg isEnd]
    exact extended

theorem Extending.memberValue (extending : Extending more n) (acc : List (String × Value))
    (key : String) {cs : List Char} (ended : LineEnded cs) (nonempty : cs ≠ []) :
    Extends more (Json.memberValue n acc key cs) (Json.memberValue n acc key (cs ++ more)) := by
  obtain ⟨c, rest, rfl⟩ := List.exists_cons_of_ne_nil nonempty
  rw [List.cons_append]
  by_cases colon : c = ':'
  · subst colon
    have first : Extends more (valueFrom n (skipSpace rest)) (valueFrom n (skipSpace (rest ++ more))) := by
      refine .afterSpace ended.tail (fun _ _ _ read => ((leaving n).value read).suffix)
        (fun whole later => ?_) fun cs ended _ => extending.value cs ended
      rw [valueFrom_nil]
      exact .atEnd later
    rw [memberValue_colon, memberValue_colon]
    refine first.bind (fun v after ms last read => ?_) fun v after read => ?_
    · exact (leaves_afterPart (leaving n).members read).suffix.trans (skipSpace_suffix after)
    · have afterEnded : LineEnded after :=
        (ended.tail.suffix (skipSpace_suffix rest)).suffix ((leaving n).value read).suffix
      exact .afterSpace afterEnded
        (fun _ _ _ read => (leaves_afterPart (leaving n).members read).suffix) (fun _ => .atEnd)
        fun cs => extends_afterPart _ _ (fun _ _ _ read => ((leaving n).members read).suffix)
          (atEnd_membersFrom n _) (extending.members _)
  · have other : ∀ {cs : List Char} (rest : List Char), c :: cs ≠ ':' :: rest :=
      fun _ same => colon (List.cons.inj same).1
    rw [memberValue_other _ _ _ other, memberValue_other _ _ _ other]
    exact .malformed

/-- Readers that come to no cut read on as before, however many steps they have. -/
theorem extending (more : List Char) : (n : Nat) → Extending more n
  | 0 => ⟨fun _ _ => .malformed, fun _ _ _ => .malformed, fun _ _ _ => .malformed⟩
  | n + 1 => by
    have inner := extending more n
    refine ⟨fun cs ended => ?_, fun acc cs ended => ?_, fun acc cs ended => ?_⟩
    · induction cs using firstChar_cases with
      | nil =>
        rw [valueFrom_nil]
        exact .atEnd fun _ _ read => ((leaving (n + 1)).value read).suffix
      | string rest =>
        rw [List.cons_append, valueFrom_string, valueFrom_string]
        have nonempty : rest ≠ [] := ended.tail_ne_nil (by decide)
        exact (extends_string ended.tail nonempty more).map Value.text
      | object rest =>
        rw [List.cons_append, valueFrom_object, valueFrom_object]
        refine .afterSpace ended.tail (fun _ _ _ read => ?_) (fun whole later => ?_)
          fun cs ended nonempty => ?_
        · exact (leaves_opened (leaves_map (fun ms => Value.object (Value.ofPairs ms))
            (leaving n).members) read).suffix
        · rw [opened, membersFrom_nil]
          exact .atEnd later
        · refine extends_opened _ _ nonempty ?_
          exact (inner.members [] cs ended).map fun ms => Value.object (Value.ofPairs ms)
      | list rest =>
        rw [List.cons_append, valueFrom_list, valueFrom_list]
        refine .afterSpace ended.tail (fun _ _ _ read => ?_) (fun whole later => ?_)
          fun cs ended nonempty => ?_
        · exact (leaves_opened (leaves_map Value.list (leaving n).elements) read).suffix
        · rw [opened, elementsFrom_nil]
          exact .atEnd later
        · exact extends_opened _ _ nonempty ((inner.elements [] cs ended).map Value.list)
      | scalar c rest noString noObject noList =>
        have scalar := extends_scalar ended (by simp) more
        rw [List.cons_append] at scalar ⊢
        rw [valueFrom_scalar _ noString noObject noList, valueFrom_scalar _ noString noObject noList]
        exact scalar
    · by_cases named : ∃ rest, cs = '"' :: rest
      · obtain ⟨rest, rfl⟩ := named
        have nonempty : rest ≠ [] := ended.tail_ne_nil (by decide)
        rw [List.cons_append, membersFrom_succ, membersFrom_succ]
        refine (extends_string ended.tail nonempty more).bind (fun key after ms last read => ?_)
          fun key after read => ?_
        · exact ((leaving n).memberValue read).suffix.trans (skipSpace_suffix after)
        · have afterEnded := ended.tail.suffix (leaves_string read).suffix
          exact .afterSpace afterEnded (fun _ _ _ read => ((leaving n).memberValue read).suffix)
            (fun _ => .atEnd) fun cs => inner.memberValue acc key
      · by_cases nonempty : cs = []
        · rw [nonempty, membersFrom_nil]
          exact .atEnd fun _ _ read => ((leaving (n + 1)).members read).suffix
        · have other : ∀ rest, cs ≠ '"' :: rest := fun rest same => named ⟨rest, same⟩
          have other' : ∀ rest, cs ++ more ≠ '"' :: rest := by
            intro rest same
            obtain ⟨c, later, rfl⟩ := List.exists_cons_of_ne_nil nonempty
            cases same
            exact other later rfl
          rw [membersFrom_other _ _ other, membersFrom_other _ _ other']
          exact .malformed
    · rw [elementsFrom_succ, elementsFrom_succ]
      refine (inner.value cs ended).bind (fun v after vs last read => ?_) fun v after read => ?_
      · exact (leaves_afterPart (leaving n).elements read).suffix.trans (skipSpace_suffix after)
      · have afterEnded := ended.suffix ((leaving n).value read).suffix
        exact .afterSpace afterEnded
          (fun _ _ _ read => (leaves_afterPart (leaving n).elements read).suffix) (fun _ => .atEnd)
          fun cs => extends_afterPart _ _ (fun _ _ _ read => ((leaving n).elements read).suffix)
            (atEnd_elementsFrom n _) (inner.elements _)

/-- A text that is cut off where a line ends gives the value or the fault of the whole text, unless
it is malformed at its end. -/
theorem extends_value {cs : List Char} (ended : LineEnded cs) (more : List Char) :
    Extends more (value cs) (value (cs ++ more)) := by
  have steps : 2 * cs.length < 2 * (cs ++ more).length + 2 := by
    rw [List.length_append]
    omega
  rw [← valueFrom_eq_value steps]
  exact (extending more _).value cs ended

end SchemaOnRead.Json
