import SchemaOnRead.Proofs.Json.Written

/-!
# Values that more text follows

A value that is read from a text and is no number is read as the same value when more text follows
(`value_append`): a character of its own ends it. A number may go on, but not in a list or an object,
where another character stands after it.
-/

namespace SchemaOnRead.Json

open Text

variable {cs rest : List Char}

/-! ## Strings -/

theorem hex4?_more {n : Nat} (read : hex4? cs = some (n, rest)) (more : List Char) :
    hex4? (cs ++ more) = some (n, rest ++ more) := by
  obtain ⟨a, b, c, d, rfl⟩ := hex4?_eq_some read
  simp only [hex4?, List.cons_append, Option.bind_eq_bind, Option.bind_eq_some_iff] at read ⊢
  obtain ⟨w, first, x, second, y, third, z, fourth, same⟩ := read
  refine ⟨w, first, x, second, y, third, z, fourth, ?_⟩
  generalize w * 4096 + x * 256 + y * 16 + z = k at same ⊢
  cases same
  rfl

/-- No string is read on from a text. -/
def Unread (cs : List Char) : Prop :=
  ∀ start fuel acc s rest, stringRest start fuel acc cs ≠ .ok (s, rest)

theorem unread_backslash : Unread ['\\'] := by
  intro start fuel acc s rest read
  cases fuel with
  | zero => cases read
  | succ fuel => simp [stringRest] at read

/-- A numeric escape takes four digits and a character after them. -/
theorem unread_short {second : List Char} (short : second.length < 5) :
    Unread ('\\' :: 'u' :: second) := by
  intro start fuel acc s rest read
  cases fuel with
  | zero => cases read
  | succ fuel =>
    rw [stringRest_unicode] at read
    cases digits : hex4? second with
    | none =>
      rw [unicodeEscape_of_none digits] at read
      cases read
    | some found =>
      obtain ⟨n, after⟩ := found
      obtain ⟨a, b, c, d, rfl⟩ := hex4?_eq_some digits
      have none : after = [] := by
        simp only [List.length_cons] at short
        exact List.length_eq_zero_iff.mp (by omega)
      rw [unicodeEscape, digits, none] at read
      cases read

/-- An escape stays what it is when more text follows, unless it is the first half of a surrogate pair
that is cut off. -/
theorem unicodeEscape_more {c : Char} (read : unicodeEscape cs = .ok (c, rest)) (more : List Char) :
    unicodeEscape (cs ++ more) = .ok (c, rest ++ more) ∨ Unread rest := by
  cases first : hex4? cs with
  | none =>
    rw [unicodeEscape_of_none first] at read
    cases read
  | some found =>
    obtain ⟨n, after⟩ := found
    have append := hex4?_more first more
    rcases pair_or_single n after with ⟨high, second, rfl⟩ | single
    · rw [unicodeEscape_of_pair first high] at read
      by_cases short : second.length < 5
      · rw [if_pos short] at read
        cases read
        exact .inr (unread_short short)
      · have long : ¬ (second ++ more).length < 5 := by
          rw [List.length_append]
          omega
        rw [if_neg short] at read
        cases digits : hex4? second with
        | none =>
          rw [digits] at read
          cases read
        | some found =>
          obtain ⟨m, later⟩ := found
          left
          rw [List.cons_append, List.cons_append] at append
          rw [unicodeEscape_of_pair append high, if_neg long, hex4?_more digits more]
          rw [digits] at read
          simp only at read ⊢
          split at read
          · rename_i low
            rw [if_pos low]
            generalize Char.ofNat (0x10000 + (n - 0xD800) * 0x400 + (m - 0xDC00)) = d at read ⊢
            cases read
            rfl
          · rename_i low
            rw [if_neg low]
            cases read
            rfl
    · by_cases none : after = []
      · rw [unicodeEscape, first, none] at read
        cases read
      · rw [unicodeEscape_of_single first none single] at read
        cases read
        by_cases cut : rest = ['\\']
        · exact .inr (cut ▸ unread_backslash)
        · left
          refine unicodeEscape_of_single append (by simp [none]) (single.imp_right ?_)
          intro noPair second same
          rcases rest with _ | ⟨d, _ | ⟨e, later⟩⟩
          · exact none rfl
          · cases same
            exact cut rfl
          · cases same
            exact noPair later rfl

theorem stringRest_more {start start' n m : Nat} {acc : List Char} {s : String}
    (read : stringRest start n acc cs = .ok (s, rest)) (enough : n ≤ m) (more : List Char) :
    stringRest start' m acc (cs ++ more) = .ok (s, rest ++ more) := by
  induction n generalizing acc cs m with
  | zero => cases read
  | succ n ih =>
    obtain ⟨m, rfl⟩ : ∃ k, m = k + 1 := ⟨m - 1, by omega⟩
    have fewer : n ≤ m := by omega
    cases cs with
    | nil => cases read
    | cons c later =>
      rw [List.cons_append]
      by_cases isQuote : c = '"'
      · subst isQuote
        rw [stringRest_quote] at read ⊢
        cases read
        rfl
      · by_cases isEscape : c = '\\'
        · subst isEscape
          cases later with
          | nil => exact absurd read (unread_backslash _ _ _ _ _)
          | cons d later =>
            rw [List.cons_append]
            by_cases isUnicode : d = 'u'
            · subst isUnicode
              rw [stringRest_unicode] at read ⊢
              obtain ⟨p, escape, inner⟩ := ok_of_bind read
              rcases unicodeEscape_more escape more with same | unread
              · rw [same]
                exact ih inner fewer
              · exact absurd inner (unread _ _ _ _ _)
            · cases known : simpleEscape? d with
              | none =>
                rw [stringRest_badEscape _ _ _ _ isUnicode known] at read
                cases read
              | some e =>
                rw [stringRest_escape _ _ _ _ isUnicode known] at read ⊢
                exact ih read fewer
        · rw [stringRest_plain _ _ _ _ isQuote isEscape] at read ⊢
          by_cases control : c.toNat < 32
          · rw [if_pos control] at read
            cases read
          · rw [if_neg control] at read ⊢
            exact ih read fewer

theorem string_more {s : String} (read : string cs = .ok (s, rest)) (more : List Char) :
    string (cs ++ more) = .ok (s, rest ++ more) := by
  rw [string] at read ⊢
  refine stringRest_more read ?_ more
  rw [List.length_append]
  omega

/-! ## Numbers and words -/

/-- A text begins with a character that no number goes on with. -/
def EndsNumber (rest : List Char) : Prop :=
  ∃ c after, rest = c :: after ∧ isAsciiDigit c = false ∧ c ≠ '.' ∧ c ≠ 'e' ∧ c ≠ 'E'

theorem EndsNumber.ne_nil (ends : EndsNumber rest) : rest ≠ [] := by
  obtain ⟨c, after, rfl, -⟩ := ends
  exact List.cons_ne_nil c after

theorem EndsNumber.head_ne {c : Char} {after : List Char} (ends : EndsNumber (c :: after)) :
    c ≠ '.' ∧ ¬ (c = 'e' ∨ c = 'E') := by
  obtain ⟨d, later, same, -, noPoint, noSmall, noCapital⟩ := ends
  cases same
  exact ⟨noPoint, fun letter => letter.elim noSmall noCapital⟩

theorem exponentPart_more (ends : EndsNumber (exponentPart cs).2) (more : List Char) :
    exponentPart (cs ++ more) = ((exponentPart cs).1, (exponentPart cs).2 ++ more) := by
  cases cs with
  | nil => exact absurd rfl ends.ne_nil
  | cons c after =>
    rw [exponentPart] at ends
    rw [List.cons_append, exponentPart, exponentPart]
    by_cases letter : c = 'e' ∨ c = 'E'
    · rw [if_pos letter] at ends
      rw [if_pos letter, if_pos letter]
      by_cases none : after = []
      · subst none
        exact absurd letter ends.head_ne.2
      · have left : (Decimal.spanDigits (exponentSign after).2).2 ≠ [] := by
          intro empty
          simp only at ends
          split at ends
          · exact ends.head_ne.2 letter
          · rename_i digits
            rw [digits] at empty
            exact ends.ne_nil empty
        rw [exponentSign_more none more]
        simp only [spanDigits_more left more]
        rcases Decimal.spanDigits (exponentSign after).2 with ⟨_ | _, _⟩ <;> rfl
    · rw [if_neg letter, if_neg letter]
      rfl

theorem fractionPart_more (ends : EndsNumber (exponentPart (fractionPart cs).2).2)
    (more : List Char) :
    fractionPart (cs ++ more) = ((fractionPart cs).1, (fractionPart cs).2 ++ more) := by
  cases cs with
  | nil => exact absurd rfl ends.ne_nil
  | cons c after =>
    rw [List.cons_append]
    by_cases point : c = '.'
    · subst point
      have left : (Decimal.spanDigits after).2 ≠ [] := by
        intro empty
        rw [fractionPart] at ends
        split at ends
        · exact ends.head_ne.1 rfl
        · rename_i digits
          rw [digits] at empty
          subst empty
          exact ends.ne_nil rfl
      rw [fractionPart, fractionPart, spanDigits_more left more]
      rcases Decimal.spanDigits after with ⟨_ | _, _⟩ <;> rfl
    · have none : ∀ {cs : List Char}, fractionPart (c :: cs) = ([], c :: cs) := by
        intro cs
        rw [fractionPart]
        exact fun _ same => point (List.cons.inj same).1
      rw [none, none]
      rfl

theorem wholeDigits?_more {ds : List Char} (read : wholeDigits? cs = some (ds, rest))
    (left : rest ≠ []) (more : List Char) :
    wholeDigits? (cs ++ more) = some (ds, rest ++ more) := by
  cases cs with
  | nil => cases read
  | cons c after =>
    by_cases zero : c = '0'
    · subst zero
      cases read
      rfl
    · rw [wholeDigits?_of_ne zero] at read
      split at read
      · cases read
      · rename_i digits
        have spanned := Option.some.inj read
        have ended : (Decimal.spanDigits (c :: after)).2 ≠ [] := by
          rw [spanned]
          exact left
        have whole := spanDigits_more ended more
        rw [List.cons_append] at whole ⊢
        rw [wholeDigits?_of_ne zero, whole, if_neg digits, spanned]

theorem number_more {v : Value} (read : number cs = .ok (v, rest)) (ends : EndsNumber rest)
    (more : List Char) : number (cs ++ more) = .ok (v, rest ++ more) := by
  obtain ⟨whole, after, digits⟩ := wholeDigits_of_number read
  rw [number_of_wholeDigits digits] at read
  obtain ⟨w, made, same⟩ := ok_of_map read
  obtain ⟨rfl, last⟩ := Prod.mk.inj same
  rw [← last] at ends ⊢
  have nonempty : cs ≠ [] := by
    rintro rfl
    cases digits
  have left : after ≠ [] := by
    rintro rfl
    exact ends.ne_nil rfl
  have sign := numberSign_more nonempty more
  have digits' : wholeDigits? (numberSign (cs ++ more)).2 = some (whole, after ++ more) := by
    rw [sign]
    exact wholeDigits?_more digits left more
  rw [number_of_wholeDigits digits', sign, fractionPart_more ends, exponentPart_more ends, made]
  rfl

theorem constant?_word : ∀ p ∈ constants, ∀ rest, constant? (p.1 ++ rest) = some (p.2, rest) := by
  simp only [constants, List.forall_mem_cons]
  exact ⟨fun _ => rfl, fun _ => rfl, fun _ => rfl, fun _ => rfl, fun _ => rfl, fun _ => rfl,
    fun _ none => absurd none List.not_mem_nil⟩

/-- The words that stand for values are those that `constant?` finds. -/
theorem constant?_more {v : Value} (found : constant? cs = some (v, rest)) (more : List Char) :
    constant? (cs ++ more) = some (v, rest ++ more) := by
  obtain ⟨⟨word, w⟩, member, dropped⟩ := List.exists_of_findSome?_eq_some found
  obtain ⟨after, kept, same⟩ := Option.map_eq_some_iff.mp dropped
  cases same
  rw [dropWord_append kept, List.append_assoc]
  exact constant?_word _ member (rest ++ more)

theorem numberSign_eq (cs : List Char) :
    cs = Decimal.signText (numberSign cs).1 ++ (numberSign cs).2 := by
  unfold numberSign
  split
  · rfl
  · rfl

/-- No word begins as a number does. -/
theorem constant?_of_number {v : Value} (read : number cs = .ok (v, rest)) (more : List Char) :
    constant? (cs ++ more) = none := by
  obtain ⟨whole, after, digits⟩ := wholeDigits_of_number read
  have same := numberSign_eq cs
  rw [(wholeDigits?_eq_some digits).2] at same
  rw [same, List.append_assoc, List.append_assoc]
  exact constant?_written _ (isDigits_wholeDigits digits) (after ++ more)

theorem scalar_more {v : Value} (read : scalar cs = .ok (v, rest))
    (ends : v.isNumber = true → EndsNumber rest) (more : List Char) :
    scalar (cs ++ more) = .ok (v, rest ++ more) := by
  rw [scalar] at read ⊢
  cases found : constant? cs with
  | some p =>
    rw [found] at read
    cases read
    rw [constant?_more found more]
  | none =>
    rw [found] at read
    rw [constant?_of_number read more]
    exact number_more read (ends (isNumber_of_number read)) more

/-! ## Values -/

/-- A delimiter ends a number, also after white space. -/
theorem endsNumber_of_delimiter {c : Char} {after : List Char}
    (delimiter : c = ',' ∨ c = ']' ∨ c = '\x7d') (next : skipSpace rest = c :: after) :
    EndsNumber rest := by
  cases rest with
  | nil => cases next
  | cons d later =>
    by_cases space : isSpace d = true
    · refine ⟨d, later, rfl, ?_⟩
      simp only [isSpace, Bool.or_eq_true, beq_iff_eq] at space
      rcases space with ((rfl | rfl) | rfl) | rfl <;> decide
    · rw [skipSpace, List.dropWhile_cons_of_neg space] at next
      cases next
      refine ⟨c, after, rfl, ?_⟩
      rcases delimiter with rfl | rfl | rfl <;> decide

/-- What a list or an object goes on with after one of its parts stays the same when more text follows. -/
theorem afterPart_more {α : Type} {closing : Char} {parts a : α}
    {next : List Char → Except Fault (α × List Char)} {more : List Char}
    (closes : closing = ']' ∨ closing = '\x7d')
    (leaves : ∀ {cs}, next cs = .ok (a, rest) → Leaves cs rest)
    (later : ∀ {cs}, next cs = .ok (a, rest) → next (cs ++ more) = .ok (a, rest ++ more))
    (read : afterPart closing parts next (skipSpace cs) = .ok (a, rest)) :
    EndsNumber cs ∧ afterPart closing parts next (skipSpace (cs ++ more)) = .ok (a, rest ++ more) := by
  cases skipped : skipSpace cs with
  | nil =>
    rw [skipped] at read
    cases read
  | cons c after =>
    rw [skipSpace_more (by simp [skipped]), skipped, List.cons_append]
    rw [skipped] at read
    rw [afterPart] at read ⊢
    by_cases isEnd : c = closing
    · rw [if_pos isEnd] at read ⊢
      cases read
      exact ⟨endsNumber_of_delimiter (.inr (isEnd ▸ closes)) skipped, rfl⟩
    · rw [if_neg isEnd] at read ⊢
      by_cases comma : c = ','
      · rw [if_pos comma] at read ⊢
        refine ⟨endsNumber_of_delimiter (.inl comma) skipped, ?_⟩
        have some : skipSpace after ≠ [] := fun none => by
          have used := (leaves read).length_lt
          rw [none] at used
          cases used
        rw [skipSpace_more some]
        exact later read
      · rw [if_neg comma] at read
        cases read

theorem opened_more {α : Type} {closing : Char} {empty a : α}
    {parts : List Char → Except Fault (α × List Char)} {more : List Char}
    (leaves : ∀ {cs}, parts cs = .ok (a, rest) → Leaves cs rest)
    (later : ∀ {cs}, parts cs = .ok (a, rest) → parts (cs ++ more) = .ok (a, rest ++ more))
    (read : opened closing empty parts (skipSpace cs) = .ok (a, rest)) :
    opened closing empty parts (skipSpace (cs ++ more)) = .ok (a, rest ++ more) := by
  cases skipped : skipSpace cs with
  | nil =>
    rw [skipped] at read
    cases (leaves read).length_lt
  | cons c after =>
    rw [skipSpace_more (by simp [skipped]), skipped, List.cons_append]
    rw [skipped] at read
    rw [opened] at read ⊢
    by_cases isEnd : c = closing
    · rw [if_pos isEnd] at read ⊢
      cases read
      rfl
    · rw [if_neg isEnd] at read ⊢
      exact later read

/-- Three readers with the same steps read what they read from a text when more text follows. -/
structure Continuing (more : List Char) (fuel : Nat) : Prop where
  value : ∀ {cs v rest}, valueFrom fuel cs = .ok (v, rest) → (v.isNumber = true → EndsNumber rest) →
    valueFrom fuel (cs ++ more) = .ok (v, rest ++ more)
  members : ∀ {acc cs ms rest}, membersFrom fuel acc cs = .ok (ms, rest) →
    membersFrom fuel acc (cs ++ more) = .ok (ms, rest ++ more)
  elements : ∀ {acc cs vs rest}, elementsFrom fuel acc cs = .ok (vs, rest) →
    elementsFrom fuel acc (cs ++ more) = .ok (vs, rest ++ more)

theorem map_more {α β : Type} (f : α → β) {x y : Except Fault (α × List Char)} {b : β}
    {more : List Char} (same : ∀ {a}, x = .ok (a, rest) → y = .ok (a, rest ++ more))
    (read : (x.map fun p => (f p.1, p.2)) = .ok (b, rest)) :
    (y.map fun p => (f p.1, p.2)) = .ok (b, rest ++ more) := by
  obtain ⟨p, found, made⟩ := ok_of_map read
  cases made
  rw [same found]
  rfl

variable {more : List Char} {fuel : Nat}

theorem Continuing.memberValue (continuing : Continuing more fuel) {acc ms : List (String × Value)}
    {key : String} (read : Json.memberValue fuel acc key cs = .ok (ms, rest)) :
    Json.memberValue fuel acc key (cs ++ more) = .ok (ms, rest ++ more) := by
  by_cases colon : ∃ after, cs = ':' :: after
  · obtain ⟨after, rfl⟩ := colon
    rw [List.cons_append, memberValue_colon]
    rw [memberValue_colon] at read
    obtain ⟨p, first, later⟩ := ok_of_bind read
    obtain ⟨ends, kept⟩ := afterPart_more (.inr rfl) (leaving fuel).members
      continuing.members later
    have some : skipSpace after ≠ [] := fun none => by
      have used := ((leaving fuel).value first).length_lt
      rw [none] at used
      cases used
    rw [skipSpace_more some, continuing.value first fun _ => ends]
    exact kept
  · rw [memberValue_other _ _ _ fun after same => colon ⟨after, same⟩] at read
    cases read

/-- What is read stays the same when more text follows, however many steps the readers have. -/
theorem continuing (more : List Char) : (fuel : Nat) → Continuing more fuel
  | 0 => ⟨fun read => (nomatch read), fun read => (nomatch read), fun read => (nomatch read)⟩
  | fuel + 1 => by
    have inner := continuing more fuel
    refine ⟨@fun cs v rest read ends => ?_, @fun acc cs ms rest read => ?_,
      @fun acc cs vs rest read => ?_⟩
    · induction cs using firstChar_cases with
      | nil =>
        rw [valueFrom_nil] at read
        cases read
      | string after =>
        rw [List.cons_append, valueFrom_string]
        rw [valueFrom_string] at read
        exact map_more Value.text (fun text => string_more text more) read
      | object after =>
        rw [List.cons_append, valueFrom_object]
        rw [valueFrom_object] at read
        refine opened_more (fun body => ?_) (fun body => ?_) read
        · exact leaves_map (fun ms => Value.object (Value.ofPairs ms)) (leaving fuel).members body
        · exact map_more (fun ms => Value.object (Value.ofPairs ms)) inner.members body
      | list after =>
        rw [List.cons_append, valueFrom_list]
        rw [valueFrom_list] at read
        refine opened_more (fun body => ?_) (fun body => ?_) read
        · exact leaves_map Value.list (leaving fuel).elements body
        · exact map_more Value.list inner.elements body
      | scalar c after noString noObject noList =>
        rw [valueFrom_scalar _ noString noObject noList] at read
        rw [List.cons_append, valueFrom_scalar _ noString noObject noList]
        exact scalar_more read ends more
    · by_cases named : ∃ after, cs = '"' :: after
      · obtain ⟨after, rfl⟩ := named
        rw [List.cons_append, membersFrom_succ]
        rw [membersFrom_succ] at read
        obtain ⟨p, name, later⟩ := ok_of_bind read
        have some : skipSpace p.2 ≠ [] := fun none => by
          have used := ((leaving fuel).memberValue later).length_lt
          rw [none] at used
          cases used
        rw [string_more name more]
        change Json.memberValue fuel acc p.1 (skipSpace (p.2 ++ more)) = _
        rw [skipSpace_more some]
        exact inner.memberValue later
      · rw [membersFrom_other _ _ fun after same => named ⟨after, same⟩] at read
        cases read
    · rw [elementsFrom_succ] at read ⊢
      obtain ⟨p, element, later⟩ := ok_of_bind read
      obtain ⟨ends, kept⟩ := afterPart_more (.inl rfl) (leaving fuel).elements
        inner.elements later
      rw [inner.value element fun _ => ends]
      exact kept

/-- A value that is read and is no number is read as well when more text follows. -/
theorem value_append {v : Value} (read : value cs = .ok (v, rest)) (noNumber : v.isNumber = false)
    (more : List Char) : value (cs ++ more) = .ok (v, rest ++ more) := by
  have steps : 2 * cs.length < 2 * (cs ++ more).length + 2 := by
    rw [List.length_append]
    omega
  rw [← valueFrom_eq_value steps] at read
  refine (continuing more _).value read fun isNumber => ?_
  rw [noNumber] at isNumber
  cases isNumber

end SchemaOnRead.Json
