import Mathlib.Data.List.TakeDrop
import SchemaOnRead.Json.Reader

/-!
# What a reader uses up

A reader of JSON text that succeeds uses up one or more characters and leaves the others as they are
(`leaves_value`). Its steps are as many as are needed: with more of them nothing else is read
(`valueFrom_eq_value`).
-/

namespace SchemaOnRead.Json

open Text

/-- A text goes on with another one after one or more characters. -/
def Leaves (cs rest : List Char) : Prop := ∃ before, before ≠ [] ∧ cs = before ++ rest

namespace Leaves

variable {cs mid rest : List Char}

theorem length_lt (leaves : Leaves cs rest) : rest.length < cs.length := by
  obtain ⟨before, some, rfl⟩ := leaves
  have positive := List.length_pos_iff.mpr some
  rw [List.length_append]
  omega

theorem suffix (leaves : Leaves cs rest) : rest <:+ cs := by
  obtain ⟨before, -, rfl⟩ := leaves
  exact List.suffix_append before rest

theorem one (c : Char) (rest : List Char) : Leaves (c :: rest) rest := ⟨[c], by simp, rfl⟩

theorem after (leaves : Leaves cs mid) (later : rest <:+ mid) : Leaves cs rest := by
  obtain ⟨before, some, rfl⟩ := leaves
  obtain ⟨more, rfl⟩ := later
  exact ⟨before ++ more, by simp [some], (List.append_assoc ..).symm⟩

theorem before (earlier : mid <:+ cs) (leaves : Leaves mid rest) : Leaves cs rest := by
  obtain ⟨more, rfl⟩ := earlier
  obtain ⟨before, some, rfl⟩ := leaves
  exact ⟨more ++ before, by simp [some], (List.append_assoc ..).symm⟩

theorem cons (c : Char) (leaves : Leaves cs rest) : Leaves (c :: cs) rest :=
  .before (List.suffix_cons c cs) leaves

theorem trans (first : Leaves cs mid) (second : Leaves mid rest) : Leaves cs rest :=
  first.after second.suffix

end Leaves

theorem skipSpace_suffix (cs : List Char) : skipSpace cs <:+ cs := List.dropWhile_suffix _

/-- White space that another character ends stays what it is when more text follows. -/
theorem skipSpace_more {cs : List Char} (left : skipSpace cs ≠ []) (more : List Char) :
    skipSpace (cs ++ more) = skipSpace cs ++ more := by
  rw [skipSpace, List.dropWhile_append, if_neg (by simpa [skipSpace] using left)]
  rfl

theorem ok_of_bind {α β : Type} {x : Except Fault α} {f : α → Except Fault β} {b : β}
    (read : x.bind f = .ok b) : ∃ a, x = .ok a ∧ f a = .ok b := by
  cases x with
  | error e => cases read
  | ok a => exact ⟨a, rfl, read⟩

theorem ok_of_map {α β : Type} {x : Except Fault α} {f : α → β} {b : β} (read : x.map f = .ok b) :
    ∃ a, x = .ok a ∧ f a = b := by
  cases x with
  | error e => cases read
  | ok a => exact ⟨a, rfl, Except.ok.inj read⟩

/-! ## Strings -/

theorem hex4?_eq_some {cs rest : List Char} {n : Nat} (read : hex4? cs = some (n, rest)) :
    ∃ a b c d, cs = a :: b :: c :: d :: rest := by
  match cs with
  | [] | [_] | [_, _] | [_, _, _] => cases read
  | a :: b :: c :: d :: after =>
    refine ⟨a, b, c, d, ?_⟩
    unfold hex4? at read
    simp only [Option.bind_eq_bind, Option.bind_eq_some_iff] at read
    obtain ⟨w, -, x, -, y, -, z, -, same⟩ := read
    generalize w * 4096 + x * 256 + y * 16 + z = m at same
    cases same
    rfl

theorem leaves_hex4 {cs rest : List Char} {n : Nat} (read : hex4? cs = some (n, rest)) :
    Leaves cs rest := by
  obtain ⟨a, b, c, d, rfl⟩ := hex4?_eq_some read
  exact ⟨[a, b, c, d], by simp, rfl⟩

theorem leaves_unicodeEscape {cs rest : List Char} {c : Char}
    (read : unicodeEscape cs = .ok (c, rest)) : Leaves cs rest := by
  rw [unicodeEscape] at read
  split at read
  · rename_i n after first
    have one := leaves_hex4 first
    split at read
    · cases read
    · split at read
      · split at read
        · rename_i second
          split at read
          · cases read
            exact one
          · split at read
            · cases read
            · rename_i m later found
              split at read
              · generalize Char.ofNat (0x10000 + (n - 0xD800) * 0x400 + (m - 0xDC00)) = d at read
                cases read
                exact one.trans ((leaves_hex4 found).cons _ |>.cons _)
              · cases read
                exact one
        · cases read
          exact one
      · cases read
        exact one
  · cases read

theorem leaves_stringRest {start fuel : Nat} {acc cs rest : List Char} {s : String}
    (read : stringRest start fuel acc cs = .ok (s, rest)) : Leaves cs rest := by
  induction fuel generalizing acc cs with
  | zero => cases read
  | succ fuel ih =>
    unfold stringRest at read
    split at read
    · cases read
    · cases read
      exact .one _ _
    · cases read
    · rename_i after
      split at read
      · cases read
      · rename_i c later escape
        exact ((leaves_unicodeEscape escape).trans (ih read)).cons _ |>.cons _
    · rename_i c after _ _
      split at read
      · cases read
      · exact ((ih read).cons _).cons _
    · rename_i c after _ _ _
      split at read
      · cases read
      · exact (ih read).cons _

theorem leaves_string {cs rest : List Char} {s : String} (read : string cs = .ok (s, rest)) :
    Leaves cs rest := leaves_stringRest read

/-! ## The steps of strings -/

theorem unicodeEscape_of_none {cs : List Char} (read : hex4? cs = none) :
    unicodeEscape cs = .error (.malformed .badUnicodeEscape (cs.length + 1)) := by
  rw [unicodeEscape, read]

/-- An escape that is not the first half of a surrogate pair before another escape stands for the
character of its unit. -/
theorem unicodeEscape_of_single {cs rest : List Char} {n : Nat} (read : hex4? cs = some (n, rest))
    (nonempty : rest ≠ [])
    (single : isHighSurrogate n = false ∨ ∀ second, rest ≠ '\\' :: 'u' :: second) :
    unicodeEscape cs = .ok (unitChar n, rest) := by
  rw [unicodeEscape, read]
  simp only [List.isEmpty_iff, nonempty, if_false]
  rcases single with notHigh | noEscape
  · rw [if_neg (by simp [notHigh])]
  · split
    · split
      · exact absurd rfl (noEscape _)
      · rfl
    · rfl

theorem unicodeEscape_of_pair {cs second : List Char} {n : Nat}
    (read : hex4? cs = some (n, '\\' :: 'u' :: second)) (high : isHighSurrogate n = true) :
    unicodeEscape cs =
      if second.length < 5 then .ok (unitChar n, '\\' :: 'u' :: second)
      else match hex4? second with
        | none => .error (.malformed .badUnicodeEscape (second.length + 1))
        | some (m, after) =>
          if isLowSurrogate m then
            .ok (Char.ofNat (0x10000 + (n - 0xD800) * 0x400 + (m - 0xDC00)), after)
          else .ok (unitChar n, '\\' :: 'u' :: second) := by
  rw [unicodeEscape, read]
  exact (if_neg Bool.false_ne_true).trans (if_pos high)

/-- Either the escape of a unit is the first half of a surrogate pair and another escape follows, or
it stands alone. -/
theorem pair_or_single (n : Nat) (rest : List Char) :
    (isHighSurrogate n = true ∧ ∃ second, rest = '\\' :: 'u' :: second) ∨
      (isHighSurrogate n = false ∨ ∀ second, rest ≠ '\\' :: 'u' :: second) := by
  by_cases high : isHighSurrogate n = true
  · by_cases pair : ∃ second, rest = '\\' :: 'u' :: second
    · exact .inl ⟨high, pair⟩
    · exact .inr (.inr fun second same => pair ⟨second, same⟩)
  · exact .inr (.inl (eq_false_of_ne_true high))

theorem stringRest_quote (start fuel : Nat) (acc rest : List Char) :
    stringRest start (fuel + 1) acc ('"' :: rest) = .ok (String.ofList acc.reverse, rest) := by
  rw [stringRest]

theorem stringRest_unicode (start fuel : Nat) (acc rest : List Char) :
    stringRest start (fuel + 1) acc ('\\' :: 'u' :: rest) = (unicodeEscape rest).bind fun p =>
      stringRest start fuel (p.1 :: acc) p.2 := by
  rw [stringRest]
  cases unicodeEscape rest <;> rfl

theorem stringRest_escape (start fuel : Nat) (acc rest : List Char) {c e : Char} (simple : c ≠ 'u')
    (known : simpleEscape? c = some e) :
    stringRest start (fuel + 1) acc ('\\' :: c :: rest) = stringRest start fuel (e :: acc) rest := by
  rw [stringRest, known]
  exact simple

theorem stringRest_badEscape (start fuel : Nat) (acc rest : List Char) {c : Char} (simple : c ≠ 'u')
    (unknown : simpleEscape? c = none) :
    stringRest start (fuel + 1) acc ('\\' :: c :: rest) =
      .error (.malformed .badEscape (rest.length + 2)) := by
  rw [stringRest, unknown]
  exact simple

theorem stringRest_plain (start fuel : Nat) (acc rest : List Char) {c : Char} (noQuote : c ≠ '"')
    (noEscape : c ≠ '\\') :
    stringRest start (fuel + 1) acc (c :: rest) =
      if c.toNat < 32 then .error (.malformed .controlCharacter (c :: rest).length)
      else stringRest start fuel (c :: acc) rest := by
  rw [stringRest]
  · exact noQuote
  · exact fun same => absurd same noEscape
  · exact fun _ same => absurd same noEscape
  · exact fun _ _ same => absurd same noEscape

/-! ## Numbers and words -/

theorem spanDigits_eq (cs : List Char) :
    Decimal.spanDigits cs = (cs.takeWhile isAsciiDigit, cs.dropWhile isAsciiDigit) :=
  List.span_eq_takeWhile_dropWhile isAsciiDigit cs

theorem spanDigits_append {cs ds rest : List Char} (spanned : Decimal.spanDigits cs = (ds, rest)) :
    cs = ds ++ rest := by
  rw [spanDigits_eq, Prod.mk.injEq] at spanned
  rw [← spanned.1, ← spanned.2, List.takeWhile_append_dropWhile]

/-- Digits that another character ends stay what they are when more text follows. -/
theorem spanDigits_more {cs : List Char} (left : (Decimal.spanDigits cs).2 ≠ []) (more : List Char) :
    Decimal.spanDigits (cs ++ more) =
      ((Decimal.spanDigits cs).1, (Decimal.spanDigits cs).2 ++ more) := by
  rw [spanDigits_eq] at left
  replace left : cs.dropWhile isAsciiDigit ≠ [] := left
  rw [spanDigits_eq, spanDigits_eq]
  have shorter : (cs.takeWhile isAsciiDigit).length ≠ cs.length := by
    intro same
    have lengths := congrArg List.length (List.takeWhile_append_dropWhile (p := isAsciiDigit) (l := cs))
    rw [List.length_append] at lengths
    exact left (List.length_eq_zero_iff.mp (by omega))
  rw [List.takeWhile_append, if_neg shorter, List.dropWhile_append, if_neg (by simpa using left)]

theorem exponentSign_more {cs : List Char} (nonempty : cs ≠ []) (more : List Char) :
    exponentSign (cs ++ more) = ((exponentSign cs).1, (exponentSign cs).2 ++ more) := by
  obtain ⟨c, rest, rfl⟩ := List.exists_cons_of_ne_nil nonempty
  rw [List.cons_append]
  by_cases plus : c = '+'
  · subst plus
    rfl
  · by_cases minus : c = '-'
    · subst minus
      rfl
    · have none : ∀ {cs : List Char}, exponentSign (c :: cs) = ([], c :: cs) := by
        intro cs
        rw [exponentSign]
        · exact fun _ same => plus (List.cons.inj same).1
        · exact fun _ same => minus (List.cons.inj same).1
      rw [none, none]
      rfl

theorem numberSign_more {cs : List Char} (nonempty : cs ≠ []) (more : List Char) :
    numberSign (cs ++ more) = ((numberSign cs).1, (numberSign cs).2 ++ more) := by
  obtain ⟨c, rest, rfl⟩ := List.exists_cons_of_ne_nil nonempty
  rw [List.cons_append]
  by_cases minus : c = '-'
  · subst minus
    rfl
  · have none : ∀ {cs : List Char}, numberSign (c :: cs) = (false, c :: cs) := by
      intro cs
      rw [numberSign]
      exact fun _ same => minus (List.cons.inj same).1
    rw [none, none]
    rfl

theorem wholeDigits?_of_ne {c : Char} (nonzero : c ≠ '0') (cs : List Char) :
    wholeDigits? (c :: cs) = if (Decimal.spanDigits (c :: cs)).1.isEmpty then none
      else some (Decimal.spanDigits (c :: cs)) := by
  unfold wholeDigits?
  split
  · rename_i same
    exact absurd (List.cons.inj same).1 nonzero
  · match Decimal.spanDigits (c :: cs) with
    | ([], after) => rfl
    | (d :: ds, after) => rfl

theorem wholeDigits?_eq_some {cs ds rest : List Char} (read : wholeDigits? cs = some (ds, rest)) :
    ds ≠ [] ∧ cs = ds ++ rest := by
  unfold wholeDigits? at read
  split at read
  · cases read
    exact ⟨List.cons_ne_nil _ _, rfl⟩
  · split at read
    · cases read
    · rename_i nonempty
      have spanned := Option.some.inj read
      exact ⟨fun empty => nonempty rest (empty ▸ spanned), spanDigits_append spanned⟩

theorem leaves_wholeDigits {cs ds rest : List Char} (read : wholeDigits? cs = some (ds, rest)) :
    Leaves cs rest := ⟨ds, wholeDigits?_eq_some read⟩

theorem fractionPart_suffix (cs : List Char) : (fractionPart cs).2 <:+ cs := by
  unfold fractionPart
  split
  · rename_i after
    split
    · exact List.suffix_rfl
    · rename_i ds later _ spanned
      rw [spanDigits_append spanned]
      exact (List.suffix_append ds later).trans (List.suffix_cons ..)
  · exact List.suffix_rfl

theorem exponentSign_suffix (cs : List Char) : (exponentSign cs).2 <:+ cs := by
  unfold exponentSign
  split
  · exact List.suffix_cons ..
  · exact List.suffix_cons ..
  · exact List.suffix_rfl

theorem exponentPart_suffix (cs : List Char) : (exponentPart cs).2 <:+ cs := by
  unfold exponentPart
  split
  · rename_i c after
    split
    · simp only
      split
      · exact List.suffix_rfl
      · rename_i ds later _ spanned
        have body : later <:+ (exponentSign after).2 := by
          rw [spanDigits_append spanned]
          exact List.suffix_append ..
        exact (body.trans (exponentSign_suffix after)).trans (List.suffix_cons ..)
    · exact List.suffix_rfl
  · exact List.suffix_rfl

/-- A number that begins with digits, in terms of its parts. -/
theorem number_of_wholeDigits {cs whole rest : List Char}
    (digits : wholeDigits? (numberSign cs).2 = some (whole, rest)) :
    number cs = (numeral (numberSign cs).1 whole (fractionPart rest).1
      (exponentPart (fractionPart rest).2).1).map fun v => (v, (exponentPart (fractionPart rest).2).2) := by
  rw [number, digits]

theorem wholeDigits_of_number {cs rest : List Char} {v : Value} (read : number cs = .ok (v, rest)) :
    ∃ whole after, wholeDigits? (numberSign cs).2 = some (whole, after) := by
  cases digits : wholeDigits? (numberSign cs).2 with
  | none =>
    rw [number, digits] at read
    cases read
  | some found => exact ⟨found.1, found.2, rfl⟩

theorem numberSign_suffix (cs : List Char) : (numberSign cs).2 <:+ cs := by
  unfold numberSign
  split
  · exact List.suffix_cons ..
  · exact List.suffix_rfl

theorem leaves_number {cs rest : List Char} {v : Value} (read : number cs = .ok (v, rest)) :
    Leaves cs rest := by
  obtain ⟨whole, after, digits⟩ := wholeDigits_of_number read
  rw [number_of_wholeDigits digits] at read
  obtain ⟨w, -, same⟩ := ok_of_map read
  obtain ⟨-, left⟩ := Prod.mk.inj same
  have parts : rest <:+ after :=
    left ▸ (exponentPart_suffix _).trans (fractionPart_suffix _)
  exact .before (numberSign_suffix cs) ((leaves_wholeDigits digits).after parts)

theorem isNumber_of_number {cs rest : List Char} {v : Value}
    (read : number cs = .ok (v, rest)) : v.isNumber = true := by
  obtain ⟨whole, after, digits⟩ := wholeDigits_of_number read
  rw [number_of_wholeDigits digits] at read
  obtain ⟨w, made, same⟩ := ok_of_map read
  cases same
  unfold numeral at made
  split at made
  · split at made
    · cases made
    · cases made
      rfl
  · split at made
    · cases made
      rfl
    · cases made

theorem dropWord_append {word cs rest : List Char} (dropped : dropWord? word cs = some rest) :
    cs = word ++ rest := by
  induction word generalizing cs with
  | nil =>
    cases dropped
    rfl
  | cons w ws ih =>
    cases cs with
    | nil => cases dropped
    | cons c cs =>
      rw [dropWord?] at dropped
      split at dropped
      · rename_i same
        rw [ih dropped, same]
        rfl
      · cases dropped

theorem leaves_constant {cs rest : List Char} {v : Value} (found : constant? cs = some (v, rest)) :
    Leaves cs rest := by
  obtain ⟨⟨word, w⟩, member, dropped⟩ := List.exists_of_findSome?_eq_some found
  obtain ⟨after, kept, same⟩ := Option.map_eq_some_iff.mp dropped
  cases same
  have nonempty : ∀ p ∈ constants, p.1 ≠ [] := by decide
  exact ⟨word, nonempty _ member, dropWord_append kept⟩

/-! ## The steps of values -/

/-- What a list or an object goes on with after one of its parts: its end, or the next part. -/
def afterPart {α : Type} (closing : Char) (parts : α)
    (next : List Char → Except Fault (α × List Char)) : List Char → Except Fault (α × List Char)
  | [] => .error (.malformed .expectingComma 0)
  | c :: rest =>
    if c = closing then .ok (parts, rest)
    else if c = ',' then next (skipSpace rest)
    else .error (.malformed .expectingComma (rest.length + 1))

/-- What a list or an object begins with: its end, or its parts. -/
def opened {α : Type} (closing : Char) (empty : α)
    (parts : List Char → Except Fault (α × List Char)) : List Char → Except Fault (α × List Char)
  | [] => parts []
  | c :: rest => if c = closing then .ok (empty, rest) else parts (c :: rest)

/-- What an object goes on with after the name of a member. -/
def memberValue (fuel : Nat) (acc : List (String × Value)) (key : String) :
    List Char → Except Fault (List (String × Value) × List Char)
  | ':' :: rest =>
    match valueFrom fuel (skipSpace rest) with
    | .error e => .error e
    | .ok (v, rest) =>
      let acc := (key, v) :: acc
      afterPart '\x7d' acc.reverse (membersFrom fuel acc) (skipSpace rest)
  | rest => .error (.malformed .expectingColon rest.length)

/-- A value that is no string, object or list. -/
def scalar (cs : List Char) : Except Fault (Value × List Char) :=
  match constant? cs with
  | some found => .ok found
  | none => number cs

section

variable {α : Type} {closing : Char} {parts : α} {next : List Char → Except Fault (α × List Char)}
  {cs : List Char}

theorem afterPart_other (noEnd : ∀ rest, cs ≠ closing :: rest) (noComma : ∀ rest, cs ≠ ',' :: rest) :
    afterPart closing parts next cs = .error (.malformed .expectingComma cs.length) := by
  cases cs with
  | nil => rfl
  | cons c rest =>
    rw [afterPart, if_neg, if_neg]
    · rfl
    · exact fun same => noComma rest (same ▸ rfl)
    · exact fun same => noEnd rest (same ▸ rfl)

theorem opened_other (noEnd : ∀ rest, cs ≠ closing :: rest) :
    opened closing parts next cs = next cs := by
  cases cs with
  | nil => rfl
  | cons c rest => exact if_neg fun same => noEnd rest (congrArg (· :: rest) same)

end

theorem elementsFrom_succ (fuel : Nat) (acc : List Value) (cs : List Char) :
    elementsFrom (fuel + 1) acc cs = (valueFrom fuel cs).bind fun p =>
      afterPart ']' (p.1 :: acc).reverse (elementsFrom fuel (p.1 :: acc)) (skipSpace p.2) := by
  rw [elementsFrom]
  cases valueFrom fuel cs with
  | error e => rfl
  | ok p =>
    dsimp only [Except.bind]
    split
    · rename_i same
      rw [same]
      rfl
    · rename_i same
      rw [same]
      rfl
    · rename_i noEnd noComma
      exact (afterPart_other noEnd noComma).symm

theorem memberValue_colon (fuel : Nat) (acc : List (String × Value)) (key : String)
    (rest : List Char) :
    memberValue fuel acc key (':' :: rest) = (valueFrom fuel (skipSpace rest)).bind fun p =>
      afterPart '\x7d' ((key, p.1) :: acc).reverse (membersFrom fuel ((key, p.1) :: acc))
        (skipSpace p.2) := by
  rw [memberValue]
  cases valueFrom fuel (skipSpace rest) <;> rfl

theorem memberValue_other (fuel : Nat) (acc : List (String × Value)) (key : String) {cs : List Char}
    (noColon : ∀ rest, cs ≠ ':' :: rest) :
    memberValue fuel acc key cs = .error (.malformed .expectingColon cs.length) := by
  unfold memberValue
  split
  · exact absurd rfl (noColon _)
  · rfl

theorem membersFrom_succ (fuel : Nat) (acc : List (String × Value)) (rest : List Char) :
    membersFrom (fuel + 1) acc ('"' :: rest) = (string rest).bind fun p =>
      memberValue fuel acc p.1 (skipSpace p.2) := by
  rw [membersFrom]
  cases string rest with
  | error e => rfl
  | ok p =>
    dsimp only [Except.bind]
    split
    · rename_i later same
      rw [same, memberValue_colon]
      cases valueFrom fuel (skipSpace later) with
      | error e => rfl
      | ok q =>
        dsimp only [Except.bind]
        split
        · rename_i same
          rw [same]
          rfl
        · rename_i same
          rw [same]
          rfl
        · rename_i noEnd noComma
          exact (afterPart_other noEnd noComma).symm
    · rename_i noColon
      exact (memberValue_other _ _ _ noColon).symm

theorem membersFrom_other (fuel : Nat) (acc : List (String × Value)) {cs : List Char}
    (noName : ∀ rest, cs ≠ '"' :: rest) :
    membersFrom (fuel + 1) acc cs = .error (.malformed .expectingName cs.length) := by
  unfold membersFrom
  split
  · exact absurd rfl (noName _)
  · rfl

theorem valueFrom_string (fuel : Nat) (rest : List Char) :
    valueFrom (fuel + 1) ('"' :: rest) = (string rest).map fun p => (.text p.1, p.2) := by
  rw [valueFrom]

theorem valueFrom_object (fuel : Nat) (rest : List Char) :
    valueFrom (fuel + 1) ('\x7b' :: rest) = opened '\x7d' (.object [])
      (fun cs => (membersFrom fuel [] cs).map fun p => (.object (Value.ofPairs p.1), p.2))
      (skipSpace rest) := by
  rw [valueFrom]
  split
  · rename_i same
    rw [same]
    rfl
  · rename_i noEnd
    refine Eq.trans ?_ (opened_other noEnd).symm
    rfl

theorem valueFrom_list (fuel : Nat) (rest : List Char) :
    valueFrom (fuel + 1) ('[' :: rest) = opened ']' (.list [])
      (fun cs => (elementsFrom fuel [] cs).map fun p => (.list p.1, p.2)) (skipSpace rest) := by
  rw [valueFrom]
  split
  · rename_i same
    rw [same]
    rfl
  · rename_i noEnd
    refine Eq.trans ?_ (opened_other noEnd).symm
    rfl

theorem valueFrom_nil (fuel : Nat) : valueFrom fuel [] = .error (.malformed .expectingValue 0) := by
  cases fuel <;> rfl

theorem valueFrom_scalar (fuel : Nat) {c : Char} {rest : List Char} (noString : c ≠ '"')
    (noObject : c ≠ '\x7b') (noList : c ≠ '[') :
    valueFrom (fuel + 1) (c :: rest) = scalar (c :: rest) := by
  unfold valueFrom
  split
  · rename_i same
    cases same
  · rename_i same
    exact absurd (List.cons.inj same).1 noString
  · rename_i same
    exact absurd (List.cons.inj same).1 noObject
  · rename_i same
    exact absurd (List.cons.inj same).1 noList
  · rfl

/-! ## What values use up -/

/-- Three readers with the same steps leave something of every text that they read. -/
structure Leaving (fuel : Nat) : Prop where
  value : ∀ {cs v rest}, valueFrom fuel cs = .ok (v, rest) → Leaves cs rest
  members : ∀ {acc cs ms rest}, membersFrom fuel acc cs = .ok (ms, rest) → Leaves cs rest
  elements : ∀ {acc cs vs rest}, elementsFrom fuel acc cs = .ok (vs, rest) → Leaves cs rest

theorem leaves_afterPart {α : Type} {closing : Char} {parts a : α}
    {next : List Char → Except Fault (α × List Char)} {cs rest : List Char}
    (leaves : ∀ {cs}, next cs = .ok (a, rest) → Leaves cs rest)
    (read : afterPart closing parts next cs = .ok (a, rest)) : Leaves cs rest := by
  cases cs with
  | nil => cases read
  | cons c after =>
    rw [afterPart] at read
    split at read
    · cases read
      exact .one _ _
    · split at read
      · exact (Leaves.before (skipSpace_suffix _) (leaves read)).cons _
      · cases read

theorem opened_eq_ok {α : Type} {closing : Char} {empty a : α}
    {parts : List Char → Except Fault (α × List Char)} {cs rest : List Char}
    (read : opened closing empty parts cs = .ok (a, rest)) :
    (cs = closing :: rest ∧ a = empty) ∨ parts cs = .ok (a, rest) := by
  cases cs with
  | nil => exact .inr read
  | cons c after =>
    rw [opened] at read
    split at read
    · rename_i same
      cases read
      exact .inl ⟨same ▸ rfl, rfl⟩
    · exact .inr read

theorem leaves_opened {α : Type} {closing : Char} {empty a : α}
    {parts : List Char → Except Fault (α × List Char)} {cs rest : List Char}
    (leaves : parts cs = .ok (a, rest) → Leaves cs rest)
    (read : opened closing empty parts cs = .ok (a, rest)) : Leaves cs rest := by
  rcases opened_eq_ok read with ⟨rfl, -⟩ | read
  · exact .one _ _
  · exact leaves read

variable {fuel : Nat}

theorem Leaving.memberValue (leaving : Leaving fuel) {acc ms : List (String × Value)} {key : String}
    {cs rest : List Char} (read : Json.memberValue fuel acc key cs = .ok (ms, rest)) :
    Leaves cs rest := by
  by_cases colon : ∃ after, cs = ':' :: after
  · obtain ⟨after, rfl⟩ := colon
    rw [memberValue_colon] at read
    obtain ⟨p, first, later⟩ := ok_of_bind read
    have afterColon := Leaves.before (skipSpace_suffix _) (leaving.value first)
    have afterValue := Leaves.before (skipSpace_suffix _) (leaves_afterPart leaving.members later)
    exact (afterColon.trans afterValue).cons _
  · rw [memberValue_other _ _ _ fun after same => colon ⟨after, same⟩] at read
    cases read

theorem leaves_map {α β : Type} (f : α → β) {x : Except Fault (α × List Char)} {b : β}
    {cs rest : List Char} (leaves : ∀ {a}, x = .ok (a, rest) → Leaves cs rest)
    (read : (x.map fun p => (f p.1, p.2)) = .ok (b, rest)) : Leaves cs rest := by
  obtain ⟨p, found, same⟩ := ok_of_map read
  cases same
  exact leaves found

theorem leaves_scalar {cs rest : List Char} {v : Value} (read : scalar cs = .ok (v, rest)) :
    Leaves cs rest := by
  unfold scalar at read
  split at read
  · rename_i found
    cases read
    exact leaves_constant found
  · exact leaves_number read

/-- A value begins with what tells of which kind it is. -/
theorem firstChar_cases {motive : List Char → Prop} (cs : List Char) (nil : motive [])
    (string : ∀ rest, motive ('"' :: rest)) (object : ∀ rest, motive ('\x7b' :: rest))
    (list : ∀ rest, motive ('[' :: rest))
    (scalar : ∀ c rest, c ≠ '"' → c ≠ '\x7b' → c ≠ '[' → motive (c :: rest)) : motive cs := by
  cases cs with
  | nil => exact nil
  | cons c rest =>
    by_cases isString : c = '"'
    · exact isString ▸ string rest
    · by_cases isObject : c = '\x7b'
      · exact isObject ▸ object rest
      · by_cases isList : c = '['
        · exact isList ▸ list rest
        · exact scalar c rest isString isObject isList

/-- Readers that succeed use up characters, however many steps they have. -/
theorem leaving : (fuel : Nat) → Leaving fuel
  | 0 => ⟨fun read => (nomatch read), fun read => (nomatch read), fun read => (nomatch read)⟩
  | fuel + 1 => by
    have inner := leaving fuel
    refine ⟨@fun cs v rest read => ?_, @fun acc cs ms rest read => ?_, @fun acc cs vs rest read => ?_⟩
    · induction cs using firstChar_cases with
      | nil =>
        rw [valueFrom_nil] at read
        cases read
      | string after =>
        rw [valueFrom_string] at read
        exact leaves_map Value.text (fun text => (leaves_string text).cons _) read
      | object after =>
        rw [valueFrom_object] at read
        have body := leaves_opened
          (leaves_map (fun ms => Value.object (Value.ofPairs ms)) inner.members) read
        exact (Leaves.before (skipSpace_suffix _) body).cons _
      | list after =>
        rw [valueFrom_list] at read
        have body := leaves_opened (leaves_map Value.list inner.elements) read
        exact (Leaves.before (skipSpace_suffix _) body).cons _
      | scalar c after noString noObject noList =>
        rw [valueFrom_scalar _ noString noObject noList] at read
        exact leaves_scalar read
    · by_cases named : ∃ after, cs = '"' :: after
      · obtain ⟨after, rfl⟩ := named
        rw [membersFrom_succ] at read
        obtain ⟨p, name, later⟩ := ok_of_bind read
        have afterName := Leaves.before (skipSpace_suffix _) (inner.memberValue later)
        exact ((leaves_string name).trans afterName).cons _
      · rw [membersFrom_other _ _ fun after same => named ⟨after, same⟩] at read
        cases read
    · rw [elementsFrom_succ] at read
      obtain ⟨p, element, later⟩ := ok_of_bind read
      have afterElement := leaves_afterPart inner.elements later
      exact (inner.value element).trans (Leaves.before (skipSpace_suffix _) afterElement)

/-- A value that is read uses up characters. -/
theorem leaves_value {cs rest : List Char} {v : Value} (read : value cs = .ok (v, rest)) :
    Leaves cs rest := (leaving _).value read

theorem closed_afterPart {ms parts : List (String × Value)} {cs rest : List Char}
    {next : List Char → Except Fault (List (String × Value) × List Char)}
    (closed : ∀ {cs}, next cs = .ok (ms, rest) → '\x7d' :: rest <:+ cs)
    (read : afterPart '\x7d' parts next cs = .ok (ms, rest)) : '\x7d' :: rest <:+ cs := by
  cases cs with
  | nil => cases read
  | cons c after =>
    rw [afterPart] at read
    split at read
    · rename_i brace
      cases read
      exact brace ▸ List.suffix_rfl
    · split at read
      · exact ((closed read).trans (skipSpace_suffix after)).trans (List.suffix_cons ..)
      · cases read

theorem closed_membersFrom {acc ms : List (String × Value)} {cs rest : List Char}
    (read : membersFrom fuel acc cs = .ok (ms, rest)) : '\x7d' :: rest <:+ cs := by
  induction fuel generalizing acc cs with
  | zero => cases read
  | succ fuel ih =>
    by_cases named : ∃ after, cs = '"' :: after
    · obtain ⟨after, rfl⟩ := named
      rw [membersFrom_succ] at read
      obtain ⟨p, name, later⟩ := ok_of_bind read
      have afterName := ((skipSpace_suffix p.2).trans (leaves_string name).suffix).trans
        (List.suffix_cons '"' after)
      by_cases colon : ∃ more, skipSpace p.2 = ':' :: more
      · obtain ⟨more, same⟩ := colon
        rw [same] at afterName later
        rw [memberValue_colon] at later
        obtain ⟨q, member, last⟩ := ok_of_bind later
        have closed := (closed_afterPart ih last).trans (skipSpace_suffix q.2)
        have afterColon := ((leaving fuel).value member).suffix.trans (skipSpace_suffix more)
        exact ((closed.trans afterColon).trans (List.suffix_cons ':' more)).trans afterName
      · rw [memberValue_other _ _ _ fun more same => colon ⟨more, same⟩] at later
        cases later
    · rw [membersFrom_other _ _ fun after same => named ⟨after, same⟩] at read
      cases read

theorem scalar_ne_object {cs rest : List Char} {fields : Value.Fields} :
    scalar cs ≠ .ok (.object fields, rest) := by
  intro read
  unfold scalar at read
  split at read
  · rename_i found
    cases read
    obtain ⟨⟨word, w⟩, member, dropped⟩ := List.exists_of_findSome?_eq_some found
    obtain ⟨after, -, same⟩ := Option.map_eq_some_iff.mp dropped
    have noObject : ∀ p ∈ constants, ∀ fields, p.2 ≠ .object fields := by simp [constants]
    exact noObject _ member fields (Prod.mk.inj same).1
  · cases isNumber_of_number read

/-- An object ends with a closing brace: what it leaves stands after one. -/
theorem closed_value {cs rest : List Char} {fields : Value.Fields}
    (read : value cs = .ok (.object fields, rest)) : '\x7d' :: rest <:+ cs := by
  rw [value] at read
  induction cs using firstChar_cases with
  | nil =>
    rw [valueFrom_nil] at read
    cases read
  | string after =>
    rw [valueFrom_string] at read
    obtain ⟨p, -, same⟩ := ok_of_map read
    cases same
  | object after =>
    rw [valueFrom_object] at read
    refine List.IsSuffix.trans ?_ ((skipSpace_suffix after).trans (List.suffix_cons ..))
    rcases opened_eq_ok read with ⟨same, -⟩ | inner
    · exact same ▸ List.suffix_rfl
    · obtain ⟨p, members, same⟩ := ok_of_map inner
      cases same
      exact closed_membersFrom members
  | list after =>
    rw [valueFrom_list] at read
    rcases opened_eq_ok read with ⟨-, same⟩ | inner
    · cases same
    · obtain ⟨p, -, same⟩ := ok_of_map inner
      cases same
  | scalar c after noString noObject noList =>
    rw [valueFrom_scalar _ noString noObject noList] at read
    exact absurd read scalar_ne_object

/-- An object begins with an opening brace. -/
theorem opened_value {cs rest : List Char} {fields : Value.Fields}
    (read : value cs = .ok (.object fields, rest)) : ∃ after, cs = '\x7b' :: after := by
  rw [value] at read
  induction cs using firstChar_cases with
  | nil =>
    rw [valueFrom_nil] at read
    cases read
  | string after =>
    rw [valueFrom_string] at read
    obtain ⟨p, -, same⟩ := ok_of_map read
    cases same
  | object after => exact ⟨after, rfl⟩
  | list after =>
    rw [valueFrom_list] at read
    rcases opened_eq_ok read with ⟨-, same⟩ | inner
    · cases same
    · obtain ⟨p, -, same⟩ := ok_of_map inner
      cases same
  | scalar c after noString noObject noList =>
    rw [valueFrom_scalar _ noString noObject noList] at read
    exact absurd read scalar_ne_object

/-! ## Steps that are enough -/

theorem bind_congr_of_ok {α β : Type} {x : Except Fault α} {f g : α → Except Fault β}
    (same : ∀ a, x = .ok a → f a = g a) : x.bind f = x.bind g := by
  cases x with
  | error e => rfl
  | ok a => exact same a rfl

/-- With `m` steps nothing else is read than with `n` steps, if these are enough for the text. -/
structure Enough (n m : Nat) : Prop where
  value : ∀ cs, 2 * cs.length < n → valueFrom n cs = valueFrom m cs
  members : ∀ acc cs, 2 * cs.length < n → membersFrom n acc cs = membersFrom m acc cs
  elements : ∀ acc cs, 2 * cs.length + 1 < n → elementsFrom n acc cs = elementsFrom m acc cs

variable {n m : Nat}

theorem length_skipSpace_le (cs : List Char) : (skipSpace cs).length ≤ cs.length :=
  (skipSpace_suffix cs).length_le

theorem afterPart_congr {α : Type} (closing : Char) (parts : α)
    {next next' : List Char → Except Fault (α × List Char)} {cs : List Char}
    (same : ∀ rest, rest.length < cs.length → next rest = next' rest) :
    afterPart closing parts next cs = afterPart closing parts next' cs := by
  cases cs with
  | nil => rfl
  | cons c rest =>
    have shorter := length_skipSpace_le rest
    rw [afterPart, afterPart, same (skipSpace rest) (by rw [List.length_cons]; omega)]

theorem opened_congr {α : Type} (closing : Char) (empty : α)
    {parts parts' : List Char → Except Fault (α × List Char)} {cs : List Char}
    (same : parts cs = parts' cs) : opened closing empty parts cs = opened closing empty parts' cs := by
  cases cs with
  | nil => exact same
  | cons c rest => rw [opened, opened, same]

theorem Enough.memberValue (enough : Enough n m) (acc : List (String × Value)) (key : String)
    {cs : List Char} (short : 2 * cs.length ≤ n) :
    Json.memberValue n acc key cs = Json.memberValue m acc key cs := by
  by_cases colon : ∃ rest, cs = ':' :: rest
  · obtain ⟨rest, rfl⟩ := colon
    have skipped := length_skipSpace_le rest
    rw [List.length_cons] at short
    rw [memberValue_colon, memberValue_colon, ← enough.value (skipSpace rest) (by omega)]
    refine bind_congr_of_ok fun p read => afterPart_congr _ _ fun cs shorter => ?_
    have used := ((leaving n).value read).length_lt
    have := length_skipSpace_le p.2
    exact enough.members _ _ (by omega)
  · have other : ∀ rest, cs ≠ ':' :: rest := fun rest same => colon ⟨rest, same⟩
    rw [memberValue_other _ _ _ other, memberValue_other _ _ _ other]

theorem enough : (n m : Nat) → n ≤ m → Enough n m
  | 0, _, _ => ⟨fun _ few => absurd few (by omega), fun _ _ few => absurd few (by omega),
      fun _ _ few => absurd few (by omega)⟩
  | n + 1, 0, more => absurd more (by omega)
  | n + 1, m + 1, more => by
    have inner := enough n m (by omega)
    refine ⟨fun cs short => ?_, fun acc cs short => ?_, fun acc cs short => ?_⟩
    · induction cs using firstChar_cases with
      | nil => rw [valueFrom_nil, valueFrom_nil]
      | string after => rw [valueFrom_string, valueFrom_string]
      | object after =>
        have skipped := length_skipSpace_le after
        rw [List.length_cons] at short
        rw [valueFrom_object, valueFrom_object]
        exact opened_congr _ _ (by rw [inner.members _ _ (by omega)])
      | list after =>
        have skipped := length_skipSpace_le after
        rw [List.length_cons] at short
        rw [valueFrom_list, valueFrom_list]
        exact opened_congr _ _ (by rw [inner.elements _ _ (by omega)])
      | scalar c after noString noObject noList =>
        rw [valueFrom_scalar _ noString noObject noList,
          valueFrom_scalar _ noString noObject noList]
    · by_cases named : ∃ after, cs = '"' :: after
      · obtain ⟨after, rfl⟩ := named
        rw [List.length_cons] at short
        rw [membersFrom_succ, membersFrom_succ]
        refine bind_congr_of_ok fun p read => inner.memberValue _ _ ?_
        have used := (leaves_string read).length_lt
        have := length_skipSpace_le p.2
        omega
      · have other : ∀ after, cs ≠ '"' :: after := fun after same => named ⟨after, same⟩
        rw [membersFrom_other _ _ other, membersFrom_other _ _ other]
    · rw [elementsFrom_succ, elementsFrom_succ, inner.value cs (by omega)]
      refine bind_congr_of_ok fun p read => afterPart_congr _ _ fun cs shorter => ?_
      have used := ((leaving m).value read).length_lt
      have := length_skipSpace_le p.2
      exact inner.elements _ _ (by omega)

/-- A value is read in any number of steps that is enough for the text. -/
theorem valueFrom_eq_value {cs : List Char} {fuel : Nat} (many : 2 * cs.length < fuel) :
    valueFrom fuel cs = value cs := by
  have least := fun k (more : 2 * cs.length + 1 ≤ k) =>
    (enough (2 * cs.length + 1) k more).value cs (by omega)
  rw [value, ← least fuel many]
  exact least _ (by omega)

end SchemaOnRead.Json
