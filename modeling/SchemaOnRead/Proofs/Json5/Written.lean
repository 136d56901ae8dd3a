import SchemaOnRead.Json5.Reader
import SchemaOnRead.Proofs.Json.Written

/-!
# Documents that are written and read again

The lenient reader of documents undoes the strict writer: a value made of objects, lists, texts and
truth values is read again from its indented text (`read_pretty`), whatever its texts hold.
-/

namespace SchemaOnRead.Json5

open Text

/-! ## Hexadecimal digits -/

theorem hexDigit?_digitChar : ∀ d < 16, Json.hexDigit? d.digitChar = some d := by decide

theorem hexDigits_one {n : Nat} (small : n < 16) : Text.hexDigits 1 n = [n.digitChar] := by
  simp [Text.hexDigits, Nat.toDigits_of_lt_base small]

/-- The last of several hexadecimal digits stands for the number's remainder. -/
theorem hexDigits_succ {width : Nat} (some : 0 < width) (n : Nat) :
    Text.hexDigits (width + 1) n = Text.hexDigits width (n / 16) ++ [(n % 16).digitChar] := by
  by_cases small : n < 16
  · have zero : n / 16 = 0 := Nat.div_eq_of_lt small
    have whole : width - 1 + 1 = width := by omega
    simp only [Text.hexDigits, Nat.toDigits_of_lt_base small, zero, Nat.mod_eq_of_lt small,
      Nat.toDigits_zero, List.length_cons, List.length_nil, Nat.zero_add, Nat.add_sub_cancel]
    rw [← List.replicate_succ', whole]
  · rw [Text.hexDigits, Text.hexDigits, Nat.toDigits_of_base_le (by decide) (by omega)]
    simp [List.append_assoc]

/-- One digit more is read after some digits. -/
theorem hexDigits_concat {count m n d : Nat} {cs rest : List Char} {c : Char}
    (read : hexDigits count m cs = .ok (n, c :: rest)) (digit : Json.hexDigit? c = some d) :
    hexDigits (count + 1) m cs = .ok (16 * n + d, rest) := by
  induction count generalizing m cs with
  | zero =>
    cases read
    rw [hexDigits, digit]
    rfl
  | succ count ih =>
    cases cs with
    | nil => cases read
    | cons c' cs =>
      rw [hexDigits] at read ⊢
      cases first : Json.hexDigit? c' with
      | none =>
        rw [first] at read
        cases read
      | some d' =>
        rw [first] at read
        exact ih read

/-- Hexadecimal digits are read as the number that they were written for. -/
theorem hexDigits_written {count n : Nat} (small : n < 16 ^ (count + 1)) (rest : List Char) :
    hexDigits (count + 1) 0 (Text.hexDigits (count + 1) n ++ rest) = .ok (n, rest) := by
  induction count generalizing n rest with
  | zero =>
    have digit := hexDigit?_digitChar n small
    simp [hexDigits_one small, hexDigits, digit]
  | succ count ih =>
    have shorter : n / 16 < 16 ^ (count + 1) := Nat.div_lt_of_lt_mul (by rwa [Nat.pow_succ'] at small)
    have digit := hexDigit?_digitChar (n % 16) (Nat.mod_lt n (by decide))
    rw [hexDigits_succ (Nat.succ_pos count), List.append_assoc, List.singleton_append,
      hexDigits_concat (ih shorter _) digit, Nat.div_add_mod]

theorem hexDigits_four {n : Nat} (small : n < 0x10000) (rest : List Char) :
    hexDigits 4 0 (Text.hexDigits 4 n ++ rest) = .ok (n, rest) := by
  have power : n < 16 ^ (3 + 1) := by simpa using small
  exact hexDigits_written power rest

/-! ## Texts -/

/-- A character of one code unit is read from its digits. -/
theorem unicodeEscape_single {c : Char} (small : c.toNat < 0x10000) (rest : List Char) :
    unicodeEscape (Text.hexDigits 4 c.toNat ++ rest) = .ok (c, rest) := by
  have valid := toNat_of_isValid c
  have single : ¬ Json.isHighSurrogate c.toNat = true := by
    rw [Json.isHighSurrogate_iff]
    omega
  rw [unicodeEscape, hexDigits_four small]
  simp [bind, Except.bind, single, Json.unitChar_toNat, pure, Except.pure]

/-- Two code units that are the halves of a pair are read as one character. -/
theorem unicodeEscape_halves {n m : Nat} (high : Json.isHighSurrogate n = true)
    (low : Json.isLowSurrogate m = true) (rest : List Char) :
    unicodeEscape (Text.hexDigits 4 n ++ '\\' :: 'u' :: (Text.hexDigits 4 m ++ rest)) =
      .ok (Char.ofNat (0x10000 + (n - 0xD800) * 0x400 + (m - 0xDC00)), rest) := by
  have small : n < 0x10000 := Nat.lt_of_le_of_lt (Json.isHighSurrogate_iff.mp high).2 (by decide)
  have small' : m < 0x10000 := Nat.lt_of_le_of_lt (Json.isLowSurrogate_iff.mp low).2 (by decide)
  rw [unicodeEscape, hexDigits_four small]
  simp only [bind, Except.bind, high, if_true]
  rw [hexDigits_four small']
  simp only [low, if_true]
  rfl

/-- A character of two code units is read from the digits of both. -/
theorem unicodeEscape_pair {c : Char} (large : ¬ c.toNat < 0x10000) (rest : List Char) :
    unicodeEscape (Text.hexDigits 4 (0xD800 + (c.toNat - 0x10000) / 0x400) ++
      '\\' :: 'u' :: (Text.hexDigits 4 (0xDC00 + (c.toNat - 0x10000) % 0x400) ++ rest)) =
      .ok (c, rest) := by
  have valid := toNat_of_isValid c
  have high : Json.isHighSurrogate (0xD800 + (c.toNat - 0x10000) / 0x400) = true :=
    Json.isHighSurrogate_iff.mpr (by omega)
  have low : Json.isLowSurrogate (0xDC00 + (c.toNat - 0x10000) % 0x400) = true :=
    Json.isLowSurrogate_iff.mpr (by omega)
  have number : 0x10000 + (0xD800 + (c.toNat - 0x10000) / 0x400 - 0xD800) * 0x400 +
      (0xDC00 + (c.toNat - 0x10000) % 0x400 - 0xDC00) = c.toNat := by
    omega
  rw [unicodeEscape_halves high low, number, Char.ofNat_toNat]

theorem unitEscape_eq (c : Char) : Json.unitEscape c =
    if c.toNat < 0x10000 then '\\' :: 'u' :: Text.hexDigits 4 c.toNat
    else '\\' :: 'u' :: Text.hexDigits 4 (0xD800 + (c.toNat - 0x10000) / 0x400) ++
      '\\' :: 'u' :: Text.hexDigits 4 (0xDC00 + (c.toNat - 0x10000) % 0x400) := rfl

/-- A character is read from the escape of its code units. -/
theorem unicodeEscape_unitEscape (c : Char) (rest : List Char) : ∃ digits,
    Json.unitEscape c ++ rest = '\\' :: 'u' :: digits ∧ unicodeEscape digits = .ok (c, rest) := by
  rw [unitEscape_eq]
  by_cases small : c.toNat < 0x10000
  · rw [if_pos small, List.cons_append, List.cons_append]
    exact ⟨_, rfl, unicodeEscape_single small rest⟩
  · rw [if_neg small, List.append_assoc, List.cons_append, List.cons_append, List.cons_append,
      List.cons_append]
    exact ⟨_, rfl, unicodeEscape_pair small rest⟩

theorem escape_letter : ∀ p ∈ Json.letters, ∀ rest, escape (p.1 :: rest) = .ok (some p.2, rest) := by
  simp only [Json.letters, List.forall_mem_cons]
  exact ⟨fun _ => rfl, fun _ => rfl, fun _ => rfl, fun _ => rfl, fun _ => rfl, fun _ => rfl,
    fun _ => rfl, fun _ none => absurd none List.not_mem_nil⟩

theorem isLineEnd_of_ascii : ∀ n < 128, 32 ≤ n → isLineEnd (Char.ofNat n) = false := by decide

/-- A character is written with the letter of its escape, by its code units, or as it stands. -/
theorem asciiChar_cases (c : Char) :
    (∃ p ∈ Json.letters, p.2 = c ∧ Json.asciiChar c = ['\\', p.1]) ∨
      Json.asciiChar c = Json.unitEscape c ∨
      (c ≠ '"' ∧ c ≠ '\\' ∧ isLineEnd c = false ∧ Json.asciiChar c = [c]) := by
  rw [Json.asciiChar]
  rcases Json.escape?_cases c with ⟨p, member, same, written⟩ | ⟨small, written⟩ |
    ⟨quote, escape, large, written⟩
  · exact .inl ⟨p, member, same, by rw [written, Option.getD_some]⟩
  · refine .inr (.inl ?_)
    rw [written, Option.getD_some, unitEscape_eq, if_pos (by omega)]
  · rw [written, Option.getD_none]
    by_cases ascii : c.toNat < 128
    · have inside := isLineEnd_of_ascii c.toNat ascii (by omega)
      rw [Char.ofNat_toNat] at inside
      exact .inr (.inr ⟨quote, escape, inside, if_pos ascii⟩)
    · exact .inr (.inl (if_neg ascii))

theorem asciiChar_ne_nil (c : Char) : Json.asciiChar c ≠ [] := by
  rcases asciiChar_cases c with ⟨p, -, -, written⟩ | written | ⟨-, -, -, written⟩
  · simp [written]
  · obtain ⟨digits, same, -⟩ := unicodeEscape_unitEscape c []
    rw [List.append_nil] at same
    simp [written, same]
  · simp [written]

theorem stringFrom_plain (fuel : Nat) (acc rest : List Char) {quote c : Char} (noQuote : c ≠ quote)
    (noEscape : c ≠ '\\') (inside : isLineEnd c = false) :
    stringFrom quote (fuel + 1) acc (c :: rest) = stringFrom quote fuel (c :: acc) rest := by
  rw [stringFrom, if_neg noQuote, if_neg (by simp [inside])]
  exact noEscape

/-- A character that is written is read as itself. -/
theorem stringFrom_asciiChar (fuel : Nat) (acc : List Char) (c : Char) (rest : List Char) :
    stringFrom '"' (fuel + 1) acc (Json.asciiChar c ++ rest) = stringFrom '"' fuel (c :: acc) rest := by
  rcases asciiChar_cases c with ⟨p, member, rfl, written⟩ | written | ⟨quote, noEscape, inside, written⟩
  · rw [written, List.cons_append, stringFrom, List.singleton_append, escape_letter p member]
  · obtain ⟨digits, same, read⟩ := unicodeEscape_unitEscape c rest
    rw [written, same, stringFrom, escape, read, Except.map]
  · rw [written, List.singleton_append]
    exact stringFrom_plain fuel acc rest quote noEscape inside

theorem stringFrom_written (cs acc rest : List Char) {fuel : Nat} (many : cs.length < fuel) :
    stringFrom '"' fuel acc (cs.flatMap Json.asciiChar ++ '"' :: rest) =
      .ok (String.ofList (acc.reverse ++ cs), rest) := by
  induction cs generalizing acc fuel with
  | nil =>
    obtain ⟨fuel, rfl⟩ := Nat.exists_eq_add_one_of_ne_zero (Nat.ne_of_gt many)
    rw [List.append_nil]
    rfl
  | cons c cs ih =>
    obtain ⟨fuel, rfl⟩ := Nat.exists_eq_add_one_of_ne_zero (Nat.ne_of_gt (Nat.zero_lt_of_lt many))
    rw [List.flatMap_cons, List.append_assoc, stringFrom_asciiChar,
      ih (c :: acc) (Nat.lt_of_succ_lt_succ many), List.reverse_cons, List.append_assoc]
    rfl

/-- A text that is written is read as itself. -/
theorem string_written (s : String) (rest : List Char) :
    string '"' (s.toList.flatMap Json.asciiChar ++ '"' :: rest) = .ok (s, rest) := by
  have length := Json.length_le_flatMap asciiChar_ne_nil s.toList
  rw [string, stringFrom_written, List.reverse_nil, List.nil_append, String.ofList_toList]
  rw [List.length_append, List.length_cons]
  omega

/-! ## Blanks -/

/-- A character that begins a value or a name, or goes on after one: no blank, and no comment. -/
def IsSolid (c : Char) : Prop := isSpace c = false ∧ c ≠ '/'

instance (c : Char) : Decidable (IsSolid c) :=
  inferInstanceAs (Decidable (isSpace c = false ∧ c ≠ '/'))

theorem skipFrom_cons (fuel : Nat) {c : Char} (noComment : c ≠ '/') (rest : List Char) :
    skipFrom (fuel + 1) (c :: rest) = if isSpace c then skipFrom fuel rest else .ok (c :: rest) := by
  conv_lhs => unfold skipFrom
  split
  · rename_i same
    exact absurd (List.cons.inj same).1 noComment
  · rename_i same
    exact absurd (List.cons.inj same).1 noComment
  · rename_i same
    exact absurd (List.cons.inj same).1 noComment
  · rename_i same
    cases same
    rfl
  · rename_i same
    cases same

theorem skip_blanks {blanks : List Char} (spaces : ∀ c ∈ blanks, isSpace c = true) {c : Char}
    (solid : IsSolid c) (rest : List Char) : skip (blanks ++ c :: rest) = .ok (c :: rest) := by
  have each : ∀ fuel, blanks.length < fuel →
      skipFrom fuel (blanks ++ c :: rest) = .ok (c :: rest) := by
    intro fuel many
    induction blanks generalizing fuel with
    | nil =>
      obtain ⟨fuel, rfl⟩ := Nat.exists_eq_add_one_of_ne_zero (Nat.ne_of_gt many)
      rw [List.nil_append, skipFrom_cons fuel solid.2, if_neg (by simp [solid.1])]
    | cons b blanks ih =>
      obtain ⟨fuel, rfl⟩ := Nat.exists_eq_add_one_of_ne_zero (Nat.ne_of_gt (Nat.zero_lt_of_lt many))
      obtain ⟨space, spaces⟩ := List.forall_mem_cons.mp spaces
      have noComment : b ≠ '/' := by
        rintro rfl
        exact absurd space (by decide)
      rw [List.cons_append, skipFrom_cons fuel noComment, if_pos space]
      exact ih spaces fuel (Nat.lt_of_succ_lt_succ many)
  apply each
  rw [List.length_append]
  omega

theorem skip_solid {c : Char} (solid : IsSolid c) (rest : List Char) :
    skip (c :: rest) = .ok (c :: rest) := @skip_blanks [] (by simp) c solid rest

theorem isSpace_of_mem_lineBreak {depth : Nat} : ∀ c ∈ Json.lineBreak depth, isSpace c = true := by
  intro c member
  rcases List.mem_cons.mp member with rfl | indentation
  · decide
  · rw [List.eq_of_mem_replicate indentation]
    decide

theorem skip_lineBreak (depth : Nat) {c : Char} (solid : IsSolid c) (rest : List Char) :
    skip (Json.lineBreak depth ++ c :: rest) = .ok (c :: rest) :=
  skip_blanks isSpace_of_mem_lineBreak solid rest

/-! ## Lists and objects -/

section

variable {fuel : Nat} {v : Value} {c : Char} {cs more after rest : List Char}

theorem elementsFrom_last {acc : List Value} (skipped : skip cs = .ok (c :: more)) (noEnd : c ≠ ']')
    (read : valueFrom fuel (c :: more) = .ok (v, after)) (next : skip after = .ok (']' :: rest)) :
    elementsFrom (fuel + 1) acc cs = .ok ((v :: acc).reverse, rest) := by
  rw [elementsFrom, skipped]
  simp only [bind, Except.bind]
  split
  · rename_i same
    exact absurd (List.cons.inj same).1 noEnd
  · simp only [read, next]
    rfl

theorem elementsFrom_next {acc : List Value} (skipped : skip cs = .ok (c :: more)) (noEnd : c ≠ ']')
    (read : valueFrom fuel (c :: more) = .ok (v, after)) (next : skip after = .ok (',' :: rest)) :
    elementsFrom (fuel + 1) acc cs = elementsFrom fuel (v :: acc) rest := by
  rw [elementsFrom, skipped]
  simp only [bind, Except.bind]
  split
  · rename_i same
    exact absurd (List.cons.inj same).1 noEnd
  · simp only [read, next]

variable {key : String} {named valued inner : List Char}

theorem membersFrom_last {acc : List (String × Value)} (skipped : skip cs = .ok ('"' :: more))
    (name : string '"' more = .ok (key, named)) (colon : skip named = .ok (':' :: valued))
    (value : skip valued = .ok (c :: inner)) (read : valueFrom fuel (c :: inner) = .ok (v, after))
    (next : skip after = .ok ('\x7d' :: rest)) :
    membersFrom (fuel + 1) acc cs = .ok (((key, v) :: acc).reverse, rest) := by
  have quoted : Json5.name ('"' :: more) = .ok (key, named) := name
  rw [membersFrom, skipped]
  simp only [bind, Except.bind]
  split
  · rename_i same
    exact absurd (List.cons.inj same).1 (by decide)
  · simp only [quoted, colon, value, read, next]
    rfl

theorem membersFrom_next {acc : List (String × Value)} (skipped : skip cs = .ok ('"' :: more))
    (name : string '"' more = .ok (key, named)) (colon : skip named = .ok (':' :: valued))
    (value : skip valued = .ok (c :: inner)) (read : valueFrom fuel (c :: inner) = .ok (v, after))
    (next : skip after = .ok (',' :: rest)) :
    membersFrom (fuel + 1) acc cs = membersFrom fuel ((key, v) :: acc) rest := by
  have quoted : Json5.name ('"' :: more) = .ok (key, named) := name
  rw [membersFrom, skipped]
  simp only [bind, Except.bind]
  split
  · rename_i same
    exact absurd (List.cons.inj same).1 (by decide)
  · simp only [quoted, colon, value, read, next]

end

/-! ## Values -/

/-- Values made of objects, lists, texts and truth values; no object has two fields of one name. -/
inductive Plain : Value → Prop where
  | bool (b : Bool) : Plain (.bool b)
  | text (s : String) : Plain (.text s)
  | list {items : List Value} (inner : ∀ v ∈ items, Plain v) : Plain (.list items)
  | object {fields : Value.Fields} (distinct : (Value.keys fields).Nodup)
    (inner : ∀ p ∈ fields, Plain p.2) : Plain (.object fields)

/-- A value is read from its text, whatever the depth at which it is written and whatever comes
after it. -/
structure Rereads (v : Value) : Prop where
  begins : ∀ depth, ∃ c more, Json.prettyChars depth v = c :: more ∧ IsSolid c ∧ c ≠ ']'
  read : ∀ depth rest {fuel}, (Json.prettyChars depth v).length ≤ fuel →
    valueFrom fuel (Json.prettyChars depth v ++ rest) = .ok (v, rest)

theorem rereads_bool (b : Bool) : Rereads (.bool b) := by
  refine ⟨fun depth => ?_, fun depth rest fuel many => ?_⟩
  · cases b
    · exact ⟨'f', _, rfl, by decide, by decide⟩
    · exact ⟨'t', _, rfl, by decide, by decide⟩
  · cases fuel with
    | zero => cases b <;> simp [Json.prettyChars] at many
    | succ fuel => cases b <;> rfl

theorem stringWith_append (s : String) (rest : List Char) :
    Json.stringWith Json.asciiChar s ++ rest =
      '"' :: (s.toList.flatMap Json.asciiChar ++ '"' :: rest) := by
  simp [Json.stringWith]

theorem rereads_text (s : String) : Rereads (.text s) := by
  refine ⟨fun depth => ⟨'"', _, by rw [Json.prettyChars, Json.stringWith]; rfl, by decide, by decide⟩, ?_⟩
  intro depth rest fuel many
  rw [Json.prettyChars] at many ⊢
  cases fuel with
  | zero => simp [Json.stringWith] at many
  | succ fuel =>
    rw [stringWith_append, valueFrom, string_written]
    rfl

theorem prettyItems_cons (depth : Nat) (v : Value) {rest : List Value} (some : rest ≠ []) :
    Json.prettyItems depth (v :: rest) = Json.lineBreak depth ++ Json.prettyChars depth v ++
      ',' :: Json.prettyItems depth rest := by
  cases rest with
  | nil => exact absurd rfl some
  | cons w rest => rw [Json.prettyItems]; simp

/-- The items of a list are read up to its end, by induction on the items. -/
theorem elementsFrom_written {items : List Value} (some : items ≠ []) (each : ∀ v ∈ items, Rereads v)
    (depth outer : Nat) (acc : List Value) (rest : List Char) {fuel : Nat}
    (many : (Json.prettyItems depth items).length < fuel) :
    elementsFrom fuel acc (Json.prettyItems depth items ++ (Json.lineBreak outer ++ ']' :: rest)) =
      .ok (acc.reverse ++ items, rest) := by
  induction items generalizing acc fuel with
  | nil => exact absurd rfl some
  | cons v items ih =>
    obtain ⟨fuel, rfl⟩ := Nat.exists_eq_add_one_of_ne_zero (Nat.ne_of_gt (Nat.zero_lt_of_lt many))
    obtain ⟨first, others⟩ := List.forall_mem_cons.mp each
    obtain ⟨c, more, shape, solid, noEnd⟩ := first.begins depth
    have skipped : ∀ tail, skip (Json.lineBreak depth ++ (Json.prettyChars depth v ++ tail)) =
        .ok (c :: (more ++ tail)) := by
      intro tail
      rw [shape]
      exact skip_lineBreak depth solid (more ++ tail)
    have read : (Json.prettyChars depth v).length ≤ fuel → ∀ tail,
        valueFrom fuel (c :: (more ++ tail)) = .ok (v, tail) := by
      intro enough tail
      have found := first.read depth tail enough
      rwa [shape] at found
    by_cases last : items = []
    · subst last
      rw [Json.prettyItems, List.length_append] at many
      rw [Json.prettyItems, List.append_assoc, elementsFrom_last (skipped _) noEnd
        (read (by omega) _) (skip_lineBreak outer (by decide) rest)]
      rw [List.reverse_cons]
    · rw [prettyItems_cons depth v last, List.length_append, List.length_append, List.length_cons]
        at many
      rw [prettyItems_cons depth v last, List.append_assoc, List.append_assoc, List.cons_append,
        elementsFrom_next (skipped _) noEnd (read (by omega) _) (skip_solid (by decide) _),
        ih last others (v :: acc) (by omega), List.reverse_cons, List.append_assoc]
      rfl

theorem prettyChars_list (depth : Nat) {items : List Value} (some : items ≠ []) :
    Json.prettyChars depth (.list items) =
      '[' :: (Json.prettyItems (depth + 1) items ++ (Json.lineBreak depth ++ [']'])) := by
  rw [Json.prettyChars, List.append_assoc, List.cons_append]
  exact some

theorem rereads_list {items : List Value} (each : ∀ v ∈ items, Rereads v) : Rereads (.list items) := by
  by_cases some : items = []
  · subst some
    refine ⟨fun depth => ⟨'[', _, by rw [Json.prettyChars], by decide, by decide⟩, ?_⟩
    intro depth rest fuel many
    rw [Json.prettyChars] at many ⊢
    obtain ⟨fuel, rfl⟩ := Nat.exists_eq_add_of_le' many
    rfl
  · refine ⟨fun depth => ⟨'[', _, prettyChars_list depth some, by decide, by decide⟩, ?_⟩
    intro depth rest fuel many
    rw [prettyChars_list depth some, List.length_cons, List.length_append, List.length_append,
      List.length_singleton] at many
    obtain ⟨fuel, rfl⟩ := Nat.exists_eq_add_one_of_ne_zero (show fuel ≠ 0 by omega)
    rw [prettyChars_list depth some, List.cons_append, valueFrom, List.append_assoc, List.append_assoc,
      List.singleton_append, elementsFrom_written some each (depth + 1) depth [] rest (by omega)]
    rfl

theorem prettyFields_cons (depth : Nat) (p : String × Value) {rest : Value.Fields} (some : rest ≠ []) :
    Json.prettyFields depth (p :: rest) = Json.lineBreak depth ++ Json.stringWith Json.asciiChar p.1 ++
      ':' :: ' ' :: Json.prettyChars depth p.2 ++ ',' :: Json.prettyFields depth rest := by
  obtain ⟨k, v⟩ := p
  cases rest with
  | nil => exact absurd rfl some
  | cons q rest => rw [Json.prettyFields]; simp

/-- The fields of an object are read up to its end, by induction on the fields. -/
theorem membersFrom_written {fields : Value.Fields} (some : fields ≠ [])
    (each : ∀ p ∈ fields, Rereads p.2) (depth outer : Nat) (acc : List (String × Value))
    (rest : List Char) {fuel : Nat} (many : (Json.prettyFields depth fields).length < fuel) :
    membersFrom fuel acc (Json.prettyFields depth fields ++ (Json.lineBreak outer ++ '\x7d' :: rest)) =
      .ok (acc.reverse ++ fields, rest) := by
  induction fields generalizing acc fuel with
  | nil => exact absurd rfl some
  | cons p fields ih =>
    obtain ⟨fuel, rfl⟩ := Nat.exists_eq_add_one_of_ne_zero (Nat.ne_of_gt (Nat.zero_lt_of_lt many))
    obtain ⟨first, others⟩ := List.forall_mem_cons.mp each
    obtain ⟨k, v⟩ := p
    obtain ⟨c, more, shape, solid, -⟩ := first.begins depth
    have skipped : ∀ tail, skip (Json.lineBreak depth ++ (Json.stringWith Json.asciiChar k ++ tail)) =
        .ok ('"' :: (k.toList.flatMap Json.asciiChar ++ '"' :: tail)) := by
      intro tail
      rw [stringWith_append]
      exact skip_lineBreak depth (by decide) _
    have valued : ∀ tail, skip (' ' :: (Json.prettyChars depth v ++ tail)) =
        .ok (c :: (more ++ tail)) := by
      intro tail
      rw [shape]
      exact @skip_blanks [' '] (by decide) c solid (more ++ tail)
    have read : (Json.prettyChars depth v).length ≤ fuel → ∀ tail,
        valueFrom fuel (c :: (more ++ tail)) = .ok (v, tail) := by
      intro enough tail
      have found := first.read depth tail enough
      rwa [shape] at found
    by_cases last : fields = []
    · subst last
      rw [Json.prettyFields, List.length_append, List.length_cons, List.length_cons] at many
      rw [Json.prettyFields, List.append_assoc, List.append_assoc, List.cons_append, List.cons_append,
        membersFrom_last (skipped _) (string_written k _) (skip_solid (by decide) _) (valued _)
          (read (by omega) _) (skip_lineBreak outer (by decide) rest)]
      rw [List.reverse_cons]
    · rw [prettyFields_cons depth (k, v) last, List.length_append, List.length_append,
        List.length_cons, List.length_cons, List.length_cons] at many
      rw [prettyFields_cons depth (k, v) last]
      simp only [List.append_assoc, List.cons_append] at many ⊢
      rw [membersFrom_next (skipped _) (string_written k _) (skip_solid (by decide) _) (valued _)
          (read (by omega) _) (skip_solid (by decide) _),
        ih last others ((k, v) :: acc) (by omega), List.reverse_cons, List.append_assoc]
      rfl

theorem prettyChars_object (depth : Nat) {fields : Value.Fields} (some : fields ≠ []) :
    Json.prettyChars depth (.object fields) =
      '\x7b' :: (Json.prettyFields (depth + 1) fields ++ (Json.lineBreak depth ++ ['\x7d'])) := by
  rw [Json.prettyChars, List.append_assoc, List.cons_append]
  exact some

theorem rereads_object {fields : Value.Fields} (distinct : (Value.keys fields).Nodup)
    (each : ∀ p ∈ fields, Rereads p.2) : Rereads (.object fields) := by
  by_cases some : fields = []
  · subst some
    refine ⟨fun depth => ⟨'\x7b', _, by rw [Json.prettyChars], by decide, by decide⟩, ?_⟩
    intro depth rest fuel many
    rw [Json.prettyChars] at many ⊢
    obtain ⟨fuel, rfl⟩ := Nat.exists_eq_add_of_le' many
    rfl
  · refine ⟨fun depth => ⟨'\x7b', _, prettyChars_object depth some, by decide, by decide⟩, ?_⟩
    intro depth rest fuel many
    rw [prettyChars_object depth some, List.length_cons, List.length_append, List.length_append,
      List.length_singleton] at many
    obtain ⟨fuel, rfl⟩ := Nat.exists_eq_add_one_of_ne_zero (show fuel ≠ 0 by omega)
    rw [prettyChars_object depth some, List.cons_append, valueFrom, List.append_assoc,
      List.append_assoc, List.singleton_append,
      membersFrom_written some each (depth + 1) depth [] rest (by omega)]
    simp only [Except.map, List.reverse_nil, List.nil_append, Value.ofPairs_of_distinct distinct]

/-- A value made of objects, lists, texts and truth values is read from its text. -/
theorem rereads {v : Value} (plain : Plain v) : Rereads v := by
  induction plain with
  | bool b => exact rereads_bool b
  | text s => exact rereads_text s
  | list _ ih => exact rereads_list ih
  | object distinct _ ih => exact rereads_object distinct ih

/-- The lenient reader reads a document that is written for people as the same value. -/
theorem read_pretty {v : Value} (plain : Plain v) : read (Json.pretty v).toList = .ok v := by
  obtain ⟨c, more, shape, solid, -⟩ := (rereads plain).begins 0
  have found := (rereads plain).read 0 [] (Nat.le_trans (Nat.le_mul_of_pos_left _ (by decide : 0 < 2))
    (Nat.le_add_right _ 2))
  rw [List.append_nil] at found
  rw [Json.pretty, String.toList_ofList, read]
  rw [shape] at found ⊢
  simp only [skip_solid solid, bind, Except.bind, found]
  rfl

/-- A reader of documents undoes a writer of documents that are made of objects, lists, texts and truth
values. -/
def Undoes (reader : String → Except String Value) (writer : Value → String) : Prop :=
  ∀ {v}, Plain v → reader (writer v) = .ok v

theorem undoes_readText : Undoes readText Json.pretty := by
  intro v plain
  rw [readText, read_pretty plain]
  rfl

end SchemaOnRead.Json5
