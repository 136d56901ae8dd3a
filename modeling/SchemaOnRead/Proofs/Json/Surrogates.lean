import SchemaOnRead.Proofs.Json.OneLine

/-!
# Halves of surrogate pairs

A character that four hexadecimal digits cannot number is escaped as a pair of numbers, the halves of a
surrogate pair. Half of a pair alone numbers no character, and the replacement character is read in its
place. In a text without such halves (`Paired`) nothing is replaced: the characters of a string that is
read are the ones its source denotes (`string_denotes`). A written value is such a text
(`paired_compactChars`).
-/

namespace SchemaOnRead.Json

open Text

/-- A number is one half of a surrogate pair. -/
def IsHalf (n : Nat) : Prop := 0xD800 ≤ n ∧ n ≤ 0xDFFF

/-- What stands after the letter of a numeric escape begins with the digits of a first half and the
escape of a second one. -/
inductive Pair (cs : List Char) (high low : Nat) (rest : List Char) : Prop where
  | mk {second : List Char} (first : hex4? cs = some (high, '\\' :: 'u' :: second))
    (isHigh : isHighSurrogate high = true) (next : hex4? second = some (low, rest))
    (isLow : isLowSurrogate low = true)

/-- The number of the character that a surrogate pair stands for. -/
def joined (high low : Nat) : Nat := 0x10000 + (high - 0xD800) * 0x400 + (low - 0xDC00)

/-- In the escapes of a text no half of a surrogate pair stands alone. -/
inductive Paired : List Char → Prop where
  | nil : Paired []
  | plain {c : Char} {cs : List Char} (noEscape : c ≠ '\\') (later : Paired cs) : Paired (c :: cs)
  | letter {c : Char} {cs : List Char} (simple : c ≠ 'u') (later : Paired cs) :
    Paired ('\\' :: c :: cs)
  | number {cs rest : List Char} {n : Nat} (digits : hex4? cs = some (n, rest)) (whole : ¬ IsHalf n)
    (later : Paired rest) : Paired ('\\' :: 'u' :: cs)
  | pair {cs rest : List Char} {high low : Nat} (halves : Pair cs high low rest)
    (later : Paired rest) : Paired ('\\' :: 'u' :: cs)
  | noNumber {cs : List Char} (digits : hex4? cs = none) (later : Paired cs) :
    Paired ('\\' :: 'u' :: cs)
  | cutOff : Paired ['\\']

/-- The inside of a string denotes a list of numbers up to its closing quote: those of the characters
that stand for themselves or have an escape, and those of halves that are not followed by their other
half. The last index is what follows the quote. -/
inductive Denotes : List Char → List Nat → List Char → Prop where
  | quote (rest : List Char) : Denotes ('"' :: rest) [] rest
  | plain {c : Char} {cs rest : List Char} {ns : List Nat} (noQuote : c ≠ '"') (noEscape : c ≠ '\\')
    (printed : 32 ≤ c.toNat) (later : Denotes cs ns rest) : Denotes (c :: cs) (c.toNat :: ns) rest
  | letter {c e : Char} {cs rest : List Char} {ns : List Nat} (known : simpleEscape? c = some e)
    (later : Denotes cs ns rest) : Denotes ('\\' :: c :: cs) (e.toNat :: ns) rest
  | number {cs after rest : List Char} {n : Nat} {ns : List Nat} (digits : hex4? cs = some (n, after))
    (single : ∀ low later, ¬ Pair cs n low later) (later : Denotes after ns rest) :
    Denotes ('\\' :: 'u' :: cs) (n :: ns) rest
  | pair {cs after rest : List Char} {high low : Nat} {ns : List Nat}
    (halves : Pair cs high low after) (later : Denotes after ns rest) :
    Denotes ('\\' :: 'u' :: cs) (joined high low :: ns) rest

theorem isHalf_of_isHighSurrogate {n : Nat} (isHigh : isHighSurrogate n = true) : IsHalf n := by
  rw [isHighSurrogate_iff] at isHigh
  exact ⟨isHigh.1, by omega⟩

theorem isHalf_of_pair {cs rest : List Char} {high low : Nat} (halves : Pair cs high low rest) :
    IsHalf high := by
  obtain ⟨-, isHigh, -, -⟩ := halves
  exact isHalf_of_isHighSurrogate isHigh

/-! ## The numbers of characters -/

theorem hexDigit?_lt {c : Char} {n : Nat} (read : hexDigit? c = some n) : n < 16 := by
  have digit {low high : Char} (between : low ≤ c ∧ c ≤ high) :
      low.toNat ≤ c.toNat ∧ c.toNat ≤ high.toNat := between
  unfold hexDigit? at read
  split at read
  · rename_i between
    have bounds := digit between
    have : '9'.toNat = 57 := rfl
    cases read
    omega
  · split at read
    · rename_i between
      have bounds := digit between
      have : 'f'.toNat = 102 := rfl
      cases read
      omega
    · split at read
      · rename_i between
        have bounds := digit between
        have : 'F'.toNat = 70 := rfl
        cases read
        omega
      · cases read

theorem hex4?_lt {cs rest : List Char} {n : Nat} (read : hex4? cs = some (n, rest)) : n < 0x10000 := by
  obtain ⟨a, b, c, d, rfl⟩ := hex4?_eq_some read
  simp only [hex4?, Option.bind_eq_bind, Option.bind_eq_some_iff] at read
  obtain ⟨w, first, x, second, y, third, z, fourth, same⟩ := read
  have := hexDigit?_lt first
  have := hexDigit?_lt second
  have := hexDigit?_lt third
  have := hexDigit?_lt fourth
  generalize value : w * 4096 + x * 256 + y * 16 + z = m at same
  cases same
  omega

theorem toNat_ofNat_of_whole {n : Nat} (small : n < 0x110000) (whole : ¬ IsHalf n) :
    (Char.ofNat n).toNat = n := by
  refine toNat_ofNat ?_
  rcases Nat.lt_or_ge n 0xD800 with low | high
  · exact .inl low
  · exact .inr ⟨Nat.lt_of_not_le fun most => whole ⟨high, most⟩, small⟩

/-- The character of a number that is no half has that number. -/
theorem unitChar_of_whole {n : Nat} (small : n < 0x10000) (whole : ¬ IsHalf n) :
    (unitChar n).toNat = n := by
  have same : unitChar n = Char.ofNat n := if_neg whole
  rw [same]
  exact toNat_ofNat_of_whole (by omega) whole

theorem toNat_joined {cs rest : List Char} {high low : Nat} (halves : Pair cs high low rest) :
    (Char.ofNat (joined high low)).toNat = joined high low := by
  obtain ⟨-, isHigh, -, isLow⟩ := halves
  rw [isHighSurrogate_iff] at isHigh
  rw [isLowSurrogate_iff] at isLow
  have value : joined high low = 0x10000 + (high - 0xD800) * 0x400 + (low - 0xDC00) := rfl
  refine toNat_ofNat_of_whole (by omega) fun half => ?_
  have most := half.2
  omega

/-! ## What is read of a string -/

theorem Paired.tail {c : Char} {cs : List Char} (paired : Paired (c :: cs)) (noEscape : c ≠ '\\') :
    Paired cs := by
  cases paired with
  | plain _ later => exact later
  | _ => exact absurd rfl noEscape

theorem stringRest_nil (start fuel : Nat) (acc : List Char) (s : String) (rest : List Char) :
    stringRest start fuel acc [] ≠ .ok (s, rest) := by
  cases fuel <;> exact fun read => by cases read

/-- A numeric escape at the end of a text ends no string. -/
theorem stringRest_cutOff {start fuel : Nat} {acc cs : List Char} {n : Nat}
    (digits : hex4? cs = some (n, [])) (s : String) (rest : List Char) :
    stringRest start fuel acc ('\\' :: 'u' :: cs) ≠ .ok (s, rest) := by
  intro read
  cases fuel with
  | zero => cases read
  | succ fuel =>
    rw [stringRest_unicode, unicodeEscape, digits] at read
    cases read

/-- The escape of a whole number gives its character, if more text follows. -/
theorem unicodeEscape_of_whole {cs rest : List Char} {n : Nat} (digits : hex4? cs = some (n, rest))
    (whole : ¬ IsHalf n) (more : rest ≠ []) :
    ∃ c, unicodeEscape cs = .ok (c, rest) ∧ c.toNat = n := by
  have notHigh : isHighSurrogate n = false :=
    eq_false_of_ne_true fun isHigh => whole (isHalf_of_isHighSurrogate isHigh)
  exact ⟨unitChar n, unicodeEscape_of_single digits more (.inl notHigh),
    unitChar_of_whole (hex4?_lt digits) whole⟩

/-- The escapes of the two halves of a pair give one character, if more text follows. -/
theorem unicodeEscape_of_halves {cs rest : List Char} {high low : Nat}
    (halves : Pair cs high low rest) (more : rest ≠ []) :
    ∃ c, unicodeEscape cs = .ok (c, rest) ∧ c.toNat = joined high low := by
  refine ⟨Char.ofNat (joined high low), ?_, toNat_joined halves⟩
  obtain ⟨first, isHigh, next, isLow⟩ := halves
  obtain ⟨a, b, c, d, rfl⟩ := hex4?_eq_some next
  have positive := List.length_pos_iff.mpr more
  have long : ¬ (a :: b :: c :: d :: rest).length < 5 := by
    simp only [List.length_cons]
    omega
  rw [unicodeEscape_of_pair first isHigh, if_neg long, next]
  exact if_pos isLow

/-- What is read of a numeric escape in a text without halves alone, if a string follows that is read
to its end. -/
theorem unicodeEscape_cases {start fuel : Nat} {acc cs rest : List Char} {s : String}
    (paired : Paired ('\\' :: 'u' :: cs))
    (read : stringRest start (fuel + 1) acc ('\\' :: 'u' :: cs) = .ok (s, rest)) :
    ∃ c after, stringRest start fuel (c :: acc) after = .ok (s, rest) ∧ Paired after ∧
      ∀ ns, Denotes after ns rest → Denotes ('\\' :: 'u' :: cs) (c.toNat :: ns) rest := by
  rw [stringRest_unicode] at read
  cases paired with
  | plain noEscape => exact absurd rfl noEscape
  | letter simple => exact absurd rfl simple
  | noNumber digits =>
    rw [unicodeEscape_of_none digits] at read
    cases read
  | @number _ after n digits whole later =>
    have more : after ≠ [] := by
      rintro rfl
      rw [unicodeEscape, digits] at read
      cases read
    obtain ⟨c, escape, number⟩ := unicodeEscape_of_whole digits whole more
    rw [escape] at read
    refine ⟨c, after, read, later, fun ns denotes => ?_⟩
    rw [number]
    exact .number digits (fun low later halves => whole (isHalf_of_pair halves)) denotes
  | @pair _ after high low halves later =>
    by_cases more : after = []
    · subst more
      obtain ⟨first, isHigh, next, -⟩ := halves
      obtain ⟨a, b, c, d, rfl⟩ := hex4?_eq_some next
      have short : [a, b, c, d].length < 5 := Nat.lt_succ_self 4
      rw [unicodeEscape_of_pair first isHigh, if_pos short] at read
      exact absurd read (stringRest_cutOff next s rest)
    · obtain ⟨c, escape, number⟩ := unicodeEscape_of_halves halves more
      rw [escape] at read
      refine ⟨c, after, read, later, fun ns denotes => ?_⟩
      rw [number]
      exact .pair halves denotes

theorem stringRest_denotes {start fuel : Nat} {acc cs rest : List Char} {s : String}
    (paired : Paired cs) (read : stringRest start fuel acc cs = .ok (s, rest)) :
    ∃ found, s.toList = acc.reverse ++ found ∧ Denotes cs (found.map Char.toNat) rest := by
  induction fuel generalizing acc cs with
  | zero => cases read
  | succ fuel ih =>
    have step {c : Char} {after : List Char} (later : Paired after)
        (read : stringRest start fuel (c :: acc) after = .ok (s, rest))
        (one : ∀ ns, Denotes after ns rest → Denotes cs (c.toNat :: ns) rest) :
        ∃ found, s.toList = acc.reverse ++ found ∧ Denotes cs (found.map Char.toNat) rest := by
      obtain ⟨found, same, denotes⟩ := ih later read
      exact ⟨c :: found, by simp [same], one _ denotes⟩
    cases cs with
    | nil => exact absurd read (stringRest_nil _ _ _ _ _)
    | cons c after =>
      by_cases quote : c = '"'
      · subst quote
        rw [stringRest_quote] at read
        cases read
        exact ⟨[], by simp, .quote rest⟩
      by_cases escape : c = '\\'
      · subst escape
        cases after with
        | nil => cases read
        | cons letter after =>
          by_cases numeric : letter = 'u'
          · subst numeric
            obtain ⟨c, left, read, later, one⟩ := unicodeEscape_cases paired read
            exact step later read one
          · cases known : simpleEscape? letter with
            | none =>
              rw [stringRest_badEscape _ _ _ _ numeric known] at read
              cases read
            | some e =>
              rw [stringRest_escape _ _ _ _ numeric known] at read
              cases paired with
              | plain noEscape => exact absurd rfl noEscape
              | letter _ later => exact step later read fun _ => .letter known
              | _ => exact absurd rfl numeric
      · rw [stringRest_plain _ _ _ _ quote escape] at read
        split at read
        · cases read
        · rename_i printed
          exact step (paired.tail escape) read fun _ => .plain quote escape (Nat.le_of_not_lt printed)

/-- In a text without halves alone, the characters of a string that is read are the ones that its source
denotes: none of them is replaced. -/
theorem string_denotes {cs rest : List Char} {s : String} (paired : Paired cs)
    (read : string cs = .ok (s, rest)) : Denotes cs (s.toList.map Char.toNat) rest := by
  obtain ⟨found, same, denotes⟩ := stringRest_denotes paired read
  rw [same]
  exact denotes

/-! ## Texts without halves alone -/

/-- A text may be put before a text without halves alone. -/
def Closed (cs : List Char) : Prop := ∀ rest, Paired rest → Paired (cs ++ rest)

namespace Closed

theorem nil : Closed [] := fun _ paired => paired

theorem append {cs ds : List Char} (first : Closed cs) (second : Closed ds) : Closed (cs ++ ds) := by
  intro rest paired
  rw [List.append_assoc]
  exact first _ (second rest paired)

theorem cons {c : Char} {cs : List Char} (noEscape : c ≠ '\\') (closed : Closed cs) :
    Closed (c :: cs) := fun rest paired => .plain noEscape (closed rest paired)

theorem of_plain {cs : List Char} (plain : ∀ c ∈ cs, c ≠ '\\') : Closed cs := by
  induction cs with
  | nil => exact nil
  | cons c cs ih =>
    obtain ⟨noEscape, later⟩ := List.forall_mem_cons.mp plain
    exact cons noEscape (ih later)

theorem paired {cs : List Char} (closed : Closed cs) : Paired cs := by
  have whole := closed [] .nil
  rwa [List.append_nil] at whole

/-- A text in brackets or quotes. -/
theorem enclosed {opening closing : Char} {cs : List Char} (first : opening ≠ '\\')
    (closed : Closed cs) (last : closing ≠ '\\') : Closed (opening :: cs ++ [closing]) :=
  (closed.cons first).append (nil.cons last)

end Closed

/-- A text without escapes. -/
theorem paired_of_plain {cs : List Char} (plain : ∀ c ∈ cs, c ≠ '\\') : Paired cs :=
  (Closed.of_plain plain).paired

/-! ## Written texts -/

theorem closed_stringChar (c : Char) : Closed (stringChar c) := by
  intro rest paired
  rcases stringChar_cases c with ⟨letter, simple, -, written⟩ | ⟨small, written⟩ |
    ⟨-, escape, -, written⟩
  · rw [written]
    exact .letter simple paired
  · rw [written]
    refine .number (hex4?_hexDigits small rest) (fun half => ?_) paired
    rw [IsHalf] at half
    omega
  · rw [written]
    exact .plain escape paired

theorem closed_stringWith (s : String) : Closed (stringWith stringChar s) := by
  have inside : ∀ cs : List Char, Closed (cs.flatMap stringChar) := by
    intro cs
    induction cs with
    | nil => exact .nil
    | cons c cs ih => exact (closed_stringChar c).append ih
  exact .enclosed (by decide) (inside s.toList) (by decide)

theorem closed_signText (negative : Bool) : Closed (Decimal.signText negative) :=
  .of_plain (by cases negative <;> decide)

theorem plain_digit {c : Char} (digit : isAsciiDigit c = true) : c ≠ '\\' :=
  digit_induction (motive := (· ≠ '\\')) (by decide) digit

theorem closed_compactItems {items : List Value} (each : ∀ v ∈ items, Closed (compactChars v)) :
    Closed (compactItems items) := by
  induction items with
  | nil => exact .nil
  | cons v rest ih =>
    obtain ⟨first, others⟩ := List.forall_mem_cons.mp each
    cases rest with
    | nil => exact first
    | cons w more =>
      rw [compactItems_cons]
      exact first.append ((ih others).cons (by decide))

theorem closed_compactFields {fields : Value.Fields}
    (each : ∀ p ∈ fields, Closed (compactChars p.2)) : Closed (compactFields fields) := by
  induction fields with
  | nil => exact .nil
  | cons p rest ih =>
    obtain ⟨first, others⟩ := List.forall_mem_cons.mp each
    have field : Closed (fieldChars p) := (closed_stringWith p.1).append (first.cons (by decide))
    cases rest with
    | nil => exact field
    | cons q more =>
      rw [compactFields_cons]
      exact field.append ((ih others).cons (by decide))

theorem closed_compactChars {v : Value} (decoded : Decoded v) : Closed (compactChars v) := by
  induction decoded with
  | null => exact .of_plain (by decide)
  | bool b => cases b <;> exact .of_plain (by decide)
  | nan => exact .of_plain (by decide)
  | infinite negative => cases negative <;> exact .of_plain (by decide)
  | @integer n =>
    rw [compactChars, ofInt_eq]
    exact (closed_signText _).append
      (.of_plain fun c member => plain_digit ((isDigits_ofNat _).digits c member))
  | @decimal negative c e =>
    exact (closed_signText negative).append
      (.of_plain (Decimal.forall_mem_digitsText (fun _ digit => plain_digit digit) (by decide) c e))
  | text s => exact closed_stringWith s
  | list _ ih => exact .enclosed (by decide) (closed_compactItems ih) (by decide)
  | object _ _ ih => exact .enclosed (by decide) (closed_compactFields ih) (by decide)

/-- The text of a value that was read has no halves alone. -/
theorem paired_compactChars {v : Value} (decoded : Decoded v) : Paired (compactChars v) :=
  (closed_compactChars decoded).paired

end SchemaOnRead.Json
