import Mathlib.Data.Rat.Defs
import Mathlib.Algebra.Order.Ring.Rat
import SchemaOnRead.Proofs.Json.Surrogates

/-!
# Values written and read back

What is written of a value that a text stands for is a text on one line, and it stands for the same
value, each number for one of the same amount. There is one exception: a decimal with exponent zero is
written as an integer, and an integer of too many digits is not read (`readText_compact`).
-/

namespace SchemaOnRead

namespace Value

/-- The number that an integer or a finite decimal stands for. -/
def amount? : Value → Option ℚ
  | .integer n => some n
  | .decimal (.finite negative c e) => some (Decimal.signed negative c * 10 ^ e)
  | _ => none

/-- Two values are the same, apart from how their numbers are written. -/
inductive Alike : Value → Value → Prop where
  | null : Alike .null .null
  | bool (b : Bool) : Alike (.bool b) (.bool b)
  | text (s : String) : Alike (.text s) (.text s)
  | double (x : Binary64) : Alike (.double x) (.double x)
  | number {v w : Value} {amount : ℚ} (before : v.amount? = some amount)
    (after : w.amount? = some amount) : Alike v w
  | list {vs ws : List Value} (items : List.Forall₂ Alike vs ws) : Alike (.list vs) (.list ws)
  | object {fields others : Fields} (sameKeys : keys fields = keys others)
    (values : List.Forall₂ Alike (fields.map Prod.snd) (others.map Prod.snd)) :
    Alike (.object fields) (.object others)

/-- A value holds a decimal with exponent zero that has more digits than an integer may have. -/
inductive Overlong : Value → Prop where
  | decimal {negative : Bool} {c : Nat} (long : Json.maxDigits < Decimal.width c) :
    Overlong (.decimal (.finite negative c 0))
  | item {items : List Value} {v : Value} (member : v ∈ items) (overlong : Overlong v) :
    Overlong (.list items)
  | field {fields : Fields} {p : String × Value} (member : p ∈ fields) (overlong : Overlong p.2) :
    Overlong (.object fields)

end Value

namespace Json

open Text

/-! ## What a written value is read as -/

mutual

/-- What the text of a value is read as: a decimal with exponent zero comes back as an integer. -/
def reread : Value → Except Fault Value
  | .decimal (.finite negative c e) =>
    if e = 0 then
      if maxDigits < Decimal.width c then .error .tooManyDigits
      else .ok (.integer (Decimal.signed negative c))
    else .ok (.decimal (.finite negative c e))
  | .decimal d => .ok (.decimal d)
  | .null => .ok .null
  | .bool b => .ok (.bool b)
  | .integer n => .ok (.integer n)
  | .double x => .ok (.double x)
  | .text s => .ok (.text s)
  | .list items => (rereadItems items).map .list
  | .object fields => (rereadFields fields).map .object

/-- What the texts of a list's items are read as. -/
def rereadItems : List Value → Except Fault (List Value)
  | [] => .ok []
  | v :: rest => (reread v).bind fun w => (rereadItems rest).map (w :: ·)

/-- What the texts of an object's fields are read as. -/
def rereadFields : Value.Fields → Except Fault Value.Fields
  | [] => .ok []
  | (key, v) :: rest => (reread v).bind fun w => (rereadFields rest).map ((key, w) :: ·)

end

/-- A value is read from its text whatever may stand after a value. -/
def Rereads (v : Value) : Prop :=
  ∀ rest, Delimited rest → value (compactChars v ++ rest) = (reread v).map fun w => (w, rest)

/-! ## Numbers -/

theorem signed_natAbs (n : Int) : Decimal.signed (n < 0) n.natAbs = n := by
  rw [Decimal.signed]
  split
  · rename_i negative
    have := of_decide_eq_true negative
    omega
  · rename_i positive
    have := of_decide_eq_false (eq_false_of_ne_true positive)
    omega

theorem value_scalar {c : Char} {rest : List Char} (noString : c ≠ '"') (noObject : c ≠ '\x7b')
    (noList : c ≠ '[') : value (c :: rest) = scalar (c :: rest) :=
  valueFrom_scalar _ noString noObject noList

/-- A text that begins as a number does is read as a number. -/
theorem value_number (negative : Bool) {whole : List Char} (isDigits : IsDigits whole)
    (rest : List Char) : value (Decimal.signText negative ++ (whole ++ rest)) =
      number (Decimal.signText negative ++ (whole ++ rest)) := by
  have noWord := constant?_written negative isDigits rest
  obtain ⟨d, ds, rfl⟩ := List.exists_cons_of_ne_nil isDigits.nonempty
  have other : d ≠ '"' ∧ d ≠ '\x7b' ∧ d ≠ '[' :=
    digit_induction (motive := fun d => d ≠ '"' ∧ d ≠ '\x7b' ∧ d ≠ '[') (by decide)
      (isDigits.digits d List.mem_cons_self)
  cases negative with
  | true =>
    refine (value_scalar (by decide) (by decide) (by decide)).trans ?_
    rw [scalar]
    exact noWord ▸ rfl
  | false =>
    refine (value_scalar other.1 other.2.1 other.2.2).trans ?_
    rw [scalar]
    exact noWord ▸ rfl

/-- Digits with a sign are read as an integer, if they are not too many. -/
theorem value_digits (negative : Bool) (c : Nat) {rest : List Char} (delimited : Delimited rest) :
    value (Decimal.signText negative ++ (ofNat c ++ rest)) =
      if maxDigits < Decimal.width c then .error .tooManyDigits
      else .ok (.integer (Decimal.signed negative c), rest) := by
  have isWhole := Decimal.isWhole_ofNat c
  have noFraction : ∀ d ∈ [], isAsciiDigit d = true := fun _ none => absurd none List.not_mem_nil
  have read := number_written negative isWhole noFraction 0 delimited
  have made : numeral negative (ofNat c) [] [] =
      if maxDigits < Decimal.width c then .error .tooManyDigits
      else .ok (.integer (Decimal.signed negative c)) := by
    rw [numeral, List.isEmpty_nil, Bool.and_self, if_pos rfl, natural?_ofNat]
    rfl
  have parts : ofNat c ++ Decimal.pointed [] ++ Decimal.exponentText 0 = ofNat c := by
    simp [Decimal.pointed, Decimal.exponentText]
  rw [parts] at read
  rw [value_number negative isWhole.toIsDigits, read]
  change (numeral negative (ofNat c) [] []).map _ = _
  rw [made]
  split <;> rfl

/-- A number with a point or an exponent is read as a decimal. -/
theorem value_layout (negative : Bool) {c : Nat} {e x : Int} {whole fraction : List Char}
    (layout : Decimal.Layout c e whole fraction x) (held : Decimal.representable c e = true)
    {rest : List Char} (delimited : Delimited rest) :
    value (Decimal.signText negative ++
        (whole ++ Decimal.pointed fraction ++ Decimal.exponentText x ++ rest)) =
      .ok (.decimal (.finite negative c e), rest) := by
  have shown : ¬ ((Decimal.pointed fraction).isEmpty && (Decimal.exponentText x).isEmpty) = true := by
    intro empty
    rw [Bool.and_eq_true, List.isEmpty_iff, List.isEmpty_iff] at empty
    rcases layout.shown with some | some
    · rw [Decimal.pointed_of_ne_nil some] at empty
      exact List.cons_ne_nil _ _ empty.1
    · obtain ⟨_, written, -⟩ := Decimal.exponentText_of_ne_zero some
      rw [written] at empty
      exact List.cons_ne_nil _ _ empty.2
  have made : numeral negative whole (Decimal.pointed fraction) (Decimal.exponentText x) =
      .ok (.decimal (.finite negative c e)) := by
    rw [numeral, if_neg shown, Decimal.finite?_of_layout layout held negative]
  have begins := value_number negative layout.isWhole.toIsDigits
    (Decimal.pointed fraction ++ (Decimal.exponentText x ++ rest))
  have read := number_written negative layout.isWhole layout.digits x delimited
  rw [List.append_assoc, List.append_assoc] at read ⊢
  rw [begins, read, made]
  rfl

/-- A decimal with another exponent than zero is read as itself. -/
theorem value_decimal (negative : Bool) {c : Nat} {e : Int}
    (held : Decimal.representable c e = true) (other : e ≠ 0) {rest : List Char}
    (delimited : Delimited rest) :
    value (Decimal.signText negative ++ (Decimal.digitsText c e ++ rest)) =
      .ok (.decimal (.finite negative c e), rest) := by
  rcases Decimal.digitsText_cases c e with ⟨zero, -⟩ | ⟨-, whole, fraction, x, layout, text⟩
  · exact absurd zero other
  · exact text ▸ value_layout negative layout held delimited

theorem rereads_integer {n : Int} (short : Decimal.width n.natAbs ≤ maxDigits) :
    Rereads (.integer n) := by
  intro rest delimited
  have read := value_digits (n < 0) n.natAbs delimited
  rw [if_neg (Nat.not_lt.mpr short), signed_natAbs] at read
  rw [compactChars, ofInt_eq, List.append_assoc, read, reread]
  rfl

theorem rereads_decimal {negative : Bool} {c : Nat} {e : Int}
    (held : Decimal.representable c e = true) : Rereads (.decimal (.finite negative c e)) := by
  intro rest delimited
  rw [compactChars, Decimal.chars, List.append_assoc, reread]
  by_cases zero : e = 0
  · rcases Decimal.digitsText_cases c e with ⟨-, digits⟩ | ⟨other, -⟩
    · rw [digits, value_digits negative c delimited, if_pos zero]
      split <;> rfl
    · exact absurd zero other
  · rw [value_decimal negative held zero delimited, if_neg zero]
    rfl

/-! ## Words and texts -/

theorem rereads_null : Rereads .null := fun _ _ => value_scalar (by decide) (by decide) (by decide)

theorem rereads_bool (b : Bool) : Rereads (.bool b) := by
  intro rest _
  cases b
  · exact value_scalar (by decide) (by decide) (by decide)
  · exact value_scalar (by decide) (by decide) (by decide)

theorem rereads_nan : Rereads (.double .nan) :=
  fun _ _ => value_scalar (by decide) (by decide) (by decide)

theorem rereads_infinite (negative : Bool) : Rereads (.double (.infinite negative)) := by
  intro rest _
  cases negative
  · exact value_scalar (by decide) (by decide) (by decide)
  · exact value_scalar (by decide) (by decide) (by decide)

theorem rereads_text (s : String) : Rereads (.text s) := by
  intro rest _
  have read := string_written s rest
  rw [compactChars, stringWith, List.cons_append, List.cons_append, List.append_assoc,
    List.singleton_append]
  refine (valueFrom_string _ _).trans ?_
  rw [read, reread]
  rfl

/-! ## Lists and objects -/

theorem rereadItems_single (v : Value) : rereadItems [v] = (reread v).map fun w => [w] := by
  rw [rereadItems]
  cases reread v <;> rfl

theorem skipSpace_of_oneLine {cs : List Char} (oneLine : OneLine cs) (rest : List Char) :
    skipSpace (cs ++ rest) = cs ++ rest := by
  obtain ⟨c, after, rfl, begins⟩ := oneLine.first
  exact skipSpace_of_begins begins (after ++ rest)

theorem begins_compactItems {v : Value} (oneLine : OneLine (compactChars v)) (more : List Value) :
    ∃ c after, compactItems (v :: more) = c :: after ∧ Begins c := by
  obtain ⟨c, after, same, begins⟩ := oneLine.first
  cases more with
  | nil => exact ⟨c, after, same, begins⟩
  | cons w more => exact ⟨c, _, by rw [compactItems_cons, same, List.cons_append], begins⟩

/-- The items of a list are read one after another up to its end. -/
theorem elementsFrom_written {items : List Value} (some : items ≠ [])
    (each : ∀ v ∈ items, Rereads v ∧ OneLine (compactChars v)) (acc : List Value)
    (rest : List Char) {fuel : Nat}
    (many : 2 * (compactItems items ++ ']' :: rest).length + 1 < fuel) :
    elementsFrom fuel acc (compactItems items ++ ']' :: rest) =
      (rereadItems items).map fun ws => (acc.reverse ++ ws, rest) := by
  induction items generalizing acc fuel with
  | nil => exact absurd rfl some
  | cons v later ih =>
    obtain ⟨fuel, rfl⟩ := Nat.exists_eq_add_one_of_ne_zero (Nat.ne_of_gt (Nat.zero_lt_of_lt many))
    have reads := (each v List.mem_cons_self).1
    cases later with
    | nil =>
      have read := reads (']' :: rest) (delimited_cons (by decide) rest)
      rw [compactItems] at many ⊢
      rw [elementsFrom_succ, valueFrom_eq_value (by omega), read, rereadItems_single]
      cases reread v with
      | error fault => rfl
      | ok w => exact congrArg Except.ok (congrArg (·, rest) List.reverse_cons)
    | cons w more =>
      have read := reads (',' :: (compactItems (w :: more) ++ ']' :: rest))
        (delimited_cons (by decide) _)
      have each' := fun u member => each u (List.mem_cons_of_mem v member)
      rw [compactItems_cons, List.append_assoc, List.cons_append] at many ⊢
      rw [elementsFrom_succ, valueFrom_eq_value (by omega), read, rereadItems]
      cases reread v with
      | error fault => rfl
      | ok u =>
        have next : skipSpace (compactItems (w :: more) ++ ']' :: rest) =
            compactItems (w :: more) ++ ']' :: rest := by
          obtain ⟨c, after, same, begins⟩ := begins_compactItems (each' w List.mem_cons_self).2 more
          rw [same]
          exact skipSpace_of_begins begins _
        have shorter : 2 * (compactItems (w :: more) ++ ']' :: rest).length + 1 < fuel := by
          rw [List.length_append, List.length_cons] at many
          omega
        change elementsFrom fuel (u :: acc) (skipSpace (compactItems (w :: more) ++ ']' :: rest)) = _
        rw [next, ih (List.cons_ne_nil w more) each' (u :: acc) shorter]
        change _ = ((rereadItems (w :: more)).map (u :: ·)).map _
        cases rereadItems (w :: more) with
        | error fault => rfl
        | ok ws =>
          have same : (u :: acc).reverse ++ ws = acc.reverse ++ u :: ws := by simp
          exact congrArg (fun vs => Except.ok (vs, rest)) same

theorem rereads_list {items : List Value}
    (each : ∀ v ∈ items, Rereads v ∧ OneLine (compactChars v)) : Rereads (.list items) := by
  intro rest _
  rw [compactChars, List.cons_append, List.cons_append, List.append_assoc, List.singleton_append,
    value]
  refine (valueFrom_list _ _).trans ?_
  cases items with
  | nil => rfl
  | cons v more =>
    have read := fun {fuel} => @elementsFrom_written (v :: more) (List.cons_ne_nil v more) each [] rest fuel
    obtain ⟨c, after, same, begins⟩ := begins_compactItems (each v List.mem_cons_self).2 more
    have noEnd : ∀ later, compactItems (v :: more) ++ ']' :: rest ≠ ']' :: later := by
      intro later ends
      rw [same] at ends
      exact begins.2.1 (List.cons.inj ends).1
    have next : skipSpace (compactItems (v :: more) ++ ']' :: rest) =
        compactItems (v :: more) ++ ']' :: rest := by
      rw [same]
      exact skipSpace_of_begins begins _
    rw [next, opened_other noEnd, read (by rw [List.length_cons]; omega), reread]
    cases rereadItems (v :: more) <;> rfl

theorem membersFrom_field (fuel : Nat) (acc : Value.Fields) (p : String × Value)
    (oneLine : OneLine (compactChars p.2)) (rest : List Char) :
    membersFrom (fuel + 1) acc (fieldChars p ++ rest) =
      (valueFrom fuel (compactChars p.2 ++ rest)).bind fun q =>
        afterPart '\x7d' ((p.1, q.1) :: acc).reverse (membersFrom fuel ((p.1, q.1) :: acc))
          (skipSpace q.2) := by
  have name := string_written p.1 (':' :: (compactChars p.2 ++ rest))
  have text : fieldChars p ++ rest =
      '"' :: (p.1.toList.flatMap stringChar ++ '"' :: ':' :: (compactChars p.2 ++ rest)) := by
    simp [fieldChars, stringWith]
  rw [text, membersFrom_succ, name]
  change memberValue fuel acc p.1 (':' :: (compactChars p.2 ++ rest)) = _
  rw [memberValue_colon, skipSpace_of_oneLine oneLine]

theorem rereadFields_single (p : String × Value) :
    rereadFields [p] = (reread p.2).map fun w => [(p.1, w)] := by
  rw [rereadFields]
  cases reread p.2 <;> rfl

theorem begins_compactFields (p : String × Value) (more : Value.Fields) :
    ∃ after, compactFields (p :: more) = '"' :: after := by
  cases more with
  | nil => exact ⟨_, rfl⟩
  | cons q more => exact ⟨_, by rw [compactFields_cons]; rfl⟩

/-- The fields of an object are read one after another up to its end. -/
theorem membersFrom_written {fields : Value.Fields} (some : fields ≠ [])
    (each : ∀ p ∈ fields, Rereads p.2 ∧ OneLine (compactChars p.2)) (acc : Value.Fields)
    (rest : List Char) {fuel : Nat}
    (many : 2 * (compactFields fields ++ '\x7d' :: rest).length < fuel) :
    membersFrom fuel acc (compactFields fields ++ '\x7d' :: rest) =
      (rereadFields fields).map fun ws => (acc.reverse ++ ws, rest) := by
  induction fields generalizing acc fuel with
  | nil => exact absurd rfl some
  | cons p later ih =>
    obtain ⟨fuel, rfl⟩ := Nat.exists_eq_add_one_of_ne_zero (Nat.ne_of_gt (Nat.zero_lt_of_lt many))
    obtain ⟨reads, oneLine⟩ := each p List.mem_cons_self
    cases later with
    | nil =>
      have read := reads ('\x7d' :: rest) (delimited_cons (by decide) rest)
      rw [compactFields_single] at many ⊢
      have enough : 2 * (compactChars p.2 ++ '\x7d' :: rest).length < fuel := by
        simp only [fieldChars, List.length_append, List.length_cons] at many ⊢
        omega
      rw [membersFrom_field fuel acc p oneLine, valueFrom_eq_value enough, read, rereadFields_single]
      cases reread p.2 with
      | error fault => rfl
      | ok w => exact congrArg Except.ok (congrArg (·, rest) List.reverse_cons)
    | cons q more =>
      have read := reads (',' :: (compactFields (q :: more) ++ '\x7d' :: rest))
        (delimited_cons (by decide) _)
      rw [compactFields_cons, List.append_assoc, List.cons_append] at many ⊢
      have enough : 2 * (compactChars p.2 ++
          ',' :: (compactFields (q :: more) ++ '\x7d' :: rest)).length < fuel := by
        simp only [fieldChars, List.length_append, List.length_cons] at many ⊢
        omega
      rw [membersFrom_field fuel acc p oneLine, valueFrom_eq_value enough, read, rereadFields]
      cases reread p.2 with
      | error fault => rfl
      | ok u =>
        have next : skipSpace (compactFields (q :: more) ++ '\x7d' :: rest) =
            compactFields (q :: more) ++ '\x7d' :: rest := by
          obtain ⟨after, same⟩ := begins_compactFields q more
          rw [same]
          exact skipSpace_of_begins (by decide) _
        have shorter : 2 * (compactFields (q :: more) ++ '\x7d' :: rest).length < fuel := by
          rw [List.length_append, List.length_cons] at enough
          omega
        have each' := fun r member => each r (List.mem_cons_of_mem p member)
        change membersFrom fuel ((p.1, u) :: acc)
          (skipSpace (compactFields (q :: more) ++ '\x7d' :: rest)) = _
        rw [next, ih (List.cons_ne_nil q more) each' ((p.1, u) :: acc) shorter]
        change _ = ((rereadFields (q :: more)).map ((p.1, u) :: ·)).map _
        cases rereadFields (q :: more) with
        | error fault => rfl
        | ok ws =>
          have same : ((p.1, u) :: acc).reverse ++ ws = acc.reverse ++ (p.1, u) :: ws := by simp
          exact congrArg (fun ms => Except.ok (ms, rest)) same

theorem keys_rereadFields {fields others : Value.Fields} (read : rereadFields fields = .ok others) :
    Value.keys others = Value.keys fields := by
  induction fields generalizing others with
  | nil =>
    cases read
    rfl
  | cons p rest ih =>
    rw [rereadFields] at read
    obtain ⟨w, -, later⟩ := ok_of_bind read
    obtain ⟨ws, found, same⟩ := ok_of_map later
    cases same
    exact congrArg (p.1 :: ·) (ih found)

theorem rereads_object {fields : Value.Fields} (distinct : (Value.keys fields).Nodup)
    (each : ∀ p ∈ fields, Rereads p.2 ∧ OneLine (compactChars p.2)) : Rereads (.object fields) := by
  intro rest _
  rw [compactChars, List.cons_append, List.cons_append, List.append_assoc, List.singleton_append,
    value]
  refine (valueFrom_object _ _).trans ?_
  cases fields with
  | nil => rfl
  | cons p more =>
    have read := fun {fuel} => @membersFrom_written (p :: more) (List.cons_ne_nil p more) each [] rest fuel
    obtain ⟨after, same⟩ := begins_compactFields p more
    have noEnd : ∀ later, compactFields (p :: more) ++ '\x7d' :: rest ≠ '\x7d' :: later := by
      intro later ends
      rw [same] at ends
      exact absurd (List.cons.inj ends).1 (by decide)
    have next : skipSpace (compactFields (p :: more) ++ '\x7d' :: rest) =
        compactFields (p :: more) ++ '\x7d' :: rest := by
      rw [same]
      exact skipSpace_of_begins (by decide) _
    rw [next, opened_other noEnd, read (by rw [List.length_cons]; omega), reread]
    cases found : rereadFields (p :: more) with
    | error fault => rfl
    | ok ws =>
      have whole : Value.ofPairs ws = ws :=
        Value.ofPairs_of_distinct (keys_rereadFields found ▸ distinct)
      exact congrArg (fun fields => Except.ok (Value.object fields, rest)) whole

/-- The text of a value that was read is read whatever may stand after a value. -/
theorem rereads {v : Value} (decoded : Decoded v) : Rereads v := by
  induction decoded with
  | null => exact rereads_null
  | bool b => exact rereads_bool b
  | integer short => exact rereads_integer short
  | decimal held => exact rereads_decimal held
  | nan => exact rereads_nan
  | infinite negative => exact rereads_infinite negative
  | text s => exact rereads_text s
  | list inner ih =>
    exact rereads_list fun v member => ⟨ih v member, oneLine_compactChars (inner v member)⟩
  | object distinct inner ih =>
    exact rereads_object distinct fun p member => ⟨ih p member, oneLine_compactChars (inner p member)⟩

/-! ## What comes back -/

theorem amount?_integer (negative : Bool) (c : Nat) :
    (Value.integer (Decimal.signed negative c)).amount? =
      (Value.decimal (.finite negative c 0)).amount? := by
  simp [Value.amount?]

/-- The items of a list come back if none of them is overlong. -/
theorem rereadItems_cases {items : List Value}
    (each : ∀ v ∈ items, (¬ v.Overlong ∧ ∃ w, reread v = .ok w ∧ v.Alike w) ∨
      (v.Overlong ∧ reread v = .error .tooManyDigits)) :
    ((∀ v ∈ items, ¬ v.Overlong) ∧ ∃ ws, rereadItems items = .ok ws ∧
        List.Forall₂ Value.Alike items ws) ∨
      ((∃ v ∈ items, v.Overlong) ∧ rereadItems items = .error .tooManyDigits) := by
  induction items with
  | nil => exact .inl ⟨fun _ none => absurd none List.not_mem_nil, [], rfl, .nil⟩
  | cons v rest ih =>
    rw [rereadItems]
    rcases each v List.mem_cons_self with ⟨short, w, read, alike⟩ | ⟨overlong, read⟩
    · rw [read]
      rcases ih fun u member => each u (List.mem_cons_of_mem v member) with
        ⟨others, ws, later, alikes⟩ | ⟨⟨u, member, overlong⟩, later⟩
      · refine .inl ⟨List.forall_mem_cons.mpr ⟨short, others⟩, w :: ws, ?_, .cons alike alikes⟩
        rw [later]
        rfl
      · refine .inr ⟨⟨u, List.mem_cons_of_mem v member, overlong⟩, ?_⟩
        rw [later]
        rfl
    · exact .inr ⟨⟨v, List.mem_cons_self, overlong⟩, by rw [read]; rfl⟩

/-- The values of an object's fields come back as those of a list do. -/
theorem rereadFields_eq (fields : Value.Fields) :
    rereadFields fields =
      (rereadItems (fields.map Prod.snd)).map fun ws => (Value.keys fields).zip ws := by
  induction fields with
  | nil => rfl
  | cons p rest ih =>
    rw [rereadFields, List.map_cons, rereadItems, ih]
    cases reread p.2 with
    | error fault => rfl
    | ok w =>
      cases rereadItems (rest.map Prod.snd) <;> rfl

/-- What is read of the text of a value is the same value, unless that is overlong. -/
theorem reread_cases {v : Value} (decoded : Decoded v) :
    (¬ v.Overlong ∧ ∃ w, reread v = .ok w ∧ v.Alike w) ∨
      (v.Overlong ∧ reread v = .error .tooManyDigits) := by
  induction decoded with
  | null => exact .inl ⟨fun overlong => (nomatch overlong), _, rfl, .null⟩
  | bool b => exact .inl ⟨fun overlong => (nomatch overlong), _, rfl, .bool b⟩
  | text s => exact .inl ⟨fun overlong => (nomatch overlong), _, rfl, .text s⟩
  | nan => exact .inl ⟨fun overlong => (nomatch overlong), _, rfl, .double _⟩
  | infinite negative => exact .inl ⟨fun overlong => (nomatch overlong), _, rfl, .double _⟩
  | integer short => exact .inl ⟨fun overlong => (nomatch overlong), _, rfl, .number rfl rfl⟩
  | @decimal negative c e held =>
    rw [reread]
    by_cases zero : e = 0
    · subst zero
      by_cases long : maxDigits < Decimal.width c
      · exact .inr ⟨.decimal long, by rw [if_pos rfl, if_pos long]⟩
      · refine .inl ⟨fun overlong => ?_, _, by rw [if_pos rfl, if_neg long],
          .number rfl (amount?_integer negative c)⟩
        cases overlong
        rename_i tooLong
        exact long tooLong
    · refine .inl ⟨fun overlong => ?_, _, by rw [if_neg zero], .number rfl rfl⟩
      cases overlong
      exact zero rfl
  | list _ ih =>
    rw [reread]
    rcases rereadItems_cases ih with ⟨short, ws, read, alikes⟩ | ⟨⟨v, member, overlong⟩, read⟩
    · refine .inl ⟨fun overlong => ?_, .list ws, by rw [read]; rfl, .list alikes⟩
      cases overlong with
      | item member inner => exact short _ member inner
    · exact .inr ⟨.item member overlong, by rw [read]; rfl⟩
  | @object fields _ _ ih =>
    have each : ∀ v ∈ fields.map Prod.snd, (¬ v.Overlong ∧ ∃ w, reread v = .ok w ∧ v.Alike w) ∨
        (v.Overlong ∧ reread v = .error .tooManyDigits) := by
      intro v member
      obtain ⟨p, there, rfl⟩ := List.mem_map.mp member
      exact ih p there
    rw [reread, rereadFields_eq]
    rcases rereadItems_cases each with ⟨short, ws, read, alikes⟩ | ⟨⟨v, member, overlong⟩, read⟩
    · have length : (Value.keys fields).length = ws.length := by
        rw [List.length_map, ← alikes.length_eq, List.length_map]
      refine .inl ⟨fun overlong => ?_, .object ((Value.keys fields).zip ws), by rw [read]; rfl,
        .object ?_ ?_⟩
      · cases overlong with
        | field member inner => exact short _ (List.mem_map_of_mem member) inner
      · rw [Value.keys, Value.keys, List.map_fst_zip (Nat.le_of_eq length)]
      · rwa [List.map_snd_zip (Nat.le_of_eq length.symm)]
    · obtain ⟨p, there, rfl⟩ := List.mem_map.mp member
      exact .inr ⟨.field there overlong, by rw [read]; rfl⟩

theorem read_compactChars {v : Value} (decoded : Decoded v) : read (compactChars v) = reread v := by
  have whole := rereads decoded [] delimited_nil
  rw [List.append_nil] at whole
  rw [read, strip_of_oneLine (oneLine_compactChars decoded), whole]
  cases reread v <;> rfl

/-- A text stands for the value that is read of it, if it has no half of a surrogate pair alone. Such a
half is no character, and the texts and keys of values are made of characters: the replacement character
is read for it, whichever half it is, so that the value would not tell what the text holds. -/
structure StandsFor (text : String) (v : Value) : Prop where
  read : readText text = .ok v
  paired : Paired text.toList

/-- The value that a text stands for is written on one line, and what is written stands for the same
value, each of its numbers with the same amount, unless it holds a decimal that is written as an integer
of too many digits. -/
theorem readText_compact {text : String} {v : Value} (found : StandsFor text v) :
    (¬ v.Overlong → ∃ w, StandsFor (compact v) w ∧ v.Alike w) ∧
      (v.Overlong → readText (compact v) = .error .tooManyDigits) ∧
      ∀ c ∈ (compact v).toList, c ≠ '\n' ∧ c ≠ '\r' := by
  have decoded := decoded_value (read_eq_ok_iff.mp found.read)
  have again : readText (compact v) = reread v := by
    rw [readText, compact, String.toList_ofList, read_compactChars decoded]
  refine ⟨fun short => ?_, fun overlong => ?_, fun c member => ?_⟩
  · rcases reread_cases decoded with ⟨-, w, back, alike⟩ | ⟨overlong, -⟩
    · have written : (compact v).toList = compactChars v := String.toList_ofList
      exact ⟨w, ⟨again.trans back, written ▸ paired_compactChars decoded⟩, alike⟩
    · exact absurd overlong short
  · rcases reread_cases decoded with ⟨short, -⟩ | ⟨-, failed⟩
    · exact absurd overlong short
    · exact again.trans failed
  · rw [compact, String.toList_ofList] at member
    have inside := (oneLine_compactChars decoded).inside c member
    constructor
    · rintro rfl
      exact absurd inside (by decide)
    · rintro rfl
      exact absurd inside (by decide)

/-! ## A number that does not come back -/

theorem isWhole_powerOfTen (zeros : Nat) : Decimal.IsWhole ('1' :: List.replicate zeros '0') := by
  refine ⟨⟨List.cons_ne_nil _ _, fun c member => ?_⟩,
    .inr fun _ same => absurd (List.cons.inj same).1 (by decide)⟩
  rcases List.mem_cons.mp member with rfl | zero
  · rfl
  · rw [List.eq_of_mem_replicate zero]
    rfl

theorem natural?_powerOfTen (zeros : Nat) :
    natural? ('1' :: List.replicate zeros '0') = some (10 ^ zeros) := by
  have one : Nat.ofDigitChars 10 ['1'] 0 = 1 := rfl
  rw [natural?_of_digits (isWhole_powerOfTen zeros).digits, ← List.singleton_append,
    Nat.ofDigitChars_append, one, Nat.ofDigitChars_replicate_zero, Nat.mul_one]

theorem width_powerOfTen {zeros : Nat} (some : 0 < zeros) : Decimal.width (10 ^ zeros) = zeros + 1 := by
  have most := width_le_of_digits (isWhole_powerOfTen zeros).toIsDigits (natural?_powerOfTen zeros)
  rw [List.length_cons, List.length_replicate] at most
  refine Nat.le_antisymm most (Nat.lt_of_not_le fun few => ?_)
  rw [Decimal.width, ofNat, Nat.length_toDigits_le_iff (by omega) some] at few
  exact Nat.lt_irrefl _ few

/-- One with zeros after the point, and an exponent that moves the point behind them. -/
def longOne (zeros : Nat) : String :=
  String.ofList (['1'] ++ Decimal.pointed (List.replicate zeros '0') ++ Decimal.exponentText zeros)

theorem layout_powerOfTen {zeros : Nat} (some : 0 < zeros) :
    Decimal.Layout (10 ^ zeros) 0 ['1'] (List.replicate zeros '0') zeros where
  isWhole := isWhole_powerOfTen 0
  digits d member := by
    rw [List.eq_of_mem_replicate member]
    rfl
  shown := .inr (by omega)
  coefficient := natural?_powerOfTen zeros
  exponent := by
    rw [List.length_replicate]
    omega

theorem readText_longOne {zeros : Nat} (some : 0 < zeros) (few : zeros ≤ maxDigits) :
    readText (longOne zeros) = .ok (.decimal (.finite false (10 ^ zeros) 0)) := by
  have layout := layout_powerOfTen some
  have held : Decimal.representable (10 ^ zeros) 0 = true := by
    have bound : (maxDigits : Int) ≤ Decimal.maxAdjusted := by decide
    have positive : ¬ 10 ^ zeros = 0 := by simp
    have least : Decimal.minExponent ≤ 0 := by decide
    rw [Decimal.representable, if_neg positive, Decimal.adjusted, width_powerOfTen some,
      Bool.and_eq_true, decide_eq_true_eq, decide_eq_true_eq]
    exact ⟨least, by omega⟩
  have oneLine := oneLine_of_begins (by simp) (begins_layout layout)
  have whole := value_layout false layout held delimited_nil
  rw [List.append_nil] at whole
  rw [readText, longOne, String.toList_ofList]
  exact read_eq_ok_iff.mpr ((congrArg value (strip_of_oneLine oneLine)).trans whole)

theorem paired_longOne {zeros : Nat} (some : 0 < zeros) : Paired (longOne zeros).toList := by
  rw [longOne, String.toList_ofList]
  exact paired_of_plain (Decimal.forall_mem_layout (fun _ digit => plain_digit digit) (by decide)
    (layout_powerOfTen some))

/-- A number that is read although its text, as it is written again, is not. -/
theorem readText_compact_longOne :
    StandsFor (longOne 4300) (.decimal (.finite false (10 ^ 4300) 0)) ∧
      readText (compact (.decimal (.finite false (10 ^ 4300) 0))) = .error .tooManyDigits := by
  have some : 0 < 4300 := by decide
  have found : StandsFor (longOne 4300) (.decimal (.finite false (10 ^ 4300) 0)) :=
    ⟨readText_longOne some (Nat.le_refl maxDigits), paired_longOne some⟩
  have overlong : (Value.decimal (.finite false (10 ^ 4300) 0)).Overlong :=
    .decimal (by rw [width_powerOfTen some]; exact Nat.lt_succ_self _)
  exact ⟨found, (readText_compact found).2.1 overlong⟩

end Json

end SchemaOnRead
