import Mathlib.Data.List.Nodup
import Mathlib.Data.List.TakeWhile
import SchemaOnRead.Proofs.Json.Progress
import SchemaOnRead.Proofs.Numeric.DecimalText

/-!
# The values that texts stand for

Not every value is the value of a text: reading gives finite decimals of a bounded exponent,
integers of a bounded number of digits, no finite doubles, and objects that have each key once
(`decoded_value`).
-/

namespace SchemaOnRead

/-! ## Fields -/

namespace Value

/-- The keys of an object's fields. -/
abbrev keys (fields : Fields) : List String := fields.map Prod.fst

theorem keys_setField (fields : Fields) (key : String) (v : Value) :
    keys (setField fields key v) = if key ∈ keys fields then keys fields else keys fields ++ [key] := by
  induction fields with
  | nil => rfl
  | cons p rest ih =>
    obtain ⟨k, w⟩ := p
    rw [setField]
    split
    · rename_i same
      simp [same]
    · rename_i other
      simp only [List.map_cons, List.mem_cons, ih, Ne.symm other, false_or]
      split <;> rfl

/-- A field that is set to a value, or one that was there. -/
theorem mem_setField {fields : Fields} {key : String} {v : Value} {p : String × Value}
    (member : p ∈ setField fields key v) : p.2 = v ∨ p ∈ fields := by
  induction fields with
  | nil =>
    rw [setField, List.mem_singleton] at member
    exact .inl (member ▸ rfl)
  | cons q rest ih =>
    obtain ⟨k, w⟩ := q
    rw [setField] at member
    split at member
    · rcases List.mem_cons.mp member with rfl | later
      · exact .inl rfl
      · exact .inr (List.mem_cons_of_mem _ later)
    · rcases List.mem_cons.mp member with rfl | later
      · exact .inr List.mem_cons_self
      · exact (ih later).imp_right (List.mem_cons_of_mem _)

theorem setField_new {fields : Fields} {key : String} (new : key ∉ keys fields) (v : Value) :
    setField fields key v = fields ++ [(key, v)] := by
  induction fields with
  | nil => rfl
  | cons p rest ih =>
    obtain ⟨k, w⟩ := p
    rw [keys, List.map_cons, List.mem_cons, not_or] at new
    rw [setField, if_neg (Ne.symm new.1), ih new.2]
    rfl

theorem foldl_setField_distinct {fields : Fields} (pairs : Fields)
    (distinct : (keys (fields ++ pairs)).Nodup) :
    pairs.foldl (fun fields kv => setField fields kv.1 kv.2) fields = fields ++ pairs := by
  induction pairs generalizing fields with
  | nil => exact (List.append_nil fields).symm
  | cons p pairs ih =>
    have new : p.1 ∉ keys fields := by
      intro there
      rw [keys, List.map_append, List.nodup_append] at distinct
      exact distinct.2.2 p.1 there p.1 List.mem_cons_self rfl
    rw [List.append_cons] at distinct ⊢
    rw [List.foldl_cons, setField_new new, ih distinct]

/-- Fields of different keys are written as they stand. -/
theorem ofPairs_of_distinct {pairs : Fields} (distinct : (keys pairs).Nodup) :
    ofPairs pairs = pairs := foldl_setField_distinct pairs distinct

theorem keys_foldl_setField_nodup {fields : Fields} (pairs : List (String × Value))
    (distinct : (keys fields).Nodup) :
    (keys (pairs.foldl (fun fields kv => setField fields kv.1 kv.2) fields)).Nodup := by
  induction pairs generalizing fields with
  | nil => exact distinct
  | cons p pairs ih =>
    refine ih ?_
    rw [keys_setField]
    split
    · exact distinct
    · rename_i new
      exact List.nodup_append.mpr ⟨distinct, List.nodup_singleton _, fun k there l single same =>
        new (List.mem_singleton.mp single ▸ same ▸ there)⟩

theorem keys_ofPairs_nodup (pairs : List (String × Value)) : (keys (ofPairs pairs)).Nodup :=
  keys_foldl_setField_nodup pairs List.nodup_nil

theorem forall_foldl_setField {holds : Value → Prop} {fields : Fields} (pairs : List (String × Value))
    (before : ∀ p ∈ fields, holds p.2) (added : ∀ p ∈ pairs, holds p.2) :
    ∀ p ∈ pairs.foldl (fun fields kv => setField fields kv.1 kv.2) fields, holds p.2 := by
  induction pairs generalizing fields with
  | nil => exact before
  | cons q pairs ih =>
    refine ih (fun p member => ?_) fun p member => added p (List.mem_cons_of_mem _ member)
    rcases mem_setField member with same | there
    · exact same ▸ added q List.mem_cons_self
    · exact before p there

/-- What holds of the values of some pairs holds of the fields made of them. -/
theorem forall_ofPairs {holds : Value → Prop} {pairs : List (String × Value)}
    (all : ∀ p ∈ pairs, holds p.2) : ∀ p ∈ ofPairs pairs, holds p.2 :=
  forall_foldl_setField pairs (fun _ member => nomatch member) all

end Value

namespace Json

open Text

/-- The values that a text can stand for. -/
inductive Decoded : Value → Prop where
  | null : Decoded .null
  | bool (b : Bool) : Decoded (.bool b)
  | integer {n : Int} (short : Decimal.width n.natAbs ≤ maxDigits) : Decoded (.integer n)
  | decimal {negative : Bool} {c : Nat} {e : Int} (held : Decimal.representable c e = true) :
    Decoded (.decimal (.finite negative c e))
  | nan : Decoded (.double .nan)
  | infinite (negative : Bool) : Decoded (.double (.infinite negative))
  | text (s : String) : Decoded (.text s)
  | list {items : List Value} (inner : ∀ v ∈ items, Decoded v) : Decoded (.list items)
  | object {fields : Value.Fields} (distinct : (Value.keys fields).Nodup)
    (inner : ∀ p ∈ fields, Decoded p.2) : Decoded (.object fields)

/-! ## Numbers and words -/

theorem width_le_of_digits {ds : List Char} (isDigits : IsDigits ds) {n : Nat}
    (read : natural? ds = some n) : Decimal.width n ≤ ds.length := by
  rw [natural?_of_digits isDigits.digits] at read
  cases read
  have positive := List.length_pos_iff.mpr isDigits.nonempty
  rw [Decimal.width, ofNat, Nat.length_toDigits_le_iff (by omega) positive]
  exact ofDigitChars_lt isDigits.digits

theorem isDigits_wholeDigits {cs ds rest : List Char} (read : wholeDigits? cs = some (ds, rest)) :
    IsDigits ds := by
  unfold wholeDigits? at read
  split at read
  · cases read
    exact ⟨List.cons_ne_nil _ _, by decide⟩
  · split at read
    · cases read
    · rename_i nonempty
      have spanned := Option.some.inj read
      refine ⟨fun empty => nonempty rest (empty ▸ spanned), fun c member => ?_⟩
      rw [spanDigits_eq, Prod.mk.injEq] at spanned
      rw [← spanned.1] at member
      exact List.mem_takeWhile_imp member

theorem natAbs_signed (negative : Bool) (n : Nat) : (Decimal.signed negative n).natAbs = n := by
  cases negative <;> simp [Decimal.signed]

theorem decoded_numeral {negative : Bool} {whole fraction exponent : List Char} {v : Value}
    (isDigits : IsDigits whole) (read : numeral negative whole fraction exponent = .ok v) :
    Decoded v := by
  unfold numeral at read
  split at read
  · split at read
    · cases read
    · rename_i short
      have value := natural?_of_digits isDigits.digits
      rw [value, Option.getD_some] at read
      cases read
      refine .integer ?_
      rw [natAbs_signed]
      exact Nat.le_trans (width_le_of_digits isDigits value) (Nat.le_of_not_lt short)
  · split at read
    · rename_i found
      cases read
      obtain ⟨c, e, rfl, held⟩ := Decimal.finite?_eq_some found
      exact .decimal held
    · cases read

theorem decoded_number {cs rest : List Char} {v : Value} (read : number cs = .ok (v, rest)) :
    Decoded v := by
  unfold number at read
  split at read
  · cases read
  · rename_i whole after digits
    obtain ⟨w, made, same⟩ := ok_of_map read
    cases same
    exact decoded_numeral (isDigits_wholeDigits digits) made

theorem decoded_constant {cs rest : List Char} {v : Value} (found : constant? cs = some (v, rest)) :
    Decoded v := by
  obtain ⟨⟨word, w⟩, member, dropped⟩ := List.exists_of_findSome?_eq_some found
  obtain ⟨after, kept, same⟩ := Option.map_eq_some_iff.mp dropped
  cases same
  have words : ∀ p ∈ constants, Decoded p.2 := by
    simp only [constants, List.forall_mem_cons]
    exact ⟨.null, .bool _, .bool _, .nan, .infinite _, .infinite _, fun _ none => absurd none List.not_mem_nil⟩
  exact words _ member

theorem decoded_scalar {cs rest : List Char} {v : Value} (read : scalar cs = .ok (v, rest)) :
    Decoded v := by
  unfold scalar at read
  split at read
  · rename_i found
    cases read
    exact decoded_constant found
  · exact decoded_number read

/-! ## Values -/

theorem decoded_list_nil : Decoded (.list []) := .list fun _ none => absurd none List.not_mem_nil

theorem decoded_object_nil : Decoded (.object []) :=
  .object List.nodup_nil fun _ none => absurd none List.not_mem_nil

/-- Three readers with the same steps read values that texts can stand for. -/
structure Decoding (fuel : Nat) : Prop where
  value : ∀ {cs v rest}, valueFrom fuel cs = .ok (v, rest) → Decoded v
  members : ∀ {acc cs ms rest}, (∀ p ∈ acc, Decoded p.2) →
    membersFrom fuel acc cs = .ok (ms, rest) → ∀ p ∈ ms, Decoded p.2
  elements : ∀ {acc cs vs rest}, (∀ v ∈ acc, Decoded v) →
    elementsFrom fuel acc cs = .ok (vs, rest) → ∀ v ∈ vs, Decoded v

/-- What holds of the parts so far and of those that come next holds of all parts. -/
theorem forall_afterPart {α : Type} {motive : α → Prop} {closing : Char} {parts a : α}
    {next : List Char → Except Fault (α × List Char)} {cs rest : List Char} (soFar : motive parts)
    (later : ∀ {cs}, next cs = .ok (a, rest) → motive a)
    (read : afterPart closing parts next cs = .ok (a, rest)) : motive a := by
  cases cs with
  | nil => cases read
  | cons c after =>
    rw [afterPart] at read
    split at read
    · cases read
      exact soFar
    · split at read
      · exact later read
      · cases read

theorem forall_opened {α : Type} {motive : α → Prop} {closing : Char} {empty a : α}
    {parts : List Char → Except Fault (α × List Char)} {cs rest : List Char} (none : motive empty)
    (some : parts cs = .ok (a, rest) → motive a)
    (read : opened closing empty parts cs = .ok (a, rest)) : motive a := by
  cases cs with
  | nil => exact some read
  | cons c after =>
    rw [opened] at read
    split at read
    · cases read
      exact none
    · exact some read

theorem Decoding.memberValue {fuel : Nat} (decoding : Decoding fuel)
    {acc ms : List (String × Value)} {key : String} {cs rest : List Char}
    (before : ∀ p ∈ acc, Decoded p.2)
    (read : Json.memberValue fuel acc key cs = .ok (ms, rest)) : ∀ p ∈ ms, Decoded p.2 := by
  by_cases colon : ∃ after, cs = ':' :: after
  · obtain ⟨after, rfl⟩ := colon
    rw [memberValue_colon] at read
    obtain ⟨q, first, later⟩ := ok_of_bind read
    have all : ∀ p ∈ (key, q.1) :: acc, Decoded p.2 :=
      List.forall_mem_cons.mpr ⟨decoding.value first, before⟩
    refine forall_afterPart (motive := fun ms => ∀ p ∈ ms, Decoded p.2) ?_
      (fun more => decoding.members all more) later
    exact fun p member => all p (List.mem_reverse.mp member)
  · rw [memberValue_other _ _ _ fun after same => colon ⟨after, same⟩] at read
    cases read

/-- What is read is a value that a text can stand for, however many steps the readers have. -/
theorem decoding : (fuel : Nat) → Decoding fuel
  | 0 => ⟨fun read => (nomatch read), fun _ read => (nomatch read), fun _ read => (nomatch read)⟩
  | fuel + 1 => by
    have inner := decoding fuel
    refine ⟨@fun cs v rest read => ?_, @fun acc cs ms rest before read => ?_,
      @fun acc cs vs rest before read => ?_⟩
    · induction cs using firstChar_cases with
      | nil =>
        rw [valueFrom_nil] at read
        cases read
      | string after =>
        rw [valueFrom_string] at read
        obtain ⟨q, -, same⟩ := ok_of_map read
        cases same
        exact .text _
      | object after =>
        rw [valueFrom_object] at read
        refine forall_opened (motive := Decoded) decoded_object_nil (fun body => ?_) read
        obtain ⟨q, members, same⟩ := ok_of_map body
        cases same
        have all := inner.members (fun _ none => absurd none List.not_mem_nil) members
        exact .object (Value.keys_ofPairs_nodup _) (Value.forall_ofPairs all)
      | list after =>
        rw [valueFrom_list] at read
        refine forall_opened (motive := Decoded) decoded_list_nil (fun body => ?_) read
        obtain ⟨q, elements, same⟩ := ok_of_map body
        cases same
        exact .list (inner.elements (fun _ none => absurd none List.not_mem_nil) elements)
      | scalar c after noString noObject noList =>
        rw [valueFrom_scalar _ noString noObject noList] at read
        exact decoded_scalar read
    · by_cases named : ∃ after, cs = '"' :: after
      · obtain ⟨after, rfl⟩ := named
        rw [membersFrom_succ] at read
        obtain ⟨q, -, later⟩ := ok_of_bind read
        exact inner.memberValue before later
      · rw [membersFrom_other _ _ fun after same => named ⟨after, same⟩] at read
        cases read
    · rw [elementsFrom_succ] at read
      obtain ⟨q, element, later⟩ := ok_of_bind read
      have all : ∀ v ∈ q.1 :: acc, Decoded v :=
        List.forall_mem_cons.mpr ⟨inner.value element, before⟩
      refine forall_afterPart (motive := fun vs => ∀ v ∈ vs, Decoded v) ?_
        (fun more => inner.elements all more) later
      exact fun v member => all v (List.mem_reverse.mp member)

/-- A value that is read is one that a text can stand for. -/
theorem decoded_value {cs rest : List Char} {v : Value} (read : value cs = .ok (v, rest)) :
    Decoded v := (decoding _).value read

/-- A text is that of a value if nothing but blanks stands around it. -/
theorem read_eq_ok_iff {cs : List Char} {v : Value} :
    read cs = .ok v ↔ value (strip cs) = .ok (v, []) := by
  rw [read]
  constructor
  · intro found
    split at found
    · cases found
    · rename_i w whole
      cases found
      exact whole
    · cases found
  · intro whole
    rw [whole]

end Json

end SchemaOnRead
