import SchemaOnRead.Numeric.Binary64
import SchemaOnRead.Text.Quoted

/-!
# Values

The values that documents and records are made of. Numbers without a fraction are integers of any
size, numbers with one are decimals, and doubles stand for what decimals cannot hold. An object
keeps its fields in order and has each key once. `Value.literal` and `Value.shown` write a value
into a message.
-/

namespace SchemaOnRead

/-- A value of a document or a record. -/
inductive Value where
  | null
  | bool (b : Bool)
  | integer (n : Int)
  | decimal (d : Decimal)
  | double (x : Binary64)
  | text (s : String)
  | list (items : List Value)
  | object (fields : List (String × Value))
  deriving Repr, Inhabited

/-- What looking up a key gives is there. -/
theorem mem_of_lookup_eq_some {α β : Type} [BEq α] [LawfulBEq α] {entries : List (α × β)} {key : α}
    {v : β} (found : entries.lookup key = some v) : (key, v) ∈ entries := by
  obtain ⟨before, after, rfl, -⟩ := List.lookup_eq_some_iff.mp found
  simp

/-- What is there is what looking up its key gives, if no key is there twice. -/
theorem lookup_of_mem {α β : Type} [BEq α] [LawfulBEq α] {entries : List (α × β)}
    (distinct : (entries.map Prod.fst).Nodup) {key : α} {v : β} (member : (key, v) ∈ entries) :
    entries.lookup key = some v := by
  induction entries with
  | nil => cases member
  | cons e rest ih =>
    obtain ⟨k, w⟩ := e
    rw [List.map_cons, List.nodup_cons] at distinct
    rw [List.lookup_cons]
    rcases List.mem_cons.mp member with same | later
    · cases same
      simp
    · have different : (key == k) = false := by
        rw [beq_eq_false_iff_ne]
        rintro rfl
        exact distinct.1 (List.mem_map.mpr ⟨(key, v), later, rfl⟩)
      rw [different]
      exact ih distinct.2 later

namespace Value

/-! ## Fields -/

/-- The fields of an object, in order. -/
abbrev Fields := List (String × Value)

/-- The value of a field. -/
def field? (fields : Fields) (key : String) : Option Value := fields.lookup key

/-- Sets a field: a key that is there keeps its place, a new one goes to the end. -/
def setField : Fields → String → Value → Fields
  | [], key, v => [(key, v)]
  | (k, w) :: rest, key, v => if k = key then (k, v) :: rest else (k, w) :: setField rest key v

/-- The fields written one after another: a repeated key keeps its first place and its last
value. -/
def ofPairs (pairs : List (String × Value)) : Fields :=
  pairs.foldl (fun fields kv => setField fields kv.1 kv.2) []

/-- The value of a field, where a field that is absent counts as null. -/
def fieldD (fields : Fields) (key : String) : Value := (field? fields key).getD .null

/-! ## Kinds -/

/-- The word for a value's kind in messages. -/
def kind : Value → String
  | null => "NoneType"
  | bool _ => "bool"
  | integer _ => "int"
  | decimal _ => "Decimal"
  | double _ => "float"
  | text _ => "str"
  | list _ => "list"
  | object _ => "dict"

/-- Whether a value is a number; a truth value is not. -/
def isNumber : Value → Bool
  | integer _ | decimal _ | double _ => true
  | _ => false

def isNull : Value → Bool
  | null => true
  | _ => false

/-! ## Text in messages -/

mutual

/-- A value as a literal: texts in quotes, decimals with their type. -/
def literal : Value → List Char
  | null => "None".toList
  | bool b => if b then "True".toList else "False".toList
  | integer n => Text.ofInt n
  | decimal d => "Decimal('".toList ++ d.chars ++ "')".toList
  | double x => x.text.toList
  | text s => Text.quoted s.toList
  | list items => '[' :: literals items ++ [']']
  | object fields => '\x7b' :: fieldLiterals fields ++ ['\x7d']

/-- The literals of a list's items, with commas between them. -/
def literals : List Value → List Char
  | [] => []
  | [v] => literal v
  | v :: rest => literal v ++ ',' :: ' ' :: literals rest

/-- The literals of an object's fields, with commas between them. -/
def fieldLiterals : List (String × Value) → List Char
  | [] => []
  | [(k, v)] => Text.quoted k.toList ++ ':' :: ' ' :: literal v
  | (k, v) :: rest => Text.quoted k.toList ++ ':' :: ' ' :: literal v ++ ',' :: ' ' :: fieldLiterals rest

end

/-- A value as it is shown in a message: a text or a decimal as it is, anything else as a
literal. -/
def shown : Value → String
  | text s => s
  | decimal d => d.text
  | v => String.ofList v.literal

/-- A value as a quoted literal. -/
def quoted (v : Value) : String := String.ofList v.literal

/-! ## Doubles for decimals -/

mutual

/-- A value in which the nearest double stands for each decimal. -/
def withDoubles : Value → Value
  | decimal d => .double ((Binary64.ofDecimal? d).getD .nan)
  | list items => .list (listWithDoubles items)
  | object fields => .object (fieldsWithDoubles fields)
  | v => v

/-- Values in which doubles stand for decimals. -/
def listWithDoubles : List Value → List Value
  | [] => []
  | v :: rest => withDoubles v :: listWithDoubles rest

/-- Fields in which doubles stand for decimals. -/
def fieldsWithDoubles : List (String × Value) → List (String × Value)
  | [] => []
  | (k, v) :: rest => (k, withDoubles v) :: fieldsWithDoubles rest

end

/-! ## Equality -/

mutual

/-- Whether two values are the same, each with the same digits. -/
def identical : Value → Value → Bool
  | null, null => true
  | bool a, bool b => a == b
  | integer a, integer b => a == b
  | decimal a, decimal b => a == b
  | double a, double b => a == b
  | text a, text b => a == b
  | list a, list b => identicalItems a b
  | object a, object b => identicalFields a b
  | _, _ => false

/-- Whether two lists hold the same values in the same order. -/
def identicalItems : List Value → List Value → Bool
  | [], [] => true
  | v :: vs, w :: ws => identical v w && identicalItems vs ws
  | _, _ => false

/-- Whether two objects have the same fields in the same order. -/
def identicalFields : List (String × Value) → List (String × Value) → Bool
  | [], [] => true
  | (k, v) :: vs, (l, w) :: ws => k == l && identical v w && identicalFields vs ws
  | _, _ => false

end

instance : BEq Value := ⟨identical⟩

end Value

end SchemaOnRead
