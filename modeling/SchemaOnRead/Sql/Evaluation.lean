import SchemaOnRead.Failure
import SchemaOnRead.Sql.Scalar
import SchemaOnRead.Text.Lowercase

/-!
# Evaluating conditions

A condition is true, false or unknown. What concerns a missing value is unknown, except the test for
one; `AND`, `OR` and `NOT` take an unknown part as one that could still be either. Some expressions
have no value here, and a condition that needs one has no answer.
-/

namespace SchemaOnRead.Sql

/-- What is true, false, or unknown. -/
abbrev Truth := Option Bool

namespace Truth

/-- Whether both hold: false if one is false. -/
def and : Truth → Truth → Truth
  | some false, _ => some false
  | _, some false => some false
  | some true, some true => some true
  | _, _ => none

/-- Whether one holds: true if one is true. -/
def or : Truth → Truth → Truth
  | some true, _ => some true
  | _, some true => some true
  | some false, some false => some false
  | _, _ => none

/-- The opposite; that of unknown is unknown. -/
def not : Truth → Truth := Option.map (!·)

/-- Whether one of several holds. -/
def any (ts : List Truth) : Truth := ts.foldr or (some false)

end Truth

/-- What the columns of a row hold, by the names in front of a column's name and its own; none for a
missing value. -/
abbrev Lookup := List String → String → Result (Option Scalar)

namespace Expr

/-- What has no answer. -/
def unanswered {α : Type} : Result α := fail .unanswerable

/-- A value as a truth value. -/
def truth : Option Scalar → Result Truth
  | none => .ok none
  | some (.bool b) => .ok (some b)
  | some (.exact r) => .ok (some (r ≠ 0))
  | some (.text s) =>
    match Scalar.truthOfText? s with
    | some b => .ok (some b)
    | none => unanswered
  | some _ => unanswered

/-- A truth value as a value. -/
def ofTruth (t : Truth) : Option Scalar := t.map .bool

/-- Compares two values; with a missing one the outcome is unknown. -/
def compareValues (c : Comparison) : Option Scalar → Option Scalar → Result Truth
  | some a, some b =>
    match Scalar.order? a b with
    | some o => .ok (some (c.holds o))
    | none => unanswered
  | _, _ => .ok none

/-- The ends of a text, the whole one first. -/
def endings : List Char → List (List Char)
  | [] => [[]]
  | c :: rest => (c :: rest) :: endings rest

/-- Whether a text has the form of a pattern, in which a percent sign stands for any text and a low
line for any character. -/
def fits : List Char → List Char → Bool
  | [], cs => cs.isEmpty
  | '%' :: ps, cs => (endings cs).any (fits ps)
  | '_' :: ps, cs =>
    match cs with
    | _ :: rest => fits ps rest
    | [] => false
  | p :: ps, cs =>
    match cs with
    | c :: rest => p = c && fits ps rest
    | [] => false

/-- Whether a text is like a pattern. -/
def likeValues (ignoringCase : Bool) : Option Scalar → Option Scalar → Result Truth
  | some (.text s), some (.text p) =>
    let letters (s : String) : List Char :=
      if ignoringCase then Text.lower s.toList else s.toList
    .ok (some (fits (letters p) (letters s)))
  | none, _ => .ok none
  | _, none => .ok none
  | _, _ => unanswered

/-- Tests a value for being missing, or for being true or false and not unknown. -/
def isValue (e : Expr) (v : Option Scalar) : Result Truth :=
  match e with
  | null => .ok (some v.isNone)
  | bool b => (truth v).map fun t => some (t == some b)
  | _ => unanswered

/-- Two texts joined. -/
def concatValues : Option Scalar → Option Scalar → Result (Option Scalar)
  | some (.text a), some (.text b) => .ok (some (.text (a ++ b)))
  | none, _ => .ok none
  | _, none => .ok none
  | _, _ => unanswered

/-- The opposite of a number. -/
def negativeValue : Option Scalar → Result (Option Scalar)
  | none => .ok none
  | some (.exact r) => .ok (some (.exact (-r)))
  | _ => unanswered

mutual

/-- The value of an expression on a row; none for a missing or unknown one. -/
def value (look : Lookup) : Expr → Result (Option Scalar)
  | column outer n => look outer n
  | text s => .ok (some (.text s))
  | number s =>
    match Scalar.ofNumber? s with
    | some v => .ok (some v)
    | none => unanswered
  | bool b => .ok (some (.bool b))
  | null => .ok none
  | paren e => value look e
  | not e => do
    let t ← truth (← value look e)
    return ofTruth t.not
  | and a b => do
    let s ← truth (← value look a)
    let t ← truth (← value look b)
    return ofTruth (s.and t)
  | or a b => do
    let s ← truth (← value look a)
    let t ← truth (← value look b)
    return ofTruth (s.or t)
  | compare c a b => do
    let x ← value look a
    let y ← value look b
    return ofTruth (← compareValues c x y)
  | like ignoringCase e p => do
    let x ← value look e
    let y ← value look p
    return ofTruth (← likeValues ignoringCase x y)
  | between e low high => do
    let x ← value look e
    let above ← compareValues .greaterOrEqual x (← value look low)
    let below ← compareValues .lessOrEqual x (← value look high)
    return ofTruth (above.and below)
  | is e v => do return ofTruth (← isValue v (← value look e))
  | member e items => do
    if items.isEmpty then unanswered
    let x ← value look e
    let ys ← values look items
    let ts ← ys.mapM (compareValues .equal x)
    return ofTruth (Truth.any ts)
  | concat a b => do
    let x ← value look a
    let y ← value look b
    concatValues x y
  | negative e => do negativeValue (← value look e)
  | named e _ => value look e
  | star _ | tuple _ | memberOf .. | arithmetic .. | cast .. | call .. | subquery _ => unanswered

/-- The values of some expressions on a row. -/
def values (look : Lookup) : List Expr → Result (List (Option Scalar))
  | [] => .ok []
  | e :: rest => do
    let v ← value look e
    let vs ← values look rest
    return v :: vs

end

/-- Whether a condition is true on a row. -/
def isTrue (look : Lookup) (e : Expr) : Result Bool := do
  let t ← truth (← value look e)
  return t == some true

end Expr

end SchemaOnRead.Sql
