import SchemaOnRead.Failure

/-!
# Templates of messages

A template is a text with places for arguments. A place is a percent sign with flags, a width and a
precision, and a letter that tells the form of the argument; it may name an argument instead of
taking the next one. As many arguments have to be given as places take.
-/

namespace SchemaOnRead

namespace Template

/-- How a place in a template writes its argument. -/
structure Place where
  name : Option String := none
  flags : List Char := []
  width : Nat := 0
  precision : Option Nat := none
  letter : Char
  deriving DecidableEq, Repr

/-- The arguments of a template: in order, or by name. Those by name can also be taken together, as one
argument, unless a place has taken something before. -/
inductive Arguments where
  | inOrder (vs : List Value)
  | byName (fields : Value.Fields) (isTaken : Bool)

/-- The arguments given for a template. One object that is not empty holds them by name. -/
def Arguments.of : List Value → Arguments
  | [.object (f :: fs)] => .byName (f :: fs) false
  | vs => .inOrder vs

/-- Fails because an argument does not have the form that a template needs. -/
def misfit {α : Type} : Result α := fail (.other .wrongType)

/-- Fails because a template is not well-formed. -/
def malformed {α : Type} : Result α := fail (.other .badValue)

/-! ## Reading places -/

/-- The number that a text begins with, and the text after it. -/
def number (cs : List Char) : Option Nat × List Char :=
  let ds := cs.takeWhile Text.isAsciiDigit
  (Text.natural? ds |>.filter fun _ => !ds.isEmpty, cs.drop ds.length)

/-- A place after its percent sign, and the text after it. -/
def place? (cs : List Char) : Option (Place × List Char) := do
  let (name, cs) ← match cs with
    | '(' :: rest =>
      if rest.contains ')' then
        some (some (String.ofList (rest.takeWhile (· ≠ ')'))), (rest.dropWhile (· ≠ ')')).drop 1)
      else none
    | cs => some (none, cs)
  let isFlag (c : Char) : Bool := "-+ #0".toList.contains c
  let flags := cs.takeWhile isFlag
  let (width, cs) := number (cs.drop flags.length)
  let (precision, cs) := match cs with
    | '.' :: rest =>
      let (n, after) := number rest
      (some (n.getD 0), after)
    | cs => (none, cs)
  match cs.dropWhile fun c => c == 'h' || c == 'l' || c == 'L' with
  | letter :: rest => some (⟨name, flags, width.getD 0, precision, letter⟩, rest)
  | [] => none

/-! ## Writing arguments -/

/-- Fills a text up to the width of a place. -/
def pad (p : Place) (cs : List Char) : List Char :=
  let gap := List.replicate (p.width - cs.length) ' '
  if p.flags.contains '-' then cs ++ gap else gap ++ cs

/-- A number's digits with its sign, filled up to the width of a place. -/
def padNumber (p : Place) (negative : Bool) (start digits : List Char) : List Char :=
  let sign :=
    if negative then ['-']
    else if p.flags.contains '+' then ['+']
    else if p.flags.contains ' ' then [' ']
    else []
  let head := sign ++ start
  if p.flags.contains '0' && !p.flags.contains '-' then
    head ++ Text.padZeros (p.width - head.length) digits
  else pad p (head ++ digits)

/-- The integer that an argument is; a double only where its fraction may be dropped. -/
def integer (mayDrop : Bool) : Value → Result Int
  | .integer n => .ok n
  | .bool b => .ok (if b then 1 else 0)
  | .double x =>
    if mayDrop then
      match x, x.ratio? with
      | _, some (n, d) => .ok (n.tdiv d)
      | .nan, none => malformed
      | _, none => fail (.other .overflow)
    else misfit
  | _ => misfit

/-- The double that an argument is. -/
def double : Value → Result Binary64
  | .double x => .ok x
  | .integer n =>
    match Binary64.ofInt? n with
    | some x => .ok x
    | none => fail (.other .overflow)
  | .bool b => .ok (.ofRatio false (if b then 1 else 0) 1)
  | _ => misfit

/-- An integer in a base. -/
def integerText (p : Place) (base : Nat) (mark : List Char) (n : Int) : List Char :=
  let digits := Text.padZeros (p.precision.getD 0) (Nat.toDigits base n.natAbs)
  padNumber p (n < 0) (if p.flags.contains '#' then mark else []) digits

/-- Whether a place asks for the alternate form. -/
def Place.isAlternate (p : Place) : Bool := p.flags.contains '#'

/-- A double's digits after its sign as a place writes them. -/
def padDouble (p : Place) : List Char → List Char
  | '-' :: digits => padNumber p true [] digits
  | digits => padNumber p false [] digits

/-- A double with a fixed count of digits after the point. -/
def fixedText (p : Place) (x : Binary64) : List Char :=
  let cs := x.fixed (p.precision.getD 6)
  padDouble p (if p.isAlternate && p.precision = some 0 then cs ++ ['.'] else cs)

/-- The digits `c` with a point after the first one, and the exponent of that one. -/
def scientific (alternate : Bool) (letter : Char) (places c : Nat) (x : Int) : List Char :=
  let ds := Text.padZeros (places + 1) (Text.ofNat c)
  ds.take 1 ++ (if alternate || 0 < places then '.' :: ds.drop 1 else []) ++
    letter :: (if x < 0 then '-' else '+') :: Text.padZeros 2 (Text.ofNat x.natAbs)

/-- The digits of the magnitude of a finite double and the exponent of the first of them. -/
def digits (count m : Nat) (q : Int) : Nat × Int :=
  let (num, den) := Binary64.magnitude m q
  if m = 0 then (0, 0) else Binary64.significant count num den

/-- A double with one digit before the point and an exponent. -/
def scientificText (p : Place) (x : Binary64) : List Char :=
  let places := p.precision.getD 6
  match x with
  | .finite s m q =>
    let (c, e) := digits (places + 1) m q
    padNumber p s [] (scientific p.isAlternate p.letter places c e)
  | x => padDouble p (x.fixed 0)

/-- Drops the zeros at the end of a fraction, and its point if no digit is left after it. -/
def dropZeros (cs : List Char) : List Char :=
  if cs.contains '.' then
    let kept := (cs.reverse.dropWhile (· == '0')).reverse
    if kept.getLast? = some '.' then kept.dropLast else kept
  else cs

/-- A double with a count of digits in all, and an exponent only where it is small or large. -/
def generalText (p : Place) (x : Binary64) : List Char :=
  let count := max 1 (p.precision.getD 6)
  match x with
  | .finite s m q =>
    let (c, e) := digits count m q
    let shorten (cs : List Char) : List Char := if p.isAlternate then cs else dropZeros cs
    let text :=
      if -4 ≤ e ∧ e < count then
        let places := (count - 1 - e).toNat
        let (num, den) := Binary64.magnitude m q
        let cs := Binary64.fixedText places false num den
        shorten (if p.isAlternate && places = 0 then cs ++ ['.'] else cs)
      else
        let cs := scientific p.isAlternate (if p.letter = 'g' then 'e' else 'E') (count - 1) c e
        shorten (cs.takeWhile fun c => c != 'e' && c != 'E') ++
          cs.dropWhile fun c => c != 'e' && c != 'E'
    padNumber p s [] text
  | x => padDouble p (x.fixed 0)

/-- A character: one that is given, or one by its number. -/
def character : Value → Result (List Char)
  | .text s => if s.length = 1 then .ok s.toList else misfit
  | .integer n => if 0 ≤ n ∧ n < 0x110000 then .ok [Char.ofNat n.toNat] else fail (.other .overflow)
  | .bool b => .ok [if b then '\x01' else '\x00']
  | _ => misfit

/-- An argument as a place writes it. -/
def write (p : Place) (v : Value) : Result (List Char) :=
  let cut (cs : List Char) : List Char := match p.precision with
    | some n => cs.take n
    | none => cs
  match p.letter with
  | 's' => .ok (pad p (cut v.shown.toList))
  | 'r' => .ok (pad p (cut v.literal))
  | 'a' => .ok (pad p (cut (v.literal.flatMap Text.asciiChar)))
  | 'd' | 'i' | 'u' => (integer true v).map (integerText p 10 [])
  | 'x' => (integer false v).map (integerText p 16 ['0', 'x'])
  | 'X' => (integer false v).map fun n => (integerText p 16 ['0', 'x'] n).map Char.toUpper
  | 'o' => (integer false v).map (integerText p 8 ['0', 'o'])
  | 'f' | 'F' => (double v).map (fixedText p)
  | 'e' | 'E' => (double v).map (scientificText p)
  | 'g' | 'G' => (double v).map (generalText p)
  | 'c' => (character v).map (pad p)
  | _ => malformed

/-! ## Filling templates -/

/-- The argument for a place, and those that are left. -/
def argument (p : Place) (args : Arguments) : Result (Value × Arguments) :=
  match p.name, args with
  | some n, .byName fields _ =>
    match fields.lookup n with
    | some v => .ok (v, .byName fields true)
    | none => fail (.other .missingKey)
  | some _, .inOrder _ => misfit
  | none, .inOrder (v :: rest) => .ok (v, .inOrder rest)
  | none, .inOrder [] => misfit
  | none, .byName fields false => .ok (.object fields, .byName fields true)
  | none, .byName _ true => misfit

/-- Fills the places of a template. Each step takes at least one character. -/
def fillFrom : Nat → Arguments → List Char → Result (List Char)
  | 0, _, _ => .ok []
  | fuel + 1, args, cs =>
    match cs with
    | [] =>
      match args with
      | .inOrder (_ :: _) => misfit
      | _ => .ok []
    | '%' :: '%' :: rest => (fillFrom fuel args rest).map ('%' :: ·)
    | '%' :: rest =>
      match place? rest with
      | none => malformed
      | some (p, after) => do
        let (v, left) ← argument p args
        let written ← write p v
        return written ++ (← fillFrom fuel left after)
    | c :: rest => (fillFrom fuel args rest).map (c :: ·)

/-- A template filled with arguments; without any it stays as it is. -/
def fill (template : String) (args : List Value) : Result String :=
  if args.isEmpty then .ok template
  else (fillFrom (template.length + 1) (.of args) template.toList).map String.ofList

end Template

end SchemaOnRead
