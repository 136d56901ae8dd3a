import SchemaOnRead.Numeric.Decimal

/-!
# Double precision numbers

The numbers of IEEE 754 binary64 as plain data: a sign, a mantissa below `2 ^ 53` and a power of
two. `Binary64.ofRatio` is the nearest of them to a fraction, `Binary64.shortest` finds the fewest
decimal digits that lead back to one, and everything is computed on natural numbers.
-/

namespace SchemaOnRead

open Text

/-- A double precision number. `finite s m q` is `m * 2 ^ q`, negative if `s`; the mantissa has 53
bits, or fewer with the least exponent `-1074`. -/
inductive Binary64 where
  | finite (negative : Bool) (mantissa : Nat) (exponent : Int)
  | infinite (negative : Bool)
  | nan
  deriving DecidableEq, Repr, Inhabited

namespace Binary64

/-- The fraction `num / den` rounded to the nearest integer, halves to the even one. -/
def roundRatio (num den : Nat) : Nat :=
  let q := num / den
  let r := num % den
  if den < 2 * r ∨ (2 * r = den ∧ q % 2 = 1) then q + 1 else q

/-- The fraction `num / den` divided by `2 ^ q`, as a fraction. -/
def scaleRatio (num den : Nat) (q : Int) : Nat × Nat :=
  if 0 ≤ q then (num, den * twoTo q.toNat) else (num * twoTo (-q).toNat, den)

/-- The exponent of the first bit of a positive fraction: the `k` with
`2 ^ k ≤ num / den < 2 ^ (k + 1)`. -/
def leadingExponent (num den : Nat) : Int :=
  let k : Int := (num.log2 : Int) - den.log2
  let (n, d) := scaleRatio num den k
  if n < d then k - 1 else k

/-- The double nearest to a fraction, halves to the even mantissa; a fraction too large for any
becomes infinite. -/
def ofRatio (negative : Bool) (num den : Nat) : Binary64 :=
  if num = 0 then .finite negative 0 (-1074)
  else
    let q := max (leadingExponent num den - 52) (-1074)
    let (n, d) := scaleRatio num den q
    let m := roundRatio n d
    let (m, q) := if m = twoTo 53 then (twoTo 52, q + 1) else (m, q)
    if 971 < q then .infinite negative else .finite negative m q

/-- The double nearest to `c * 10 ^ e`. Exponents far outside the range of doubles are decided
without computing the power. -/
def ofScientific (negative : Bool) (c : Nat) (e : Int) : Binary64 :=
  if c = 0 then .finite negative 0 (-1074)
  else if 400 < Decimal.adjusted c e then .infinite negative
  else if Decimal.adjusted c e < -400 then .finite negative 0 (-1074)
  else if 0 ≤ e then ofRatio negative (c * tenTo e.toNat) 1
  else ofRatio negative c (tenTo (-e).toNat)

/-- The double nearest to a decimal; `none` for a value whose use is an error. -/
def ofDecimal? : Decimal → Option Binary64
  | .finite s c e => some (ofScientific s c e)
  | .infinite s => some (.infinite s)
  | .nan _ false _ => some .nan
  | .nan _ true _ => none

/-- The double nearest to an integer; `none` if the integer is beyond the largest double. -/
def ofInt? (n : Int) : Option Binary64 :=
  match ofRatio (n < 0) n.natAbs 1 with
  | .infinite _ => none
  | x => some x

/-- The value of a double as a fraction with sign. -/
def ratio? : Binary64 → Option (Int × Nat)
  | .finite s m q =>
    let n := if s then -(m : Int) else m
    some (if 0 ≤ q then (n * twoTo q.toNat, 1) else (n, twoTo (-q).toNat))
  | _ => none

/-- The double nearest to the sum of two finite ones. -/
def add : Binary64 → Binary64 → Binary64
  | .nan, _ => .nan
  | _, .nan => .nan
  | .infinite s, .infinite s' => if s = s' then .infinite s else .nan
  | .infinite s, _ => .infinite s
  | _, .infinite s => .infinite s
  | .finite s m q, .finite s' m' q' =>
    let least := min q q'
    let value (s : Bool) (m : Nat) (q : Int) : Int :=
      let n : Int := m * twoTo (q - least).toNat
      if s then -n else n
    let sum := value s m q + value s' m' q'
    let negative := if sum = 0 then s && s' else sum < 0
    let (n, d) := scaleRatio sum.natAbs 1 (-least)
    ofRatio negative n d

/-- Whether one double is less than another; no number is. -/
def less (x y : Binary64) : Bool :=
  match x, y with
  | .nan, _ => false
  | _, .nan => false
  | .infinite s, .infinite s' => s && !s'
  | .infinite s, .finite .. => s
  | .finite .., .infinite s' => !s'
  | .finite s m q, .finite s' m' q' =>
    let least := min q q'
    let value (s : Bool) (m : Nat) (q : Int) : Int :=
      let n : Int := m * twoTo (q - least).toNat
      if s then -n else n
    value s m q < value s' m' q'

/-! ## Bits -/

/-- The 64 bits of a double as a number; the canonical pattern for no number. -/
def bits : Binary64 → Nat
  | .nan => 0x7FF8000000000000
  | .infinite s => (if s then twoTo 63 else 0) + 0x7FF * twoTo 52
  | .finite s m q =>
    (if s then twoTo 63 else 0) + if m < twoTo 52 then m else (q + 1075).toNat * twoTo 52 + (m - twoTo 52)

/-! ## Shortest text -/

/-- Whether the fraction `num / den` is rounded to the double `m * 2 ^ q`. -/
def readsBack (m : Nat) (q : Int) (num den : Nat) : Bool :=
  ofRatio false num den == .finite false m q

/-- The multiples of `10 ^ e` next to a fraction, below (or at) it and above it. -/
def neighbours (num den : Nat) (e : Int) : Nat × Nat :=
  let c := if 0 ≤ e then num / (den * tenTo e.toNat) else num * tenTo (-e).toNat / den
  (c, c + 1)

/-- The fraction `c * 10 ^ e`. -/
def decimalRatio (c : Nat) (e : Int) : Nat × Nat :=
  if 0 ≤ e then (c * tenTo e.toNat, 1) else (c, tenTo (-e).toNat)

/-- The multiple of `10 ^ e` that is rounded to the double `m * 2 ^ q`, if there is one: of the
two next to it, the nearer one, and the even one if both are as near. -/
def onGrid? (m : Nat) (q : Int) (num den : Nat) (e : Int) : Option Nat :=
  let (lo, hi) := neighbours num den e
  let (ln, ld) := decimalRatio lo e
  let (hn, hd) := decimalRatio hi e
  let loOk := readsBack m q ln ld
  let hiOk := readsBack m q hn hd
  match loOk, hiOk with
  | false, false => none
  | true, false => some lo
  | false, true => some hi
  | true, true =>
    -- twice the fraction against the sum of both neighbours
    let left := 2 * num * ld * hd
    let right := (ln * hd + hn * ld) * den
    if left < right then some lo
    else if right < left then some hi
    else if lo % 2 = 0 then some lo else some hi

/-- The exponent of the first decimal digit of a positive fraction. -/
def leadingDigit (num den : Nat) : Int :=
  let approx : Int := (Decimal.width num : Int) - Decimal.width den
  let (n, d) := decimalRatio 1 approx
  if num * d < n * den then approx - 1 else approx

/-- The magnitude of a finite double as a fraction. -/
def magnitude (m : Nat) (q : Int) : Nat × Nat :=
  if 0 ≤ q then (m * twoTo q.toNat, 1) else (m, twoTo (-q).toNat)

/-- The fewest digits `c` and the power `e` of ten with `c * 10 ^ e` read as the double `m * 2 ^ q`;
17 digits always suffice. -/
def shortest (m : Nat) (q : Int) : Nat × Int :=
  let (num, den) := magnitude m q
  let k := leadingDigit num den
  let found := (List.range 17).findSome? fun (i : Nat) =>
    let e : Int := k - i
    (onGrid? m q num den e).map fun c => (c, e)
  (found.map fun (c, e) => Decimal.reduce c e).getD (0, 0)

/-- The text of digits `c` times `10 ^ e`: positional from `0.0001` up to `10 ^ 16` with at least
one digit after the point, else scientific with an exponent of at least two digits. -/
def digitsText (c : Nat) (e : Int) : List Char :=
  let ds := Text.ofNat c
  let point : Int := e + ds.length
  if -4 < point ∧ point ≤ 16 then
    let placed := Decimal.placePoint ds point
    if placed.contains '.' then placed else placed ++ ['.', '0']
  else
    let x := point - 1
    let mantissa := if ds.length = 1 then ds else ds.take 1 ++ '.' :: ds.drop 1
    mantissa ++ 'e' :: (if x < 0 then '-' else '+') :: padZeros 2 (Text.ofNat x.natAbs)

/-- How the values that are not finite are spelled. -/
structure Spelling where
  nan : String
  infinity : String

/-- The text of a double: the fewest digits that read back as it. -/
def render (names : Spelling) : Binary64 → List Char
  | .nan => names.nan.toList
  | .infinite s => Decimal.signText s ++ names.infinity.toList
  | .finite s m q =>
    Decimal.signText s ++ if m = 0 then ['0', '.', '0'] else
      let (c, e) := shortest m q
      digitsText c e

/-- The text of a double in messages. -/
def text (x : Binary64) : String := String.ofList (render ⟨"nan", "inf"⟩ x)

/-- The first `n` decimal digits of a positive fraction as a number, halves rounded to even, and the
exponent of the first of them. -/
def significant (n num den : Nat) : Nat × Int :=
  let k := leadingDigit num den
  let (a, b) := decimalRatio 1 (k + 1 - n)
  let c := roundRatio (num * b) (den * a)
  if c = tenTo n then (c / 10, k + 1) else (c, k)

/-- A fraction with a fixed count of digits after the point, halves to even. -/
def fixedText (places : Nat) (negative : Bool) (num den : Nat) : List Char :=
  let n := roundRatio (num * tenTo places) den
  let ds := padZeros (places + 1) (Text.ofNat n)
  let whole := ds.take (ds.length - places)
  Decimal.signText negative ++ whole ++
    if places = 0 then [] else '.' :: ds.drop (ds.length - places)

/-- A double with a fixed count of digits after the point. -/
def fixed (places : Nat) : Binary64 → List Char
  | .nan => "nan".toList
  | .infinite s => Decimal.signText s ++ "inf".toList
  | .finite s m q =>
    let (num, den) := magnitude m q
    fixedText places s num den

/-! ## Reading -/

/-- Drops the underscores of a number's text, each of which must stand between two digits. -/
def dropSeparators? (isDigit : Char → Bool) : Bool → List Char → Option (List Char)
  | _, [] => some []
  | afterDigit, '_' :: rest =>
    match rest with
    | c :: _ => if afterDigit && isDigit c then dropSeparators? isDigit false rest else none
    | [] => none
  | _, c :: rest => (dropSeparators? isDigit (isDigit c) rest).map (c :: ·)

/-- The double nearest to the number a text denotes: blanks around it do not count, underscores may
stand between digits, and the digits may be those of any script. -/
def ofText? (s : String) : Option Binary64 := do
  let cs := (strip s.toList).map Decimal.plainDigit
  let cs ← dropSeparators? isAsciiDigit false cs
  let (negative, body) := match cs with
    | '-' :: r => (true, r)
    | '+' :: r => (false, r)
    | r => (false, r)
  let small := body.map Char.toLower
  if small = "inf".toList ∨ small = "infinity".toList then return .infinite negative
  if small = "nan".toList then return .nan
  let (whole, rest) := Decimal.spanDigits body
  let (fraction, rest) := match rest with
    | '.' :: r => Decimal.spanDigits r
    | r => ([], r)
  if whole.isEmpty && fraction.isEmpty then none
  else
    let c ← natural? (whole ++ fraction)
    let e ← Decimal.exponent? rest
    return ofScientific negative c (e - fraction.length)

end Binary64

/-- The integer a text denotes: an optional sign and digits of any script, with blanks around it
and single underscores between digits. -/
def readInteger? (s : String) : Option Int := do
  let cs := (strip s.toList).map Decimal.plainDigit
  let (negative, body) := match cs with
    | '-' :: r => (true, r)
    | '+' :: r => (false, r)
    | r => (false, r)
  let ds ← Binary64.dropSeparators? isAsciiDigit false body
  if ds.isEmpty || !ds.all isAsciiDigit || 4300 < ds.length then none
  else (natural? ds).map (Decimal.signed negative)

end SchemaOnRead
