import SchemaOnRead.Numeric.Power
import SchemaOnRead.Text.Blank
import SchemaOnRead.Text.Digit

/-!
# Decimal numbers

Numbers that keep the digits they were written with: a sign, a coefficient and a power of ten,
beside the infinities and the values that are no number. `Decimal.text` writes one and
`Decimal.ofText?` reads one. Arithmetic is exact and rounded once, to the precision of a
`Decimal.Context`, halves going to the even neighbour.
-/

namespace SchemaOnRead

open Text

/-- A decimal number. `finite s c e` is `c * 10 ^ e`, negative if `s`; zeros have signs and
exponents of their own. A value that is no number may carry a numeric payload, and is signaling if
computing with it is an error. -/
inductive Decimal where
  | finite (negative : Bool) (coefficient : Nat) (exponent : Int)
  | infinite (negative : Bool)
  | nan (negative signaling : Bool) (payload : Nat)
  deriving DecidableEq, Repr, Inhabited

namespace Decimal

/-- The number of decimal digits of a natural number; zero has one. -/
def width (n : Nat) : Nat := (Text.ofNat n).length

/-- The exponent of the most significant digit of `c * 10 ^ e`. -/
def adjusted (c : Nat) (e : Int) : Int := e + width c - 1

/-- The decimal that stands for an integer. -/
def ofInt (n : Int) : Decimal := .finite (n < 0) n.natAbs 0

def isFinite : Decimal → Bool
  | .finite .. => true
  | _ => false

/-! ## Text -/

/-- The mantissa of a number in text, with the point after `point` of the digits `ds`; where there
are no digits before or after the point, zeros fill the gap. -/
def placePoint (ds : List Char) (point : Int) : List Char :=
  if point ≤ 0 then '0' :: '.' :: List.replicate (-point).toNat '0' ++ ds
  else if ds.length ≤ point then ds ++ List.replicate (point.toNat - ds.length) '0'
  else ds.take point.toNat ++ '.' :: ds.drop point.toNat

/-- An exponent as it stands after the mantissa, with its sign; zero is not written. -/
def exponentText (e : Int) : List Char :=
  if e = 0 then [] else if e < 0 then 'E' :: Text.ofInt e else 'E' :: '+' :: Text.ofInt e

/-- The digits of `c * 10 ^ e` as text: positional when the exponent is not positive and the first
digit stands no more than six places after the point, else scientific. -/
def digitsText (c : Nat) (e : Int) : List Char :=
  let ds := Text.ofNat c
  let left : Int := e + ds.length
  let point : Int := if e ≤ 0 ∧ -6 < left then left else 1
  placePoint ds point ++ exponentText (left - point)

def signText (negative : Bool) : List Char := if negative then ['-'] else []

/-- The text of a decimal, as a list of characters. -/
def chars : Decimal → List Char
  | .finite s c e => signText s ++ digitsText c e
  | .infinite s => signText s ++ "Infinity".toList
  | .nan s signaling payload =>
    signText s ++ (if signaling then "sNaN".toList else "NaN".toList) ++
      if payload = 0 then [] else Text.ofNat payload

/-- The text of a decimal. -/
def text (d : Decimal) : String := String.ofList d.chars

/-! ## Reading -/

/-- The largest exponent of a number's first digit. -/
def maxAdjusted : Int := 999999999999999999

/-- The smallest exponent. -/
def minExponent : Int := -1999999999999999997

/-- Whether `c * 10 ^ e` can be held exactly. -/
def representable (c : Nat) (e : Int) : Bool :=
  minExponent ≤ e && (if c = 0 then e ≤ maxAdjusted else adjusted c e ≤ maxAdjusted)

/-- The digits a text begins with, and the rest. -/
def spanDigits (cs : List Char) : List Char × List Char := cs.span isAsciiDigit

/-- An exponent part: nothing, or the letter `e` with an optionally signed number. -/
def exponent? : List Char → Option Int
  | [] => some 0
  | c :: rest =>
    if c = 'e' ∨ c = 'E' then
      let (negative, ds) := match rest with
        | '-' :: r => (true, r)
        | '+' :: r => (false, r)
        | r => (false, r)
      if ds.isEmpty || !ds.all isAsciiDigit then none
      else (natural? ds).map fun n => if negative then -(n : Int) else n
    else none

/-- The finite number a text denotes: digits with at most one point among them, then an exponent. -/
def finite? (negative : Bool) (cs : List Char) : Option Decimal :=
  let (whole, rest) := spanDigits cs
  let (fraction, rest) := match rest with
    | '.' :: r => spanDigits r
    | r => ([], r)
  if whole.isEmpty && fraction.isEmpty then none
  else
    match natural? (whole ++ fraction), exponent? rest with
    | some c, some e =>
      let e := e - fraction.length
      if representable c e then some (.finite negative c e) else none
    | _, _ => none

/-- The payload after the word for a value that is no number. -/
def payload? (cs : List Char) : Option Nat :=
  if cs.all isAsciiDigit then natural? cs else none

/-- The unsigned part of a number's text. -/
def unsigned? (negative : Bool) (cs : List Char) : Option Decimal :=
  let small := cs.map Char.toLower
  if small = "inf".toList ∨ small = "infinity".toList then some (.infinite negative)
  else if small.take 3 = "nan".toList then (payload? (cs.drop 3)).map (.nan negative false)
  else if small.take 4 = "snan".toList then (payload? (cs.drop 4)).map (.nan negative true)
  else finite? negative cs

/-- The number a text without blanks or digit separators denotes. -/
def ofChars? : List Char → Option Decimal
  | '-' :: rest => unsigned? true rest
  | '+' :: rest => unsigned? false rest
  | cs => unsigned? false cs

/-- A digit of any script as an ASCII one; other characters stay. -/
def plainDigit (c : Char) : Char :=
  match digit? c with
  | some d => digitChar d
  | none => c

/-- The number a text denotes: blanks around it and underscores in it do not count, and the digits
may be those of any script. -/
def ofText? (s : String) : Option Decimal :=
  ofChars? (((strip s.toList).filter (· ≠ '_')).map plainDigit)

/-! ## Comparison -/

/-- `c * 10 ^ e` without trailing zeros in the coefficient, so that equal numbers get equal pairs. -/
def reduce (c : Nat) (e : Int) : Nat × Int :=
  if c = 0 then (0, 0) else go c e (width c)
where
  go (c : Nat) (e : Int) : Nat → Nat × Int
    | 0 => (c, e)
    | fuel + 1 => if c % 10 = 0 then go (c / 10) (e + 1) fuel else (c, e)

/-- Whether two decimals are the same number. A value that is no number equals nothing. -/
def same : Decimal → Decimal → Bool
  | .finite s c e, .finite s' c' e' => reduce c e == reduce c' e' && (c == 0 || s == s')
  | .infinite s, .infinite s' => s == s'
  | _, _ => false

/-! ## Integers -/

/-- The integer next to `c * 10 ^ e` towards zero. -/
def magnitude (c : Nat) (e : Int) : Nat :=
  if 0 ≤ e then c * tenTo e.toNat
  else if width c ≤ (-e).toNat then 0
  else c / tenTo (-e).toNat

def signed (negative : Bool) (n : Nat) : Int := if negative then -(n : Int) else n

/-- The integer next to a finite number towards zero. -/
def truncate? : Decimal → Option Int
  | .finite s c e => some (signed s (magnitude c e))
  | _ => none

/-! ## Rounding -/

/-- `n / 10 ^ k` rounded to the nearest integer, halves to the even one. -/
def shiftRight (n k : Nat) : Nat :=
  let unit := tenTo k
  let q := n / unit
  let r := n % unit
  if unit < 2 * r ∨ (2 * r = unit ∧ q % 2 = 1) then q + 1 else q

/-- How results are rounded: the number of digits kept, and the range of exponents that the first
digit of a result may have. -/
structure Context where
  precision : Nat
  least : Int
  greatest : Int

/-- The context of plain arithmetic: 28 digits. -/
def Context.standard : Context := ⟨28, -999999, 999999⟩

/-- The least exponent of a result. -/
def Context.tiny (ctx : Context) : Int := ctx.least - ctx.precision + 1

/-- Rounds `c * 10 ^ e` so that it has at most the context's digits and no exponent below its
least; `none` if the result is too large. -/
def Context.round? (ctx : Context) (negative : Bool) (c : Nat) (e : Int) : Option Decimal :=
  if c = 0 then some (.finite negative 0 (min (max e ctx.tiny) ctx.greatest))
  else
    let excess : Int := max (width c - ctx.precision) 0
    let target := max (e + excess) ctx.tiny
    let c' :=
      if target ≤ e then c
      else if (width c : Int) < target - e then 0
      else shiftRight c (target - e).toNat
    let (c', target) :=
      if ctx.precision < width c' then (shiftRight c' 1, target + 1) else (c', target)
    if c' ≠ 0 ∧ ctx.greatest < adjusted c' target then none else some (.finite negative c' target)

/-- The product of a finite decimal and a natural number; `none` if it is too large. -/
def scale? (ctx : Context) (d : Decimal) (k : Nat) : Option Decimal :=
  match d with
  | .finite s c e => ctx.round? s (c * k) e
  | d => some d

/-- The number with the given count of digits after the point that is nearest to a decimal, halves
going to even; `none` if its digits are more than `precision`, or the decimal is infinite or a
signaling value. -/
def quantize? (precision scale : Nat) : Decimal → Option Decimal
  | .finite s c e =>
    if c = 0 then some (.finite s 0 (-scale))
    else
      let shift : Int := e + scale
      if (precision : Int) < width c + shift then none
      else
        let c' :=
          if 0 ≤ shift then c * tenTo shift.toNat
          else if (width c : Int) < -shift then 0
          else shiftRight c (-shift).toNat
        if precision < width c' then none else some (.finite s c' (-scale))
  | .infinite _ => none
  | .nan _ true _ => none
  | .nan s false payload => some (.nan s false payload)

end Decimal

end SchemaOnRead
