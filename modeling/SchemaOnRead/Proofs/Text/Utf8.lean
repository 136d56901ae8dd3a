import Mathlib.Tactic.SplitIfs
import SchemaOnRead.Text.Utf8

/-!
# Decoding in pieces

Bytes in two pieces are decoded as in one piece, however they are divided: unless the first piece has
a fault, the second one goes on with the bytes that the first one left pending (`decode_andThen`).
Every text is what its bytes hold (`text?_utf8`).
-/

namespace SchemaOnRead.Utf8

/-- Puts characters in front. -/
def Piece.prepend (cs : List Char) (p : Piece) : Piece := { p with chars := cs ++ p.chars }

/-- What more bytes after a piece are decoded to. -/
def Piece.andThen (p : Piece) (more : List UInt8) : Piece :=
  match p.fault with
  | some _ => p
  | none => (decode false (p.pending ++ more)).prepend p.chars

theorem Piece.cons_andThen (c : Char) (p : Piece) (more : List UInt8) :
    (p.cons c).andThen more = (p.andThen more).cons c := by
  rw [andThen, andThen]
  cases fault : p.fault with
  | none => simp only [Piece.cons, fault, Piece.prepend, List.cons_append]
  | some f => simp only [Piece.cons, fault]

/-- Bytes in two pieces are decoded as in one piece. -/
theorem decode_andThen (bs more : List UInt8) :
    decode false (bs ++ more) = (decode false bs).andThen more := by
  fun_induction decode false bs with
  | case1 => rfl
  | case2 a r ascii ih =>
    rw [List.cons_append, decode.eq_def]
    simp only [ascii, if_true, ih, Piece.cons_andThen]
  | case3 a r noAscii noStart =>
    rw [List.cons_append, decode.eq_def]
    simp only [noAscii, noStart, if_true, if_false]
    rfl
  | case4 | case7 | case10 => rfl
  | case5 a noAscii start b s noSecond =>
    rw [List.cons_append, List.cons_append, decode.eq_def]
    simp only [noAscii, start, noSecond, if_true, if_false]
    rfl
  | case6 a noAscii start b s second two ih =>
    rw [List.cons_append, List.cons_append, decode.eq_def]
    simp only [noAscii, start, second, two, Bool.false_eq_true, if_true, if_false, ih,
      Piece.cons_andThen]
  | case8 a noAscii start b second noTwo c t noThird =>
    rw [List.cons_append, List.cons_append, List.cons_append, decode.eq_def]
    simp only [noAscii, start, second, noTwo, noThird, if_true, if_false]
    rfl
  | case9 a noAscii start b second noTwo c t third three ih =>
    rw [List.cons_append, List.cons_append, List.cons_append, decode.eq_def]
    simp only [noAscii, start, second, noTwo, third, three, Bool.false_eq_true, if_true,
      if_false, ih,
      Piece.cons_andThen]
  | case11 a noAscii start b second noTwo c third noThree d u noFourth =>
    rw [List.cons_append, List.cons_append, List.cons_append, List.cons_append, decode.eq_def]
    simp only [noAscii, start, second, noTwo, third, noThree, noFourth, if_true, if_false]
    rfl
  | case12 a noAscii start b second noTwo c third noThree d u fourth ih =>
    rw [List.cons_append, List.cons_append, List.cons_append, List.cons_append, decode.eq_def]
    simp only [noAscii, start, second, noTwo, third, noThree, fourth, Bool.false_eq_true,
      if_false, ih,
      Piece.cons_andThen]

/-- Bytes that a piece left pending begin a character and nothing more. -/
theorem decode_pending (bs : List UInt8) (whole : (decode false bs).fault = none) :
    decode false (decode false bs).pending =
      { chars := [], pending := (decode false bs).pending } := by
  have again := decode_andThen bs []
  rw [List.append_nil, Piece.andThen, whole, List.append_nil] at again
  generalize decode false bs = p at whole again ⊢
  simp only at again
  generalize decode false p.pending = q at again ⊢
  obtain ⟨chars, pending, fault⟩ := q
  have sameChars : p.chars = p.chars ++ chars := congrArg Piece.chars again
  have samePending : p.pending = pending := congrArg Piece.pending again
  have sameFault : p.fault = fault := congrArg Piece.fault again
  rw [List.self_eq_append_right] at sameChars
  rw [sameChars, ← samePending, ← sameFault, whole]

/-- Where no byte is ill-formed, the lossy form decodes alike. -/
theorem decode_lossy {bs : List UInt8} (whole : (decode false bs).fault = none) :
    decode true bs = decode false bs := by
  fun_induction decode false bs with
  | case1 => rfl
  | case2 a r ascii ih =>
    rw [decode.eq_def]
    simp only [ascii, if_true, ih whole]
  | case3 | case5 | case8 | case11 => cases whole
  | case4 a noAscii start | case7 a noAscii start b second noTwo
  | case10 a noAscii start b second noTwo c third noThree =>
    rw [decode.eq_def]
    simp [*]
  | case6 a noAscii start b s second two ih =>
    rw [decode.eq_def]
    simp only [noAscii, start, second, two, Bool.false_eq_true, if_true, if_false, ih whole]
  | case9 a noAscii start b second noTwo c t third three ih =>
    rw [decode.eq_def]
    simp only [noAscii, start, second, noTwo, third, three, Bool.false_eq_true, if_true, if_false,
      ih whole]
  | case12 a noAscii start b second noTwo c third noThree d u fourth ih =>
    rw [decode.eq_def]
    simp only [noAscii, start, second, noTwo, third, noThree, fourth, Bool.false_eq_true, if_false,
      ih whole]

/-- The first bytes of a text hold the first characters of it, and no byte of them is ill-formed. -/
theorem decode_prefix {bs more : List UInt8} {cs : List Char}
    (decoded : decode false (bs ++ more) = { chars := cs }) :
    (decode false bs).fault = none ∧ ∃ later, cs = (decode false bs).chars ++ later := by
  rw [decode_andThen, Piece.andThen] at decoded
  cases fault : (decode false bs).fault with
  | some f =>
    rw [fault] at decoded
    simp only at decoded
    rw [decoded] at fault
    cases fault
  | none =>
    rw [fault] at decoded
    exact ⟨rfl, _, (congrArg Piece.chars decoded).symm⟩

theorem text?_eq_ok {bs : List UInt8} {cs : List Char} :
    text? bs = .ok cs ↔ decode false bs = { chars := cs } := by
  rw [text?]
  match decode false bs with
  | ⟨chars, pending, some f⟩ => exact ⟨fun read => (nomatch read), fun whole => (nomatch whole)⟩
  | ⟨chars, [], none⟩ =>
    constructor
    · intro read
      cases read
      rfl
    · intro whole
      cases whole
      rfl
  | ⟨chars, b :: pending, none⟩ => exact ⟨fun read => (nomatch read), fun whole => (nomatch whole)⟩

/-! ## The bytes of characters -/

/-- A byte is the second one of a character after `first` if it is within these bounds. -/
theorem isSecond_of_bounds {first b : UInt8} (least : 0x80 ≤ b.toNat) (greatest : b.toNat ≤ 0xBF)
    (noOverlong : first.toNat = 0xE0 → 0xA0 ≤ b.toNat)
    (noSurrogate : first.toNat = 0xED → b.toNat ≤ 0x9F)
    (noOverlong' : first.toNat = 0xF0 → 0x90 ≤ b.toNat)
    (bounded : first.toNat = 0xF4 → b.toNat ≤ 0x8F) : isSecond first b = true := by
  simp only [isSecond, isContinuation, ← UInt8.toNat_inj, UInt8.reduceToNat]
  split_ifs <;>
    simp only [Bool.and_eq_true, decide_eq_true_eq, UInt8.le_iff_toNat_le, UInt8.reduceToNat] <;>
    omega

theorem isContinuation_of_bounds {b : UInt8} (least : 0x80 ≤ b.toNat) (greatest : b.toNat ≤ 0xBF) :
    isContinuation b = true := by
  simp only [isContinuation, Bool.and_eq_true, decide_eq_true_eq, UInt8.le_iff_toNat_le,
    UInt8.reduceToNat]
  omega

theorem decode_one {a : UInt8} (ascii : a.toNat < 0x80) (lossy : Bool) (bs : List UInt8) :
    decode lossy (a :: bs) = (decode lossy bs).cons (Char.ofNat a.toNat) := by
  have small : a < 0x80 := by simp only [UInt8.lt_iff_toNat_lt, UInt8.reduceToNat]; omega
  rw [decode.eq_def]
  simp only [small, if_true]

/-- A byte that begins a character of several bytes. -/
theorem begins_of_bounds {a : UInt8} (least : 0xC2 ≤ a.toNat) (greatest : a.toNat ≤ 0xF4) :
    ¬ a < 0x80 ∧ ¬ (decide (a < 0xC2) || decide (0xF4 < a)) = true := by
  simp only [Bool.or_eq_true, decide_eq_true_eq, UInt8.lt_iff_toNat_lt, UInt8.reduceToNat]
  omega

theorem decode_two {a b : UInt8} (least : 0xC2 ≤ a.toNat) (greatest : a.toNat < 0xE0)
    (second : isSecond a b = true) (lossy : Bool) (bs : List UInt8) :
    decode lossy (a :: b :: bs) = (decode lossy bs).cons (Char.ofNat (a.toNat % 32 * 64 + low b)) := by
  obtain ⟨noAscii, start⟩ := begins_of_bounds least (by omega)
  have two : a < 0xE0 := by simp only [UInt8.lt_iff_toNat_lt, UInt8.reduceToNat]; omega
  rw [decode.eq_def]
  simp only [noAscii, start, second, two, Bool.not_true, Bool.false_eq_true, if_true, if_false]

theorem decode_three {a b c : UInt8} (least : 0xE0 ≤ a.toNat) (greatest : a.toNat < 0xF0)
    (second : isSecond a b = true) (third : isContinuation c = true) (lossy : Bool)
    (bs : List UInt8) :
    decode lossy (a :: b :: c :: bs) =
      (decode lossy bs).cons (Char.ofNat ((a.toNat % 16 * 64 + low b) * 64 + low c)) := by
  obtain ⟨noAscii, start⟩ := begins_of_bounds (a := a) (by omega) (by omega)
  have noTwo : ¬ a < 0xE0 := by simp only [UInt8.lt_iff_toNat_lt, UInt8.reduceToNat]; omega
  have three : a < 0xF0 := by simp only [UInt8.lt_iff_toNat_lt, UInt8.reduceToNat]; omega
  rw [decode.eq_def]
  simp only [noAscii, start, second, noTwo, third, three, Bool.not_true, Bool.false_eq_true, if_true,
    if_false]

theorem decode_four {a b c d : UInt8} (least : 0xF0 ≤ a.toNat) (greatest : a.toNat ≤ 0xF4)
    (second : isSecond a b = true) (third : isContinuation c = true)
    (fourth : isContinuation d = true) (lossy : Bool) (bs : List UInt8) :
    decode lossy (a :: b :: c :: d :: bs) = (decode lossy bs).cons
      (Char.ofNat (((a.toNat % 8 * 64 + low b) * 64 + low c) * 64 + low d)) := by
  obtain ⟨noAscii, start⟩ := begins_of_bounds (a := a) (by omega) (by omega)
  have noTwo : ¬ a < 0xE0 := by simp only [UInt8.lt_iff_toNat_lt, UInt8.reduceToNat]; omega
  have noThree : ¬ a < 0xF0 := by simp only [UInt8.lt_iff_toNat_lt, UInt8.reduceToNat]; omega
  rw [decode.eq_def]
  simp only [noAscii, start, second, noTwo, third, noThree, fourth, Bool.not_true,
    Bool.false_eq_true, if_false]

/-- A character is decoded from its bytes. -/
theorem decode_utf8EncodeChar (lossy : Bool) (c : Char) (bs : List UInt8) :
    decode lossy (String.utf8EncodeChar c ++ bs) = (decode lossy bs).cons c := by
  have noSurrogate : c.val.toNat < 0xD800 ∨ 0xDFFF < c.val.toNat ∧ c.val.toNat < 0x110000 := c.valid
  have made : Char.ofNat c.val.toNat = c := Char.ofNat_toNat c
  have byte : ∀ n, n < 256 → (UInt8.ofNat n).toNat = n := fun n small => by
    rw [UInt8.toNat_ofNat', Nat.mod_eq_of_lt small]
  rw [String.utf8EncodeChar]
  generalize c.val.toNat = v at made noSurrogate
  subst made
  split
  · have first := byte v (by omega)
    rw [List.cons_append, List.nil_append, decode_one (by omega), first]
  · split
    · have first := byte (v / 64 % 32 + 192) (by omega)
      have second := byte (v % 64 + 128) (by omega)
      rw [List.cons_append, List.cons_append, List.nil_append, decode_two (by omega) (by omega),
        first, low, second]
      · congr 2
        omega
      · exact isSecond_of_bounds (by omega) (by omega) (by omega) (by omega) (by omega) (by omega)
    · split
      · have first := byte (v / 4096 % 16 + 224) (by omega)
        have second := byte (v / 64 % 64 + 128) (by omega)
        have third := byte (v % 64 + 128) (by omega)
        rw [List.cons_append, List.cons_append, List.cons_append, List.nil_append,
          decode_three (by omega) (by omega), first, low, low, second, third]
        · congr 2
          omega
        · exact isSecond_of_bounds (by omega) (by omega) (by omega) (by omega) (by omega) (by omega)
        · exact isContinuation_of_bounds (by omega) (by omega)
      · have first := byte (v / 262144 % 8 + 240) (by omega)
        have second := byte (v / 4096 % 64 + 128) (by omega)
        have third := byte (v / 64 % 64 + 128) (by omega)
        have fourth := byte (v % 64 + 128) (by omega)
        rw [List.cons_append, List.cons_append, List.cons_append, List.cons_append, List.nil_append,
          decode_four (by omega) (by omega), first, low, low, low, second, third, fourth]
        · congr 2
          omega
        · exact isSecond_of_bounds (by omega) (by omega) (by omega) (by omega) (by omega) (by omega)
        · exact isContinuation_of_bounds (by omega) (by omega)
        · exact isContinuation_of_bounds (by omega) (by omega)

/-- Every text is what its bytes hold. -/
theorem text?_utf8 (cs : List Char) : text? (cs.flatMap String.utf8EncodeChar) = .ok cs := by
  rw [text?_eq_ok]
  induction cs with
  | nil => rfl
  | cons c cs ih =>
    rw [List.flatMap_cons, decode_utf8EncodeChar, ih]
    rfl

end SchemaOnRead.Utf8
