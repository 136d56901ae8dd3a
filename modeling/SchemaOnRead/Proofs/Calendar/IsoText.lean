import SchemaOnRead.Calendar.Iso8601
import SchemaOnRead.Proofs.Calendar.Instants
import SchemaOnRead.Proofs.Numeric.NumberText

/-!
# Moments written in ISO 8601

`Writes` are the texts of a moment: a calendar date, and after any one character the hours of the clock,
perhaps the minutes and perhaps the seconds, with a fraction if there is one, and the offset from UTC. The
marks between the parts may be left out. Each of these texts is read as the moment (`readText?_of_writes`),
and what is read is a moment with every field in its range (`isValid_of_readText?`).
-/

namespace SchemaOnRead.Iso8601

open Text

/-! ## Texts -/

/-- A number with zeros before it. -/
def digits (width n : Nat) : List Char := padZeros width (ofNat n)

/-- A mark that may be left out. -/
def mark (present : Bool) (c : Char) : List Char := if present then [c] else []

/-- A year, a month and a day, with hyphens between them or without. -/
def dateChars (hyphens : Bool) (d : Date) : List Char :=
  digits 4 d.year ++ (mark hyphens '-' ++ (digits 2 d.month ++ (mark hyphens '-' ++ digits 2 d.day)))

def signChar (negative : Bool) : Char := if negative then '-' else '+'

/-- The texts of an offset from UTC in minutes. -/
inductive Zone : Option Int → List Char → Prop where
  | absent : Zone none []
  | letter {c : Char} (utc : c = 'Z' ∨ c = 'z') : Zone (some 0) [c]
  | hours (negative : Bool) {hour : Nat} (inDay : hour < 24) :
    Zone (some (Decimal.signed negative (hour * 60))) (signChar negative :: digits 2 hour)
  | minutes (negative colon : Bool) {hour minute : Nat} (inDay : hour < 24) (inHour : minute < 60) :
    Zone (some (Decimal.signed negative (hour * 60 + minute)))
      (signChar negative :: (digits 2 hour ++ (mark colon ':' ++ digits 2 minute)))

/-- The first digits of the microseconds, and zeros after the sixth one. -/
def fractionDigits (places micro : Nat) : List Char :=
  (digits 6 micro ++ List.replicate (places - 6) '0').take places

/-- The texts of a fraction of a second, of which no microseconds may be lost. -/
inductive Fraction : Nat → List Char → Prop where
  | absent : Fraction 0 []
  | places {c : Char} {places micro : Nat} (point : c = '.' ∨ c = ',') (some : 0 < places)
    (exactly : 10 ^ (6 - places) ∣ micro) : Fraction micro (c :: fractionDigits places micro)

/-- The texts of a time of day, with colons between its parts or without. -/
inductive Clock (colons : Bool) : Nat → Nat → Nat → Nat → Option Int → List Char → Prop where
  | hours {hour : Nat} {offset : Option Int} {zone : List Char} (inZone : Zone offset zone) :
    Clock colons hour 0 0 0 offset (digits 2 hour ++ zone)
  | minutes {hour minute : Nat} {offset : Option Int} {zone : List Char} (inZone : Zone offset zone) :
    Clock colons hour minute 0 0 offset (digits 2 hour ++ (mark colons ':' ++ (digits 2 minute ++ zone)))
  | seconds {hour minute second micro : Nat} {offset : Option Int} {fraction zone : List Char}
    (rest : Fraction micro fraction) (inZone : Zone offset zone) :
    Clock colons hour minute second micro offset
      (digits 2 hour ++ (mark colons ':' ++ (digits 2 minute ++ (mark colons ':' ++
        (digits 2 second ++ (fraction ++ zone))))))

/-- The texts of a moment. -/
inductive Writes : Moment → String → Prop where
  | date (hyphens : Bool) (d : Date) : Writes ⟨d, 0, 0, 0, 0, none⟩ (String.ofList (dateChars hyphens d))
  | moment (hyphens colons : Bool) (d : Date) {separator : Char} (ascii : separator.toNat < 128)
    {hour minute second micro : Nat} {offset : Option Int} {clock : List Char}
    (time : Clock colons hour minute second micro offset clock) :
    Writes ⟨d, hour, minute, second, micro, offset.map (· * 60000000)⟩
      (String.ofList (dateChars hyphens d ++ separator :: clock))

/-! ## Digits -/

section

variable {width n : Nat}

theorem isDigits_digits (width n : Nat) : IsDigits (digits width n) where
  nonempty := by
    have some := (isDigits_ofNat n).nonempty
    simp [digits, padZeros, some]
  digits c member := by
    rcases List.mem_append.mp member with zero | digit
    · rw [List.eq_of_mem_replicate zero]
      decide
    · exact (isDigits_ofNat n).digits c digit

theorem natural?_digits (width n : Nat) : Text.natural? (digits width n) = some n :=
  natural?_zeros_ofNat _ n

theorem length_digits (some : 0 < width) (short : n < 10 ^ width) : (digits width n).length = width := by
  have fits : (ofNat n).length ≤ width := (Nat.length_toDigits_le_iff (by omega) some).mpr short
  simp [digits, padZeros]
  omega

theorem any_isSeparator_digits (width n : Nat) : (digits width n).any isSeparator = false := by
  refine List.any_eq_false.mpr fun c member => ?_
  exact digit_induction (motive := fun c => ¬ isSeparator c = true) (by decide)
    ((isDigits_digits width n).digits c member)

theorem field?_digits (some : 0 < width) (few : width ≤ 4300) (short : n < 10 ^ width) (rest : List Char) :
    field? width (digits width n ++ rest) = .some (n : Int) := by
  have length := length_digits some short
  have read := readInteger?_digits false (isDigits_digits width n)
  rw [length, if_neg (Nat.not_lt.mpr few), natural?_digits] at read
  rw [field?, List.take_left' length]
  exact (if_neg (by simp [any_isSeparator_digits])).trans read

theorem drop_digits (some : 0 < width) (short : n < 10 ^ width) (rest : List Char) :
    (digits width n ++ rest).drop width = rest := List.drop_left' (length_digits some short)

/-- Two digits, one after the other. -/
theorem digits_two (short : n < 100) : ∃ a b, digits 2 n = [a, b] ∧ isAsciiDigit a = true ∧
    isAsciiDigit b = true ∧ ∀ rest, field? 2 (a :: b :: rest) = some (n : Int) := by
  have isDigits := isDigits_digits 2 n
  have read := field?_digits (show 0 < 2 by decide) (by decide) short
  obtain ⟨a, b, same⟩ := List.length_eq_two.mp (length_digits (show 0 < 2 by decide) short)
  rw [same] at isDigits read
  exact ⟨a, b, same, isDigits.digits a (by simp), isDigits.digits b (by simp), read⟩

end

theorem ne_of_digit {c d : Char} (digit : isAsciiDigit c = true) (other : isAsciiDigit d = false) : c ≠ d := by
  rintro rfl
  rw [digit] at other
  cases other

theorem beginsOffset_of_digit {c : Char} (digit : isAsciiDigit c = true) : beginsOffset c = false :=
  digit_induction (motive := fun c => beginsOffset c = false) (by decide) digit

/-! ## Dates -/

/-- A date is read whatever stands after it. -/
theorem calendarDate?_dateChars (hyphens : Bool) {d : Date} (year : d.year < 10000) (month : d.month < 100)
    (day : d.day < 100) (rest : List Char) :
    calendarDate? (dateChars hyphens d ++ rest) =
      some (((d.year : Int), (d.month : Int), (d.day : Int)), rest) := by
  obtain ⟨a, b, months, digit, -, readMonth⟩ := digits_two month
  obtain ⟨a', b', days, -, -, readDay⟩ := digits_two day
  have readYear := field?_digits (show 0 < 4 by decide) (by decide) year
  have afterYear := drop_digits (show 0 < 4 by decide) year
  have long : (digits 4 d.year).length = 4 := length_digits (by decide) year
  have noHyphen := ne_of_digit digit (show isAsciiDigit '-' = false by decide)
  have some : ¬ rest.length + 1 + 1 < 2 := by omega
  rw [calendarDate?, dateChars, months, days]
  cases hyphens with
  | true => simp [mark, long, readYear, afterYear, readMonth, readDay, some]
  | false => simp [mark, long, readYear, afterYear, readMonth, readDay, some, noHyphen]

/-! ## Offsets -/

/-- The minutes of an offset, if it has any. -/
def offsetMinutes? (cs : List Char) : Option Int :=
  if cs.length = 3 then some 0
  else
    let rest := if cs[3]? = some ':' then cs.drop 4 else cs.drop 3
    field? rest.length rest

/-- The hours and the minutes after a sign. -/
theorem offset?_signed (negative : Bool) {cs : List Char} {hour minute : Nat} (inDay : hour < 24)
    (inHour : minute < 60) (length : cs.length = 2 ∨ cs.length = 4 ∨ cs.length = 5)
    (readHour : field? 2 cs = some (hour : Int))
    (readMinute : offsetMinutes? (signChar negative :: cs) = some (minute : Int)) :
    offset? (signChar negative :: cs) = some (Decimal.signed negative (hour * 60 + minute)) := by
  have noLetter : ¬ (signChar negative :: cs = ['Z'] ∨ signChar negative :: cs = ['z']) := by
    cases negative <;> simp [signChar]
  have fits : ¬ ((signChar negative :: cs).length ≠ 3 ∧ (signChar negative :: cs).length ≠ 5 ∧
      (signChar negative :: cs).length ≠ 6) := by
    rw [List.length_cons]
    omega
  have parts : offset? (signChar negative :: cs) =
      (field? 2 cs).bind fun hours =>
        (offsetMinutes? (signChar negative :: cs)).bind fun minutes =>
          if hours = 0 ∧ minutes = 0 then some 0
          else if 59 < minutes ∨ 23 < hours then none
          else some ((if negative then -1 else 1) * (hours * 60 + minutes)) := by
    rw [offset?, if_neg noLetter, if_neg fits, offsetMinutes?]
    generalize field? = read
    split <;> cases negative <;> rfl
  have value : Decimal.signed negative (hour * 60 + minute) =
      (if negative then -1 else 1) * (hour * 60 + minute) := by
    cases negative <;> simp [Decimal.signed]
  rw [parts, readHour, readMinute, Option.bind_some, Option.bind_some, value,
    if_neg (show ¬ (59 < (minute : Int) ∨ 23 < (hour : Int)) by omega)]
  split
  · rename_i zero
    simp [zero.1, zero.2]
  · rfl

/-- An offset that is written is read, and is seen by its first character. -/
theorem offset?_of_zone {o : Int} {cs : List Char} (zone : Zone (some o) cs) :
    ∃ c rest, cs = c :: rest ∧ beginsOffset c = true ∧ offset? cs = some o := by
  cases zone with
  | letter utc => rcases utc with rfl | rfl <;> exact ⟨_, _, rfl, rfl, rfl⟩
  | @hours negative hour inDay =>
    obtain ⟨a, b, hours, -, -, readHour⟩ := digits_two (show hour < 100 by omega)
    refine ⟨_, _, rfl, by cases negative <;> rfl, ?_⟩
    have noMinutes : offsetMinutes? [signChar negative, a, b] = some ((0 : Nat) : Int) := if_pos rfl
    rw [hours, offset?_signed negative inDay (show 0 < 60 by decide) (.inl rfl) (readHour []) noMinutes,
      Nat.add_zero]
  | @minutes negative colon hour minute inDay inHour =>
    obtain ⟨a, b, hours, -, -, readHour⟩ := digits_two (show hour < 100 by omega)
    obtain ⟨a', b', minutes, digit, -, readMinute⟩ := digits_two (show minute < 100 by omega)
    have noColon := ne_of_digit digit (show isAsciiDigit ':' = false by decide)
    refine ⟨_, _, rfl, by cases negative <;> rfl, ?_⟩
    rw [hours, minutes]
    refine offset?_signed negative inDay inHour ?_ (readHour _) ?_
    · cases colon <;> simp [mark]
    · cases colon <;> simpa [mark, offsetMinutes?, noColon] using readMinute []

/-- A reader that ends with a time, and puts an offset into it, reads an offset. -/
theorem ended_of_zone {read : Time → List Char → Option Time} (ends : ∀ t, read t [] = some t)
    (reads : ∀ t c rest, beginsOffset c = true →
      read t (c :: rest) = (offset? (c :: rest)).map fun o => { t with offset := some o })
    {t : Time} {offset : Option Int} {cs : List Char} (zone : Zone offset cs) (none : t.offset = none) :
    read t cs = some { t with offset } := by
  cases offset with
  | none =>
    cases zone
    rw [ends, ← none]
  | some o =>
    obtain ⟨c, rest, rfl, begins, found⟩ := offset?_of_zone zone
    rw [reads t c rest begins, found]
    rfl

/-! ## Times of day -/

section

variable {t : Time} {offset : Option Int} {zone : List Char}

theorem timeEnd?_zone (inZone : Zone offset zone) (none : t.offset = none) :
    timeEnd? t zone = some { t with offset } :=
  ended_of_zone (fun _ => rfl) (fun _ _ _ begins => if_pos begins) inZone none

theorem afterMinutes?_zone (colons : Bool) (inZone : Zone offset zone) (none : t.offset = none) :
    afterMinutes? colons t zone = some { t with offset } :=
  ended_of_zone (fun _ => rfl) (fun _ _ _ begins => if_pos begins) inZone none

theorem afterHours?_zone (inZone : Zone offset zone) (none : t.offset = none) :
    afterHours? t zone = some { t with offset } :=
  ended_of_zone (fun _ => rfl) (fun _ _ _ begins => if_pos begins) inZone none

/-- What may stand after a fraction. -/
def lastOffset? (t : Time) (cs : List Char) : Option Time :=
  match cs with
  | [] => some t
  | c :: _ => if beginsOffset c then (offset? cs).map fun o => { t with offset := some o } else none

theorem lastOffset?_zone (inZone : Zone offset zone) (none : t.offset = none) :
    lastOffset? t zone = some { t with offset } :=
  ended_of_zone (fun _ => rfl) (fun _ _ _ begins => if_pos begins) inZone none

theorem isDigits_fractionDigits {places : Nat} (some : 0 < places) (micro : Nat) :
    IsDigits (fractionDigits places micro) where
  nonempty := by
    have digits := (isDigits_digits 6 micro).nonempty
    rw [fractionDigits]
    intro none
    rcases List.take_eq_nil_iff.mp none with zero | empty
    · omega
    · exact digits (List.append_eq_nil_iff.mp empty).1
  digits c member := by
    rcases List.mem_append.mp (List.mem_of_mem_take member) with digit | zero
    · exact (isDigits_digits 6 micro).digits c digit
    · rw [List.eq_of_mem_replicate zero]
      decide

/-- A fraction with enough places denotes the microseconds. -/
theorem micros_fractionDigits {places micro : Nat} (short : micro < 10 ^ 6)
    (exactly : 10 ^ (6 - places) ∣ micro) : micros (fractionDigits places micro) = micro := by
  have length : (digits 6 micro).length = 6 := length_digits (by decide) short
  have kept : (fractionDigits places micro).take 6 = (digits 6 micro).take places := by
    rw [fractionDigits, List.take_take, List.take_append_of_le_length (by omega), ← List.take_take,
      List.take_of_length_le (by rw [List.length_take]; omega)]
  have value := natural?_take (isDigits_digits 6 micro).digits (natural?_digits 6 micro) places
  have missing : 6 - ((digits 6 micro).take places).length = 6 - places := by
    rw [List.length_take, length]
    omega
  rw [length] at value
  simp only [micros, kept, value, missing, Option.getD_some]
  exact Nat.div_mul_cancel exactly

/-- What stands after the seconds. -/
theorem timeEnd?_fraction {micro : Nat} {fraction : List Char} (short : micro < 10 ^ 6)
    (rest : Fraction micro fraction) (inZone : Zone offset zone) (none : t.offset = none)
    (noMicro : t.micro = 0) : timeEnd? t (fraction ++ zone) = some { t with micro, offset } := by
  cases rest with
  | absent =>
    rw [List.nil_append, timeEnd?_zone inZone none, ← noMicro]
  | @places c places micro point some exactly =>
    have isDigits := isDigits_fractionDigits some micro
    have noOffset : beginsOffset c = false := by rcases point with rfl | rfl <;> rfl
    have ended : NoDigit zone := by
      cases inZone with
      | absent => exact noDigit_nil
      | letter utc => exact noDigit_cons (by rcases utc with rfl | rfl <;> decide) _
      | hours negative => exact noDigit_cons (by cases negative <;> decide) _
      | minutes negative => exact noDigit_cons (by cases negative <;> decide) _
    have span := spanDigits_of_digits isDigits.digits ended
    have nonempty : (fractionDigits places micro).isEmpty = false :=
      List.isEmpty_eq_false_iff.mpr isDigits.nonempty
    rw [List.cons_append, timeEnd?, noOffset, if_neg Bool.false_ne_true, if_pos point, span]
    simp only [nonempty, Bool.false_eq_true, if_false, micros_fractionDigits short exactly]
    exact lastOffset?_zone inZone none

theorem afterMinutes?_digits (colons : Bool) {second : Nat} (short : second < 100) (rest : List Char) :
    afterMinutes? colons t (mark colons ':' ++ (digits 2 second ++ rest)) =
      timeEnd? { t with second := second } rest := by
  obtain ⟨a, b, seconds, digit, -, read⟩ := digits_two short
  have noOffset := beginsOffset_of_digit digit
  rw [seconds]
  cases colons with
  | true => simp [mark, afterMinutes?, show beginsOffset ':' = false from rfl, read]
  | false => simp [mark, afterMinutes?, noOffset, read]

theorem afterHours?_digits (colons : Bool) {minute : Nat} (short : minute < 100) (rest : List Char) :
    afterHours? t (mark colons ':' ++ (digits 2 minute ++ rest)) =
      afterMinutes? colons { t with minute := minute } rest := by
  obtain ⟨a, b, minutes, digit, -, read⟩ := digits_two short
  have noOffset := beginsOffset_of_digit digit
  have noColon := ne_of_digit digit (show isAsciiDigit ':' = false by decide)
  rw [minutes]
  cases colons with
  | true => simp [mark, afterHours?, show beginsOffset ':' = false from rfl, read]
  | false => simp [mark, afterHours?, noOffset, beq_false_of_ne noColon, read]

theorem time?_digits {hour : Nat} (inDay : hour < 24) {rest : List Char} {t : Time}
    (read : afterHours? { hour := hour } rest = some t) (same : t.hour = hour) :
    time? (digits 2 hour ++ rest) = some t := by
  obtain ⟨a, b, hours, digit, -, readHour⟩ := digits_two (show hour < 100 by omega)
  have noOffset := beginsOffset_of_digit digit
  have noMidnight : ¬ (t.hour = 24 ∧ (t.minute ≠ 0 ∨ t.second ≠ 0 ∨ t.micro ≠ 0)) := by omega
  rw [hours]
  simp only [List.cons_append, List.nil_append, time?, noOffset, Bool.false_eq_true, if_false, readHour]
  simp [read, noMidnight]

end

/-- A time of day is read from its text. -/
theorem time?_of_clock {colons : Bool} {hour minute second micro : Nat} {offset : Option Int}
    {cs : List Char} (clock : Clock colons hour minute second micro offset cs) (inDay : hour < 24)
    (inHour : minute < 60) (inMinute : second < 60) (inSecond : micro < 10 ^ 6) :
    time? cs = some ⟨hour, minute, second, micro, offset⟩ := by
  cases clock with
  | hours inZone => exact time?_digits inDay (afterHours?_zone inZone rfl) rfl
  | minutes inZone =>
    refine time?_digits inDay ?_ rfl
    rw [afterHours?_digits colons (by omega), afterMinutes?_zone colons inZone rfl]
    rfl
  | seconds rest inZone =>
    refine time?_digits inDay ?_ rfl
    rw [afterHours?_digits colons (by omega), afterMinutes?_digits colons (by omega),
      timeEnd?_fraction inSecond rest inZone rfl rfl]

/-! ## Whole texts -/

/-- A character of ASCII that is no blank. -/
def IsSolid (c : Char) : Prop := c.toNat < 128 ∧ isBlank c = false

instance (c : Char) : Decidable (IsSolid c) := inferInstanceAs (Decidable (_ ∧ _))

theorem isSolid_digits {ds : List Char} (isDigits : IsDigits ds) : ∀ c ∈ ds, IsSolid c :=
  fun c member => digit_induction (motive := IsSolid) (by decide) (isDigits.digits c member)

theorem isSolid_mark (present : Bool) {c : Char} (solid : IsSolid c) : ∀ d ∈ mark present c, IsSolid d := by
  cases present with
  | true => exact List.forall_mem_singleton.mpr solid
  | false => exact List.forall_mem_nil _

theorem isSolid_dateChars (hyphens : Bool) (d : Date) : ∀ c ∈ dateChars hyphens d, IsSolid c := by
  have hyphen := isSolid_mark hyphens (show IsSolid '-' by decide)
  simp only [dateChars, List.forall_mem_append]
  exact ⟨isSolid_digits (isDigits_digits _ _), hyphen, isSolid_digits (isDigits_digits _ _), hyphen,
    isSolid_digits (isDigits_digits _ _)⟩

theorem isSolid_zone {offset : Option Int} {zone : List Char} (inZone : Zone offset zone) :
    ∀ c ∈ zone, IsSolid c := by
  have sign (negative : Bool) : IsSolid (signChar negative) := by cases negative <;> decide
  have number (n : Nat) := isSolid_digits (isDigits_digits 2 n)
  cases inZone with
  | absent => exact List.forall_mem_nil _
  | letter utc => exact List.forall_mem_singleton.mpr (by rcases utc with rfl | rfl <;> decide)
  | hours negative => exact List.forall_mem_cons.mpr ⟨sign negative, number _⟩
  | minutes negative colon =>
    have colon := isSolid_mark colon (show IsSolid ':' by decide)
    simp only [List.forall_mem_cons, List.forall_mem_append]
    exact ⟨sign negative, number _, colon, number _⟩

theorem isSolid_fraction {micro : Nat} {fraction : List Char} (rest : Fraction micro fraction) :
    ∀ c ∈ fraction, IsSolid c := by
  cases rest with
  | absent => exact List.forall_mem_nil _
  | places point some =>
    have solid := isSolid_digits (isDigits_fractionDigits some micro)
    exact List.forall_mem_cons.mpr ⟨by rcases point with rfl | rfl <;> decide, solid⟩

theorem isSolid_clock {colons : Bool} {hour minute second micro : Nat} {offset : Option Int}
    {cs : List Char} (clock : Clock colons hour minute second micro offset cs) : ∀ c ∈ cs, IsSolid c := by
  have number (n : Nat) := isSolid_digits (isDigits_digits 2 n)
  have colon := isSolid_mark colons (show IsSolid ':' by decide)
  cases clock with
  | hours inZone =>
    simp only [List.forall_mem_append]
    exact ⟨number _, isSolid_zone inZone⟩
  | minutes inZone =>
    simp only [List.forall_mem_append]
    exact ⟨number _, colon, number _, isSolid_zone inZone⟩
  | seconds rest inZone =>
    simp only [List.forall_mem_append]
    exact ⟨number _, colon, number _, colon, number _, isSolid_fraction rest, isSolid_zone inZone⟩

theorem dateChars_ne_nil (hyphens : Bool) (d : Date) : dateChars hyphens d ≠ [] :=
  List.append_ne_nil_of_left_ne_nil (isDigits_digits 4 d.year).nonempty _

theorem clock_ne_nil {colons : Bool} {hour minute second micro : Nat} {offset : Option Int}
    {cs : List Char} (clock : Clock colons hour minute second micro offset cs) : cs ≠ [] := by
  have some := (isDigits_digits 2 hour).nonempty
  cases clock <;> exact List.append_ne_nil_of_left_ne_nil some _

/-- The time of day after a date, and after the character that ends it. -/
def clock? : List Char → Option Time
  | [] => some { }
  | _ :: rest => time? rest

/-- The moment with the parts that are read. -/
def moment? (year month day : Int) (t : Time) : Option Moment := do
  let year ← toField? year
  let month ← toField? month
  let day ← toField? day
  let hour ← toField? t.hour
  let minute ← toField? t.minute
  let second ← toField? t.second
  let midnight := hour = 24
  let m ← Moment.of? ⟨⟨year, month, day⟩, if midnight then 0 else hour, minute, second, t.micro,
    t.offset.map (· * 60000000)⟩
  if midnight then m.nextDay? else some m

theorem read?_eq (cs : List Char) :
    read? cs =
      if cs.all (fun c => c.toNat < 128) then
        ((calendarDate? cs).orElse fun _ => otherDate? cs).bind fun (date, rest) =>
          (clock? rest).bind (moment? date.1 date.2.1 date.2.2)
      else none := by
  rw [read?]
  cases cs.all (fun c => c.toNat < 128) with
  | false => rfl
  | true =>
    cases (calendarDate? cs).orElse fun _ => otherDate? cs with
    | none => rfl
    | some parts =>
      obtain ⟨⟨year, month, day⟩, rest⟩ := parts
      cases rest <;> rfl

theorem isValid_of_of? {m n : Moment} (made : Moment.of? m = some n) : n.isValid = true := by
  rw [Moment.of?, Option.ite_none_right_eq_some] at made
  exact Option.some.inj made.2 ▸ made.1

theorem isValid_of_nextDay? {m n : Moment} (valid : m.isValid = true) (next : m.nextDay? = some n) :
    n.isValid = true := by
  obtain ⟨d, found, rfl⟩ := Option.map_eq_some_iff.mp next
  have isDate := ((Date.ofOrdinal?_eq_some_iff _).mp found).1
  simp only [Moment.isValid, Bool.and_eq_true] at valid ⊢
  exact ⟨⟨⟨⟨⟨isDate, valid.1.1.1.1.2⟩, valid.1.1.1.2⟩, valid.1.1.2⟩, valid.1.2⟩, valid.2⟩

/-- A moment that is read has every field in its range. -/
theorem isValid_of_readText? {m : Moment} {s : String} (read : readText? s = some m) :
    m.isValid = true := by
  rw [readText?, read?_eq, Option.ite_none_right_eq_some] at read
  obtain ⟨⟨⟨year, month, day⟩, rest⟩, -, read⟩ := Option.bind_eq_some_iff.mp read.2
  obtain ⟨t, -, made⟩ := Option.bind_eq_some_iff.mp read
  simp only [moment?, Option.bind_eq_bind, Option.bind_eq_some_iff] at made
  obtain ⟨_, -, _, -, _, -, hour, -, _, -, _, -, n, made, last⟩ := made
  have valid := isValid_of_of? made
  split at last
  · exact isValid_of_nextDay? valid last
  · exact Option.some.inj last ▸ valid

/-- The parts of a moment make the moment. -/
theorem moment?_of_isValid {d : Date} {hour minute second micro : Nat} {offset : Option Int}
    (valid : Moment.isValid ⟨d, hour, minute, second, micro, offset.map (· * 60000000)⟩ = true) :
    moment? d.year d.month d.day ⟨hour, minute, second, micro, offset⟩ =
      some ⟨d, hour, minute, second, micro, offset.map (· * 60000000)⟩ := by
  have field (n : Nat) : toField? n = some n := by simp [toField?]
  have noMidnight : ¬ hour = 24 := by
    simp only [Moment.isValid, Bool.and_eq_true, decide_eq_true_eq] at valid
    omega
  simp [moment?, field, noMidnight, Moment.of?, valid]

/-- A text without blanks is read from its parts. -/
theorem readText?_of_parts (hyphens : Bool) {d : Date} (inCalendar : d.isValid = true) {rest : List Char}
    (ascii : ∀ c ∈ rest, c.toNat < 128) (last : ∀ c ∈ rest.getLast?, isBlank c = false) :
    readText? (String.ofList (dateChars hyphens d ++ rest)) =
      (clock? rest).bind (moment? d.year d.month d.day) := by
  obtain ⟨year, ⟨-, month⟩, -, day⟩ := Date.short_of_isValid inCalendar
  have solid := isSolid_dateChars hyphens d
  have bare : strip (dateChars hyphens d ++ rest) = dateChars hyphens d ++ rest := by
    refine strip_of_ends ?_ ?_
    · rw [List.head?_append_of_ne_nil _ (dateChars_ne_nil hyphens d)]
      exact fun c member => (solid c (List.mem_of_mem_head? member)).2
    · intro c member
      rw [List.getLast?_append] at member
      cases found : rest.getLast? with
      | none =>
        rw [found] at member
        exact (solid c (List.mem_of_mem_getLast? member)).2
      | some e =>
        rw [found] at member
        cases member
        exact last c found
  have all : (dateChars hyphens d ++ rest).all (fun c => c.toNat < 128) = true :=
    List.all_eq_true.mpr fun c member => decide_eq_true <|
      (List.mem_append.mp member).elim (fun inDate => (solid c inDate).1) (ascii c)
  rw [readText?, String.toList_ofList, bare, read?_eq, all,
    calendarDate?_dateChars hyphens year (by omega) (by omega)]
  rfl

/-- A text of a moment is read as the moment. -/
theorem readText?_of_writes {m : Moment} {s : String} (valid : m.isValid = true) (writes : Writes m s) :
    readText? s = some m := by
  cases writes with
  | date hyphens d =>
    have none : ∀ c ∈ ([] : List Char), c.toNat < 128 := List.forall_mem_nil _
    have read := readText?_of_parts hyphens (Moment.isValid_date valid) none (by simp)
    rw [List.append_nil] at read
    exact read.trans (@moment?_of_isValid d 0 0 0 0 Option.none valid)
  | @moment hyphens colons d separator ascii hour minute second micro offset clock time =>
    have inDay : hour < 24 ∧ minute < 60 ∧ second < 60 ∧ micro < 10 ^ 6 := by
      simp only [Moment.isValid, Bool.and_eq_true, decide_eq_true_eq] at valid
      omega
    have solid := isSolid_clock time
    have last : ∀ c ∈ (separator :: clock).getLast?, isBlank c = false := by
      rw [List.getLast?_cons_of_ne_nil (clock_ne_nil time)]
      exact fun c member => (solid c (List.mem_of_mem_getLast? member)).2
    have inAscii : ∀ c ∈ separator :: clock, c.toNat < 128 :=
      List.forall_mem_cons.mpr ⟨ascii, fun c member => (solid c member).1⟩
    rw [readText?_of_parts hyphens (Moment.isValid_date valid) inAscii last, clock?,
      time?_of_clock time inDay.1 inDay.2.1 inDay.2.2.1 inDay.2.2.2]
    exact moment?_of_isValid valid

/-- Every offset of less than a day, in minutes, can be written. -/
theorem exists_zone {offset : Option Int} (inDay : ∀ o ∈ offset, o.natAbs < 1440) :
    ∃ zone, Zone offset zone := by
  cases offset with
  | none => exact ⟨_, .absent⟩
  | some o =>
    have inDay := inDay o rfl
    have parts : Decimal.signed (o < 0) (o.natAbs / 60 * 60 + o.natAbs % 60) = o := by
      rw [Nat.div_add_mod', Json.signed_natAbs]
    have inZone := Zone.minutes (o < 0) true (show o.natAbs / 60 < 24 by omega)
      (Nat.mod_lt o.natAbs (show 0 < 60 by decide))
    exact ⟨_, parts ▸ inZone⟩

/-- A reader of ISO 8601 reads each text of a moment as the moment, and gives only moments that have every
field in its range. -/
structure IsReader (reader : String → Option Moment) : Prop where
  reads : ∀ {m s}, m.isValid = true → Writes m s → reader s = some m
  valid : ∀ {m s}, reader s = some m → m.isValid = true

theorem isReader_readText? : IsReader readText? := ⟨readText?_of_writes, isValid_of_readText?⟩

/-- Every moment with an offset in minutes, or without one, can be written. -/
theorem exists_writes {m : Moment} (valid : m.isValid = true) (whole : ∀ o ∈ m.offset, 60000000 ∣ o) :
    ∃ s, Writes m s := by
  obtain ⟨d, hour, minute, second, micro, offset⟩ := m
  have minutes : ∃ minutes : Option Int,
      offset = minutes.map (· * 60000000) ∧ ∀ o ∈ minutes, o.natAbs < 1440 := by
    cases offset with
    | none => exact ⟨none, rfl, by simp⟩
    | some o =>
      obtain ⟨k, rfl⟩ := whole o rfl
      rw [Moment.isValid, Bool.and_eq_true] at valid
      have bound : (60000000 * k).natAbs < 86400000000 := of_decide_eq_true valid.2
      refine ⟨some k, congrArg some (Int.mul_comm _ _), ?_⟩
      rintro _ ⟨⟩
      omega
  obtain ⟨minutes, rfl, inDay⟩ := minutes
  obtain ⟨zone, inZone⟩ := exists_zone inDay
  have fraction : Fraction micro ('.' :: fractionDigits 6 micro) :=
    .places (.inl rfl) (by decide) (Nat.one_dvd _)
  exact ⟨_, .moment true true d (show 'T'.toNat < 128 by decide) (.seconds fraction inZone)⟩

end SchemaOnRead.Iso8601
