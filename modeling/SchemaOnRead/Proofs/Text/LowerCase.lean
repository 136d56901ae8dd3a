import SchemaOnRead.Proofs.Text.Digits
import SchemaOnRead.Text.Lowercase

/-!
# Lower case and ASCII

Which characters of a text in lower case are in ASCII. Letters of ASCII come from letters of ASCII, but for
those of two letters beyond it, and any other character of ASCII comes from itself (`mem_lower_iff`). A text in
ASCII is in lower case as soon as it is the lower case form of another (`lower_lower_eq_iff`).
-/

namespace SchemaOnRead.Text

theorem lower_append (cs ds : List Char) : lower (cs ++ ds) = lower cs ++ lower ds := List.flatMap_append ..

theorem lower_cons (c : Char) (cs : List Char) : lower (c :: cs) = lower [c] ++ lower cs :=
  lower_append [c] cs

theorem toLower_of_beyond {c : Char} (beyond : 128 ≤ c.toNat) : c.toLower = c := by
  refine dif_neg ?_
  rintro ⟨-, last⟩
  have small : c.toNat ≤ 90 := last
  omega

/-- A letter of ASCII becomes its form in lower case. -/
theorem lower_of_toLower {c : Char} (ascii : c.toLower.toNat < 128) : lower [c] = [c.toLower] := by
  by_cases plain : c.toNat < 128
  · have other : c.toNat ≠ 0x130 := Nat.ne_of_lt (Nat.lt_trans plain (by decide))
    simp [lower, lowerChar, plain, other]
  · rw [toLower_of_beyond (Nat.le_of_not_lt plain)] at ascii
    exact absurd ascii plain

theorem lower_spelling {word spelling : List Char} (spelled : spelling.map Char.toLower = word)
    (ascii : ∀ c ∈ word, c.toNat < 128) : lower spelling = word := by
  subst spelled
  induction spelling with
  | nil => rfl
  | cons c rest ih =>
    rw [List.map_cons, List.forall_mem_cons] at ascii
    rw [lower_cons, lower_of_toLower ascii.1, ih ascii.2]
    rfl

/-! ## Characters of ASCII -/

/-- What holds of the first 128 characters holds of every character of ASCII. -/
theorem ascii_induction {motive : Char → Prop} (each : ∀ n < 128, motive (Char.ofNat n)) {c : Char}
    (ascii : c.toNat < 128) : motive c := by
  rw [← Char.ofNat_toNat c]
  exact each _ ascii

theorem toLower_toLower {c : Char} (ascii : c.toNat < 128) : c.toLower.toLower = c.toLower :=
  ascii_induction (motive := fun c => c.toLower.toLower = c.toLower) (by decide +kernel) ascii

theorem isAlpha_toLower {c : Char} (ascii : c.toNat < 128) : c.toLower.isAlpha = c.isAlpha :=
  ascii_induction (motive := fun c => c.toLower.isAlpha = c.isAlpha) (by decide +kernel) ascii

theorem toLower_of_noLetter {c : Char} (ascii : c.toNat < 128) : c.isAlpha = false → c.toLower = c :=
  ascii_induction (motive := fun c => c.isAlpha = false → c.toLower = c) (by decide +kernel) ascii

/-! ## Characters beyond ASCII -/

/-- The lower case forms of all characters in a run are characters beyond ASCII, except for the sign of the
kelvin. -/
theorem caseRuns_beyond : ∀ r ∈ caseRuns.toList,
    (r.last = r.first ∧ (r.first : Int) + r.distance = 'k'.toNat) ∨
      128 ≤ (r.first : Int) + r.distance ∧
        ((r.last : Int) + r.distance < 0xD800 ∨
          0xDFFF < (r.first : Int) + r.distance ∧ (r.last : Int) + r.distance < 0x110000) := by
  decide +kernel

theorem lowerChar_beyond {c : Char} (beyond : 128 ≤ c.toNat) (other : c.toNat ≠ 0x130) :
    lowerChar c = 'k' ∨ 128 ≤ (lowerChar c).toNat := by
  rw [lowerChar, if_neg (by omega), if_neg other]
  split
  · rename_i r found
    have held := Array.find?_some found
    have member := Array.mem_toList_iff.mpr (Array.mem_of_find?_eq_some found)
    simp only [CaseRun.holds, Bool.and_eq_true, decide_eq_true_eq] at held
    obtain ⟨⟨first, last⟩, -⟩ := held
    rcases caseRuns_beyond r member with ⟨one, kelvin⟩ | ⟨large, valid⟩
    · left
      have same : (c.toNat : Int) + r.distance = 'k'.toNat := by omega
      rw [same]
      rfl
    · right
      have inside : ((c.toNat : Int) + r.distance).toNat.isValidChar := by
        rcases valid with low | ⟨high, inRange⟩
        · exact .inl (by omega)
        · exact .inr ⟨by omega, by omega⟩
      rw [toNat_ofNat inside]
      omega
  · exact .inr beyond

/-- The lower case form of a character beyond ASCII shows that the character is not of ASCII, unless it
is that of the sign of the kelvin. -/
theorem exists_beyond {c : Char} (beyond : 128 ≤ c.toNat) : ∃ d ∈ lower [c], d = 'k' ∨ 128 ≤ d.toNat := by
  by_cases dotted : c.toNat = 0x130
  · exact ⟨Char.ofNat 0x307, by simp [lower, dotted], .inr (by decide)⟩
  · exact ⟨lowerChar c, by simp [lower, dotted], lowerChar_beyond beyond dotted⟩

/-- A character of ASCII comes from one of ASCII, or it is one of two letters. -/
theorem cases_of_mem_lower {c d : Char} (member : d ∈ lower [c]) (ascii : d.toNat < 128) :
    (c.toNat < 128 ∧ d = c.toLower) ∨ d = 'i' ∨ d = 'k' := by
  by_cases plain : c.toNat < 128
  · have other : c.toNat ≠ 0x130 := by omega
    simp only [lower, List.flatMap_cons, List.flatMap_nil, List.append_nil, if_neg other,
      List.mem_singleton] at member
    exact .inl ⟨plain, by rw [member, lowerChar, if_pos plain]⟩
  · right
    by_cases dotted : c.toNat = 0x130
    · simp only [lower, List.flatMap_cons, List.flatMap_nil, List.append_nil, if_pos dotted,
        List.mem_cons, List.not_mem_nil, or_false] at member
      rcases member with rfl | rfl
      · exact .inl rfl
      · exact absurd ascii (by decide)
    · simp only [lower, List.flatMap_cons, List.flatMap_nil, List.append_nil, if_neg dotted,
        List.mem_singleton] at member
      rw [member] at ascii ⊢
      exact .inr ((lowerChar_beyond (by omega) dotted).resolve_right (by omega))

/-! ## Texts -/

theorem mem_lower {cs : List Char} {d : Char} : d ∈ lower cs ↔ ∃ c ∈ cs, d ∈ lower [c] := by
  simp [lower]

/-- A character of ASCII that is no letter is in the lower case form of a text if it is in the text. -/
theorem mem_lower_iff {cs : List Char} {d : Char} (ascii : d.toNat < 128) (noLetter : d.isAlpha = false) :
    d ∈ lower cs ↔ d ∈ cs := by
  rw [mem_lower]
  constructor
  · rintro ⟨c, there, member⟩
    rcases cases_of_mem_lower member ascii with ⟨plain, rfl⟩ | rfl | rfl
    · rw [isAlpha_toLower plain] at noLetter
      rwa [toLower_of_noLetter plain noLetter]
    · cases noLetter
    · cases noLetter
  · intro there
    have self := toLower_of_noLetter ascii noLetter
    refine ⟨d, there, ?_⟩
    rw [lower_of_toLower (by rwa [self]), self]
    exact List.mem_singleton_self d

theorem lower_eq_nil {cs : List Char} (none : lower cs = []) : cs = [] := by
  cases cs with
  | nil => rfl
  | cons c rest =>
    rw [lower_cons, List.append_eq_nil_iff] at none
    by_cases dotted : c.toNat = 0x130 <;> simp [lower, dotted] at none

/-- Such a character divides a text where it divides its lower case form. -/
theorem exists_of_lower_eq_append {d : Char} (ascii : d.toNat < 128) (noLetter : d.isAlpha = false)
    {cs before after : List Char} (parted : lower cs = before ++ d :: after) :
    ∃ front back, cs = front ++ d :: back ∧ lower front = before ∧ lower back = after := by
  have self : lower [d] = [d] := by
    have same := toLower_of_noLetter ascii noLetter
    rw [lower_of_toLower (by rwa [same]), same]
  induction cs generalizing before with
  | nil => simp [lower] at parted
  | cons c rest ih =>
    rw [lower_cons] at parted
    by_cases here : c = d
    · subst here
      rw [self] at parted
      cases before with
      | nil =>
        obtain ⟨-, same⟩ := List.cons.inj parted
        exact ⟨[], rest, rfl, rfl, same⟩
      | cons b before =>
        obtain ⟨rfl, later⟩ := List.cons.inj parted
        obtain ⟨front, back, rfl, first, second⟩ := ih later
        exact ⟨c :: front, back, rfl, by rw [lower_cons, self, first]; rfl, second⟩
    · have absent : d ∉ lower [c] := by
        rw [mem_lower_iff ascii noLetter, List.mem_singleton]
        exact Ne.symm here
      -- so it divides what comes after the first character
      rcases List.append_eq_append_iff.mp parted with ⟨more, rfl, later⟩ | ⟨more, own, later⟩
      · obtain ⟨front, back, rfl, first, second⟩ := ih later
        exact ⟨c :: front, back, rfl, by rw [lower_cons, first], second⟩
      · cases more with
        | nil =>
          obtain ⟨front, back, rfl, first, second⟩ := @ih [] later.symm
          exact ⟨c :: front, back, rfl, by rw [lower_cons, first, own, List.append_nil, List.append_nil], second⟩
        | cons m more =>
          obtain ⟨rfl, -⟩ := List.cons.inj later
          exact absurd (own ▸ List.mem_append_right before (.head more)) absent

/-- What has come out in ASCII is in lower case. -/
theorem lower_of_mem_lower {cs : List Char} {d : Char} (member : d ∈ lower cs) (ascii : d.toNat < 128) :
    lower [d] = [d] := by
  obtain ⟨c, -, member⟩ := mem_lower.mp member
  rcases cases_of_mem_lower member ascii with ⟨plain, rfl⟩ | rfl | rfl
  · have self := toLower_toLower plain
    rw [lower_of_toLower (by rwa [self]), self]
  · rfl
  · rfl

theorem lower_eq_self {ds : List Char} (each : ∀ d ∈ ds, lower [d] = [d]) : lower ds = ds := by
  induction ds with
  | nil => rfl
  | cons d rest ih =>
    obtain ⟨first, others⟩ := List.forall_mem_cons.mp each
    rw [lower_cons, first, ih others]
    rfl

/-- Lower case is taken once for a text in ASCII that has not the letter into which the sign of the kelvin
turns. -/
theorem lower_lower_eq_iff {cs ds : List Char} (ascii : ∀ d ∈ ds, d.toNat < 128 ∧ d ≠ 'k') :
    lower (lower cs) = ds ↔ lower cs = ds := by
  constructor
  · rintro rfl
    have inside : ∀ d ∈ lower cs, d.toNat < 128 := by
      intro d member
      refine Nat.lt_of_not_le fun beyond => ?_
      obtain ⟨e, there, large⟩ := exists_beyond beyond
      obtain ⟨small, other⟩ := ascii e (mem_lower.mpr ⟨d, member, there⟩)
      rcases large with kelvin | large
      · exact other kelvin
      · exact Nat.not_lt.mpr large small
    exact (lower_eq_self fun d member => lower_of_mem_lower member (inside d member)).symm
  · rintro rfl
    exact lower_eq_self fun d member => lower_of_mem_lower member (ascii d member).1

end SchemaOnRead.Text
