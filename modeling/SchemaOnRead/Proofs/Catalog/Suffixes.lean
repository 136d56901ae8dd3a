import Mathlib.Data.List.Induction
import Mathlib.Data.List.TakeWhile
import SchemaOnRead.Catalog.FileType
import SchemaOnRead.Proofs.Storage.PathNames
import SchemaOnRead.Proofs.Text.LowerCase

/-!
# Suffixes of file names

What an object holds is told by the end of its name once the extension of its compression is gone, and both
are found in the same name: whatever is seen as a compression when the object is read is what the search for
its format leaves out, and nothing else is (`suffixes_agree`).
-/

namespace SchemaOnRead

open Text

/-! ## The last point of a name -/

/-- A point divides a name that has one, and no other stands behind it. -/
theorem exists_last_point {name : List Char} (pointed : '.' ∈ name) :
    ∃ stem ext, name = stem ++ '.' :: ext ∧ '.' ∉ ext := by
  obtain ⟨behind, before, parted, fresh⟩ := List.eq_append_cons_of_mem (List.mem_reverse.mpr pointed)
  refine ⟨before.reverse, behind.reverse, ?_, by simpa using fresh⟩
  rw [← List.reverse_reverse name, parted]
  simp

theorem ne_point_of_mem {ext : List Char} (plain : '.' ∉ ext) : ∀ c ∈ ext.reverse, decide (c ≠ '.') = true := by
  intro c member
  rw [decide_eq_true_eq]
  rintro rfl
  exact plain (List.mem_reverse.mp member)

theorem takeWhile_reverse_append (stem : List Char) {ext : List Char} (plain : '.' ∉ ext) :
    (stem ++ '.' :: ext).reverse.takeWhile (· ≠ '.') = ext.reverse := by
  rw [List.reverse_append, List.reverse_cons, List.append_assoc,
    List.takeWhile_append_of_pos (ne_point_of_mem plain)]
  simp

theorem takeWhile_reverse_plain {name : List Char} (plain : '.' ∉ name) :
    name.reverse.takeWhile (· ≠ '.') = name.reverse :=
  List.takeWhile_eq_self_iff.mpr (ne_point_of_mem plain)

theorem take_before_point (stem ext : List Char) :
    (stem ++ '.' :: ext).take ((stem ++ '.' :: ext).length - ext.length - 1) = stem := by
  rw [List.length_append, List.length_cons, List.take_left']
  omega

theorem FileType.splitLastPoint_append (stem : List Char) {ext : List Char} (plain : '.' ∉ ext) :
    splitLastPoint (stem ++ '.' :: ext) = some (stem, ext) := by
  rw [splitLastPoint, takeWhile_reverse_append stem plain, List.reverse_reverse, List.length_reverse,
    if_neg (by simp; omega), take_before_point]

theorem FileType.splitLastPoint_plain {name : List Char} (plain : '.' ∉ name) :
    splitLastPoint name = none := by
  rw [splitLastPoint, takeWhile_reverse_plain plain, List.length_reverse, if_pos rfl]

theorem Path.extensionChars_of_append {path stem ext : List Char}
    (parted : lastPart path = stem ++ '.' :: ext) (plain : '.' ∉ ext) : extensionChars path = ext := by
  rw [extensionChars, parted, takeWhile_reverse_append stem plain, List.reverse_reverse,
    List.length_reverse, if_neg (by simp; omega)]

theorem Path.extensionChars_of_plain {path : List Char} (plain : '.' ∉ lastPart path) :
    extensionChars path = [] := by
  rw [extensionChars, takeWhile_reverse_plain plain, List.length_reverse, if_pos rfl]

/-! ## Extensions of compressions -/

namespace Compression

variable {c : Compression} {path : String} {stem ext : List Char}

theorem ofExtension?_eq_some_iff {ext : String} : ofExtension? ext = some c ↔ lowercase ext = c.extension := by
  rw [ofExtension?]
  constructor
  · intro found
    have same := List.find?_some found
    exact (beq_iff_eq.mp same).symm
  · intro spelled
    rw [spelled]
    cases c <;> rfl

theorem ofExtension?_ofList : ofExtension? (String.ofList ext) = some c ↔ lower ext = c.extension.toList := by
  rw [ofExtension?_eq_some_iff, lowercase, String.toList_ofList, ← String.toList_inj, String.toList_ofList]

theorem extension_plain (c : Compression) :
    ∀ d ∈ c.extension.toList, (d.toNat < 128 ∧ d ≠ 'k') ∧ d ≠ '.' ∧ d ≠ '/' := by
  cases c <;> decide

/-- An extension that spells that of a compression holds neither a point nor a slash. -/
theorem plain_of_spelled (spelled : lower ext = c.extension.toList) : '.' ∉ ext ∧ '/' ∉ ext := by
  rw [← mem_lower_iff (d := '.') (by decide) rfl, ← mem_lower_iff (d := '/') (by decide) rfl, spelled]
  exact ⟨fun member => (extension_plain c _ member).2.1 rfl, fun member => (extension_plain c _ member).2.2 rfl⟩

/-- Whether an extension belongs to a compression can be asked after the whole name is in lower case. -/
theorem ofExtension?_lower (ext : List Char) :
    ofExtension? (String.ofList (lower ext)) = ofExtension? (String.ofList ext) := by
  rw [Option.ext_iff]
  intro c
  rw [ofExtension?_ofList, ofExtension?_ofList,
    lower_lower_eq_iff fun d member => (extension_plain c d member).1]

theorem ofPath?_of_append (parted : Path.lastPart path.toList = stem ++ '.' :: ext) (plain : '.' ∉ ext) :
    ofPath? path = ofExtension? (String.ofList ext) := by
  rw [ofPath?, Path.extension, Path.extensionChars_of_append parted plain]
  by_cases none : ext = []
  · subst none
    rfl
  · simp [none]

theorem ofPath?_of_plain (plain : '.' ∉ Path.lastPart path.toList) : ofPath? path = none := by
  rw [ofPath?, Path.extension, Path.extensionChars_of_plain plain]
  rfl

end Compression

/-! ## Names without the extension of a compression -/

/-- The last part of a path without the extension that is seen as a compression and the point before it. -/
def bareName (path : String) : List Char :=
  let part := Path.lastPart path.toList
  if (Compression.ofPath? path).isSome then
    part.take (part.length - (Path.extensionChars path.toList).length - 1)
  else part

section BareName

variable {c : Compression} {path : String} {stem ext : List Char}

theorem bareName_of_none (uncompressed : Compression.ofPath? path = none) :
    bareName path = Path.lastPart path.toList := by
  simp [bareName, uncompressed]

theorem bareName_of_append (parted : Path.lastPart path.toList = stem ++ '.' :: ext)
    (spelled : lower ext = c.extension.toList) : bareName path = stem := by
  have plain := (Compression.plain_of_spelled spelled).1
  have seen : Compression.ofPath? path = some c := by
    rw [Compression.ofPath?_of_append parted plain, Compression.ofExtension?_ofList, spelled]
  rw [bareName, seen, Path.extensionChars_of_append parted plain, parted, take_before_point]
  rfl

/-- What is left out of a name is a point and the extension that is seen as a compression. -/
theorem lastPart_of_compressed (seen : Compression.ofPath? path = some c) :
    ∃ ext, Path.lastPart path.toList = bareName path ++ '.' :: ext ∧ lower ext = c.extension.toList := by
  by_cases pointed : '.' ∈ Path.lastPart path.toList
  · obtain ⟨stem, ext, parted, plain⟩ := exists_last_point pointed
    rw [Compression.ofPath?_of_append parted plain, Compression.ofExtension?_ofList] at seen
    exact ⟨ext, by rw [bareName_of_append parted seen, parted], seen⟩
  · rw [Compression.ofPath?_of_plain pointed] at seen
    cases seen

end BareName

namespace FileType

variable {cs name : List Char} {t : FileType}

/-! ## The longest extension -/

/-- What a search among extensions has found when it has seen some of them. -/
structure IsLongest (cs : List Char) (seen : List (FileType × String)) (best : Option (FileType × String)) :
    Prop where
  fits : ∀ b ∈ best, b ∈ seen ∧ hasExtension cs b.2 = true
  longest : ∀ p ∈ seen, hasExtension cs p.2 = true → ∃ b ∈ best, p.2.length ≤ b.2.length

theorem IsLongest.next {seen : List (FileType × String)} {best : Option (FileType × String)}
    (known : IsLongest cs seen best) {p : FileType × String} (long : 0 < p.2.length) :
    IsLongest cs (seen ++ [p])
      (if hasExtension cs p.2 && (best.map (·.2.length)).getD 0 < p.2.length then some p else best) := by
  split
  · rename_i better
    rw [Bool.and_eq_true, decide_eq_true_eq] at better
    refine ⟨fun b chosen => ?_, fun q member fits => ?_⟩
    · obtain rfl := Option.some.inj chosen
      exact ⟨by simp, better.1⟩
    · refine ⟨p, rfl, ?_⟩
      rcases List.mem_append.mp member with earlier | last
      · obtain ⟨b, chosen, shorter⟩ := known.longest q earlier fits
        have above := better.2
        rw [Option.mem_def.mp chosen] at above
        exact Nat.le_of_lt (Nat.lt_of_le_of_lt shorter above)
      · rw [List.mem_singleton.mp last]
  · rename_i worse
    rw [Bool.and_eq_true, decide_eq_true_eq, not_and, Nat.not_lt] at worse
    refine ⟨fun b chosen => ?_, fun q member fits => ?_⟩
    · obtain ⟨earlier, fits⟩ := known.fits b chosen
      exact ⟨List.mem_append_left _ earlier, fits⟩
    · rcases List.mem_append.mp member with earlier | last
      · exact known.longest q earlier fits
      · obtain rfl := List.mem_singleton.mp last
        have below := worse fits
        cases best with
        | none => exact absurd long (Nat.not_lt.mpr below)
        | some b => exact ⟨b, rfl, below⟩

theorem isLongest_longest (cs : List Char) : IsLongest cs allExtensions (longest cs) := by
  have long : ∀ p ∈ allExtensions, 0 < p.2.length := by decide
  rw [longest]
  generalize allExtensions = ps at long
  -- from the end, where the extension stands that is looked at last
  induction ps using List.reverseRecOn with
  | nil => exact ⟨fun b absent => (by cases absent), List.forall_mem_nil _⟩
  | append_singleton seen p ih =>
    rw [List.foldl_append]
    exact (ih fun q earlier => long q (List.mem_append_left _ earlier)).next (long p (by simp))

theorem mem_allExtensions {p : FileType × String} : p ∈ allExtensions ↔ p.2 ∈ p.1.extensions := by
  obtain ⟨t, e⟩ := p
  have listed : t ∈ all := by cases t <;> decide
  simp [allExtensions, listed]

/-- No two formats share an extension. -/
theorem eq_of_mem_extensions {t t' : FileType} {e : String} (own : e ∈ t.extensions)
    (other : e ∈ t'.extensions) : t = t' := by
  have apart : ∀ t t' : FileType, ∀ e ∈ t.extensions, e ∈ t'.extensions → t = t' := by
    intro t t'
    cases t <;> cases t' <;> decide
  exact apart t t' e own other

theorem eq_of_hasExtension {e e' : String} (first : hasExtension cs e = true)
    (second : hasExtension cs e' = true) (same : e.length = e'.length) : e = e' := by
  rw [hasExtension, List.isSuffixOf_iff_suffix] at first second
  have equally : ('.' :: e.toList).length = ('.' :: e'.toList).length := congrArg Nat.succ same
  have suffix := List.suffix_of_suffix_length_le first second equally.le
  have whole := suffix.eq_of_length equally
  exact String.toList_inj.mp (List.cons.inj whole).2

/-- The format that is found is the one whose extension is the longest. -/
theorem longest_eq_some_iff :
    (longest cs).map (·.1) = some t ↔ ∃ e ∈ t.extensions, hasExtension cs e = true ∧
      ∀ (t' : FileType), ∀ e' ∈ t'.extensions, hasExtension cs e' = true → e'.length ≤ e.length := by
  have found := isLongest_longest cs
  constructor
  · intro chosen
    obtain ⟨⟨t, e⟩, best, rfl⟩ := Option.map_eq_some_iff.mp chosen
    obtain ⟨member, fits⟩ := found.fits _ best
    refine ⟨e, mem_allExtensions.mp member, fits, fun t' e' own suffix => ?_⟩
    obtain ⟨b, chosen, shorter⟩ := found.longest (t', e') (mem_allExtensions.mpr own) suffix
    rw [Option.mem_def, best, Option.some.injEq] at chosen
    rwa [← chosen] at shorter
  · rintro ⟨e, own, suffix, longer⟩
    obtain ⟨b, best, shorter⟩ := found.longest (t, e) (mem_allExtensions.mpr own) suffix
    obtain ⟨member, fits⟩ := found.fits b best
    have other := mem_allExtensions.mp member
    have same := eq_of_hasExtension suffix fits (Nat.le_antisymm shorter (longer _ _ other fits))
    rw [Option.mem_def.mp best, Option.map_some, eq_of_mem_extensions own (same ▸ other)]

/-! ## Names in any letter case -/

/-- Whether a name ends in a point and an extension in any letter case. -/
def EndsIn (name : List Char) (e : String) : Prop :=
  ∃ stem spelling, name = stem ++ '.' :: spelling ∧ lower spelling = e.toList

theorem hasExtension_lower {e : String} : hasExtension (lower name) e = true ↔ EndsIn name e := by
  rw [hasExtension, List.isSuffixOf_iff_suffix]
  constructor
  · rintro ⟨before, parted⟩
    obtain ⟨stem, spelling, rfl, -, spelled⟩ := exists_of_lower_eq_append (by decide) rfl parted.symm
    exact ⟨stem, spelling, rfl, spelled⟩
  · rintro ⟨stem, spelling, rfl, spelled⟩
    refine ⟨lower stem, ?_⟩
    rw [lower_append, lower_cons, spelled]
    rfl

/-- The search leaves out of the name in lower case what is seen as a compression in the name itself. -/
theorem longest_dropCompression (path : String) :
    longest (dropCompression (lower (Path.lastPart path.toList))) = longest (lower (bareName path)) := by
  by_cases pointed : '.' ∈ Path.lastPart path.toList
  · obtain ⟨stem, ext, parted, plain⟩ := exists_last_point pointed
    have lowered : lower (Path.lastPart path.toList) = lower stem ++ '.' :: lower ext := by
      rw [parted, lower_append, lower_cons]
      rfl
    have divided : splitLastPoint (lower stem ++ '.' :: lower ext) = some (lower stem, lower ext) :=
      splitLastPoint_append _ (by rwa [mem_lower_iff (by decide) rfl])
    cases kind : Compression.ofExtension? (String.ofList ext) with
    | none =>
      have uncompressed := (Compression.ofPath?_of_append parted plain).trans kind
      rw [bareName_of_none uncompressed, lowered, dropCompression, divided]
      simp [Compression.ofExtension?_lower, kind]
    | some c =>
      have spelled := Compression.ofExtension?_ofList.mp kind
      rw [bareName_of_append parted spelled, lowered, dropCompression, divided]
      by_cases none : stem = []
      · -- then the search keeps the whole name, but a lone extension of a compression is none of a format
        subst none
        rw [spelled]
        cases c <;> rfl
      · have some : lower stem ≠ [] := fun absent => none (lower_eq_nil absent)
        simp [Compression.ofExtension?_lower, kind, some]
  · rw [bareName_of_none (Compression.ofPath?_of_plain pointed), dropCompression,
      splitLastPoint_plain (by rwa [mem_lower_iff (by decide) rfl])]

/-- The format of an object is the one with the longest extension, in any letter case, at the end of the
name without what is seen as a compression. The extension of any compression, in any letter case, may be
added to a name that has none. -/
theorem suffixes_agree (path : String) :
    (∀ c, Compression.ofPath? path = some c →
      ∃ ext, Path.lastPart path.toList = bareName path ++ '.' :: ext ∧ lower ext = c.extension.toList) ∧
    (Compression.ofPath? path = none → bareName path = Path.lastPart path.toList) ∧
    (∀ t, ofPath? path = some t ↔ ∃ e ∈ t.extensions, EndsIn (bareName path) e ∧
      ∀ (t' : FileType), ∀ e' ∈ t'.extensions, EndsIn (bareName path) e' → e'.length ≤ e.length) ∧
    (Compression.ofPath? path = none → ∀ (c : Compression) (ext : String), lowercase ext = c.extension →
      Compression.ofPath? (path ++ "." ++ ext) = some c ∧
        bareName (path ++ "." ++ ext) = Path.lastPart path.toList ∧
        ofPath? (path ++ "." ++ ext) = ofPath? path) := by
  refine ⟨fun c => lastPart_of_compressed, bareName_of_none, fun t => ?_, fun uncompressed c ext named => ?_⟩
  · rw [ofPath?, longest_dropCompression, longest_eq_some_iff]
    simp only [hasExtension_lower]
  · have spelled : lower ext.toList = c.extension.toList := by
      rw [← named, lowercase, String.toList_ofList]
    obtain ⟨plain, inside⟩ := Compression.plain_of_spelled spelled
    have parted : Path.lastPart (path ++ "." ++ ext).toList =
        Path.lastPart path.toList ++ '.' :: ext.toList := by
      rw [String.append_assoc, String.toList_append, Path.lastPart_append _ (by simpa using inside)]
      simp
    have bare := bareName_of_append parted spelled
    refine ⟨?_, bare, ?_⟩
    · rw [Compression.ofPath?_of_append parted plain, Compression.ofExtension?_ofList, spelled]
    · rw [ofPath?, longest_dropCompression, bare, ofPath?, longest_dropCompression,
        bareName_of_none uncompressed]

/-- Of the two extensions that the name ends with in mixed case the longer one decides, and a compression
extension after it changes nothing. -/
theorem suffixes_agree_telegraf :
    Compression.ofPath? "/d/cpu.Telegraf.JSON" = none ∧ lowercase "GZ" = Compression.gzip.extension ∧
      Compression.ofPath? "/d/cpu.Telegraf.JSON.GZ" = some .gzip ∧
      bareName "/d/cpu.Telegraf.JSON.GZ" = "cpu.Telegraf.JSON".toList ∧
      ofPath? "/d/cpu.Telegraf.JSON.GZ" = some .telegraf := by
  have plain : Compression.ofPath? "/d/cpu.Telegraf.JSON" = none := by decide +kernel
  have named : lowercase "GZ" = Compression.gzip.extension := by decide +kernel
  have holds : ofPath? "/d/cpu.Telegraf.JSON" = some .telegraf := by decide +kernel
  obtain ⟨seen, bare, kept⟩ := (suffixes_agree "/d/cpu.Telegraf.JSON").2.2.2 plain .gzip "GZ" named
  exact ⟨plain, named, seen, bare, kept.trans holds⟩

end FileType

end SchemaOnRead
