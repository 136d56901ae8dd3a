import SchemaOnRead.Columns.Sample
import SchemaOnRead.Proofs.Columns.Inferred

/-!
# The first line and the first record

A sample of an object is its first line that is not blank. The line may be read of no more than the
first bytes of the object, which end anywhere: inside of a record, between the two characters that
end a line, or inside of a character. Where a line of these is an object, it is the first record of
the whole object, and the columns inferred from it are those of that record
(`Sample.columns_of_firstRecord`).
-/

namespace SchemaOnRead

open Text

namespace Text

theorem stripRight_append_of_blank {ending : List Char} (blank : ∀ c ∈ ending, isBlank c = true)
    (cs : List Char) : stripRight (cs ++ ending) = stripRight cs := by
  have skipped : ending.reverse.dropWhile isBlank = [] :=
    List.dropWhile_eq_nil_iff.mpr fun c member => blank c (List.mem_reverse.mp member)
  simp [stripRight, List.dropWhile_append, skipped]

theorem prefix_stripRight (cs : List Char) : stripRight cs <+: cs := by
  obtain ⟨blanks, whole⟩ := exists_stripRight_append cs
  exact ⟨blanks, whole.symm⟩

/-- No line ends inside of what is between the blanks of a line. -/
theorem not_isBreak_of_mem_strip {cs : List Char} (unbroken : Unbroken cs) :
    ∀ c ∈ strip cs, isBreak c = false := by
  obtain ⟨body, ending, rfl, inside, breaks⟩ := unbroken
  have blank : ∀ c ∈ ending, isBlank c = true := by
    intro c member
    rcases isBreak_iff.mp (breaks c member) with rfl | rfl
    · decide
    · decide
  by_cases none : stripLeft body = []
  · rw [strip, stripLeft_append_of_blank none,
      stripLeft_of_all_blank (List.all_eq_true.mpr blank)]
    exact fun c member => absurd member List.not_mem_nil
  · rw [strip, stripLeft_append_of_nonblank none, stripRight_append_of_blank blank]
    intro c member
    exact inside c ((stripLeft_suffix body).subset ((prefix_stripRight _).subset member))

/-- A text that ends with no blank ends so without the blanks around it. -/
theorem getLast?_strip {cs : List Char} {c : Char} (last : cs.getLast? = some c)
    (solid : isBlank c = false) : (strip cs).getLast? = some c := by
  obtain ⟨before, whole⟩ := stripLeft_suffix cs
  have nonblank : stripLeft cs ≠ [] := by
    intro none
    have all := List.dropWhile_eq_nil_iff.mp none c (List.mem_of_getLast? last)
    rw [solid] at all
    cases all
  have left : (stripLeft cs).getLast? = some c := by
    rw [← whole, List.getLast?_append_of_ne_nil _ nonblank] at last
    exact last
  have right : stripRight (stripLeft cs) = stripLeft cs := by
    rw [List.getLast?_eq_head?_reverse] at left
    rw [stripRight]
    cases backwards : (stripLeft cs).reverse with
    | nil =>
      rw [backwards] at left
      cases left
    | cons d rest =>
      rw [backwards] at left
      cases left
      rw [List.dropWhile_cons, if_neg (by simp [solid]), ← backwards, List.reverse_reverse]
  rw [strip, right]
  exact left

end Text

/-! ## The first bytes of a file -/

namespace Store

theorem toListFrom_eq (bytes : ByteArray) (i : Nat) (acc : List UInt8) :
    ByteArray.toList.loop bytes i acc = acc.reverse ++ bytes.data.toList.drop i := by
  fun_induction ByteArray.toList.loop bytes i acc with
  | case1 i acc inside ih =>
    have there : i < bytes.data.toList.length := by simpa using inside
    have here : bytes.get! i = bytes.data.toList[i] := by
      rw [ByteArray.get!, Array.getElem_toList]
      exact getElem!_pos bytes.data i inside
    rw [ih, List.reverse_cons, List.append_assoc, List.singleton_append,
      List.drop_eq_getElem_cons there, here]
  | case2 i acc outside =>
    have past : bytes.data.toList.length ≤ i := by simpa using outside
    rw [List.drop_eq_nil_of_le past, List.append_nil]

/-- The bytes of a range from the start are the first ones. -/
theorem toList_slice (bytes : ByteArray) {last : Int} (some : 0 ≤ last) :
    (slice bytes 0 last).toList = bytes.toList.take (last + 1).toNat := by
  rw [slice, if_neg (by omega), ByteArray.toList, ByteArray.toList, toListFrom_eq, toListFrom_eq]
  simp

/-- A range of a file is read where the file is. -/
theorem read_range {s : Store} {path : String} {bytes : ByteArray} (stored : s.read path = .ok bytes)
    (first : Nat) (last : Int) : s.read path (some (first, last)) = .ok (slice bytes first last) := by
  rw [read] at stored ⊢
  cases found : s.find path with
  | error f =>
    rw [found] at stored
    cases stored
  | ok t =>
    rw [found] at stored
    cases t with
    | file _ =>
      cases stored
      rfl
    | directory _ => cases stored

end Store

/-! ## The first line -/

namespace Lines

/-- The first line that is not blank stands after blank lines only. -/
theorem firstFrom_eq_ok {path : String} {stop : Option LineStop} {count : Nat} {ls : List Line}
    {cs : List Char} (found : firstFrom path stop count ls = .ok cs) :
    ∃ before l later, ls = before ++ l :: later ∧ l.text = cs ∧ cs.all isBlank = false ∧
      ∀ b ∈ before, b.text.all isBlank = true := by
  induction ls generalizing count with
  | nil =>
    cases stop with
    | none => cases found
    | some stop => cases stop <;> cases found
  | cons l rest ih =>
    rw [firstFrom] at found
    split at found
    · rename_i blank
      obtain ⟨before, l', later, rfl, text, solid, blanks⟩ := ih found
      exact ⟨l :: before, l', later, rfl, text, solid, List.forall_mem_cons.mpr ⟨blank, blanks⟩⟩
    · rename_i solid
      cases found
      exact ⟨[], l, rest, rfl, rfl, by simpa using solid, fun b member => nomatch member⟩

/-- The first line that is read of the first bytes of a text stands in the text after nothing but
blanks, or ends with a character that the bytes cut off. -/
theorem first_of_prefix {path : String} {c : Contents} (intact : c.failure = none) {more : List UInt8}
    {text : List Char} (decoded : Utf8.text? (c.bytes ++ more) = .ok text) {line : String}
    (found : first path c = .ok line) :
    Unbroken line.toList ∧
      (line.toList.getLast? = some Utf8.replacement ∨
        ∃ before after, text = before ++ line.toList ++ after ∧ ∀ c ∈ before, isBlank c = true) := by
  obtain ⟨cs, read, rfl⟩ : ∃ cs, firstFrom path (ofContents true c).stop 0 (ofContents true c).lines =
      .ok cs ∧ String.ofList cs = line := by
    simp only [first] at found
    cases read : firstFrom path (ofContents true c).stop 0 (ofContents true c).lines with
    | error f =>
      rw [read] at found
      cases found
    | ok cs =>
      rw [read] at found
      exact ⟨cs, rfl, Except.ok.inj found⟩
  rw [String.toList_ofList]
  obtain ⟨before, l, later, lines, rfl, solid, blanks⟩ := firstFrom_eq_ok read
  have unbroken : ∀ l ∈ (ofContents true c).lines, Unbroken l.text := unbroken_ofChunks
  refine ⟨unbroken l (by simp [lines]), ?_⟩
  obtain ⟨first, rest, cut, rfl, replaced, covers⟩ := covers_ofContents_prefix intact decoded
  have texts := covers.texts
  rw [lines, List.map_append, List.map_cons, List.flatten_append, List.flatten_cons] at texts
  have blank : ∀ c ∈ (before.map Line.text).flatten, isBlank c = true := by
    intro c member
    obtain ⟨t, there, inside⟩ := List.mem_flatten.mp member
    obtain ⟨b, found, rfl⟩ := List.mem_map.mp there
    exact List.all_eq_true.mp (blanks b found) c inside
  generalize (before.map Line.text).flatten = before at texts blank
  generalize (later.map Line.text).flatten = later at texts
  rcases replaced with rfl | rfl
  · refine .inr ⟨before, later ++ rest, ?_, blank⟩
    rw [List.append_nil] at texts
    simp [← texts]
  · rcases List.eq_nil_or_concat later with rfl | ⟨others, last, rfl⟩
    · -- The line is the last one, so it has the character that stands for the bytes cut off.
      left
      have some : l.text ≠ [] := by
        intro none
        rw [none] at solid
        cases solid
      have ending := congrArg List.getLast? texts
      rw [List.append_nil, List.getLast?_append_of_ne_nil _ some, List.getLast?_concat] at ending
      exact ending
    · refine .inr ⟨before, others ++ rest, ?_, blank⟩
      rw [List.concat_eq_append, ← List.append_assoc, ← List.append_assoc] at texts
      obtain ⟨same, -⟩ := List.append_inj' texts rfl
      rw [← same]
      simp

end Lines

/-! ## The first record -/

namespace Sample

variable {s : Store} {settings : Settings} {path line : String} {bytes : ByteArray}
  {text : List Char}

/-- What a sample is read of: contents whose bytes are the first ones of the object's contents. -/
theorem firstLine_eq_ok (stored : s.read path = .ok bytes)
    (intact : (Contents.ofObject path bytes.toList).failure = none) (positive : 1 ≤ settings.lineBytes)
    (sampled : (firstLine s settings path).result = .ok line) :
    ∃ c : Contents, c.failure = none ∧ c.bytes <+: (Contents.ofObject path bytes.toList).bytes ∧
      Lines.first path c = .ok line := by
  simp only [firstLine, range, Logged.access] at sampled
  split at sampled
  · rename_i plain
    have noFormat := Option.isNone_iff_eq_none.mp plain
    have object : ∀ bs, Contents.ofObject path bs = ⟨bs, none⟩ := by
      intro bs
      rw [Contents.ofObject, noFormat]
    simp only [Store.read_range stored, bind, Except.bind] at sampled
    refine ⟨_, ?_, ?_, sampled⟩
    · rw [object]
    · rw [object, object, Store.toList_slice bytes (by omega)]
      exact List.take_prefix _ _
  · simp only [stored, bind, Except.bind] at sampled
    exact ⟨_, intact, List.prefix_rfl, sampled⟩

/-- A line that is an object, read of the first bytes of the contents of an object, stands in the text
of the object after nothing but blanks. Were it cut off, it would not end with a brace. -/
theorem exists_around_firstLine {c : Contents} (intact : c.failure = none) {more : List UInt8}
    (decoded : Utf8.text? (c.bytes ++ more) = .ok text) (found : Lines.first path c = .ok line)
    {fields : Value.Fields} (read : Json.value (strip line.toList) = .ok (.object fields, [])) :
    (∀ c ∈ strip line.toList, isBreak c = false) ∧
      ∃ before after, text = before ++ line.toList ++ after ∧ ∀ c ∈ before, isBlank c = true := by
  obtain ⟨unbroken, cutOff | around⟩ := Lines.first_of_prefix intact decoded found
  · have last := getLast?_strip cutOff (by decide)
    obtain ⟨before, closed⟩ := Json.closed_value read
    rw [← closed, List.getLast?_concat] at last
    cases last
  · exact ⟨not_isBreak_of_mem_strip unbroken, around⟩

/-- The columns inferred from the first line of an object are those of the first record that reading
the whole object gives, whatever the limit of a record and wherever the bytes that are read to find the
line end. -/
theorem columns_of_firstRecord (stored : s.read path = .ok bytes)
    (intact : (Contents.ofObject path bytes.toList).failure = none)
    (holds : Utf8.text? (Contents.ofObject path bytes.toList).bytes = .ok text)
    (positive : 1 ≤ settings.lineBytes) (sampled : (firstLine s settings path).result = .ok line)
    {columns : List Column} (accepted : Inference.columnsOfLine path line = .ok columns)
    (limit : Int) :
    ∃ rs r later, Cursor.openObject s path limit = .ok rs ∧ rs.records = r :: later ∧
      columns = r.fields.map fun (name, v) => Inference.column name v := by
  obtain ⟨fields, read, rfl⟩ := Inference.columnsOfLine_eq_ok accepted
  obtain ⟨c, whole, ⟨more, same⟩, found⟩ := firstLine_eq_ok stored intact positive sampled
  rw [← same] at holds
  obtain ⟨oneLine, before, after, rfl, blank⟩ := exists_around_firstLine whole holds found read
  have nonblank : strip line.toList ≠ [] := by
    intro none
    rw [none] at read
    cases read
  obtain ⟨rest, begins⟩ := @Inference.exists_after_line _ _ after blank nonblank
  rw [same] at holds
  obtain ⟨r, later, records, rfl⟩ :=
    @Records.ofContents_beginsWith path limit _ _ _ _ _ intact holds begins read (.inl oneLine)
  refine ⟨_, r, later, ?_, records, rfl⟩
  rw [Cursor.openObject, stored]
  rfl

/-- Two records after a blank line. The first fifteen bytes end inside of a character of the second
record. -/
def cutText : String := "\r\n\x7b\"a\": 1\x7d\r\n\x7b\"é\": 2\x7d\n"

/-- A store with an object that holds them. -/
def cutStore : Store :=
  { tree := .directory [("a.json", .file cutText.toUTF8)]
    proper := by decide +kernel }

def cutSettings : Settings := { lineBytes := 15 }

/-- The sampled line is the one of the first record, although the sample cannot be decoded as a whole. -/
theorem columns_of_firstRecord_cut :
    (firstLine cutStore cutSettings "/a.json").result = .ok "\x7b\"a\": 1\x7d\r\n" ∧
      ∃ rs r later, Cursor.openObject cutStore "/a.json" 4 = .ok rs ∧ rs.records = r :: later ∧
        [{ name := "a", type := .integer, comment := some "number" }] =
          r.fields.map fun (name, v) => Inference.column name v := by
  have stored : cutStore.read "/a.json" = .ok cutText.toUTF8 := by rfl
  have sampled : (firstLine cutStore cutSettings "/a.json").result = .ok "\x7b\"a\": 1\x7d\r\n" :=
    ok_of_toOption (by decide +kernel)
  have holds : Utf8.text? (Contents.ofObject "/a.json" cutText.toUTF8.toList).bytes =
      .ok cutText.toList := by
    have bytes : (Contents.ofObject "/a.json" cutText.toUTF8.toList).bytes =
      cutText.toList.flatMap String.utf8EncodeChar := by decide +kernel
    rw [bytes]
    exact Utf8.text?_utf8 _
  exact ⟨sampled, columns_of_firstRecord stored (by decide +kernel) holds (by decide) sampled
    (ok_of_toOption (by decide +kernel)) 4⟩

end Sample

end SchemaOnRead
