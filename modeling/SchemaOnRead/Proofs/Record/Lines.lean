import SchemaOnRead.Proofs.Text.LineNumbers
import SchemaOnRead.Proofs.Text.Utf8
import SchemaOnRead.Record.Line

/-!
# The lines of a text

The lines of contents that hold a text are those of the text, however the chunks divide the characters
and the ends of the lines (`areOf_ofContents`): nothing is lost or changed (`covers_ofContents`). Before
each line of a text as many lines end as there are lines before it (`lineEnds_of_wholeLines`). Lines that
go on to the end have read all bytes (`bytesRead_ofContents`).
-/

namespace SchemaOnRead.Lines

open Text

theorem chunks_flatten {size : Nat} (positive : 0 < size) {fuel : Nat} {bs : List UInt8}
    (many : bs.length < fuel) : (chunks size fuel bs).flatten = bs := by
  induction fuel generalizing bs with
  | zero => exact absurd many (by omega)
  | succ fuel ih =>
    cases bs with
    | nil => rfl
    | cons b rest =>
      have shorter : ((b :: rest).drop size).length < fuel := by
        rw [List.length_drop, List.length_cons]
        rw [List.length_cons] at many
        omega
      rw [chunks, List.flatten_cons, ih shorter, List.take_append_drop]
      exact fun empty => nomatch empty

/-! ## Complete lines -/

/-- Complete lines and the rest after them are the text. -/
theorem completeFrom_flatten (line cs : List Char) :
    (completeFrom line cs).1.flatten ++ (completeFrom line cs).2 = line.reverse ++ cs := by
  fun_induction completeFrom line cs with
  | case1 line => simp
  | case2 line rest found remainder split ih =>
    rw [split] at ih
    simp [List.append_assoc, ih]
  | case3 line rest found remainder split ih =>
    rw [split] at ih
    simp [List.append_assoc, ih]
  | case4 line => simp
  | case5 line c rest noFeed found remainder split ih =>
    rw [split] at ih
    simp [List.append_assoc, ih]
  | case6 line c rest _ _ _ _ ih =>
    rw [ih]
    simp

/-- A line ends at the end of each complete line. -/
theorem lineEnded_of_completeFrom (line cs : List Char) :
    ∀ l ∈ (completeFrom line cs).1, LineEnded l := by
  have ended : ∀ (line : List Char) {c : Char}, isBreak c = true → LineEnded (c :: line).reverse := by
    intro line c ends d last
    rw [List.reverse_cons, List.getLast?_concat] at last
    exact Option.some.inj last ▸ ends
  fun_induction completeFrom line cs with
  | case1 line => exact fun l member => nomatch member
  | case2 line rest found remainder split ih =>
    rw [split] at ih
    exact List.forall_mem_cons.mpr ⟨ended line rfl, ih⟩
  | case3 line rest found remainder split ih =>
    rw [split] at ih
    exact List.forall_mem_cons.mpr ⟨ended ('\r' :: line) rfl, ih⟩
  | case4 line => exact fun l member => nomatch member
  | case5 line c rest noFeed found remainder split ih =>
    rw [split] at ih
    exact List.forall_mem_cons.mpr ⟨ended line rfl, ih⟩
  | case6 line c rest _ _ _ _ ih => exact ih

/-- A character before which `completeFrom` ends no line is none that ends one. -/
theorem isBreak_of_goesOn {c : Char} {rest : List Char} (noFeed : c = '\n' → False)
    (noReturn : c = '\r' → rest = [] → False)
    (noReturnMore : ∀ d later, c = '\r' → rest = d :: later → False) : isBreak c = false := by
  rw [Bool.eq_false_iff, ne_eq, isBreak_iff]
  rintro (feed | return')
  · exact noFeed feed
  · cases rest with
    | nil => exact noReturn return' rfl
    | cons d later => exact noReturnMore d later return' rfl

/-- No line ends inside of a complete line or of the rest after the last one. -/
theorem unbroken_of_completeFrom {line : List Char} (plain : ∀ c ∈ line, isBreak c = false)
    (cs : List Char) :
    (∀ l ∈ (completeFrom line cs).1, Unbroken l) ∧ Unbroken (completeFrom line cs).2 := by
  have ended : ∀ (line ending : List Char), (∀ c ∈ line, isBreak c = false) →
      (∀ c ∈ ending, isBreak c = true) → Unbroken (ending ++ line).reverse := by
    intro line ending plain breaks
    refine ⟨line.reverse, ending.reverse, List.reverse_append, ?_, ?_⟩
    · simpa using plain
    · simpa using breaks
  fun_induction completeFrom line cs with
  | case1 line => exact ⟨fun l member => (nomatch member), ended line [] plain (by simp)⟩
  | case2 line rest found remainder split ih =>
    rw [split] at ih
    obtain ⟨lines, last⟩ := ih (by simp)
    exact ⟨List.forall_mem_cons.mpr ⟨ended line ['\n'] plain (by decide), lines⟩, last⟩
  | case3 line rest found remainder split ih =>
    rw [split] at ih
    obtain ⟨lines, last⟩ := ih (by simp)
    exact ⟨List.forall_mem_cons.mpr ⟨ended line ['\n', '\r'] plain (by decide), lines⟩, last⟩
  | case4 line =>
    exact ⟨fun l member => (nomatch member), ended line ['\r'] plain (by decide)⟩
  | case5 line c rest noFeed found remainder split ih =>
    rw [split] at ih
    obtain ⟨lines, last⟩ := ih (by simp)
    exact ⟨List.forall_mem_cons.mpr ⟨ended line ['\r'] plain (by decide), lines⟩, last⟩
  | case6 line c rest noFeed _ noReturn noReturnMore ih =>
    exact ih (List.forall_mem_cons.mpr ⟨isBreak_of_goesOn noFeed noReturn noReturnMore, plain⟩)

/-- A character that ends no line goes into the current one. -/
theorem completeFrom_inside {c : Char} (inside : isBreak c = false) (line rest : List Char) :
    completeFrom line (c :: rest) = completeFrom (c :: line) rest := by
  have noFeed : c ≠ '\n' := by
    rintro rfl
    cases inside
  have noReturn : c ≠ '\r' := by
    rintro rfl
    cases inside
  rw [completeFrom]
  · exact noFeed
  · exact fun after return' => absurd return' noReturn
  · exact fun return' => absurd return' noReturn
  · exact fun d after return' => absurd return' noReturn

theorem completeFrom_plain {cs : List Char} (plain : ∀ c ∈ cs, isBreak c = false)
    (line more : List Char) : completeFrom line (cs ++ more) = completeFrom (cs.reverse ++ line) more := by
  induction cs generalizing line with
  | nil => rfl
  | cons c rest ih =>
    obtain ⟨inside, later⟩ := List.forall_mem_cons.mp plain
    rw [List.cons_append, completeFrom_inside inside, ih later]
    simp

/-- The lines of a text that goes on are its complete lines, and those of the rest after them with what
follows. -/
theorem completeFrom_append {line : List Char} (plain : ∀ c ∈ line, isBreak c = false)
    (cs more : List Char) : completeFrom line (cs ++ more) =
      ((completeFrom line cs).1 ++ (complete ((completeFrom line cs).2 ++ more)).1,
        (complete ((completeFrom line cs).2 ++ more)).2) := by
  have again : ∀ {line : List Char}, (∀ c ∈ line, isBreak c = false) →
      ∀ rest, complete (line.reverse ++ rest) = completeFrom line rest := by
    intro line plain rest
    rw [complete, completeFrom_plain (by simpa using plain), List.reverse_reverse, List.append_nil]
  fun_induction completeFrom line cs with
  | case1 line => rw [again plain]; rfl
  | case2 line rest found remainder split ih =>
    have later := ih (by simp)
    rw [split] at later
    rw [List.cons_append, completeFrom, later]
    rfl
  | case3 line rest found remainder split ih =>
    have later := ih (by simp)
    rw [split] at later
    rw [List.cons_append, List.cons_append, completeFrom, later]
    rfl
  | case4 line =>
    rw [List.reverse_cons, List.append_assoc, again plain]
    rfl
  | case5 line c rest noFeed found remainder split ih =>
    have later := ih (by simp)
    rw [split] at later
    rw [List.cons_append] at later
    rw [List.cons_append, List.cons_append, completeFrom, later]
    · rfl
    · exact noFeed
  | case6 line c rest noFeed _ noReturn noReturnMore ih =>
    have inside := isBreak_of_goesOn noFeed noReturn noReturnMore
    rw [List.cons_append, completeFrom_inside inside, ih (List.forall_mem_cons.mpr ⟨inside, plain⟩)]

theorem complete_flatten (cs : List Char) : (complete cs).1.flatten ++ (complete cs).2 = cs :=
  completeFrom_flatten [] cs

theorem lineEnded_of_complete (cs : List Char) : ∀ l ∈ (complete cs).1, LineEnded l :=
  lineEnded_of_completeFrom [] cs

/-- The lines of a text that does not go on. -/
def wholeLines (cs : List Char) : List (List Char) :=
  if (complete cs).2.isEmpty then (complete cs).1 else (complete cs).1 ++ [(complete cs).2]

theorem wholeLines_append (cs more : List Char) :
    wholeLines (cs ++ more) = (complete cs).1 ++ wholeLines ((complete cs).2 ++ more) := by
  have step : complete (cs ++ more) = ((complete cs).1 ++ (complete ((complete cs).2 ++ more)).1,
      (complete ((complete cs).2 ++ more)).2) := completeFrom_append (by simp) cs more
  rw [wholeLines, wholeLines, step]
  split
  · rfl
  · rw [List.append_assoc]

theorem wholeLines_flatten (cs : List Char) : (wholeLines cs).flatten = cs := by
  have whole := complete_flatten cs
  rw [wholeLines]
  split
  · rename_i done
    rwa [List.isEmpty_iff.mp done, List.append_nil] at whole
  · rwa [List.flatten_append, List.flatten_singleton]

theorem lineEnded_of_wholeLines (cs : List Char) : ∀ l ∈ (wholeLines cs).dropLast, LineEnded l := by
  intro l member
  rw [wholeLines] at member
  split at member
  · exact lineEnded_of_complete cs l (List.dropLast_subset _ member)
  · rw [List.dropLast_concat] at member
    exact lineEnded_of_complete cs l member

/-- A line with one end, put in front of lines that have as many ends as there are of them. -/
theorem lineEnds_line {line ending : List Char} {lines : List (List Char)}
    (plain : ∀ c ∈ line, isBreak c = false) (one : lineEnds ending = 1)
    (apart : Apart (line.reverse ++ ending) lines.flatten)
    (counted : lineEnds lines.flatten = lines.length) :
    lineEnds ((line.reverse ++ ending) :: lines).flatten =
      ((line.reverse ++ ending) :: lines).length := by
  rw [List.flatten_cons, lineEnds_append apart, lineEnds_plain_append (by simpa using plain), one,
    counted, List.length_cons, Nat.add_comm]

/-- The first of the complete lines of a text have as many ends as there are of them. -/
theorem lineEnds_of_completeFrom {line : List Char} (plain : ∀ c ∈ line, isBreak c = false)
    {cs : List Char} {before after : List (List Char)}
    (divided : (completeFrom line cs).1 = before ++ after) :
    lineEnds before.flatten = before.length := by
  fun_induction completeFrom line cs generalizing before with
  | case1 line | case4 line =>
    rw [(List.nil_eq_append_iff.mp divided).1]
    rfl
  | case2 line rest found remainder split ih =>
    rw [split] at ih
    rcases List.cons_eq_append_iff.mp divided with ⟨rfl, -⟩ | ⟨later, rfl, more⟩
    · rfl
    · rw [List.reverse_cons]
      exact lineEnds_line plain rfl (apart_of_last List.getLast?_concat (by decide)) (ih (by simp) more)
  | case3 line rest found remainder split ih =>
    rw [split] at ih
    rcases List.cons_eq_append_iff.mp divided with ⟨rfl, -⟩ | ⟨later, rfl, more⟩
    · rfl
    · rw [List.reverse_cons, List.reverse_cons, List.append_assoc]
      refine lineEnds_line plain rfl (apart_of_last (c := '\n') ?_ (by decide)) (ih (by simp) more)
      rw [← List.append_assoc]
      exact List.getLast?_concat
  | case5 line c rest noFeed found remainder split ih =>
    have flat := completeFrom_flatten [] (c :: rest)
    rw [split] at ih flat
    rcases List.cons_eq_append_iff.mp divided with ⟨rfl, -⟩ | ⟨later, rfl, more⟩
    · rfl
    · rw [List.reverse_cons]
      refine lineEnds_line plain rfl (fun _ feed => ?_) (ih (by simp) more)
      -- The later lines begin as the text after the carriage return does.
      obtain ⟨tail, begins⟩ := List.head?_eq_some_iff.mp feed
      have more : found = later ++ after := more
      rw [more, List.flatten_append, begins] at flat
      exact noFeed (List.cons.inj flat).1.symm
  | case6 line c rest noFeed _ noReturn noReturnMore ih =>
    exact ih (List.forall_mem_cons.mpr ⟨isBreak_of_goesOn noFeed noReturn noReturnMore, plain⟩) divided

/-- Before each of the lines of a text, as many lines end as there are lines before it. -/
theorem lineEnds_of_wholeLines {cs l : List Char} {before after : List (List Char)}
    (divided : wholeLines cs = before ++ l :: after) : lineEnds before.flatten = before.length := by
  have first : ∃ after, (complete cs).1 = before ++ after := by
    rw [wholeLines] at divided
    split at divided
    · exact ⟨_, divided⟩
    · rcases List.append_eq_append_iff.mp divided with ⟨more, whole, last⟩ | ⟨more, whole, last⟩
      · obtain ⟨rfl, -⟩ | ⟨_, -, none⟩ := List.cons_eq_append_iff.mp last
        · exact ⟨[], by rw [whole, List.append_nil, List.append_nil]⟩
        · simp at none
      · exact ⟨_, whole⟩
  obtain ⟨after, divided⟩ := first
  exact lineEnds_of_completeFrom (by simp) divided

/-! ## Lines of chunks -/

theorem map_text_mk (bytesRead : Nat) (found : List (List Char)) :
    (found.map (Line.mk · bytesRead)).map Line.text = found := by
  rw [List.map_map]
  exact List.map_id found

/-- Lines are those of a text, and nothing stops them. -/
structure AreOf (ls : Lines) (text : List Char) : Prop where
  whole : ls.stop = none
  texts : ls.lines.map Line.text = wholeLines text

theorem areOf_last {lossy : Bool} (bytesRead : Nat) (remainder : List Char) {pending : List UInt8}
    (accepted : (Utf8.finish lossy pending).fault = none) :
    AreOf (last lossy bytesRead remainder pending)
      (remainder ++ (Utf8.finish lossy pending).chars) := by
  simp only [last, accepted]
  exact ⟨rfl, map_text_mk bytesRead _⟩

/-- The lines of chunks are those of the text that the chunks hold, with what stands for bytes left over
at the end. Each chunk goes on with the bytes that are pending and with the line that is not complete. -/
theorem areOf_ofChunks {lossy : Bool} (bytesRead : Nat) (remainder : List Char) {text : List Char}
    {pending left : List UInt8} {pieces : List (List UInt8)}
    (waiting : Utf8.decode false pending = { chars := [], pending })
    (decoded : Utf8.decode false (pending ++ pieces.flatten) = { chars := text, pending := left })
    (accepted : (Utf8.finish lossy left).fault = none) :
    AreOf (ofChunks lossy none bytesRead remainder pending pieces)
      (remainder ++ text ++ (Utf8.finish lossy left).chars) := by
  induction pieces generalizing bytesRead remainder text pending with
  | nil =>
    rw [List.flatten_nil, List.append_nil, waiting] at decoded
    cases decoded
    rw [List.append_nil]
    exact areOf_last bytesRead remainder accepted
  | cons chunk rest ih =>
    rw [List.flatten_cons, ← List.append_assoc, Utf8.decode_andThen, Utf8.Piece.andThen] at decoded
    have pendingNext := Utf8.decode_pending (pending ++ chunk)
    have alike : (Utf8.decode false (pending ++ chunk)).fault = none →
        Utf8.decode lossy (pending ++ chunk) = Utf8.decode false (pending ++ chunk) := by
      intro whole
      cases lossy with
      | false => rfl
      | true => exact Utf8.decode_lossy whole
    rw [ofChunks]
    generalize Utf8.decode false (pending ++ chunk) = p at decoded pendingNext alike
    cases fault : p.fault with
    | some f =>
      rw [fault] at decoded
      simp only at decoded
      rw [decoded] at fault
      cases fault
    | none =>
      rw [alike fault, fault]
      rw [fault] at decoded
      simp only at decoded
      cases later : Utf8.decode false (p.pending ++ rest.flatten) with
      | mk chars bytes stopped =>
        rw [later] at decoded
        cases decoded
        have next := ih (bytesRead + chunk.length) (complete (remainder ++ p.chars)).2
          (pendingNext fault) later
        refine ⟨next.whole, ?_⟩
        simp only [Lines.prepend, List.map_append, map_text_mk, next.texts]
        rw [List.append_assoc (complete _).2, ← wholeLines_append]
        simp only [List.append_assoc]

/-- Lines are all of a text, divided where lines end. -/
structure Covers (ls : Lines) (text : List Char) : Prop where
  whole : ls.stop = none
  texts : (ls.lines.map Line.text).flatten = text
  ended : ∀ l ∈ ls.lines.dropLast, LineEnded l.text

theorem AreOf.covers {ls : Lines} {text : List Char} (areOf : AreOf ls text) : Covers ls text := by
  refine ⟨areOf.whole, by rw [areOf.texts, wholeLines_flatten], fun l member => ?_⟩
  apply lineEnded_of_wholeLines text
  rw [← areOf.texts, ← List.map_dropLast]
  exact List.mem_map_of_mem member

/-- The lines of contents that hold a text are those of the text. -/
theorem areOf_ofContents {c : Contents} (intact : c.failure = none) {text : List Char}
    (decoded : Utf8.text? c.bytes = .ok text) : AreOf (ofContents false c) text := by
  have bytes : readable c = c.bytes := by rw [readable, intact]
  have whole : Utf8.decode false ([] ++ (chunks chunkSize (c.bytes.length + 1) c.bytes).flatten) =
      { chars := text } := by
    rw [List.nil_append, chunks_flatten (by decide) (Nat.lt_succ_self _)]
    exact Utf8.text?_eq_ok.mp decoded
  have areOf := @areOf_ofChunks false 0 [] _ _ _ _ rfl whole rfl
  rw [ofContents, bytes, intact]
  simpa [Utf8.finish] using areOf

/-- The lines of contents that hold a text are the text. -/
theorem covers_ofContents {c : Contents} (intact : c.failure = none) {text : List Char}
    (decoded : Utf8.text? c.bytes = .ok text) : Covers (ofContents false c) text :=
  (areOf_ofContents intact decoded).covers

/-- The lines that are read of the first bytes of a text, in the lossy form, are the first characters
of it; a character that the bytes cut off is replaced. -/
theorem covers_ofContents_prefix {c : Contents} (intact : c.failure = none) {more : List UInt8}
    {text : List Char} (decoded : Utf8.text? (c.bytes ++ more) = .ok text) :
    ∃ first later cut, text = first ++ later ∧ (cut = [] ∨ cut = [Utf8.replacement]) ∧
      Covers (ofContents true c) (first ++ cut) := by
  have bytes : readable c = c.bytes := by rw [readable, intact]
  obtain ⟨whole, later, same⟩ := Utf8.decode_prefix (Utf8.text?_eq_ok.mp decoded)
  refine ⟨(Utf8.decode false c.bytes).chars, later,
    (Utf8.finish true (Utf8.decode false c.bytes).pending).chars, same, ?_, ?_⟩
  · rw [Utf8.finish]
    split
    · exact .inl rfl
    · exact .inr rfl
  · have piece : Utf8.decode false ([] ++ (chunks chunkSize (c.bytes.length + 1) c.bytes).flatten) =
        { chars := (Utf8.decode false c.bytes).chars
          pending := (Utf8.decode false c.bytes).pending } := by
      rw [List.nil_append, chunks_flatten (by decide) (Nat.lt_succ_self _), ← whole]
    have accepted : (Utf8.finish true (Utf8.decode false c.bytes).pending).fault = none := by
      rw [Utf8.finish]
      split <;> rfl
    have covers := (areOf_ofChunks 0 [] rfl piece accepted).covers
    rw [ofContents, bytes, intact]
    exact covers

/-- No line ends inside of a line. -/
theorem unbroken_ofChunks {lossy : Bool} {failure : Option Failure} {bytesRead : Nat}
    {remainder : List Char} {pending : List UInt8} {pieces : List (List UInt8)} :
    ∀ l ∈ (ofChunks lossy failure bytesRead remainder pending pieces).lines, Unbroken l.text := by
  have divided : ∀ cs, (∀ l ∈ (complete cs).1, Unbroken l) ∧ Unbroken (complete cs).2 := by
    intro cs
    exact unbroken_of_completeFrom (by simp) cs
  induction pieces generalizing bytesRead remainder pending with
  | nil =>
    intro l member
    cases failure with
    | some f => cases member
    | none =>
      simp only [ofChunks, last] at member
      split at member
      · cases member
      · obtain ⟨lines, rest⟩ := divided (remainder ++ (Utf8.finish lossy pending).chars)
        obtain ⟨t, found, rfl⟩ := List.mem_map.mp member
        split at found
        · exact lines t found
        · rcases List.mem_append.mp found with found | found
          · exact lines t found
          · exact List.mem_singleton.mp found ▸ rest
  | cons chunk rest ih =>
    intro l member
    rw [ofChunks] at member
    split at member
    · cases member
    · rcases List.mem_append.mp member with complete | later
      · obtain ⟨t, found, rfl⟩ := List.mem_map.mp complete
        exact (divided _).1 t found
      · exact ih l later

/-! ## Bytes that have been read -/

theorem last_bytesRead (lossy : Bool) (bytesRead : Nat) (remainder : List Char)
    (pending : List UInt8) : (last lossy bytesRead remainder pending).bytesRead = bytesRead := by
  rw [last]
  cases (Utf8.finish lossy pending).fault <;> rfl

theorem ofChunks_bytesRead {lossy : Bool} {failure : Option Failure} {bytesRead : Nat}
    {remainder : List Char} {pending : List UInt8} {pieces : List (List UInt8)}
    (whole : (ofChunks lossy failure bytesRead remainder pending pieces).stop = none) :
    failure = none ∧ (ofChunks lossy failure bytesRead remainder pending pieces).bytesRead =
      bytesRead + pieces.flatten.length := by
  induction pieces generalizing bytesRead remainder pending with
  | nil =>
    cases failure with
    | some f => simp [ofChunks] at whole
    | none => exact ⟨rfl, last_bytesRead lossy bytesRead remainder pending⟩
  | cons chunk rest ih =>
    rw [ofChunks] at whole ⊢
    cases fault : (Utf8.decode lossy (pending ++ chunk)).fault with
    | some f => simp [fault] at whole
    | none =>
      simp only [fault] at whole ⊢
      obtain ⟨intact, all⟩ := ih whole
      refine ⟨intact, ?_⟩
      rw [List.flatten_cons, List.length_append, ← Nat.add_assoc]
      exact all

/-- Lines that nothing stops are those of intact contents, all bytes of which have been read. -/
theorem bytesRead_ofContents {lossy : Bool} {c : Contents}
    (whole : (ofContents lossy c).stop = none) :
    c.failure = none ∧ (ofContents lossy c).bytesRead = c.bytes.length := by
  rw [ofContents] at whole ⊢
  obtain ⟨intact, all⟩ := ofChunks_bytesRead whole
  refine ⟨intact, all.trans ?_⟩
  have bytes : readable c = c.bytes := by rw [readable, intact]
  rw [chunks_flatten (by decide) (Nat.lt_succ_self _), bytes, Nat.zero_add]

end SchemaOnRead.Lines
