import SchemaOnRead.Storage.Store

/-!
# The objects below a directory

`Tree.objects` enumerates everything below a directory, depth first, in listing order. It says
which objects there are without saying which of them a walk comes to. In a proper tree the paths of
these objects are all different and lie below that of the directory (`nodup_objects`,
`objects_below`), and they are the objects that the store has at such paths (`mem_objects_iff_head`).
`Path.between` gives the directories that lead from one path to another.
-/

namespace SchemaOnRead

namespace Path

/-! ## Paths in standard form -/

/-- The path with some segments. -/
def ofNames (ss : List (List Char)) : String := String.ofList (ofSegments ss)

theorem format_eq_ofNames (path : String) : format path = ofNames (segments path.toList) := rfl

theorem segments_format (path : String) :
    segments (format path).toList = segments path.toList := by
  rw [format, String.toList_ofList, segments_formatChars]

/-- A path in standard form stays as it is. -/
theorem format_format (path : String) : format (format path) = format path := by
  rw [format_eq_ofNames, segments_format, ← format_eq_ofNames]

theorem format_join (directory name : String) : format (join directory name) = join directory name :=
  format_format _

theorem isSegment_of_isName {name : String} (named : isName name = true) :
    IsSegment name.toList := by
  simp only [isName, Bool.and_eq_true, Bool.not_eq_true'] at named
  obtain ⟨⟨⟨⟨nonempty, noSlash⟩, -⟩, -⟩, -⟩ := named
  exact ⟨by simpa using nonempty, by simpa using noSlash⟩

/-- A child adds one segment to the path of its directory. -/
theorem segments_join_name (directory : String) {name : String} (named : isName name = true) :
    segments (join directory name).toList = segments directory.toList ++ [name.toList] := by
  rw [segments_join, segments_of_isSegment (isSegment_of_isName named)]

/-- The path that names lead to from a directory. -/
def descendant (root : String) (names : List String) : String := names.foldl join root

theorem descendant_cons (root name : String) (rest : List String) :
    descendant root (name :: rest) = descendant (join root name) rest := by
  rw [descendant, List.foldl_cons, ← descendant]

theorem descendant_append (root : String) (upper lower : List String) :
    descendant root (upper ++ lower) = descendant (descendant root upper) lower :=
  List.foldl_append

theorem segments_descendant (root : String) {names : List String}
    (named : ∀ n ∈ names, isName n = true) :
    segments (descendant root names).toList = segments root.toList ++ names.map String.toList := by
  induction names generalizing root with
  | nil => simp [descendant]
  | cons n rest ih =>
    have later := ih (join root n) fun m member => named m (.tail _ member)
    rw [descendant_cons, later, segments_join_name root (named n (.head _)),
      List.append_assoc, List.map_cons]
    rfl

theorem format_descendant (root : String) {names : List String} (some : names ≠ []) :
    format (descendant root names) = descendant root names := by
  rw [descendant, ← List.dropLast_concat_getLast some, List.foldl_append]
  exact format_join _ _

theorem descendant_eq_ofNames (root : String) {names : List String} (some : names ≠ [])
    (named : ∀ n ∈ names, isName n = true) :
    descendant root names = ofNames (segments root.toList ++ names.map String.toList) := by
  rw [← format_descendant root some, format_eq_ofNames, segments_descendant root named]

/-- A path lies below a root if one or more names lead to it from there. -/
def Below (root path : String) : Prop :=
  ∃ names, names ≠ [] ∧ (∀ n ∈ names, isName n = true) ∧ path = descendant root names

theorem Below.format_eq {root path : String} (below : Below root path) : format path = path := by
  obtain ⟨names, some, -, rfl⟩ := below
  exact format_descendant root some

theorem Below.segments_eq {root path : String} (below : Below root path) :
    ∃ s more, segments path.toList = segments root.toList ++ s :: more := by
  obtain ⟨names, some, named, rfl⟩ := below
  obtain ⟨n, rest, rfl⟩ := List.exists_cons_of_ne_nil some
  exact ⟨n.toList, rest.map String.toList, segments_descendant root named⟩

/-! ## What leads from one path to another -/

/-- The paths that segments lead through from others on, without the last one. -/
def through (start : List (List Char)) : List (List Char) → List String
  | [] => []
  | [_] => []
  | s :: rest => ofNames (start ++ [s]) :: through (start ++ [s]) rest

/-- The paths of the directories strictly below a root that lead to a path below it, the uppermost
first. -/
def between (root path : String) : List String :=
  through (segments root.toList) ((segments path.toList).drop (segments root.toList).length)

theorem between_descendant (root : String) {names : List String}
    (named : ∀ n ∈ names, isName n = true) :
    between root (descendant root names) =
      through (segments root.toList) (names.map String.toList) := by
  rw [between, segments_descendant root named, List.drop_left]

/-- Nothing is between a directory and its child. -/
theorem between_join (directory : String) {name : String} (named : isName name = true) :
    between directory (join directory name) = [] := by
  have all : ∀ n ∈ [name], isName n = true := by simpa using named
  simpa only [descendant, List.foldl_cons, List.foldl_nil, List.map_cons, List.map_nil, through] using
    between_descendant directory all

/-- What is below a child is reached through the child. -/
theorem between_below_join (directory : String) {name path : String} (named : isName name = true)
    (below : Below (join directory name) path) :
    between directory path = join directory name :: between (join directory name) path := by
  obtain ⟨names, some, all, rfl⟩ := below
  obtain ⟨n, rest, rfl⟩ := List.exists_cons_of_ne_nil some
  have child : ofNames (segments directory.toList ++ [name.toList]) = join directory name := by
    rw [← segments_join_name directory named, ← format_eq_ofNames, format_join]
  rw [between_descendant _ all, ← descendant_cons,
    between_descendant _ (List.forall_mem_cons.mpr ⟨named, all⟩), List.map_cons, List.map_cons,
    through, child, segments_join_name directory named]
  simp

theorem mem_through_iff {start rest : List (List Char)} {a : String} :
    a ∈ through start rest ↔
      ∃ upper lower, upper ≠ [] ∧ lower ≠ [] ∧ rest = upper ++ lower ∧
        a = ofNames (start ++ upper) := by
  induction rest generalizing start with
  | nil =>
    simp only [through, List.not_mem_nil, false_iff]
    rintro ⟨upper, lower, nonempty, -, parted, -⟩
    exact nonempty (List.append_eq_nil_iff.mp parted.symm).1
  | cons s more ih =>
    cases more with
    | nil =>
      simp only [through, List.not_mem_nil, false_iff]
      rintro ⟨upper, lower, nonempty, nonempty', parted, -⟩
      have lengths := congrArg List.length parted
      have := List.length_pos_iff.mpr nonempty
      have := List.length_pos_iff.mpr nonempty'
      simp only [List.length_cons, List.length_nil, List.length_append] at lengths
      omega
    | cons s' more =>
      rw [through, List.mem_cons, ih]
      · constructor
        · rintro (rfl | ⟨upper, lower, nonempty, nonempty', parted, rfl⟩)
          · exact ⟨[s], s' :: more, by simp, by simp, rfl, rfl⟩
          · exact ⟨s :: upper, lower, by simp, nonempty', by rw [parted]; rfl,
              by rw [List.append_assoc]; rfl⟩
        · rintro ⟨upper, lower, nonempty, nonempty', parted, rfl⟩
          obtain ⟨u, upper, rfl⟩ := List.exists_cons_of_ne_nil nonempty
          rw [List.cons_append, List.cons.injEq] at parted
          obtain ⟨rfl, parted⟩ := parted
          cases upper with
          | nil => exact .inl rfl
          | cons v upper =>
            refine .inr ⟨v :: upper, lower, by simp, nonempty', parted, ?_⟩
            rw [List.append_assoc]
            rfl
      · simp

/-- A directory leads from a root to a path below it if it is below the root and the path below
it. -/
theorem mem_between_iff {root path a : String} (below : Below root path) :
    a ∈ between root path ↔ Below root a ∧ Below a path := by
  obtain ⟨names, -, named, rfl⟩ := below
  rw [between_descendant root named, mem_through_iff]
  constructor
  · rintro ⟨upper, lower, nonempty, nonempty', parted, rfl⟩
    obtain ⟨first, last, rfl, rfl, rfl⟩ := List.map_eq_append_iff.mp parted
    have firstNamed := fun n member => named n (List.mem_append_left last member)
    have firstSome : first ≠ [] := by rintro rfl; exact nonempty rfl
    rw [← descendant_eq_ofNames root firstSome firstNamed]
    refine ⟨⟨first, firstSome, firstNamed, rfl⟩, last, by rintro rfl; exact nonempty' rfl,
      fun n member => named n (List.mem_append_right first member), ?_⟩
    exact descendant_append root first last
  · rintro ⟨⟨first, some, firstNamed, rfl⟩, last, some', lastNamed, whole⟩
    refine ⟨first.map String.toList, last.map String.toList, by simpa using some,
      by simpa using some', ?_, descendant_eq_ofNames root some firstNamed⟩
    have parted := congrArg (fun path : String => segments path.toList) whole
    simp only [segments_descendant _ named, segments_descendant _ lastNamed,
      segments_descendant _ firstNamed, List.append_assoc] at parted
    exact List.append_cancel_left parted

end Path

namespace Tree

/-! ## Enumeration -/

mutual

/-- The objects below a directory with a path, depth first in listing order; a directory comes
before its contents. -/
def objects (path : String) : Tree → List StoredObject
  | file _ => []
  | directory es => entryObjects path es

/-- The objects that are or are below entries of a directory with a path. -/
def entryObjects (path : String) : List (String × Tree) → List StoredObject
  | [] => []
  | (n, t) :: rest =>
    t.describe (Path.join path n) n ::
      (objects (Path.join path n) t ++ entryObjects path rest)

end

/-- What holds of every file, and of a directory if it holds of what the entries lead to, holds of
every tree. -/
theorem induct {motive : Tree → Prop} (file : ∀ bytes, motive (.file bytes))
    (directory : ∀ es, (∀ e ∈ es, motive e.2) → motive (.directory es)) : ∀ t, motive t
  | .file bytes => file bytes
  | .directory es => directory es fun e _member => induct file directory e.2
termination_by t => sizeOf t
decreasing_by
  have := List.sizeOf_lt_of_mem _member
  cases e
  simp_wf
  simp at this
  omega

@[simp] theorem describe_path (t : Tree) (directory name : String) :
    (t.describe (Path.join directory name) name).path = Path.join directory name := by
  cases t <;> exact Path.format_join directory name

@[simp] theorem describe_isDirectory (t : Tree) (path name : String) :
    (t.describe path name).isDirectory = t.isDirectory := by
  cases t <;> rfl

theorem proper_cons {n : String} {t : Tree} {rest : List (String × Tree)}
    (proper : areProper ((n, t) :: rest) = true) :
    Path.isName n = true ∧ t.isProper = true ∧ areProper rest = true ∧ n ∉ rest.map (·.1) := by
  simp only [areProper, Bool.and_eq_true, Bool.not_eq_true', List.any_eq_false, beq_iff_eq] at proper
  obtain ⟨⟨⟨named, fresh⟩, inner⟩, later⟩ := proper
  refine ⟨named, inner, later, fun member => ?_⟩
  obtain ⟨e, there, same⟩ := List.mem_map.mp member
  exact fresh e there same

theorem mem_entryObjects {path : String} {es : List (String × Tree)} {o : StoredObject} :
    o ∈ entryObjects path es ↔ ∃ n t, (n, t) ∈ es ∧
      (o = t.describe (Path.join path n) n ∨ o ∈ t.objects (Path.join path n)) := by
  induction es with
  | nil => simp [entryObjects]
  | cons e rest ih =>
    obtain ⟨n, t⟩ := e
    rw [entryObjects, List.mem_cons, List.mem_append, ih]
    constructor
    · rintro (same | inside | ⟨m, u, there, found⟩)
      · exact ⟨n, t, .head _, .inl same⟩
      · exact ⟨n, t, .head _, .inr inside⟩
      · exact ⟨m, u, .tail _ there, found⟩
    · rintro ⟨m, u, there, found⟩
      rcases List.mem_cons.mp there with same | later
      · cases same
        exact found.imp_right .inl
      · exact .inr (.inr ⟨m, u, later, found⟩)

/-- The objects below a directory are what names lead to. -/
theorem mem_objects_iff {t : Tree} (proper : t.isProper = true) {path : String}
    {o : StoredObject} :
    o ∈ t.objects path ↔ ∃ names u, names ≠ [] ∧ t.descend? names = some u ∧
      o = u.describe (Path.descendant path names) (names.getLastD "") := by
  induction t using induct generalizing path with
  | file _ =>
    simp only [objects, List.not_mem_nil, false_iff]
    rintro ⟨names, u, some, found, -⟩
    obtain ⟨n, rest, rfl⟩ := List.exists_cons_of_ne_nil some
    cases found
  | directory es inner =>
    replace proper : areProper es = true := proper
    rw [objects, mem_entryObjects]
    constructor
    · rintro ⟨n, t, there, found⟩
      have atName := lookup_of_mem (areProper_iff.mp proper).2 there
      rcases found with rfl | inside
      · exact ⟨[n], t, by simp, by simp [descend?, atName], rfl⟩
      · have properInside := ((areProper_iff.mp proper).1 _ there).2
        obtain ⟨names, u, some, found, rfl⟩ := (inner _ there properInside).mp inside
        obtain ⟨m, rest, rfl⟩ := List.exists_cons_of_ne_nil some
        refine ⟨n :: m :: rest, u, by simp, by simpa [descend?, atName] using found, ?_⟩
        rw [Path.descendant_cons path n]
        simp
    · rintro ⟨names, u, some, found, rfl⟩
      obtain ⟨n, rest, rfl⟩ := List.exists_cons_of_ne_nil some
      obtain ⟨t, atName, further⟩ := Option.bind_eq_some_iff.mp found
      have there := mem_of_lookup_eq_some atName
      refine ⟨n, t, there, ?_⟩
      cases rest with
      | nil =>
        cases further
        exact .inl rfl
      | cons m rest =>
        refine .inr ((inner _ there ((areProper_iff.mp proper).1 _ there).2).mpr
          ⟨m :: rest, u, by simp, further, ?_⟩)
        rw [Path.descendant_cons path n]
        simp

/-- The names that lead to something in a proper tree are names of entries. -/
theorem isName_of_descend {t u : Tree} (proper : t.isProper = true) {names : List String}
    (found : t.descend? names = some u) : ∀ n ∈ names, Path.isName n = true := by
  induction names generalizing t with
  | nil => simp
  | cons n rest ih =>
    cases t with
    | file _ => cases found
    | directory es =>
      replace proper : areProper es = true := proper
      obtain ⟨v, atName, further⟩ := Option.bind_eq_some_iff.mp found
      obtain ⟨named, properInside⟩ := (areProper_iff.mp proper).1 _ (mem_of_lookup_eq_some atName)
      exact List.forall_mem_cons.mpr ⟨named, ih properInside further⟩

theorem describe_descendant_path (t : Tree) (root name : String) {names : List String}
    (some : names ≠ []) :
    (t.describe (Path.descendant root names) name).path = Path.descendant root names := by
  cases t <;> exact Path.format_descendant root some

/-- The objects below a directory have paths below its path. -/
theorem objects_below {t : Tree} (proper : t.isProper = true) {path : String} {o : StoredObject}
    (member : o ∈ t.objects path) : Path.Below path o.path := by
  obtain ⟨names, u, some, found, rfl⟩ := (mem_objects_iff proper).mp member
  exact ⟨names, some, isName_of_descend proper found, describe_descendant_path u path _ some⟩

/-- The path of an object goes on from that of the directory with the name of an entry. -/
theorem segments_of_mem_entryObjects {es : List (String × Tree)} (proper : areProper es = true)
    {path : String} {o : StoredObject} (member : o ∈ entryObjects path es) :
    ∃ n more, n ∈ es.map (·.1) ∧
      Path.segments o.path.toList = Path.segments path.toList ++ n.toList :: more := by
  obtain ⟨n, t, there, found⟩ := mem_entryObjects.mp member
  obtain ⟨named, properThere⟩ := (areProper_iff.mp proper).1 _ there
  have own := Path.segments_join_name path named
  refine ⟨n, ?_⟩
  rcases found with rfl | inside
  · exact ⟨[], List.mem_map_of_mem (f := (·.1)) there, by rw [describe_path, own]⟩
  · obtain ⟨s, more, segments⟩ := (objects_below properThere inside).segments_eq
    exact ⟨s :: more, List.mem_map_of_mem (f := (·.1)) there,
      by rw [segments, own, List.append_assoc]; rfl⟩

/-- The objects below a directory all have different paths. -/
theorem nodup_objects {t : Tree} (proper : t.isProper = true) (path : String) :
    ((t.objects path).map (·.path)).Nodup := by
  induction t using induct generalizing path with
  | file _ => exact .nil
  | directory es inner =>
    replace proper : areProper es = true := proper
    rw [objects]
    induction es with
    | nil => exact .nil
    | cons e rest ih =>
      obtain ⟨n, t⟩ := e
      obtain ⟨named, properInside, properRest, fresh⟩ := proper_cons proper
      have own := Path.segments_join_name path named
      -- Segments tell the three parts apart: the entry's own path ends with its name, what is
      -- below it goes on from there, and what comes later goes on with another name.
      have inside : ∀ p ∈ (t.objects (Path.join path n)).map (·.path), ∃ s more,
          Path.segments p.toList = Path.segments path.toList ++ n.toList :: s :: more := by
        intro p member
        obtain ⟨o, there, rfl⟩ := List.mem_map.mp member
        obtain ⟨s, more, segments⟩ := (objects_below properInside there).segments_eq
        exact ⟨s, more, by rw [segments, own, List.append_assoc]; rfl⟩
      have later : ∀ p ∈ (entryObjects path rest).map (·.path), ∃ m more, m ≠ n ∧
          Path.segments p.toList = Path.segments path.toList ++ m.toList :: more := by
        intro p member
        obtain ⟨o, there, rfl⟩ := List.mem_map.mp member
        obtain ⟨m, more, listed, segments⟩ := segments_of_mem_entryObjects properRest there
        exact ⟨m, more, fun same => fresh (same ▸ listed), segments⟩
      rw [entryObjects, List.map_cons, List.map_append, List.nodup_cons, List.nodup_append,
        describe_path]
      refine ⟨fun member => ?_, inner (n, t) (.head _) properInside _,
        ih (fun e there => inner e (.tail _ there)) properRest, ?_⟩
      · rcases List.mem_append.mp member with member | member
        · obtain ⟨s, more, segments⟩ := inside _ member
          rw [own] at segments
          simpa using List.append_cancel_left segments
        · obtain ⟨m, more, different, segments⟩ := later _ member
          rw [own] at segments
          have heads := List.append_cancel_left segments
          rw [List.cons.injEq, String.toList_inj] at heads
          exact different heads.1.symm
      · rintro p first q second rfl
        obtain ⟨s, more, segments⟩ := inside p first
        obtain ⟨m, more', different, segments'⟩ := later p second
        rw [segments] at segments'
        have heads := List.append_cancel_left segments'
        rw [List.cons.injEq, String.toList_inj] at heads
        exact different heads.1.symm

/-- What names lead to, in two steps. -/
theorem descend_append (t : Tree) (upper lower : List String) :
    t.descend? (upper ++ lower) = (t.descend? upper).bind (·.descend? lower) := by
  induction upper generalizing t with
  | nil => simp [descend?]
  | cons n rest ih =>
    cases t with
    | file _ => rfl
    | directory es =>
      rw [List.cons_append, descend?, descend?, Option.bind_assoc]
      congr 1
      funext u
      exact ih u

end Tree

namespace Store

/-! ## Objects as the store has them -/

/-- Segments lead to the same place whether or not another name comes after them. -/
theorem resolveFrom_append_name (found segments : List String) {name : String}
    (named : Path.isName name = true) :
    resolveFrom found (segments ++ [name]) = resolveFrom found segments ++ [name] := by
  have normal : name ≠ "." ∧ name ≠ ".." := by
    simp only [Path.isName, Bool.and_eq_true, bne_iff_ne] at named
    exact ⟨named.1.2, named.2⟩
  induction segments generalizing found with
  | nil => simp [resolveFrom, normal]
  | cons s rest ih =>
    rw [List.cons_append, resolveFrom, resolveFrom]
    split
    · exact ih found
    · split
      · exact ih found.tail
      · exact ih (s :: found)

theorem no_null_ofSegments {ss : List (List Char)} (clean : ∀ s ∈ ss, '\x00' ∉ s) :
    '\x00' ∉ Path.ofSegments ss := by
  induction ss with
  | nil => simp [Path.ofSegments]
  | cons s rest ih =>
    have first := clean s (.head _)
    have later := ih fun s' member => clean s' (.tail _ member)
    cases rest with
    | nil => simp [Path.ofSegments, first]
    | cons s' rest =>
      rw [Path.ofSegments, List.cons_append, List.mem_cons, List.mem_append, not_or, not_or]
      · exact ⟨by simp, first, later⟩
      · simp

/-- A child's path is as free of null characters as that of its directory. -/
theorem no_null_join {path name : String} (named : Path.isName name = true)
    (clean : '\x00' ∉ path.toList) : '\x00' ∉ (Path.join path name).toList := by
  have noNull : '\x00' ∉ name.toList := by
    simp only [Path.isName, Bool.and_eq_true, Bool.not_eq_true', List.contains_eq_mem,
      decide_eq_false_iff_not] at named
    exact named.1.1.2
  rw [Path.join, Path.format, String.toList_ofList, Path.formatChars]
  refine no_null_ofSegments fun s member null => ?_
  have inside := Path.mem_of_mem_split (List.mem_filter.mp member).1 null
  have apart : (path ++ "/" ++ name).toList = path.toList ++ '/' :: name.toList := by simp
  rw [apart, List.mem_append, List.mem_cons] at inside
  rcases inside with inside | slash | inside
  · exact clean inside
  · cases slash
  · exact noNull inside

variable {s : Store}

/-- The path of a child leads through one more name than that of its directory. -/
theorem locate_join {path name : String} {names : List String} (named : Path.isName name = true)
    (located : s.locate path = .ok names) :
    s.locate (Path.join path name) = .ok (names ++ [name]) := by
  obtain ⟨clean, resolved⟩ := locate_eq_ok.mp located
  refine locate_eq_ok.mpr ⟨no_null_join named clean, ?_⟩
  rw [Path.segments_join_name path named, List.map_append, List.map_singleton, String.ofList_toList,
    resolveFrom_append_name _ _ named, resolved, List.append_assoc]

theorem locate_descendant {root : String} {start names : List String}
    (named : ∀ n ∈ names, Path.isName n = true) (located : s.locate root = .ok start) :
    s.locate (Path.descendant root names) = .ok (start ++ names) := by
  induction names generalizing root start with
  | nil => simpa [Path.descendant] using located
  | cons n rest ih =>
    have step := locate_join (named n (.head _)) located
    rw [Path.descendant_cons, ih (fun m member => named m (.tail _ member)) step, List.append_assoc]
    rfl

theorem find_eq {path : String} {t : Tree} :
    s.find path = .ok t ↔ ∃ names, s.locate path = .ok names ∧ s.tree.descend? names = some t := by
  rw [find]
  cases located : s.locate path with
  | error f => simp [bind, Except.bind]
  | ok names =>
    simp only [bind, Except.bind, Except.ok.injEq, exists_eq_left']
    cases s.tree.descend? names <;> simp [fail, pure, Except.pure]

theorem entries_eq {path : String} {es : List (String × Tree)} :
    s.entries path = .ok es ↔ s.find path = .ok (.directory es) := by
  rw [entries]
  cases s.find path with
  | error f => simp [bind, Except.bind]
  | ok t => cases t <;> simp [bind, Except.bind, fail, pure, Except.pure]

/-- An entry of a directory is found at the path of the child. -/
theorem find_join {path : String} {es : List (String × Tree)}
    (listed : s.find path = .ok (.directory es)) {n : String} {t : Tree} (there : (n, t) ∈ es) :
    s.find (Path.join path n) = .ok t := by
  have proper : Tree.areProper es = true := isProper_of_find listed
  obtain ⟨named, distinct⟩ := Tree.areProper_iff.mp proper
  obtain ⟨names, located, found⟩ := find_eq.mp listed
  refine find_eq.mpr ⟨names ++ [n], locate_join (named _ there).1 located, ?_⟩
  rw [Tree.descend_append, found, Option.bind_some]
  simp [Tree.descend?, lookup_of_mem distinct there]

theorem head_eq {path : String} {o : StoredObject} :
    s.head path = .ok o ↔ ∃ names t, s.locate path = .ok names ∧
      s.tree.descend? names = some t ∧ o = t.describe path (names.getLastD "") := by
  rw [head]
  cases located : s.locate path with
  | error f => simp [bind, Except.bind]
  | ok names =>
    cases found : s.tree.descend? names with
    | none =>
      have missing : s.find path = fail (.objectNotFound path) := by
        rw [find, located]
        simp [bind, Except.bind, found]
      simp [bind, Except.bind, missing, found, fail]
    | some t =>
      have there : s.find path = .ok t := find_eq.mpr ⟨names, located, found⟩
      simp [bind, Except.bind, there, found, pure, Except.pure, eq_comm]

/-- The store gives the path of an object in standard form. -/
theorem path_of_head {path : String} {o : StoredObject}
    (there : s.head path = .ok o) : o.path = Path.format path := by
  obtain ⟨names, t, -, -, rfl⟩ := head_eq.mp there
  cases t <;> rfl

/-- The objects below a directory of a store are those that the store has at paths below that of
the directory. -/
theorem mem_objects_iff_head {root : String} {es : List (String × Tree)}
    (listed : s.entries root = .ok es) {o : StoredObject} :
    o ∈ Tree.entryObjects root es ↔ Path.Below root o.path ∧ s.head o.path = .ok o := by
  have proper : (Tree.directory es).isProper = true := areProper_of_entries listed
  obtain ⟨start, located, found⟩ := find_eq.mp (entries_eq.mp listed)
  constructor
  · intro member
    refine ⟨Tree.objects_below (t := .directory es) proper member, ?_⟩
    obtain ⟨names, u, some, descended, rfl⟩ :=
      (Tree.mem_objects_iff (t := .directory es) proper).mp member
    have named := Tree.isName_of_descend proper descended
    rw [Tree.describe_descendant_path u root _ some, head_eq]
    refine ⟨start ++ names, u, locate_descendant named located, ?_, ?_⟩
    · rw [Tree.descend_append, found, Option.bind_some, descended]
    · simp [List.getLastD_eq_getLast?, List.getLast?_append, List.getLast?_eq_some_getLast some]
  · rintro ⟨⟨names, some, named, below⟩, there⟩
    obtain ⟨whole, u, located', descended, same⟩ := head_eq.mp there
    rw [below, locate_descendant named located] at located'
    cases located'
    rw [Tree.descend_append, found, Option.bind_some] at descended
    refine (Tree.mem_objects_iff (t := .directory es) proper).mpr ⟨names, u, some, descended, ?_⟩
    rw [same, below]
    simp [List.getLastD_eq_getLast?, List.getLast?_append, List.getLast?_eq_some_getLast some]

end Store

end SchemaOnRead
