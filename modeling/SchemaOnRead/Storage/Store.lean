import SchemaOnRead.Failure
import SchemaOnRead.Storage.MediaType
import SchemaOnRead.Storage.Path

/-!
# Object stores

A store is a tree of directories and files. The entries of a directory are listed in the order in
which they are kept; whatever is written goes to the place of its name among them. A path may be
spelled in any way that `Path.format` accepts and may hold the segments `.` and `..`; one that ends
outside of the tree leads to nothing. Every entry of a store has a name that a path can lead through,
and no directory has two entries of one name. There are no links, in the store or on the way to it.
-/

namespace SchemaOnRead

/-- A file with its bytes, or a directory with its named entries in order. -/
inductive Tree where
  | file (bytes : ByteArray)
  | directory (entries : List (String × Tree))

/-- An object as a listing shows it. -/
structure StoredObject where
  path : String
  isDirectory : Bool
  size : Option Nat := none
  contentType : Option String := none
  deriving DecidableEq, Repr

/-- The name of an object: the last segment of its path. -/
def StoredObject.name (o : StoredObject) : String := Path.name o.path

namespace Tree

def empty : Tree := .directory []

def isDirectory : Tree → Bool
  | directory _ => true
  | file _ => false

/-- The entries of a directory; a file has none. -/
def entries : Tree → List (String × Tree)
  | directory es => es
  | file _ => []

/-- The subtree that a list of names leads to. -/
def descend? : Tree → List String → Option Tree
  | t, [] => some t
  | directory es, n :: rest => (es.lookup n).bind (descend? · rest)
  | file _, _ :: _ => none

/-- Puts an entry before the first one with a greater name. -/
def placeEntry (name : String) (t : Tree) : List (String × Tree) → List (String × Tree)
  | [] => [(name, t)]
  | (n, u) :: rest =>
    if name < n then (name, t) :: (n, u) :: rest else (n, u) :: placeEntry name t rest

/-- Puts an entry in its place among the others, in place of one of the same name. -/
def insertEntry (name : String) (t : Tree) (es : List (String × Tree)) : List (String × Tree) :=
  placeEntry name t (es.filter (·.1 ≠ name))

/-- Writes a subtree at a place, with the directories that lead there. -/
def put (t : Tree) (new : Tree) : List String → Tree
  | [] => new
  | n :: rest =>
    let es := t.entries
    directory (insertEntry n (put ((es.lookup n).getD empty) new rest) es)

/-- Removes what is at a place. -/
def remove (t : Tree) : List String → Tree
  | [] => empty
  | [n] => match t with
    | directory es => directory (es.filter (·.1 ≠ n))
    | file b => file b
  | n :: rest => match t with
    | directory es => directory (es.map fun (m, u) => if m = n then (m, remove u rest) else (m, u))
    | file b => file b

/-- What a listing shows of a file or a directory. -/
def describe (path : String) (name : String) : Tree → StoredObject
  | directory _ => { path := Path.format path, isDirectory := true }
  | file bytes =>
    { path := Path.format path, isDirectory := false, size := some bytes.size,
      contentType := MediaType.ofName? name }

/-! ## Proper trees -/

mutual

/-- Whether all entries of a tree have names that a path can lead through, and those of a directory
have different ones. -/
def isProper : Tree → Bool
  | file _ => true
  | directory es => areProper es

/-- Whether entries have names that a path can lead through, all different, and lead to proper
trees. -/
def areProper : List (String × Tree) → Bool
  | [] => true
  | (n, t) :: rest => Path.isName n && !rest.any (·.1 == n) && isProper t && areProper rest

end

theorem areProper_iff {es : List (String × Tree)} :
    areProper es = true ↔
      (∀ e ∈ es, Path.isName e.1 = true ∧ e.2.isProper = true) ∧ (es.map (·.1)).Nodup := by
  induction es with
  | nil => simp [areProper]
  | cons e rest ih =>
    obtain ⟨n, t⟩ := e
    simp only [areProper, Bool.and_eq_true, ih, List.forall_mem_cons, List.map_cons,
      List.nodup_cons, List.mem_map, Bool.not_eq_true', List.any_eq_false, beq_iff_eq]
    constructor
    · rintro ⟨⟨⟨named, fresh⟩, proper⟩, all, distinct⟩
      exact ⟨⟨⟨named, proper⟩, all⟩, fun ⟨e, member, same⟩ => fresh e member same, distinct⟩
    · rintro ⟨⟨⟨named, proper⟩, all⟩, fresh, distinct⟩
      exact ⟨⟨⟨named, fun e member same => fresh ⟨e, member, same⟩⟩, proper⟩, all, distinct⟩

theorem isProper_empty : empty.isProper = true := rfl

theorem areProper_entries {t : Tree} (proper : t.isProper = true) : areProper t.entries = true := by
  cases t with
  | file _ => rfl
  | directory es => exact proper

theorem isProper_of_lookup {es : List (String × Tree)} (proper : areProper es = true) {n : String}
    {t : Tree} (found : es.lookup n = some t) : t.isProper = true :=
  ((areProper_iff.mp proper).1 (n, t) (mem_of_lookup_eq_some found)).2

/-- What a tree holds is proper if the tree is. -/
theorem isProper_of_descend {t u : Tree} (proper : t.isProper = true) {names : List String}
    (found : t.descend? names = some u) : u.isProper = true := by
  induction names generalizing t with
  | nil => cases found; exact proper
  | cons n rest ih =>
    cases t with
    | file _ => cases found
    | directory es =>
      obtain ⟨v, atName, further⟩ := Option.bind_eq_some_iff.mp found
      exact ih (isProper_of_lookup proper atName) further

theorem mem_placeEntry {name : String} {t : Tree} {es : List (String × Tree)} {e : String × Tree} :
    e ∈ placeEntry name t es ↔ e = (name, t) ∨ e ∈ es := by
  induction es with
  | nil => simp [placeEntry]
  | cons f rest ih =>
    rw [placeEntry]
    split
    · simp
    · simp only [List.mem_cons, ih]
      exact or_left_comm

theorem nodup_placeEntry {name : String} {t : Tree} {es : List (String × Tree)}
    (fresh : name ∉ es.map (·.1)) (distinct : (es.map (·.1)).Nodup) :
    ((placeEntry name t es).map (·.1)).Nodup := by
  induction es with
  | nil => simp [placeEntry]
  | cons f rest ih =>
    rw [List.map_cons, List.mem_cons, not_or] at fresh
    rw [List.map_cons, List.nodup_cons] at distinct
    rw [placeEntry]
    split
    · rw [List.map_cons, List.nodup_cons, List.map_cons, List.nodup_cons, List.mem_cons, not_or]
      exact ⟨fresh, distinct⟩
    · rw [List.map_cons, List.nodup_cons]
      refine ⟨fun inside => ?_, ih fresh.2 distinct.2⟩
      obtain ⟨e, member, same⟩ := List.mem_map.mp inside
      rcases mem_placeEntry.mp member with rfl | old
      · exact fresh.1 same
      · exact distinct.1 (same ▸ List.mem_map_of_mem (f := (·.1)) old)

theorem areProper_filter {es : List (String × Tree)} (proper : areProper es = true)
    (keep : String × Tree → Bool) : areProper (es.filter keep) = true := by
  rw [areProper_iff] at proper ⊢
  exact ⟨fun e member => proper.1 e (List.mem_filter.mp member).1,
    proper.2.sublist (List.filter_sublist.map _)⟩

theorem areProper_insertEntry {es : List (String × Tree)} (proper : areProper es = true)
    {name : String} (named : Path.isName name = true) {t : Tree} (new : t.isProper = true) :
    areProper (insertEntry name t es) = true := by
  obtain ⟨others, distinct⟩ := areProper_iff.mp (areProper_filter proper (·.1 ≠ name))
  rw [insertEntry, areProper_iff]
  refine ⟨fun e member => ?_, nodup_placeEntry (by simp) distinct⟩
  rcases mem_placeEntry.mp member with rfl | old
  · exact ⟨named, new⟩
  · exact others e old

/-- Writing keeps a tree proper. -/
theorem isProper_put {t new : Tree} (proper : t.isProper = true) (written : new.isProper = true)
    {names : List String} (named : ∀ n ∈ names, Path.isName n = true) :
    (t.put new names).isProper = true := by
  induction names generalizing t with
  | nil => exact written
  | cons n rest ih =>
    have below : ((t.entries.lookup n).getD empty).isProper = true := by
      cases found : t.entries.lookup n with
      | none => exact isProper_empty
      | some u => exact isProper_of_lookup (areProper_entries proper) found
    have inside := ih below fun m member => named m (.tail _ member)
    exact areProper_insertEntry (areProper_entries proper) (named n (.head _)) inside

/-- Removing keeps a tree proper. -/
theorem isProper_remove {t : Tree} (proper : t.isProper = true) (names : List String) :
    (t.remove names).isProper = true := by
  induction names generalizing t with
  | nil => exact isProper_empty
  | cons n rest ih =>
    cases t with
    | file _ => cases rest <;> rfl
    | directory es =>
      cases rest with
      | nil => exact areProper_filter proper _
      | cons m rest =>
        obtain ⟨all, distinct⟩ := areProper_iff.mp (show areProper es = true from proper)
        refine areProper_iff.mpr ⟨fun e member => ?_, ?_⟩
        · obtain ⟨⟨k, u⟩, old, rfl⟩ := List.mem_map.mp member
          obtain ⟨named, kept⟩ := all _ old
          by_cases there : k = n
          · simpa only [if_pos there] using ⟨named, ih kept⟩
          · simpa only [if_neg there] using ⟨named, kept⟩
        · have names : (es.map fun (k, u) => if k = n then (k, remove u (m :: rest)) else (k, u)).map
              (·.1) = es.map (·.1) := by
            rw [List.map_map]
            refine List.map_congr_left fun e _ => ?_
            by_cases there : e.1 = n <;> simp [there]
          rw [names]
          exact distinct

end Tree

theorem isName_store : ["store"].all Path.isName = true := by decide

/-- A store: its tree, and the names of the directories that lead to the root of the tree from that of
the file system. -/
structure Store where
  tree : Tree := Tree.empty
  place : List String := ["store"]
  proper : tree.isProper = true := by exact Tree.isProper_empty
  placed : place.all Path.isName = true := by exact isName_store

namespace Store

/-- The names that segments lead through, those in `found` first, which are the last ones first. The
segment `.` leads nowhere else, and `..` one name back; from the root of the file system, it does not
lead out. -/
def resolveFrom : List String → List String → List String
  | found, [] => found.reverse
  | found, s :: rest =>
    if s = "." then resolveFrom found rest
    else if s = ".." then resolveFrom found.tail rest
    else resolveFrom (s :: found) rest

/-- The names that a path leads through from the root of the store. A path may leave the store on its
way; one that ends outside leads to nothing, and one that holds a null character is malformed. -/
def locate (s : Store) (path : String) : Result (List String) :=
  if path.toList.contains '\x00' then fail (.other .badValue)
  else
    let names := resolveFrom s.place.reverse ((Path.segments path.toList).map String.ofList)
    if s.place <+: names then .ok (names.drop s.place.length) else fail (.objectNotFound path)

theorem locate_eq_ok {s : Store} {path : String} {names : List String} :
    s.locate path = .ok names ↔ '\x00' ∉ path.toList ∧
      resolveFrom s.place.reverse ((Path.segments path.toList).map String.ofList) = s.place ++ names := by
  rw [locate]
  split
  · rename_i null
    simp only [List.contains_eq_mem, decide_eq_true_eq] at null
    simp [fail, null]
  · rename_i clean
    simp only [List.contains_eq_mem, decide_eq_true_eq] at clean
    dsimp only
    split
    · rename_i inside
      obtain ⟨rest, parted⟩ := inside
      simp [← parted, clean]
    · rename_i outside
      constructor
      · intro absurd
        cases absurd
      · rintro ⟨-, parted⟩
        exact absurd ⟨names, parted.symm⟩ outside

/-- A path leads through names that the entries of a directory may have. -/
theorem isName_of_resolveFrom {segments found : List String}
    (before : ∀ n ∈ found, Path.isName n = true)
    (coming : ∀ n ∈ segments, n ≠ "." → n ≠ ".." → Path.isName n = true) :
    ∀ n ∈ resolveFrom found segments, Path.isName n = true := by
  induction segments generalizing found with
  | nil => exact fun n member => before n (List.mem_reverse.mp member)
  | cons s rest ih =>
    have later := fun n member => coming n (.tail _ member)
    rw [resolveFrom]
    split
    · exact ih before later
    · rename_i notHere
      split
      · exact ih (fun n member => before n (List.mem_of_mem_tail member)) later
      · rename_i notUp
        exact ih (List.forall_mem_cons.mpr ⟨coming s (.head _) notHere notUp, before⟩) later

theorem isName_of_locate {s : Store} {path : String} {names : List String}
    (located : s.locate path = .ok names) : ∀ n ∈ names, Path.isName n = true := by
  obtain ⟨clean, resolved⟩ := locate_eq_ok.mp located
  have before : ∀ n ∈ s.place.reverse, Path.isName n = true :=
    fun n member => List.all_eq_true.mp s.placed n (List.mem_reverse.mp member)
  have coming : ∀ n ∈ (Path.segments path.toList).map String.ofList,
      n ≠ "." → n ≠ ".." → Path.isName n = true := by
    intro n member notHere notUp
    obtain ⟨s, inside, rfl⟩ := List.mem_map.mp member
    obtain ⟨nonempty, noSlash⟩ := Path.isSegment_of_mem_segments inside
    have noNull : '\x00' ∉ s := fun null =>
      clean (Path.mem_of_mem_split (List.mem_filter.mp inside).1 null)
    simp [Path.isName, String.toList_ofList, nonempty, noSlash, noNull, notHere, notUp]
  have all := isName_of_resolveFrom before coming
  rw [resolved] at all
  exact fun n member => all n (List.mem_append_right _ member)

/-- What is at a path. -/
def find (s : Store) (path : String) : Result Tree := do
  match s.tree.descend? (← s.locate path) with
  | some t => return t
  | none => fail (.objectNotFound path)

/-- The entries of a directory. -/
def entries (s : Store) (path : String) : Result (List (String × Tree)) := do
  match ← s.find path with
  | .directory es => return es
  | .file _ => fail (.objectNotFound path)

/-- The objects in a directory, in the order of their names. -/
def list (s : Store) (path : String) : Result (List StoredObject) :=
  (s.entries path).map fun es => es.map fun (n, t) => t.describe (Path.join path n) n

/-- The object at a path. -/
def head (s : Store) (path : String) : Result StoredObject := do
  let names ← s.locate path
  let t ← s.find path
  return t.describe path (names.getLastD "")

/-- Whether there is something at a path. -/
def contains (s : Store) (path : String) : Result Bool :=
  match s.head path with
  | .ok _ => .ok true
  | .error f =>
    match f.cause with
    | .objectNotFound _ => .ok false
    | _ => .error f

/-- The bytes from a first one to a last one; a range that ends before its start by more than one
byte has no end. -/
def slice (bytes : ByteArray) (first : Nat) (last : Int) : ByteArray :=
  if last + 1 < first then bytes.extract first bytes.size
  else bytes.extract first (last + 1).toNat

/-- The bytes of a file, or those of a range. -/
def read (s : Store) (path : String) (range : Option (Nat × Int) := none) : Result ByteArray := do
  match ← s.find path with
  | .file bytes =>
    match range with
    | none => return bytes
    | some (first, last) => return slice bytes first last
  | .directory _ => fail (.objectNotFound path)

theorem isProper_of_find {s : Store} {path : String} {t : Tree} (found : s.find path = .ok t) :
    t.isProper = true := by
  rw [find] at found
  cases located : s.locate path with
  | error f => simp [located, bind, Except.bind] at found
  | ok names =>
    simp only [located, bind, Except.bind] at found
    split at found
    · rename_i u descended
      cases found
      exact Tree.isProper_of_descend s.proper descended
    · cases found

theorem areProper_of_entries {s : Store} {path : String} {es : List (String × Tree)}
    (listed : s.entries path = .ok es) : Tree.areProper es = true := by
  rw [entries] at listed
  cases found : s.find path with
  | error f => simp [found, bind, Except.bind] at listed
  | ok t =>
    have proper := isProper_of_find found
    cases t with
    | file _ => simp [found, bind, Except.bind, fail] at listed
    | directory fs =>
      simp only [found, bind, Except.bind] at listed
      cases listed
      exact proper

/-- Writes a file. -/
def write (s : Store) (path : String) (bytes : ByteArray) : Store :=
  match located : s.locate path with
  | .ok names =>
    { s with
      tree := s.tree.put (.file bytes) names
      proper := Tree.isProper_put s.proper rfl (isName_of_locate located) }
  | .error _ => s

/-- Makes a directory. -/
def makeDirectory (s : Store) (path : String) : Store :=
  match s.find path, located : s.locate path with
  | .error _, .ok names =>
    { s with
      tree := s.tree.put Tree.empty names
      proper := Tree.isProper_put s.proper rfl (isName_of_locate located) }
  | _, _ => s

/-- The store whose root is a directory of another one. -/
def below (s : Store) (path : String) : Store :=
  match listed : s.entries path, located : s.locate path with
  | .ok es, .ok names =>
    { tree := .directory es
      place := s.place ++ names
      proper := areProper_of_entries listed
      placed := List.all_append.trans (Bool.and_eq_true_iff.mpr
        ⟨s.placed, List.all_eq_true.mpr (isName_of_locate located)⟩) }
  | _, _ => {}

/-- Deletes a file. -/
def delete (s : Store) (path : String) : Store :=
  match s.locate path with
  | .ok names =>
    { s with
      tree := s.tree.remove names
      proper := Tree.isProper_remove s.proper names }
  | .error _ => s

end Store

end SchemaOnRead
