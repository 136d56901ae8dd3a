import Mathlib.Data.List.Forall2
import Mathlib.Data.List.Nodup
import SchemaOnRead.Proofs.Storage.PathNames

/-!
# Listings and look-ups

A directory may be listed under any spelling of its path, also one that leaves it, or the whole store,
and comes back. The objects shown have paths in standard form, made of the spelling that was asked for. Each
is what the store has at its path, under the name of its entry and with as many bytes as are read there, and
no path is shown twice (`list_shows`).
-/

namespace SchemaOnRead.Store

variable {s : Store} {path : String}

/-- An object that a listing shows for an entry of a directory: it has the entry's name, it is what is found
at its path, and the bytes of a file are read there, as many as its size says. -/
structure Shows (s : Store) (e : String × Tree) (o : StoredObject) : Prop where
  named : o.name = e.1
  kind : o.isDirectory = e.2.isDirectory
  found : s.head o.path = .ok o
  there : s.contains o.path = .ok true
  held : o.isDirectory = false →
    ∃ bytes, e.2 = .file bytes ∧ s.read o.path = .ok bytes ∧ o.size = some bytes.size

theorem list_eq_ok {os : List StoredObject} : s.list path = .ok os ↔
    ∃ es, s.entries path = .ok es ∧ os = es.map fun e => e.2.describe (Path.join path e.1) e.1 := by
  rw [list]
  cases s.entries path with
  | error f => simp [Except.map]
  | ok es => simp [Except.map, eq_comm]

/-- An entry of a directory is looked up at the path of the child as a listing shows it. -/
theorem head_join {es : List (String × Tree)} (listed : s.entries path = .ok es) {n : String} {t : Tree}
    (member : (n, t) ∈ es) :
    s.head (Path.join path n) = .ok (t.describe (Path.join path n) n) := by
  obtain ⟨upper, located, -⟩ := find_eq.mp (entries_eq.mp listed)
  have named : Path.isName n = true := ((Tree.areProper_iff.mp (areProper_of_entries listed)).1 _ member).1
  obtain ⟨names, located', descended⟩ := find_eq.mp (find_join (entries_eq.mp listed) member)
  rw [locate_join named located] at located'
  cases located'
  exact head_eq.mpr ⟨upper ++ [n], t, locate_join named located, descended, by simp⟩

theorem contains_of_head {o : StoredObject} (found : s.head path = .ok o) : s.contains path = .ok true := by
  rw [contains, found]

theorem read_of_find {bytes : ByteArray} (found : s.find path = .ok (.file bytes)) :
    s.read path = .ok bytes := by
  rw [read, found]
  rfl

theorem shows_describe {es : List (String × Tree)} (listed : s.entries path = .ok es) {n : String} {t : Tree}
    (member : (n, t) ∈ es) : Shows s (n, t) (t.describe (Path.join path n) n) := by
  have named : Path.isName n = true := ((Tree.areProper_iff.mp (areProper_of_entries listed)).1 _ member).1
  have own : (t.describe (Path.join path n) n).path = Path.join path n := Tree.describe_path t path n
  have found := head_join listed member
  refine ⟨?_, Tree.describe_isDirectory t _ n, ?_, ?_, fun plain => ?_⟩
  · rw [StoredObject.name, own, Path.name_join (Path.isSegment_of_isName named)]
  · rw [own, found]
  · rw [own, contains_of_head found]
  · cases t with
    | directory es' => cases plain
    | file bytes =>
      refine ⟨bytes, rfl, ?_, rfl⟩
      rw [own, read_of_find (find_join (entries_eq.mp listed) member)]

/-- The paths of children of a directory are different if their names are. -/
theorem nodup_children {names : List String} (named : ∀ n ∈ names, Path.isName n = true)
    (distinct : names.Nodup) (path : String) : (names.map (Path.join path)).Nodup := by
  refine List.Nodup.map_on (fun n member m member' same => ?_) distinct
  rw [← Path.name_join (Path.isSegment_of_isName (named n member)) path, same,
    Path.name_join (Path.isSegment_of_isName (named m member'))]

/-- What the listing of a directory shows, in whichever way its path is spelled, are its entries in order:
each object is the one that the store has at its path and has the name of the entry, a file has as many bytes
as its size says, and all paths are different. -/
theorem list_shows {os : List StoredObject} (listed : s.list path = .ok os) :
    ∃ es, s.entries path = .ok es ∧ List.Forall₂ (Shows s) es os ∧ (os.map (·.path)).Nodup := by
  obtain ⟨es, entered, rfl⟩ := list_eq_ok.mp listed
  obtain ⟨all, distinct⟩ := Tree.areProper_iff.mp (areProper_of_entries entered)
  refine ⟨es, entered, ?_, ?_⟩
  · rw [List.forall₂_map_right_iff, List.forall₂_same]
    exact fun e member => shows_describe entered member
  · have paths : (es.map fun e => e.2.describe (Path.join path e.1) e.1).map (·.path) =
        (es.map (·.1)).map (Path.join path) := by
      simp [List.map_map, Function.comp_def]
    rw [paths]
    refine nodup_children (fun n member => ?_) distinct path
    obtain ⟨e, there, rfl⟩ := List.mem_map.mp member
    exact (all e there).1

/-- A store with a directory that holds a file and another directory. -/
def nested : Store :=
  { tree := .directory [("t", .directory [("a.json", .file (String.toUTF8 "\x7b\x7d\n")), ("b", .directory [])])]
    place := ["srv", "store"]
    proper := by decide +kernel
    placed := by decide +kernel }

/-- The directory is listed by a path that goes out of the store and comes back. -/
theorem list_shows_detour :
    nested.list "//t/../../store/./t//b/.." =
      .ok [{ path := "/t/../../store/./t/b/../a.json", isDirectory := false, size := some 3,
             contentType := some "application/json" },
           { path := "/t/../../store/./t/b/../b", isDirectory := true }] ∧
    nested.head "/t/../../store/./t/b/../a.json" =
      .ok { path := "/t/../../store/./t/b/../a.json", isDirectory := false, size := some 3,
            contentType := some "application/json" } := by
  have listed : nested.list "//t/../../store/./t//b/.." =
      .ok [{ path := "/t/../../store/./t/b/../a.json", isDirectory := false, size := some 3,
             contentType := some "application/json" },
           { path := "/t/../../store/./t/b/../b", isDirectory := true }] :=
    ok_of_toOption (by decide +kernel)
  obtain ⟨es, -, shown, -⟩ := list_shows listed
  cases shown with
  | cons first _ => exact ⟨listed, first.found⟩

end SchemaOnRead.Store
