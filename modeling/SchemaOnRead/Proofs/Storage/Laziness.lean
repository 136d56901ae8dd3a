import SchemaOnRead.Proofs.Storage.Walks

/-!
# How far a walk has gone

A walk that is asked for one object after another lists a directory when it is asked for what comes
after the directory, and not before. Between two requests it stands at a point where only the listing
of the object found last may be outstanding (`Suspended`). So the listings made by then can be told
from the objects found by then (`listings_of_requested`), and since what a walk finds is known
(`findable_items`), nothing is ever listed twice, or listed or found below a directory that is
not accepted.
-/

namespace SchemaOnRead

namespace Trace

variable {ε α : Type}

/-- How far an enumeration has gone: the effects that have happened, the items found, and the rest of
the enumeration. -/
structure Progress (ε α : Type) where
  effects : List ε
  items : List α
  rest : Trace ε α

/-- The item that asking for it has found, if any. -/
def Pulled.found (p : Pulled ε α) : List α :=
  match p.item with
  | .ok (some a) => [a]
  | _ => []

/-- Asks for one more item. -/
def Progress.next (p : Progress ε α) : Progress ε α :=
  ⟨p.effects ++ p.rest.pull.effects, p.items ++ p.rest.pull.found, p.rest.pull.rest⟩

/-- How far an enumeration has gone when it has been asked for some number of items. -/
def requested (t : Trace ε α) : Nat → Progress ε α
  | 0 => ⟨[], [], t⟩
  | n + 1 => (requested t n).next

theorem pullFrom_effects (failure : Option Failure) (done es : List ε) (steps : List (ε ⊕ α)) :
    pullFrom failure done (es.map .inl ++ steps) = pullFrom failure (es.reverse ++ done) steps := by
  induction es generalizing done with
  | nil => rfl
  | cons e rest ih =>
    rw [List.map_cons, List.cons_append, pullFrom, ih, List.reverse_cons, List.append_assoc]
    rfl

/-- The effects in front of an item happen when it is asked for. -/
theorem pull_item {t : Trace ε α} {es : List ε} {a : α} {later : List (ε ⊕ α)}
    (ahead : t.steps = es.map .inl ++ .inr a :: later) :
    t.pull = ⟨es, .ok (some a), ⟨later, t.failure⟩⟩ := by
  rw [pull, ahead, pullFrom_effects, pullFrom]
  simp

/-- The effects at the end happen when an item is asked for in vain. -/
theorem pull_end {t : Trace ε α} {es : List ε} (ahead : t.steps = es.map .inl) :
    t.pull.effects = es ∧ t.pull.found = [] ∧ t.pull.rest = ended := by
  have whole : t.steps = es.map .inl ++ [] := by rw [ahead, List.append_nil]
  rw [pull, whole, pullFrom_effects]
  cases t.failure <;> simp [pullFrom, Pulled.found]

end Trace

namespace Walk

/-! ## The steps of a walk -/

/-- The paths of the directories among objects. -/
def listings (os : List StoredObject) : List String := (os.filter (·.isDirectory)).map (·.path)

theorem listings_append (os os' : List StoredObject) :
    listings (os ++ os') = listings os ++ listings os' := by
  rw [listings, List.filter_append, List.map_append, listings, listings]

theorem listings_sublist {os os' : List StoredObject} (part : os.Sublist os') :
    (listings os).Sublist (os'.map (·.path)) :=
  (List.filter_sublist.trans part).map _

/-- Finding an object, and listing it if it is a directory. -/
def stepsOf (o : StoredObject) : List (String ⊕ StoredObject) :=
  .inr o :: (listings [o]).map .inl

/-- A walk that lists each directory right after finding it, and nothing else. -/
def InTurn (w : Walk) : Prop := w.steps = w.items.flatMap stepsOf

theorem effect_append (path : String) (w v : Walk) :
    (w.effect path).append v = (w.append v).effect path := by
  rw [Trace.append, Trace.append, Trace.failure_effect]
  cases w.failure <;> rfl

theorem InTurn.yield_file {w : Walk} (turn : InTurn w) {o : StoredObject}
    (plain : o.isDirectory = false) : InTurn (w.yield o) := by
  have own : stepsOf o = [.inr o] := by simp [stepsOf, listings, plain]
  rw [InTurn, Trace.items_yield, List.flatMap_cons, own, ← turn]
  rfl

theorem InTurn.yield_directory {w : Walk} (turn : InTurn w) {o : StoredObject}
    (directory : o.isDirectory = true) : InTurn ((w.effect o.path).yield o) := by
  have own : stepsOf o = [.inr o, .inl o.path] := by simp [stepsOf, listings, directory]
  rw [InTurn, Trace.items_yield, Trace.items_effect, List.flatMap_cons, own, ← turn]
  rfl

theorem InTurn.append {w v : Walk} (first : InTurn w) (second : InTurn v) :
    InTurn (w.append v) := by
  cases whole : w.failure with
  | some f =>
    rw [Trace.append, whole]
    exact first
  | none =>
    have steps : (w.append v).steps = w.steps ++ v.steps := by rw [Trace.append, whole]
    rw [InTurn, Trace.items_append whole, List.flatMap_append, ← first, ← second, steps]

variable {accept : StoredObject → Result Bool}

theorem inTurn_ofEntries (t : Tree) (root : String) :
    InTurn (ofEntries accept root t.entries) := by
  induction t using Tree.induct generalizing root with
  | file _ => rfl
  | directory es inner =>
    show InTurn (ofEntries accept root es)
    induction es with
    | nil => rfl
    | cons e rest ih =>
      obtain ⟨n, t⟩ := e
      have later := ih fun e there => inner e (.tail _ there)
      cases t with
      | file bytes =>
        rw [ofEntries_file]
        exact later.yield_file (Tree.describe_isDirectory _ _ _)
      | directory es' =>
        have inside := inner (n, .directory es') (.head _) (Path.join root n)
        rw [ofEntries_directory]
        cases accept { path := Path.join root n, isDirectory := true } with
        | error f => rfl
        | ok b =>
          cases b with
          | false => exact later
          | true =>
            -- The listing of the directory comes first in the walk through it and what follows.
            rw [ofTree, effect_append]
            exact (inside.append later).yield_directory rfl

/-- A walk lists the directory that it starts in and then each directory right after finding it. -/
theorem steps_start (s : Store) (path : String) (accept : StoredObject → Result Bool) :
    (start s path accept).steps = .inl path :: (start s path accept).items.flatMap stepsOf := by
  rw [start]
  cases s.find path with
  | error f => rfl
  | ok t =>
    cases t with
    | file _ => rfl
    | directory es => exact congrArg (.inl path :: ·) (inTurn_ofEntries (.directory es) path)

/-! ## What a walk finds before it fails -/

theorem append_items_sublist (w v : Walk) : (w.append v).items.Sublist (w.items ++ v.items) := by
  cases whole : w.failure with
  | some f =>
    rw [Trace.append, whole]
    exact List.sublist_append_left _ _
  | none =>
    have all : (w.append v).items = w.items ++ v.items :=
      Trace.items_append whole v
    exact all ▸ List.Sublist.refl _

/-- Whether it fails or not, a walk finds only what a walk without failures yields. -/
theorem items_ofTree_sublist {t : Tree} (proper : t.isProper = true) (root : String) :
    (ofTree accept root t).items.Sublist ((t.objects root).filter (yields accept root)) := by
  induction t using Tree.induct generalizing root with
  | file _ => exact .slnil
  | directory es inner =>
    replace proper : Tree.areProper es = true := proper
    rw [ofTree, Trace.items_effect, Tree.objects]
    induction es with
    | nil => exact .slnil
    | cons e rest ih =>
      obtain ⟨n, t⟩ := e
      obtain ⟨named, properInside, properRest, -⟩ := Tree.proper_cons proper
      have later := ih (fun e there => inner e (.tail _ there)) properRest
      have reached := reaches_child accept root named t
      rw [Tree.entryObjects, List.filter_cons, List.filter_append]
      cases t with
      | file bytes =>
        have yielded : yields accept root
            ((Tree.file bytes).describe (Path.join root n) n) = true := by
          simp [yields, reached, Tree.isDirectory]
        rw [ofEntries_file, Trace.items_yield, if_pos yielded, Tree.objects]
        exact later.cons_cons _
      | directory es' =>
        have inside := inner (n, .directory es') (.head _) properInside (Path.join root n)
        rw [describe_directory] at reached ⊢
        rw [ofEntries_directory]
        cases answer : accept { path := Path.join root n, isDirectory := true } with
        | error f => exact List.nil_sublist _
        | ok b =>
          cases b with
          | false =>
            have refused : yields accept root
                { path := Path.join root n, isDirectory := true } = false := by
              simp [yields, answer, passes]
            simp only [refused]
            exact later.trans (List.sublist_append_right _ _)
          | true =>
            have yielded : yields accept root
                { path := Path.join root n, isDirectory := true } = true := by
              simp [yields, answer, passes, reached]
            simp only [Trace.items_yield, if_pos yielded]
            rw [yields_below_child named properInside answer]
            exact ((append_items_sublist _ _).trans (inside.append later)).cons_cons _

/-- Objects of a store that a walk may find: they have different paths below that of the directory
it starts in, and only accepted directories lead to them. -/
structure Findable (s : Store) (path : String) (accept : StoredObject → Result Bool)
    (os : List StoredObject) : Prop where
  nodup : (os.map (·.path)).Nodup
  below : ∀ o ∈ os, Path.Below path o.path
  head : ∀ o ∈ os, s.head o.path = .ok o
  yielded : ∀ o ∈ os, yields accept path o = true

theorem Findable.sublist {s : Store} {path : String} {os os' : List StoredObject}
    (findable : Findable s path accept os') (part : os.Sublist os') :
    Findable s path accept os where
  nodup := findable.nodup.sublist (part.map _)
  below o member := findable.below o (part.subset member)
  head o member := findable.head o (part.subset member)
  yielded o member := findable.yielded o (part.subset member)

/-- A walk finds nothing but what it may find. -/
theorem findable_items (s : Store) (path : String) (accept : StoredObject → Result Bool) :
    Findable s path accept (start s path accept).items := by
  cases listed : s.entries path with
  | error f =>
    rw [start_of_error listed]
    exact ⟨.nil, by simp, by simp, by simp⟩
  | ok es =>
    have found := Store.entries_eq.mp listed
    have proper : (Tree.directory es).isProper = true := Store.isProper_of_find found
    have part : List.Sublist (ofTree accept path (.directory es)).items _ :=
      items_ofTree_sublist proper path
    have known := fun o (member : o ∈ Tree.entryObjects path es) =>
      (Store.mem_objects_iff_head listed).mp member
    rw [start, found]
    exact
      { nodup := (Tree.nodup_objects proper path).sublist ((part.trans List.filter_sublist).map _)
        below := fun o member => (known o (List.mem_filter.mp (part.subset member)).1).1
        head := fun o member => (known o (List.mem_filter.mp (part.subset member)).1).2
        yielded := fun o member => (List.mem_filter.mp (part.subset member)).2 }

/-! ## Where a walk stands -/

/-- Where a walk stands between two requests: the listings that are outstanding will be made when it
is asked for the first of the objects to come. -/
structure Suspended (w : Walk) (path : String) (p : Trace.Progress String StoredObject)
    (outstanding : List String) (later : List StoredObject) : Prop where
  steps_eq : p.rest.steps = outstanding.map .inl ++ later.flatMap stepsOf
  items_eq : p.items ++ later = w.items
  effects_eq : p.effects ++ outstanding = path :: listings p.items

theorem suspended_start (s : Store) (path : String) (accept : StoredObject → Result Bool) :
    Suspended (start s path accept) path ((start s path accept).requested 0) [path]
      (start s path accept).items :=
  ⟨steps_start s path accept, rfl, rfl⟩

variable {w : Walk} {path : String} {p : Trace.Progress String StoredObject}
  {outstanding : List String} {later : List StoredObject}

/-- A walk that is asked for an object to come makes the outstanding listings, and that of the object
is outstanding after it if it is a directory. -/
theorem Suspended.next_cons {o : StoredObject}
    (stands : Suspended w path p outstanding (o :: later)) :
    Suspended w path p.next (listings [o]) later ∧ p.next.items = p.items ++ [o] ∧
      p.next.effects = path :: listings p.items := by
  have ahead : p.rest.steps =
      outstanding.map .inl ++ .inr o :: ((listings [o]).map .inl ++ later.flatMap stepsOf) := by
    rw [stands.steps_eq, List.flatMap_cons, stepsOf, List.cons_append]
  have found : p.next.items = p.items ++ [o] := by
    rw [Trace.Progress.next, Trace.pull_item ahead]
    rfl
  have listed : p.next.effects = path :: listings p.items := by
    rw [Trace.Progress.next, Trace.pull_item ahead, ← stands.effects_eq]
  refine ⟨⟨?_, ?_, ?_⟩, found, listed⟩
  · rw [Trace.Progress.next, Trace.pull_item ahead]
  · rw [found, List.append_assoc, List.singleton_append, stands.items_eq]
  · rw [listed, found, listings_append, List.cons_append]

/-- A walk that is asked for an object when none is to come makes the outstanding listings. -/
theorem Suspended.next_nil (stands : Suspended w path p outstanding []) :
    Suspended w path p.next [] [] ∧ p.next.items = p.items := by
  have ahead : p.rest.steps = outstanding.map .inl := by
    rw [stands.steps_eq, List.flatMap_nil, List.append_nil]
  obtain ⟨listed, nothing, ended⟩ := Trace.pull_end ahead
  have found : p.next.items = p.items := by
    rw [Trace.Progress.next, nothing, List.append_nil]
  refine ⟨⟨?_, ?_, ?_⟩, found⟩
  · rw [Trace.Progress.next, ended]
    rfl
  · rw [found, stands.items_eq]
  · rw [found, Trace.Progress.next, listed, List.append_nil, stands.effects_eq]

/-- However often a walk has been asked for an object: either it has found one each time and has made
no listing after the last of them, or it is over. -/
theorem suspended_requested (s : Store) (path : String) (accept : StoredObject → Result Bool)
    (n : Nat) :
    let w := start s path accept
    (∃ outstanding later, Suspended w path (w.requested n) outstanding later ∧
        (w.requested n).items.length = n ∧
        (0 < n → (w.requested n).effects = path :: listings ((w.requested n).items.take (n - 1)))) ∨
      (Suspended w path (w.requested n) [] [] ∧ (w.requested n).items.length < n) := by
  intro w
  induction n with
  | zero => exact .inl ⟨_, _, suspended_start s path accept, rfl, by simp⟩
  | succ n ih =>
    rcases ih with ⟨outstanding, later, stands, all, -⟩ | ⟨stands, fewer⟩
    · cases later with
      | nil =>
        obtain ⟨ended, same⟩ := stands.next_nil
        exact .inr ⟨ended, by rw [Trace.requested, same, all]; exact n.lt_succ_self⟩
      | cons o later =>
        obtain ⟨further, found, listed⟩ := stands.next_cons
        refine .inl ⟨_, _, further, ?_, fun _ => ?_⟩
        · rw [Trace.requested, found, List.length_append, all, List.length_singleton]
        · rw [Trace.requested, listed, found, Nat.add_sub_cancel, List.take_left' all]
    · obtain ⟨ended, same⟩ := stands.next_nil
      exact .inr ⟨ended, by rw [Trace.requested, same]; exact Nat.lt_succ_of_lt fewer⟩

/-- What a walk has listed at any time is a part of its start and the directories it finds, in
order. -/
theorem Suspended.effects_sublist (stands : Suspended w path p outstanding later) :
    p.effects.Sublist (path :: listings w.items) := by
  have before : p.effects.Sublist (path :: listings p.items) := by
    rw [← stands.effects_eq]
    exact List.sublist_append_left _ _
  refine before.trans (List.Sublist.cons_cons _ ?_)
  rw [← stands.items_eq, listings_append]
  exact List.sublist_append_left _ _

/-- The objects found so far are the first ones that the walk finds. -/
theorem Suspended.items_prefix (stands : Suspended w path p outstanding later) :
    p.items <+: w.items :=
  ⟨later, stands.items_eq⟩

/-! ## Directories that are not accepted -/

/-- A path is that of a directory or below it. -/
def Within (directory q : String) : Prop := q = directory ∨ Path.Below directory q

/-- A directory is not within one that is below it. -/
theorem not_within_of_below {root a : String} (below : Path.Below root a) : ¬ Within a root := by
  obtain ⟨s, more, down⟩ := below.segments_eq
  rintro (rfl | up)
  · simp at down
  · obtain ⟨s', more', up⟩ := up.segments_eq
    have lengths := congrArg List.length down
    simp [up] at lengths

/-- Of a directory the store shows its path only. -/
theorem head_of_directory {s : Store} {q : String} {d : StoredObject} (there : s.head q = .ok d)
    (directory : d.isDirectory = true) : d = { path := d.path, isDirectory := true } := by
  obtain ⟨names, t, -, -, rfl⟩ := Store.head_eq.mp there
  cases t with
  | file _ => cases directory
  | directory _ => rfl

/-- Nothing that a walk may find is within a directory that is not accepted. -/
theorem Findable.not_within {s : Store} {os : List StoredObject}
    (findable : Findable s path accept os) {d : StoredObject} (below : Path.Below path d.path)
    (there : s.head d.path = .ok d) (directory : d.isDirectory = true)
    (refused : accept d ≠ .ok true) {o : StoredObject} (member : o ∈ os) :
    ¬ Within d.path o.path := by
  have found := findable.yielded o member
  rw [yields, Bool.and_eq_true, Bool.or_eq_true, Bool.not_eq_true', passes_iff] at found
  rintro (same | inside)
  · have own := findable.head o member
    rw [same, there] at own
    cases own
    rcases found.2 with plain | accepted
    · rw [directory] at plain
      cases plain
    · exact refused accepted
  · have leads := (Path.mem_between_iff (findable.below o member)).mpr ⟨below, inside⟩
    have accepted := passes_iff.mp (List.all_eq_true.mp found.1 _ leads)
    rw [← head_of_directory there directory] at accepted
    exact refused accepted

/-- The start of a walk and the directories that it may find have different paths. -/
theorem Findable.nodup_listings {s : Store} {os : List StoredObject}
    (findable : Findable s path accept os) : (path :: listings os).Nodup := by
  rw [List.nodup_cons]
  refine ⟨fun member => ?_, findable.nodup.sublist (listings_sublist (.refl _))⟩
  obtain ⟨o, found, same⟩ := List.mem_map.mp ((listings_sublist (.refl _)).subset member)
  exact not_within_of_below (findable.below o found) (.inl same.symm)

/-- A walk is lazy. When it has been asked for an object some number of times, it has found the first
objects of those it finds. If it has found one each time, it has listed its start and the directories
among the objects before the last one, in this order; otherwise it has listed its start and all
directories it has found. It lists nothing twice, and if a directory of the store is not accepted, it
neither lists nor finds the directory or anything below it. -/
theorem listings_of_requested (s : Store) (path : String) (accept : StoredObject → Result Bool)
    {n : Nat} (asked : 1 ≤ n) :
    let w := start s path accept
    let p := w.requested n
    p.items = w.items.take n ∧
      (p.items.length = n → p.effects = path :: listings (p.items.take (n - 1))) ∧
      (p.items.length < n → p.effects = path :: listings p.items) ∧
      p.effects.Nodup ∧
      ∀ d, Path.Below path d.path → s.head d.path = .ok d → d.isDirectory = true →
        accept d ≠ .ok true →
          (∀ o ∈ p.items, ¬ Within d.path o.path) ∧ ∀ q ∈ p.effects, ¬ Within d.path q := by
  intro w p
  obtain ⟨outstanding, later, stands, progress⟩ : ∃ outstanding later,
      Suspended w path p outstanding later ∧
        (p.items.length = n ∧ p.effects = path :: listings (p.items.take (n - 1)) ∨
          p.items.length < n ∧ p.effects = path :: listings p.items ∧ later = []) := by
    rcases suspended_requested s path accept n with ⟨_, _, stands, all, listed⟩ | ⟨stands, fewer⟩
    · exact ⟨_, _, stands, .inl ⟨all, listed asked⟩⟩
    · exact ⟨_, _, stands, .inr ⟨fewer, by simpa using stands.effects_eq, rfl⟩⟩
  have may := findable_items s path accept
  have found : p.items = w.items.take n := by
    rw [← stands.items_eq]
    rcases progress with ⟨all, -⟩ | ⟨fewer, -, rfl⟩
    · exact (List.take_left' all).symm
    · rw [List.append_nil, List.take_of_length_le (Nat.le_of_lt fewer)]
  refine ⟨found, fun all => ?_, fun fewer => ?_, may.nodup_listings.sublist stands.effects_sublist,
    fun d below there directory refused => ⟨fun o member => ?_, fun q member => ?_⟩⟩
  · rcases progress with ⟨-, listed⟩ | ⟨fewer, -⟩
    · exact listed
    · exact absurd all (Nat.ne_of_lt fewer)
  · rcases progress with ⟨all, -⟩ | ⟨-, listed, -⟩
    · exact absurd all (Nat.ne_of_lt fewer)
    · exact listed
  · exact may.not_within below there directory refused (stands.items_prefix.subset member)
  · -- The start is above the directory; whatever else is listed has been found before.
    rcases List.mem_cons.mp (stands.effects_sublist.subset member) with rfl | listed
    · exact not_within_of_below below
    · obtain ⟨o, found, rfl⟩ := List.mem_map.mp ((listings_sublist (.refl _)).subset listed)
      exact may.not_within below there directory refused found

/-- A store with a directory on the way from one object to another. -/
def detour : Store :=
  { tree := .directory [("t", .directory [
      ("a", .directory [("x.json", .file .empty)]),
      ("b", .directory [("y.json", .file .empty)]),
      ("z.json", .file .empty)])]
    proper := by decide +kernel }

/-- Accepts every directory but one. -/
def exceptB (o : StoredObject) : Result Bool := .ok (o.path ≠ "/t/b")

/-- A walk that leaves out a directory comes to its third object without listing it. -/
theorem listings_of_requested_detour :
    let p := (start detour "/t" exceptB).requested 3
    p.items.map (·.path) = ["/t/a", "/t/a/x.json", "/t/z.json"] ∧ p.effects = ["/t", "/t/a"] ∧
      ∀ q ∈ p.effects, ¬ Within "/t/b" q := by
  intro p
  have found : p.items.map (·.path) = ["/t/a", "/t/a/x.json", "/t/z.json"] := by decide +kernel
  obtain ⟨-, listed, -, -, avoided⟩ :=
    listings_of_requested detour "/t" exceptB (show 1 ≤ 3 by decide)
  have below : Path.Below "/t" "/t/b" := ⟨["b"], by decide, by decide +kernel, by decide +kernel⟩
  refine ⟨found, (listed (by simpa using congrArg List.length found)).trans (by decide +kernel),
    (avoided { path := "/t/b", isDirectory := true } below ?_ rfl (by simp [exceptB])).2⟩
  exact ok_of_toOption (by decide +kernel)

end Walk

end SchemaOnRead
