import SchemaOnRead.Proofs.Storage.Objects
import SchemaOnRead.Storage.Walk

/-!
# What a walk finds

A walk yields exactly the objects below its directory that it comes to: those to which only accepted
directories lead, apart from directories that are not accepted themselves. Nothing is lost, repeated
or reordered, and it fails if and only if a directory that it comes to makes the test fail
(`exact_ofTree`). `start_eq_ofListing` says the same of its form: a walk goes on in a directory as the
walk that starts at the path of that directory.
-/

namespace SchemaOnRead

/-- The answer of a test; a test that failed says no. -/
def passes : Result Bool → Bool
  | .ok b => b
  | .error _ => false

theorem passes_iff {answer : Result Bool} : passes answer = true ↔ answer = .ok true := by
  cases answer <;> simp [passes]

namespace Walk

variable (accept : StoredObject → Result Bool)

/-- Whether a walk that starts at a root comes to an object: every directory that leads there is
accepted. -/
def reaches (root : String) (o : StoredObject) : Bool :=
  (Path.between root o.path).all fun a => passes (accept { path := a, isDirectory := true })

/-- Whether a walk that starts at a root yields an object that is below the root. -/
def yields (root : String) (o : StoredObject) : Bool :=
  reaches accept root o && (!o.isDirectory || passes (accept o))

theorem reaches_child (root : String) {name : String} (named : Path.isName name = true)
    (t : Tree) : reaches accept root (t.describe (Path.join root name) name) = true := by
  rw [reaches, Tree.describe_path, Path.between_join root named]
  rfl

/-- A walk comes to what is below a child if it accepts the child and comes to it from there. -/
theorem reaches_below_child (root : String) {name : String} (named : Path.isName name = true)
    {o : StoredObject} (below : Path.Below (Path.join root name) o.path) :
    reaches accept root o =
      (passes (accept { path := Path.join root name, isDirectory := true }) &&
        reaches accept (Path.join root name) o) := by
  rw [reaches, Path.between_below_join root named below, List.all_cons, reaches]

/-- Whether a walk through some objects goes through: no directory that it comes to makes the test
fail. -/
def Settled (root : String) (os : List StoredObject) : Prop :=
  ∀ o ∈ os, o.isDirectory = true → reaches accept root o = true → ∃ b, accept o = .ok b

theorem describe_directory (path name : String) (es : List (String × Tree)) :
    (Tree.directory es).describe (Path.join path name) name =
      { path := Path.join path name, isDirectory := true } := by
  simp only [Tree.describe, Path.format_join]

variable {accept}

/-- Below a child that is accepted, a walk is as one that starts at the child. -/
theorem settled_child {root name : String} (named : Path.isName name = true) {t : Tree}
    (proper : t.isProper = true)
    (accepted : accept { path := Path.join root name, isDirectory := true } = .ok true) :
    Settled accept root (t.objects (Path.join root name)) ↔
      Settled accept (Path.join root name) (t.objects (Path.join root name)) := by
  refine forall₂_congr fun o member => ?_
  rw [reaches_below_child accept root named (Tree.objects_below proper member), accepted,
    passes, Bool.true_and]

theorem yields_below_child {root name : String} (named : Path.isName name = true) {t : Tree}
    (proper : t.isProper = true)
    (accepted : accept { path := Path.join root name, isDirectory := true } = .ok true) :
    (t.objects (Path.join root name)).filter (yields accept root) =
      (t.objects (Path.join root name)).filter (yields accept (Path.join root name)) := by
  refine List.filter_congr fun o member => ?_
  rw [yields, reaches_below_child accept root named (Tree.objects_below proper member), accepted,
    passes, Bool.true_and, yields]

/-- Below a child that is not accepted, a walk comes to nothing. -/
theorem not_reaches_below_child {root name : String} (named : Path.isName name = true) {t : Tree}
    (proper : t.isProper = true)
    (refused : passes (accept { path := Path.join root name, isDirectory := true }) = false)
    {o : StoredObject} (member : o ∈ t.objects (Path.join root name)) :
    reaches accept root o = false := by
  rw [reaches_below_child accept root named (Tree.objects_below proper member), refused,
    Bool.false_and]

/-- What a walk through a tree yields, and when it goes through. -/
def Exact (accept : StoredObject → Result Bool) (root : String) (os : List StoredObject)
    (w : Walk) : Prop :=
  (w.failure = none ↔ Settled accept root os) ∧
    (w.failure = none → w.items = os.filter (yields accept root))

theorem ofEntries_file (root name : String) (bytes : ByteArray) (rest : List (String × Tree)) :
    ofEntries accept root ((name, .file bytes) :: rest) =
      (ofEntries accept root rest).yield
        ((Tree.file bytes).describe (Path.join root name) name) := by
  rw [ofEntries, Tree.describe_isDirectory]
  simp [Tree.isDirectory]

theorem ofEntries_directory (root name : String) (es rest : List (String × Tree)) :
    ofEntries accept root ((name, .directory es) :: rest) =
      match accept { path := Path.join root name, isDirectory := true } with
      | .error f => .failing f
      | .ok false => ofEntries accept root rest
      | .ok true =>
        ((ofTree accept (Path.join root name) (.directory es)).append
          (ofEntries accept root rest)).yield
            { path := Path.join root name, isDirectory := true } := by
  rw [ofEntries, describe_directory]
  rfl

theorem exact_file {root name : String} (named : Path.isName name = true) (bytes : ByteArray)
    {rest : List (String × Tree)}
    (later : Exact accept root (Tree.entryObjects root rest) (ofEntries accept root rest)) :
    Exact accept root (Tree.entryObjects root ((name, .file bytes) :: rest))
      (ofEntries accept root ((name, .file bytes) :: rest)) := by
  have reached := reaches_child accept root named (.file bytes)
  have plain : ((Tree.file bytes).describe (Path.join root name) name).isDirectory = false :=
    Tree.describe_isDirectory _ _ _
  rw [ofEntries_file, Tree.entryObjects, Tree.objects, List.nil_append]
  constructor
  · rw [Trace.failure_yield, later.1, Settled, Settled, List.forall_mem_cons, plain]
    simp
  · intro whole
    rw [Trace.items_yield, later.2 whole, List.filter_cons, yields, reached, plain]
    simp

theorem exact_directory {root name : String} (named : Path.isName name = true)
    {es rest : List (String × Tree)} (proper : Tree.areProper es = true)
    (inside : Exact accept (Path.join root name) (Tree.entryObjects (Path.join root name) es)
      (ofTree accept (Path.join root name) (.directory es)))
    (later : Exact accept root (Tree.entryObjects root rest) (ofEntries accept root rest)) :
    Exact accept root (Tree.entryObjects root ((name, .directory es) :: rest))
      (ofEntries accept root ((name, .directory es) :: rest)) := by
  have reached := reaches_child accept root named (.directory es)
  rw [ofEntries_directory, Tree.entryObjects]
  rw [describe_directory] at reached ⊢
  have properInside : (Tree.directory es).isProper = true := proper
  cases answer : accept { path := Path.join root name, isDirectory := true } with
  | error f =>
    refine ⟨⟨fun whole => (by cases whole), fun settled => ?_⟩, fun whole => by cases whole⟩
    obtain ⟨b, good⟩ := settled _ (.head _) rfl reached
    rw [answer] at good
    cases good
  | ok b =>
    cases b with
    | false =>
      have unreached : ∀ o ∈ Tree.objects (Path.join root name) (.directory es),
          reaches accept root o = false := fun o member =>
        not_reaches_below_child named properInside (by rw [answer]; rfl) member
      constructor
      · rw [later.1, Settled, Settled, List.forall_mem_cons, List.forall_mem_append]
        refine ⟨fun settled => ⟨fun _ _ => ⟨false, answer⟩, fun o member _ reached => ?_, settled⟩,
          fun settled => settled.2.2⟩
        rw [unreached o member] at reached
        cases reached
      · intro whole
        have nothing : (Tree.objects (Path.join root name) (.directory es)).filter
            (yields accept root) = [] := by
          refine List.filter_eq_nil_iff.mpr fun o member => ?_
          rw [yields, unreached o member]
          simp
        rw [later.2 whole, List.filter_cons, List.filter_append, nothing, yields, answer]
        simp [passes]
    | true =>
      have own := settled_child named properInside answer
      have kept := yields_below_child named properInside answer
      rw [Tree.objects] at own kept ⊢
      constructor
      · rw [Trace.failure_yield, Trace.failure_append, Option.or_eq_none_iff, inside.1, later.1,
          ← own, Settled, Settled, Settled, List.forall_mem_cons, List.forall_mem_append]
        exact ⟨fun both => ⟨fun _ _ => ⟨true, answer⟩, both⟩, fun all => all.2⟩
      · intro whole
        rw [Trace.failure_yield, Trace.failure_append, Option.or_eq_none_iff] at whole
        rw [Trace.items_yield, Trace.items_append whole.1, inside.2 whole.1, later.2 whole.2,
          List.filter_cons, List.filter_append, kept, yields, reached, answer]
        simp [passes]

/-- A walk through a proper tree is exact. -/
theorem exact_ofTree {t : Tree} (proper : t.isProper = true) (root : String) :
    Exact accept root (t.objects root) (ofTree accept root t) := by
  induction t using Tree.induct generalizing root with
  | file _ => exact ⟨by simp [ofTree, Tree.objects, Settled], fun _ => rfl⟩
  | directory es inner =>
    replace proper : Tree.areProper es = true := proper
    rw [ofTree, Tree.objects]
    show Exact accept root _ (ofEntries accept root es)
    induction es with
    | nil => exact ⟨by simp [ofEntries, Tree.entryObjects, Settled], fun _ => rfl⟩
    | cons e rest ih =>
      obtain ⟨n, t⟩ := e
      obtain ⟨named, properInside, properRest, -⟩ := Tree.proper_cons proper
      have later := ih (fun e there => inner e (.tail _ there)) properRest
      cases t with
      | file bytes => exact exact_file named bytes later
      | directory es' =>
        have inside := inner (n, .directory es') (.head _) properInside (Path.join root n)
        exact exact_directory named properInside inside later

/-! ## Walks by way of listings -/

/-- The walk through the objects of a listing: in a directory that is accepted it goes on as the walk
that starts at the path of the directory. -/
def ofListing (s : Store) (accept : StoredObject → Result Bool) : List StoredObject → Walk
  | [] => .ended
  | o :: rest =>
    if o.isDirectory then
      match accept o with
      | .error f => .failing f
      | .ok false => ofListing s accept rest
      | .ok true => ((start s o.path accept).append (ofListing s accept rest)).yield o
    else (ofListing s accept rest).yield o

theorem ofEntries_eq_ofListing {s : Store} {path : String} {es : List (String × Tree)}
    (listed : s.find path = .ok (.directory es)) :
    ∀ us, (∀ e ∈ us, e ∈ es) → ofEntries accept path us =
      ofListing s accept (us.map fun (n, t) => t.describe (Path.join path n) n) := by
  intro us part
  induction us with
  | nil => rfl
  | cons e rest ih =>
    obtain ⟨n, t⟩ := e
    have later := ih fun e member => part e (.tail _ member)
    rw [List.map_cons, ofListing, Tree.describe_isDirectory, ← later]
    cases t with
    | file bytes =>
      rw [ofEntries_file]
      rfl
    | directory es' =>
      have found := Store.find_join listed (part _ (.head _))
      have entered : start s (Path.join path n) accept =
          ofTree accept (Path.join path n) (.directory es') := by rw [start, found]
      simp only [describe_directory, entered, Tree.isDirectory, if_true]
      exact ofEntries_directory path n es' rest

/-- A walk lists the directory that it starts in, by its path, and goes through what is listed. -/
theorem start_eq_ofListing (s : Store) (path : String) (accept : StoredObject → Result Bool) :
    start s path accept =
      match s.list path with
      | .error f => (Trace.failing f).effect path
      | .ok os => (ofListing s accept os).effect path := by
  rw [start, Store.list]
  cases found : s.find path with
  | error f =>
    have missing : s.entries path = .error f := by simp [Store.entries, found, bind, Except.bind]
    rw [missing]
    rfl
  | ok t =>
    cases t with
    | file bytes =>
      have missing : s.entries path = fail (.objectNotFound path) := by
        simp [Store.entries, found, bind, Except.bind]
      rw [missing]
      rfl
    | directory es =>
      rw [Store.entries_eq.mpr found]
      show (ofEntries accept path es).effect path = _
      rw [ofEntries_eq_ofListing found es fun _ member => member]
      rfl

/-- A walk that starts in a directory of a store is exact; one that starts elsewhere fails. -/
theorem exact_start {s : Store} {root : String} {es : List (String × Tree)}
    (listed : s.entries root = .ok es) (accept : StoredObject → Result Bool) :
    Exact accept root (Tree.entryObjects root es) (start s root accept) := by
  have found := Store.entries_eq.mp listed
  have proper : (Tree.directory es).isProper = true := Store.isProper_of_find found
  rw [start, found]
  exact exact_ofTree proper root

theorem start_of_error {s : Store} {root : String} {f : Failure}
    (missing : s.entries root = .error f) (accept : StoredObject → Result Bool) :
    start s root accept = (Trace.failing f).effect root := by
  have unlisted : s.list root = .error f := by rw [Store.list, missing]; rfl
  rw [start_eq_ofListing, unlisted]

end Walk

end SchemaOnRead
