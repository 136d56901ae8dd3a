import SchemaOnRead.Regex.Basic

/-!
# The ways in which an expression matches

A node made of characters, sequences and alternatives can match the start of a text in a few ways, one
preferred to the next. `Node.ways?` computes them from the start of the text alone, if that is long enough to
tell. Whatever the text goes on with, a match goes on from the first of these ways after which the rest
succeeds (`run_of_ways?`).
-/

namespace SchemaOnRead.Regex

open Text

namespace State

/-- The position after a text, with what is left after it. -/
def past (st : State) (t rest : List Char) : State :=
  ⟨t.reverse ++ st.before, rest, st.position + t.length, st.groups⟩

theorem past_past (st : State) (t u middle rest : List Char) :
    (st.past t middle).past u rest = st.past (t ++ u) rest := by
  simp [past, Nat.add_assoc]

end State

namespace Node

/-- A way to match the start of a text: what is taken, and what is left of it. -/
abbrev Way := List Char × List Char

/-- Goes on from each of some ways. -/
def goOn (further : List Char → Option (List Way)) : List Way → Option (List Way)
  | [] => some []
  | w :: ws => do
    let ends ← further w.2
    let others ← goOn further ws
    return ends.map (fun v => (w.1 ++ v.1, v.2)) ++ others

/-- The ways in which a node can match the start of a text that may go on, in the order of preference. There is
no answer if it depends on how the text goes on, and none for other nodes than characters, sequences and
alternatives. -/
def ways? : Node → List Char → Option (List Way)
  | .empty, cs => some [([], cs)]
  | .never, _ => some []
  | .char ignoreCase c, x :: rest =>
    some (if (if ignoreCase then sameIgnoringCase c x else c == x) then [([x], rest)] else [])
  | .set ignoreCase negated items, x :: rest =>
    some (if setHolds ignoreCase negated items x then [([x], rest)] else [])
  | .seq a b, cs => (ways? a cs).bind (goOn (ways? b))
  | .alt a b, cs => do return (← ways? a cs) ++ (← ways? b cs)
  | _, _ => none

variable {n : Node} {cs : List Char} {ws : List Way}

/-- A match goes on after the next character if that passes a test. -/
theorem next?_bind (test : Char → Bool) {st : State} {x : Char} {more rest : List Char}
    (here : st.after = x :: more ++ rest) (k : Continuation) :
    (st.next? test).bind k =
      (if test x then [([x], more)] else []).findSome? fun w : Way => k (st.past w.1 (w.2 ++ rest)) := by
  rw [State.next?, here, List.cons_append]
  cases passed : test x with
  | true => simp [passed, State.past]
  | false => simp [passed]

/-- A match that goes on from some ways with a node goes on from the ways of both. -/
theorem findSome?_goOn {b : Node} {st : State} {rest : List Char} {k : Continuation}
    (runs : ∀ {cs ws} (st : State), b.ways? cs = some ws → st.after = cs ++ rest →
      b.run st k = ws.findSome? fun v => k (st.past v.1 (v.2 ++ rest)))
    {starts : List Way} (further : goOn (ways? b) starts = some ws) :
    (starts.findSome? fun w => b.run (st.past w.1 (w.2 ++ rest)) k) =
      ws.findSome? fun w => k (st.past w.1 (w.2 ++ rest)) := by
  induction starts generalizing ws with
  | nil =>
    cases further
    rfl
  | cons w starts ih =>
    simp only [goOn, Option.bind_eq_bind, Option.bind_eq_some_iff] at further
    obtain ⟨ends, found, others, later, whole⟩ := further
    cases whole
    rw [List.findSome?_cons, List.findSome?_append, runs _ found rfl, ih later, List.findSome?_map]
    simp only [Function.comp_def, State.past_past]
    cases ends.findSome? fun v => k (st.past (w.1 ++ v.1) (v.2 ++ rest)) <;> rfl

/-- A match goes on from the first way after which the rest succeeds. -/
theorem run_of_ways? (found : n.ways? cs = some ws) {st : State} {rest : List Char}
    (here : st.after = cs ++ rest) (k : Continuation) :
    n.run st k = ws.findSome? fun w => k (st.past w.1 (w.2 ++ rest)) := by
  induction n generalizing cs ws st k with
  | empty =>
    cases found
    obtain ⟨before, after, position, groups⟩ := st
    subst here
    simp [run, State.past]
  | never =>
    cases found
    rfl
  | char ignoreCase c =>
    cases cs with
    | nil => cases found
    | cons x more =>
      cases found
      exact next?_bind _ here k
  | set ignoreCase negated items =>
    cases cs with
    | nil => cases found
    | cons x more =>
      cases found
      exact next?_bind _ here k
  | seq a b first second =>
    obtain ⟨starts, begun, further⟩ := Option.bind_eq_some_iff.mp found
    rw [run, first begun here]
    apply findSome?_goOn _ further
    intro cs ws st found here
    exact second found here k
  | alt a b first second =>
    simp only [ways?, Option.bind_eq_bind, Option.bind_eq_some_iff] at found
    obtain ⟨preferred, left, others, right, whole⟩ := found
    cases whole
    rw [run, first left here, second right here, List.findSome?_append]
    cases preferred.findSome? fun w => k (st.past w.1 (w.2 ++ rest)) <;> rfl
  | _ => cases found

/-- Whether the way that a node prefers is to take a whole text, whatever comes after it. -/
def takesFirst (n : Node) (t : List Char) : Bool := (n.ways? t).bind List.head? == some (t, [])

/-- If the rest succeeds after a text that a node prefers to take, the node takes it. -/
theorem run_of_takesFirst {t : List Char} (takes : n.takesFirst t = true) {st : State} {rest : List Char}
    (here : st.after = t ++ rest) {k : Continuation} {r : State} (later : k (st.past t rest) = some r) :
    n.run st k = some r := by
  rw [takesFirst, beq_iff_eq, Option.bind_eq_some_iff] at takes
  obtain ⟨ws, found, first⟩ := takes
  obtain ⟨others, rfl⟩ := List.head?_eq_some_iff.mp first
  rw [run_of_ways? found here, List.findSome?_cons, List.nil_append, later]

end Node

end SchemaOnRead.Regex
