import SchemaOnRead.Text.Blank
import SchemaOnRead.Text.Digit
import SchemaOnRead.Text.Lowercase
import SchemaOnRead.Text.Word

/-!
# Regular expressions

The tree of a regular expression and its matcher. `Node.run` tries the ways a node can match from a
position in order of preference and returns the first one after which the rest of the match
succeeds; it recurses on the tree, and the repetition of a part is bounded by the text that is
left. `Regex.search` looks for the leftmost match.
-/

namespace SchemaOnRead.Regex

open Text

/-- A named class of characters. -/
inductive Category where
  | digit
  | space
  | word
  deriving DecidableEq, Repr

/-- Whether a character is in a class; in ASCII mode no character beyond ASCII is. -/
def Category.holds (ascii : Bool) (k : Category) (c : Char) : Bool :=
  (!ascii || c.toNat < 128 && !(28 ≤ c.toNat && c.toNat ≤ 31)) &&
    match k with
    | digit => isDigit c
    | space => isBlank c
    | word => isWord c

/-- One part of a set of characters. -/
inductive SetItem where
  | range (first last : Nat)
  | category (negated ascii : Bool) (k : Category)
  deriving DecidableEq, Repr

/-- Whether a character belongs to a part of a set. -/
def SetItem.holds (c : Char) : SetItem → Bool
  | range first last => first ≤ c.toNat && c.toNat ≤ last
  | category negated ascii k => k.holds ascii c != negated

/-- Whether a character belongs to a set. If case does not matter it belongs when some character
that is the same but for case does. -/
def setHolds (ignoreCase negated : Bool) (items : List SetItem) (c : Char) : Bool :=
  let found :=
    if ignoreCase then
      let variants := caseVariants c
      items.any fun item => match item with
        | .range .. => variants.any fun v => item.holds v
        | .category .. => item.holds (lowerChar c)
    else items.any fun item => item.holds c
  found != negated

/-- A place in a text, by what stands around it. -/
inductive Anchor where
  | textStart
  | lineStart
  | textEnd
  | finalLineEnd
  | lineEnd
  | wordBoundary (ascii : Bool)
  | insideWord (ascii : Bool)
  deriving DecidableEq, Repr

/-- How often and in which order a part is repeated: as often as possible first, or as rarely as
possible first. -/
inductive Preference where
  | most
  | fewest
  deriving DecidableEq, Repr

/-- The tree of a regular expression. -/
inductive Node where
  | empty
  | never
  | char (ignoreCase : Bool) (c : Char)
  | any (alsoNewline : Bool)
  | set (ignoreCase negated : Bool) (items : List SetItem)
  | anchor (a : Anchor)
  | seq (a b : Node)
  | alt (a b : Node)
  | loop (preference : Preference) (least : Nat) (most : Option Nat) (body : Node)
  | group (index : Nat) (body : Node)
  | backref (ignoreCase : Bool) (index : Nat)
  | ahead (negated : Bool) (body : Node)
  | behind (negated : Bool) (width : Nat) (body : Node)
  | atomic (body : Node)
  | ifGroup (index : Nat) (yes no : Node)
  deriving Repr

/-- A position in a text: the characters before it, last first, those after it, and the texts the
groups have matched. -/
structure State where
  before : List Char
  after : List Char
  position : Nat
  groups : List (Nat × List Char)

/-- The text a group has matched last. -/
def State.group? (st : State) (index : Nat) : Option (List Char) := st.groups.lookup index

/-- The position after the next character, if that character passes a test. -/
def State.next? (st : State) (test : Char → Bool) : Option State :=
  match st.after with
  | c :: rest => if test c then some ⟨c :: st.before, rest, st.position + 1, st.groups⟩ else none
  | [] => none

/-- The position `n` characters back. -/
def State.back? : Nat → State → Option State
  | 0, st => some st
  | n + 1, st =>
    match st.before with
    | c :: rest => State.back? n ⟨rest, c :: st.after, st.position - 1, st.groups⟩
    | [] => none

/-- The position after a given text, if that text comes next. -/
def State.skip? (same : Char → Char → Bool) : List Char → State → Option State
  | [], st => some st
  | c :: cs, st => (st.next? (same c)).bind (State.skip? same cs)

/-- The characters between an earlier position and this one. -/
def State.since (st : State) (start : Nat) : List Char :=
  (st.before.take (st.position - start)).reverse

/-- Whether a place stands at a position. An empty text has neither a word boundary nor an inside of
a word. -/
def Anchor.holds (a : Anchor) (st : State) : Bool :=
  let word (ascii : Bool) : Option Char → Bool
    | some c => Category.word.holds ascii c
    | none => false
  match a with
  | textStart => st.before.isEmpty
  | lineStart => match st.before with
    | [] => true
    | c :: _ => c == '\n'
  | textEnd => st.after.isEmpty
  | finalLineEnd => st.after.isEmpty || st.after == ['\n']
  | lineEnd => match st.after with
    | [] => true
    | c :: _ => c == '\n'
  | wordBoundary ascii => word ascii st.before.head? != word ascii st.after.head?
  | insideWord ascii =>
    !(st.before.isEmpty && st.after.isEmpty) &&
      word ascii st.before.head? == word ascii st.after.head?

/-- What is to be matched after a node. -/
abbrev Continuation := State → Option State

/-- Whether one more repetition is allowed. -/
def mayRepeat (most : Option Nat) (count : Nat) : Bool :=
  match most with
  | some m => count < m
  | none => true

/-- Repeats a part. Beyond the least count a repetition starts only where the one before it did not
start, so every repetition but one moves forward. -/
def repeatPart (step : State → Continuation → Option State) (preference : Preference) (least : Nat)
    (most : Option Nat) : Nat → Nat → Option Nat → State → Continuation → Option State
  | 0, _, _, _, _ => none
  | fuel + 1, count, last, st, k =>
    let again (last : Option Nat) : Option State :=
      step st fun st' => repeatPart step preference least most fuel (count + 1) last st' k
    if count < least then again last
    else
      let more := mayRepeat most count && last != some st.position
      match preference with
      | .most =>
        match (if more then again (some st.position) else none) with
        | some found => some found
        | none => k st
      | .fewest =>
        match k st with
        | some found => some found
        | none => if more then again (some st.position) else none

/-- Matches a node from a position, then what comes after it. -/
def Node.run : Node → State → Continuation → Option State
  | .empty, st, k => k st
  | .never, _, _ => none
  | .char ignoreCase c, st, k =>
    (st.next? fun x => if ignoreCase then sameIgnoringCase c x else c == x).bind k
  | .any alsoNewline, st, k => (st.next? fun x => alsoNewline || x != '\n').bind k
  | .set ignoreCase negated items, st, k => (st.next? (setHolds ignoreCase negated items)).bind k
  | .anchor a, st, k => if a.holds st then k st else none
  | .seq a b, st, k => a.run st fun st' => b.run st' k
  | .alt a b, st, k =>
    match a.run st k with
    | some found => some found
    | none => b.run st k
  | .loop preference least most body, st, k =>
    repeatPart body.run preference least most (least + st.after.length + 2) 0 none st k
  | .group index body, st, k =>
    body.run st fun st' =>
      k { st' with groups := (index, st'.since st.position) :: st'.groups }
  | .backref ignoreCase index, st, k =>
    match st.group? index with
    | some cs => (State.skip? (if ignoreCase then sameIgnoringCase else (· == ·)) cs st).bind k
    | none => none
  | .ahead negated body, st, k =>
    match body.run st some with
    | some found => if negated then none else k { st with groups := found.groups }
    | none => if negated then k st else none
  | .behind negated width body, st, k =>
    let found := (st.back? width).bind fun start =>
      body.run start fun st' => if st'.position = st.position then some st' else none
    match found with
    | some found => if negated then none else k { st with groups := found.groups }
    | none => if negated then k st else none
  | .atomic body, st, k => (body.run st some).bind k
  | .ifGroup index yes no, st, k =>
    match st.group? index with
    | some _ => yes.run st k
    | none => no.run st k

/-- The least and the greatest number of characters a node matches; no greatest number stands for
any number. The argument gives the width of the groups. -/
def Node.width (groups : Nat → Nat × Option Nat) : Node → Nat × Option Nat
  | .empty | .never | .anchor _ | .ahead .. | .behind .. => (0, some 0)
  | .char .. | .any _ | .set .. => (1, some 1)
  | .seq a b =>
    let (l, h) := a.width groups
    let (l', h') := b.width groups
    (l + l', match h, h' with
      | some h, some h' => some (h + h')
      | _, _ => none)
  | .alt a b | .ifGroup _ a b =>
    let (l, h) := a.width groups
    let (l', h') := b.width groups
    (min l l', match h, h' with
      | some h, some h' => some (max h h')
      | _, _ => none)
  | .loop _ least most body =>
    let (l, h) := body.width groups
    (l * least, match h, most with
      | some h, some m => some (h * m)
      | some 0, none => some 0
      | _, _ => none)
  | .group _ body | .atomic body => body.width groups
  | .backref _ index => groups index

end Regex

/-- A regular expression: its text, its tree, and the number and the names of its groups. -/
structure Regex where
  source : String
  node : Regex.Node
  groupCount : Nat
  names : List (String × Nat)

namespace Regex

/-- A match: where it starts and ends, and the texts of the groups that took part. -/
structure Match where
  start : Nat
  stop : Nat
  groups : List (Nat × List Char)

/-- The text of a group; `none` if it took no part in the match. -/
def Match.group? (m : Match) (index : Nat) : Option String :=
  (m.groups.lookup index).map String.ofList

/-- The text of a named group. -/
def Match.named? (m : Match) (r : Regex) (name : String) : Option String :=
  (r.names.lookup name).bind m.group?

/-- The match that starts at a position. -/
def matchFrom (r : Regex) (st : State) : Option Match :=
  (r.node.run st some).map fun found => ⟨st.position, found.position, found.groups⟩

/-- The match at the first position from which there is one. -/
def searchFrom (r : Regex) (before : List Char) (position : Nat) : List Char → Option Match
  | [] => r.matchFrom ⟨before, [], position, []⟩
  | c :: rest =>
    match r.matchFrom ⟨before, c :: rest, position, []⟩ with
    | some found => some found
    | none => searchFrom r (c :: before) (position + 1) rest

/-- The leftmost match in a text. -/
def search (r : Regex) (text : String) : Option Match := r.searchFrom [] 0 text.toList

end Regex

end SchemaOnRead
