import SchemaOnRead.Regex.Basic
import SchemaOnRead.Regex.Names

/-!
# Reading regular expressions

`Regex.compile` reads the text of a regular expression: alternatives, sequences, the repetitions
`*`, `+`, `?` and `{m,n}` in their greedy, lazy and possessive forms, sets, classes, anchors, back
references, and groups that capture, are named, look ahead or behind, are atomic, depend on another
group or change flags. Flags for the whole expression may only stand at its very start.
-/

namespace SchemaOnRead.Regex

open Text

/-- Why a text is no regular expression: it is wrong, also by flags of the whole that exclude each
other, or a count of repetitions is too large. -/
inductive BadPattern where
  | invalid
  | countTooLarge
  deriving DecidableEq, Repr

/-- The ways of matching that a flag changes. Classes hold characters of ASCII only, or those of all
texts, which is also what they do if no flag says so. An expression that is a template has no
repetitions. -/
structure Flags where
  ignoreCase : Bool := false
  multiline : Bool := false
  dotAll : Bool := false
  ascii : Bool := false
  unicode : Bool := false
  verbose : Bool := false
  template : Bool := false
  deriving DecidableEq

/-- The letters of flags. -/
def isFlag (c : Char) : Bool := ['i', 'm', 's', 'a', 'u', 'x', 't'].contains c

/-- Switches the flag of a letter. -/
def Flags.set (on : Bool) (f : Flags) (letter : Char) : Flags :=
  match letter with
  | 'i' => { f with ignoreCase := on }
  | 'm' => { f with multiline := on }
  | 's' => { f with dotAll := on }
  | 'a' => { f with ascii := on, unicode := false }
  | 'u' => { f with unicode := on, ascii := false }
  | 'x' => { f with verbose := on }
  | 't' => { f with template := on }
  | _ => f

/-- What is known of the groups while an expression is read. -/
structure Groups where
  count : Nat := 0
  opened : List Nat := []
  names : List (String × Nat) := []
  widths : List (Nat × (Nat × Option Nat)) := []
  /-- Groups that a condition names and that must exist in the end. -/
  required : List Nat := []
  /-- The number of groups before the outermost look-behind that is being read. -/
  behindFrom : Option Nat := none
  /-- Something is wrong that counts only if the whole expression can be read. -/
  faulty : Bool := false

def Groups.width (g : Groups) (index : Nat) : Nat × Option Nat :=
  (g.widths.lookup index).getD (0, none)

/-- Whether a back reference to a group may stand here. -/
def Groups.mayRefer (g : Groups) (index : Nat) : Bool :=
  1 ≤ index && index ≤ g.count && !g.opened.contains index &&
    match g.behindFrom with
    | some n => index ≤ n
    | none => true

/-- The largest count of repetitions plus one. -/
def countLimit : Nat := 4294967295

def isOctal (c : Char) : Bool := '0' ≤ c && c ≤ '7'

def octalValue (cs : List Char) : Nat := cs.foldl (fun n c => 8 * n + (c.toNat - 48)) 0

def hexValue? (cs : List Char) : Option Nat :=
  cs.foldlM (fun n c =>
    if '0' ≤ c ∧ c ≤ '9' then some (16 * n + (c.toNat - 48))
    else if 'a' ≤ c ∧ c ≤ 'f' then some (16 * n + (c.toNat - 87))
    else if 'A' ≤ c ∧ c ≤ 'F' then some (16 * n + (c.toNat - 55))
    else none) 0

/-- The character of an escape with a fixed count of hexadecimal digits. -/
def hexEscape? (digits : Nat) (cs : List Char) : Option (Char × List Char) :=
  let ds := cs.take digits
  if ds.length < digits then none
  else (hexValue? ds).bind fun n =>
    if n < 0x110000 then some (Char.ofNat n, cs.drop digits) else none

/-- The character an escape of one letter stands for. -/
def letterEscape? : Char → Option Char
  | 'a' => some '\x07'
  | 'f' => some '\x0c'
  | 'n' => some '\n'
  | 'r' => some '\r'
  | 't' => some '\t'
  | 'v' => some '\x0b'
  | '\\' => some '\\'
  | _ => none

/-- The class an escape of one letter stands for, and whether it is negated. -/
def categoryEscape? : Char → Option (Bool × Category)
  | 'd' => some (false, .digit)
  | 'D' => some (true, .digit)
  | 's' => some (false, .space)
  | 'S' => some (true, .space)
  | 'w' => some (false, .word)
  | 'W' => some (true, .word)
  | _ => none

/-- What stands before a closing character, and what follows that. A character after a backslash
closes nothing. -/
def until? (close : Char) : List Char → Option (List Char × List Char)
  | [] => none
  | '\\' :: c :: rest => (until? close rest).map fun (name, after) => ('\\' :: c :: name, after)
  | c :: rest =>
    if c = close then some ([], rest) else (until? close rest).map fun (name, after) => (c :: name, after)

/-- The character of an escape with a name in braces. -/
def namedEscape? : List Char → Option (Char × List Char)
  | '\x7b' :: rest => do
    let (name, after) ← until? '\x7d' rest
    let c ← named? name
    return (c, after)
  | _ => none

/-- The character of an escape that stands for one wherever it occurs. -/
def charEscape? (c : Char) (rest : List Char) : Option (Char × List Char) :=
  match letterEscape? c with
  | some l => some (l, rest)
  | none =>
    if c = 'x' then hexEscape? 2 rest
    else if c = 'u' then hexEscape? 4 rest
    else if c = 'U' then hexEscape? 8 rest
    else if c = 'N' then namedEscape? rest
    else if c.isAlpha then none
    else some (c, rest)

/-! ## Sets -/

/-- One character or class inside a set. -/
inductive SetAtom where
  | char (c : Char)
  | category (negated : Bool) (k : Category)

/-- The escape after a backslash inside a set. -/
def setEscape? (c : Char) (rest : List Char) : Option (SetAtom × List Char) :=
  match categoryEscape? c with
  | some (negated, k) => some (.category negated k, rest)
  | none =>
    if c = 'b' then some (.char '\x08', rest)
    else if isOctal c then
      let ds := c :: (rest.take 2).takeWhile isOctal
      let n := octalValue ds
      if 255 < n then none else some (.char (Char.ofNat n), rest.drop (ds.length - 1))
    else if c = '8' ∨ c = '9' then none
    else (charEscape? c rest).map fun (l, after) => (.char l, after)

/-- The next character or class of a set. -/
def setAtom? : List Char → Option (SetAtom × List Char)
  | [] => none
  | '\\' :: c :: rest => setEscape? c rest
  | ['\\'] => none
  | c :: rest => some (.char c, rest)

def SetAtom.item (ascii : Bool) : SetAtom → SetItem
  | .char c => .range c.toNat c.toNat
  | .category negated k => .category negated ascii k

/-- The parts of a set up to its closing bracket; a bracket that comes first is a part. -/
def setItems? (ascii : Bool) : Nat → List SetItem → List Char → Option (List SetItem × List Char)
  | 0, _, _ => none
  | fuel + 1, items, cs =>
    match cs with
    | [] => none
    | c :: rest =>
      if c = ']' ∧ !items.isEmpty then some (items.reverse, rest)
      else
        match setAtom? cs with
        | none => none
        | some (low, '-' :: ']' :: rest) =>
          some ((.range 45 45 :: low.item ascii :: items).reverse, rest)
        | some (low, '-' :: rest) =>
          match low, setAtom? rest with
          | .char l, some (.char h, rest) =>
            if h < l then none
            else setItems? ascii fuel (.range l.toNat h.toNat :: items) rest
          | _, _ => none
        | some (low, rest) => setItems? ascii fuel (low.item ascii :: items) rest

/-- A set, read after its opening bracket. -/
def set? (f : Flags) (cs : List Char) : Option (Node × List Char) :=
  let (negated, body) := match cs with
    | '^' :: rest => (true, rest)
    | rest => (false, rest)
  (setItems? f.ascii (body.length + 1) [] body).map fun (items, rest) =>
    (.set f.ignoreCase negated items, rest)

/-! ## Repetition -/

/-- What a node that has been read may be followed by: an anchor cannot be repeated, and neither
can a repetition. -/
inductive Shape where
  | plain
  | anchor
  | repeated
  deriving DecidableEq

/-- How often a part is repeated, or that the text is no repetition. -/
inductive Count where
  | times (least : Nat) (most : Option Nat) (rest : List Char)
  | notACount
  | tooLarge
  | reversed

/-- The counts in braces, read after the opening brace. -/
def bracedCount (cs : List Char) : Count :=
  match cs with
  | '\x7d' :: _ => .notACount
  | _ =>
    let low := cs.takeWhile isAsciiDigit
    let afterLow := cs.dropWhile isAsciiDigit
    let (high, rest) := match afterLow with
      | ',' :: r => (r.takeWhile isAsciiDigit, r.dropWhile isAsciiDigit)
      | r => (low, r)
    match rest with
    | '\x7d' :: rest =>
      let least := (natural? low).getD 0
      let most := if high.isEmpty then none else natural? high
      if countLimit ≤ least then .tooLarge
      else match most with
        | none => .times least none rest
        | some m =>
          if countLimit ≤ m then .tooLarge
          else if m < least then .reversed
          else .times least (some m) rest
    | _ => .notACount

/-- The repetition a character begins, if it begins one. -/
def count (c : Char) (rest : List Char) : Count :=
  if c = '*' then .times 0 none rest
  else if c = '+' then .times 1 none rest
  else if c = '?' then .times 0 (some 1) rest
  else if c = '\x7b' then bracedCount rest
  else .notACount

/-- The node for a repetition, after the sign that makes it lazy or possessive. -/
def loopNode (least : Nat) (most : Option Nat) (body : Node) : List Char → Node × List Char
  | '?' :: rest => (.loop .fewest least most body, rest)
  | '+' :: rest => (.atomic (.loop .most least most body), rest)
  | rest => (.loop .most least most body, rest)

/-! ## Escapes outside sets -/

/-- The escape after a backslash: a class, an anchor, a back reference or a character. -/
def escape? (f : Flags) (g : Groups) (c : Char) (rest : List Char) :
    Option (Node × Shape × List Char) :=
  match categoryEscape? c with
  | some (negated, k) => some (.set false false [.category negated f.ascii k], .plain, rest)
  | none =>
    if c = 'A' then some (.anchor .textStart, .anchor, rest)
    else if c = 'Z' then some (.anchor .textEnd, .anchor, rest)
    else if c = 'b' then some (.anchor (.wordBoundary f.ascii), .anchor, rest)
    else if c = 'B' then some (.anchor (.insideWord f.ascii), .anchor, rest)
    else if c = '0' then
      let ds := (rest.take 2).takeWhile isOctal
      some (.char f.ignoreCase (Char.ofNat (octalValue ds)), .plain, rest.drop ds.length)
    else if isAsciiDigit c then
      match rest with
      | d :: more =>
        if isOctal c && isOctal d && (more.head?.map isOctal).getD false then
          let n := octalValue (c :: d :: more.take 1)
          if 255 < n then none
          else some (.char f.ignoreCase (Char.ofNat n), .plain, more.drop 1)
        else
          let (ds, after) := if isAsciiDigit d then ([c, d], more) else ([c], rest)
          let index := (natural? ds).getD 0
          if g.mayRefer index then some (.backref f.ignoreCase index, .plain, after) else none
      | [] =>
        let index := (natural? [c]).getD 0
        if g.mayRefer index then some (.backref f.ignoreCase index, .plain, []) else none
    else (charEscape? c rest).map fun (l, after) => (.char f.ignoreCase l, .plain, after)

/-! ## Groups -/

/-- Whether a text may name a group. -/
def isGroupName : List Char → Bool
  | [] => false
  | c :: rest => isWord c && !isDigit c && rest.all isWord

/-- The flags of a group up to the closing parenthesis, for the whole expression, or up to the
colon, for the group only; after a minus sign stand those that are turned off. Of the two flags that say
what classes hold one may be turned on and none off, and no flag may be turned on and off. Only the
whole expression can be a template. -/
def flags? (f : Flags) (cs : List Char) : Option (Flags × Bool × List Char) :=
  let on := cs.takeWhile isFlag
  let switched := on.foldl (Flags.set true) f
  if on.contains 'a' && on.contains 'u' then none
  else match cs.dropWhile isFlag with
    | ')' :: rest =>
      if on.isEmpty then none else some (switched, true, rest)
    | ':' :: rest => if on.isEmpty || on.contains 't' then none else some (switched, false, rest)
    | '-' :: rest =>
      let off := rest.takeWhile isFlag
      if on.contains 't' || off.isEmpty || off.any (['a', 'u', 't'] ++ on).contains then none
      else match rest.dropWhile isFlag with
        | ':' :: rest => some (off.foldl (Flags.set false) switched, false, rest)
        | _ => none
    | _ => none

/-- What follows a comment, which goes on to the end of the line. A line break after a backslash does
not end it. -/
def afterComment : List Char → List Char
  | [] => []
  | ['\\'] => ['\\']
  | '\\' :: _ :: rest => afterComment rest
  | c :: rest => if c = '\n' then rest else afterComment rest

/-- Drops the blanks and comments that do not count in verbose expressions. -/
def skipVerbose : Nat → List Char → List Char
  | 0, cs => cs
  | fuel + 1, cs =>
    match cs with
    | [] => []
    | c :: rest =>
      if c = ' ' || ('\t' ≤ c && c ≤ '\r') then skipVerbose fuel rest
      else if c = '#' then skipVerbose fuel (afterComment rest)
      else cs

/-- Nodes in sequence; the list holds the last one first. -/
def sequence (items : List (Node × Shape)) : Node :=
  items.foldl (fun after item => match after with
    | .empty => item.1
    | after => .seq item.1 after) .empty

/-- The outcome of reading a part of an expression: its node, what is known of the groups and the
flags of the whole expression, and the rest of the text. -/
abbrev Part := Except BadPattern (Node × Groups × Flags × List Char)

def invalid {α : Type} : Except BadPattern α := .error .invalid

mutual

/-- Alternatives up to a closing parenthesis or the end. `top` says that no group is open, so that
flags at the start are those of the whole expression. -/
def alternatives (top : Bool) : Nat → Flags → Groups → List Char → Part
  | 0, _, _, _ => invalid
  | fuel + 1, f, g, cs =>
    match terms top fuel f g [] cs with
    | .error e => .error e
    | .ok (a, g, f, '|' :: rest) =>
      match laterAlternatives fuel f g rest with
      | .error e => .error e
      | .ok (b, g, f, rest) => .ok (.alt a b, g, f, rest)
    | .ok found => .ok found

/-- The alternatives after the first. -/
def laterAlternatives : Nat → Flags → Groups → List Char → Part
  | 0, _, _, _ => invalid
  | fuel + 1, f, g, cs =>
    match terms false fuel f g [] cs with
    | .error e => .error e
    | .ok (a, g, f, '|' :: rest) =>
      match laterAlternatives fuel f g rest with
      | .error e => .error e
      | .ok (b, g, f, rest) => .ok (.alt a b, g, f, rest)
    | .ok found => .ok found

/-- A sequence of parts with their repetitions, up to the end of the alternative; `items` holds the
parts before, last first. -/
def terms (top : Bool) : Nat → Flags → Groups → List (Node × Shape) → List Char → Part
  | 0, _, _, _, _ => invalid
  | fuel + 1, f, g, items, cs =>
    let plain (node : Node) (rest : List Char) : Part :=
      terms top fuel f g ((node, .plain) :: items) rest
    match (if f.verbose then skipVerbose (cs.length + 1) cs else cs) with
    | [] => .ok (sequence items, g, f, [])
    | '|' :: rest => .ok (sequence items, g, f, '|' :: rest)
    | ')' :: rest => .ok (sequence items, g, f, ')' :: rest)
    | ['\\'] => invalid
    | '\\' :: c :: rest =>
      match escape? f g c rest with
      | none => invalid
      | some (node, shape, rest) => terms top fuel f g ((node, shape) :: items) rest
    | '[' :: rest =>
      match set? f rest with
      | none => invalid
      | some (node, rest) => plain node rest
    | '.' :: rest => plain (.any f.dotAll) rest
    | '^' :: rest =>
      terms top fuel f g
        ((.anchor (if f.multiline then .lineStart else .textStart), .anchor) :: items) rest
    | '$' :: rest =>
      terms top fuel f g
        ((.anchor (if f.multiline then .lineEnd else .finalLineEnd), .anchor) :: items) rest
    | '(' :: '?' :: rest => extension top fuel f g items rest
    | '(' :: rest => capture top fuel f g items none rest
    | c :: rest =>
      match count c rest with
      | .notACount =>
        if c = '*' || c = '+' || c = '?' then invalid else plain (.char f.ignoreCase c) rest
      | .tooLarge => .error .countTooLarge
      | .reversed => invalid
      | .times least most rest =>
        match items with
        | (body, .plain) :: items =>
          let (node, rest) := loopNode least most body rest
          terms top fuel f { g with faulty := g.faulty || f.template }
            ((node, .repeated) :: items) rest
        | _ => invalid

/-- A capturing group, read after its opening parenthesis and its name. -/
def capture (top : Bool) : Nat → Flags → Groups → List (Node × Shape) → Option String →
    List Char → Part
  | 0, _, _, _, _, _ => invalid
  | fuel + 1, f, g, items, name, cs =>
    let index := g.count + 1
    let names := match name with
      | some n => (n, index) :: g.names
      | none => g.names
    if (match name with
      | some n => (g.names.lookup n).isSome
      | none => false) then invalid
    else
      match alternatives false fuel f
        { g with count := index, opened := index :: g.opened, names := names } cs with
      | .ok (node, g, _, ')' :: rest) =>
        let g := { g with
          opened := g.opened.filter (· ≠ index)
          widths := (index, node.width g.width) :: g.widths }
        terms top fuel f g ((.group index node, .plain) :: items) rest
      | .ok _ => invalid
      | .error e => .error e

/-- A group that begins with a question mark, read after it. -/
def extension (top : Bool) : Nat → Flags → Groups → List (Node × Shape) → List Char → Part
  | 0, _, _, _, _ => invalid
  | fuel + 1, f, g, items, cs =>
    match cs with
    | 'P' :: '<' :: rest =>
      match until? '>' rest with
      | some (name, rest) =>
        if isGroupName name then capture top fuel f g items (some (String.ofList name)) rest
        else invalid
      | none => invalid
    | 'P' :: '=' :: rest =>
      match until? ')' rest with
      | some (name, rest) =>
        match g.names.lookup (String.ofList name) with
        | some index =>
          if g.mayRefer index then
            terms top fuel f g ((.backref f.ignoreCase index, .plain) :: items) rest
          else invalid
        | none => invalid
      | none => invalid
    | ':' :: rest => inner top fuel f f g items id rest
    | '>' :: rest => inner top fuel f f g items .atomic rest
    | '=' :: rest => inner top fuel f f g items (.ahead false) rest
    | '!' :: rest => inner top fuel f f g items (.ahead true) rest
    | '<' :: c :: rest =>
      if c = '=' ∨ c = '!' then
        let outer := g.behindFrom
        match alternatives false fuel f { g with behindFrom := outer.or (some g.count) } rest with
        | .ok (node, g, _, ')' :: rest) =>
          let (least, most) := node.width g.width
          let uneven := most != some least
          terms top fuel f { g with behindFrom := outer, faulty := g.faulty || uneven }
            ((.behind (c = '!') least node, .plain) :: items) rest
        | .ok _ => invalid
        | .error e => .error e
      else invalid
    | '#' :: rest =>
      match until? ')' rest with
      | some (_, rest) => terms top fuel f g items rest
      | none => invalid
    | '(' :: rest =>
      match until? ')' rest with
      | none => invalid
      | some (name, rest) =>
        let index? := if isGroupName name then g.names.lookup (String.ofList name) else
          if name.all isAsciiDigit then natural? name else none
        match index? with
        | none => invalid
        | some 0 => invalid
        | some index =>
          match terms false fuel f { g with required := index :: g.required } [] rest with
          | .error e => .error e
          | .ok (yes, g, _, ')' :: rest) =>
            terms top fuel f g ((.ifGroup index yes .empty, .plain) :: items) rest
          | .ok (yes, g, _, '|' :: rest) =>
            match terms false fuel f g [] rest with
            | .ok (no, g, _, ')' :: rest) =>
              terms top fuel f g ((.ifGroup index yes no, .plain) :: items) rest
            | .ok _ => invalid
            | .error e => .error e
          | .ok _ => invalid
    | _ =>
      match flags? f cs with
      | none => invalid
      | some (f', true, rest) =>
        if top && items.isEmpty then
          let opposed := f.ascii && f'.unicode || f.unicode && f'.ascii
          terms top fuel f' { g with faulty := g.faulty || opposed } items rest
        else invalid
      | some (f', false, rest) => inner top fuel f f' g items id rest

/-- A group that captures nothing, wrapped as its sign says; `inside` are the flags within it. -/
def inner (top : Bool) : Nat → Flags → Flags → Groups → List (Node × Shape) → (Node → Node) →
    List Char → Part
  | 0, _, _, _, _, _, _ => invalid
  | fuel + 1, f, inside, g, items, wrap, cs =>
    match alternatives false fuel inside g cs with
    | .ok (node, g, _, ')' :: rest) => terms top fuel f g ((wrap node, .plain) :: items) rest
    | .ok _ => invalid
    | .error e => .error e

end

/-- Reads a regular expression under given flags. Every few steps use up a character of the text,
so a small multiple of its length bounds them. -/
def compileWith (f : Flags) (source : String) : Except BadPattern Regex :=
  let cs := source.toList
  match alternatives true (4 * cs.length + 8) f {} cs with
  | .error e => .error e
  | .ok (node, g, _, []) =>
    if g.required.all (· ≤ g.count) && !g.faulty then
      .ok ⟨source, node, g.count, g.names.reverse⟩
    else invalid
  | .ok _ => invalid

/-- Reads a regular expression. -/
def compile (source : String) : Except BadPattern Regex := compileWith {} source

/-- A regular expression keeps the text that it is read from. -/
theorem source_of_compile {source : String} {r : Regex} (read : compile source = .ok r) :
    r.source = source := by
  simp only [compile, compileWith] at read
  split at read
  · cases read
  · split at read
    · cases read; rfl
    · cases read
  · cases read

end SchemaOnRead.Regex
