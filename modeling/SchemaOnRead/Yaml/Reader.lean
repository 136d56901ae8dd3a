import SchemaOnRead.Json.Reader
import SchemaOnRead.Yaml.Node

/-!
# Reading YAML text

`Yaml.read` reads a text that is at most one document of block and flow collections and scalars. How
far a line is indented tells which collection it belongs to. A tab may stand inside quotes, comments
and blocks of text only. Names for nodes and tags are not read.
-/

namespace SchemaOnRead.Yaml

/-! ## Places -/

/-- A place in a text: what is left, the column, and whether only blanks stand before it on its
line. -/
structure Place where
  rest : List Char
  column : Nat := 0
  isFresh : Bool := true

namespace Place

/-- The place at which `rest` is left. -/
def moveTo (p : Place) (rest : List Char) : Place :=
  let passed := p.rest.take (p.rest.length - rest.length)
  if passed.contains '\n' then
    let line := passed.reverse.takeWhile (· ≠ '\n')
    ⟨rest, line.length, line.all (· == ' ')⟩
  else ⟨rest, p.column + passed.length, p.isFresh && passed.all (· == ' ')⟩

/-- The place after the next character. -/
def next (p : Place) : Place := p.moveTo (p.rest.drop 1)

/-- What is left after blanks, line ends and comments, unless a tab stands among them. -/
def skipChars : Bool → List Char → Option (List Char)
  | _, [] => some []
  | true, '\n' :: rest => skipChars false rest
  | true, _ :: rest => skipChars true rest
  | false, c :: rest =>
    if c = ' ' ∨ c = '\n' then skipChars false rest
    else if c = '#' then skipChars true rest
    else if c = '\t' then none
    else some (c :: rest)

/-- The place of the next token. -/
def skip (p : Place) : Option Place := (skipChars false p.rest).map p.moveTo

/-- The place after blanks on the same line. -/
def skipSpaces (p : Place) : Place := p.moveTo (p.rest.dropWhile (· == ' '))

end Place

/-- Whether a character ends a word: a blank or a line end. -/
def isBreak (c : Char) : Bool := c == ' ' || c == '\t' || c == '\n'

/-- Whether a text begins with a blank or is over. -/
def beginsBlank : List Char → Bool
  | [] => true
  | c :: _ => isBreak c

/-- Whether a text begins with a sign that stands for itself. -/
def beginsSign (sign : Char) : List Char → Bool
  | c :: rest => c = sign && beginsBlank rest
  | [] => false

/-- The characters that separate the items of flow collections. -/
def isFlowSign (c : Char) : Bool := c == ',' || c == '[' || c == ']' || c == '\x7b' || c == '\x7d'

/-! ## Scalars without quotes -/

/-- Whether a scalar without quotes can begin here. -/
def beginsPlain (inFlow : Bool) : List Char → Bool
  | c :: rest =>
    !("\t\n -?:,[]\x7b\x7d#&*!|>'\"%@\x60".toList.contains c) ||
      (!beginsBlank rest && (c = '-' || (!inFlow && (c = '?' || c = ':'))))
  | [] => false

/-- Whether a scalar without quotes goes on with a colon before a text. -/
def colonGoesOn (inFlow : Bool) : List Char → Bool
  | [] => false
  | c :: _ => !isBreak c && !(inFlow && isFlowSign c)

/-- A run of characters of a scalar without quotes, and what is left. -/
def plainRun (inFlow : Bool) : List Char → List Char × List Char
  | [] => ([], [])
  | c :: rest =>
    if isBreak c || (c = ':' && !colonGoesOn inFlow rest) ||
        (inFlow && (isFlowSign c || c = '?')) then ([], c :: rest)
    else
      let (run, after) := plainRun inFlow rest
      (c :: run, after)

/-- Passes blanks and line ends, and counts the line ends. -/
def passBreaks (isBlank : Char → Bool) : List Char → Nat × List Char
  | [] => (0, [])
  | c :: rest =>
    if c = '\n' then
      let (n, after) := passBreaks isBlank rest
      (n + 1, after)
    else if isBlank c then passBreaks isBlank rest
    else (0, c :: rest)

/-- What line ends between two lines of a scalar stand for: a single one for a blank, and more of them
for one less. -/
def folded (count : Nat) : List Char :=
  if count ≤ 1 then [' '] else List.replicate (count - 1) '\n'

/-- A scalar with its text, the place after it, and whether it is on one line. -/
structure Scalar where
  text : List Char
  after : Place
  isOneLine : Bool

/-- Further runs of a scalar without quotes. Its lines have to be indented deeper than `depth`. -/
def plainFrom (inFlow : Bool) (depth : Int) : Nat → List Char → Bool → Place → Scalar
  | 0, acc, one, p => ⟨acc, p, one⟩
  | fuel + 1, acc, one, p =>
    let spaces := p.rest.takeWhile (· == ' ')
    let q := p.skipSpaces
    let (gap, q, one) := match q.rest with
      | '\n' :: _ =>
        let (n, after) := passBreaks (· == ' ') q.rest
        (folded n, q.moveTo after, false)
      | _ => (spaces, q, one)
    let isDeep := inFlow || !q.isFresh || depth < q.column
    let (run, after) := plainRun inFlow q.rest
    if gap.isEmpty || q.rest.head? = some '#' || !isDeep || run.isEmpty then ⟨acc, q, one⟩
    else plainFrom inFlow depth fuel (acc ++ gap ++ run) one (q.moveTo after)

/-- A scalar without quotes. -/
def plain (inFlow : Bool) (depth : Int) (p : Place) : Scalar :=
  let (run, after) := plainRun inFlow p.rest
  plainFrom inFlow depth p.rest.length run true (p.moveTo after)

/-! ## Scalars in quotes -/

/-- The characters that escapes of one letter stand for. -/
def letterEscapes : List (Char × Char) :=
  [('0', '\x00'), ('a', '\x07'), ('b', '\x08'), ('t', '\t'), ('\t', '\t'), ('n', '\n'),
    ('v', '\x0b'), ('f', '\x0c'), ('r', '\x0d'), ('e', '\x1b'), (' ', ' '), ('"', '"'),
    ('\\', '\\'), ('/', '/'), ('N', '\u0085'), ('_', '\u00a0'), ('L', '\u2028'), ('P', '\u2029')]

/-- How many digits follow the letter of an escape by number. -/
def numberEscapes : List (Char × Nat) := [('x', 2), ('u', 4), ('U', 8)]

/-- The number of some hexadecimal digits. -/
def hexNumber? (cs : List Char) : Option Nat :=
  cs.foldlM (fun n c => (Json.hexDigit? c).map fun d => 16 * n + d) 0

/-- What an escape stands for, and what is left after it. An escaped line end stands for nothing. -/
def escape? : List Char → Option (List Char × List Char)
  | [] => none
  | '\n' :: rest =>
    let (n, after) := passBreaks (fun c => c == ' ' || c == '\t') rest
    some (List.replicate n '\n', after)
  | c :: rest =>
    match letterEscapes.lookup c, numberEscapes.lookup c with
    | some d, _ => some ([d], rest)
    | none, some width =>
      if width ≤ rest.length then
        (hexNumber? (rest.take width)).map fun n => ([Char.ofNat n], rest.drop width)
      else none
    | none, none => none

/-- The text of a scalar up to its closing quote, and what is left after it. Blanks around line ends
do not count. -/
def quotedFrom (quote : Char) : Nat → List Char → List Char → Option (List Char × List Char)
  | 0, _, _ => none
  | fuel + 1, acc, cs =>
    match cs with
    | [] => none
    | c :: rest =>
      if c = quote then
        match rest with
        | d :: after =>
          if quote = '\'' ∧ d = quote then quotedFrom quote fuel (acc ++ [quote]) after
          else some (acc, rest)
        | [] => some (acc, [])
      else if c = '\\' ∧ quote = '"' then
        match escape? rest with
        | some (text, after) => quotedFrom quote fuel (acc ++ text) after
        | none => none
      else if isBreak c then
        let blanks := cs.takeWhile fun d => d == ' ' || d == '\t'
        let after := cs.drop blanks.length
        match after with
        | '\n' :: _ =>
          let (n, after) := passBreaks (fun d => d == ' ' || d == '\t') after
          quotedFrom quote fuel (acc ++ folded n) after
        | _ => quotedFrom quote fuel (acc ++ blanks) after
      else quotedFrom quote fuel (acc ++ [c]) rest

/-- A scalar in quotes. -/
def quotedScalar (quote : Char) (p : Place) : Option Scalar := do
  let (text, rest) ← quotedFrom quote (p.rest.length + 1) [] (p.rest.drop 1)
  let passed := p.rest.take (p.rest.length - rest.length)
  return ⟨text, p.moveTo rest, !passed.contains '\n'⟩

/-! ## Blocks of text -/

/-- How the line ends after a block of text are kept: none, one, or all. -/
inductive Chomping where
  | strip
  | clip
  | keep
  deriving DecidableEq

/-- The head of a block of text: what happens to its last line ends, and how deep it is indented. -/
def blockHead : Nat → Chomping × Option Nat → List Char → Option ((Chomping × Option Nat) × List Char)
  | 0, head, cs => some (head, cs)
  | fuel + 1, (chomping, depth), cs =>
    match cs with
    | '-' :: rest => blockHead fuel (.strip, depth) rest
    | '+' :: rest => blockHead fuel (.keep, depth) rest
    | c :: rest =>
      match Text.asciiDigit? c with
      | some 0 => none
      | some n => blockHead fuel (chomping, some n) rest
      | none => some ((chomping, depth), cs)
    | [] => some ((chomping, depth), [])

/-- Whether a line holds nothing but blanks, and no more of them than a depth. -/
def isBlankLine (depth : Nat) (line : List Char) : Bool :=
  line.length ≤ depth && line.all (· == ' ')

/-- The lines of a block of text that is indented to a depth, and the lines after it. -/
def blockLines (depth : Nat) : List (List Char) → List (List Char) × List (List Char)
  | [] => ([], [])
  | line :: rest =>
    if isBlankLine depth line || (line.take depth).all (· == ' ') && depth ≤ line.length then
      let (block, after) := blockLines depth rest
      (line.drop depth :: block, after)
    else ([], line :: rest)

/-- Whether a line of a block begins with a blank. -/
def isIndented (line : List Char) : Bool :=
  match line with
  | c :: _ => c == ' ' || c == '\t'
  | [] => false

/-- The text of a block's lines that hold something, with what stands between them. A single line end
between two lines that are not indented counts as a blank in a folded block. -/
def blockText (isFolded : Bool) : List (List Char) → List Char
  | [] => []
  | [line] => line
  | line :: rest =>
    let empty := (rest.takeWhile List.isEmpty).length
    let next := (rest.drop empty).headD []
    let joins := isFolded && !isIndented line && !isIndented next && !line.isEmpty
    let gap := if joins then (if empty = 0 then [' '] else []) else ['\n']
    line ++ gap ++ blockText isFolded rest

/-- Drops the empty lines at the end, and counts them. -/
def dropEmptyLines (lines : List (List Char)) : List (List Char) × Nat :=
  let kept := (lines.reverse.dropWhile List.isEmpty).reverse
  (kept, lines.length - kept.length)

/-- The lines of a text. -/
def splitLines : List Char → List (List Char)
  | [] => [[]]
  | c :: rest =>
    match splitLines rest with
    | line :: lines => if c = '\n' then [] :: line :: lines else (c :: line) :: lines
    | [] => [[c]]

/-- Lines as a text. -/
def joinLines (lines : List (List Char)) : List Char := ['\n'].intercalate lines

/-- A block of text after its sign. -/
def blockScalar (isFolded : Bool) (depth : Int) (p : Place) : Option (Node × Place) := do
  let ((chomping, given), rest) ← blockHead 2 (.clip, none) (p.rest.drop 1)
  let rest := rest.dropWhile (· == ' ')
  let rest := if rest.head? = some '#' then rest.dropWhile (· ≠ '\n') else rest
  let body ← match rest with
    | [] => some []
    | '\n' :: body => some body
    | _ => none
  let lines := splitLines body
  let least := max (depth + 1).toNat 1
  let blank := lines.takeWhile fun l => l.all (· == ' ')
  let first := ((lines.drop blank.length).headD []).takeWhile (· == ' ')
  let usual := (blank.map List.length).foldl max (max least first.length)
  let indent := match given with
    | some n => least + n - 1
    | none => usual
  let (block, after) := blockLines indent lines
  let (kept, empty) := dropEmptyLines block
  -- where lines follow, every line of the block has ended; else the last one may not have
  let ends := if after.isEmpty then empty - 1 else empty
  let closed := if after.isEmpty && empty = 0 then 0 else 1
  let tail := match chomping with
    | .strip => 0
    | .clip => if kept.isEmpty then 0 else closed
    | .keep => if kept.isEmpty then ends else closed + ends
  let text := blockText isFolded kept ++ List.replicate tail '\n'
  return (.text (String.ofList text), p.moveTo (joinLines after))

/-! ## Nodes -/

/-- The node of a scalar without quotes. -/
def Scalar.node? (s : Scalar) : Option Node := Node.ofPlain (String.ofList s.text)

/-- A node on its own, the place after it, and whether it is on one line. -/
structure Part where
  node : Node
  after : Place
  isOneLine : Bool

/-- A node in quotes or without. -/
def scalarPart (inFlow : Bool) (depth : Int) (p : Place) : Option Part :=
  match p.rest with
  | '\'' :: _ | '"' :: _ => do
    let s ← quotedScalar (p.rest.headD '"') p
    return ⟨.text (String.ofList s.text), s.after, s.isOneLine⟩
  | cs =>
    if beginsPlain inFlow cs then do
      let s := plain inFlow depth p
      return ⟨← s.node?, s.after, s.isOneLine⟩
    else none

/-- Whether a part is the key of an entry: a scalar on one line with a colon after it. -/
def Part.isEntryKey (inFlow : Bool) (part : Part) : Bool :=
  part.isOneLine && part.node.isKey &&
    (if inFlow then part.after.skipSpaces.rest.head? = some ':'
    else beginsSign ':' part.after.skipSpaces.rest)

/-- The place after a key and its colon. -/
def Part.afterColon (part : Part) : Place := part.after.skipSpaces.next

/-! ### Flow collections -/

/-- Whether a flow collection's entry is over. -/
def endsEntry (p : Place) : Bool :=
  match p.rest with
  | ',' :: _ | ']' :: _ | '\x7d' :: _ => true
  | _ => false

mutual

/-- A node inside a flow collection, or one itself. -/
def flowPart : Nat → Place → Option Part
  | 0, _ => none
  | fuel + 1, p =>
    match p.rest with
    | '[' :: _ => do
      let (items, after) ← flowItems fuel [] p.next
      return ⟨.list items, after, false⟩
    | '\x7b' :: _ => do
      let (entries, after) ← flowEntries fuel [] p.next
      return ⟨.ofEntries entries, after, false⟩
    | _ => scalarPart true 0 p

/-- The value of an entry after its colon, if there is one. -/
def flowValue : Nat → Place → Option (Node × Place)
  | 0, _ => none
  | fuel + 1, p => do
    let p ← p.skip
    if endsEntry p then return (.null, p)
    else
      let part ← flowPart fuel p
      return (part.node, ← part.after.skip)

/-- A key with its value; a key alone has none. -/
def flowEntry : Nat → Place → Option ((Node × Node) × Bool × Place)
  | 0, _ => none
  | fuel + 1, p => do
    match p.rest with
    | ':' :: _ =>
      let (value, after) ← flowValue fuel p.next
      return ((.null, value), true, after)
    | _ =>
      let part ← flowPart fuel p
      if part.isEntryKey true then
        let (value, after) ← flowValue fuel part.afterColon
        return ((part.node, value), true, after)
      else return ((part.node, .null), false, ← part.after.skip)

/-- The items of a list up to its end; `acc` holds those before, last first. -/
def flowItems : Nat → List Node → Place → Option (List Node × Place)
  | 0, _, _ => none
  | fuel + 1, acc, p => do
    let p ← p.skip
    match p.rest with
    | ']' :: _ => return (acc.reverse, p.next)
    | _ =>
      let ((key, value), isEntry, p) ← flowEntry fuel p
      let acc := (if isEntry then .map [(key, value)] else key) :: acc
      match p.rest with
      | ',' :: _ => flowItems fuel acc p.next
      | ']' :: _ => return (acc.reverse, p.next)
      | _ => none

/-- The entries of a map up to its end; `acc` holds those before, last first. -/
def flowEntries : Nat → List (Node × Node) → Place → Option (List (Node × Node) × Place)
  | 0, _, _ => none
  | fuel + 1, acc, p => do
    let p ← p.skip
    match p.rest with
    | '\x7d' :: _ => return (acc.reverse, p.next)
    | _ =>
      let (entry, _, p) ← flowEntry fuel p
      if !entry.1.isKey then none
      else match p.rest with
        | ',' :: _ => flowEntries fuel (entry :: acc) p.next
        | '\x7d' :: _ => return ((entry :: acc).reverse, p.next)
        | _ => none

end

/-! ### Block collections -/

/-- Whether a list item begins here. -/
def Place.beginsItem (p : Place) : Bool := beginsSign '-' p.rest

mutual

/-- A node below a collection that is indented to `depth`; `mayOpen` tells whether a block collection
may begin here. Afterwards the place is that of the next token. -/
def blockNode : Nat → Int → Bool → Place → Option (Node × Place)
  | 0, _, _, _ => none
  | fuel + 1, depth, mayOpen, p =>
    if p.beginsItem then
      if mayOpen then (blockItems fuel p.column false [] p).map fun (items, p) => (.list items, p)
      else none
    else match p.rest with
      | '|' :: _ => do
        let (node, after) ← blockScalar false depth p
        return (node, ← after.skip)
      | '>' :: _ => do
        let (node, after) ← blockScalar true depth p
        return (node, ← after.skip)
      | c :: _ => do
        let part ← if c = '[' ∨ c = '\x7b' then flowPart fuel p else scalarPart false depth p
        if part.isEntryKey false then
          if mayOpen then do
            let (entries, p) ← blockEntries fuel p.column [] p
            return (.ofEntries entries, p)
          else none
        else if beginsSign ':' part.after.skipSpaces.rest then none
        else return (part.node, ← part.after.skip)
      | [] => some (.null, p)

/-- The items of a list in a column, from the sign of one on; `acc` holds those before, last first.
Below an entry of a map in the same column a list ends with the next entry. -/
def blockItems : Nat → Nat → Bool → List Node → Place → Option (List Node × Place)
  | 0, _, _, _, _ => none
  | fuel + 1, column, inEntry, acc, p => do
    let q ← p.next.skip
    let (node, q) ← if q.rest.isEmpty || (q.isFresh && q.column ≤ column) then some (Node.null, q)
      else blockNode fuel column true q
    let acc := node :: acc
    if q.rest.isEmpty then return (acc.reverse, q)
    else if !q.isFresh || column < q.column then none
    else if q.column < column then return (acc.reverse, q)
    else if q.beginsItem then blockItems fuel column inEntry acc q
    else if inEntry then return (acc.reverse, q)
    else none

/-- The entries of a map in a column, from a key on; `acc` holds those before, last first. -/
def blockEntries : Nat → Nat → List (Node × Node) → Place → Option (List (Node × Node) × Place)
  | 0, _, _, _ => none
  | fuel + 1, column, acc, p => do
    let part ← scalarPart false column p
    if !part.isEntryKey false then none
    else
      let q ← part.afterColon.skip
      let (node, q) ←
        if q.rest.isEmpty then some (Node.null, q)
        else if !q.isFresh then blockNode fuel column false q
        else if column < q.column then blockNode fuel column true q
        else if q.column = column ∧ q.beginsItem then
          (blockItems fuel column true [] q).map fun (items, q) => (.list items, q)
        else some (Node.null, q)
      let acc := (part.node, node) :: acc
      if q.rest.isEmpty then return (acc.reverse, q)
      else if !q.isFresh || column < q.column then none
      else if q.column < column then return (acc.reverse, q)
      else blockEntries fuel column acc q

end

/-! ## Documents -/

/-- Whether a line is the mark of a document. -/
def isMark (mark : Char) (line : List Char) : Bool :=
  line.take 3 == [mark, mark, mark] && beginsBlank (line.drop 3)

/-- Whether lines hold nothing but blanks and comments. -/
def isVoid (lines : List (List Char)) : Bool :=
  match Place.skipChars false (joinLines lines) with
  | some [] => true
  | _ => false

/-- The lines of the only document, and whether a block collection may begin on the first of them:
not after the mark of a document's start. -/
def documentLines (lines : List (List Char)) : Option (List (List Char) × Bool) :=
  let isAnyMark (line : List Char) : Bool := isMark '-' line || isMark '.' line
  let (before, rest) := lines.span (!isAnyMark ·)
  let (body, rest, mayOpen) :=
    match rest with
    | line :: after =>
      if isMark '-' line && isVoid before then
        let (body, rest) := after.span (!isAnyMark ·)
        let first := ' ' :: ' ' :: ' ' :: line.drop 3
        (first :: body, rest, isVoid [first])
      else (before, rest, true)
    | [] => (before, [], true)
  match rest with
  | [] => some (body, mayOpen)
  | line :: after => if isMark '.' line && isVoid (line.drop 3 :: after) then some (body, mayOpen) else none

/-- Drops the returns in front of line ends, and takes other returns for line ends. -/
def normalizeLines : List Char → List Char
  | '\r' :: '\n' :: rest => '\n' :: normalizeLines rest
  | '\r' :: rest => '\n' :: normalizeLines rest
  | c :: rest => c :: normalizeLines rest
  | [] => []

/-- Whether a character may stand in a document. -/
def isAllowed (c : Char) : Bool :=
  c == '\t' || c == '\n' || (' ' ≤ c && c ≤ '~') || c == '\u0085' ||
    ('\u00a0' ≤ c && c != '\ufffe' && c != '\uffff')

/-- Drops a byte order mark in front of a document. -/
def dropMark : List Char → List Char
  | '\ufeff' :: rest => rest
  | cs => cs

/-- The node of a document's text. -/
def readDocument (mayOpen : Bool) (cs : List Char) : Option Node := do
  let p ← Place.skip ⟨cs, 0, true⟩
  if p.rest.isEmpty then return .null
  else
    let (node, p) ← blockNode (4 * cs.length + 4) (-1) mayOpen p
    if p.rest.isEmpty then return node else none

/-- Reads a text that is at most one document; none if it is not well-formed. -/
def read (text : String) : Option Node := do
  let cs := normalizeLines (dropMark text.toList)
  if !cs.all isAllowed then none
  else
    let (lines, mayOpen) ← documentLines (splitLines cs)
    readDocument mayOpen (joinLines lines)

end SchemaOnRead.Yaml
