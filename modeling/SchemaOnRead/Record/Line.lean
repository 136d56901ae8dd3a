import SchemaOnRead.Codec.Contents
import SchemaOnRead.Text.Utf8

/-!
# Lines of an object

The contents of an object as lines of text. They are read in chunks, and a chunk is decoded before
any of its lines can be used, so a failure costs the lines that are not complete before its chunk.
A line ends at a line feed, a carriage return, or both in this order.
-/

namespace SchemaOnRead

/-- A line with its end, and the number of bytes that have been read once it is complete. -/
structure Line where
  text : List Char
  bytesRead : Nat

/-- Why no further line can be read: the contents cannot be read, or they are no text. -/
inductive LineStop where
  | failed (f : Failure)
  | notText (f : Utf8.Fault)

/-- The lines that can be read, what stopped reading before the end if something did, and the number
of bytes read in all. -/
structure Lines where
  lines : List Line
  stop : Option LineStop := none
  bytesRead : Nat

namespace Lines

/-- The size of a chunk. -/
def chunkSize : Nat := 8192

/-- Chunks of a size, the last one perhaps shorter. -/
def chunks (size : Nat) : Nat → List UInt8 → List (List UInt8)
  | 0, _ => []
  | _, [] => []
  | fuel + 1, bs => bs.take size :: chunks size fuel (bs.drop size)

/-- The bytes that can be read in whole chunks: a chunk that runs into a failure is lost. -/
def readable (c : Contents) : List UInt8 :=
  match c.failure with
  | none => c.bytes
  | some _ => c.bytes.take (c.bytes.length / chunkSize * chunkSize)

/-- The complete lines of a text, and the rest after them. A carriage return at the end of the text
completes no line, because a line feed may follow; `line` is the current line, last character
first. -/
def completeFrom (line : List Char) : List Char → List (List Char) × List Char
  | [] => ([], line.reverse)
  | '\n' :: rest =>
    let (found, remainder) := completeFrom [] rest
    (('\n' :: line).reverse :: found, remainder)
  | '\r' :: '\n' :: rest =>
    let (found, remainder) := completeFrom [] rest
    (('\n' :: '\r' :: line).reverse :: found, remainder)
  | ['\r'] => ([], ('\r' :: line).reverse)
  | '\r' :: c :: rest =>
    let (found, remainder) := completeFrom [] (c :: rest)
    (('\r' :: line).reverse :: found, remainder)
  | c :: rest => completeFrom (c :: line) rest

def complete (cs : List Char) : List (List Char) × List Char := completeFrom [] cs

/-- Puts lines in front. -/
def prepend (bytesRead : Nat) (found : List (List Char)) (ls : Lines) : Lines :=
  { ls with lines := found.map (Line.mk · bytesRead) ++ ls.lines }

/-- The last lines: those of the open text once it is known to be all. -/
def last (lossy : Bool) (bytesRead : Nat) (remainder : List Char) (pending : List UInt8) : Lines :=
  let p := Utf8.finish lossy pending
  match p.fault with
  | some f => ⟨[], some (.notText f), bytesRead⟩
  | none =>
    let (found, rest) := complete (remainder ++ p.chars)
    let found := if rest.isEmpty then found else found ++ [rest]
    ⟨found.map (Line.mk · bytesRead), none, bytesRead⟩

/-- The lines of chunks. `remainder` is the text after the last complete line, and `pending` the bytes
that begin a character. -/
def ofChunks (lossy : Bool) (failure : Option Failure) (bytesRead : Nat) (remainder : List Char)
    (pending : List UInt8) : List (List UInt8) → Lines
  | [] =>
    match failure with
    | some f => ⟨[], some (.failed f), bytesRead⟩
    | none => last lossy bytesRead remainder pending
  | chunk :: rest =>
    let bytesRead := bytesRead + chunk.length
    let p := Utf8.decode lossy (pending ++ chunk)
    match p.fault with
    | some f => ⟨[], some (.notText f), bytesRead⟩
    | none =>
      let (found, remainder) := complete (remainder ++ p.chars)
      (ofChunks lossy failure bytesRead remainder p.pending rest).prepend bytesRead found

/-- The lines of contents. The lossy form replaces what is not well-formed. -/
def ofContents (lossy : Bool) (c : Contents) : Lines :=
  let bytes := readable c
  ofChunks lossy c.failure 0 [] [] (chunks chunkSize (bytes.length + 1) bytes)

/-- The first line that is not blank, among lines numbered from `count + 1`. -/
def firstFrom (path : String) (stop : Option LineStop) : Nat → List Line → Result (List Char)
  | count, [] =>
    match stop with
    | some (.failed f) => .error f
    | some (.notText _) => fail (.other .badEncoding)
    | none => fail (.onlyBlankLines path count)
  | count, l :: rest =>
    if l.text.all Text.isBlank then firstFrom path stop (count + 1) rest else .ok l.text

/-- The first line of an object that is not blank, with its end. -/
def first (path : String) (c : Contents) : Result String :=
  let ls := ofContents true c
  (firstFrom path ls.stop 0 ls.lines).map String.ofList

end Lines

end SchemaOnRead
