import SchemaOnRead.Json.Reader
import SchemaOnRead.Record.Line

/-!
# Records of an object

The records of an object are JSON objects separated by white space, usually one a line; one may also
span lines, and a line may hold several. The text is decoded line by line: what is not complete yet
is kept in a buffer until the next line. `Records.ofContents` gives the records that can be read with
their line numbers, and the failure that ends them if there is one.
-/

namespace SchemaOnRead

/-- A record: the line it begins on, its fields, and how many bytes of the object have been read
when it is available. -/
structure Record where
  line : Nat
  fields : Value.Fields
  bytesRead : Nat

/-- The records that can be read, the failure that ends them if there is one, and the number of
bytes read in all. -/
structure Records where
  records : List Record
  failure : Option Failure := none
  bytesRead : Nat

namespace Records

/-- The greatest length of a record unless another one is set. -/
def defaultLimit : Int := 16 * 1024 * 1024

/-- Text that has been read and not decoded yet, and the line on which it begins. -/
structure Buffer where
  text : List Char := []
  line : Nat := 1

/-- What decoding a buffer gave: numbered objects, and the text left over or a failure. -/
structure Drained where
  found : List (Nat × Value.Fields)
  rest : Except Failure Buffer

/-- Puts an object in front. -/
def Drained.cons (line : Nat) (fields : Value.Fields) (d : Drained) : Drained :=
  { d with found := (line, fields) :: d.found }

def malformed (path : String) (line : Nat) (defect : BadRecord) : Failure :=
  Failure.mk (.badRecord path line defect) []

/-- Whether a problem found with `remaining` characters left of a text is due to its end: nothing but
blanks follows. -/
def atEnd (text : List Char) (remaining : Nat) : Bool :=
  (Text.stripRight text).length + remaining ≤ text.length

/-- Decodes objects from a buffer as long as there are complete ones. -/
def drain (path : String) : Nat → Buffer → Drained
  | 0, b => ⟨[], .ok b⟩
  | fuel + 1, b =>
    if b.text.isEmpty then ⟨[], .ok b⟩
    else
      let text := Text.stripLeft b.text
      if text.isEmpty then ⟨[], .ok { b with text := [] }⟩
      else
        let line := b.line + (b.text.take (b.text.length - text.length)).count '\n'
        match Json.value text with
        | .error (.malformed problem remaining) =>
          if atEnd text remaining then ⟨[], .ok ⟨text, line⟩⟩
          else ⟨[], .error (malformed path line (.malformed problem.message))⟩
        | .error .exponentOutOfRange => ⟨[], .error (Failure.mk (.other .foreign) [])⟩
        | .error .tooManyDigits => ⟨[], .error (Failure.mk (.other .badValue) [])⟩
        | .ok (.object fields, rest) =>
          let passed := (text.take (text.length - rest.length)).count '\n'
          (drain path fuel ⟨rest, line + passed⟩).cons line fields
        | .ok (v, _) => ⟨[], .error (malformed path line (.notObject v.kind))⟩

/-- Takes a line into a buffer. A blank line is passed over while the buffer is empty: there is
nothing to decode then. -/
def Buffer.add (b : Buffer) (number : Nat) (text : List Char) : Option Buffer :=
  if b.text.isEmpty then if text.all Text.isBlank then none else some ⟨text, number⟩
  else some { b with text := b.text ++ text }

/-- Refuses a buffer that is longer than a record may be. -/
def Buffer.within (path : String) (limit : Int) (b : Buffer) : Except Failure Buffer :=
  if limit < b.text.length then .error (malformed path b.line (.tooLong limit)) else .ok b

/-- Puts the objects of a line in front. -/
def prepend (found : List (Nat × Value.Fields)) (bytesRead : Nat) (rs : Records) : Records :=
  { rs with records := found.map (fun (line, fields) => ⟨line, fields, bytesRead⟩) ++ rs.records }

/-- The failure of an object whose lines stop after `count` of them. -/
def stopFailure (path : String) (count : Nat) : LineStop → Failure
  | .failed f => f
  | .notText fault => malformed path (count + 1) (.badEncoding fault.message)

/-- The end of the records when `count` lines have been read. -/
def ending (path : String) (ls : Lines) (count : Nat) (b : Buffer) : Records :=
  let failure := match ls.stop with
    | some stop => some (stopFailure path count stop)
    | none => if b.text.all Text.isBlank then none else some (malformed path b.line .cutOff)
  ⟨[], failure, ls.bytesRead⟩

/-- The records of lines, of which `count` have been read. -/
def ofLinesFrom (path : String) (limit : Int) (ls : Lines) : Nat → Buffer → List Line → Records
  | count, b, [] => ending path ls count b
  | count, b, l :: rest =>
    let count := count + 1
    match b.add count l.text with
    | none => ofLinesFrom path limit ls count b rest
    | some b =>
      let d := drain path (b.text.length + 1) b
      match d.rest.bind (Buffer.within path limit) with
      | .error f => prepend d.found l.bytesRead ⟨[], some f, l.bytesRead⟩
      | .ok b => prepend d.found l.bytesRead (ofLinesFrom path limit ls count b rest)

/-- The records of an object with a path and contents. -/
def ofContents (path : String) (limit : Int) (c : Contents) : Records :=
  let ls := Lines.ofContents false c
  ofLinesFrom path limit ls 0 {} ls.lines

end Records

end SchemaOnRead
