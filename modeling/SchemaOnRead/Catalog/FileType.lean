import SchemaOnRead.Failure
import SchemaOnRead.Storage.Compression
import SchemaOnRead.Storage.MediaType

/-!
# Data file types

The formats of data files with their extensions and media types. A file is recognised by the longest
extension its name ends with, once the extension of a compression is gone.
-/

namespace SchemaOnRead

open Text

/-- The format of a data file. -/
inductive FileType where
  | ndjson
  | telegraf
  | csv
  deriving DecidableEq, Repr

namespace FileType

def all : List FileType := [ndjson, telegraf, csv]

/-- The name of a format in manifests. -/
def name : FileType → String
  | ndjson => "NDJSON"
  | telegraf => "TELEGRAF_NDJSON"
  | csv => "CSV"

/-- The extensions of a format, the usual one first. -/
def extensions : FileType → List String
  | ndjson => ["ndjson", "json", "ldjson"]
  | telegraf => ["telegraf.json", "telegraf.ndjson"]
  | csv => ["csv"]

/-- The media types of a format, the usual one first. -/
def mediaTypes : FileType → List String
  | ndjson => ["application/x-ndjson", "application/x-json-stream", "application/json"]
  | telegraf => ["application/x-json-stream-telegraf"]
  | csv => ["text/csv", "application/csv"]

def defaultExtension (t : FileType) : String := t.extensions.headD ""
def defaultMediaType (t : FileType) : String := t.mediaTypes.headD ""

/-- The format with a name. A list or an object cannot be looked up at all. -/
def ofName (raw : Value) : Result FileType :=
  match raw with
  | .text s =>
    match all.find? (·.name == s) with
    | some t => .ok t
    | none => fail (.unknownFileType raw)
  | .list _ | .object _ => fail (.other .wrongType)
  | raw => fail (.unknownFileType raw)

/-- The format of an extension. -/
def ofExtension? (ext : String) : Option FileType :=
  all.find? (·.extensions.contains (lowercase ext))

/-- The format of a media type; its parameters do not count. -/
def ofMediaType? (contentType : Option String) : Option FileType :=
  (MediaType.essence? contentType).bind fun essence => all.find? (·.mediaTypes.contains essence)

/-- Splits a name at its last point. -/
def splitLastPoint (cs : List Char) : Option (List Char × List Char) :=
  let tail := cs.reverse.takeWhile (· ≠ '.')
  if tail.length = cs.length then none
  else some (cs.take (cs.length - tail.length - 1), tail.reverse)

/-- A name without the extension of a compression, unless nothing stands before it. -/
def dropCompression (cs : List Char) : List Char :=
  match splitLastPoint cs with
  | some (stem, ext) =>
    if !stem.isEmpty && (Compression.ofExtension? (String.ofList ext)).isSome then stem else cs
  | none => cs

/-- All formats with each of their extensions. -/
def allExtensions : List (FileType × String) := all.flatMap fun t => t.extensions.map fun e => (t, e)

/-- Whether a name ends in a point and an extension. -/
def hasExtension (cs : List Char) (ext : String) : Bool := ('.' :: ext.toList).isSuffixOf cs

/-- The format with the longest of the extensions that a name ends with; of equally long ones, the
first. -/
def longest (cs : List Char) : Option (FileType × String) :=
  allExtensions.foldl (fun best next =>
    if hasExtension cs next.2 && (best.map (·.2.length)).getD 0 < next.2.length then some next
    else best) none

/-- The format of an object, by its path. -/
def ofPath? (path : String) : Option FileType :=
  (longest (dropCompression (lower (Path.lastPart path.toList)))).map (·.1)

end FileType

end SchemaOnRead
