import SchemaOnRead.Failure

/-!
# Settings

What can be set for a catalog and for reading its tables, with the usual values.
-/

namespace SchemaOnRead

/-- The settings of a catalog. -/
structure Settings where
  /-- The name of the file in a schema's directory that defines its tables. -/
  manifestName : String := "object-tables.json"
  /-- The directory that the home marker at the start of a root path stands for. -/
  home : Option String := none
  /-- How many bytes of an object are read to find its first line. -/
  lineBytes : Int := 65536
  /-- For how many seconds the tables of a schema are kept. -/
  keepSeconds : Rat := 60
  /-- How many splits are asked for at a time. -/
  splitBatch : Int := 1000
  /-- Whether files whose path does not have the form of the partitions are left out under
  constraints. -/
  closedFiles : Bool := false

namespace Settings

/-- The number that a setting is. -/
def number : Value → Rat
  | .integer n => n
  | .double x => ((x.ratio?).map fun (n, d) => mkRat n d).getD 0
  | .bool true => 1
  | _ => 0

/-- The text that a setting is, if it is one. -/
def text? : Value → Option String
  | .text s => some s
  | _ => none

/-- Changes one setting by its name; a name that is no setting of a catalog changes nothing. -/
def set (s : Settings) : String × Value → Settings
  | ("manifest_filename", v) => { s with manifestName := v.shown }
  | ("home_directory", v) => { s with home := text? v }
  | ("max_bytes_per_line", v) => { s with lineBytes := (number v).num }
  | ("table_cache_ttl_seconds", v) => { s with keepSeconds := number v }
  | ("split_batch_size", v) => { s with splitBatch := (number v).num }
  | ("fail_closed_file_partitions", v) => { s with closedFiles := v != .bool false }
  | _ => s

/-- The settings that fields name; all others have their usual values. -/
def ofFields (fields : Value.Fields) : Settings := fields.foldl set {}

end Settings

end SchemaOnRead
