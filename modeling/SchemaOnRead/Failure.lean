import SchemaOnRead.Value

/-!
# Failures

Everything that can go wrong, by cause. A cause determines the kind of failure, a message and an
ordered context of labelled values; `Report.text` puts these together. A failure may gain context on
its way up, which never replaces what the cause itself says.
-/

namespace SchemaOnRead

/-- Labelled values that tell where and on what a failure happened. -/
abbrev Context := List (String × Value)

/-- The kinds of failures. The first ten are reported with a message, the others come from foreign
formats and malformed requests. -/
inductive Kind where
  | general
  | runtime
  | fileFormat
  | illegalArgument
  | unexpectedHandle
  | schemaNotFound
  | tableNotFound
  | storeFailure
  | objectNotFound
  | coercion
  | badValue
  | malformedText
  | wrongType
  | missingKey
  | missingItem
  | missingAttribute
  | overflow
  | badEncoding
  | missingFile
  | foreign
  deriving DecidableEq, Repr

/-- Whether failures of a kind gain context on their way up. -/
def Kind.isOwn : Kind → Bool
  | .general | .runtime | .fileFormat | .illegalArgument | .unexpectedHandle | .schemaNotFound
  | .tableNotFound | .storeFailure => true
  | _ => false

/-- Why a value cannot be read as a column's type. -/
inductive Mismatch where
  | notBoolean (v : Value)
  | notFinite (shown : String)
  | notIntegral (shown : String)
  | notInteger (s : String)
  | notNumber (v : Value)
  | notDecimal (s : String)
  | notText (kind : String)
  | badBase64
  | notObject (kind : String)
  | notTimestamp (v : Value)
  | notDate (v : Value)
  | numberWithPattern (format : String)
  | unreadableDate
  deriving Repr

/-- The wording of a mismatch. -/
def Mismatch.message : Mismatch → String
  | notBoolean v => s!"not a boolean: {v.quoted}"
  | notFinite shown => s!"not a finite number: {shown}"
  | notIntegral shown => s!"not an integral number: {shown}"
  | notInteger s => s!"not an integer: {Text.quote s}"
  | notNumber v => s!"not a number: {v.quoted}"
  | notDecimal s => s!"not a decimal: {Text.quote s}"
  | notText kind => s!"expected base64 text, got {kind}"
  | badBase64 => "invalid base64"
  | notObject kind => s!"expected a JSON object, got {kind}"
  | notTimestamp v => s!"not a timestamp: {v.quoted}"
  | notDate v => s!"not a date: {v.quoted}"
  | numberWithPattern format => s!"numeric value cannot be read with format [{format}]"
  | unreadableDate => "unreadable date or time"

/-- The kind, the message and the context of a failure. -/
structure Report where
  kind : Kind
  message : String
  context : Context := []
  deriving Repr

namespace Report

/-- Sets a labelled value; a label that is there keeps its place. -/
def set (r : Report) (label : String) (v : Value) : Report :=
  { r with context := Value.setField r.context label v }

/-- Adds a labelled value unless the label is there. -/
def add (r : Report) (label : String) (v : Value) : Report :=
  if (r.context.lookup label).isSome then r else { r with context := r.context ++ [(label, v)] }

/-- The lines of a context, numbered from `n`. -/
def contextLines : Nat → Context → List String
  | _, [] => []
  | n, (label, v) :: rest => s!"\t[{n}:{label}={v.shown}]" :: contextLines (n + 1) rest

/-- The message, followed by the context if there is any. -/
def text (r : Report) : String :=
  if r.context.isEmpty then r.message
  else String.intercalate "\n" (r.message :: "Exception Context:" :: contextLines 1 r.context)

/-- A message, or the usual one in the place of none or of an empty one. -/
def messageOr (usual : String) : Option String → String
  | some message => if message.isEmpty then usual else message
  | none => usual

/-- That there is no schema of a name. -/
def schemaNotFound (schema : String) (message : Option String) (context : Context) : Report :=
  ⟨.schemaNotFound, messageOr s!"Schema not found: {schema}" message, context⟩

/-- That there is no table of a name in a schema. -/
def tableNotFound (schema table : Value) (message : Option String) : Report :=
  ⟨.tableNotFound, messageOr s!"Table not found: {schema.shown}.{table.shown}" message,
    [("schema_name", schema), ("table_name", table)]⟩

/-- That a handle is not of the class that is expected; either class may be unknown. -/
def unexpectedHandle (expected actual : Option String) : Report :=
  let labelled (label : String) (name : Option String) : Context :=
    name.toList.map fun name => (label, .text name)
  ⟨.unexpectedHandle, "Unexpected class encountered",
    labelled "expected_class" expected ++ labelled "actual_class" actual⟩

end Report

/-- Why a data object holds no further record. -/
inductive BadRecord where
  | malformed (message : String)
  | notObject (kind : String)
  | tooLong (limit : Int)
  | cutOff
  | badEncoding (reason : String)
  deriving DecidableEq, Repr

/-- The wording of a record's defect. -/
def BadRecord.message : BadRecord → String
  | malformed message => message
  | notObject kind => s!"expected a JSON object, got {kind}"
  | tooLong limit => s!"record exceeds {limit} characters"
  | cutOff => "unexpected end of input"
  | badEncoding reason => s!"invalid UTF-8: {reason}"

/-- A cause of failure. -/
inductive Cause where
  -- names and definitions
  | blankTypeName (name : Value)
  | unknownTypeName (name : String)
  | columnNotObject (raw : Value)
  | fieldNotText (field : String) (raw : Value)
  | fieldBlank (field : String) (raw : String)
  | fieldMissing (field : String)
  | hiddenNotBoolean (raw : Value)
  | indexNotInteger (raw : Value)
  | unknownFileType (raw : Value)
  | partitionNotObject (raw : Value)
  | regexNotText (field : String) (raw : Value)
  | badRegex (field regex : String)
  | namesNotTexts (field : String) (raw : Value)
  | tableNotObject (raw : Value)
  | tableFieldMissing (field : String)
  | tableFieldNotText (field : String) (raw : Value)
  | blankTableName (raw : String)
  | blankRootPath (raw : String)
  | columnsNotList (raw : Value)
  | unreadableManifest (problem : String)
  | manifestNotList (kind : String)
  | duplicateTable (name : String)
  -- partitions
  | noSuchGroup (group : Int) (regex input : String) (groupCount : Nat)
  | partitionSizes (columns values : Nat)
  | regexRequired (columns : List String)
  | notSingleValue (column : String) (domain : Value)
  | notVarchar (column : String) (domain : Value)
  -- look-up
  | unknownSchema (schema : String)
  | manifestUnavailable (schema path : String)
  | tableNotFound (schema table : String)
  | noObjectsFound (schema table rootPath : String)
  | objectNotFound (path : String)
  | unexpectedHandle (expected actual : String)
  -- columns
  | noPredefinedColumns (schema table : String)
  | onlyBlankLines (path : String) (linesRead : Nat)
  | unparsableLine (path line : String)
  | lineNotObject (path kind : String)
  | unsupportedFileType (fileType table : String)
  -- records
  | badRecord (path : String) (line : Nat) (defect : BadRecord)
  | csvUnsupported (path : String)
  | decimalTooLarge (column input path : String) (line : Nat)
  | notPositioned (path state : String)
  | valueIsNull (column path : String) (line : Nat)
  | unreadableValue (type column input : String) (format : Option String) (line : Nat)
      (path : String) (mismatch : Mismatch)
  | noObjectForm (column : String) (field : Int) (type : String)
  | noSuchField (path : String) (field : Int) (count : Nat)
  | mismatch (m : Mismatch)
  -- compressed objects
  | snappyCutOff (expected : Int) (actual : Nat)
  | snappyLengthCutOff
  | xerialHeaderMissing
  | hadoopBlockCutOff (size : Int) (produced : Nat)
  -- splits and queries
  | batchSizeNotPositive (size : Int)
  | unqualifiedTable (table : String)
  | noTableReferenced (query : String)
  | unreadableTokens
  | unreadableStatement
  /-- A query that has no answer. -/
  | unanswerable
  -- configuration and requests
  | unknownStoreType (type : String)
  | missingConfig (path : String)
  | notHandleType (name : String)
  | badJson (message : String)
  /-- Something that a collaborator reports. -/
  | reported (r : Report)
  /-- Something of which only the kind is known. -/
  | other (kind : Kind)
  deriving Repr

namespace Cause

/-- The text for a schema without a directory. -/
def unknownSchemaMessage : String :=
  "No directory that maps to the configured value was found for the specified schema. Make sure " ++
  "that you have specified the schema in your configuration under 'schemas' in the " ++
  "'<schema name>: <directory>' format."

def optionalText : Option String → Value
  | some s => .text s
  | none => .null

/-- What is reported for a cause. -/
def report : Cause → Report
  | blankTypeName name =>
    ⟨.illegalArgument, "Type name must not be blank", [("type_name_as_string", name)]⟩
  | unknownTypeName name =>
    ⟨.illegalArgument, "Invalid string specified as column type",
      [("type_name_as_string", .text name)]⟩
  | columnNotObject raw =>
    ⟨.illegalArgument, "Expected column definition to be a JSON object", [("raw_value", raw)]⟩
  | fieldNotText field raw =>
    ⟨.illegalArgument, s!"Expected JSON [{field}] element to be a string",
      [("field", .text field), ("raw_value", raw)]⟩
  | fieldBlank field raw =>
    ⟨.illegalArgument, s!"Expected JSON [{field}] element to not be blank",
      [("field", .text field), ("raw_value", .text raw)]⟩
  | fieldMissing field =>
    ⟨.illegalArgument, s!"Expected JSON element [{field}] to not be null",
      [("field", .text field), ("raw_value", .null)]⟩
  | hiddenNotBoolean raw =>
    ⟨.illegalArgument, "Expected column [hidden] to be a boolean",
      [("field", .text "hidden"), ("raw_value", raw)]⟩
  | indexNotInteger raw =>
    ⟨.illegalArgument, "Expected partition column [index] to be an integer",
      [("field", .text "index"), ("raw_value", raw)]⟩
  | unknownFileType raw =>
    ⟨.illegalArgument, s!"Unsupported data file type specified [{raw.shown}]",
      [("field", .text "dataFileType"), ("raw_value", raw)]⟩
  | partitionNotObject raw =>
    ⟨.illegalArgument, "Expected partition value to be a JSON object",
      [("field", .text "partitionDefinition"), ("raw_value", raw)]⟩
  | regexNotText field raw =>
    ⟨.illegalArgument, s!"Expected [{field}] to be a textual element",
      [("field", .text field), ("raw_value", raw)]⟩
  | badRegex field regex =>
    ⟨.illegalArgument, s!"Bad regular expression passed as filter [{field}]",
      [("field", .text field), ("raw_value", .text regex)]⟩
  | namesNotTexts field raw =>
    ⟨.illegalArgument, s!"Expected [{field}] to be an array of textual values",
      [("field", .text field), ("raw_value", raw)]⟩
  | tableNotObject raw =>
    ⟨.illegalArgument, "Expected JSON source to be an object when parsing a table",
      [("raw_value", raw)]⟩
  | tableFieldMissing field =>
    ⟨.illegalArgument, s!"Expected JSON source to have [{field}] defined when parsing a table",
      [("field", .text field), ("raw_value", .null)]⟩
  | tableFieldNotText field raw =>
    ⟨.illegalArgument, s!"Expected [{field}] to be a textual element when parsing a table",
      [("field", .text field), ("raw_value", raw)]⟩
  | blankTableName raw =>
    ⟨.illegalArgument, "table name must not be blank",
      [("field", .text "name"), ("raw_value", .text raw)]⟩
  | blankRootPath raw =>
    ⟨.illegalArgument, "root path must not be blank",
      [("field", .text "rootPath"), ("raw_value", .text raw)]⟩
  | columnsNotList raw =>
    ⟨.illegalArgument, "Expected [columnConfig] to be a JSON array",
      [("field", .text "columnConfig"), ("raw_value", raw)]⟩
  | unreadableManifest problem =>
    ⟨.illegalArgument, s!"Unable to parse table manifest: {problem}", []⟩
  | manifestNotList kind =>
    ⟨.illegalArgument, "Expected table manifest to be a JSON array", [("raw_value", .text kind)]⟩
  | duplicateTable name =>
    ⟨.illegalArgument,
      "Multiple tables specified with the same name. Table names must be unique.",
      [("duplicate_table_name", .text name)]⟩
  | noSuchGroup group regex input groupCount =>
    ⟨.illegalArgument, "Illegal index value based on parsed regular expression",
      [("index", .integer group), ("regex", .text regex), ("input", .text input),
        ("group_count", .integer groupCount)]⟩
  | partitionSizes columns values =>
    ⟨.illegalArgument, "The size of the partition column list isn't equal to match values",
      [("columns", .integer columns), ("values", .integer values)]⟩
  | regexRequired columns =>
    ⟨.illegalArgument, "A partition regex is required when partition columns are constrained",
      [("columns", .list (columns.map .text))]⟩
  | notSingleValue column domain =>
    ⟨.illegalArgument, "Expected query parameter for partition to be a single value",
      [("column", .text column), ("domain", domain)]⟩
  | notVarchar column domain =>
    ⟨.illegalArgument, "Expected query parameter for partition to be a varchar",
      [("column", .text column), ("domain", domain), ("expected_type", .text "varchar"),
        ("actual_type", .text domain.kind)]⟩
  | unknownSchema schema =>
    .schemaNotFound schema (some unknownSchemaMessage)
      [("schema_name_in_brackets", .text s!"[{schema}]")]
  | manifestUnavailable schema path =>
    .schemaNotFound schema
      (some s!"Unable to read table manifest for schema {schema}: Object not found: {path}")
      [("schema_name", .text schema), ("manifest_path", .text path)]
  | tableNotFound schema table => .tableNotFound (.text schema) (.text table) none
  | noObjectsFound schema table rootPath =>
    (Report.tableNotFound (.text schema) (.text table) (some "No objects found for table")).set
      "root_path" (.text rootPath)
  | objectNotFound path => ⟨.objectNotFound, s!"Object not found: {path}", []⟩
  | unexpectedHandle expected actual => .unexpectedHandle (some expected) (some actual)
  | noPredefinedColumns schema table =>
    ⟨.illegalArgument, "Table has no predefined columns",
      [("schema_name", .text schema), ("table", .text table)]⟩
  | onlyBlankLines path linesRead =>
    ⟨.fileFormat, "Data file contains only blank lines",
      [("object_path", .text path), ("lines_read", .integer linesRead)]⟩
  | unparsableLine path line =>
    ⟨.storeFailure, "Error parsing first line of new line JSON file",
      [("object_path", .text path), ("first_line", .text line)]⟩
  | lineNotObject path kind =>
    ⟨.runtime,
      "JSON line should always be an object so that it can be converted to a columnar format",
      [("object_path", .text path), ("node_type", .text kind)]⟩
  | unsupportedFileType fileType table =>
    ⟨.fileFormat, s!"{fileType} data files are not supported",
      [("table", .text table), ("data_file_type", .text fileType)]⟩
  | badRecord path line defect =>
    ⟨.fileFormat, "Malformed JSON record",
      [("object_path", .text path), ("line_number", .integer line),
        ("reason", .text defect.message)]⟩
  | csvUnsupported path =>
    ⟨.fileFormat, "CSV data files are not supported", [("object_path", .text path)]⟩
  | decimalTooLarge column input path line =>
    ⟨.fileFormat, "Decimal value does not fit decimal(38,12)",
      [("column", .text column), ("input", .text input), ("object_path", .text path),
        ("line", .integer line)]⟩
  | notPositioned path state =>
    ⟨.runtime, "Cursor is not positioned on a record",
      [("object_path", .text path), ("state", .text state)]⟩
  | valueIsNull column path line =>
    ⟨.runtime, "Value is null; check is_null() first",
      [("column", .text column), ("object_path", .text path), ("line", .integer line)]⟩
  | unreadableValue type column input format line path m =>
    ⟨.fileFormat, s!"Unable to read value as {type}",
      [("column", .text column), ("input", .text input), ("format", optionalText format),
        ("line", .integer line), ("object_path", .text path), ("reason", .text m.message)]⟩
  | noObjectForm column field type =>
    ⟨.illegalArgument, "get_object not supported for type",
      [("column", .text column), ("field", .integer field), ("type", .text type)]⟩
  | noSuchField path field count =>
    ⟨.illegalArgument, "Invalid field number specified",
      [("object_path", .text path), ("field_number", .integer field),
        ("column_count", .integer count)]⟩
  | mismatch m => ⟨.coercion, m.message, []⟩
  | snappyCutOff expected actual =>
    ⟨.fileFormat, "Unexpected end of snappy stream while reading chunk",
      [("expected_bytes", .integer expected), ("actual_bytes", .integer actual)]⟩
  | snappyLengthCutOff => ⟨.fileFormat, "Truncated length prefix in snappy stream", []⟩
  | xerialHeaderMissing => ⟨.fileFormat, "Missing Xerial snappy stream header", []⟩
  | hadoopBlockCutOff size produced =>
    ⟨.fileFormat, "Unexpected end of Hadoop snappy block",
      [("block_size", .integer size), ("decompressed", .integer produced)]⟩
  | batchSizeNotPositive size =>
    ⟨.illegalArgument, "max_size must be positive", [("max_size", .integer size)]⟩
  | unqualifiedTable table =>
    ⟨.illegalArgument, "Table reference must be qualified with a schema name",
      [("table_name", .text table)]⟩
  | noTableReferenced query =>
    ⟨.illegalArgument, "Query does not reference any table", [("query", .text query)]⟩
  | unreadableTokens => ⟨.foreign, "A quoted text does not end", []⟩
  | unreadableStatement => ⟨.foreign, "The statement does not make sense", []⟩
  | unanswerable => ⟨.foreign, "The query has no answer", []⟩
  | unknownStoreType type => ⟨.badValue, s!"Unsupported object store type: {type}", []⟩
  | missingConfig path => ⟨.missingFile, s!"Config file not found: {path}", []⟩
  | notHandleType name => ⟨.wrongType, s!"{name} is not a handle type", []⟩
  | badJson message => ⟨.malformedText, message, []⟩
  | reported r => r
  | other kind => ⟨kind, "", []⟩

end Cause

/-- A failure: its cause, and the context it gained on its way up. -/
structure Failure where
  cause : Cause
  gained : Context := []
  deriving Repr

namespace Failure

/-- Adds context to a failure. -/
def note (f : Failure) (label : String) (v : Value) : Failure :=
  { f with gained := f.gained ++ [(label, v)] }

/-- What is reported for a failure. -/
def report (f : Failure) : Report := f.gained.foldl (fun r lv => r.add lv.1 lv.2) f.cause.report

end Failure

instance : Coe Cause Failure := ⟨fun c => ⟨c, []⟩⟩

/-- The outcome of something that may fail. -/
abbrev Result := Except Failure

/-- Fails for a cause. -/
def fail {α : Type} (c : Cause) : Result α := .error c

theorem ok_of_toOption {α : Type} {r : Result α} {a : α} (found : r.toOption = some a) : r = .ok a := by
  cases r with
  | error f => cases found
  | ok b =>
    cases found
    rfl

/-- What follows an answer has an answer only if there is the first one. -/
theorem ok_of_bind {α β : Type} {r : Result α} {f : α → Result β} {b : β}
    (found : (r >>= f) = .ok b) : ∃ a, r = .ok a ∧ f a = .ok b := by
  cases r with
  | error e => cases found
  | ok a => exact ⟨a, rfl, found⟩

end SchemaOnRead
