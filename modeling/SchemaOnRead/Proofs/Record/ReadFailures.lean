import SchemaOnRead.Proofs.Codec.WholeFrames
import SchemaOnRead.Proofs.Record.Batching
import SchemaOnRead.Proofs.Record.Coercions

/-!
# Failures of reading

That a decimal has too many digits is never noticed while an object is read: neither the store, nor the
codecs, nor the records, nor the values of columns report it (`reading_noOverflow`). It is found only
when rows are stored.
-/

namespace SchemaOnRead

/-- Whether a cause is that a decimal has too many digits. -/
def Cause.isOverflow : Cause → Bool
  | .decimalTooLarge .. => true
  | _ => false

theorem Cause.exists_of_isOverflow {c : Cause} (overflow : c.isOverflow = true) :
    ∃ name input path line, c = .decimalTooLarge name input path line := by
  unfold isOverflow at overflow
  split at overflow
  · exact ⟨_, _, _, _, rfl⟩
  · cases overflow

/-- A result that is not the failure of a decimal with too many digits. -/
inductive NoOverflow {α : Type} : Result α → Prop where
  | ok (a : α) : NoOverflow (.ok a)
  | error {f : Failure} (other : f.cause.isOverflow = false) : NoOverflow (.error f)

namespace NoOverflow

variable {α β : Type} {r : Result α}

theorem bind (first : NoOverflow r) {f : α → Result β} (next : ∀ a, NoOverflow (f a)) :
    NoOverflow (r.bind f) := by
  cases first with
  | ok a => exact next a
  | error other => exact .error other

theorem map (first : NoOverflow r) (f : α → β) : NoOverflow (r.map f) := by
  cases first with
  | ok a => exact .ok (f a)
  | error other => exact .error other

theorem mapM {read : α → Result β} {items : List α} (each : ∀ a ∈ items, NoOverflow (read a)) :
    NoOverflow (items.mapM read) := by
  cases all : items.mapM read with
  | ok answers => exact .ok answers
  | error f =>
    obtain ⟨a, member, failed⟩ := exists_of_mapM_error all
    have first := each a member
    rw [failed] at first
    cases first with
    | error other => exact .error other

theorem foldlM {next : β → α → Result β} (each : ∀ b a, NoOverflow (next b a)) (b : β)
    (items : List α) : NoOverflow (items.foldlM next b) := by
  induction items generalizing b with
  | nil => exact .ok b
  | cons a rest ih => exact (each b a).bind ih

theorem failure {f : Failure} (result : NoOverflow (.error f : Result α)) :
    f.cause.isOverflow = false := by
  cases result with
  | error other => exact other

end NoOverflow

/-! ## Values -/

namespace Coercion

theorem Ends.noOverflow {α : Type} {broken : Kind → Prop} {r : Result α} (ends : Ends broken r) :
    NoOverflow r := by
  cases ends with
  | ok a => exact .ok a
  | misfit m => exact .error rfl
  | broke how => exact .error rfl

theorem noOverflow_toDecimal (v : Value) : NoOverflow (toDecimal v) :=
  (ends_toDecimal v : Ends (fun _ => False) _).noOverflow

theorem noOverflow_toInteger (v : Value) : NoOverflow (toInteger v) :=
  (ends_toInteger v : Ends (fun _ => False) _).noOverflow

theorem noOverflow_toDouble (v : Value) : NoOverflow (toDouble v) := by
  unfold toDouble
  split
  · split
    · exact .ok _
    · exact .error rfl
  · split
    · exact .ok _
    · exact .error rfl
  · exact .ok _
  · split
    · exact .ok _
    · exact .error rfl
  · exact .error rfl

theorem noOverflow_toDoubleMap (v : Value) : NoOverflow (toDoubleMap v) := by
  unfold toDoubleMap
  cases v with
  | object fields =>
    rw [toMap_object]
    refine .mapM fun p _ => ?_
    rw [readEntry]
    split
    · exact .ok _
    · exact (noOverflow_toDouble p.2).map _
  | _ => exact .error rfl

theorem noOverflow_toMoment (s : String) (f : TemporalFormat) : NoOverflow (toMoment s f) := by
  unfold toMoment toMomentBy
  split
  · split
    · exact .error rfl
    · split
      · exact .error rfl
      · split
        · exact .ok _
        · exact .error rfl
  · split
    · exact .ok _
    · exact .error rfl

/-- Counting a unit from the start of 1970. -/
theorem noOverflow_counted (v : Value) (unit : EpochUnit) :
    NoOverflow ((toDecimal v).bind (epochMillis · unit)) :=
  (noOverflow_toDecimal v).bind fun d => (ends_epochMillis d unit).noOverflow

theorem noOverflow_toEpochMillis (f : TemporalFormat) (v : Value) :
    NoOverflow (toEpochMillis f v) := by
  unfold toEpochMillis toEpochMillisBy
  split
  · cases f with
    | unspecified => exact noOverflow_counted v _
    | epoch unit => exact noOverflow_counted v unit
    | iso8601 => exact (noOverflow_toMoment _ _).map _
    | pattern p => exact (noOverflow_toMoment _ _).map _
  · cases v with
    | text s =>
      cases f with
      | epoch unit => exact noOverflow_counted _ unit
      | unspecified => exact (noOverflow_toMoment s _).map _
      | iso8601 => exact (noOverflow_toMoment s _).map _
      | pattern p => exact (noOverflow_toMoment s _).map _
    | _ => exact .error rfl

theorem noOverflow_toEpochDays (f : TemporalFormat) (v : Value) : NoOverflow (toEpochDays f v) := by
  have days (unit : EpochUnit) : NoOverflow (do
      let millis ← epochMillis (← toDecimal v) unit
      return millis.fdiv EpochUnit.days.millis) := by
    have counted := (noOverflow_counted v unit).map fun millis => millis.fdiv EpochUnit.days.millis
    rw [map_bind] at counted
    exact counted
  unfold toEpochDays
  split
  · cases f with
    | unspecified => exact days _
    | epoch unit => exact days unit
    | iso8601 => exact (noOverflow_toMoment _ _).map _
    | pattern p => exact (noOverflow_toMoment _ _).map _
  · cases v with
    | text s =>
      cases f with
      | epoch unit =>
        cases unit with
        | days => exact noOverflow_toInteger _
        | seconds => exact days _
        | milliseconds => exact days _
      | unspecified => exact (noOverflow_toMoment s _).map _
      | iso8601 => exact (noOverflow_toMoment s _).map _
      | pattern p => exact (noOverflow_toMoment s _).map _
    | _ => exact .error rfl

theorem noOverflow_toDate (days : Int) : NoOverflow (toDate days) := by
  rcases toDate_cases days with ⟨d, read⟩ | ⟨-, broken⟩
  · rw [read]
    exact .ok d
  · rw [broken]
    exact .error rfl

end Coercion

namespace CellPlace

open Coercion

variable {p : CellPlace} {v : Value}

theorem noOverflow_coerce {α : Type} {read : Value → Result α} (each : NoOverflow (read v)) :
    NoOverflow (p.coerce read v) := by
  rw [coerce]
  generalize read v = r at each
  cases each with
  | ok a => exact .ok a
  | error other =>
    simp only
    split
    · exact .error rfl
    · exact .error other

theorem noOverflow_readInteger : NoOverflow (p.readInteger v) := by
  rw [readInteger]
  refine noOverflow_coerce ?_
  cases p.column.type with
  | timestamp => exact noOverflow_toEpochMillis _ v
  | date => exact noOverflow_toEpochDays _ v
  | _ => exact noOverflow_toInteger v

theorem noOverflow_readText : NoOverflow (p.readText v) := noOverflow_coerce (.ok _)

theorem noOverflow_read : NoOverflow (p.read v) := by
  have ends {α : Type} {read : Value → Result α} (each : Coercion.Ends (fun _ => True) (read v)) :
      NoOverflow (p.coerce read v) := noOverflow_coerce each.noOverflow
  rw [read]
  split
  · exact (ends (ends_toBoolean v)).map _
  · exact noOverflow_readInteger.map _
  · exact noOverflow_readInteger.map _
  · exact noOverflow_readInteger.map _
  · exact noOverflow_readInteger.bind fun days => (noOverflow_toDate days).bind fun d => .ok _
  · exact (noOverflow_coerce (noOverflow_toDouble v)).map _
  · exact noOverflow_readText.map _
  · exact noOverflow_readText.map _
  · exact (noOverflow_coerce (noOverflow_toDecimal v)).map _
  · exact (noOverflow_coerce (ends_toBinary v).noOverflow).map _
  · exact (ends (ends_toTextMap v)).map _
  · exact (noOverflow_coerce (noOverflow_toDoubleMap v)).map _

end CellPlace

theorem Cursor.noOverflow_getValue (c : Cursor) (field : Int) : NoOverflow (c.getValue field) := by
  have column : NoOverflow (c.column field) := by
    rw [Cursor.column]
    generalize (if field < 0 then none else c.columns[field.toNat]?) = found
    cases found with
    | some column => exact .ok column
    | none => exact .error rfl
  have raw : NoOverflow (c.raw field) := by
    refine column.bind fun column => ?_
    split
    · exact .error rfl
    · split
      · split
        · exact .ok _
        · exact .ok _
      · exact .ok _
  refine raw.bind fun found => ?_
  obtain ⟨column, v⟩ := found
  simp only
  split
  · exact .ok _
  · exact CellPlace.noOverflow_read.bind fun cell => .ok _

/-! ## Contents -/

/-- A failure, if there is one, that is not that of a decimal with too many digits. -/
def EndsOtherwise (failure : Option Failure) : Prop :=
  ∀ f, failure = some f → f.cause.isOverflow = false

theorem EndsOtherwise.none : EndsOtherwise none := by
  intro f fails
  cases fails

theorem EndsOtherwise.some {f : Failure} (other : f.cause.isOverflow = false) :
    EndsOtherwise (some f) := by
  rintro g ⟨⟩
  exact other

namespace Snappy

variable {decode : List UInt8 → Option (List UInt8)}

theorem noOverflow_chunkBytes (length : Int) (bs : List UInt8) : NoOverflow (chunkBytes length bs) := by
  rw [chunkBytes]
  split
  · exact .error rfl
  · split
    · exact .ok _
    · exact .ok _

theorem noOverflow_chunk (length : Int) (bs : List UInt8) : NoOverflow (chunk decode length bs) := by
  refine (noOverflow_chunkBytes length bs).bind fun data => ?_
  split
  · exact .error rfl
  · split
    · exact .ok _
    · exact .error rfl

theorem endsOtherwise_xerialChunks (bs : List UInt8) :
    EndsOtherwise (xerialChunks decode bs).failure := by
  fun_induction xerialChunks decode bs with
  | case1 => exact .none
  | case2 a b c d rest length f failed =>
    have result : NoOverflow (chunk decode length rest) := noOverflow_chunk length rest
    rw [failed] at result
    exact .some result.failure
  | case3 a b c d rest length contents read ih => exact ih
  | case4 => exact .some rfl

theorem endsOtherwise_hadoopBlocks (block : OpenBlock) (bs : List UInt8) :
    EndsOtherwise (hadoopBlocks decode block bs).failure := by
  fun_induction hadoopBlocks decode block bs with
  | case1 => exact .some rfl
  | case2 => exact .none
  | case3 block a b c d rest length short f failed =>
    have result : NoOverflow (chunk decode length rest) := noOverflow_chunk length rest
    rw [failed] at result
    exact .some result.failure
  | case4 block a b c d rest length short contents read ih => exact ih
  | case5 block a b c d rest length done ih => exact ih
  | case6 => exact .some rfl

end Snappy

theorem Contents.endsOtherwise_ofObject (path : String) (bs : List UInt8) :
    EndsOtherwise (Contents.ofObject path bs).failure := by
  have decoded (d : Decoded) : EndsOtherwise (ofDecoded d).failure := by
    rw [ofDecoded]
    split
    · exact .none
    · exact .some rfl
  rw [ofObject]
  split
  · rename_i c _
    cases c with
    | bzip2 => exact decoded _
    | gzip => exact decoded _
    | xz => exact decoded _
    | lz4 => exact decoded _
    | xerialSnappy =>
      rw [decompress, ofFrames, Snappy.xerial]
      split
      · exact Snappy.endsOtherwise_xerialChunks _
      · exact .some rfl
    | hadoopSnappy => exact Snappy.endsOtherwise_hadoopBlocks _ _
  · exact .none

/-! ## Records -/

/-- Lines that stop because the contents fail, stop as these do. -/
theorem Lines.failure_of_ofChunks {lossy : Bool} {failure : Option Failure} {bytesRead : Nat}
    {remainder : List Char} {pending : List UInt8} {chunks : List (List UInt8)} {f : Failure}
    (stops : (ofChunks lossy failure bytesRead remainder pending chunks).stop = some (.failed f)) :
    failure = some f := by
  induction chunks generalizing bytesRead remainder pending with
  | nil =>
    cases failure with
    | some g =>
      cases stops
      rfl
    | none =>
      simp only [ofChunks, last] at stops
      split at stops
      · cases stops
      · cases stops
  | cons chunk rest ih =>
    rw [ofChunks] at stops
    simp only at stops
    split at stops
    · cases stops
    · exact ih stops

namespace Records

theorem noOverflow_drain (path : String) (fuel : Nat) (b : Buffer) :
    NoOverflow (drain path fuel b).rest := by
  induction fuel generalizing b with
  | zero => exact .ok b
  | succ fuel ih =>
    rw [drain]
    split
    · exact .ok b
    · simp only
      split
      · exact .ok _
      · split
        · split
          · exact .ok _
          · exact .error rfl
        · exact .error rfl
        · exact .error rfl
        · exact ih _
        · exact .error rfl

theorem noOverflow_within (path : String) (limit : Int) (b : Buffer) :
    NoOverflow (b.within path limit) := by
  rw [Buffer.within]
  split
  · exact .error rfl
  · exact .ok b

theorem endsOtherwise_ofLinesFrom (path : String) (limit : Int) {ls : Lines}
    (stops : ∀ f, ls.stop = some (.failed f) → f.cause.isOverflow = false) (count : Nat) (b : Buffer)
    (lines : List Line) : EndsOtherwise (ofLinesFrom path limit ls count b lines).failure := by
  induction lines generalizing count b with
  | nil =>
    rw [ofLinesFrom, ending]
    cases stop : ls.stop with
    | none =>
      simp only
      split
      · exact .none
      · exact .some rfl
    | some stop' =>
      cases stop' with
      | failed f => exact .some (stops f stop)
      | notText fault => exact .some rfl
  | cons l rest ih =>
    rw [ofLinesFrom]
    simp only
    split
    · exact ih _ _
    · rename_i next _
      have result := (noOverflow_drain path (next.text.length + 1) next).bind
        fun b => noOverflow_within path limit b
      split
      · rename_i f failed
        rw [failed] at result
        exact .some result.failure
      · exact ih _ _

theorem endsOtherwise_ofContents (path : String) (limit : Int) {c : Contents}
    (other : EndsOtherwise c.failure) : EndsOtherwise (ofContents path limit c).failure :=
  endsOtherwise_ofLinesFrom path limit (fun f stops => other f (Lines.failure_of_ofChunks stops)) 0 {} _

end Records

/-! ## Objects -/

theorem Store.noOverflow_read (s : Store) (path : String) : NoOverflow (s.read path) := by
  have located : NoOverflow (s.locate path) := by
    rw [locate]
    split
    · exact .error rfl
    · dsimp only
      split
      · exact .ok _
      · exact .error rfl
  have found : NoOverflow (s.find path) := by
    refine located.bind fun names => ?_
    split
    · exact .ok _
    · exact .error rfl
  refine found.bind fun t => ?_
  cases t with
  | file bytes => exact .ok bytes
  | directory entries => exact .error rfl

theorem PartitionDefinition.noOverflow_values (d : PartitionDefinition) (path : String) :
    NoOverflow (d.values path) := by
  have level (r : Option PathRegex) (names candidates : List String) (values : Values) :
      NoOverflow (addLevel path r names candidates values) := by
    cases r with
    | none => exact .ok values
    | some r =>
      simp only [addLevel]
      split
      · refine .foldlM (fun values column => ?_) values _
        obtain ⟨name, i⟩ := column
        simp only
        split
        · exact .error rfl
        · exact .ok _
      · exact .ok _
  exact (level _ _ _ _).bind fun values => level _ _ _ values

namespace RecordSet

theorem noOverflow_cursor (r : RecordSet) : NoOverflow r.cursor := by
  have none : NoOverflow (.ok [] : Result PartitionDefinition.Values) := .ok []
  unfold cursor Cursor.of
  split
  · split
    · exact (PartitionDefinition.noOverflow_values _ _).bind fun values => .ok _
    · exact none.bind fun values => .ok _
  · exact none.bind fun values => .ok _

theorem endsOtherwise_readRows {start : Cursor} {failure : Option Failure}
    (other : EndsOtherwise failure) (records : List Record) :
    EndsOtherwise (readRows start failure records).failure := by
  induction records with
  | nil => exact other
  | cons r later ih =>
    have result : NoOverflow (row (start.on r)) :=
      .mapM fun i _ => Cursor.noOverflow_getValue (start.on r) i
    rw [readRows]
    cases read : row (start.on r) with
    | ok cells => exact ih
    | error f =>
      rw [read] at result
      exact .some result.failure

/-- While an object is read, no decimal is found to have too many digits. -/
theorem reading_noOverflow (s : Store) (r : RecordSet) : EndsOtherwise (r.reading s).failure := by
  have made := noOverflow_cursor r
  rw [reading]
  generalize r.cursor = cursor at made
  cases made with
  | error other => exact .some other
  | ok start =>
    have opened : NoOverflow (Cursor.openObject s start.path start.limit) :=
      (Store.noOverflow_read s start.path).bind fun bytes => .ok _
    simp only
    cases object : Cursor.openObject s start.path start.limit with
    | error f =>
      rw [object] at opened
      exact .some opened.failure
    | ok rs =>
      obtain ⟨bytes, -, same⟩ := Cursor.openObject_eq_ok object
      have records : EndsOtherwise rs.failure := by
        rw [same]
        exact Records.endsOtherwise_ofContents _ _ (Contents.endsOtherwise_ofObject _ _)
      exact endsOtherwise_readRows records rs.records

end RecordSet

end SchemaOnRead
