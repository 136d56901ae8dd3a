import SchemaOnRead.Engine.Query
import SchemaOnRead.Proofs.Columns.Listings
import SchemaOnRead.Proofs.Engine.Sessions
import SchemaOnRead.Proofs.Record.Cursors
import SchemaOnRead.Proofs.Sql.Constraints

/-!
# Columns that a query constrains

A query constrains only names of partition columns of the table it reads (`mem_ofSelect`). What a
cursor reads for such a name is the value that the path of the object gives, unless a column of the
table's data has the name: then the column that is listed is the one of the data
(`pushed_column_iff`).
-/

namespace SchemaOnRead

namespace Sql.Constraints

theorem mem_ofSelect {names : List String} {t : TableName} {q : Select} {c : String × String}
    (member : c ∈ ofSelect names t q) : c.1 ∈ names := by
  rw [ofSelect] at member
  split at member
  · exact (mem_ofCondition member).1
  · cases member

end Sql.Constraints

namespace Session

open Sql

/-- What is pushed for a table are names of its partition columns, and the engine is afterwards as it
is after a look-up of the table. -/
theorem outcome_pushed {s : Store} {e : Engine} {statement : Statement} {r : Reference}
    {cs : Constraints} (pushes : ((pushed s statement r).outcome e).1 = .ok cs) {c : String × String}
    (member : c ∈ cs) :
    ∃ t, ((table s r.2).outcome e).1 = .ok t ∧
      ((pushed s statement r).outcome e).2 = ((table s r.2).outcome e).2 ∧
      c.1 ∈ t.partitionColumns.map (·.name) := by
  rw [pushed] at pushes ⊢
  cases selects : statement.selectFrom? r.1 with
  | none =>
    rw [selects] at pushes
    cases pushes
    cases member
  | some q =>
    rw [selects] at pushes
    simp only at pushes ⊢
    cases found : ((table s r.2).outcome e).1 with
    | error f =>
      rw [outcome_bind_of_error found] at pushes
      cases pushes
    | ok t =>
      rw [outcome_bind_of_ok found] at pushes ⊢
      cases pushes
      exact ⟨t, rfl, rfl, Constraints.mem_ofSelect member⟩

/-- A name that a query constrains is listed for the table. All columns listed under it take their
values from paths exactly if those columns of the table's data do that have the name. While a cursor
is on a record of an object, it reads for a partition column of the name the value that the path of
the object gives, and for any other column of the name the record's field. -/
theorem pushed_column_iff {s : Store} {e : Engine} (faithful : e.listings.Faithful)
    {statement : Statement} {r : Reference} {cs : Constraints}
    (pushes : ((pushed s statement r).outcome e).1 = .ok cs) {listed : List Column}
    (lists : ((columns s r.2).outcome ((pushed s statement r).outcome e).2).1 = .ok listed)
    {n v : String} (member : (n, v) ∈ cs) :
    ∃ t d data, ((table s r.2).outcome e).1 = .ok t ∧ t.partition = some d ∧
      DataColumns r.2.schemaName t data ∧ listed = withPartitionColumns t data ∧
      (∃ c ∈ listed, c.name = n) ∧
      ((∀ c ∈ listed, c.name = n → c.isPartition = true) ↔
        ∀ c ∈ data, c.name = n → c.isPartition = true) ∧
      ∀ path totalBytes limit start cursor,
        Cursor.of path listed t.partition totalBytes limit = .ok start →
        Cursor.Reached s start cursor → cursor.state = .positioned →
        ∀ (i : Nat) c, listed[i]? = some c → c.name = n →
          if c.isPartition then ∃ vs, d.values path = .ok vs ∧
            cursor.raw i = .ok (c, Cursor.textValue (vs.lookup n).join)
          else cursor.raw i = .ok (c, Value.fieldD cursor.fields n) := by
  obtain ⟨t, found, same, named⟩ := outcome_pushed pushes member
  have partitioned : ∃ d, t.partition = some d := by
    cases none : t.partition with
    | some d => exact ⟨d, rfl⟩
    | none =>
      rw [LogicalTable.partitionColumns, none] at named
      cases named
  obtain ⟨d, partitioned⟩ := partitioned
  have unchanged : ((table s r.2).outcome e).2.listings = e.listings := by rw [outcome_table]
  rw [same, outcome_columns (outcome_table_again found), unchanged] at lists
  obtain ⟨data, ofData, rfl⟩ := (ColumnListings.columns_faithful faithful s _ _ t).2 listed lists
  refine ⟨t, d, data, found, partitioned, ofData, rfl, exists_listed data named, isPartition_listed_iff,
    fun path totalBytes limit start cursor made reached onRecord i c there called => ?_⟩
  rw [partitioned] at made
  obtain ⟨columns, valued⟩ := Cursor.of_eq_ok made
  have atField : cursor.columns[i]? = some c := by rw [reached.same.columns, columns, there]
  by_cases ofPath : c.isPartition = true
  · rw [if_pos ofPath]
    refine ⟨start.partitionValues, valued ⟨c, List.mem_of_getElem? there, ofPath⟩, ?_⟩
    rw [Cursor.raw_of_partition onRecord atField ofPath, reached.same.partitionValues, called]
  · rw [if_neg ofPath, Cursor.raw_of_data onRecord atField (eq_false_of_ne_true ofPath), called]

/-- A table whose data has a column with the name of a partition column. -/
def hostTable : LogicalTable :=
  { name := "t", rootPath := "/t", fileType := .ndjson
    partition := some
      { directoryRegex := (PathRegex.ofText "^/t/([^/]+)/").toOption.join
        directoryNames := ["host"], directoryNames_nodup := by decide }
    columns := some [{ name := "host", type := .varchar }] }

/-- An engine that knows the table. -/
def hostEngine : Engine :=
  { registry := { schemas := [("s", "/t")], kept := [("s", ⟨[("t", hostTable)], 1⟩)] } }

def hostName : Sql.TableName := { outer := ["s"], name := "t" }

/-- A select of the rows of one host. -/
def hostSelect : Statement :=
  .select { items := [.star []], source := some (.table hostName)
            filter := some (.compare .equal (.column [] "host") (.text "a")) }

/-- The name of a column of the data is constrained if a partition column has it too. -/
theorem data_column_pushed : ∃ cs listed t data,
    ((pushed {} hostSelect (hostName, ⟨"s", "t"⟩)).outcome hostEngine).1 = .ok cs ∧
    ("host", "a") ∈ cs ∧
    ((columns {} ⟨"s", "t"⟩).outcome
      ((pushed {} hostSelect (hostName, ⟨"s", "t"⟩)).outcome hostEngine).2).1 = .ok listed ∧
    DataColumns "s" t data ∧ (¬ ∀ c ∈ data, c.name = "host" → c.isPartition = true) ∧
    ¬ ∀ c ∈ listed, c.name = "host" → c.isPartition = true := by
  have pushes : ((pushed {} hostSelect (hostName, ⟨"s", "t"⟩)).outcome hostEngine).1.toOption =
      some [("host", "a")] := by decide +kernel
  have lists : ((columns {} ⟨"s", "t"⟩).outcome
      ((pushed {} hostSelect (hostName, ⟨"s", "t"⟩)).outcome hostEngine).2).1.toOption =
        some [{ name := "host", type := .varchar }] := by decide +kernel
  have member : ("host", "a") ∈ [("host", "a")] := by decide
  obtain ⟨t, -, data, -, -, ofData, -, -, exactly, -⟩ := pushed_column_iff
    (ColumnListings.faithful_empty _) (ok_of_toOption pushes) (ok_of_toOption lists) member
  have shadowed : ¬ ∀ c ∈ [({ name := "host", type := .varchar } : Column)],
      c.name = "host" → c.isPartition = true := by decide
  exact ⟨_, _, t, data, ok_of_toOption pushes, member, ok_of_toOption lists, ofData,
    fun all => shadowed (exactly.mpr all), shadowed⟩

end Session

end SchemaOnRead
