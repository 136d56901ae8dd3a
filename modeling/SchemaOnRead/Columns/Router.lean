import SchemaOnRead.Columns.Listing
import SchemaOnRead.Columns.Recent

/-!
# Column listings that are kept

The columns of the tables listed last are kept by schema and definition, so that a table is sampled
once. A listing that fails is not kept.
-/

namespace SchemaOnRead

/-- The listings of tables that are kept. -/
abbrev ColumnListings := Recent (String × LogicalTable) (List Column)

namespace ColumnListings

/-- How many listings are kept unless another bound is set. -/
def usualCapacity : Int := 2000

/-- The columns of a table, and what is kept afterwards. -/
def columns (s : Store) (settings : Settings) (kept : ColumnListings) (schema : String)
    (t : LogicalTable) : Logged (List Column) × ColumnListings :=
  match kept.use? (schema, t) with
  | some (cs, kept) => (.of (.ok cs), kept)
  | none =>
    let listed := t.allColumns s settings schema
    match listed.result with
    | .ok cs => (listed, kept.insert (schema, t) cs)
    | .error _ => (listed, kept)

end ColumnListings

end SchemaOnRead
