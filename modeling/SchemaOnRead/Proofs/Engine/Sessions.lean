import SchemaOnRead.Engine.Session
import SchemaOnRead.Proofs.Catalog.Registries

/-!
# Steps of sessions

The outcome of a step is its result and the engine after it. A look-up of a table gives the same
table again while the clock stands still (`outcome_table_again`).
-/

namespace SchemaOnRead

namespace Registry

/-- The tables of a schema are the same when they are looked up again at the same time. -/
theorem tables_again {s : Store} {now : Rat} {r : Registry} {schema : String} {ts : Manifest.Index}
    (found : (r.tables s now schema).1.result = .ok ts) :
    ((r.tables s now schema).2.tables s now schema).1.result = .ok ts := by
  cases current : r.current? now schema with
  | some kept =>
    have unchanged : r.tables s now schema = (.of (.ok kept), r) := by rw [tables, current]
    rw [unchanged] at found ⊢
    rw [unchanged]
    exact found
  | none =>
    cases marked : r.loading.contains schema with
    | true =>
      rw [tables_of_marked current marked] at found
      cases found
    | false =>
      rw [tables_of_unmarked current marked] at found ⊢
      rw [loadMarked_fst] at found
      -- the tables that were just read are kept, or are read once more if they are kept for no time
      rw [loadMarked_snd found, tables]
      split
      · rename_i kept current'
        simp only [current?, endLoad, keep, List.lookup_cons, beq_self_eq_true] at current'
        split at current'
        · cases current'
          rfl
        · cases current'
      · rw [if_neg (by simp [endLoad]), loadMarked_fst]
        exact found

theorem table_eq_ok {s : Store} {now : Rat} {r : Registry} {schema name : String}
    {t : LogicalTable} :
    (r.table s now schema name).1.result = .ok t ↔
      ∃ ts, (r.tables s now schema).1.result = .ok ts ∧ ts.lookup name = some t := by
  rw [table]
  refine Logged.bind_eq_ok.trans (exists_congr fun ts => and_congr_right fun _ => ?_)
  cases ts.lookup name <;> simp [Logged.of, fail]

/-- A table is the same when it is looked up again at the same time. -/
theorem table_again {s : Store} {now : Rat} {r : Registry} {schema name : String}
    {t : LogicalTable} (found : (r.table s now schema name).1.result = .ok t) :
    ((r.table s now schema name).2.table s now schema name).1.result = .ok t := by
  obtain ⟨ts, all, here⟩ := table_eq_ok.mp found
  exact table_eq_ok.mpr ⟨ts, tables_again all, here⟩

end Registry

namespace Session

/-- The result of a step and the engine after it. -/
def outcome {α : Type} (x : Session α) (e : Engine) : Result α × Engine := x.run e

variable {α β : Type}

theorem outcome_of (r : Result α) (e : Engine) : (of r).outcome e = (r, e) := by
  cases r <;> rfl

/-- A step after another goes on from the engine that the other one leaves. -/
theorem outcome_bind_of_ok {x : Session α} {f : α → Session β} {e : Engine} {a : α}
    (first : (x.outcome e).1 = .ok a) :
    (x >>= f).outcome e = (f a).outcome (x.outcome e).2 := by
  have parts : x.outcome e = (.ok a, (x.outcome e).2) := Prod.ext first rfl
  change ((ExceptT.bindCont f (x.outcome e).1 : StateM Engine (Except Failure β)) (x.outcome e).2) = _
  rw [first]
  rfl

theorem outcome_bind_of_error {x : Session α} {f : α → Session β} {e : Engine} {g : Failure}
    (first : (x.outcome e).1 = .error g) :
    (x >>= f).outcome e = (.error g, (x.outcome e).2) := by
  change ((ExceptT.bindCont f (x.outcome e).1 : StateM Engine (Except Failure β)) (x.outcome e).2) = _
  rw [first]
  rfl

theorem outcome_consult {look : Rat → Registry → Logged α × Registry} (e : Engine) :
    (consult look).outcome e =
      ((look e.clock e.registry).1.result, { e with registry := (look e.clock e.registry).2 }) := by
  change (of (look e.clock e.registry).1.result).outcome _ = _
  rw [outcome_of]

theorem outcome_table (s : Store) (h : TableHandle) (e : Engine) :
    (table s h).outcome e = ((e.registry.table s e.clock h.schemaName h.tableName).1.result,
      { e with registry := (e.registry.table s e.clock h.schemaName h.tableName).2 }) :=
  outcome_consult e

/-- A table is the same when a step looks it up again. -/
theorem outcome_table_again {s : Store} {h : TableHandle} {e : Engine} {t : LogicalTable}
    (found : ((table s h).outcome e).1 = .ok t) :
    ((table s h).outcome ((table s h).outcome e).2).1 = .ok t := by
  rw [outcome_table] at found ⊢
  rw [outcome_table]
  exact Registry.table_again found

/-- The columns of a table that is found are those that the listings give. -/
theorem outcome_columns {s : Store} {h : TableHandle} {e : Engine} {t : LogicalTable}
    (found : ((table s h).outcome e).1 = .ok t) :
    ((columns s h).outcome e).1 = (e.listings.columns s
      ((table s h).outcome e).2.registry.settings h.schemaName t).1.result := by
  have listings : ((table s h).outcome e).2.listings = e.listings := by rw [outcome_table]
  rw [columns, outcome_bind_of_ok found, ← listings]
  change ((of _).outcome _).1 = _
  rw [outcome_of]
  rfl

end Session

end SchemaOnRead
