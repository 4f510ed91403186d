import SnapshotSql.Proofs.DeleteEffects
import SnapshotSql.Proofs.UpdateEffects

/-! # Keys hold in every reachable snapshot

Each transition keeps the key constraints of all tables. An INSERT has checked the rows of its table,
an UPDATE those of the tables it touches. A DELETE checks nothing: it leaves out rows and sets columns
to null that CREATE TABLE has found to be outside of the primary key and not NOT NULL.
-/
namespace SnapshotSql

namespace Database

variable {database before after : Database} {table : Text}

/-! ## The rows after a transition -/

/-- Two snapshots are alike but for the table under one name. -/
structure SameElsewhere (before after : Database) (changed : Text) : Prop where
  schemas : ∀ other, other ≠ changed → after.schemas.get? other = before.schemas.get? other
  rows : ∀ other, other ≠ changed → after.tableRows other = before.tableRows other

theorem sameElsewhere_insert (active name : Text) (schema : TableSchema) (rows : List Row) :
    SameElsewhere before ⟨active, before.schemas.insert name schema, before.rows.insert name rows⟩
      name := by
  constructor
  · intro other hne
    rw [OrderedMap.get?_insert, if_neg hne]
  · intro other hne
    simp [tableRows, hne]

theorem sameElsewhere_eraseTable (erased : Text) :
    SameElsewhere before (before.eraseTable erased) erased := by
  constructor
  · intro other hne
    rw [eraseTable, OrderedMap.get?_erase, if_neg hne]
  · intro other hne
    simp [tableRows, eraseTable, OrderedMap.get?_erase, hne]

theorem tableRows_addTable (database : Database) (schema : TableSchema) :
    (database.addTable schema).tableRows schema.name = [] := by
  simp [tableRows, addTable]

/-- A DELETE leaves some of the rows of each table, with references set to null. -/
theorem rows_of_delete {limit : Int} {target : Text} {positions : List Nat} {count : Nat}
    (h : before.publish (Integrity.delete before limit target positions) = .ok (count, after))
    (table : Text) : ∃ cleared removed,
      Integrity.ClearedRows before Integrity.anyCause table (before.tableRows table) cleared ∧
      after.tableRows table = Integrity.rowsExcept cleared removed := by
  obtain ⟨scratch, hruns, rfl⟩ := publish_eq_ok.mp h
  obtain ⟨-, last, -, htrace, hrows⟩ := Integrity.trace_of_delete hruns
  refine ⟨last.rows before table, Integrity.doomed last.waves table,
    Integrity.DeleteTrace.rowsCleared htrace rfl table, ?_⟩
  rw [tableRows_commit, hrows]

/-! ## Keys -/

def KeysHold (database : Database) : Prop :=
  ∀ table schema, database.schemas.get? table = some schema →
    schema.KeysHold (database.tableRows table)

theorem keysHold_nil (schema : TableSchema) : schema.KeysHold [] :=
  ⟨nofun, nofun, fun _ => List.Pairwise.nil, fun _ _ => List.Pairwise.nil⟩

theorem keysHold_view (view : Text) (result : QueryResult) (rows : List Row) :
    (viewSchema view result).KeysHold rows := by
  refine ⟨fun _ _ => nofun, fun row _ column hcolumn hflag => ?_, fun hkey => absurd rfl hkey, nofun⟩
  obtain ⟨name, -, rfl⟩ := List.mem_map.mp hcolumn
  cases hflag

/-- If only one table is unlike before, and its keys hold, then all do. -/
theorem KeysHold.of_sameElsewhere {changed : Text} (hkeys : before.KeysHold)
    (h : SameElsewhere before after changed)
    (hchanged : ∀ schema, after.schemas.get? changed = some schema →
      schema.KeysHold (after.tableRows changed)) : after.KeysHold := by
  intro table schema hschema
  by_cases heq : table = changed
  · subst heq
    exact hchanged schema hschema
  · rw [h.schemas table heq] at hschema
    rw [h.rows table heq]
    exact hkeys table schema hschema

/-- A write leaves the schemas alone, so only the rows decide. -/
theorem keysHold_of_publish {α : Type} {write : Staging α} {answer : α}
    (h : before.publish write = .ok (answer, after))
    (hrows : ∀ table schema, before.schemas.get? table = some schema →
      schema.KeysHold (after.tableRows table)) : after.KeysHold := by
  intro table schema hschema
  rw [schemas_of_publish h] at hschema
  exact hrows table schema hschema

theorem KeysHold.insert {target : Text} {newRows inserted : List Row} (hkeys : before.KeysHold)
    (h : before.publish (Integrity.insert before target newRows) = .ok (inserted, after)) :
    after.KeysHold := by
  refine keysHold_of_publish h fun table schema hschema => ?_
  obtain ⟨scratch, hruns, rfl⟩ := publish_eq_ok.mp h
  obtain ⟨hrows, ⟨checked, hchecked, hvalid⟩, -⟩ := Integrity.of_insert hruns
  rw [tableRows_commit, hrows]
  split
  · next heq =>
    subst heq
    cases hschema.symm.trans hchecked
    exact hvalid
  · exact hkeys table schema hschema

theorem KeysHold.update {limit : Int} {target : Text} {changes : List Integrity.Change} {count : Nat}
    (hkeys : before.KeysHold) (hchanges : Integrity.ChangesOf (before.tableRows target) changes)
    (h : before.publish (Integrity.update before limit target changes) = .ok (count, after)) :
    after.KeysHold := by
  refine keysHold_of_publish h fun table schema hschema => ?_
  obtain ⟨scratch, hruns, rfl⟩ := publish_eq_ok.mp h
  rw [tableRows_commit]
  rcases Integrity.of_update hchanges hruns table with ⟨checked, hchecked, ⟨seen, hseen⟩, -⟩ | ⟨hsame, -⟩
  · cases hschema.symm.trans hchecked
    exact (SeenKeys.checked_of_ofRows hseen).keysHold
  · rw [hsame]
    exact hkeys table schema hschema

theorem KeysHold.delete {limit : Int} {target : Text} {positions : List Nat} {count : Nat}
    (hkeys : before.KeysHold) (hbuilt : before.WellBuilt)
    (h : before.publish (Integrity.delete before limit target positions) = .ok (count, after)) :
    after.KeysHold := by
  refine keysHold_of_publish h fun table schema hschema => ?_
  obtain ⟨cleared, removed, hcleared, hrows⟩ := rows_of_delete h table
  have hforeign : before.foreignKeys table = schema.foreignKeys := by
    simp only [foreignKeys, hschema]
  rw [Integrity.ClearedRows, hforeign] at hcleared
  have hkept : schema.KeysHold cleared :=
    (hkeys table schema hschema).cleared (hbuilt.schema table schema hschema) hcleared
  rw [hrows]
  exact hkept.sublist (Integrity.rowsExcept_sublist ..)

theorem Transition.keysHold (h : Transition before after) (hbuilt : before.WellBuilt)
    (hkeys : before.KeysHold) : after.KeysHold := by
  cases h with
  | @create _ schema _ _ _ =>
    refine hkeys.of_sameElsewhere (sameElsewhere_insert ..) fun declared _ => ?_
    rw [tableRows_addTable]
    exact keysHold_nil declared
  | @view view result _ =>
    refine hkeys.of_sameElsewhere (sameElsewhere_insert ..) fun schema hschema => ?_
    rw [OrderedMap.get?_insert, if_pos rfl] at hschema
    cases hschema
    exact keysHold_view ..
  | @drop erased _ =>
    refine hkeys.of_sameElsewhere (sameElsewhere_eraseTable erased) fun schema hschema => ?_
    rw [eraseTable, OrderedMap.get?_erase, if_pos rfl] at hschema
    cases hschema
  | insert h => exact hkeys.insert h
  | update hchanges h => exact hkeys.update hchanges h
  | delete h => exact hkeys.delete hbuilt h

theorem Reachable.keysHold (h : database.Reachable) : database.KeysHold :=
  h.invariant_of_wellBuilt KeysHold nofun fun _ _ hstep => hstep.keysHold

/-- In every table of a reachable snapshot no primary key and no NOT NULL column has a null, and no two
rows have the same primary key or, unless one has a null there, the same values under a UNIQUE
constraint. Only views have no primary key. -/
theorem keys_of_reachable (h : database.Reachable) {schema : TableSchema}
    (hschema : database.schemas.get? table = some schema) :
    schema.KeysHold (database.tableRows table) ∧ (schema.isView = false → schema.primaryKey ≠ []) := by
  have hkeys : database.KeysHold :=
    h.invariant_of_wellBuilt KeysHold nofun fun _ _ hstep => hstep.keysHold
  exact ⟨hkeys table schema hschema, (h.wellBuilt.schema table schema hschema).primaryKey⟩

theorem keys_of_reachable_league : ∃ schema, league.schemas.get? "team" = some schema ∧
    schema.KeysHold (league.tableRows "team") ∧ (schema.isView = false → schema.primaryKey ≠ []) := by
  have hsome : (league.schemas.get? "team").isSome = true := by decide +kernel
  obtain ⟨schema, hschema⟩ := Option.isSome_iff_exists.mp hsome
  exact ⟨schema, hschema, keys_of_reachable league_reachable hschema⟩

end Database

end SnapshotSql
