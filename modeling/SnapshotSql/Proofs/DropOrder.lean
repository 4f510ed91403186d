import SnapshotSql.Proofs.SchemaOrder
import SnapshotSql.Proofs.StagedChecks
import SnapshotSql.Proofs.StagedTables
import Mathlib.Data.List.Induction

/-! # Dropping all tables, the last one first

The maps of schemas and of rows list the same tables in the same order: a definition enters a table
into both, DROP takes it out of both, and a write stages tables only that have rows already. With the
order of schemas, by which references lead to earlier tables, this makes the last table of a snapshot
one that can always be dropped, and so the tables of a snapshot can be dropped from the last to the
first.
-/
namespace SnapshotSql

namespace Database

variable {database before after : Database} {table : Text} {limit : Int} {ifExists : Bool}

/-! ## Tables with a schema and with rows -/

/-- The tables with rows are those with a schema, in the same order, and the active table is one of
them. No table has an empty name, which as the active table would mean that there is none. -/
structure Paired (database : Database) : Prop where
  names : database.rows.names = database.tableNames
  named : ∀ table ∈ database.tableNames, table ≠ []
  inactive : database.tableNames = [] → database.active = []
  active : database.tableNames ≠ [] → database.active ∈ database.tableNames

theorem mem_tableNames : table ∈ database.tableNames ↔ ∃ schema, database.schemas.get? table = some schema :=
  OrderedMap.mem_names_iff ..

/-- A table entered into both maps becomes the active one. -/
theorem Paired.enter (h : before.Paired) (htable : table ≠ []) (schema : TableSchema)
    (rows : List Row) :
    Paired ⟨table, before.schemas.insert table schema, before.rows.insert table rows⟩ := by
  have hentered : table ∈ (before.schemas.insert table schema).names := by simp [OrderedMap.mem_names_iff]
  refine ⟨?_, fun other hother => ?_, fun hnone => ?_, fun _ => hentered⟩
  · change (before.rows.insert table rows).names = (before.schemas.insert table schema).names
    rw [OrderedMap.names_insert, OrderedMap.names_insert, h.names]
    rfl
  · rcases OrderedMap.mem_map_put.mp hother with rfl | hbefore
    · exact htable
    · exact h.named other hbefore
  · exact absurd (show _ = [] from hnone) (List.ne_nil_of_mem hentered)

theorem tableNames_eraseTable (database : Database) (table : Text) :
    (database.eraseTable table).tableNames = database.tableNames.filter (· ≠ table) :=
  OrderedMap.names_erase ..

theorem Paired.eraseTable (h : before.Paired) (table : Text) : (before.eraseTable table).Paired := by
  have hnames := before.tableNames_eraseTable table
  -- The active table stays if it is still there, else the last one takes its place, if there is any.
  have hactive : (before.eraseTable table).active =
      (before.eraseTable table).tableNames.getLast?.getD [] ∨
      (before.eraseTable table).active ∈ (before.eraseTable table).tableNames := by
    simp only [Database.eraseTable]
    split
    · exact Or.inl rfl
    · next hkept =>
      refine Or.inr ((OrderedMap.mem_names_iff ..).mpr ((OrderedMap.contains_iff ..).mp ?_))
      simpa using (not_or.mp (mt (Bool.or_eq_true ..).mpr hkept)).2
  refine ⟨?_, fun other hother => ?_, fun hnone => ?_, fun hsome => ?_⟩
  · rw [hnames, ← h.names]
    exact OrderedMap.names_erase ..
  · rw [hnames] at hother
    exact h.named other (List.mem_of_mem_filter hother)
  · simpa [hnone] using hactive
  · rcases hactive with hlast | hkept
    · rw [hlast, List.getLast?_eq_some_getLast hsome]
      exact List.getLast_mem hsome
    · exact hkept

/-- A write that stages tables of the snapshot only. -/
theorem Paired.publish {α : Type} {write : Staging α} {answer : α} (h : before.Paired)
    (hstages : Staging.Stages (· ∈ before.tableNames) write fun _ => True)
    (hpublish : before.publish write = .ok (answer, after)) : after.Paired := by
  have hnames := names_of_publish hstages (fun _ htable => h.names ▸ htable) hpublish
  obtain ⟨scratch, -, rfl⟩ := publish_eq_ok.mp hpublish
  exact ⟨hnames.trans h.names, h.named, h.inactive, h.active⟩

theorem closedUnder_tableNames (database : Database) :
    Integrity.ClosedUnder database (· ∈ database.tableNames) := by
  rintro table - ⟨child, foreignKey⟩ hreference
  obtain ⟨hforeign, -⟩ := (mem_referencing ..).mp hreference
  obtain ⟨schema, hschema, -⟩ := (mem_foreignKeys ..).mp hforeign
  exact mem_tableNames.mpr ⟨schema, hschema⟩

theorem Transition.paired (h : Transition before after) (hlisted : before.Listed)
    (hpaired : before.Paired) : after.Paired := by
  have hthere : ∀ {table}, (∃ name schema, before.schemas.get? name = some schema ∧ schema.name = table) →
      table ∈ before.tableNames := by
    rintro _ ⟨name, schema, hschema, rfl⟩
    rw [hlisted.named name schema hschema]
    exact mem_tableNames.mpr ⟨schema, hschema⟩
  have hclosed := closedUnder_tableNames before
  cases h with
  | @create definition schema hdefinition _ hschema hnamed =>
    obtain ⟨hname, -, -⟩ := of_buildSchema hdefinition hschema
    exact hpaired.enter (hname ▸ hnamed) schema []
  | view _ _ hnamed => exact hpaired.enter hnamed _ _
  | drop _ => exact hpaired.eraseTable _
  | insert h _ =>
    obtain ⟨scratch, hruns, -⟩ := publish_eq_ok.mp h
    obtain ⟨-, ⟨schema, hschema, -⟩, -⟩ := Integrity.of_insert hruns
    exact hpaired.publish (Integrity.stages_insert (mem_tableNames.mpr ⟨schema, hschema⟩) _) h
  | update _ h _ hfound => exact hpaired.publish (Integrity.stages_update hclosed (hthere hfound) _) h
  | delete h hfound => exact hpaired.publish (Integrity.stages_delete hclosed (hthere hfound) _) h

/-- What every reachable snapshot has: its schemas are built by statements and listed in an order that
their references respect, and every table has rows. -/
structure Ordered (database : Database) : Prop where
  built : database.WellBuilt
  listed : database.Listed
  paired : database.Paired

theorem Transition.ordered (h : Transition before after) (hbefore : before.Ordered) : after.Ordered :=
  ⟨h.wellBuilt hbefore.built, h.listed hbefore.built hbefore.listed,
    h.paired hbefore.listed hbefore.paired⟩

theorem Reachable.ordered (h : database.Reachable) : database.Ordered := by
  refine h.invariant Ordered ⟨⟨nofun, nofun⟩, ⟨nofun, List.Pairwise.nil⟩, ⟨rfl, nofun, fun _ => rfl, ?_⟩⟩
    fun _ _ hstep => hstep.ordered
  exact fun hsome => absurd rfl hsome

/-! ## The last table -/

/-- The snapshot after the tables of a list have been dropped one after the other, if each DROP
succeeds. -/
def dropEach (limit : Int) (ifExists : Bool) : Database → List Text → Except Failure Database
  | database, [] => .ok database
  | database, table :: tables => do
      let outcome ← database.run limit (.dropTable ⟨table, ifExists⟩)
      dropEach limit ifExists (outcome.snapshot database) tables

theorem not_mem_of_last {earlier : List Text} (hlast : database.tableNames = earlier ++ [table]) :
    table ∉ earlier := by
  have hnodup : (earlier ++ [table]).Nodup := hlast ▸ database.schemas.nodup
  exact (List.nodup_middle.mp hnodup).notMem ∘ List.mem_append_left []

/-- No other table refers to the last one. -/
theorem Ordered.free_of_last (h : database.Ordered) {earlier : List Text}
    (hlast : database.tableNames = earlier ++ [table]) {child : Text} {foreignKey : ForeignKey}
    (hforeign : foreignKey ∈ database.foreignKeys child) (htarget : foreignKey.refTable = table) :
    child = table := by
  by_contra hne
  have hbefore : database.place table < database.place child := by
    have hlt := h.listed.place_lt h.built hforeign (htarget ▸ Ne.symm hne)
    rwa [htarget] at hlt
  have hnew := not_mem_of_last hlast
  have hplace : database.place table = earlier.length := by simp [place, hlast, List.idxOf_append, hnew]
  have hchild : database.place child < database.tableNames.length := by
    obtain ⟨schema, hschema, -⟩ := (mem_foreignKeys ..).mp hforeign
    exact List.idxOf_lt_length_of_mem (mem_tableNames.mpr ⟨schema, hschema⟩)
  rw [hlast, List.length_append, List.length_singleton] at hchild
  omega

/-- A table that no other one refers to can be dropped. -/
theorem run_dropTable (limit : Int) (ifExists : Bool) (htable : table ∈ database.tableNames)
    (hfree : ∀ child, ∀ foreignKey ∈ database.foreignKeys child, foreignKey.refTable = table →
      child = table) :
    ∃ result, database.run limit (.dropTable ⟨table, ifExists⟩) =
      .ok (.published (database.eraseTable table) result) := by
  have hthere := (OrderedMap.contains_iff ..).mpr (mem_tableNames.mp htable)
  have hnone : (database.referencing table).filter (·.1 ≠ table) = [] := by
    refine List.filter_eq_nil_iff.mpr fun ⟨child, foreignKey⟩ hreference => ?_
    obtain ⟨hforeign, htarget⟩ := (mem_referencing ..).mp hreference
    simpa using hfree child foreignKey hforeign htarget
  refine ⟨.message ("Dropped table " ++ table ++ "."), ?_⟩
  simp only [run, dropTable, hthere, hnone, Bool.not_true, Bool.false_eq_true, if_false]
  rfl

theorem Ordered.dropEach_eq_ok (h : database.Ordered) :
    database.dropEach limit ifExists database.tableNames.reverse = .ok .empty := by
  generalize hnames : database.tableNames = tables
  induction tables using List.reverseRecOn generalizing database with
  | nil =>
    obtain ⟨active, schemas, rows⟩ := database
    have hactive := h.paired.inactive hnames
    have hschemas := OrderedMap.eq_empty_of_names hnames
    have hrows := OrderedMap.eq_empty_of_names (h.paired.names.trans hnames)
    dsimp only at hactive hschemas hrows
    rw [hactive, hschemas, hrows]
    rfl
  | append_singleton earlier table ih =>
    have hfree : ∀ child, ∀ foreignKey ∈ database.foreignKeys child,
        foreignKey.refTable = table → child = table :=
      fun child foreignKey hforeign htarget => h.free_of_last hnames hforeign htarget
    obtain ⟨result, hrun⟩ := run_dropTable limit ifExists
      (hnames ▸ List.mem_append_right _ List.mem_cons_self) hfree
    have hremaining : (database.eraseTable table).tableNames = earlier := by
      have hkept : ∀ other ∈ earlier, decide (other ≠ table) = true := by
        intro other hother
        simpa using ne_of_mem_of_not_mem hother (not_mem_of_last hnames)
      rw [tableNames_eraseTable, hnames, List.filter_append, List.filter_eq_self.mpr hkept]
      simp
    rw [List.reverse_concat, dropEach, hrun]
    exact ih ((Transition.drop hfree).ordered h) hremaining

/-! ## References between tables -/

def RefersToOther (database : Database) (table other : Text) : Prop :=
  other ≠ table ∧ ∃ foreignKey ∈ database.foreignKeys table, foreignKey.refTable = other

/-- References to other tables, followed any number of times, lead to an earlier place. -/
theorem Ordered.place_lt_of_transGen (h : database.Ordered) {other : Text}
    (hrefers : Relation.TransGen database.RefersToOther table other) :
    database.place other < database.place table := by
  have hstep : ∀ {table other}, database.RefersToOther table other →
      database.place other < database.place table := by
    rintro table _ ⟨hne, foreignKey, hforeign, rfl⟩
    exact h.listed.place_lt h.built hforeign hne
  induction hrefers with
  | single hrefers => exact hstep hrefers
  | tail _ hlast ih => exact Nat.lt_trans (hstep hlast) ih

/-- A snapshot lists its tables once for schemas and rows, knows an active table as soon as there is any,
and refers to earlier tables only, or from a table to itself. So no references lead in a circle from table
to table, and its tables can be dropped from the last to the first. -/
theorem order_of_reachable (h : database.Reachable) :
    database.rows.names = database.schemas.names ∧
      (database.active = "" ↔ database.tableNames = []) ∧
      (database.tableNames ≠ [] → database.active ∈ database.tableNames) ∧
      (∀ table, ∀ foreignKey ∈ database.foreignKeys table, foreignKey.refTable = table ∨
        foreignKey.refTable ∈ database.tableNames ∧
          database.place foreignKey.refTable < database.place table) ∧
      (∀ table, ¬ Relation.TransGen database.RefersToOther table table) ∧
      ∀ limit ifExists,
        database.dropEach limit ifExists database.tableNames.reverse = .ok .empty := by
  have hordered := h.ordered
  have hpaired := hordered.paired
  refine ⟨hpaired.names, ⟨fun hnone => ?_, hpaired.inactive⟩, hpaired.active,
    fun table foreignKey hforeign => ?_, fun table hcircle => ?_,
    fun limit ifExists => hordered.dropEach_eq_ok⟩
  · by_contra hsome
    exact hpaired.named _ (hpaired.active hsome) hnone
  · by_cases hself : foreignKey.refTable = table
    · exact Or.inl hself
    · have htarget := hordered.built.target table foreignKey hforeign
      exact Or.inr ⟨mem_tableNames.mpr htarget, hordered.listed.place_lt hordered.built hforeign hself⟩
  · exact Nat.lt_irrefl _ (hordered.place_lt_of_transGen hcircle)

theorem order_of_reachable_league :
    league.Reachable ∧
      (∀ table, ¬ Relation.TransGen league.RefersToOther table table) ∧
      league.tableNames.reverse = (["note", "player", "team"] : List Text) ∧
      league.dropEach 64 false (["note", "player", "team"] : List Text) = .ok .empty := by
  obtain ⟨-, -, -, -, hcircle, hdrop⟩ := order_of_reachable league_reachable
  have hnames : league.tableNames.reverse = (["note", "player", "team"] : List Text) := by decide
  exact ⟨league_reachable, hcircle, hnames, hnames ▸ hdrop 64 false⟩

end Database

end SnapshotSql
