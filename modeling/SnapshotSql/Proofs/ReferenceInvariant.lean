import SnapshotSql.Proofs.KeyInvariant

/-! # References hold in every reachable snapshot

A reference to columns of a primary key finds its row in every reachable snapshot. Three mechanisms
keep this: an INSERT looks up the parents of new rows, an UPDATE checks the tables it touches while the
others refer to no key that changes, and a DELETE answers every key that is lost. Primary keys matter
to the last one only, which may clear other columns that are referred to.
-/
namespace SnapshotSql.Database

open Integrity

variable {database before after : Database} {table : Text} {foreignKey : ForeignKey}

/-- A foreign key points at columns of the primary key of a table that is no view. -/
def PointsAtKey (database : Database) (foreignKey : ForeignKey) : Prop :=
  ∃ schema, database.schemas.get? foreignKey.refTable = some schema ∧ schema.isView = false ∧
    ∀ column ∈ foreignKey.refColumns, column ∈ schema.primaryKey

def ReferencesHold (database : Database) : Prop :=
  ∀ table, ∀ foreignKey ∈ database.foreignKeys table, database.PointsAtKey foreignKey →
    Matched foreignKey (database.tableRows foreignKey.refTable) (database.tableRows table)

/-- No column of a primary key may be set to null. -/
theorem PointsAtKey.stays (h : database.PointsAtKey foreignKey) (hbuilt : database.WellBuilt) :
    TargetStays database foreignKey := by
  obtain ⟨schema, hschema, -, hkey⟩ := h
  intro nulled hmem hnull column hcolumn hcleared
  obtain ⟨declared, hdeclared, hnulled⟩ := (mem_foreignKeys ..).mp hmem
  cases hschema.symm.trans hdeclared
  exact ((hbuilt.schema _ schema hschema).clearable nulled hnulled hnull column hcleared).1
    (hkey column hcolumn)

/-- If only one table is unlike before, has no rows, and nothing points there, references still hold. -/
theorem ReferencesHold.of_sameElsewhere {changed : Text} (hreferences : before.ReferencesHold)
    (h : SameElsewhere before after changed)
    (hchanged : ∀ foreignKey ∈ after.foreignKeys changed, after.tableRows changed = [])
    (htarget : ∀ table, table ≠ changed → ∀ foreignKey ∈ before.foreignKeys table,
      after.PointsAtKey foreignKey → foreignKey.refTable ≠ changed) : after.ReferencesHold := by
  intro table foreignKey hforeign hkey
  by_cases heq : table = changed
  · subst heq
    rw [hchanged foreignKey hforeign]
    exact nofun
  · have hold : foreignKey ∈ before.foreignKeys table := by
      rw [mem_foreignKeys, h.schemas table heq] at hforeign
      exact (mem_foreignKeys ..).mpr hforeign
    have hne := htarget table heq foreignKey hold hkey
    rw [h.rows table heq, h.rows _ hne]
    refine hreferences table foreignKey hold ?_
    rwa [PointsAtKey, h.schemas _ hne] at hkey

theorem referencesHold_of_publish {α : Type} {write : Staging α} {answer : α}
    (h : before.publish write = .ok (answer, after))
    (hmatched : ∀ table, ∀ foreignKey ∈ before.foreignKeys table, before.PointsAtKey foreignKey →
      Matched foreignKey (after.tableRows foreignKey.refTable) (after.tableRows table)) :
    after.ReferencesHold := by
  have hschemas := schemas_of_publish h
  intro table foreignKey hforeign hkey
  rw [mem_foreignKeys, hschemas, ← mem_foreignKeys] at hforeign
  rw [PointsAtKey, hschemas] at hkey
  exact hmatched table foreignKey hforeign hkey

theorem ReferencesHold.insert {target : Text} {newRows inserted : List Row}
    (hreferences : before.ReferencesHold)
    (h : before.publish (Integrity.insert before target newRows) = .ok (inserted, after)) :
    after.ReferencesHold := by
  refine referencesHold_of_publish h fun table foreignKey hforeign hkey => ?_
  have hold := hreferences table foreignKey hforeign hkey
  obtain ⟨scratch, hruns, rfl⟩ := publish_eq_ok.mp h
  obtain ⟨hrows, -, hnew⟩ := of_insert hruns
  have hgrown : before.tableRows foreignKey.refTable ⊆
      (before.commit scratch).tableRows foreignKey.refTable := by
    rw [tableRows_commit, hrows]
    split
    · next heq => exact heq ▸ List.subset_append_left _ _
    · exact List.Subset.refl _
  rw [tableRows_commit before scratch table, hrows]
  split
  · next heq =>
    subst heq
    refine List.forall_mem_append.mpr ⟨hold.mono hgrown, ?_⟩
    rw [tableRows_commit]
    exact hnew foreignKey hforeign
  · exact hold.mono hgrown

theorem ReferencesHold.update {limit : Int} {target : Text} {changes : List Change} {count : Nat}
    (hreferences : before.ReferencesHold) (hchanges : ChangesOf (before.tableRows target) changes)
    (h : before.publish (Integrity.update before limit target changes) = .ok (count, after)) :
    after.ReferencesHold := by
  refine referencesHold_of_publish h fun table foreignKey hforeign hkey => ?_
  have hold := hreferences table foreignKey hforeign hkey
  obtain ⟨scratch, hruns, rfl⟩ := publish_eq_ok.mp h
  rw [tableRows_commit, tableRows_commit]
  rcases of_update hchanges hruns table with ⟨schema, hschema, -, hvalid⟩ | ⟨hsame, hkept⟩
  · obtain ⟨declared, hdeclared, hmem⟩ := (mem_foreignKeys ..).mp hforeign
    cases hschema.symm.trans hdeclared
    exact hvalid foreignKey hmem
  · rw [hsame]
    exact hkept foreignKey hforeign hold

theorem ReferencesHold.delete {limit : Int} {target : Text} {positions : List Nat} {count : Nat}
    (hreferences : before.ReferencesHold) (hbuilt : before.WellBuilt)
    (h : before.publish (Integrity.delete before limit target positions) = .ok (count, after)) :
    after.ReferencesHold := by
  refine referencesHold_of_publish h fun table foreignKey hforeign hkey => ?_
  obtain ⟨schema, hschema, hmem⟩ := (mem_foreignKeys ..).mp hforeign
  obtain ⟨scratch, hruns, rfl⟩ := publish_eq_ok.mp h
  obtain ⟨-, last, -, htrace, hrows⟩ := trace_of_delete hruns
  rw [tableRows_commit, tableRows_commit, hrows, hrows]
  exact htrace.matched rfl hforeign ((hbuilt.schema table schema hschema).columns foreignKey hmem)
    (hkey.stays hbuilt) (hreferences table foreignKey hforeign hkey)

theorem Transition.referencesHold (h : Transition before after) (hbuilt : before.WellBuilt)
    (hreferences : before.ReferencesHold) : after.ReferencesHold := by
  cases h with
  | @create definition schema hdefinition hnew hschema =>
    obtain ⟨hname, -, -⟩ := of_buildSchema hdefinition hschema
    refine hreferences.of_sameElsewhere (sameElsewhere_insert ..) ?_ ?_
    · intro _ _
      exact tableRows_addTable before schema
    · intro table _ foreignKey hmem _ heq
      obtain ⟨target, htarget⟩ := hbuilt.target table foreignKey hmem
      rw [heq, hname, hnew] at htarget
      cases htarget
  | @view view result _ =>
    refine hreferences.of_sameElsewhere (sameElsewhere_insert ..) ?_ ?_
    · intro foreignKey hmem
      obtain ⟨schema, hschema, hforeign⟩ := (mem_foreignKeys ..).mp hmem
      rw [OrderedMap.get?_insert, if_pos rfl] at hschema
      cases hschema
      cases hforeign
    · rintro table _ foreignKey _ ⟨schema, hschema, hview, -⟩ heq
      rw [heq, OrderedMap.get?_insert, if_pos rfl] at hschema
      cases hschema
      cases hview
  | @drop erased hfree =>
    refine hreferences.of_sameElsewhere (sameElsewhere_eraseTable erased) ?_ ?_
    · intro foreignKey hmem
      obtain ⟨schema, hschema, -⟩ := (mem_foreignKeys ..).mp hmem
      rw [eraseTable, OrderedMap.get?_erase, if_pos rfl] at hschema
      cases hschema
    · intro table hne foreignKey hmem _ heq
      exact hne (hfree table foreignKey hmem heq)
  | insert h => exact hreferences.insert h
  | update hchanges h => exact hreferences.update hchanges h
  | delete h => exact hreferences.delete hbuilt h

theorem Reachable.referencesHold (h : database.Reachable) : database.ReferencesHold :=
  h.invariant_of_wellBuilt ReferencesHold nofun fun _ _ hstep => hstep.referencesHold

/-- In a reachable snapshot every row has a null in each of its references to columns of a primary key,
or the table it refers to has the key. -/
theorem references_of_reachable (h : database.Reachable)
    (hforeign : foreignKey ∈ database.foreignKeys table) (hkey : database.PointsAtKey foreignKey) :
    Matched foreignKey (database.tableRows foreignKey.refTable) (database.tableRows table) := by
  have hreferences : database.ReferencesHold :=
    h.invariant_of_wellBuilt ReferencesHold nofun fun _ _ hstep => hstep.referencesHold
  exact hreferences table foreignKey hforeign hkey

theorem references_of_reachable_league :
    Matched ⟨["team"], "team", ["id"], .cascade, .restrict, none⟩ (league.tableRows "team")
      (league.tableRows "player") :=
  references_of_reachable league_reachable (by decide +kernel) ⟨_, rfl, rfl, by decide +kernel⟩

end SnapshotSql.Database
