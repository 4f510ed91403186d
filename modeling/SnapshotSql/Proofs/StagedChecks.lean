import SnapshotSql.Proofs.KeyChecks

/-! # Checks of staged tables, and INSERT

The checks read what is staged and leave it as it is, so several of them succeed if each does. An
INSERT appends rows to its table; each has passed the checks at a time when no rows but later ones of
its own table were missing.
-/
namespace SnapshotSql

theorem Staging.runs_forM {α : Type} {write : α → Staging Unit} {holds : α → Scratch → Prop}
    (hwrite : ∀ item before after,
      Runs (write item) before () after ↔ holds item before ∧ after = before)
    {items : List α} {before after : Scratch} :
    Runs (items.forM write) before () after ↔ (∀ item ∈ items, holds item before) ∧ after = before := by
  induction items with
  | nil => simp [List.forM]
  | cons item items ih =>
    change Runs (write item >>= fun _ => items.forM write) before () after ↔ _
    rw [runs_bind, List.forall_mem_cons]
    constructor
    · rintro ⟨_, middle, hitem, hitems⟩
      obtain ⟨hfirst, rfl⟩ := (hwrite ..).mp hitem
      obtain ⟨hrest, rfl⟩ := ih.mp hitems
      exact ⟨⟨hfirst, hrest⟩, rfl⟩
    · rintro ⟨⟨hfirst, hrest⟩, rfl⟩
      exact ⟨(), after, (hwrite ..).mpr ⟨hfirst, rfl⟩, ih.mpr ⟨hrest, rfl⟩⟩

namespace Integrity

open Staging

variable {database : Database} {table : Text} {before after : Scratch}

/-! ## References -/

theorem checkReferences_eq_ok {foreignKey : ForeignKey} {parents rows : List Row} :
    checkReferences table foreignKey parents rows = .ok () ↔ Matched foreignKey parents rows := by
  rw [matched_iff, checkReferences, Check.forM_eq_ok]
  refine forall₂_congr fun row _ => ?_
  simp only [← mem_offeredKeys]
  cases reference? foreignKey row <;> simp

theorem runs_checkForeignKeys {rows : List Row} {answer : Unit} :
    Runs (checkForeignKeys database table rows) before answer after ↔
      (∃ schema, database.schemas.get? table = some schema ∧ ∀ foreignKey ∈ schema.foreignKeys,
        Matched foreignKey (rowsIn database before foreignKey.refTable) rows) ∧ after = before := by
  have hone : ∀ (foreignKey : ForeignKey) (before after : Scratch),
      Runs (do
        let parents ← Staging.rows database foreignKey.refTable
        Staging.check (checkReferences table foreignKey parents rows)) before () after ↔
      Matched foreignKey (rowsIn database before foreignKey.refTable) rows ∧ after = before := by
    intro foreignKey before after
    simp [checkReferences_eq_ok, and_comm]
  unfold checkForeignKeys
  simp only [runs_bind, runs_check, runs_forM hone, Database.requireTable_eq_ok]
  constructor
  · rintro ⟨schema, _, ⟨hschema, rfl⟩, hall, rfl⟩
    exact ⟨⟨schema, hschema, hall⟩, rfl⟩
  · rintro ⟨⟨schema, hschema, hall⟩, rfl⟩
    exact ⟨schema, _, ⟨hschema, rfl⟩, hall, rfl⟩

theorem runs_validateKeys {answer : Unit} :
    Runs (validateKeys database table) before answer after ↔
      (∃ schema, database.schemas.get? table = some schema ∧
        ∃ seen, SeenKeys.ofRows schema (rowsIn database before table) = .ok seen) ∧ after = before := by
  simp only [validateKeys, runs_bind, runs_check, runs_rows, runs_pure, Database.requireTable_eq_ok]
  constructor
  · rintro ⟨schema, _, ⟨hschema, rfl⟩, _, _, ⟨rfl, rfl⟩, seen, _, ⟨hseen, rfl⟩, -, rfl⟩
    exact ⟨⟨schema, hschema, seen, hseen⟩, rfl⟩
  · rintro ⟨⟨schema, hschema, seen, hseen⟩, rfl⟩
    exact ⟨schema, after, ⟨hschema, rfl⟩, _, after, ⟨rfl, rfl⟩, seen, after, ⟨hseen, rfl⟩, trivial, rfl⟩

def Valid (database : Database) (table : Text) (staged : Scratch) : Prop :=
  ∃ schema, database.schemas.get? table = some schema ∧
    (∃ seen, SeenKeys.ofRows schema (rowsIn database staged table) = .ok seen) ∧
    ∀ foreignKey ∈ schema.foreignKeys,
      Matched foreignKey (rowsIn database staged foreignKey.refTable) (rowsIn database staged table)

theorem runs_validate :
    Runs (validate database table) before () after ↔ Valid database table before ∧ after = before := by
  simp only [validate, runs_bind, runs_validateKeys, runs_rows, runs_checkForeignKeys]
  constructor
  · rintro ⟨_, _, ⟨⟨schema, hschema, hkeys⟩, rfl⟩, _, _, ⟨rfl, rfl⟩, ⟨schema', hschema', hall⟩, rfl⟩
    cases hschema.symm.trans hschema'
    exact ⟨⟨schema, hschema, hkeys, hall⟩, rfl⟩
  · rintro ⟨⟨schema, hschema, hkeys, hall⟩, rfl⟩
    have hvalid : ∃ schema, database.schemas.get? table = some schema ∧
        ∃ seen, SeenKeys.ofRows schema (rowsIn database after table) = .ok seen :=
      ⟨schema, hschema, hkeys⟩
    exact ⟨(), after, ⟨hvalid, rfl⟩, _, after, ⟨rfl, rfl⟩, ⟨schema, hschema, hall⟩, rfl⟩

/-! ## INSERT -/

variable {schema : TableSchema} {seen next : SeenKeys} {row stored : Row}

/-- One more row is appended, passes the checks of keys, and finds its parents. -/
theorem of_insertRow
    (h : Runs (insertRow database schema table seen row) before (next, stored) after) :
    seen.add schema stored = .ok next ∧
      (∀ other, rowsIn database after other =
        if other = table then rowsIn database before table ++ [stored] else rowsIn database before other) ∧
      ∀ foreignKey ∈ database.foreignKeys table,
        Matched foreignKey (rowsIn database after foreignKey.refTable) [stored] := by
  simp only [insertRow, runs_bind, runs_check, runs_rows, runs_setRows, runs_pure,
    runs_checkForeignKeys] at h
  obtain ⟨_, _, ⟨rfl, rfl⟩, _, _, ⟨hadd, rfl⟩, _, _, rfl, _, _, ⟨⟨found, hfound, hmatched⟩, rfl⟩, heq,
    rfl⟩ := h
  cases heq
  refine ⟨hadd, fun other => rowsIn_insert .., fun foreignKey hmem => ?_⟩
  obtain ⟨declared, hdeclared, hforeign⟩ := (Database.mem_foreignKeys ..).mp hmem
  cases hfound.symm.trans hdeclared
  exact hmatched foreignKey hforeign

/-- Each row is stored as it is given, but for the counters. -/
theorem exists_of_mem_insertRows {newRows inserted : List Row}
    (h : Runs (insertRows database schema table seen newRows) before inserted after)
    (hstored : stored ∈ inserted) :
    ∃ row ∈ newRows, ∃ staged, stored = fillCounters schema staged row := by
  induction newRows generalizing seen before inserted with
  | nil =>
    obtain ⟨rfl, rfl⟩ := runs_pure.mp h
    cases hstored
  | cons row rows ih =>
    simp only [insertRows, runs_bind, runs_pure] at h
    obtain ⟨⟨next, first⟩, middle, hfirst, rest, _, hrest, rfl, rfl⟩ := h
    rcases List.mem_cons.mp hstored with rfl | hmem
    · simp only [insertRow, runs_bind, runs_rows, runs_pure] at hfirst
      obtain ⟨staged, _, -, _, _, -, _, _, -, _, _, -, heq, -⟩ := hfirst
      exact ⟨row, List.mem_cons_self, staged, (Prod.mk.inj heq).2⟩
    · obtain ⟨other, hother, hfilled⟩ := ih hrest hmem
      exact ⟨other, List.mem_cons_of_mem row hother, hfilled⟩

/-- Rows are appended one by one; later ones can only add parents. -/
theorem of_insertRows {newRows inserted : List Row}
    (h : Runs (insertRows database schema table seen newRows) before inserted after) :
    (∃ last, inserted.foldlM (SeenKeys.add schema) seen = .ok last) ∧
      (∀ other, rowsIn database after other =
        if other = table then rowsIn database before table ++ inserted
        else rowsIn database before other) ∧
      ∀ foreignKey ∈ database.foreignKeys table,
        Matched foreignKey (rowsIn database after foreignKey.refTable) inserted := by
  induction newRows generalizing seen before inserted with
  | nil =>
    obtain ⟨rfl, rfl⟩ := runs_pure.mp h
    refine ⟨⟨seen, rfl⟩, fun other => ?_, nofun⟩
    split
    · next heq => rw [heq, List.append_nil]
    · rfl
  | cons row rows ih =>
    simp only [insertRows, runs_bind, runs_pure] at h
    obtain ⟨⟨next, stored⟩, middle, hfirst, rest, _, hrest, rfl, rfl⟩ := h
    obtain ⟨hadd, hrows, hmatched⟩ := of_insertRow hfirst
    obtain ⟨⟨last, hlast⟩, hrows', hmatched'⟩ := ih hrest
    refine ⟨⟨last, ?_⟩, fun other => ?_, fun foreignKey hmem => ?_⟩
    · rw [List.foldlM_cons, hadd]
      exact hlast
    · rw [hrows', hrows, hrows, if_pos rfl]
      split
      · rw [List.append_assoc, List.singleton_append]
      · rfl
    · have hgrown : rowsIn database middle foreignKey.refTable ⊆
          rowsIn database after foreignKey.refTable := by
        rw [hrows']
        split
        · next heq => rw [heq]; exact List.subset_append_left _ _
        · exact List.Subset.refl _
      have hstored := (hmatched foreignKey hmem).mono hgrown
      exact List.forall_mem_cons.mpr ⟨hstored stored List.mem_cons_self, hmatched' foreignKey hmem⟩

/-- What an INSERT does: it appends rows, all keys are checked, and the new rows find their parents. -/
theorem of_insert {newRows inserted : List Row}
    (h : Runs (insert database table newRows) .empty inserted after) :
    (∀ other, rowsIn database after other =
        if other = table then database.tableRows table ++ inserted else database.tableRows other) ∧
      (∃ schema, database.schemas.get? table = some schema ∧
        schema.KeysHold (database.tableRows table ++ inserted)) ∧
      ∀ foreignKey ∈ database.foreignKeys table,
        Matched foreignKey (rowsIn database after foreignKey.refTable) inserted := by
  simp only [insert, runs_bind, runs_check, runs_rows, runs_setRows, Database.requireTable_eq_ok] at h
  obtain ⟨schema, _, ⟨hschema, rfl⟩, _, _, ⟨rfl, rfl⟩, _, _, rfl, seen, _, ⟨hseen, rfl⟩, h⟩ := h
  obtain ⟨⟨last, hlast⟩, hrows, hmatched⟩ := of_insertRows h
  refine ⟨fun other => ?_, ⟨schema, hschema, ?_⟩, hmatched⟩
  · rw [hrows, rowsIn_insert, rowsIn_insert, rowsIn_empty, rowsIn_empty, if_pos rfl]
    split <;> rfl
  · rw [rowsIn_empty] at hseen
    exact (SeenKeys.checked_of_foldlM (SeenKeys.checked_of_ofRows hseen) hlast).keysHold

theorem exists_of_mem_insert {newRows inserted : List Row}
    (h : Runs (insert database table newRows) .empty inserted after) (hstored : stored ∈ inserted) :
    ∃ schema, database.schemas.get? table = some schema ∧
      ∃ row ∈ newRows, ∃ staged, stored = fillCounters schema staged row := by
  simp only [insert, runs_bind, runs_check, Database.requireTable_eq_ok] at h
  obtain ⟨schema, _, ⟨hschema, -⟩, _, _, -, _, _, -, seen, _, -, h⟩ := h
  exact ⟨schema, hschema, exists_of_mem_insertRows h hstored⟩

end Integrity

end SnapshotSql
