import SnapshotSql.Proofs.ReferenceInvariant

/-! # References after a DELETE

A DELETE makes no check at its end, and rows in which it sets references to null raise no further
questions. So a key that is held in columns which may be set to null can vanish from its table unseen.
A reference that stays is left without a parent exactly if all holders of its key have been removed or
set to null, and then some have been set to null.
-/
namespace SnapshotSql

namespace Integrity

variable {database : Database} {first last : Progress} {foreignKey : ForeignKey} {key : Text}

/-- A row that is referred to has a null in the referenced columns after the cascades. -/
def HolderCleared (database : Database) (last : Progress) (foreignKey : ForeignKey)
    (holder : Nat) : Prop :=
  ∃ row, (last.rows database foreignKey.refTable)[holder]? = some row ∧
    Key.hasNull (row.values foreignKey.refColumns) = true

/-- All rows that held a key are removed or have been set to null, and some have been set to null. -/
structure Orphaned (database : Database) (last : Progress) (foreignKey : ForeignKey)
    (key : Text) : Prop where
  gone : ∀ holder, Offers (database.tableRows foreignKey.refTable) foreignKey key holder →
    holder ∈ doomed last.waves foreignKey.refTable ∨ HolderCleared database last foreignKey holder
  cleared : ∃ holder, Offers (database.tableRows foreignKey.refTable) foreignKey key holder ∧
    HolderCleared database last foreignKey holder

/-- A holder of a complete key still holds it or has a null now. -/
theorem offers_or_cleared {position : Nat}
    (hrows : ClearedRows database anyCause foreignKey.refTable
      (database.tableRows foreignKey.refTable) (last.rows database foreignKey.refTable))
    (h : Offers (database.tableRows foreignKey.refTable) foreignKey key position) :
    Offers (last.rows database foreignKey.refTable) foreignKey key position ∨
      HolderCleared database last foreignKey position := by
  obtain ⟨row, hrow, hkey⟩ := h
  obtain ⟨other, hother, hcleared⟩ := exists_right_of_forall₂ hrows hrow
  cases hnull : Key.hasNull (other.values foreignKey.refColumns) with
  | true => exact Or.inr ⟨other, hother, hnull⟩
  | false => exact Or.inl ⟨other, hother, by rw [Cleared.values_of_complete hcleared hnull, hkey]⟩

/-- A reference of a row that stays has a parent that stays, unless its key is orphaned. -/
theorem DeleteTrace.offered_iff {child : Text} {position : Nat} {row : Row}
    (h : DeleteTrace database first (last.waves.flatMap (Wave.questions database)) last)
    (hfirst : first.staged = .empty) (hforeign : foreignKey ∈ database.foreignKeys child)
    (hcolumns : foreignKey.columns ≠ [])
    (hbefore : Matched foreignKey (database.tableRows foreignKey.refTable) (database.tableRows child))
    (hposition : position ∉ doomed last.waves child)
    (hrow : (last.rows database child)[position]? = some row)
    (href : reference? foreignKey row = some key) :
    (∃ holder, holder ∉ doomed last.waves foreignKey.refTable ∧
        Offers (last.rows database foreignKey.refTable) foreignKey key holder) ↔
      ¬ Orphaned database last foreignKey key := by
  have hrows := DeleteTrace.rowsCleared h hfirst
  have hcomplete := complete_of_reference href
  constructor
  · rintro ⟨holder, hstays, hoffers⟩ ⟨hgone, -⟩
    rcases hgone holder (hoffers.of_cleared (hrows _) hcomplete) with hdoomed | ⟨parent, hparent, hnull⟩
    · exact hstays hdoomed
    · obtain ⟨parent', hparent', hkey⟩ := hoffers
      cases hparent.symm.trans hparent'
      rw [hcomplete _ hkey] at hnull
      cases hnull
  · intro hnot
    by_contra hnone
    push Not at hnone
    obtain ⟨original, horiginal, hcleared⟩ := exists_left_of_forall₂ (hrows child) hrow
    have hheld := matched_iff.mp hbefore original (List.mem_of_getElem? horiginal) key
      (Cleared.reference_before hcleared href)
    refine hnot ⟨fun holder hholder => ?_, ?_⟩
    · by_contra hkept
      rw [not_or] at hkept
      rcases offers_or_cleared (hrows _) hholder with hoffers | hnull
      · exact hnone holder hkept.1 hoffers
      · exact hkept.2 hnull
    · by_contra hnull
      push Not at hnull
      refine hposition (doomed_of_reference h hfirst hforeign (fun _ => hcolumns) hheld
        (fun holder hholder => ?_) hrow href)
      have hoffers := (offers_or_cleared (hrows _) hholder).resolve_right (hnull holder hholder)
      refine ⟨?_, hoffers⟩
      by_contra hstays
      exact hnone holder hstays hoffers

theorem DeleteTrace.matched_iff_not_orphaned {child : Text}
    (h : DeleteTrace database first (last.waves.flatMap (Wave.questions database)) last)
    (hfirst : first.staged = .empty) (hforeign : foreignKey ∈ database.foreignKeys child)
    (hcolumns : foreignKey.columns ≠ [])
    (hbefore : Matched foreignKey (database.tableRows foreignKey.refTable) (database.tableRows child)) :
    Matched foreignKey
        (rowsExcept (last.rows database foreignKey.refTable) (doomed last.waves foreignKey.refTable))
        (rowsExcept (last.rows database child) (doomed last.waves child)) ↔
      ∀ row ∈ rowsExcept (last.rows database child) (doomed last.waves child), ∀ key,
        reference? foreignKey row = some key → ¬ Orphaned database last foreignKey key := by
  rw [matched_iff]
  refine forall₂_congr fun row hrow => forall₂_congr fun key href => ?_
  obtain ⟨position, hposition, hleft⟩ := (mem_rowsExcept ..).mp hrow
  rw [← h.offered_iff hfirst hforeign hcolumns hbefore hleft hposition href, ← mem_offeredKeys]
  simp only [offeredKeys, List.mem_map, mem_rowsExcept, Offers]
  constructor
  · rintro ⟨parent, ⟨holder, hparent, hstays⟩, hkey⟩
    exact ⟨holder, hstays, parent, hparent, hkey⟩
  · rintro ⟨holder, hstays, parent, hparent, hkey⟩
    exact ⟨parent, ⟨holder, hparent, hstays⟩, hkey⟩

end Integrity

namespace Database

open Integrity

variable {database : Database} {limit : Int} {deletion : Delete} {outcome : Outcome}

/-- Every reference of every row finds a parent. -/
def AllMatched (database : Database) : Prop :=
  ∀ table, ∀ foreignKey ∈ database.foreignKeys table,
    Matched foreignKey (database.tableRows foreignKey.refTable) (database.tableRows table)

def PointsAtTables (database : Database) : Prop :=
  ∀ table, ∀ foreignKey ∈ database.foreignKeys table,
    ((database.schemas.get? foreignKey.refTable).any (!·.isView)) = true

instance (database : Database) : Decidable database.AllMatched :=
  decidable_of_iff' _ forall_foreignKeys_iff

instance (database : Database) : Decidable database.PointsAtTables :=
  decidable_of_iff' _ forall_foreignKeys_iff

/-- After a DELETE on a snapshot without dangling references, a foreign key is matched if none of the
columns it refers to may be set to null; in any case it is exactly if no row that stays refers to an
orphaned key. -/
theorem matched_after_delete_iff (hreachable : database.Reachable) (hbefore : database.AllMatched)
    (h : database.delete limit deletion = .ok outcome) :
    ∃ schema last next, database.schemas.get? deletion.table = some schema ∧
      CascadesTo database limit
        ⟨schema.name, deletedPositions deletion (database.tableRows schema.name)⟩ last ∧
      outcome.next = some next ∧ ∀ table, ∀ foreignKey ∈ database.foreignKeys table,
        ((∀ nulled ∈ database.foreignKeys foreignKey.refTable, nulled.onDelete = .setNull →
            ∀ column ∈ foreignKey.refColumns, column ∉ nulled.columns) →
          Matched foreignKey (next.tableRows foreignKey.refTable) (next.tableRows table)) ∧
        (Matched foreignKey (next.tableRows foreignKey.refTable) (next.tableRows table) ↔
          ∀ row ∈ next.tableRows table, ∀ key, reference? foreignKey row = some key →
            ¬ Orphaned database last foreignKey key) := by
  unfold delete at h
  obtain ⟨schema, hschema, h⟩ := Check.bind_eq_ok.mp h
  obtain ⟨⟨count, next⟩, hnext, h⟩ := Check.bind_eq_ok.mp h
  cases h
  rw [Check.orFail_eq_ok, requireTable_eq_ok] at hschema
  obtain ⟨scratch, hruns, rfl⟩ := publish_eq_ok.mp hnext
  obtain ⟨-, last, hcascades, htrace, hrows⟩ := trace_of_delete hruns
  refine ⟨schema, last, _, hschema, hcascades, rfl, fun table foreignKey hforeign => ?_⟩
  obtain ⟨declared, hdeclared, hmem⟩ := (mem_foreignKeys ..).mp hforeign
  have hcolumns := (hreachable.wellBuilt.schema table declared hdeclared).columns foreignKey hmem
  have hold := hbefore table foreignKey hforeign
  rw [tableRows_commit, tableRows_commit, hrows, hrows]
  exact ⟨fun hstay => htrace.matched rfl hforeign hcolumns hstay hold,
    htrace.matched_iff_not_orphaned rfl hforeign hcolumns hold⟩

def chainTexts : List (Int × Text) :=
  [(64, "CREATE TABLE a(id INT PRIMARY KEY)"),
    (64, "CREATE TABLE b(id INT PRIMARY KEY, a INT REFERENCES a(id) ON DELETE SET NULL)"),
    (64, "CREATE TABLE c(id INT PRIMARY KEY, b INT REFERENCES b(a))"),
    (64, "INSERT INTO a VALUES (1)"),
    (64, "INSERT INTO b VALUES (1, 1)"),
    (64, "INSERT INTO c VALUES (1, 1)")]

def chain : Database :=
  let plain (name : Text) : Column := ⟨name, .int, false, false, false⟩
  ⟨"c",
    .ofList [
      ("a", ⟨"a", [plain "id"], ["id"], [], [], .column, false⟩),
      ("b", ⟨"b", [plain "id", plain "a"], ["id"], [],
        [⟨["a"], "a", ["id"], .setNull, .restrict, none⟩], .column, false⟩),
      ("c", ⟨"c", [plain "id", plain "b"], ["id"], [],
        [⟨["b"], "b", ["a"], .restrict, .restrict, none⟩], .column, false⟩)],
    .ofList [
      ("a", [.ofList [("id", .int 1)]]),
      ("b", [.ofList [("id", .int 1), ("a", .int 1)]]),
      ("c", [.ofList [("id", .int 1), ("b", .int 1)]])]⟩

set_option maxRecDepth 20000 in
theorem chain_reachable : chain.Reachable :=
  ⟨chainTexts, by decide +kernel⟩

/-- Deleting from the first table of the chain sets the second to null under the third. -/
theorem matched_after_delete_iff_chain : ∃ outcome schema last next,
    chain.delete 64 ⟨"a", none⟩ = .ok outcome ∧ chain.schemas.get? "a" = some schema ∧
      CascadesTo chain 64
        ⟨schema.name, deletedPositions ⟨"a", none⟩ (chain.tableRows schema.name)⟩ last ∧
      outcome.next = some next ∧
      (Matched ⟨["b"], "b", ["a"], .restrict, .restrict, none⟩ (next.tableRows "b") (next.tableRows "c") ↔
        ∀ row ∈ next.tableRows "c", ∀ key,
          reference? ⟨["b"], "b", ["a"], .restrict, .restrict, none⟩ row = some key →
            ¬ Orphaned chain last ⟨["b"], "b", ["a"], .restrict, .restrict, none⟩ key) := by
  have hok : (chain.delete 64 ⟨"a", none⟩).isOk = true := by decide +kernel
  obtain ⟨outcome, h⟩ := Check.exists_of_isOk hok
  obtain ⟨schema, last, next, hschema, hcascades, hnext, hall⟩ :=
    matched_after_delete_iff chain_reachable (by decide +kernel) h
  exact ⟨outcome, schema, last, next, h, hschema, hcascades, hnext,
    (hall "c" ⟨["b"], "b", ["a"], .restrict, .restrict, none⟩ (by decide +kernel)).2⟩

/-- It is not so that a DELETE leaves no reference dangling wherever none was. -/
theorem not_matched_after_every_delete : ¬ ∀ database : Database, database.Reachable →
    database.PointsAtTables → database.AllMatched → ∀ (limit : Int) (deletion : Delete)
      (outcome : Outcome), database.delete limit deletion = .ok outcome →
        (outcome.snapshot database).AllMatched := by
  intro hevery
  have hok : (chain.delete 64 ⟨"a", none⟩).isOk = true := by decide +kernel
  obtain ⟨outcome, h⟩ := Check.exists_of_isOk hok
  have hmatched := hevery chain chain_reachable (by decide +kernel) (by decide +kernel) 64 _ outcome h
  have hdangling : (chain.delete 64 ⟨"a", none⟩).toOption.all
      (fun outcome => decide (outcome.snapshot chain).AllMatched) = false := by decide +kernel
  rw [h] at hdangling
  exact of_decide_eq_false hdangling hmatched

end Database

end SnapshotSql
