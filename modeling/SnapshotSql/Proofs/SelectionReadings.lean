import SnapshotSql.Selection
import SnapshotSql.Proofs.RowReadings
import SnapshotSql.Proofs.SortedLists

/-! # A SELECT on rows that read alike

Every stage of a SELECT reads its rows by values, so it goes through lists of rows that read alike in step:
what it keeps, groups, projects and orders stays paired. The projected rows themselves are then equal, and
so are the results.
-/
namespace SnapshotSql

variable {row other : Row} {rows others : List Row}

namespace Aggregate

theorem apply_congr (function : AggregateFunction) (argument : Text)
    (h : List.Forall₂ Row.ReadsAlike rows others) :
    apply function argument rows = apply function argument others := by
  have hpresent : present rows argument = present others argument := by
    unfold present
    rw [map_eq_of_forall₂ (fun _ _ hrow => hrow.resolve argument) h]
  simp only [apply, hpresent, h.length_eq]

end Aggregate

namespace Select

variable (query : Select) (schema : TableSchema)

/-- Projected rows that are equal and come from rows that read alike. -/
def Projected.Alike (projected projected' : Projected) : Prop :=
  projected.output = projected'.output ∧ projected.source.ReadsAlike projected'.source

theorem project_congr (hrow : row.ReadsAlike other) :
    query.project schema row none = query.project schema other none := by
  simp only [project, hrow.resolve, hrow.sameValues _]

theorem project_group_congr (hrow : row.ReadsAlike other) (h : List.Forall₂ Row.ReadsAlike rows others) :
    query.project schema row (some rows) = query.project schema other (some others) := by
  simp only [project, hrow.resolve, Option.isSome_some, Option.getD_some, Aggregate.apply_congr _ _ h,
    if_true]

theorem forall₂_groups (columns : List Text) (h : List.Forall₂ Row.ReadsAlike rows others) :
    List.Forall₂ (List.Forall₂ Row.ReadsAlike) (groups columns rows) (groups columns others) := by
  have hkey : ∀ row other : Row, row.ReadsAlike other →
      Key.ofValues (columns.map row.resolve) = Key.ofValues (columns.map other.resolve) := by
    intro row other hrow
    rw [List.map_congr_left fun name _ => hrow.resolve name]
  simp only [groups, map_eq_of_forall₂ hkey h, List.forall₂_map_left_iff, List.forall₂_map_right_iff,
    List.forall₂_same]
  intro key _
  exact forall₂_filter _ _ (fun row other hrow => by simp only [hkey row other hrow]) h

theorem forall₂_projectAll (h : List.Forall₂ Row.ReadsAlike rows others) :
    List.Forall₂ Projected.Alike (query.projectAll schema rows) (query.projectAll schema others) := by
  unfold projectAll
  split
  · refine List.rel_filterMap (fun group group' hgroup => ?_) (forall₂_groups query.groupBy h)
    cases hgroup with
    | nil => exact .none
    | cons hfirst hrest =>
      exact .some ⟨query.project_group_congr schema hfirst (.cons hfirst hrest), hfirst⟩
  · split
    · have hfirst : (rows.headD .empty).ReadsAlike (others.headD .empty) := by
        cases h with
        | nil => exact ⟨fun _ => rfl, fun _ => rfl⟩
        | cons hfirst _ => exact hfirst
      exact .cons ⟨query.project_group_congr schema hfirst h, hfirst⟩ .nil
    · refine List.rel_map (fun row other hrow => ?_) h
      exact ⟨query.project_congr schema hrow, hrow⟩

variable {projected projected' : List Projected}

theorem forall₂_distinctBy (columns seen : List Text) (h : List.Forall₂ Projected.Alike projected projected') :
    List.Forall₂ Projected.Alike (distinctBy columns seen projected)
      (distinctBy columns seen projected') := by
  induction h generalizing seen with
  | nil => exact .nil
  | cons hfirst _ ih =>
    simp only [distinctBy, hfirst.1]
    split
    · exact ih _
    · exact .cons hfirst (ih _)

theorem sortValue_congr {projected projected' : Projected} (h : projected.Alike projected') (column : Text) :
    sortValue projected column = sortValue projected' column := by
  simp only [sortValue, h.1, h.2.resolve]

theorem compareRows_congr {a a' b b' : Projected} (ha : a.Alike a') (hb : b.Alike b')
    (items : List OrderItem) : compareRows a b items = compareRows a' b' items := by
  induction items with
  | nil => rfl
  | cons item items ih => simp only [compareRows, sortValue_congr ha, sortValue_congr hb, ih]

theorem forall₂_sortRows (items : List OrderItem) (h : List.Forall₂ Projected.Alike projected projected') :
    List.Forall₂ Projected.Alike (sortRows items projected) (sortRows items projected') :=
  Sorting.forall₂_sort (fun _ _ _ _ ha hb => by simp only [compareRows_congr ha hb]) h

theorem forall₂_limitRows (limit : Option Nat) (offset : Nat)
    (h : List.Forall₂ Projected.Alike projected projected') :
    List.Forall₂ Projected.Alike (limitRows limit offset projected) (limitRows limit offset projected') := by
  cases limit with
  | none => exact List.forall₂_drop _ h
  | some count => exact List.forall₂_take _ (List.forall₂_drop _ h)

/-- Rows that read alike have the same result. -/
theorem resultOf_congr (h : List.Forall₂ Row.ReadsAlike rows others) :
    query.resultOf schema rows = query.resultOf schema others := by
  have hpassing := forall₂_filter (fun row => query.condition.all (·.holds row))
    (fun row => query.condition.all (·.holds row))
    (fun row other hrow => by simp only [Condition.holds_congr hrow]) h
  have hkept := forall₂_filter (fun row : Projected => query.having.all (·.holds row.output)) _
    (fun row other halike => by rw [halike.1]) (forall₂_projectAll query schema hpassing)
  have hordered : ∀ {kept kept' : List Projected}, List.Forall₂ Projected.Alike kept kept' →
      (limitRows query.limit query.offset (sortRows query.orderBy kept)).map (·.output) =
        (limitRows query.limit query.offset (sortRows query.orderBy kept')).map (·.output) := fun halike =>
    map_eq_of_forall₂ (fun _ _ halike => halike.1) (forall₂_limitRows _ _ (forall₂_sortRows _ halike))
  unfold resultOf
  dsimp only
  split
  · rw [hordered (forall₂_distinctBy _ _ hkept)]
  · rw [hordered hkept]

end Select

end SnapshotSql
