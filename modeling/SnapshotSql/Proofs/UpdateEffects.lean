import SnapshotSql.Proofs.UpdateTraces

/-! # What an UPDATE does to rows and references

Every row of the tables as they are staged comes from the row at its place by the changes of the
revisions. A table without revisions has the rows it had, and no key that they refer to has changed:
the foreign key would have been asked about the revision that changed it. The other tables are checked.
-/
namespace SnapshotSql.Integrity

variable {database : Database} {first last : Revising} {questions : List (Question Revision)}
  {question : Question Revision} {table : Text}

/-! ## Revisions -/

theorem UpdateStep.revisions_prefix {before after : Revising}
    (h : UpdateStep database before question after) : before.revisions <+: after.revisions := by
  cases h.answer with
  | spare _ => exact List.prefix_refl _
  | follow _ _ => exact List.prefix_append _ _

theorem UpdateTrace.revisions_prefix (h : UpdateTrace database first questions last) :
    first.revisions <+: last.revisions :=
  h.invariant (fun revising => first.revisions <+: revising.revisions)
    (fun _ _ _ hstep hfirst => hfirst.trans hstep.revisions_prefix) (List.prefix_refl _)

def changesIn (revisions : List Revision) (table : Text) : List (Row × Row) :=
  (revisions.filter (·.table = table)).flatMap (·.changes)

theorem mem_changesIn {revisions : List Revision} {change : Row × Row} :
    change ∈ changesIn revisions table ↔
      ∃ revision ∈ revisions, revision.table = table ∧ change ∈ revision.changes := by
  simp [changesIn, and_assoc]

abbrev Revised (changes : List (Row × Row)) : Row → Row → Prop :=
  Relation.ReflTransGen fun before after => (before, after) ∈ changes

theorem Revised.mono {changes more : List (Row × Row)} {row other : Row} (h : Revised changes row other)
    (hsubset : changes ⊆ more) : Revised more row other :=
  Relation.ReflTransGen.mono (fun _ _ hmem => hsubset hmem) row other h

theorem changesIn_subset {revisions more : List Revision} (h : revisions <+: more) :
    changesIn revisions table ⊆ changesIn more table := by
  intro change hchange
  obtain ⟨revision, hrevision, htable, hmem⟩ := mem_changesIn.mp hchange
  exact mem_changesIn.mpr ⟨revision, h.subset hrevision, htable, hmem⟩

/-! ## Rows -/

/-- The rows of every table come from those of the snapshot by the changes made so far. -/
def RowsRevised (database : Database) (revising : Revising) : Prop :=
  ∀ table, List.Forall₂ (Revised (changesIn revising.revisions table)) (database.tableRows table)
    (revising.rows database table)

theorem RowsRevised.step {before after : Revising} (hrows : RowsRevised database before)
    (h : UpdateStep database before question after) : RowsRevised database after := by
  intro table
  have hold : List.Forall₂ (Revised (changesIn after.revisions table)) (database.tableRows table)
      (before.rows database table) :=
    (hrows table).imp fun _ _ hrow => Revised.mono hrow (changesIn_subset h.revisions_prefix)
  cases h.answer with
  | spare _ => exact hold
  | follow _ _ =>
    simp only [Revising.rows, Staging.rowsIn_insert]
    split
    · next heq =>
      subst heq
      refine forall₂_trans Relation.ReflTransGen.trans hold
        (forall₂_changeAt (fun _ => Relation.ReflTransGen.refl) fun position hposition row hrow => ?_)
      refine Relation.ReflTransGen.single (mem_changesIn.mpr
        ⟨_, List.mem_append_right _ (List.mem_singleton_self _), rfl, List.mem_map.mpr ⟨row, ?_, rfl⟩⟩)
      exact (mem_rowsAt ..).mpr ⟨position, hposition, hrow⟩
    · exact hold

theorem UpdateTrace.rowsRevised (h : UpdateTrace database first questions last)
    (hfirst : RowsRevised database first) : RowsRevised database last :=
  h.invariant (RowsRevised database) (fun _ _ _ hstep hrows => hrows.step hstep) hfirst

theorem RowsRevised.rows_of_untouched {revising : Revising} (h : RowsRevised database revising)
    (huntouched : ∀ revision ∈ revising.revisions, revision.table ≠ table) :
    revising.rows database table = database.tableRows table := by
  have heq : List.Forall₂ (· = ·) (database.tableRows table) (revising.rows database table) := by
    refine (h table).imp fun row other hrevised => ?_
    induction hrevised with
    | refl => rfl
    | tail _ hchange _ =>
      obtain ⟨revision, hrevision, htable, -⟩ := mem_changesIn.mp hchange
      exact absurd htable (huntouched revision hrevision)
  exact (List.forall₂_eq_eq_eq ▸ heq).symm

/-- Each replacement is one of the changes, as no other one has been made at its place. -/
theorem revised_replaceAt {rows : List Row} {changes : List Change} (h : ChangesOf rows changes) :
    List.Forall₂ (Revised (changes.map Change.rows)) rows
      (replaceAt rows (changes.map fun change => (change.position, change.after))) := by
  induction changes generalizing rows with
  | nil => exact List.forall₂_same.mpr fun _ _ => Relation.ReflTransGen.refl
  | cons change changes ih =>
    obtain ⟨hsorted, hbefore⟩ := h
    obtain ⟨hlater, hsorted⟩ := List.pairwise_cons.mp hsorted
    obtain ⟨hchange, hbefore⟩ := List.forall_mem_cons.mp hbefore
    have hfirst : List.Forall₂ (Revised ((change :: changes).map Change.rows)) rows
        (rows.set change.position change.after) := by
      refine forall₂_iff_getElem?.mpr ⟨List.length_set.symm, fun position row other hrow hother => ?_⟩
      by_cases heq : change.position = position
      · subst heq
        rw [List.getElem?_set_self (List.getElem?_eq_some_iff.mp hrow).1] at hother
        cases hrow.symm.trans hchange
        cases hother
        exact Relation.ReflTransGen.single List.mem_cons_self
      · rw [List.getElem?_set_ne heq, hrow] at hother
        cases hother
        exact Relation.ReflTransGen.refl
    have hset : ChangesOf (rows.set change.position change.after) changes := by
      refine ⟨hsorted, fun later hmem => ?_⟩
      rw [List.getElem?_set_ne (Nat.ne_of_lt (hlater later hmem))]
      exact hbefore later hmem
    exact forall₂_trans Relation.ReflTransGen.trans hfirst
      ((ih hset).imp fun _ _ hrow => Revised.mono hrow (List.subset_cons_self _ _))

theorem rowsRevised_first {changes : List Change}
    (hchanges : ChangesOf (database.tableRows table) changes) :
    RowsRevised database ⟨[⟨table, changes.map Change.rows⟩], OrderedMap.empty.insert table
      (replaceAt (database.tableRows table)
        (changes.map fun change => (change.position, change.after)))⟩ := by
  intro other
  simp only [Revising.rows, Staging.rowsIn_insert, Staging.rowsIn_empty]
  split
  · next heq =>
    subst heq
    refine (revised_replaceAt hchanges).imp fun _ _ hrow => Revised.mono hrow fun change hmem => ?_
    exact mem_changesIn.mpr ⟨_, List.mem_singleton_self _, rfl, hmem⟩
  · exact List.forall₂_same.mpr fun _ _ => Relation.ReflTransGen.refl

/-! ## References of untouched tables -/

theorem mem_changedKeys {foreignKey : ForeignKey} {changes : List (Row × Row)} {key : Text}
    {values : List Scalar} : (key, values) ∈ changedKeys foreignKey changes ↔
      ∃ before after, (before, after) ∈ changes ∧
        Key.hasNull (before.values foreignKey.refColumns) = false ∧
        Key.ofValues (before.values foreignKey.refColumns) ≠ Key.ofValues (after.values foreignKey.refColumns) ∧
        Key.ofValues (before.values foreignKey.refColumns) = key ∧
        after.values foreignKey.refColumns = values := by
  simp only [changedKeys, List.mem_reverse, List.mem_filterMap, Prod.exists, Bool.or_eq_true,
    decide_eq_true_eq]
  constructor
  · rintro ⟨before, after, hmem, hsome⟩
    split at hsome
    · cases hsome
    · next hchanged =>
      cases hsome
      rw [not_or, Bool.not_eq_true] at hchanged
      exact ⟨before, after, hmem, hchanged.1, hchanged.2, rfl, rfl⟩
  · rintro ⟨before, after, hmem, hcomplete, hne, rfl, rfl⟩
    exact ⟨before, after, hmem, by rw [if_neg (by simp [hcomplete, hne])]⟩

theorem mem_keys_changedKeys {foreignKey : ForeignKey} {changes : List (Row × Row)} {key : Text} :
    key ∈ (changedKeys foreignKey changes).map (·.1) ↔ ∃ before after, (before, after) ∈ changes ∧
      Key.hasNull (before.values foreignKey.refColumns) = false ∧
      Key.ofValues (before.values foreignKey.refColumns) ≠ Key.ofValues (after.values foreignKey.refColumns) ∧
      Key.ofValues (before.values foreignKey.refColumns) = key := by
  simp only [List.mem_map, Prod.exists, mem_changedKeys]
  constructor
  · rintro ⟨_, _, ⟨before, after, hmem, hcomplete, hne, rfl, rfl⟩, rfl⟩
    exact ⟨before, after, hmem, hcomplete, hne, rfl⟩
  · rintro ⟨before, after, hmem, hcomplete, hne, rfl⟩
    exact ⟨_, _, ⟨before, after, hmem, hcomplete, hne, rfl, rfl⟩, rfl⟩

section
variable {revisions : List Revision} {after : Scratch} {child : Text} {foreignKey : ForeignKey}
  {row parent replaced : Row}

/-- A key that a row of an untouched table refers to is not changed by any revision. -/
theorem UpdateTrace.key_kept
    (h : UpdateTrace database first (revisions.flatMap (Revision.questions database)) ⟨revisions, after⟩)
    (hfirst : RowsRevised database first) (hforeign : foreignKey ∈ database.foreignKeys child)
    (huntouched : ∀ revision ∈ revisions, revision.table ≠ child)
    (hrow : row ∈ database.tableRows child)
    (href : reference? foreignKey row = some (Key.ofValues (parent.values foreignKey.refColumns)))
    (hchange : (parent, replaced) ∈ changesIn revisions foreignKey.refTable) :
    Key.ofValues (replaced.values foreignKey.refColumns) =
      Key.ofValues (parent.values foreignKey.refColumns) := by
  obtain ⟨revision, hrevision, htable, hmem⟩ := mem_changesIn.mp hchange
  have hasked : ⟨revision, child, foreignKey⟩ ∈ revisions.flatMap (Revision.questions database) :=
    List.mem_flatMap.mpr ⟨revision, hrevision, (mem_questionsAbout ..).mpr ⟨rfl, hforeign, htable.symm⟩⟩
  obtain ⟨earlier, _, later, state, next, -, rfl, -, hearlier, hstep, hrest⟩ :=
    h.exists_last (· = ⟨revision, child, foreignKey⟩) ⟨_, hasked, rfl⟩
  have hnext : next.revisions <+: revisions := UpdateTrace.revisions_prefix hrest
  by_contra hne
  have hfollowing : Question.following database ⟨revision, child, foreignKey⟩ state ≠ [] := by
    have hrows : state.rows database child = database.tableRows child :=
      (UpdateTrace.rowsRevised hearlier hfirst).rows_of_untouched fun other hother =>
        huntouched other (hnext.subset (hstep.revisions_prefix.subset hother))
    obtain ⟨position, hposition⟩ := List.mem_iff_getElem?.mp hrow
    have hkey : Key.ofValues (parent.values foreignKey.refColumns) ∈
        (changedKeys foreignKey revision.changes).map (·.1) :=
      mem_keys_changedKeys.mpr
        ⟨parent, replaced, hmem, complete_of_reference href _ rfl, Ne.symm hne, rfl⟩
    refine List.ne_nil_of_mem (a := position) ((mem_referringTo ..).mpr
      ⟨List.not_mem_nil, row, _, ?_, href, hkey⟩)
    rw [hrows, hposition]
  cases hstep.answer with
  | spare hnone => exact hfollowing hnone
  | follow _ _ =>
    exact huntouched _ (hnext.subset (List.mem_append_right _ (List.mem_singleton_self _))) rfl

end

/-! ## The tables at the end -/

/-- What an UPDATE leaves: each table passes all checks, or it has the rows it had and every parent
that its references had before. -/
theorem of_update {limit : Int} {changes : List Change} {count : Nat} {after : Scratch}
    (hchanges : ChangesOf (database.tableRows table) changes)
    (h : Staging.Runs (update database limit table changes) .empty count after) (child : Text) :
    Valid database child after ∨ Staging.rowsIn database after child = database.tableRows child ∧
      ∀ foreignKey ∈ database.foreignKeys child,
        Matched foreignKey (database.tableRows foreignKey.refTable) (database.tableRows child) →
          Matched foreignKey (Staging.rowsIn database after foreignKey.refTable)
            (database.tableRows child) := by
  obtain ⟨-, revisions, htrace, hvalid⟩ := trace_of_update h
  by_cases htouched : ∃ revision ∈ revisions, revision.table = child
  · obtain ⟨revision, hrevision, rfl⟩ := htouched
    exact Or.inl (hvalid revision hrevision)
  have huntouched : ∀ revision ∈ revisions, revision.table ≠ child :=
    fun revision hrevision heq => htouched ⟨revision, hrevision, heq⟩
  have hfirst := rowsRevised_first hchanges
  have hrevised := UpdateTrace.rowsRevised htrace hfirst
  refine Or.inr ⟨hrevised.rows_of_untouched huntouched, fun foreignKey hforeign hmatched => ?_⟩
  rw [matched_iff] at hmatched ⊢
  intro row hrow key href
  obtain ⟨position, parent, hparent, hkey⟩ := hmatched row hrow key href
  obtain ⟨last, hlast, hchain⟩ := exists_right_of_forall₂ (hrevised foreignKey.refTable) hparent
  refine ⟨position, last, hlast, ?_⟩
  clear hlast
  induction hchain with
  | refl => exact hkey
  | tail _ hchange ih =>
    rw [htrace.key_kept hfirst hforeign huntouched hrow (ih ▸ href) hchange, ih]

end SnapshotSql.Integrity
