import SnapshotSql.Proofs.DeleteTraces

/-! # What a DELETE does to waves and rows

Along a DELETE waves are only added and rows only cleared. The main statement is that no reference is
left behind: a key all of whose holders end up in the waves, none of them cleared of it, is answered in
every row that refers to it. The last wave that holds the key decides this, because all holders are in
waves by then.
-/
namespace SnapshotSql.Integrity

variable {database : Database} {cause : ForeignKey → Text → Prop} {before after first last : Progress}
  {question : Question Wave} {questions : List (Question Wave)} {table : Text}

/-! ## Waves -/

theorem Answer.waves_prefix {positions : List Nat} (h : Answer database before question positions after) :
    before.waves <+: after.waves := by
  cases h with
  | spare _ => exact List.prefix_refl _
  | cascade _ _ => exact List.prefix_append _ _
  | clear _ _ => exact List.prefix_refl _

theorem DeleteTrace.waves_prefix (h : DeleteTrace database first questions last) :
    first.waves <+: last.waves := by
  refine h.invariant (fun progress => first.waves <+: progress.waves) ?_ (List.prefix_refl _)
  rintro state question next ⟨-, -, -, parents, -, hanswer⟩ hfirst
  exact hfirst.trans hanswer.waves_prefix

/-- A question is asked only about a wave that is there by then. -/
theorem DeleteTrace.wave_mem (h : DeleteTrace database first questions last)
    (hquestion : question ∈ questions) : question.about ∈ last.waves := by
  obtain ⟨_, _, _, _, _, -, rfl, -, -, hstep, hrest⟩ :=
    h.exists_last (· = question) ⟨question, hquestion, rfl⟩
  obtain ⟨hwave, -, -, parents, -, hanswer⟩ := hstep
  exact (DeleteTrace.waves_prefix hrest).subset (hanswer.waves_prefix.subset hwave)

theorem doomed_subset {waves more : List Wave} (h : waves <+: more) {position : Nat}
    (hposition : position ∈ doomed waves table) : position ∈ doomed more table := by
  obtain ⟨wave, hwave, htable, hmem⟩ := (mem_doomed ..).mp hposition
  exact (mem_doomed ..).mpr ⟨wave, h.subset hwave, htable, hmem⟩

/-! ## Rows -/

/-- The rows that a table has before and after, one cleared from the other at each position. -/
abbrev ClearedRows (database : Database) (cause : ForeignKey → Text → Prop) (table : Text) :
    List Row → List Row → Prop :=
  List.Forall₂ (Cleared (database.foreignKeys table) cause)

theorem ClearedRows.refl (rows : List Row) : ClearedRows database cause table rows rows :=
  List.forall₂_same.mpr fun _ _ => Relation.ReflTransGen.refl

theorem ClearedRows.trans {rows middle others : List Row}
    (h : ClearedRows database cause table rows middle)
    (h' : ClearedRows database cause table middle others) :
    ClearedRows database cause table rows others :=
  forall₂_trans Relation.ReflTransGen.trans h h'

/-- One step clears rows for lost keys only. -/
theorem DeleteStep.rows_cleared (h : DeleteStep database before question after)
    (hcause : ∀ parents, (parents = database.tableRows question.about.table ∨
        parents = before.rows database question.about.table) →
      ∀ key ∈ lostKeys question.foreignKey parents question.about.positions
        (doomed before.waves question.about.table), cause question.foreignKey key) (table : Text) :
    ClearedRows database cause table (before.rows database table) (after.rows database table) := by
  obtain ⟨-, hforeign, -, parents, hparents, hanswer⟩ := h
  cases hanswer with
  | spare _ => exact ClearedRows.refl _
  | cascade _ _ => exact ClearedRows.refl _
  | clear _ haction =>
    simp only [Progress.rows, Staging.rowsIn_insert]
    split
    · next heq =>
      subst heq
      refine forall₂_changeAt (fun _ => Relation.ReflTransGen.refl) fun position hposition row hrow => ?_
      obtain ⟨-, other, key, hother, href, hkey⟩ := (mem_referringTo ..).mp hposition
      rw [Progress.rows, hrow] at hother
      cases hother
      exact Relation.ReflTransGen.single
        ⟨question.foreignKey, hforeign, haction, ⟨key, href, hcause parents hparents key hkey⟩, rfl⟩
    · exact ClearedRows.refl _

def anyCause : ForeignKey → Text → Prop := fun _ _ => True

theorem DeleteTrace.rows_cleared (h : DeleteTrace database first questions last) (table : Text) :
    ClearedRows database anyCause table (first.rows database table) (last.rows database table) := by
  refine h.invariant (fun progress =>
    ClearedRows database anyCause table (first.rows database table) (progress.rows database table))
    ?_ (ClearedRows.refl _)
  intro state question next hstep hfirst
  exact hfirst.trans (hstep.rows_cleared (fun _ _ _ _ => trivial) table)

/-- The rows of every table come from those of the snapshot by references set to null. -/
def RowsCleared (database : Database) (cause : ForeignKey → Text → Prop) (progress : Progress) : Prop :=
  ∀ table, ClearedRows database cause table (database.tableRows table) (progress.rows database table)

theorem rowsCleared_first (hfirst : first.staged = .empty) : RowsCleared database cause first := by
  intro table
  rw [Progress.rows, hfirst, Staging.rowsIn_empty]
  exact ClearedRows.refl _

theorem RowsCleared.any (h : RowsCleared database cause first) : RowsCleared database anyCause first :=
  fun table => (h table).imp fun _ _ => Cleared.mono fun _ _ _ => trivial

theorem DeleteTrace.rowsCleared (h : DeleteTrace database first questions last)
    (hfirst : first.staged = .empty) : RowsCleared database anyCause last := by
  intro table
  exact (rowsCleared_first hfirst table).trans (h.rows_cleared table)

/-! ## No reference is left behind -/

/-- A row that offers a complete key at the end of some clearing has offered it before. -/
theorem Offers.of_cleared {rows others : List Row} {foreignKey : ForeignKey} {key : Text} {position : Nat}
    (hrows : ClearedRows database cause table rows others)
    (hcomplete : ∀ values, Key.ofValues values = key → Key.hasNull values = false)
    (h : Offers others foreignKey key position) : Offers rows foreignKey key position := by
  obtain ⟨other, hother, hkey⟩ := h
  obtain ⟨row, hrow, hcleared⟩ := exists_left_of_forall₂ hrows hother
  exact ⟨row, hrow, hcleared.values_of_complete (hcomplete _ hkey) ▸ hkey⟩

/-- Rows offer a key as before if no reference that they have lost has a column of it. -/
theorem Offers.of_clearedRows {cause : ForeignKey → Text → Prop} {rows others : List Row}
    {foreignKey : ForeignKey} {key : Text} {position : Nat}
    (hstay : ∀ row ∈ rows, ∀ nulled ∈ database.foreignKeys foreignKey.refTable,
      nulled.onDelete = .setNull → (∃ key, reference? nulled row = some key ∧ cause nulled key) →
        ∀ column ∈ foreignKey.refColumns, column ∉ nulled.columns)
    (hrows : ClearedRows database cause foreignKey.refTable rows others)
    (h : Offers rows foreignKey key position) : Offers others foreignKey key position := by
  obtain ⟨row, hrow, hkey⟩ := h
  obtain ⟨other, hother, hcleared⟩ := exists_right_of_forall₂ hrows hrow
  have hsame := Cleared.values_of_apart hcleared (hstay row (List.mem_of_getElem? hrow))
  exact ⟨other, hother, hsame ▸ hkey⟩

/-- No reference that a DELETE may set to null has a column that the foreign key refers to. -/
def TargetStays (database : Database) (foreignKey : ForeignKey) : Prop :=
  ∀ nulled ∈ database.foreignKeys foreignKey.refTable, nulled.onDelete = .setNull →
    ∀ column ∈ foreignKey.refColumns, column ∉ nulled.columns

/-- A row that refers to a lost key is in the waves after the answer, or refers to nothing. -/
theorem DeleteStep.reference_answered {key : Text} {position : Nat} {row : Row}
    (h : DeleteStep database before question after)
    (hcolumns : question.foreignKey.onDelete = .setNull → question.foreignKey.columns ≠ [])
    (hlost : ∀ parents, (parents = database.tableRows question.about.table ∨
        parents = before.rows database question.about.table) →
      key ∈ lostKeys question.foreignKey parents question.about.positions
        (doomed before.waves question.about.table))
    (hrow : (before.rows database question.child)[position]? = some row)
    (href : reference? question.foreignKey row = some key) :
    position ∈ doomed after.waves question.child ∨
      ∃ next, (after.rows database question.child)[position]? = some next ∧
        reference? question.foreignKey next = none := by
  obtain ⟨-, -, -, parents, hparents, hanswer⟩ := h
  by_cases hdoomed : position ∈ doomed before.waves question.child
  · exact Or.inl (doomed_subset hanswer.waves_prefix hdoomed)
  have haffected : position ∈ question.affected database before parents :=
    (mem_referringTo ..).mpr ⟨hdoomed, row, key, hrow, href, hlost parents hparents⟩
  cases hanswer with
  | spare hnone => simp [hnone] at haffected
  | cascade _ _ =>
    exact Or.inl ((mem_doomed ..).mpr
      ⟨_, List.mem_append_right _ (List.mem_singleton_self _), rfl, haffected⟩)
  | clear _ haction =>
    refine Or.inr ⟨nullOut question.foreignKey row, ?_, reference?_nullOut (hcolumns haction) row⟩
    rw [Progress.rows, Staging.rowsIn_insert, if_pos rfl, getElem?_changeAt, hrow]
    simp [haffected]

section
variable {child : Text} {foreignKey : ForeignKey} {key : Text} {position : Nat} {row : Row}

/-- Of the questions about waves that hold a key there is a last one, if all its holders end up in the
waves; they are there by then. -/
theorem exists_deciding_step
    (h : DeleteTrace database first (last.waves.flatMap (Wave.questions database)) last)
    (hforeign : foreignKey ∈ database.foreignKeys child)
    (hheld : ∃ holder, Offers (database.tableRows foreignKey.refTable) foreignKey key holder)
    (hgone : ∀ holder, Offers (database.tableRows foreignKey.refTable) foreignKey key holder →
      holder ∈ doomed last.waves foreignKey.refTable) :
    ∃ wave earlier state next later, DeleteTrace database first earlier state ∧
      DeleteStep database state ⟨wave, child, foreignKey⟩ next ∧ DeleteTrace database next later last ∧
      (∃ holder ∈ wave.positions,
        Offers (database.tableRows foreignKey.refTable) foreignKey key holder) ∧
      ∀ holder, Offers (database.tableRows foreignKey.refTable) foreignKey key holder →
        holder ∈ doomed state.waves foreignKey.refTable := by
  have hasked : ∀ holder, Offers (database.tableRows foreignKey.refTable) foreignKey key holder →
      ∃ wave, holder ∈ wave.positions ∧ wave.table = foreignKey.refTable ∧
        ⟨wave, child, foreignKey⟩ ∈ last.waves.flatMap (Wave.questions database) := by
    intro holder hholder
    obtain ⟨wave, hwave, htable, hmem⟩ := (mem_doomed ..).mp (hgone holder hholder)
    exact ⟨wave, hmem, htable,
      List.mem_flatMap.mpr ⟨wave, hwave, (mem_questionsAbout ..).mpr ⟨rfl, hforeign, htable.symm⟩⟩⟩
  obtain ⟨holder, hholder⟩ := hheld
  obtain ⟨wave, hmem, -, hquestion⟩ := hasked holder hholder
  obtain ⟨earlier, _, later, state, next, hquestions, ⟨wave, rfl, hholds⟩, hlater, hearlier, hstep,
      hrest⟩ :=
    h.exists_last (fun question => ∃ wave, question = ⟨wave, child, foreignKey⟩ ∧
        ∃ holder ∈ wave.positions,
          Offers (database.tableRows foreignKey.refTable) foreignKey key holder)
      ⟨_, hquestion, wave, rfl, holder, hmem, hholder⟩
  refine ⟨wave, earlier, state, next, later, hearlier, hstep, hrest, hholds, fun other hother => ?_⟩
  -- The wave of any other holder is not asked about later, so it is among the waves so far.
  obtain ⟨holding, hin, htable, hquestion⟩ := hasked other hother
  refine (mem_doomed ..).mpr ⟨holding, ?_, htable, hin⟩
  rw [hquestions, List.mem_append, List.mem_cons] at hquestion
  rcases hquestion with hbefore | heq | hafter
  · exact DeleteTrace.wave_mem hearlier hbefore
  · cases heq
    exact hstep.wave_mem
  · exact absurd ⟨holding, rfl, other, hin, hother⟩ (hlater _ hafter)

theorem doomed_of_reference
    (h : DeleteTrace database first (last.waves.flatMap (Wave.questions database)) last)
    (hfirst : first.staged = .empty) (hforeign : foreignKey ∈ database.foreignKeys child)
    (hcolumns : foreignKey.onDelete = .setNull → foreignKey.columns ≠ [])
    (hheld : ∃ holder, Offers (database.tableRows foreignKey.refTable) foreignKey key holder)
    (hgone : ∀ holder, Offers (database.tableRows foreignKey.refTable) foreignKey key holder →
      holder ∈ doomed last.waves foreignKey.refTable ∧
        Offers (last.rows database foreignKey.refTable) foreignKey key holder)
    (hrow : (last.rows database child)[position]? = some row)
    (href : reference? foreignKey row = some key) : position ∈ doomed last.waves child := by
  obtain ⟨wave, earlier, state, next, later, hearlier, hstep, hrest, ⟨holder, hmem, hholder⟩, hall⟩ :=
    exists_deciding_step h hforeign hheld fun holder hholder => (hgone holder hholder).1
  have htable : foreignKey.refTable = wave.table := hstep.refTable_eq
  rw [htable] at hgone hholder hall
  have hbefore := DeleteTrace.rowsCleared hearlier hfirst wave.table
  have hafter (table : Text) :
      ClearedRows database anyCause table (state.rows database table) (last.rows database table) :=
    (hstep.rows_cleared (fun _ _ _ _ => trivial) table).trans (DeleteTrace.rows_cleared hrest table)
  have hcomplete := complete_of_reference href
  have hlost : ∀ parents, (parents = database.tableRows wave.table ∨
      parents = state.rows database wave.table) →
      key ∈ lostKeys foreignKey parents wave.positions (doomed state.waves wave.table) := by
    rintro parents (rfl | rfl) <;> rw [mem_lostKeys]
    · obtain ⟨parent, hparent, hkey⟩ := hholder
      exact ⟨⟨holder, hmem, parent, hparent, hcomplete _ hkey, hkey⟩, hall⟩
    · obtain ⟨parent, hparent, hkey⟩ := (hgone holder hholder).2.of_cleared (hafter _) hcomplete
      exact ⟨⟨holder, hmem, parent, hparent, hcomplete _ hkey, hkey⟩,
        fun other hother => hall other (hother.of_cleared hbefore hcomplete)⟩
  obtain ⟨rowThen, hrowThen, hcleared⟩ := exists_left_of_forall₂ (hafter child) hrow
  rcases hstep.reference_answered hcolumns hlost hrowThen
    (Cleared.reference_before hcleared href) with hdoomed | ⟨rowNext, hrowNext, hnone⟩
  · exact doomed_subset (DeleteTrace.waves_prefix hrest) hdoomed
  · obtain ⟨rowLast, hrowLast, hcleared⟩ :=
      exists_right_of_forall₂ (DeleteTrace.rows_cleared hrest child) hrowNext
    rw [hrow] at hrowLast
    cases hrowLast
    rw [Cleared.reference_before hcleared href] at hnone
    cases hnone

/-- Rows that stay find their parents, unless a column that they refer to may be set to null. -/
theorem DeleteTrace.matched
    (h : DeleteTrace database first (last.waves.flatMap (Wave.questions database)) last)
    (hfirst : first.staged = .empty) (hforeign : foreignKey ∈ database.foreignKeys child)
    (hcolumns : foreignKey.columns ≠ [])
    (hstay : TargetStays database foreignKey)
    (hbefore : Matched foreignKey (database.tableRows foreignKey.refTable) (database.tableRows child)) :
    Matched foreignKey
      (rowsExcept (last.rows database foreignKey.refTable) (doomed last.waves foreignKey.refTable))
      (rowsExcept (last.rows database child) (doomed last.waves child)) := by
  have hrows := DeleteTrace.rowsCleared h hfirst
  rw [matched_iff] at hbefore ⊢
  intro row hrow key href
  obtain ⟨position, hposition, hleft⟩ := (mem_rowsExcept ..).mp hrow
  obtain ⟨original, horiginal, hcleared⟩ := exists_left_of_forall₂ (hrows child) hposition
  have hheld := hbefore original (List.mem_of_getElem? horiginal) key
    (Cleared.reference_before hcleared href)
  by_contra hnone
  refine hleft (doomed_of_reference h hfirst hforeign (fun _ => hcolumns) hheld (fun holder hholder => ?_)
    hposition href)
  have hlast := hholder.of_clearedRows (fun _ _ nulled hnulled hnull _ => hstay nulled hnulled hnull)
    (hrows foreignKey.refTable)
  refine ⟨?_, hlast⟩
  by_contra hstays
  obtain ⟨parent, hparent, hkey⟩ := hlast
  have hleft : parent ∈ rowsExcept (last.rows database foreignKey.refTable)
      (doomed last.waves foreignKey.refTable) := (mem_rowsExcept ..).mpr ⟨holder, hparent, hstays⟩
  exact hnone ((mem_offeredKeys ..).mp (List.mem_map.mpr ⟨parent, hleft, hkey⟩))

end

end SnapshotSql.Integrity
