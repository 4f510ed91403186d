import SnapshotSql.Proofs.ParserRules

/-! # The shape of statements that are read

A list with commas has at least one item, so no definition that is read has an empty primary key or a
foreign key without columns. Tables and views that are created have names.
-/
namespace SnapshotSql

namespace Parser

variable {α β : Type} {parser : Parser α}

/-! ## Lists -/

theorem commaSeparated_yields : Yields (commaSeparated parser) (· ≠ []) :=
  Yields.andThen fun _ => Yields.andThen fun _ => Yields.andThen fun _ => yields_pure (by simp)

theorem nameList_yields (what : Text) : Yields (nameList what) (· ≠ []) :=
  Yields.andThen fun _ => commaSeparated_yields.bind fun _ hnames =>
    Yields.andThen fun _ => yields_pure hnames

/-! ## Foreign keys -/

theorem referentialActions_yields (fuel : Nat) (foreignKey : ForeignKey) :
    Yields (referentialActions fuel foreignKey) (·.columns = foreignKey.columns) := by
  induction fuel generalizing foreignKey with
  | zero => exact yields_pure rfl
  | succ fuel ih =>
    refine Yields.andThen fun _ => Yields.ite ?_ (yields_pure rfl)
    refine Yields.andThen fun _ => Yields.ite (Yields.andThen fun _ => ih _) ?_
    exact Yields.andThen fun _ => Yields.ite (Yields.andThen fun _ => ih _) yields_complain

theorem references_yields (columns : List Text) :
    Yields (references columns) (·.columns = columns) :=
  Yields.andThen fun _ => Yields.andThen fun _ => Yields.andThen fun _ => Yields.andThen fun _ =>
    referentialActions_yields _ _

def HaveColumns (foreignKeys : List ForeignKey) : Prop :=
  ∀ foreignKey ∈ foreignKeys, foreignKey.columns ≠ []

theorem HaveColumns.append {foreignKeys more : List ForeignKey} (h : HaveColumns foreignKeys)
    (hmore : HaveColumns more) : HaveColumns (foreignKeys ++ more) :=
  List.forall_mem_append.mpr ⟨h, hmore⟩

theorem columnOptions_yields (fuel : Nat) (column : ColumnSpec) {foreignKeys : List ForeignKey}
    (h : HaveColumns foreignKeys) :
    Yields (columnOptions fuel column foreignKeys) (HaveColumns ·.2) := by
  induction fuel generalizing column foreignKeys with
  | zero => exact yields_pure h
  | succ fuel ih =>
    refine Yields.andThen fun _ => Yields.ite (Yields.andThen fun _ => ih _ h) ?_
    refine Yields.andThen fun _ => Yields.ite (ih _ h) ?_
    refine Yields.andThen fun _ => Yields.ite (Yields.andThen fun _ => ih _ h) ?_
    refine Yields.andThen fun _ => Yields.ite (ih _ h) ?_
    refine Yields.andThen fun _ => Yields.ite (ih _ h) ?_
    refine Yields.andThen fun _ => Yields.ite ?_ ?_
    · refine (references_yields _).bind fun foreignKey hcolumns => ih _ (h.append ?_)
      intro other hother
      rw [List.mem_singleton.mp hother, hcolumns]
      exact List.cons_ne_nil _ _
    · refine Yields.andThen fun token => ?_
      split
      · exact yields_pure h
      · exact yields_pure h
      · exact yields_complain

end Parser

structure CreateTable.NamesColumns (definition : CreateTable) : Prop where
  primaryKey : definition.primaryKey ≠ some []
  foreignKeys : Parser.HaveColumns definition.foreignKeys

/-- A definition of the same table as a draft, whose keys and references name columns. -/
structure CreateTable.Continues (draft definition : CreateTable) : Prop
    extends NamesColumns definition where
  table : definition.table = draft.table

namespace Parser

variable {draft : CreateTable}

/-! ## Tables and statements -/

theorem tableColumn_yields (h : draft.NamesColumns) :
    Yields (tableColumn draft) draft.Continues := by
  refine Yields.andThen fun token => ?_
  split
  · refine Yields.andThen fun _ => Yields.andThen fun token => ?_
    split
    · refine Yields.andThen fun _ => ?_
      extract_lets typeName finish sized
      have hfinish : ∀ params, Yields (finish params) draft.Continues := fun params =>
        Yields.andThen fun _ => (columnOptions_yields _ _ (by simp [HaveColumns])).bind
          fun _ hforeign => yields_pure ⟨⟨h.primaryKey, h.foreignKeys.append hforeign⟩, rfl⟩
      have hsized : ∀ value, Yields (sized value) draft.Continues := fun _ =>
        Yields.andThen fun _ => Yields.ite
          (Yields.andThen fun _ => Yields.andThen fun _ => Yields.andThen fun _ => hfinish _)
          (Yields.andThen fun _ => hfinish _)
      exact Yields.ite (Yields.andThen fun _ => hsized ()) (hsized ())
    · exact yields_complain
  · exact yields_complain

theorem tableElement_yields (h : draft.NamesColumns) :
    Yields (tableElement draft) draft.Continues := by
  refine Yields.andThen fun constraint => ?_
  extract_lets element
  have helement : ∀ constraint, Yields (element constraint) draft.Continues := by
    intro constraint
    refine Yields.andThen fun _ => Yields.ite (Yields.andThen fun _ => Yields.ite yields_reject ?_) ?_
    · refine (nameList_yields _).bind fun columns hcolumns => yields_pure ⟨⟨?_, h.foreignKeys⟩, rfl⟩
      simpa using hcolumns
    refine Yields.andThen fun _ => Yields.ite ?_ ?_
    · exact Yields.andThen fun _ => Yields.andThen fun _ => Yields.andThen fun _ =>
        yields_pure ⟨⟨h.primaryKey, h.foreignKeys⟩, rfl⟩
    refine Yields.andThen fun _ => Yields.ite (Yields.andThen fun _ => ?_) ?_
    · refine (nameList_yields _).bind fun columns hcolumns => (references_yields _).bind
        fun foreignKey hforeign => yields_pure ⟨⟨h.primaryKey, h.foreignKeys.append ?_⟩, rfl⟩
      intro other hother
      rw [List.mem_singleton.mp hother]
      exact hforeign ▸ hcolumns
    · exact Yields.ite yields_complain (tableColumn_yields h)
  exact Yields.ite (Yields.andThen fun _ => Yields.andThen fun _ => helement _)
    (Yields.andThen fun _ => helement _)

theorem moreTableElements_yields (fuel : Nat) (h : draft.NamesColumns) :
    Yields (moreTableElements fuel draft) draft.Continues := by
  induction fuel generalizing draft with
  | zero => exact yields_pure ⟨h, rfl⟩
  | succ fuel ih =>
    refine Yields.andThen fun _ => Yields.ite ?_ (yields_pure ⟨h, rfl⟩)
    refine (tableElement_yields h).bind fun next hnext => (ih hnext.toNamesColumns).mono ?_
    exact fun definition hlast => ⟨hlast.toNamesColumns, hlast.table.trans hnext.table⟩

/-- A table that is to be created has a name, and its keys and references name columns. -/
theorem createTable_reads :
    Reads createTable fun definition => definition.table ≠ [] ∧ definition.NamesColumns := by
  refine (consumes_expectKeyword _).reads fun _ => (consumes_expectKeyword _).reads fun _ =>
    (consumes_acceptIf _).reads fun _ => ?_
  extract_lets body
  have hbody : ∀ ifNotExists, Reads (body ifNotExists) fun definition =>
      definition.table ≠ [] ∧ definition.NamesColumns := by
    intro ifNotExists
    refine (reads_expectName _).bind fun table htable => Yields.andThen fun _ => ?_
    refine (tableElement_yields ⟨by simp, by simp [HaveColumns]⟩).bind fun first hfirst => ?_
    refine Yields.andThen fun _ =>
      (moreTableElements_yields _ hfirst.toNamesColumns).bind fun definition hall => ?_
    refine Yields.andThen fun _ => Yields.ite yields_reject (yields_pure ⟨?_, hall.toNamesColumns⟩)
    rwa [hall.table, hfirst.table]
  exact Reads.ite
    ((consumes_expectKeyword _).reads fun _ => (consumes_expectWord _).reads fun _ =>
      (consumes_pure _).reads fun _ => hbody _)
    ((consumes_pure _).reads fun _ => hbody _)

theorem createView_reads : Reads createView fun definition => definition.view ≠ [] := by
  refine (consumes_expectKeyword _).reads fun _ => (consumes_expectKeyword _).reads fun _ => ?_
  refine (reads_expectName _).bind fun view hview => Yields.andThen fun _ => Yields.ite ?_ yields_reject
  exact Yields.andThen fun _ => Yields.ite (Yields.andThen fun _ => yields_pure hview) yields_reject

end Parser

/-- What the grammar sees to in every statement: a table or view that it creates has a name, and the keys and
references of a table name columns. -/
structure Statement.WellShaped (statement : Statement) : Prop where
  table : ∀ definition, statement = .createTable definition →
    definition.table ≠ [] ∧ definition.NamesColumns
  view : ∀ definition, statement = .createView definition → definition.view ≠ []

namespace Parser

theorem bareStatement_reads : Reads bareStatement Statement.WellShaped := by
  have hother {α : Type} {parser : Parser α} {make : α → Statement}
      (htable : ∀ value definition, make value ≠ .createTable definition)
      (hview : ∀ value definition, make value ≠ .createView definition) :
      Reads (parser >>= fun value => pure (make value)) Statement.WellShaped :=
    (Yields.andThen fun value => yields_pure
      ⟨fun definition heq => absurd heq (htable value definition),
        fun definition heq => absurd heq (hview value definition)⟩).reads
  refine consumes_current.reads fun token => ?_
  split
  · refine consumes_following.reads fun token => ?_
    split
    · refine createTable_reads.bind fun definition h => yields_pure ⟨?_, nofun⟩
      rintro _ ⟨⟩
      exact h
    · refine createView_reads.bind fun definition h => yields_pure ⟨nofun, ?_⟩
      rintro _ ⟨⟩
      exact h
    · exact yields_reject.reads
  · refine consumes_following.reads fun token => ?_
    split
    · exact hother (fun _ _ => nofun) fun _ _ => nofun
    · exact yields_reject.reads
  · exact hother (fun _ _ => nofun) fun _ _ => nofun
  · exact hother (fun _ _ => nofun) fun _ _ => nofun
  · exact hother (fun _ _ => nofun) fun _ _ => nofun
  · exact hother (fun _ _ => nofun) fun _ _ => nofun
  · exact yields_reject.reads
  · exact yields_reject.reads

theorem statement_reads : Reads statement Statement.WellShaped :=
  bareStatement_reads.bind fun _ h => Yields.andThen fun _ => Yields.andThen fun _ =>
    Yields.ite (yields_pure h) (Yields.ite yields_reject yields_complain)

end Parser

structure Statement.WellRead (statement : Statement) : Prop extends statement.WellShaped where
  read : ∃ text, parse text = .ok statement

theorem wellRead_of_parse {text : Text} {statement : Statement} (h : parse text = .ok statement) :
    statement.WellRead := by
  obtain ⟨tokens, htokens, hrun⟩ := Check.bind_eq_ok.mp h
  rw [Check.orFail_eq_ok] at hrun
  obtain ⟨⟨read, rest⟩, hstatement, rfl⟩ := Check.map_eq_ok.mp hrun
  exact ⟨Parser.statement_reads tokens read rest (Lexer.named_scan htokens) hstatement, text, h⟩

end SnapshotSql
