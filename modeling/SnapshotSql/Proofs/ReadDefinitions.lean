import SnapshotSql.Proofs.DefinitionShapes
import SnapshotSql.Proofs.PrintedQueries

/-! # The names of definitions that are read

A table and its columns are named by words of the text. A column cannot be named by a word that begins a
constraint, because the grammar takes that word for the constraint. A key of a UNIQUE constraint has columns.
-/
namespace SnapshotSql

/-- The words that begin a constraint where a column could stand. -/
def constraintWords : List String :=
  ["CONSTRAINT", "PRIMARY", "UNIQUE", "FOREIGN"]

def IsColumnName (name : Text) : Prop :=
  IsName name ∧ (Lexeme.name name).isWord constraintWords = false

instance : DecidablePred IsColumnName :=
  fun _ => inferInstanceAs (Decidable (_ ∧ _))

/-- A foreign key that refers to a table and its columns by words of the text. -/
structure ForeignKey.TargetNamed (foreignKey : ForeignKey) : Prop where
  table : IsName foreignKey.refTable
  columns : ∀ name ∈ foreignKey.refColumns, IsName name

/-- The columns have names that columns can have, no key of a UNIQUE constraint is empty, and foreign keys refer
to names. -/
structure CreateTable.WellNamed (definition : CreateTable) : Prop where
  columns : ∀ column ∈ definition.columns, IsColumnName column.name
  uniqueKeys : ∀ key ∈ definition.uniqueKeys, key ≠ []
  foreignKeys : ∀ foreignKey ∈ definition.foreignKeys, foreignKey.TargetNamed

structure CreateTable.NamedAs (draft definition : CreateTable) : Prop extends WellNamed definition where
  table : definition.table = draft.table

namespace Parser

variable {α β : Type} {words : Text → Prop} {first : Lexeme → Prop} {parser : Parser α} {next : α → Parser β}
  {holds : α → Prop} {holds' : β → Prop}

/-! ## The first token -/

/-- As `Takes`, for tokens the first of which has a property. -/
def TakesFrom (words : Text → Prop) (first : Lexeme → Prop) (parser : Parser α) (holds : α → Prop) : Prop :=
  ∀ tokens value rest, NamesIn words (tokens.map (·.lexeme)) → first (firstOf (tokens.map (·.lexeme))) →
    parser tokens = .ok (value, rest) → holds value ∧ NamesIn words (rest.map (·.lexeme))

theorem Takes.takesFrom (h : Takes words parser holds) : TakesFrom words first parser holds :=
  fun tokens value rest hnamed _ hrun => h tokens value rest hnamed hrun

/-- A token that is not accepted is still there, and it is known not to be as asked. -/
theorem takesFrom_accept {test : Lexeme → Bool} {next : Bool → Parser β} (hyes : Takes words (next true) holds')
    (hno : TakesFrom words (fun lexeme => first lexeme ∧ test lexeme = false) (next false) holds') :
    TakesFrom words first (acceptIf test >>= next) holds' := by
  intro tokens value rest hnamed hfirst hrun
  by_cases htest : test (firstOf (tokens.map (·.lexeme))) = true
  · have haccepted : (acceptIf test >>= next) tokens = (advance >>= fun _ => next true) tokens := by
      change ((if test (tokens.headD lastToken).lexeme then _ else _ : Parser Bool) >>= next) tokens = _
      rw [lexeme_headD, if_pos htest, bind_assoc]
      simp only [pure_bind]
    exact takes_advance hyes tokens value rest hnamed (haccepted ▸ hrun)
  · have hdeclined : (acceptIf test >>= next) tokens = next false tokens := by
      change ((if test (tokens.headD lastToken).lexeme then _ else _ : Parser Bool) >>= next) tokens = _
      rw [lexeme_headD, if_neg htest]
      rfl
    exact hno tokens value rest hnamed ⟨hfirst, eq_false_of_ne_true htest⟩ (hdeclined ▸ hrun)

theorem takesFrom_current {next : Token → Parser β}
    (hnext : ∀ token, (∀ name, token.lexeme = .name name → words name) → first token.lexeme →
      Takes words (next token) holds') : TakesFrom words first (current >>= next) holds' := by
  intro tokens value rest hnamed hfirst hrun
  have htoken := lexeme_headD tokens
  refine hnext (tokens.headD lastToken) ?_ (htoken ▸ hfirst) tokens value rest hnamed hrun
  cases tokens with
  | nil => exact nofun
  | cons token _ => exact (namesIn_cons.mp hnamed).1

/-! ## Columns and constraints -/

variable {draft : CreateTable}

theorem takes_nameList (what : Text) :
    Takes words (nameList what) fun names => names ≠ [] ∧ ∀ name ∈ names, words name :=
  takes_expect ((takes_commaSeparated (takes_expectName _)).bind fun _ hnames => takes_expect (takes_pure hnames))

theorem takes_typeParameter : Takes words typeParameter fun _ => True := by
  refine takes_current fun token _ => ?_
  split
  · exact takes_advance (takes_pure trivial)
  · exact takes_complain

theorem takes_referentialAction : Takes words referentialAction fun _ => True := by
  have haction : ∀ action, Takes words (pure action : Parser ReferentialAction) fun _ => True :=
    fun _ => takes_pure trivial
  refine takes_accept fun _ => Takes.ite (haction _) (takes_accept fun _ => Takes.ite (haction _) ?_)
  refine takes_accept fun _ => Takes.ite (takes_expect (haction _)) (takes_accept fun _ => Takes.ite ?_ ?_)
  · exact takes_expect (haction _)
  · exact takes_complain

theorem takes_referentialActions (fuel : Nat) {foreignKey : ForeignKey} (h : foreignKey.TargetNamed) :
    Takes IsName (referentialActions fuel foreignKey) ForeignKey.TargetNamed := by
  induction fuel generalizing foreignKey with
  | zero => exact takes_pure h
  | succ fuel ih =>
    have hagain : ∀ onDelete onUpdate, Takes IsName
        (referentialActions fuel { foreignKey with onDelete := onDelete, onUpdate := onUpdate })
        ForeignKey.TargetNamed := fun _ _ => ih ⟨h.table, h.columns⟩
    refine takes_accept fun _ => Takes.ite (takes_accept fun _ => Takes.ite ?_ ?_) (takes_pure h)
    · exact takes_referentialAction.bind fun _ _ => hagain _ _
    · exact takes_accept fun _ => Takes.ite (takes_referentialAction.bind fun _ _ => hagain _ _) takes_complain

theorem takes_references (columns : List Text) : Takes IsName (references columns) ForeignKey.TargetNamed :=
  takes_expect ((takes_expectName _).bind fun _ htable => (takes_nameList _).bind fun _ hcolumns =>
    takes_get fun _ => takes_referentialActions _ ⟨htable, hcolumns.2⟩)

theorem takes_columnOptions (fuel : Nat) (column : ColumnSpec) {foreignKeys : List ForeignKey}
    (h : ∀ foreignKey ∈ foreignKeys, foreignKey.TargetNamed) :
    Takes IsName (columnOptions fuel column foreignKeys) fun options =>
      options.1.name = column.name ∧ ∀ foreignKey ∈ options.2, foreignKey.TargetNamed := by
  induction fuel generalizing column foreignKeys with
  | zero => exact takes_pure ⟨rfl, h⟩
  | succ fuel ih =>
    refine takes_accept fun _ => Takes.ite (takes_expect (ih _ h)) (takes_accept fun _ => Takes.ite (ih _ h) ?_)
    refine takes_accept fun _ => Takes.ite (takes_expect (ih _ h)) (takes_accept fun _ => Takes.ite (ih _ h) ?_)
    refine takes_accept fun _ => Takes.ite (ih _ h) (takes_current fun _ _ => Takes.ite ?_ ?_)
    · refine (takes_references _).bind fun foreignKey hnamed => ih _ (List.forall_mem_append.mpr ⟨h, ?_⟩)
      exact List.forall_mem_singleton.mpr hnamed
    · refine takes_current fun token _ => ?_
      split
      · exact takes_pure ⟨rfl, h⟩
      · exact takes_pure ⟨rfl, h⟩
      · exact takes_complain

theorem takesFrom_tableColumn (h : draft.WellNamed) :
    TakesFrom IsName (·.isWord constraintWords = false) (tableColumn draft) draft.NamedAs := by
  refine takesFrom_current fun token hnamed hother => ?_
  split
  · next name hname =>
    have hcolumn : IsColumnName name := ⟨hnamed name hname, hname ▸ hother⟩
    refine takes_advance (takes_current fun token _ => ?_)
    split
    · refine takes_advance ?_
      extract_lets typeName finish sized
      have hfinish : ∀ params, Takes IsName (finish params) draft.NamedAs := by
        refine fun params => takes_get fun _ => (takes_columnOptions _ _ (by simp)).bind
          fun options hoptions => takes_pure ?_
        obtain ⟨hname, hforeign⟩ := hoptions
        refine ⟨⟨List.forall_mem_append.mpr ⟨h.columns, ?_⟩, h.uniqueKeys,
          List.forall_mem_append.mpr ⟨h.foreignKeys, hforeign⟩⟩, rfl⟩
        intro column hmem
        rw [List.mem_singleton.mp hmem, hname]
        exact hcolumn
      have hsized : ∀ value, Takes IsName (sized value) draft.NamedAs := by
        refine fun _ => takes_accept fun _ => Takes.ite ?_ ?_
        · exact (takes_commaSeparated takes_typeParameter).bind fun _ _ => takes_expect (hfinish _)
        · exact hfinish _
      exact Takes.ite (takes_accept fun _ => hsized ()) (hsized ())
    · exact takes_complain
  · exact takes_complain

theorem isWord_constraintWords_iff {lexeme : Lexeme} : lexeme.isWord constraintWords = false ↔
    lexeme.isWord ["CONSTRAINT"] = false ∧ lexeme.isWord ["PRIMARY"] = false ∧
      lexeme.isWord ["UNIQUE"] = false ∧ lexeme.isWord ["FOREIGN"] = false := by
  cases lexeme <;> simp [Lexeme.isWord, constraintWords]

theorem takes_tableElement (h : draft.WellNamed) : Takes IsName (tableElement draft) draft.NamedAs := by
  have hbegin : TakesFrom IsName (fun _ => True) (tableElement draft) draft.NamedAs := by
    unfold tableElement
    extract_lets element
    -- Without CONSTRAINT in front, the first token of the element is still the first one.
    have helement : ∀ constraint, TakesFrom IsName
        (fun lexeme => constraint = none → lexeme.isWord ["CONSTRAINT"] = false) (element constraint)
        draft.NamedAs := by
      intro constraint
      refine takesFrom_accept (takes_expect (Takes.ite takes_reject ?_)) (takesFrom_accept ?_ ?_)
      · exact (takes_nameList _).bind fun columns _ => takes_pure ⟨⟨h.columns, h.uniqueKeys, h.foreignKeys⟩, rfl⟩
      · refine takes_accept fun _ => takes_accept fun _ => (takes_nameList _).bind fun columns hcolumns =>
          takes_pure ⟨⟨h.columns, List.forall_mem_append.mpr ⟨h.uniqueKeys, ?_⟩, h.foreignKeys⟩, rfl⟩
        exact List.forall_mem_singleton.mpr hcolumns.1
      refine takesFrom_accept (takes_expect ?_) ?_
      · refine (takes_nameList _).bind fun columns _ => (takes_references _).bind fun foreignKey hnamed =>
          takes_pure ⟨⟨h.columns, h.uniqueKeys, List.forall_mem_append.mpr ⟨h.foreignKeys, ?_⟩⟩, rfl⟩
        exact List.forall_mem_singleton.mpr ⟨hnamed.table, hnamed.columns⟩
      cases constraint with
      | some name => exact takes_complain.takesFrom
      | none =>
        rintro tokens value rest hnamed ⟨⟨⟨hconstraint, hprimary⟩, hunique⟩, hforeign⟩ hrun
        exact takesFrom_tableColumn h tokens value rest hnamed
          (isWord_constraintWords_iff.mpr ⟨hconstraint rfl, hprimary, hunique, hforeign⟩) hrun
    refine takesFrom_accept ((takes_expectName _).bind fun name _ => ?_) ?_
    · intro tokens value rest hnamed hrun
      exact helement (some name) tokens value rest hnamed nofun hrun
    · intro tokens value rest hnamed hfirst hrun
      exact helement none tokens value rest hnamed (fun _ => hfirst.2) hrun
  exact fun tokens value rest hnamed hrun => hbegin tokens value rest hnamed trivial hrun

theorem takes_moreTableElements (fuel : Nat) (h : draft.WellNamed) :
    Takes IsName (moreTableElements fuel draft) draft.NamedAs := by
  induction fuel generalizing draft with
  | zero => exact takes_pure ⟨h, rfl⟩
  | succ fuel ih =>
    refine takes_accept fun _ => Takes.ite ?_ (takes_pure ⟨h, rfl⟩)
    refine (takes_tableElement h).bind fun next hnext => (ih hnext.toWellNamed).mono ?_
    exact fun definition hlast => ⟨hlast.toWellNamed, hlast.table.trans hnext.table⟩

theorem takes_createTable :
    Takes IsName createTable fun definition => IsName definition.table ∧ definition.WellNamed := by
  refine takes_expect (takes_expect ?_)
  have hbody : ∀ ifNotExists table, IsName table →
      Takes IsName (do
        expectSymbol .openParen "'(' after table name"
        let first ← tableElement ⟨table, [], none, [], [], ifNotExists⟩
        let definition ← moreTableElements (← get).length first
        expectSymbol .closeParen "')' to close column list"
        if definition.columns.isEmpty then malformed (.noColumns table)
        else return definition) fun definition => IsName definition.table ∧ definition.WellNamed := by
    intro ifNotExists table htable
    refine takes_expect ((takes_tableElement ⟨by simp, by simp, by simp⟩).bind fun first hfirst => ?_)
    refine takes_get fun _ => (takes_moreTableElements _ hfirst.toWellNamed).bind fun definition hall => ?_
    refine takes_expect ?_
    refine Takes.ite takes_reject (takes_pure ⟨?_, hall.toWellNamed⟩)
    rw [hall.table, hfirst.table]
    exact htable
  refine takes_accept fun _ => Takes.ite (takes_expect (takes_expect ?_)) ?_
  · exact (takes_expectName _).bind fun table htable => hbody true table htable
  · exact (takes_expectName _).bind fun table htable => hbody false table htable

/-! ## Texts -/

theorem bareStatement_defines :
    Shows IsName bareStatement fun statement => ∀ definition, statement = .createTable definition →
      IsName definition.table ∧ definition.WellNamed := by
  have htable : Takes IsName createTable fun table => ∀ definition,
      Statement.createTable table = .createTable definition → IsName definition.table ∧ definition.WellNamed := by
    refine takes_createTable.mono fun table hnamed => ?_
    rintro _ ⟨⟩
    exact hnamed
  refine shows_bareStatement htable.shows ?_ ?_ ?_ ?_ ?_ ?_
  all_goals exact shows_of_forall fun _ _ => nofun

end Parser

/-- The names of a definition that is read from a text. -/
theorem named_of_parse {text : Text} {definition : CreateTable} (h : parse text = .ok (.createTable definition)) :
    IsName definition.table ∧ definition.WellNamed :=
  Parser.bareStatement_defines.of_parse h definition rfl

end SnapshotSql
