import SnapshotSql.Proofs.ReadDefinitions
import SnapshotSql.Proofs.ReferenceTargets

/-! # Tables and views are called by names

CREATE TABLE and CREATE VIEW take the name of what they create from a word of their text, and no other statement
enters a schema. So every table and every view of a reachable snapshot is called by a name that a query can repeat.
-/
namespace SnapshotSql

namespace Parser

theorem takes_createView : Takes IsName createView fun definition => IsName definition.view := by
  refine takes_expect (takes_expect ((takes_expectName _).bind fun view hview => ?_))
  have hselect : Takes IsName select fun query => query.Regular ∧ NamesIn IsName query.lexemes :=
    takes_select (fun _ => IsName.ne_nil) isName_function
  have hstored : Takes IsName (select >>= fun query => pure (⟨view, query⟩ : CreateView)) fun definition =>
      IsName definition.view := hselect.bind fun query _ => takes_pure hview
  exact takes_accept fun _ => Takes.ite (takes_current fun _ _ => Takes.ite hstored takes_reject) takes_reject

theorem bareStatement_namesView : Shows IsName bareStatement fun statement =>
    ∀ definition, statement = .createView definition → IsName definition.view := by
  have hview : Takes IsName createView fun view => ∀ definition,
      Statement.createView view = .createView definition → IsName definition.view := by
    refine takes_createView.mono fun view hname => ?_
    rintro _ ⟨⟩
    exact hname
  refine shows_bareStatement ?_ hview.shows ?_ ?_ ?_ ?_ ?_
  all_goals exact shows_of_forall fun _ _ => nofun

end Parser

/-- A view is called by a name. -/
theorem isName_view_of_parse {text : Text} {definition : CreateView}
    (h : parse text = .ok (.createView definition)) : IsName definition.view :=
  Parser.bareStatement_namesView.of_parse h definition rfl

namespace Database

variable {database before next : Database} {limit : Int} {outcome : Outcome}

def TablesNamed (database : Database) : Prop :=
  ∀ table schema, database.schemas.get? table = some schema → IsName table

theorem TablesNamed.insert {name : Text} {schema : TableSchema} (h : before.TablesNamed) (hname : IsName name)
    (hschemas : next.schemas = before.schemas.insert name schema) : next.TablesNamed := by
  intro table found hfound
  rw [hschemas, OrderedMap.get?_insert] at hfound
  split at hfound
  · next hsame => exact hsame ▸ hname
  · exact h table found hfound

theorem TablesNamed.of_schemas_eq (h : before.TablesNamed) (hschemas : next.schemas = before.schemas) :
    next.TablesNamed := by
  intro table found hfound
  exact h table found (hschemas ▸ hfound)

theorem TablesNamed.erase (h : before.TablesNamed) (table : Text) : (before.eraseTable table).TablesNamed := by
  intro other found hfound
  rw [eraseTable, OrderedMap.get?_erase] at hfound
  split at hfound
  · cases hfound
  · exact h other found hfound

theorem TablesNamed.create (h : before.TablesNamed) (hcreation : Creation before next) : next.TablesNamed := by
  obtain ⟨hdefinition, -, hschema, -, text, hread⟩ := hcreation
  have hname := (of_buildSchema hdefinition hschema).1
  exact h.insert (hname ▸ (named_of_parse hread).1) rfl

theorem TablesNamed.of_createTables {definitions : List CreateTable} (h : database.TablesNamed)
    (hdefinitions : ∀ definition ∈ definitions, (Statement.createTable definition).WellRead)
    (hcreated : database.createTables definitions = .ok outcome) : (outcome.snapshot database).TablesNamed := by
  have hcreations := creations_of_createTables hdefinitions hcreated
  generalize outcome.snapshot database = last at hcreations
  induction hcreations with
  | refl => exact h
  | tail _ hlast ih => exact ih.create hlast

theorem TablesNamed.of_run {text : Text} {statement : Statement} (h : database.TablesNamed)
    (hread : parse text = .ok statement) (hrun : database.run limit statement = .ok outcome) :
    (outcome.snapshot database).TablesNamed := by
  cases statement with
  | createTable definition =>
    refine h.of_createTables (fun other hmem => ?_) (Check.orFail_eq_ok.mp hrun)
    rw [List.mem_singleton.mp hmem]
    exact wellRead_of_parse hread
  | createView definition =>
    obtain ⟨-, result, -, hnext⟩ := of_createView (Check.orFail_eq_ok.mp hrun)
    exact h.insert (isName_view_of_parse hread) (by rw [hnext])
  | dropTable drop =>
    obtain hsame | ⟨herased, -⟩ := of_dropTable (Check.orFail_eq_ok.mp hrun)
    · rwa [hsame]
    · rw [herased]
      exact h.erase drop.table
  | insert insertion => exact h.of_schemas_eq (schemas_of_insert hrun)
  | update change => exact h.of_schemas_eq (schemas_of_update hrun)
  | delete deletion => exact h.of_schemas_eq (schemas_of_delete hrun)
  | select query =>
    obtain ⟨result, -, heq⟩ := Check.map_eq_ok.mp (Check.orFail_eq_ok.mp hrun)
    cases heq
    exact h

theorem TablesNamed.after (h : database.TablesNamed) (limit : Int) (sql : Text) :
    (database.after limit sql).TablesNamed := by
  unfold Database.after
  split
  · next outcome hexecute =>
    obtain hsame | ⟨definitions, hdefinitions, hcreated⟩ | ⟨statement, hruns, hrun⟩ := of_execute hexecute
    · rwa [hsame]
    · exact h.of_createTables hdefinitions hcreated
    · exact h.of_run hruns.parsed hrun
  · exact h

theorem TablesNamed.afterAll (h : database.TablesNamed) (texts : List (Int × Text)) :
    (database.afterAll texts).TablesNamed := by
  induction texts generalizing database with
  | nil => exact h
  | cons text texts ih => exact ih (h.after text.1 text.2)

theorem Reachable.tablesNamed (h : database.Reachable) : database.TablesNamed := by
  obtain ⟨texts, rfl⟩ := h
  have hempty : Database.empty.TablesNamed := nofun
  exact hempty.afterAll texts

end Database

end SnapshotSql
