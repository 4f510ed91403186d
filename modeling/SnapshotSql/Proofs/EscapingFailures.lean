import SnapshotSql.Proofs.InterpreterBounds
import SnapshotSql.Proofs.OverflowingCasts
import SnapshotSql.Proofs.Transitions
import SnapshotSql.Proofs.UnreadableNumerals

/-! # Failures that escape

A session reports every rejection as a result, and only two other failures come through: a text with a
numeral that cannot be read, and an INSERT or UPDATE that brings a number too large for a DECIMAL column.
Besides, the interpreter may break off a run. Every other text has a result, whatever characters it has and
whatever the snapshot is.
-/
namespace SnapshotSql

theorem Check.mapM_eq_error {ε α β : Type} {f : α → Except ε β} {items : List α} {error : ε} :
    items.mapM f = .error error ↔ ∃ earlier item later, items = earlier ++ item :: later ∧
      (∀ other ∈ earlier, ∃ answer, f other = .ok answer) ∧ f item = .error error := by
  induction items with
  | nil => simp [pure_ne_error]
  | cons item items ih =>
    rw [List.mapM_cons, bind_eq_error]
    simp only [bind_pure_eq_error, ih]
    constructor
    · rintro (h | ⟨answer, hitem, earlier, found, later, rfl, hearlier, hfound⟩)
      · exact ⟨[], item, items, rfl, nofun, h⟩
      · exact ⟨item :: earlier, found, later, rfl,
          List.forall_mem_cons.mpr ⟨⟨answer, hitem⟩, hearlier⟩, hfound⟩
    · rintro ⟨_ | ⟨first, earlier⟩, found, later, heq, hearlier, hfound⟩
      · cases heq
        exact Or.inl hfound
      · cases heq
        obtain ⟨⟨answer, hfirst⟩, hearlier⟩ := List.forall_mem_cons.mp hearlier
        exact Or.inr ⟨answer, hfirst, earlier, found, later, rfl, hearlier, hfound⟩

variable {failure : Failure}

/-! ## Reading -/

/-- The lexer comes to a numeral of the text that cannot be read. -/
def Unreadable (text : Text) : Prop :=
  ∃ rest, Lexer.Reaches (Text.trim text) rest ∧ Lexer.UnreadableNumeral rest

theorem not_unreadable_nil : ¬ Unreadable [] := by
  rintro ⟨rest, hreaches, hbegins, -⟩
  change Lexer.Reaches [] rest at hreaches
  cases hreaches
  cases hbegins

theorem scan_ne_overflow {position skip : Nat} {cs : Text} :
    Lexer.scan position skip cs ≠ .error .decimalOverflow := by
  induction cs generalizing position skip with
  | nil => exact nofun
  | cons c cs ih =>
    unfold Lexer.scan
    split
    · exact ih
    · split
      · exact ih
      · split
        · next obstacle _ => cases obstacle <;> simp [Lexer.Obstacle.at]
        · rw [ne_eq, Check.map_eq_error]
          exact ih

theorem tokenize_eq_error (hescape : failure.IsEscape) {text : Text} :
    tokenize text = .error failure ↔ failure = .unreadableDigits ∧
      ∃ rest, Lexer.Reaches text rest ∧ Lexer.UnreadableNumeral rest := by
  have hread : tokenize text = .error .unreadableDigits ↔ _ := Lexer.scan_eq_unreadable
  rw [← hread]
  cases failure with
  | rejected error => exact absurd rfl (hescape error)
  | unreadableDigits => simp
  | decimalOverflow => exact iff_of_false scan_ne_overflow nofun

theorem parse_eq_error (hescape : failure.IsEscape) {text : Text} :
    parse text = .error failure ↔ failure = .unreadableDigits ∧ Unreadable text := by
  unfold parse Unreadable
  simp only [Check.bind_eq_error, hescape.orFail_ne, and_false, exists_false, or_false,
    tokenize_eq_error hescape]

/-- A text of which a numeral cannot be read. In a batch the statements before it are read first. -/
inductive TextUnreadable (sql : Text) : Prop where
  | alone (hkind : SourceText.kind? (Text.trim (SourceText.withoutComments sql)) ≠ some .createTable)
      (hunreadable : Unreadable (Text.trim (SourceText.withoutComments sql))) : TextUnreadable sql
  | inBatch {earlier later : List Text} {piece : Text}
      (hkind : SourceText.kind? (Text.trim (SourceText.withoutComments sql)) = some .createTable)
      (hpieces : SourceText.statements (Text.trim (SourceText.withoutComments sql)) =
        earlier ++ piece :: later)
      (hearlier : ∀ other ∈ earlier, ∃ statement, parse other = .ok statement)
      (hunreadable : Unreadable piece) : TextUnreadable sql

namespace Database

variable {database : Database} {limit : Int}

/-! ## Writes -/

theorem publish_ne_escape (hescape : failure.IsEscape) {α : Type} {write : Staging α} :
    database.publish write ≠ .error failure := by
  intro h
  obtain ⟨error, heq, -⟩ := publish_eq_error.mp h
  exact hescape error heq

def ColumnsListed (schema : TableSchema) (listed : Option (List Text)) : Prop :=
  ∀ columns, listed = some columns → (∀ column ∈ columns, column ∈ schema.columnNames) ∧ columns.Nodup

theorem checkInsertColumns_eq_ok {schema : TableSchema} {listed : Option (List Text)} :
    checkInsertColumns schema listed = .ok () ↔ ColumnsListed schema listed := by
  cases listed with
  | none => simp [checkInsertColumns, ColumnsListed]
  | some columns =>
    have hall : columns.forM schema.requireColumn = .ok () ↔
        ∀ column ∈ columns, column ∈ schema.columnNames := by
      simp only [Check.forM_eq_ok, TableSchema.requireColumn_eq_ok]
    simp only [checkInsertColumns, ColumnsListed, Option.some.injEq, forall_eq', Check.bind_eq_ok,
      hall]
    by_cases hnodup : columns.Nodup <;> simp [hnodup]

/-- A statement brings a number that is too large for a DECIMAL column. An INSERT comes to it if its
columns are in order and no tuple before has too many values or too few. -/
inductive StatementOverflows (database : Database) : Statement → Prop where
  | insert {insertion : Insert} {schema : TableSchema} {earlier later : List (List Scalar)}
      {values : List Scalar} (htable : database.schemas.get? insertion.table = some schema)
      (hcolumns : ColumnsListed schema insertion.columns)
      (htuples : insertion.rows = earlier ++ values :: later)
      (hearlier : ∀ tuple ∈ earlier, TupleFits schema insertion.columns tuple)
      (hfits : TupleFits schema insertion.columns values)
      (hover : TupleOverflows schema insertion.columns values) :
      StatementOverflows database (.insert insertion)
  | update {change : Update} {schema : TableSchema} {row : Row}
      (htable : database.schemas.get? change.table = some schema)
      (hcolumns : ∀ assignment ∈ change.assignments, assignment.column ∈ schema.columnNames)
      (hrow : row ∈ database.tableRows schema.name) (hover : AssignmentOverflows schema change row) :
      StatementOverflows database (.update change)

theorem insert_eq_error (hescape : failure.IsEscape) {insertion : Insert} :
    database.insert insertion = .error failure ↔
      failure = .decimalOverflow ∧ StatementOverflows database (.insert insertion) := by
  simp only [insert, Check.bind_eq_error, hescape.orFail_ne, false_or, Check.orFail_eq_ok,
    requireTable_eq_ok, typedRows_eq_error hescape, publish_ne_escape hescape]
  constructor
  · rintro ⟨schema, htable, ⟨⟩, hcolumns, ⟨rfl, _, _, _, htuples, hearlier, hfits, hover⟩ |
      ⟨_, -, _, -, hanswer⟩⟩
    · exact ⟨rfl, .insert htable (checkInsertColumns_eq_ok.mp hcolumns) htuples hearlier hfits hover⟩
    · split at hanswer <;> exact absurd hanswer Check.pure_ne_error
  · rintro ⟨rfl, hover⟩
    cases hover with
    | insert htable hcolumns htuples hearlier hfits hover =>
      exact ⟨_, htable, (), checkInsertColumns_eq_ok.mpr hcolumns,
        Or.inl ⟨rfl, _, _, _, htuples, hearlier, hfits, hover⟩⟩

theorem update_eq_error (hescape : failure.IsEscape) {change : Update} :
    database.update limit change = .error failure ↔
      failure = .decimalOverflow ∧ StatementOverflows database (.update change) := by
  have hassigned (schema : TableSchema) :
      (change.assignments.forM fun assignment => schema.requireColumn assignment.column) = .ok () ↔
        ∀ assignment ∈ change.assignments, assignment.column ∈ schema.columnNames := by
    simp only [Check.forM_eq_ok, TableSchema.requireColumn_eq_ok]
  simp only [update, Check.bind_eq_error, hescape.orFail_ne, false_or, Check.orFail_eq_ok,
    requireTable_eq_ok, changesFrom_eq_error, publish_ne_escape hescape, Check.pure_ne_error,
    and_false, exists_false, or_false]
  constructor
  · rintro ⟨schema, htable, ⟨⟩, hcolumns, rfl, row, hrow, hover⟩
    exact ⟨rfl, .update htable ((hassigned schema).mp hcolumns) hrow hover⟩
  · rintro ⟨rfl, hover⟩
    cases hover with
    | update htable hcolumns hrow hover =>
      exact ⟨_, htable, (), (hassigned _).mpr hcolumns, rfl, _, hrow, hover⟩

/-- Only INSERT and UPDATE fail otherwise than by a rejection, and only over a number. -/
theorem run_eq_error (hescape : failure.IsEscape) {statement : Statement} :
    database.run limit statement = .error failure ↔
      failure = .decimalOverflow ∧ StatementOverflows database statement := by
  cases statement with
  | insert insertion => exact insert_eq_error hescape
  | update change => exact update_eq_error hescape
  | delete deletion =>
    refine iff_of_false (fun h => ?_) fun ⟨_, h⟩ => nomatch h
    simp only [run, delete, Check.bind_eq_error, hescape.orFail_ne, publish_ne_escape hescape,
      Check.pure_ne_error, false_or, and_false, exists_false] at h
  | _ => exact iff_of_false hescape.orFail_ne fun ⟨_, h⟩ => nomatch h

/-! ## Texts -/

def Overflows (database : Database) (sql : Text) : Prop :=
  ∃ statement, RunsAs sql statement ∧ database.StatementOverflows statement

/-- A text fails otherwise than by a rejection for one of two reasons, and fails for them always. -/
theorem execute_eq_error (hescape : failure.IsEscape) {sql : Text} :
    database.execute limit sql = .error failure ↔
      failure = .unreadableDigits ∧ TextUnreadable sql ∨
        failure = .decimalOverflow ∧ database.Overflows sql := by
  unfold execute runText
  dsimp only
  -- An empty text is not read, a batch piece by piece, and any other text as one statement.
  split
  · next hempty =>
    have hnil : Text.trim (SourceText.withoutComments sql) = [] := List.isEmpty_iff.mp hempty
    refine iff_of_false Check.pure_ne_error ?_
    rintro (⟨-, hunreadable⟩ | ⟨-, _, hruns, -⟩)
    · cases hunreadable with
      | alone _ hunreadable =>
        rw [hnil] at hunreadable
        exact not_unreadable_nil hunreadable
      | inBatch hkind =>
        rw [hnil] at hkind
        cases hkind
    · rw [hruns.nonempty] at hempty
      cases hempty
  · next hnonempty =>
    split
    · next hkind =>
      simp only [Check.bind_eq_error, hescape.orFail_ne, and_false, exists_false, or_false,
        Check.mapM_eq_error, parse_eq_error hescape]
      constructor
      · rintro ⟨_, _, _, hpieces, hearlier, rfl, hunreadable⟩
        exact Or.inl ⟨rfl, .inBatch hkind hpieces hearlier hunreadable⟩
      · rintro (⟨rfl, hunreadable⟩ | ⟨-, _, hruns, -⟩)
        · cases hunreadable with
          | alone hother _ => exact absurd hkind hother
          | inBatch _ hpieces hearlier hunreadable =>
            exact ⟨_, _, _, hpieces, hearlier, rfl, hunreadable⟩
        · exact absurd hkind hruns.kind
    · next hkind =>
      simp only [Check.bind_eq_error, parse_eq_error hescape, run_eq_error hescape]
      constructor
      · rintro (⟨rfl, hunreadable⟩ | ⟨_, hparse, rfl, hover⟩)
        · exact Or.inl ⟨rfl, .alone hkind hunreadable⟩
        · exact Or.inr ⟨rfl, _, ⟨by simpa using hnonempty, hkind, hparse⟩, hover⟩
      · rintro (⟨rfl, hunreadable⟩ | ⟨rfl, _, hruns, hover⟩)
        · cases hunreadable with
          | alone _ hunreadable => exact Or.inl ⟨rfl, hunreadable⟩
          | inBatch hbatch => exact absurd hbatch hkind
        · exact Or.inr ⟨_, hruns.parsed, rfl, hover⟩

theorem checked_ne_escape (hescape : failure.IsEscape) {outcome : Outcome} : outcome.checked ≠ .error failure := by
  obtain ⟨_ | next, result⟩ := outcome
  · exact nofun
  · simp only [Outcome.checked, ne_eq, Check.bind_eq_error, hescape.orFail_ne, Check.pure_ne_error, and_false,
      exists_false, or_false, not_false_eq_true]

/-- The check of the next snapshot rejects, so nothing escapes from it. -/
theorem executeChecked_eq_error (hescape : failure.IsEscape) {sql : Text} :
    database.executeChecked limit sql = .error failure ↔
      failure = .unreadableDigits ∧ TextUnreadable sql ∨
        failure = .decimalOverflow ∧ database.Overflows sql := by
  simp only [executeChecked, Check.bind_eq_error, checked_ne_escape hescape, and_false, exists_false, or_false,
    execute_eq_error hescape]

theorem escapes_iff {sql : Text} :
    (∃ failure : Failure, failure.IsEscape ∧ database.executeChecked limit sql = .error failure) ↔
      TextUnreadable sql ∨ database.Overflows sql := by
  constructor
  · rintro ⟨failure, hescape, h⟩
    exact ((executeChecked_eq_error hescape).mp h).imp And.right And.right
  · rintro (hunreadable | hover)
    · exact ⟨_, Failure.isEscape_unreadableDigits,
        (executeChecked_eq_error Failure.isEscape_unreadableDigits).mpr (Or.inl ⟨rfl, hunreadable⟩)⟩
    · exact ⟨_, Failure.isEscape_decimalOverflow,
        (executeChecked_eq_error Failure.isEscape_decimalOverflow).mpr (Or.inr ⟨rfl, hover⟩)⟩

end Database

namespace Session

/-- What a session makes of an execution: the result that is answered, or a report of the rejection. -/
inductive Reported : Except Failure Outcome → QueryResult → Prop where
  | answered (outcome : Outcome) : Reported (.ok outcome) outcome.result
  | rejected (error : SqlError) : Reported (.error (.rejected error)) (.error error.message)

theorem executeText_eq_ok {session : Session} {limit : Int} {sql : Text} {result : QueryResult} :
    (session.executeText limit sql).2 = .ok result ↔
      Reported (session.database.runText limit sql >>= Outcome.checked) result := by
  simp only [executeText, record]
  generalize session.database.runText limit sql >>= Outcome.checked = executed
  constructor
  · intro h
    rcases executed with (error | _ | _) | outcome
    · cases h
      exact .rejected error
    · cases h
    · cases h
    · cases h
      exact .answered outcome
  · rintro (outcome | error) <;> rfl

theorem executeOn_eq_ok {interpreter : Interpreter} {session : Session} {limit : Int} {sql : Text}
    {result : QueryResult} : (session.executeOn interpreter limit sql).2 = .ok result ↔
      ¬ interpreter.BreaksOff session.database limit (SourceText.withoutComments sql) ∧
        Reported (session.database.executeChecked limit sql) result := by
  have hexecuted : session.database.executeChecked limit sql =
      session.database.runText limit (SourceText.withoutComments sql) >>= Outcome.checked := rfl
  rw [hexecuted, ← executeText_eq_ok]
  unfold executeOn executeTextOn Interpreter.BreaksOff
  cases interpreter.exceeded? session.database limit (SourceText.withoutComments sql) with
  | some bound => exact iff_of_false nofun fun h => h.1 (Option.some_ne_none bound)
  | none =>
    rw [not_ne_iff, eq_self, true_and]
    generalize session.executeText limit (SourceText.withoutComments sql) = executed
    obtain ⟨next, failure | answer⟩ := executed
    · exact iff_of_false nofun nofun
    · simp [Except.mapError]

theorem exists_reported {executed : Except Failure Outcome} : (∃ result, Reported executed result) ↔
    (∃ outcome, executed = .ok outcome) ∨ ∃ error, executed = .error (.rejected error) := by
  constructor
  · rintro ⟨_, outcome | error⟩
    · exact Or.inl ⟨outcome, rfl⟩
    · exact Or.inr ⟨error, rfl⟩
  · rintro (⟨outcome, rfl⟩ | ⟨error, rfl⟩)
    · exact ⟨_, .answered outcome⟩
    · exact ⟨_, .rejected error⟩

/-- A session has a result for a text, what the statement answers or a report of its rejection, unless
the text has a numeral that cannot be read or brings a number too large for its column, or the interpreter
breaks it off. It is broken off where it needs more than there is, and not where it stays far from that. -/
theorem execute_has_result (interpreter : Interpreter) (session : Session) (limit : Int) (sql : Text) :
    ((∃ result, (session.executeOn interpreter limit sql).2 = .ok result) ↔
      ¬ TextUnreadable sql ∧ ¬ session.database.Overflows sql ∧
        ¬ interpreter.BreaksOff session.database limit (SourceText.withoutComments sql)) ∧
    (∀ result, (session.executeOn interpreter limit sql).2 = .ok result ↔
      ¬ interpreter.BreaksOff session.database limit (SourceText.withoutComments sql) ∧
        Reported (session.database.executeChecked limit sql) result) ∧
    (interpreter.Exceeds session.database limit (SourceText.withoutComments sql) →
      interpreter.BreaksOff session.database limit (SourceText.withoutComments sql)) ∧
    (interpreter.Allow session.database limit (SourceText.withoutComments sql) →
      ¬ interpreter.BreaksOff session.database limit (SourceText.withoutComments sql)) := by
  refine ⟨?_, fun _ => executeOn_eq_ok, Interpreter.breaksOff_of_exceeds, Interpreter.not_breaksOff_of_allow⟩
  simp only [executeOn_eq_ok, exists_and_left, exists_reported, Check.ok_or_rejected_iff, Database.escapes_iff,
    not_or]
  tauto

def teamText : Text := "CREATE TABLE team (id INT PRIMARY KEY) -- one column"

/-- The text read and run in the empty snapshot: it is short, has one pair of parentheses, and succeeds. It has
no condition, and there is no row to cast. -/
theorem evaluated_teamText :
    (SourceText.withoutComments teamText).length ≤ 309 ∧
      (SourceText.withoutComments teamText).count (.char '(') = 1 ∧
      (parse (SourceText.withoutComments teamText)).toOption.all (fun statement =>
        statement.conditions.isEmpty && (Database.empty.rowsToCast statement).isEmpty) = true ∧
      (Database.empty.executeChecked defaultDepthLimit teamText).isOk = true := by
  decide +kernel

theorem allow_teamText :
    Interpreter.standard.Allow .empty defaultDepthLimit (SourceText.withoutComments teamText) := by
  have hsimple (statement : Statement) (hparse : parse (SourceText.withoutComments teamText) = .ok statement) :
      statement.conditions = [] ∧ Database.empty.rowsToCast statement = [] := by
    have hread := evaluated_teamText.2.2.1
    rw [hparse] at hread
    exact (Bool.and_eq_true_iff.mp hread).imp List.isEmpty_iff.mp List.isEmpty_iff.mp
  constructor
  case values =>
    have hrows (table : Text) : Binary64.digitCount (Database.empty.tableRows table).length ≤ 309 := by
      change Binary64.digitCount 0 ≤ 309
      decide
    exact ⟨309, by decide, by decide, fun run hrun _ => hrun.length_le.trans evaluated_teamText.1, by decide,
      fun table => ⟨hrows table, nofun⟩⟩
  case parentheses =>
    rw [evaluated_teamText.2.1]
    decide
  case conditions =>
    intro statement hparse
    rw [(hsimple statement hparse).1]
    exact nofun
  case needs =>
    intro statement hparse bound
    obtain ⟨hconditions, hrows⟩ := hsimple statement hparse
    rw [Database.need_eq_zero bound hconditions hrows]
    exact Nat.zero_le _
  case padding =>
    intro statement hparse
    rw [Database.castNeeds, (hsimple statement hparse).2]
    exact Nat.zero_le _

theorem execute_has_result_team :
    Interpreter.standard.Allow .empty defaultDepthLimit (SourceText.withoutComments teamText) ∧
      ∃ result, ((new (.text "playground")).executeOn .standard defaultDepthLimit teamText).2 = .ok result := by
  obtain ⟨-, hresult, -, hallow⟩ :=
    execute_has_result .standard (new (.text "playground")) defaultDepthLimit teamText
  obtain ⟨outcome, hexecuted⟩ : ∃ outcome, Database.empty.executeChecked defaultDepthLimit teamText = .ok outcome :=
    Check.exists_of_isOk evaluated_teamText.2.2.2
  refine ⟨allow_teamText, outcome.result, (hresult _).mpr ⟨hallow allow_teamText, ?_⟩⟩
  change Reported (Database.empty.executeChecked defaultDepthLimit teamText) _
  rw [hexecuted]
  exact .answered outcome

/-- A superscript digit begins a numeral but cannot be read, even where there is no table. -/
theorem not_every_text_has_result : ¬ ∀ (session : Session) (limit : Int) (sql : Text),
    session.database.Reachable → ∃ result, (session.executeOn .standard limit sql).2 = .ok result := by
  intro hevery
  obtain ⟨result, h⟩ := hevery (.new (.text "playground")) defaultDepthLimit "SELECT ²" ⟨[], rfl⟩
  have hnone : (executeOn (.new (.text "playground")) .standard defaultDepthLimit "SELECT ²").2.isOk = false := by
    decide
  rw [h] at hnone
  cases hnone

end Session

end SnapshotSql
