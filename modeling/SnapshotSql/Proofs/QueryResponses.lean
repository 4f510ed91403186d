import SnapshotSql.Proofs.CheckedSnapshots
import SnapshotSql.Proofs.EscapingFailures
import SnapshotSql.Proofs.SingleInserts
import SnapshotSql.Service

/-! # Answers to a query over HTTP

A text that is posted to a session is answered with status 200 if it succeeds and with 400 if it is
rejected. The answer is told from the columns of the result alone. So a success is reported as a failure
if `error` is the only column that it shows: a SELECT of a column or label of that name, or an INSERT of
one row that is stored with that column only. Where the interpreter breaks off the run, or cannot write the
result that there is, the answer says no more than that.
-/
namespace SnapshotSql

/-! ## Results with the one column `error` -/

namespace Database

variable {database : Database} {limit : Int} {outcome : Outcome} {sql : Text}

/-- A statement shows `error` as the only column of its outcome. -/
inductive ErrorOnly (database : Database) (outcome : Outcome) : Statement → Prop where
  | select {query : Select} {schema : TableSchema}
      (htable : database.schemas.get? query.table = some schema)
      (hcolumns : query.resultColumns schema = [Text.ofString "error"]) :
      ErrorOnly database outcome (.select query)
  | insert {insertion : Insert} {schema : TableSchema} {row : Row}
      (htable : database.schemas.get? insertion.table = some schema)
      (hstored : (outcome.snapshot database).tableRows schema.name =
        database.tableRows schema.name ++ [row])
      (hnames : row.names = [Text.ofString "error"]) : ErrorOnly database outcome (.insert insertion)

theorem isError_of_createTables {definitions : List CreateTable}
    (h : database.createTables definitions = .ok outcome) : outcome.result.isError = false := by
  obtain ⟨created, -, h⟩ := Check.bind_eq_ok.mp h
  split at h <;> cases h <;> rfl

theorem isError_of_createView {definition : CreateView} (h : database.createView definition = .ok outcome) :
    outcome.result.isError = false := by
  unfold createView at h
  dsimp only at h
  split at h
  · obtain ⟨_, hfalse, -⟩ := Check.bind_eq_ok.mp h
    exact absurd hfalse Check.invalid_ne_ok
  · obtain ⟨result, -, h⟩ := Check.bind_eq_ok.mp h
    cases h
    rfl

theorem isError_of_dropTable {drop : DropTable} (h : database.dropTable drop = .ok outcome) :
    outcome.result.isError = false := by
  unfold dropTable at h
  dsimp only at h
  split at h
  · split at h <;> cases h
    rfl
  · split at h <;> cases h
    rfl

theorem tableRows_of_publish_insert {table : Text} {rows inserted : List Row} {next : Database}
    (h : database.publish (Integrity.insert database table rows) = .ok (inserted, next)) :
    next.tableRows table = database.tableRows table ++ inserted := by
  obtain ⟨_, _, -, -, -, rfl⟩ := publish_insert_eq_ok.mp h
  rw [tableRows_commit, Staging.rowsIn_only_self]

/-- An INSERT of one row answers with the row, and of several rows with their number. -/
theorem isError_of_insert {insertion : Insert} (h : database.insert insertion = .ok outcome) :
    outcome.result.isError = true ↔ ErrorOnly database outcome (.insert insertion) := by
  simp only [insert, Check.bind_eq_ok, Check.orFail_eq_ok, requireTable_eq_ok, Prod.exists] at h
  obtain ⟨schema, htable, ⟨⟩, -, rows, -, inserted, next, hpublish, h⟩ := h
  have hrows := tableRows_of_publish_insert hpublish
  have honly : ErrorOnly database outcome (.insert insertion) ↔
      ∃ row, (outcome.snapshot database).tableRows schema.name =
        database.tableRows schema.name ++ [row] ∧ row.names = [Text.ofString "error"] := by
    constructor
    · rintro (_ | ⟨hfound, hstored, hnames⟩)
      cases htable.symm.trans hfound
      exact ⟨_, hstored, hnames⟩
    · rintro ⟨row, hstored, hnames⟩
      exact .insert htable hstored hnames
  rw [honly]
  -- The answer shows the rows that the table has got, as long as it is one row.
  have hadds (row : Row) : next.tableRows schema.name = database.tableRows schema.name ++ [row] ↔
      inserted = [row] := by
    rw [hrows, List.append_cancel_left_eq]
  rcases inserted with _ | ⟨row, _ | ⟨second, more⟩⟩ <;> cases h
  · refine iff_of_false Bool.false_ne_true ?_
    rintro ⟨row, hstored, -⟩
    cases (hadds row).mp hstored
  · constructor
    · exact fun herror => ⟨row, (hadds row).mpr rfl, of_decide_eq_true herror⟩
    · rintro ⟨stored, hstored, hnames⟩
      cases (hadds stored).mp hstored
      exact decide_eq_true hnames
  · refine iff_of_false Bool.false_ne_true ?_
    rintro ⟨row, hstored, -⟩
    cases (hadds row).mp hstored

theorem isError_of_select {query : Select} {result : QueryResult} (h : database.select query = .ok result) :
    result.isError = true ↔ ErrorOnly database (.unchanged result) (.select query) := by
  simp only [select, Check.bind_eq_ok, requireTable_eq_ok] at h
  obtain ⟨schema, htable, ⟨⟩, -, h⟩ := h
  cases h
  have hcolumns : (query.resultOf schema (database.tableRows query.table)).isError = true ↔
      query.resultColumns schema = [Text.ofString "error"] := decide_eq_true_iff
  rw [hcolumns]
  constructor
  · exact .select htable
  · rintro (⟨hfound, hcolumns⟩ | _)
    cases htable.symm.trans hfound
    exact hcolumns

/-- Only a SELECT and an INSERT can answer with the columns of a rejection. -/
theorem isError_of_run {statement : Statement} (h : database.run limit statement = .ok outcome) :
    outcome.result.isError = true ↔ ErrorOnly database outcome statement := by
  have hother {statement : Statement} (hresult : outcome.result.isError = false)
      (hnone : ¬ ErrorOnly database outcome statement) :
      outcome.result.isError = true ↔ ErrorOnly database outcome statement :=
    iff_of_false (by rw [hresult]; exact Bool.false_ne_true) hnone
  cases statement with
  | createTable definition =>
    exact hother (isError_of_createTables (Check.orFail_eq_ok.mp h)) (by rintro ⟨⟩)
  | createView definition =>
    exact hother (isError_of_createView (Check.orFail_eq_ok.mp h)) (by rintro ⟨⟩)
  | dropTable drop => exact hother (isError_of_dropTable (Check.orFail_eq_ok.mp h)) (by rintro ⟨⟩)
  | insert insertion => exact isError_of_insert h
  | update change =>
    simp only [run, update, Check.bind_eq_ok] at h
    obtain ⟨_, -, _, -, _, -, _, -, h⟩ := h
    cases h
    exact hother rfl (by rintro ⟨⟩)
  | delete deletion =>
    simp only [run, delete, Check.bind_eq_ok] at h
    obtain ⟨_, -, _, -, h⟩ := h
    cases h
    exact hother rfl (by rintro ⟨⟩)
  | select query =>
    obtain ⟨result, hresult, rfl⟩ := Check.map_eq_ok.mp (Check.orFail_eq_ok.mp h)
    exact isError_of_select hresult

def Rejects (database : Database) (limit : Int) (sql : Text) : Prop :=
  ∃ error, database.executeChecked limit sql = .error (.rejected error)

/-- A text is a statement that succeeds and shows `error` as its only column. -/
def LooksRejected (database : Database) (limit : Int) (sql : Text) : Prop :=
  ∃ statement outcome, RunsAs sql statement ∧ database.run limit statement = .ok outcome ∧
    outcome.checked = .ok outcome ∧ ErrorOnly database outcome statement

theorem exists_ok_iff : (∃ outcome, database.executeChecked limit sql = .ok outcome) ↔
    ¬ database.Rejects limit sql ∧ ¬ TextUnreadable sql ∧ ¬ database.Overflows sql := by
  rw [← not_or, ← @escapes_iff database limit, ← Check.ok_or_rejected_iff]
  unfold Rejects
  cases database.executeChecked limit sql <;> simp

theorem executeChecked_eq_ok : database.executeChecked limit sql = .ok outcome ↔
    database.execute limit sql = .ok outcome ∧ outcome.checked = .ok outcome := by
  rw [executeChecked, Check.bind_eq_ok]
  constructor
  · rintro ⟨executed, hexecuted, hchecked⟩
    obtain ⟨rfl, -⟩ := checked_eq_ok.mp hchecked
    exact ⟨hexecuted, hchecked⟩
  · exact fun h => ⟨outcome, h⟩

/-- What succeeds with the columns of a rejection is no empty text and no batch. -/
theorem looksRejected_iff : database.LooksRejected limit sql ↔
    ∃ outcome, database.executeChecked limit sql = .ok outcome ∧ outcome.result.isError = true := by
  constructor
  · rintro ⟨statement, outcome, hruns, hrun, hchecked, honly⟩
    exact ⟨outcome, executeChecked_eq_ok.mpr ⟨(execute_of_runsAs hruns).trans hrun, hchecked⟩,
      (isError_of_run hrun).mpr honly⟩
  · rintro ⟨outcome, h, herror⟩
    obtain ⟨h, hchecked⟩ := executeChecked_eq_ok.mp h
    unfold execute runText at h
    dsimp only at h
    split at h
    · cases h
      cases herror
    · next hnonempty =>
      split at h
      · simp only [Check.bind_eq_ok, Check.orFail_eq_ok] at h
        obtain ⟨_, -, _, -, h⟩ := h
        rw [isError_of_createTables h] at herror
        cases herror
      · next hkind =>
        obtain ⟨statement, hparse, h⟩ := Check.bind_eq_ok.mp h
        exact ⟨statement, outcome, ⟨by simpa using hnonempty, hkind, hparse⟩, h, hchecked,
          (isError_of_run h).mp herror⟩

end Database

/-! ## Interruptions -/

namespace Interpreter

variable {interpreter : Interpreter} {database : Database} {limit : Int} {sql : Text}

/-- A text succeeds with a result that cannot be written. -/
def LeavesUnwritten (interpreter : Interpreter) (database : Database) (limit : Int) (sql : Text) : Prop :=
  ∃ outcome, database.executeChecked limit sql = .ok outcome ∧
    interpreter.writesRows outcome.result.rows = false

/-- A text is broken off, or its result is not written. -/
def Interrupts (interpreter : Interpreter) (database : Database) (limit : Int) (sql : Text) : Prop :=
  interpreter.BreaksOff database limit (SourceText.withoutComments sql) ∨
    interpreter.LeavesUnwritten database limit sql

theorem interrupts_of_exceeds (h : interpreter.Exceeds database limit (SourceText.withoutComments sql)) :
    interpreter.Interrupts database limit sql :=
  .inl (breaksOff_of_exceeds h)

theorem interrupts_of_allow (h : interpreter.Allow database limit (SourceText.withoutComments sql)) :
    interpreter.Interrupts database limit sql ↔ interpreter.LeavesUnwritten database limit sql :=
  or_iff_right (not_breaksOff_of_allow h)

end Interpreter

/-! ## Answers -/

namespace Response

def Succeeds (response : Response) : Prop :=
  response.status = 200 ∧ response.body.member? "success" = some (.bool true)

def Fails (response : Response) : Prop :=
  response.status = 400 ∧ response.body.member? "success" = some (.bool false)

end Response

def Json.query? (body : Json) : Option Text :=
  match body.member? "query" with
  | some (.scalar (.text sql)) => some sql
  | _ => none

def Gateway.query? (gateway : Gateway) (request : Request) : Option Text :=
  (gateway.body? request).bind Json.query?

namespace Service

variable {service : Service} {request : Request} {session : Session} {interpreter : Interpreter} {limit : Int}
  {sql : Text}

/-- A request posts a text to a session that there is. The text is not empty and not too long. -/
structure Posts (service : Service) (request : Request) (session : Session) (sql : Text) : Prop where
  address : ∃ name, service.gateway.address request = .found (.execute name) ∧
    service.find? (.text name) = some session
  query : service.gateway.query? request = some sql
  nonempty : sql ≠ []
  short : sql.length ≤ service.maxQueryLength

/-- A request posts a text, whatever the gateway is, if its path needs no escapes and its body is an object
of texts that is announced as JSON. -/
theorem posts_of_asks {name : Text} (hasks : request.Asks (.execute name))
    (hsession : service.find? (.text name) = some session)
    (htype : request.contentType = Text.ofString "application/json")
    (htexts : (Json.ofBytes? request.body).any Json.holdsTexts = true)
    (hquery : (Json.ofBytes? request.body).bind Json.query? = some sql) (hnonempty : sql ≠ [])
    (hshort : sql.length ≤ service.maxQueryLength) : service.Posts request session sql where
  address := ⟨name, service.gateway.routes request _ hasks, hsession⟩
  query := by rw [Gateway.query?, service.gateway.reads request htype htexts, hquery]
  nonempty := hnonempty
  short := hshort

theorem required_of_query {gateway : Gateway} (hquery : gateway.query? request = some sql) (hsql : sql ≠ []) :
    required gateway request "query" "Query" = .ok (.text sql) := by
  have hpresent : (Json.text sql).isEmpty = false := by
    cases sql with
    | nil => exact absurd rfl hsql
    | cons c cs => rfl
  obtain ⟨body, hbody, hquery⟩ := Option.bind_eq_some_iff.mp hquery
  unfold Json.query? at hquery
  unfold required
  rw [hbody]
  split at hquery
  · next found hmember =>
    cases hquery
    rcases body with value | items | _ | ⟨member, members⟩
    · cases hmember
    · cases hmember
    · cases hmember
    · dsimp only
      rw [hmember]
      exact if_neg (by rw [← Json.text, hpresent]; exact Bool.false_ne_true)
  · cases hquery

theorem response_of_posts (h : service.Posts request session sql) :
    (service.handle request).2 = (executeIn service.interpreter service.depthLimit (.text sql) session).2 := by
  obtain ⟨⟨name, haddress, hsession⟩, hquery, hnonempty, hshort⟩ := h
  have hlength : ¬ service.maxQueryLength < sql.length := Int.not_lt.mpr hshort
  unfold handle
  rw [haddress]
  change (service.execute name request).2 = _
  simp only [execute, required_of_query hquery hnonempty, queryLength?, Json.text, if_neg hlength, change,
    hsession]

theorem succeeds_success (active : Json) (result : QueryResult) :
    (success (("active", active) :: result.members)).Succeeds :=
  ⟨rfl, rfl⟩

theorem fails_result (result : QueryResult) :
    Response.Fails ⟨400, .object (("success", .bool false) :: result.members)⟩ :=
  ⟨rfl, rfl⟩

/-- How an execution is answered that is not broken off. -/
inductive Answers (interpreter : Interpreter) : Except Failure Outcome → Response → Prop where
  | succeeded {outcome : Outcome} {response : Response}
      (hwritten : interpreter.writesRows outcome.result.rows = true) (hshown : outcome.result.isError = false)
      (h : response.Succeeds) : Answers interpreter (.ok outcome) response
  | looksRejected {outcome : Outcome} {response : Response}
      (hwritten : interpreter.writesRows outcome.result.rows = true) (hshown : outcome.result.isError = true)
      (h : response.Fails) : Answers interpreter (.ok outcome) response
  | unwritten {outcome : Outcome} {response : Response}
      (hwritten : interpreter.writesRows outcome.result.rows = false) (h : response.status = 500) :
      Answers interpreter (.ok outcome) response
  | rejected {error : SqlError} {response : Response} (h : response.Fails) :
      Answers interpreter (.error (.rejected error)) response
  | escaped {failure : Failure} {response : Response} (hescape : failure.IsEscape)
      (h : response.status = 500) : Answers interpreter (.error failure) response

theorem answers_executeIn
    (h : ¬ interpreter.BreaksOff session.database limit (SourceText.withoutComments sql)) :
    Answers interpreter (session.database.executeChecked limit sql)
      (executeIn interpreter limit (.text sql) session).2 := by
  have hexecuted : session.database.runText limit (SourceText.withoutComments sql) >>= Outcome.checked =
      session.database.executeChecked limit sql := rfl
  rw [Interpreter.BreaksOff, not_ne_iff] at h
  simp only [executeIn, queryText?, Json.text, Session.executeTextOn, h, Session.executeText, Session.record,
    hexecuted]
  rcases session.database.executeChecked limit sql with (error | _ | _) | outcome
  · exact .rejected (fails_result _)
  · exact .escaped Failure.isEscape_unreadableDigits rfl
  · exact .escaped Failure.isEscape_decimalOverflow rfl
  · dsimp only [Session.report, Except.mapError, answer]
    cases hwritten : interpreter.writesRows outcome.result.rows with
    | false => exact .unwritten hwritten rfl
    | true =>
      cases hshown : outcome.result.isError with
      | false => exact .succeeded hwritten hshown (succeeds_success _ _)
      | true => exact .looksRejected hwritten hshown (fails_result _)

/-- A query that is broken off has an answer that says no more than that. -/
theorem status_executeIn (h : interpreter.BreaksOff session.database limit (SourceText.withoutComments sql)) :
    (executeIn interpreter limit (.text sql) session).2.status = 500 := by
  obtain ⟨bound, hbound⟩ := Option.ne_none_iff_exists'.mp h
  simp only [executeIn, queryText?, Json.text, Session.executeTextOn, hbound]
  rfl

namespace Answers

variable {executed : Except Failure Outcome} {response : Response}

theorem succeeds_iff (h : Answers interpreter executed response) : response.Succeeds ↔
    ∃ outcome, executed = .ok outcome ∧ outcome.result.isError = false ∧
      interpreter.writesRows outcome.result.rows = true := by
  cases h with
  | succeeded hwritten hshown h => simp [h, hshown, hwritten]
  | looksRejected hwritten hshown h => simp [Response.Succeeds, h.1, hshown]
  | unwritten hwritten h => simp [Response.Succeeds, h, hwritten]
  | rejected h => simp [Response.Succeeds, h.1]
  | escaped hescape h => simp [Response.Succeeds, h]

theorem fails_iff (h : Answers interpreter executed response) : response.Fails ↔
    (∃ error, executed = .error (.rejected error)) ∨
      ∃ outcome, executed = .ok outcome ∧ outcome.result.isError = true ∧
        interpreter.writesRows outcome.result.rows = true := by
  cases h with
  | succeeded hwritten hshown h => simp [Response.Fails, h.1, hshown]
  | looksRejected hwritten hshown h => simp [h, hshown, hwritten]
  | unwritten hwritten h => simp [Response.Fails, h, hwritten]
  | rejected h => simp [h]
  | escaped hescape h => simp [Response.Fails, h, hescape _]

theorem status_eq_iff (h : Answers interpreter executed response) : response.status = 500 ↔
    (∃ failure : Failure, failure.IsEscape ∧ executed = .error failure) ∨
      ∃ outcome, executed = .ok outcome ∧ interpreter.writesRows outcome.result.rows = false := by
  cases h with
  | succeeded hwritten hshown h => simp [h.1, hwritten]
  | looksRejected hwritten hshown h => simp [h.1, hwritten]
  | unwritten hwritten h => simp [h, hwritten]
  | rejected h => simp [h.1, Failure.IsEscape]
  | escaped hescape h => simp [h, hescape]

end Answers

section
variable (h : service.Posts request session sql)
include h

theorem status_of_breaksOff
    (hoff : service.interpreter.BreaksOff session.database service.depthLimit (SourceText.withoutComments sql)) :
    (service.handle request).2.status = 500 := by
  rw [response_of_posts h]
  exact status_executeIn hoff

theorem answers_of_posts
    (hon : ¬ service.interpreter.BreaksOff session.database service.depthLimit (SourceText.withoutComments sql)) :
    Answers service.interpreter (session.database.executeChecked service.depthLimit sql)
      (service.handle request).2 := by
  rw [response_of_posts h]
  exact answers_executeIn hon

theorem succeeds_of_posts : (service.handle request).2.Succeeds ↔
    ¬ session.database.Rejects service.depthLimit sql ∧ ¬ TextUnreadable sql ∧
      ¬ session.database.Overflows sql ∧ ¬ session.database.LooksRejected service.depthLimit sql ∧
        ¬ service.interpreter.Interrupts session.database service.depthLimit sql := by
  by_cases hoff : service.interpreter.BreaksOff session.database service.depthLimit (SourceText.withoutComments sql)
  · refine iff_of_false (fun hsucceeds => ?_) fun hnot => hnot.2.2.2.2 (.inl hoff)
    cases (status_of_breaksOff h hoff).symm.trans hsucceeds.1
  · rw [(answers_of_posts h hoff).succeeds_iff, Interpreter.Interrupts, or_iff_right hoff,
      ← and_assoc (a := ¬ TextUnreadable sql), ← and_assoc, ← Database.exists_ok_iff, Database.looksRejected_iff,
      Interpreter.LeavesUnwritten]
    cases session.database.executeChecked service.depthLimit sql <;> simp

theorem fails_of_posts : (service.handle request).2.Fails ↔
    (session.database.Rejects service.depthLimit sql ∨
      session.database.LooksRejected service.depthLimit sql) ∧
        ¬ service.interpreter.Interrupts session.database service.depthLimit sql := by
  by_cases hoff : service.interpreter.BreaksOff session.database service.depthLimit (SourceText.withoutComments sql)
  · refine iff_of_false (fun hfails => ?_) fun hnot => hnot.2 (.inl hoff)
    cases (status_of_breaksOff h hoff).symm.trans hfails.1
  · rw [(answers_of_posts h hoff).fails_iff, Interpreter.Interrupts, or_iff_right hoff,
      Database.looksRejected_iff, Interpreter.LeavesUnwritten, Database.Rejects]
    cases session.database.executeChecked service.depthLimit sql <;> simp

theorem status_of_posts : (service.handle request).2.status = 500 ↔
    TextUnreadable sql ∨ session.database.Overflows sql ∨
      service.interpreter.Interrupts session.database service.depthLimit sql := by
  by_cases hoff : service.interpreter.BreaksOff session.database service.depthLimit (SourceText.withoutComments sql)
  · exact iff_of_true (status_of_breaksOff h hoff) (.inr (.inr (.inl hoff)))
  · rw [(answers_of_posts h hoff).status_eq_iff, Interpreter.Interrupts, or_iff_right hoff, Database.escapes_iff,
      or_assoc]
    rfl

end

/-- A text that is posted succeeds unless it is rejected, escapes, shows `error` alone or is interrupted. It
fails if it is rejected or shows `error` alone and is not interrupted, and the answer to one that escapes or
is interrupted says no more than that. A text is interrupted where it needs more than there is; where it stays
far from that, only a result that cannot be written interrupts it. -/
theorem response_to_query (h : service.Posts request session sql) :
    ((service.handle request).2.Succeeds ↔ ¬ session.database.Rejects service.depthLimit sql ∧
      ¬ TextUnreadable sql ∧ ¬ session.database.Overflows sql ∧
        ¬ session.database.LooksRejected service.depthLimit sql ∧
          ¬ service.interpreter.Interrupts session.database service.depthLimit sql) ∧
    ((service.handle request).2.Fails ↔ (session.database.Rejects service.depthLimit sql ∨
      session.database.LooksRejected service.depthLimit sql) ∧
        ¬ service.interpreter.Interrupts session.database service.depthLimit sql) ∧
    ((service.handle request).2.status = 500 ↔ TextUnreadable sql ∨ session.database.Overflows sql ∨
      service.interpreter.Interrupts session.database service.depthLimit sql) ∧
    (service.interpreter.Exceeds session.database service.depthLimit (SourceText.withoutComments sql) →
      service.interpreter.Interrupts session.database service.depthLimit sql) ∧
    (service.interpreter.Allow session.database service.depthLimit (SourceText.withoutComments sql) →
      (service.interpreter.Interrupts session.database service.depthLimit sql ↔
        service.interpreter.LeavesUnwritten session.database service.depthLimit sql)) :=
  ⟨succeeds_of_posts h, fails_of_posts h, status_of_posts h, Interpreter.interrupts_of_exceeds,
    Interpreter.interrupts_of_allow⟩

/-- Teams with their id under the label `error`. -/
def labelledQuery : Text := "select id as error from team"

def labelledRequest : Request where
  method := "POST"
  target := "/api/databases/league/execute"
  contentType := "application/json"
  body := Utf8.encode (Json.object [("query", .text labelledQuery)]).render

/-- A session that has come to the snapshot of the league, as the only one of its service. -/
def leagueSession : Session :=
  ⟨.text "league", .league, 6⟩

def leagueService : Service :=
  ⟨⟨.standard, .standard, defaultMaxQueryLength, defaultDepthLimit⟩, [leagueSession]⟩

/-- The request is read and its query run: the ids of the teams are found and can be written, and nothing that is
bounded is needed. -/
theorem evaluated_labelled :
    (Json.ofBytes? labelledRequest.body).any Json.holdsTexts = true ∧
      (Json.ofBytes? labelledRequest.body).bind Json.query? = some labelledQuery ∧
      Interpreter.standard.exceeded? leagueSession.database defaultDepthLimit
        (SourceText.withoutComments labelledQuery) = none ∧
      (leagueSession.database.executeChecked defaultDepthLimit labelledQuery).toOption.any (fun outcome =>
        outcome.result.isError && Interpreter.standard.writesRows outcome.result.rows) = true := by
  decide +kernel

theorem posts_labelled : leagueService.Posts labelledRequest leagueSession labelledQuery := by
  have hasks : labelledRequest.Asks (.execute "league") := ⟨rfl, rfl, by decide⟩
  exact posts_of_asks hasks rfl rfl evaluated_labelled.1 evaluated_labelled.2.1 (by decide) (by decide)

theorem executeChecked_labelled : ∃ outcome,
    leagueSession.database.executeChecked defaultDepthLimit labelledQuery = .ok outcome ∧
      outcome.result.isError = true ∧ Interpreter.standard.writesRows outcome.result.rows = true := by
  have hshown := evaluated_labelled.2.2.2
  cases hexecuted : leagueSession.database.executeChecked defaultDepthLimit labelledQuery with
  | error failure =>
    rw [hexecuted] at hshown
    cases hshown
  | ok outcome =>
    rw [hexecuted] at hshown
    exact ⟨outcome, rfl, Bool.and_eq_true_iff.mp hshown⟩

theorem not_interrupts_labelled :
    ¬ Interpreter.standard.Interrupts leagueSession.database defaultDepthLimit labelledQuery := by
  obtain ⟨outcome, hexecuted, -, hwritten⟩ := executeChecked_labelled
  rintro (hoff | ⟨other, hother, hunwritten⟩)
  · exact hoff evaluated_labelled.2.2.1
  · cases hexecuted.symm.trans hother
    rw [hwritten] at hunwritten
    cases hunwritten

/-- The query succeeds, but is answered like a rejection. -/
theorem looksRejected_labelled : leagueSession.database.LooksRejected defaultDepthLimit labelledQuery := by
  obtain ⟨outcome, hexecuted, herror, -⟩ := executeChecked_labelled
  exact Database.looksRejected_iff.mpr ⟨outcome, hexecuted, herror⟩

theorem response_to_query_league : leagueService.Posts labelledRequest leagueSession labelledQuery ∧
    (leagueService.handle labelledRequest).2.Fails :=
  ⟨posts_labelled,
    (response_to_query posts_labelled).2.1.mpr ⟨.inr looksRejected_labelled, not_interrupts_labelled⟩⟩

theorem not_every_success_reported : ¬ ∀ (service : Service) (request : Request) (session : Session)
    (sql : Text), session.database.Reachable → service.Posts request session sql →
      ((service.handle request).2.Succeeds ↔ ¬ session.database.Rejects service.depthLimit sql) ∧
        ((service.handle request).2.Fails ↔ session.database.Rejects service.depthLimit sql) := by
  intro hevery
  have hfails := (fails_of_posts posts_labelled).mpr ⟨.inr looksRejected_labelled, not_interrupts_labelled⟩
  have hclaimed := (hevery leagueService labelledRequest leagueSession labelledQuery
    Database.league_reachable posts_labelled).2
  obtain ⟨error, hrejected⟩ := hclaimed.mp hfails
  obtain ⟨outcome, hexecuted, -⟩ := executeChecked_labelled
  cases hexecuted.symm.trans hrejected

end Service

end SnapshotSql
