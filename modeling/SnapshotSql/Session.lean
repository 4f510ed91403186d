import SnapshotSql.Execution

/-! # Sessions

A session is a named database and the number of statements it has been given, failed ones included.
After each statement it holds the snapshot that the statement published, or the one it had. Here every
text is run to its end; an interpreter with bounds may break off a run.
-/
namespace SnapshotSql

structure Session where
  name : Scalar
  database : Database
  statements : Nat

namespace Session

def new (name : Scalar) : Session :=
  ⟨name, .empty, 0⟩

/-- Counts a statement and takes over the snapshot that it publishes, if that passes the check. -/
def record (session : Session) (executed : Except Failure Outcome) :
    Session × Except Failure QueryResult :=
  match executed >>= Outcome.checked with
  | .ok outcome =>
      (⟨session.name, outcome.snapshot session.database, session.statements + 1⟩, .ok outcome.result)
  | .error failure => (⟨session.name, session.database, session.statements + 1⟩, .error failure)

def run (session : Session) (limit : Int) (sql : Text) : Session × Except Failure QueryResult :=
  session.record (session.database.execute limit sql)

def runStatement (session : Session) (limit : Int) (statement : Statement) :
    Session × Except Failure QueryResult :=
  session.record (session.database.run limit statement)

def report : Except Failure QueryResult → Except Failure QueryResult
  | .error (.rejected error) => .ok (.error error.message)
  | result => result

def executeText (session : Session) (limit : Int) (sql : Text) :
    Session × Except Failure QueryResult :=
  let (session, result) := session.record (session.database.runText limit sql)
  (session, report result)

def execute (session : Session) (limit : Int) (sql : Text) :
    Session × Except Failure QueryResult :=
  session.executeText limit (SourceText.withoutComments sql)

/-- Executes texts in order; a text without a result stops them. -/
def executeEach {ε : Type} (execute : Session → Text → Session × Except ε QueryResult)
    (session : Session) : List Text → Session × Except ε (List QueryResult)
  | [] => (session, .ok [])
  | sql :: more =>
      match execute session sql with
      | (session, .error failure) => (session, .error failure)
      | (session, .ok result) =>
          let (session, results) := executeEach execute session more
          (session, results.map (result :: ·))

def executeAll (session : Session) (limit : Int) (texts : List Text) :
    Session × Except Failure (List QueryResult) :=
  session.executeEach (·.execute limit ·) texts

def schema (session : Session) (table : Text) : Except SqlError TableSchema :=
  session.database.requireTable table

def rows (session : Session) (table : Text) : Except SqlError (List Row) :=
  match session.database.rows.get? table with
  | some rows => .ok rows
  | none => .error (.tableNotFound table)

end Session

end SnapshotSql
