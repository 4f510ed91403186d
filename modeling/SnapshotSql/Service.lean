import SnapshotSql.Interpreter
import SnapshotSql.Report
import SnapshotSql.Route

/-! # The service

Sessions behind an HTTP interface. A request is answered with a status and a JSON body, and leaves the
sessions as it found them unless it creates or deletes one or runs SQL in one. A session is created
under any scalar that JSON can write, and numbers of one value are one name; paths reach only the
sessions whose name is a text.
-/
namespace SnapshotSql

structure Response where
  status : Nat
  body : Json

/-- What a service does not change: the gateway in front of it, the interpreter that carries out its
queries, the number of characters that they may have, and the depth of cascades. -/
structure Settings where
  gateway : Gateway
  interpreter : Interpreter
  maxQueryLength : Int
  depthLimit : Int

structure Service extends Settings where
  sessions : List Session

namespace Service

def version : Text := "1.0.0"

def defaultDatabase : Text := "playground"

def defaultMaxQueryLength : Int := 100000

def reset (settings : Settings) (database : Text) : Service :=
  ⟨settings, [.new (.text database)]⟩

def start (database : Text) (maxQueryLength depthLimit : Int) : Service :=
  reset ⟨.standard, .standard, maxQueryLength, depthLimit⟩ database

/-! ## Answers -/

def success (members : List (Text × Json)) : Response :=
  ⟨200, .object (("success", .bool true) :: members)⟩

def failure (status : Nat) (error : Text) : Response :=
  ⟨status, .object [("success", .bool false), ("error", .text error)]⟩

/-- The answer to a request that cannot be carried out for a reason of no interest to clients. -/
def broken : Response :=
  ⟨500, .object [("success", .bool false), ("error", .text "Internal server error"),
    ("traceback", .null)]⟩

def rejection (error : SqlError) : Response :=
  match error with
  | .tableNotFound _ => failure 404 error.message
  | _ => ⟨400, .object (("success", .bool false) :: ("error", .text error.message) ::
      (QueryResult.error error.message).members)⟩

def ofFailure : Failure → Response
  | .rejected error => rejection error
  | _ => broken

def ofInterruption : Interruption → Response
  | .failed failure => ofFailure failure
  | .exceeded _ => broken

/-! ## Names of sessions -/

/-- Texts are the same name when they are equal, and other scalars when they are the same number. -/
def sameName (a b : Scalar) : Bool :=
  match a, b with
  | .text a, .text b => a = b
  | .text _, _ => false
  | _, .text _ => false
  | a, b => Number.eq a.toNumber b.toNumber || (a.isNan && b.isNan)

def nameText : Scalar → Text
  | .text name => name
  | name => name.display

def isText : Scalar → Bool
  | .text _ => true
  | _ => false

/-- The names in order; texts and numbers cannot be ordered together. -/
def sortedNames? (names : List Scalar) : Option (List Scalar) :=
  if names.all isText || names.all (!isText ·) || names.length ≤ 1 then
    some (Sorting.sort Scalar.lessThan names)
  else none

def find? (service : Service) (name : Scalar) : Option Session :=
  service.sessions.find? (sameName name ·.name)

def replace (service : Service) (session : Session) : Service :=
  { service with sessions := service.sessions.map fun other =>
      if sameName session.name other.name then session else other }

def remove (service : Service) (name : Scalar) : Service :=
  { service with sessions := service.sessions.filter (!sameName name ·.name) }

/-! ## Bodies -/

/-- A member of the body that is present and not empty, or the answer that asks for it. -/
def required (gateway : Gateway) (request : Request) (field title : Text) : Except Response Json :=
  match gateway.body? request with
  | none => .error broken
  | some (.object []) => .error (failure 400 "Request body required")
  | some (.object members) =>
      match (Json.object members).member? field with
      | some value => if value.isEmpty then .error (failure 400 (title ++ " required")) else .ok value
      | none => .error (failure 400 (title ++ " required"))
  | some other => .error (if other.isEmpty then failure 400 "Request body required" else broken)

/-! ## Sessions -/

def listDatabases (service : Service) : Response :=
  match sortedNames? (service.sessions.map (·.name)) with
  | some names =>
      success [("databases", .array (names.map .scalar)), ("count", .int names.length)]
  | none => broken

def createDatabase (service : Service) (request : Request) : Service × Response :=
  let missing := failure 400 "Database name required"
  match service.gateway.body? request with
  | none => (service, broken)
  | some (.object members) =>
      match (Json.object members).member? "name" with
      | some (.scalar name) =>
          if (Json.scalar name).isEmpty then (service, missing)
          else if (service.find? name).isSome then
            (service, failure 400 ("Database " ++ nameText name ++ " already exists"))
          else
            ({ service with sessions := service.sessions ++ [.new name] },
              success [("message", .text ("Database " ++ nameText name ++ " created"))])
      | some other => (service, if other.isEmpty then missing else broken)
      | none => (service, missing)
  | some other => (service, if other.isEmpty then missing else broken)

def notFound (name : Text) : Response :=
  failure 404 ("Database " ++ name ++ " not found")

def deleteDatabase (service : Service) (name : Text) : Service × Response :=
  match service.find? (.text name) with
  | some _ =>
      (service.remove (.text name), success [("message", .text ("Database " ++ name ++ " deleted"))])
  | none => (service, notFound name)

def inspect (service : Service) (name : Text) (answer : Session → Response) : Response :=
  match service.find? (.text name) with
  | some session => answer session
  | none => notFound name

def change (service : Service) (name : Text) (act : Session → Session × Response) :
    Service × Response :=
  match service.find? (.text name) with
  | some session =>
      let (session, response) := act session
      (service.replace session, response)
  | none => (service, notFound name)

/-! ## Tables -/

def listTables (session : Session) : Response :=
  let tables := session.database.tableNames
  success [("tables", .texts tables), ("count", .int tables.length)]

def describeTable (table : Text) (session : Session) : Response :=
  match session.schema table with
  | .ok schema => success [("schema", schema.report)]
  | .error error => rejection error

def dumpTable (interpreter : Interpreter) (table : Text) (session : Session) : Response :=
  match session.schema table, session.rows table with
  | .ok schema, .ok rows =>
      if interpreter.writesRows rows then
        success [("columns", .texts schema.columnNames), ("rows", .array (rows.map rowReport)),
          ("count", .int rows.length)]
      else broken
  | .error error, _ => rejection error
  | _, .error error => rejection error

def messageOf (result : QueryResult) : Json :=
  match result.rows with
  | row :: _ => .scalar (row.value "message")
  | [] => .null

def dropTable (limit : Int) (table : Text) (session : Session) : Session × Response :=
  match session.runStatement limit (.dropTable ⟨table, false⟩) with
  | (session, .ok result) => (session, success [("message", messageOf result)])
  | (session, .error failure) => (session, ofFailure failure)

/-! ## SQL -/

def tooLong (service : Service) : Response :=
  failure 400 ("Query longer than " ++ Numeral.wholeText service.maxQueryLength ++ " characters")

/-- A text that is given as a list of pieces. Outside quotes only single quotes and double quotes can be
told from other pieces, so nothing else may stand there. What is inside quotes is no comment. -/
def pieceText? (quote : Option Text) : List Json → Option Text
  | [] => some []
  | .scalar (.text piece) :: pieces =>
      match quote with
      | none =>
          if piece = "'" || piece = "\"" then (pieceText? (some piece) pieces).map (piece ++ ·)
          else none
      | some q => (pieceText? (if piece = q then none else quote) pieces).map (piece ++ ·)
  | _ :: _ => none

/-- The number of characters or parts of a query, if it has parts. -/
def queryLength? : Json → Option Nat
  | .scalar (.text sql) => some sql.length
  | .scalar _ => none
  | .array items => some items.length
  | .object members => some (members.map (·.1)).eraseDups.length

def queryText? : Json → Option Text
  | .scalar (.text sql) => some (SourceText.withoutComments sql)
  | .array items => pieceText? none items
  | _ => none

def answer (interpreter : Interpreter) (session : Session) (result : QueryResult) : Response :=
  if !interpreter.writesRows result.rows then broken
  else if result.isError then ⟨400, .object (("success", .bool false) :: result.members)⟩
  else success (("active", .text session.database.active) :: result.members)

def executeIn (interpreter : Interpreter) (limit : Int) (query : Json) (session : Session) :
    Session × Response :=
  match queryText? query with
  | none => ({ session with statements := session.statements + 1 }, broken)
  | some sql =>
      match session.executeTextOn interpreter limit sql with
      | (session, .error interruption) => (session, ofInterruption interruption)
      | (session, .ok result) => (session, answer interpreter session result)

def execute (service : Service) (name : Text) (request : Request) : Service × Response :=
  match required service.gateway request "query" "Query" with
  | .error response => (service, response)
  | .ok query =>
      match queryLength? query with
      | none => (service, broken)
      | some length =>
          if service.maxQueryLength < length then (service, service.tooLong)
          else service.change name (executeIn service.interpreter service.depthLimit query)

def batchEntry (result : QueryResult) : Json :=
  .object (("success", .bool (!result.isError)) :: result.members)

def answerAll (interpreter : Interpreter) (results : List QueryResult) : Response :=
  if results.all fun result => interpreter.writesRows result.rows then
    ⟨200, .object [
      ("success", .bool (results.all (!·.isError))),
      ("results", .array (results.map batchEntry)),
      ("count", .int results.length)]⟩
  else broken

def executeAllIn (interpreter : Interpreter) (limit : Int) (queries : List Text) (session : Session) :
    Session × Response :=
  match session.executeAllOn interpreter limit queries with
  | (session, .error interruption) => (session, ofInterruption interruption)
  | (session, .ok results) => (session, answerAll interpreter results)

def allTexts? : Json → Option (List Text)
  | .array items => items.mapM fun item =>
      match item with
      | .scalar (.text text) => some text
      | _ => none
  | _ => none

def executeBatch (service : Service) (name : Text) (request : Request) : Service × Response :=
  match required service.gateway request "queries" "Queries" with
  | .error response => (service, response)
  | .ok value =>
      match allTexts? value with
      | none => (service, failure 400 "List of queries required")
      | some queries =>
          if queries.any fun query => service.maxQueryLength < query.length then (service, service.tooLong)
          else service.change name (executeAllIn service.interpreter service.depthLimit queries)

/-! ## The service itself -/

def health (service : Service) : Response :=
  ⟨200, .object [("status", .text "healthy"), ("version", .text version),
    ("database_count", .int service.sessions.length)]⟩

def endpoints : Json :=
  .object [
    ("databases", .object [
      ("GET /api/databases", .text "List all databases"),
      ("POST /api/databases", .text "Create new database"),
      ("GET /api/databases/<name>", .text "Database summary"),
      ("DELETE /api/databases/<name>", .text "Delete database"),
      ("GET /api/databases/<name>/tables", .text "List tables in database")]),
    ("tables", .object [
      ("GET /api/databases/<db>/tables/<table>/schema", .text "Get table schema"),
      ("GET /api/databases/<db>/tables/<table>/data", .text "Get table data"),
      ("DELETE /api/databases/<db>/tables/<table>", .text "Drop table")]),
    ("queries", .object [
      ("POST /api/databases/<db>/execute", .text "Execute SQL query"),
      ("POST /api/databases/<db>/execute/batch", .text "Execute batch queries")]),
    ("system", .object [
      ("GET /api/health", .text "Health check"),
      ("GET /api/info", .text "API information")])]

def info : Response :=
  ⟨200, .object [
    ("name", .text "sqlsim REST API"),
    ("version", .text version),
    ("description", .text "In-memory SQL engine for practicing queries"),
    ("statements", .text supportedStatements),
    ("endpoints", endpoints)]⟩

def unknownEndpoint : Response :=
  failure 404 "Endpoint not found"

def methodNotAllowed : Response :=
  failure 405 "Method not allowed"

def perform (service : Service) (request : Request) : Operation → Service × Response
  | .listDatabases => (service, service.listDatabases)
  | .createDatabase => service.createDatabase request
  | .describeDatabase name =>
      (service, service.inspect name fun session => success [("database", session.summary)])
  | .deleteDatabase name => service.deleteDatabase name
  | .listTables name => (service, service.inspect name listTables)
  | .dropTable name table => service.change name (dropTable service.depthLimit table)
  | .describeTable name table => (service, service.inspect name (describeTable table))
  | .dumpTable name table => (service, service.inspect name (dumpTable service.interpreter table))
  | .execute name => service.execute name request
  | .executeBatch name => service.executeBatch name request
  | .health => (service, service.health)
  | .info => (service, info)

def handle (service : Service) (request : Request) : Service × Response :=
  match service.gateway.address request with
  | .found operation => service.perform request operation
  | .answered status => (service, ⟨status, .null⟩)
  | .otherMethod => (service, methodNotAllowed)
  | .unknown => (service, unknownEndpoint)

end Service

end SnapshotSql
