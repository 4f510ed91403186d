import SnapshotSql.CommandLine
import SnapshotSql.Service

/-! # The program

Reads the settings of the environment and the command line, and then answers one request per line of
standard input, each a JSON object with method, path, content type and body, with one line of JSON
that holds the status and the body. The address and the way of logging are read and checked for the
process that connects these lines to a network.
-/
namespace SnapshotSql

/-! ## Settings -/

def setting (name : String) (default : Scalar) : IO Scalar := do
  let key := "SNAPSHOT_SQL_" ++ name
  match Setting.value? ((← IO.getEnv key).map Text.ofString) default with
  | some value => return value
  | none => throw (IO.userError (key ++ " is no whole number"))

def textSetting (name : String) (default : Text) : IO Text := do
  match ← setting name (.text default) with
  | .text value => return value
  | _ => return default

def intSetting (name : String) (default : Int) : IO Int := do
  match ← setting name (.int default) with
  | .int value => return value
  | _ => return default

def boolSetting (name : String) (default : Bool) : IO Bool := do
  match ← setting name (.bool default) with
  | .bool value => return value
  | _ => return default

def optionSettings : IO CommandLine.Options := do
  let defaults := CommandLine.defaults
  return ⟨← textSetting "API_HOST" defaults.host, ← intSetting "API_PORT" defaults.tcpPort,
    ← boolSetting "DEBUG" defaults.debug, ← textSetting "LOG_LEVEL" defaults.logLevel⟩

def startService : IO Service :=
  return .start (← textSetting "DEFAULT_DATABASE" Service.defaultDatabase)
    (← intSetting "MAX_QUERY_LENGTH" Service.defaultMaxQueryLength)
    (← intSetting "CASCADE_DEPTH_LIMIT" defaultDepthLimit)

/-! ## Requests -/

def requestOfJson (json : Json) : Request :=
  let field (name : Text) : Text :=
    match json.member? name with
    | some (.scalar (.text text)) => text
    | _ => []
  ⟨field "method", field "path", field "content_type", Utf8.encode (field "body")⟩

def responseLine (response : Response) : String :=
  (Json.object [("status", .int response.status), ("body", response.body)]).render.toString

/-- Answers lines until the input ends. -/
partial def serveLines (service : Service) (input output : IO.FS.Stream) : IO Unit := do
  let line ← input.getLine
  if line.isEmpty then return
  let (service, response) := service.handle (requestOfJson ((Json.parse? line).getD .null))
  output.putStrLn (responseLine response)
  output.flush
  serveLines service input output

end SnapshotSql

open SnapshotSql in
def main (arguments : List String) : IO UInt32 := do
  match CommandLine.read (← optionSettings) (arguments.map .ofString) with
  | .help =>
      IO.println CommandLine.usage
      return 0
  | .usageError =>
      IO.eprintln CommandLine.usage
      return 2
  | .serve _ =>
      serveLines (← startService) (← IO.getStdin) (← IO.getStdout)
      return 0
