import SnapshotSql.Json

/-! # Requests and the gateway

Requests come to the service through a gateway. It tells from the method and the target of a request
which operation is asked for, or answers by itself, and it reads the JSON of a body. What it makes of
unusual targets and bodies is not known here. It knows the routes of all operations, and reads bodies
of texts that are announced as JSON.
-/
namespace SnapshotSql

structure Request where
  method : Text
  target : Text
  contentType : Text
  body : Bytes

inductive Operation where
  | listDatabases
  | createDatabase
  | describeDatabase (database : Text)
  | deleteDatabase (database : Text)
  | listTables (database : Text)
  | dropTable (database table : Text)
  | describeTable (database table : Text)
  | dumpTable (database table : Text)
  | execute (database : Text)
  | executeBatch (database : Text)
  | health
  | info
  deriving DecidableEq

/-! ## Routes -/

namespace Operation

def route : Operation → Text × List Text
  | .listDatabases => ("GET", ["api", "databases"])
  | .createDatabase => ("POST", ["api", "databases"])
  | .describeDatabase database => ("GET", ["api", "databases", database])
  | .deleteDatabase database => ("DELETE", ["api", "databases", database])
  | .listTables database => ("GET", ["api", "databases", database, "tables"])
  | .dropTable database table => ("DELETE", ["api", "databases", database, "tables", table])
  | .describeTable database table => ("GET", ["api", "databases", database, "tables", table, "schema"])
  | .dumpTable database table => ("GET", ["api", "databases", database, "tables", table, "data"])
  | .execute database => ("POST", ["api", "databases", database, "execute"])
  | .executeBatch database => ("POST", ["api", "databases", database, "execute", "batch"])
  | .health => ("GET", ["api", "health"])
  | .info => ("GET", ["api", "info"])

def path (operation : Operation) : Text :=
  operation.route.2.flatMap fun piece => '/' :: piece

end Operation

/-- A character that stands for itself in every path: a letter or digit of ASCII, a hyphen or an
underscore. -/
def Text.isPlainChar (c : CodePoint) : Bool :=
  0x30 ≤ c.toNat && c.toNat ≤ 0x39 || 0x41 ≤ c.toNat && c.toNat ≤ 0x5A ||
    0x61 ≤ c.toNat && c.toNat ≤ 0x7A || c = '-' || c = '_'

def Text.isPlain (text : Text) : Bool :=
  !text.isEmpty && text.all isPlainChar

/-- A request with the method and the path of an operation, which need no escapes. -/
structure Request.Asks (request : Request) (operation : Operation) : Prop where
  method : request.method = operation.route.1
  target : request.target = operation.path
  plain : ∀ piece ∈ operation.route.2, Text.isPlain piece = true

/-! ## Bodies -/

namespace Json

def isText : Json → Bool
  | .scalar (.text _) => true
  | _ => false

def holdsTexts : Json → Bool
  | .object members => members.all fun (_, value) =>
      match value with
      | .array items => items.all isText
      | value => value.isText
  | _ => false

end Json

/-! ## The gateway -/

/-- What a request comes to: an operation, a status that the gateway answers with by itself, or no
operation, or none with this method. -/
inductive Address where
  | found (operation : Operation)
  | answered (status : Nat)
  | otherMethod
  | unknown
  deriving DecidableEq

/-- The address of a request and the JSON of its body. The JSON is null where there is none, and there
is none at all where the reading is broken off. -/
structure Gateway where
  address : Request → Address
  body? : Request → Option Json
  routes : ∀ request operation, request.Asks operation → address request = .found operation
  reads : ∀ request : Request, request.contentType = Text.ofString "application/json" →
    (Json.ofBytes? request.body).any Json.holdsTexts = true → body? request = Json.ofBytes? request.body

namespace Gateway

def operation? (gateway : Gateway) (request : Request) : Option Operation :=
  match gateway.address request with
  | .found operation => some operation
  | _ => none

def member? (gateway : Gateway) (name : Text) (request : Request) : Option Json :=
  (gateway.body? request).bind (·.member? name)

end Gateway

end SnapshotSql
