import SnapshotSql.Proofs.OrderedScalars

/-! # Sequences of requests

The service answers requests one after the other, each from the sessions that the requests before have
left. A request is addressed to the database that its path names or, if it creates one, to the name that
its body gives. What becomes of a session is told by looking up its name, and which sessions there are by
the list of their names.
-/
namespace SnapshotSql

/-! ## Addressees -/

def Operation.database? : Operation → Option Text
  | .describeDatabase database => some database
  | .deleteDatabase database => some database
  | .listTables database => some database
  | .dropTable database _ => some database
  | .describeTable database _ => some database
  | .dumpTable database _ => some database
  | .execute database => some database
  | .executeBatch database => some database
  | _ => none

namespace Gateway

variable (gateway : Gateway) (request : Request)

def name? : Option Scalar :=
  match gateway.member? "name" request with
  | some (.scalar name) => some name
  | _ => none

def addressee? : Option Text :=
  match gateway.operation? request with
  | some .createDatabase =>
      match gateway.name? request with
      | some (.text name) => some name
      | _ => none
  | some operation => operation.database?
  | none => none

def requestsTo (gateway : Gateway) (name : Text) (requests : List Request) : List Request :=
  requests.filter (gateway.addressee? · = some name)

end Gateway

namespace Request

def post (target : Text) (members : List (Text × Json)) : Request :=
  ⟨"POST", target, "application/json", Utf8.encode (Json.object members).render⟩

def bodiless (method target : Text) : Request :=
  ⟨method, target, "", []⟩

end Request

namespace Service

variable {service : Service} {settings : Settings} {gateway : Gateway} {session : Session} {request : Request}
  {name owner : Text}

/-! ## Runs -/

def fresh : Service :=
  start defaultDatabase defaultMaxQueryLength defaultDepthLimit

def after (service : Service) : List Request → Service
  | [] => service
  | request :: requests => (service.handle request).1.after requests

def exchanges (service : Service) : List Request → List (Request × Response)
  | [] => []
  | request :: requests =>
      (request, (service.handle request).2) :: (service.handle request).1.exchanges requests

theorem handle_of_operation {operation : Operation} (h : service.gateway.operation? request = some operation) :
    service.handle request = service.perform request operation := by
  unfold Gateway.operation? at h
  unfold handle
  split at h
  · next haddress =>
    cases h
    rw [haddress]
  · cases h

/-- A request for no operation has an answer that does not depend on the sessions. -/
theorem exists_handle_of_none (h : gateway.operation? request = none) : ∃ response : Response,
    ∀ service : Service, service.gateway = gateway → service.handle request = (service, response) := by
  unfold Gateway.operation? at h
  cases haddress : gateway.address request with
  | found operation =>
    rw [haddress] at h
    cases h
  | answered status => exact ⟨⟨status, .null⟩, fun service hgateway => by rw [handle, hgateway, haddress]⟩
  | otherMethod => exact ⟨methodNotAllowed, fun service hgateway => by rw [handle, hgateway, haddress]⟩
  | unknown => exact ⟨unknownEndpoint, fun service hgateway => by rw [handle, hgateway, haddress]⟩

/-! ## Names -/

theorem sameName_text_iff {other : Scalar} : sameName (.text name) other = true ↔ other = .text name := by
  cases other <;> simp [sameName, eq_comm]

theorem sameName_of_not_text {name other : Scalar} (h : isText name = false) (hother : isText other = false) :
    sameName name other = (Number.eq name.toNumber other.toNumber || (name.isNan && other.isNan)) := by
  unfold sameName
  split
  · cases h
  · cases h
  · cases hother
  · rfl

theorem sameName_self (name : Scalar) : sameName name name = true := by
  cases htext : isText name with
  | true =>
    cases name <;> cases htext
    exact sameName_text_iff.mpr rfl
  | false =>
    rw [sameName_of_not_text htext htext]
    cases hnan : name.isNan with
    | true => simp
    | false =>
      obtain ⟨place, hplace⟩ := Scalar.exists_place htext hnan
      simp [Number.eq, hplace]

def names (service : Service) : List Scalar :=
  service.sessions.map (·.name)

theorem name_of_find? (h : service.find? (.text name) = some session) : session.name = .text name := by
  have hsame := List.find?_some h
  exact sameName_text_iff.mp hsame

theorem not_mem_names {given : Scalar} (h : service.find? given = none) : given ∉ service.names := by
  intro hmem
  obtain ⟨session, hsession, rfl⟩ := List.mem_map.mp hmem
  exact List.find?_eq_none.mp h session hsession (sameName_self session.name)

private theorem name_replaced {other : Session} (h : session.name = .text owner) :
    (if sameName session.name other.name then session else other).name = other.name := by
  split
  · next hsame =>
    rw [h] at hsame ⊢
    exact (sameName_text_iff.mp hsame).symm
  · rfl

theorem names_replace (h : session.name = .text owner) : (service.replace session).names = service.names := by
  unfold names replace
  rw [List.map_map]
  exact List.map_congr_left fun _ _ => name_replaced h

/-- A session takes the place of the one of its name, and all other sessions stay. -/
theorem find?_replace (h : session.name = .text owner) : (service.replace session).find? (.text name) =
    if owner = name then (service.find? (.text name)).map fun _ => session
    else service.find? (.text name) := by
  have hfound : (service.replace session).find? (.text name) = (service.find? (.text name)).map
      fun other => if sameName session.name other.name then session else other := by
    unfold find? replace
    rw [List.find?_map]
    congr 2
    funext other
    exact congrArg (sameName (.text name)) (name_replaced h)
  rw [hfound, h]
  split
  · next hname =>
    refine Option.map_congr fun other hother => if_pos ?_
    rw [sameName_text_iff, name_of_find? hother, hname]
  · next hname =>
    refine (Option.map_congr fun other hother => if_neg ?_).trans Option.map_id'
    rw [sameName_text_iff, name_of_find? hother]
    exact fun heq => hname (Scalar.text.inj heq).symm

theorem names_remove : (service.remove (.text owner)).names = service.names.filter (· ≠ .text owner) := by
  unfold names remove
  rw [List.filter_map]
  refine congrArg _ (List.filter_congr fun session _ => ?_)
  simp [← sameName_text_iff]

theorem find?_remove : (service.remove (.text owner)).find? (.text name) =
    if owner = name then none else service.find? (.text name) := by
  unfold find? remove
  rw [List.find?_filter]
  split
  · next hname =>
    subst hname
    simp
  · next hname =>
    congr 1
    funext other
    have hother : sameName (.text owner) other.name = true → sameName (.text name) other.name = false := by
      rw [sameName_text_iff, ← Bool.not_eq_true, sameName_text_iff]
      intro howner
      simpa [howner] using hname
    cases howner : sameName (.text owner) other.name with
    | false => simp
    | true => simp [hother howner]

/-! ## Sessions that change -/

def KeepsName (act : Session → Session × Response) : Prop :=
  ∀ session, (act session).1.name = session.name

theorem name_record (session : Session) (executed : Except Failure Outcome) :
    (session.record executed).1.name = session.name := by
  unfold Session.record
  cases executed >>= Outcome.checked <;> rfl

theorem keepsName_dropTable (limit : Int) (table : Text) : KeepsName (dropTable limit table) := by
  intro session
  have hname := name_record session (session.database.run limit (.dropTable ⟨table, false⟩))
  unfold dropTable Session.runStatement
  generalize session.record (session.database.run limit (.dropTable ⟨table, false⟩)) = recorded at hname
  obtain ⟨next, failure | result⟩ := recorded <;> exact hname

theorem name_executeTextOn (session : Session) (interpreter : Interpreter) (limit : Int) (sql : Text) :
    (session.executeTextOn interpreter limit sql).1.name = session.name := by
  unfold Session.executeTextOn
  cases interpreter.exceeded? session.database limit sql with
  | some bound => rfl
  | none => exact name_record session _

theorem name_executeOn (session : Session) (interpreter : Interpreter) (limit : Int) (sql : Text) :
    (session.executeOn interpreter limit sql).1.name = session.name := by
  unfold Session.executeOn
  exact name_executeTextOn session interpreter limit _

theorem name_executeAllOn (session : Session) (interpreter : Interpreter) (limit : Int) (queries : List Text) :
    (session.executeAllOn interpreter limit queries).1.name = session.name := by
  unfold Session.executeAllOn
  induction queries generalizing session with
  | nil => rfl
  | cons sql queries ih =>
    have hfirst := name_executeOn session interpreter limit sql
    unfold Session.executeEach
    generalize session.executeOn interpreter limit sql = first at hfirst
    obtain ⟨next, interruption | result⟩ := first
    · exact hfirst
    · exact (ih next).trans hfirst

theorem keepsName_executeIn (interpreter : Interpreter) (limit : Int) (query : Json) :
    KeepsName (executeIn interpreter limit query) := by
  intro session
  unfold executeIn
  cases queryText? query with
  | none => rfl
  | some sql =>
    dsimp only
    have hname := name_executeTextOn session interpreter limit sql
    generalize session.executeTextOn interpreter limit sql = executed at hname
    obtain ⟨next, interruption | result⟩ := executed <;> exact hname

theorem keepsName_executeAllIn (interpreter : Interpreter) (limit : Int) (queries : List Text) :
    KeepsName (executeAllIn interpreter limit queries) := by
  intro session
  have hall := name_executeAllOn session interpreter limit queries
  unfold executeAllIn
  generalize session.executeAllOn interpreter limit queries = answered at hall
  obtain ⟨next, interruption | results⟩ := answered <;> exact hall

section
variable {act : Session → Session × Response}

theorem change_of_none (h : service.find? (.text owner) = none) :
    service.change owner act = (service, notFound owner) := by
  rw [change, h]

theorem change_of_some (h : service.find? (.text owner) = some session) :
    service.change owner act = (service.replace (act session).1, (act session).2) := by
  rw [change, h]

variable (hact : KeepsName act)
include hact

theorem find?_change : (service.change owner act).1.find? (.text name) =
    if owner = name then (service.find? (.text name)).map fun session => (act session).1
    else service.find? (.text name) := by
  cases hfound : service.find? (.text owner) with
  | none =>
    rw [change_of_none hfound]
    split
    · next hname => simp [← hname, hfound]
    · rfl
  | some session =>
    rw [change_of_some hfound, find?_replace ((hact session).trans (name_of_find? hfound))]
    split
    · next hname => simp [← hname, hfound]
    · rfl

theorem names_change : (service.change owner act).1.names = service.names := by
  cases hfound : service.find? (.text owner) with
  | none => rw [change_of_none hfound]
  | some session =>
    rw [change_of_some hfound]
    exact names_replace ((hact session).trans (name_of_find? hfound))

end

/-- A handler acts in the session of a name or, by the settings, answers without looking at any session. -/
def ActsIn (owner : Text) (handler : Service → Service × Response) : Prop :=
  ∀ settings : Settings,
    (∃ response, ∀ service : Service, service.toSettings = settings → handler service = (service, response)) ∨
      ∃ act, KeepsName act ∧
        ∀ service : Service, service.toSettings = settings → handler service = service.change owner act

theorem exists_tooLong (settings : Settings) : ∃ response, ∀ service : Service, service.toSettings = settings →
    service.tooLong = response := by
  refine ⟨(reset settings defaultDatabase).tooLong, ?_⟩
  rintro service rfl
  rfl

theorem actsIn_dropTable (table : Text) :
    ActsIn owner fun service => service.change owner (dropTable service.depthLimit table) := by
  intro settings
  refine .inr ⟨dropTable settings.depthLimit table, keepsName_dropTable _ table, ?_⟩
  rintro service rfl
  rfl

theorem actsIn_execute : ActsIn owner (·.execute owner request) := by
  intro settings
  obtain ⟨refusal, htooLong⟩ := exists_tooLong settings
  rcases hrequired : required settings.gateway request "query" "Query" with missing | query
  · refine .inl ⟨missing, ?_⟩
    rintro service rfl
    simp only [execute, hrequired]
  · rcases hcount : queryLength? query with _ | count
    · refine .inl ⟨broken, ?_⟩
      rintro service rfl
      simp only [execute, hrequired, hcount]
    · by_cases hlong : settings.maxQueryLength < count
      · refine .inl ⟨refusal, ?_⟩
        rintro service rfl
        simp only [execute, hrequired, hcount, if_pos hlong, htooLong service rfl]
      · refine .inr ⟨executeIn settings.interpreter settings.depthLimit query, keepsName_executeIn _ _ query, ?_⟩
        rintro service rfl
        simp only [execute, hrequired, hcount, if_neg hlong]

theorem actsIn_executeBatch : ActsIn owner (·.executeBatch owner request) := by
  intro settings
  obtain ⟨refusal, htooLong⟩ := exists_tooLong settings
  rcases hrequired : required settings.gateway request "queries" "Queries" with missing | value
  · refine .inl ⟨missing, ?_⟩
    rintro service rfl
    simp only [executeBatch, hrequired]
  · rcases hqueries : allTexts? value with _ | queries
    · refine .inl ⟨failure 400 "List of queries required", ?_⟩
      rintro service rfl
      simp only [executeBatch, hrequired, hqueries]
    · by_cases hlong : (queries.any fun query => settings.maxQueryLength < query.length) = true
      · refine .inl ⟨refusal, ?_⟩
        rintro service rfl
        simp only [executeBatch, hrequired, hqueries, if_pos hlong, htooLong service rfl]
      · refine .inr ⟨executeAllIn settings.interpreter settings.depthLimit queries,
          keepsName_executeAllIn _ _ queries, ?_⟩
        rintro service rfl
        simp only [executeBatch, hrequired, hqueries, if_neg hlong]

/-! ## Creating and deleting -/

def enter (service : Service) (name : Scalar) : Service :=
  { service with sessions := service.sessions ++ [.new name] }

theorem names_enter (given : Scalar) : (service.enter given).names = service.names ++ [given] := by
  simp [names, enter, Session.new]

theorem find?_enter (given : Scalar) : (service.enter given).find? (.text name) =
    (service.find? (.text name)).or (if given = .text name then some (.new given) else none) := by
  have hnew : [Session.new given].find? (sameName (.text name) ·.name) =
      if given = .text name then some (.new given) else none := by
    by_cases hgiven : given = .text name
    · simp [Session.new, hgiven, sameName_text_iff.mpr]
    · have hother : sameName (.text name) given = false := by
        rw [← Bool.not_eq_true, sameName_text_iff]
        exact hgiven
      simp [Session.new, hgiven, hother]
  rw [find?, enter, List.find?_append, hnew]
  rfl

theorem deleteDatabase_of_none (h : service.find? (.text name) = none) :
    service.deleteDatabase name = (service, notFound name) := by
  rw [deleteDatabase, h]

theorem deleteDatabase_of_some (h : service.find? (.text name) = some session) :
    service.deleteDatabase name =
      (service.remove (.text name), success [("message", .text ("Database " ++ name ++ " deleted"))]) := by
  rw [deleteDatabase, h]

/-- A request that gives no name creates nothing, whatever sessions there are. -/
theorem exists_createDatabase_of_none (h : gateway.name? request = none) : ∃ response : Response,
    response.status ≠ 200 ∧ ∀ service : Service, service.gateway = gateway →
      service.createDatabase request = (service, response) := by
  have hrefused : ∀ refused : Bool,
      (if refused then failure 400 "Database name required" else broken).status ≠ 200 := by
    intro refused
    cases refused <;> nofun
  unfold Gateway.name? Gateway.member? at h
  rcases hbody : gateway.body? request with _ | value | items | members
  · exact ⟨broken, nofun, fun service hgateway => by simp only [createDatabase, hgateway, hbody]⟩
  · exact ⟨_, hrefused (Json.scalar value).isEmpty, fun service hgateway => by
      simp only [createDatabase, hgateway, hbody]⟩
  · exact ⟨_, hrefused (Json.array items).isEmpty, fun service hgateway => by
      simp only [createDatabase, hgateway, hbody]⟩
  · rw [hbody, Option.bind_some] at h
    rcases hmember : (Json.object members).member? "name" with _ | given | items | inner
    · exact ⟨_, hrefused true, fun service hgateway => by
        simp only [createDatabase, hgateway, hbody, hmember]; rfl⟩
    · rw [hmember] at h
      cases h
    · exact ⟨_, hrefused (Json.array items).isEmpty, fun service hgateway => by
        simp only [createDatabase, hgateway, hbody, hmember]⟩
    · exact ⟨_, hrefused (Json.object inner).isEmpty, fun service hgateway => by
        simp only [createDatabase, hgateway, hbody, hmember]⟩

/-- A name that is given is refused if it is empty or taken. -/
theorem createDatabase_of_some {given : Scalar} (h : service.gateway.name? request = some given) :
    service.createDatabase request =
      if (Json.scalar given).isEmpty then (service, failure 400 "Database name required")
      else if (service.find? given).isSome then
        (service, failure 400 ("Database " ++ nameText given ++ " already exists"))
      else
        (service.enter given, success [("message", .text ("Database " ++ nameText given ++ " created"))]) := by
  unfold Gateway.name? Gateway.member? at h
  unfold createDatabase
  generalize service.gateway.body? request = body at h ⊢
  split at h
  · next found hmember =>
    cases h
    obtain ⟨json, rfl, hmember⟩ := Option.bind_eq_some_iff.mp hmember
    cases json with
    | object members =>
      rw [Option.bind_some] at hmember
      dsimp only
      rw [hmember]
      rfl
    | _ => cases hmember
  · cases h

end Service

end SnapshotSql
