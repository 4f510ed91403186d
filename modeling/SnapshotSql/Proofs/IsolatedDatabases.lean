import SnapshotSql.Proofs.ServiceRuns

/-! # Databases are isolated

Two services look alike to a database if its session is the same in both and so are the settings. A request
that is addressed to the database is answered alike by such services and leaves them alike, and a request
that is not leaves the session as it is. So the requests to one database are answered as if no others came
in between, and its session ends where they alone take it.
-/
namespace SnapshotSql

namespace Service

variable {service other : Service} {gateway : Gateway} {request : Request} {name owner : Text}
  {requests : List Request}

/-- Services with the same settings and the same session of a name. -/
structure Alike (name : Text) (service other : Service) : Prop where
  session : service.find? (.text name) = other.find? (.text name)
  settings : service.toSettings = other.toSettings

theorem Alike.refl (service : Service) : Alike name service service :=
  ⟨rfl, rfl⟩

theorem Alike.trans {third : Service} (h : Alike name service other) (hthird : Alike name other third) :
    Alike name service third :=
  ⟨h.session.trans hthird.session, h.settings.trans hthird.settings⟩

theorem Alike.gateway_eq (h : Alike name service other) : service.gateway = other.gateway :=
  congrArg (·.gateway) h.settings

/-! ## Handlers -/

/-- Behind a gateway, a handler sees nothing but the session of a name and the settings. -/
def Minds (gateway : Gateway) (name : Text) (handler : Service → Service × Response) : Prop :=
  ∀ service other, service.gateway = gateway → Alike name service other →
    (handler service).2 = (handler other).2 ∧ Alike name (handler service).1 (handler other).1

/-- Behind a gateway, a handler leaves the session of a name and the settings as they are. -/
def Spares (gateway : Gateway) (name : Text) (handler : Service → Service × Response) : Prop :=
  ∀ service, service.gateway = gateway → Alike name (handler service).1 service

theorem minds_inspect (answer : Settings → Session → Response) :
    Minds gateway name fun service => (service, service.inspect name (answer service.toSettings)) :=
  fun _ _ _ halike => ⟨by simp only [inspect, halike.session, halike.settings], halike⟩

theorem settings_change {act : Session → Session × Response} :
    (service.change owner act).1.toSettings = service.toSettings := by
  cases hfound : service.find? (.text owner) with
  | none => rw [change_of_none hfound]
  | some session =>
    rw [change_of_some hfound]
    rfl

theorem ActsIn.minds {handler : Service → Service × Response} (h : ActsIn name handler) :
    Minds gateway name handler := by
  intro service other hgateway halike
  obtain ⟨response, hresponse⟩ | ⟨act, hact, hchange⟩ := h other.toSettings
  · rw [hresponse other rfl, hresponse service halike.settings]
    exact ⟨rfl, halike⟩
  · rw [hchange other rfl, hchange service halike.settings]
    refine ⟨?_, ?_, ?_⟩
    · simp only [change, halike.session]
      split <;> rfl
    · simp only [find?_change hact, if_true, halike.session]
    · rw [settings_change, settings_change, halike.settings]

theorem ActsIn.spares {handler : Service → Service × Response} (h : ActsIn owner handler)
    (hname : owner ≠ name) : Spares gateway name handler := by
  intro service hgateway
  obtain ⟨response, hresponse⟩ | ⟨act, hact, hchange⟩ := h service.toSettings
  · rw [hresponse service rfl]
    exact .refl service
  · rw [hchange service rfl]
    exact ⟨by rw [find?_change hact, if_neg hname], settings_change⟩

theorem minds_deleteDatabase : Minds gateway name (·.deleteDatabase name) := by
  intro service other hgateway halike
  dsimp only
  cases hfound : other.find? (.text name) with
  | none =>
    rw [deleteDatabase_of_none hfound, deleteDatabase_of_none (halike.session.trans hfound)]
    exact ⟨rfl, halike⟩
  | some session =>
    rw [deleteDatabase_of_some hfound, deleteDatabase_of_some (halike.session.trans hfound)]
    refine ⟨rfl, ?_, halike.settings⟩
    simp only [find?_remove, if_true]

theorem spares_deleteDatabase (hname : owner ≠ name) : Spares gateway name (·.deleteDatabase owner) := by
  intro service hgateway
  dsimp only
  cases hfound : service.find? (.text owner) with
  | none =>
    rw [deleteDatabase_of_none hfound]
    exact .refl service
  | some session =>
    rw [deleteDatabase_of_some hfound]
    exact ⟨find?_remove.trans (if_neg hname), rfl⟩

theorem minds_createDatabase (h : gateway.name? request = some (.text name)) :
    Minds gateway name (·.createDatabase request) := by
  intro service other hgateway halike
  have hservice : service.gateway.name? request = some (.text name) := hgateway ▸ h
  have hother : other.gateway.name? request = some (.text name) := halike.gateway_eq ▸ hservice
  simp only [createDatabase_of_some hservice, createDatabase_of_some hother, halike.session]
  split
  · exact ⟨rfl, halike⟩
  · split
    · exact ⟨rfl, halike⟩
    · refine ⟨rfl, ?_, halike.settings⟩
      simp only [find?_enter, halike.session]

theorem spares_createDatabase (h : gateway.name? request ≠ some (.text name)) :
    Spares gateway name (·.createDatabase request) := by
  rintro service rfl
  dsimp only
  cases hname : service.gateway.name? request with
  | none =>
    obtain ⟨response, -, hresponse⟩ := exists_createDatabase_of_none hname
    rw [hresponse service rfl]
    exact .refl service
  | some given =>
    have hgiven : given ≠ .text name := fun heq => h (hname.trans (congrArg some heq))
    rw [createDatabase_of_some hname]
    split
    · exact .refl service
    · split
      · exact .refl service
      · refine ⟨?_, rfl⟩
        rw [find?_enter, if_neg hgiven, Option.or_none]

/-! ## Requests -/

/-- A request to a database sees nothing but its session. -/
theorem minds_handle (h : gateway.addressee? request = some name) : Minds gateway name (·.handle request) := by
  rintro service other rfl halike
  unfold Gateway.addressee? at h
  split at h
  · next hoperation =>
    have hother := halike.gateway_eq ▸ hoperation
    simp only [handle_of_operation hoperation, handle_of_operation hother]
    split at h <;> cases h
    next hname => exact minds_createDatabase hname service other rfl halike
  · next operation hcreates hoperation =>
    have hother := halike.gateway_eq ▸ hoperation
    simp only [handle_of_operation hoperation, handle_of_operation hother]
    cases operation with
    | listDatabases | health | info => cases h
    | createDatabase => exact absurd rfl hcreates
    | describeDatabase owner =>
      cases h
      exact minds_inspect (fun _ session => success [("database", session.summary)]) service other rfl halike
    | deleteDatabase owner =>
      cases h
      exact minds_deleteDatabase service other rfl halike
    | listTables owner =>
      cases h
      exact minds_inspect (fun _ => listTables) service other rfl halike
    | dropTable owner table =>
      cases h
      exact (actsIn_dropTable table).minds service other rfl halike
    | describeTable owner table =>
      cases h
      exact minds_inspect (fun _ => describeTable table) service other rfl halike
    | dumpTable owner table =>
      cases h
      exact minds_inspect (fun settings => dumpTable settings.interpreter table) service other rfl halike
    | execute owner =>
      cases h
      exact actsIn_execute.minds service other rfl halike
    | executeBatch owner =>
      cases h
      exact actsIn_executeBatch.minds service other rfl halike
  · cases h

/-- A request to anything else leaves the session of a database as it is. -/
theorem spares_handle (h : gateway.addressee? request ≠ some name) : Spares gateway name (·.handle request) := by
  rintro service rfl
  unfold Gateway.addressee? at h
  split at h
  · next hoperation =>
    simp only [handle_of_operation hoperation]
    refine spares_createDatabase (fun hname => ?_) service rfl
    simp [hname] at h
  · next operation hcreates hoperation =>
    simp only [handle_of_operation hoperation]
    have hother : ∀ {owner : Text}, operation.database? = some owner → owner ≠ name :=
      fun howner heq => h (howner.trans (congrArg some heq))
    cases operation with
    | createDatabase => exact absurd rfl hcreates
    | deleteDatabase owner => exact spares_deleteDatabase (hother rfl) service rfl
    | dropTable owner table => exact (actsIn_dropTable table).spares (hother rfl) service rfl
    | execute owner => exact actsIn_execute.spares (hother rfl) service rfl
    | executeBatch owner => exact actsIn_executeBatch.spares (hother rfl) service rfl
    | _ => exact .refl service
  · next hoperation =>
    obtain ⟨response, hresponse⟩ := exists_handle_of_none hoperation
    simp only [hresponse service rfl]
    exact .refl service

/-- No request changes the settings: a request that is not addressed to some name leaves them. -/
theorem settings_handle : (service.handle request).1.toSettings = service.toSettings := by
  obtain ⟨name, hname⟩ : ∃ name, service.gateway.addressee? request ≠ some name := by
    cases service.gateway.addressee? request with
    | none => exact ⟨[], nofun⟩
    | some name => exact ⟨.char 'x' :: name, by simp⟩
  exact (spares_handle hname service rfl).settings

theorem gateway_handle : (service.handle request).1.gateway = service.gateway :=
  congrArg (·.gateway) settings_handle

/-! ## Sequences of requests -/

def answersTo (service : Service) (name : Text) (requests : List Request) : List Response :=
  ((service.exchanges requests).filter (service.gateway.addressee? ·.1 = some name)).map (·.2)

theorem requestsTo_cons_self (h : gateway.addressee? request = some name) (requests : List Request) :
    gateway.requestsTo name (request :: requests) = request :: gateway.requestsTo name requests :=
  List.filter_cons_of_pos (decide_eq_true h)

theorem requestsTo_cons_other (h : gateway.addressee? request ≠ some name) (requests : List Request) :
    gateway.requestsTo name (request :: requests) = gateway.requestsTo name requests :=
  List.filter_cons_of_neg (by simpa using h)

theorem answersTo_cons_self (h : service.gateway.addressee? request = some name) (requests : List Request) :
    service.answersTo name (request :: requests) =
      (service.handle request).2 :: (service.handle request).1.answersTo name requests := by
  unfold answersTo
  rw [exchanges, List.filter_cons, if_pos (decide_eq_true h), List.map_cons, gateway_handle]

theorem answersTo_cons_other (h : service.gateway.addressee? request ≠ some name) (requests : List Request) :
    service.answersTo name (request :: requests) = (service.handle request).1.answersTo name requests := by
  unfold answersTo
  rw [exchanges, List.filter_cons, if_neg (by simpa using h), gateway_handle]

/-- The requests to a database alone are answered alike and lead to the same session. -/
theorem Alike.run (halike : Alike name service other) (requests : List Request) :
    service.answersTo name requests = other.answersTo name (service.gateway.requestsTo name requests) ∧
      Alike name (service.after requests) (other.after (service.gateway.requestsTo name requests)) := by
  -- The second service stays where it is while the first one answers requests to other databases.
  induction requests generalizing service other with
  | nil => exact ⟨rfl, halike⟩
  | cons request requests ih =>
    by_cases h : service.gateway.addressee? request = some name
    · obtain ⟨hresponse, hnext⟩ := minds_handle h service other rfl halike
      dsimp only at hresponse hnext
      have hother : other.gateway.addressee? request = some name := halike.gateway_eq ▸ h
      obtain ⟨hanswers, hlast⟩ := ih hnext
      rw [gateway_handle] at hanswers hlast
      rw [requestsTo_cons_self h, answersTo_cons_self h, answersTo_cons_self hother, after, after, hresponse]
      exact ⟨congrArg _ hanswers, hlast⟩
    · have hnext := (spares_handle h service rfl).trans halike
      dsimp only at hnext
      obtain ⟨hanswers, hlast⟩ := ih hnext
      rw [gateway_handle] at hanswers hlast
      rw [requestsTo_cons_other h, answersTo_cons_other h, after]
      exact ⟨hanswers, hlast⟩

/-- Two sequences with the same requests to a database have the same answers to them and leave its session
the same, however other requests come in between. -/
theorem databases_isolated {others : List Request}
    (h : service.gateway.requestsTo name requests = service.gateway.requestsTo name others) :
    service.answersTo name requests = service.answersTo name others ∧
      (service.after requests).find? (.text name) = (service.after others).find? (.text name) := by
  obtain ⟨hanswers, hlast⟩ := (Alike.refl service).run requests
  obtain ⟨hothers, hlastOthers⟩ := (Alike.refl service).run others
  rw [h] at hanswers hlast
  exact ⟨hanswers.trans hothers.symm, hlast.session.trans hlastOthers.session.symm⟩

def leagueRequests : List Request := [
  .post "/api/databases" [("name", .text "league")],
  .post "/api/databases/league/execute" [("query", .text "CREATE TABLE team (id INT PRIMARY KEY)")],
  .bodiless "GET" "/api/databases/league"]

/-- The same requests among others: a table of the same name elsewhere, and databases that come and go. -/
def mixedRequests : List Request := [
  .post "/api/databases" [("name", .text "stock")],
  .post "/api/databases" [("name", .text "league")],
  .post "/api/databases/stock/execute" [("query", .text "CREATE TABLE team (sku TEXT)")],
  .post "/api/databases/league/execute" [("query", .text "CREATE TABLE team (id INT PRIMARY KEY)")],
  .bodiless "DELETE" "/api/databases/stock",
  .bodiless "GET" "/api/databases/league",
  .bodiless "GET" "/api/databases"]

theorem databases_isolated_league :
    Gateway.standard.requestsTo "league" mixedRequests = Gateway.standard.requestsTo "league" leagueRequests ∧
    fresh.answersTo "league" mixedRequests = fresh.answersTo "league" leagueRequests ∧
    (fresh.after mixedRequests).find? (.text "league") = (fresh.after leagueRequests).find? (.text "league") := by
  have hleague : Gateway.standard.requestsTo "league" leagueRequests = leagueRequests :=
    List.filter_eq_self.mpr (by decide +kernel)
  have hmixed : Gateway.standard.requestsTo "league" mixedRequests = leagueRequests := by
    unfold mixedRequests leagueRequests
    rw [requestsTo_cons_other (by decide +kernel), requestsTo_cons_self (by decide +kernel),
      requestsTo_cons_other (by decide +kernel), requestsTo_cons_self (by decide +kernel),
      requestsTo_cons_other (by decide +kernel), requestsTo_cons_self (by decide +kernel),
      requestsTo_cons_other (by decide +kernel)]
    rfl
  have h := hmixed.trans hleague.symm
  exact ⟨h, databases_isolated h⟩

end Service

end SnapshotSql
