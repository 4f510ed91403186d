import SnapshotSql.Proofs.IsolatedDatabases

/-! # Listed databases

A name is added by a request that is acknowledged to create a database and taken away by one that is
acknowledged to delete it, and no other request changes the names. So the open names are told by the
answers alone, each of them once. Listing them puts them in order, which is possible if all of them are
texts or none is. The names that a body gives are not checked for this: one number among them, and every
listing fails until the last text is deleted.
-/
namespace SnapshotSql

namespace Service

variable {service : Service} {gateway : Gateway} {request : Request} {requests : List Request} {name : Scalar}

/-! ## Acknowledged names -/

def Creates (gateway : Gateway) (exchange : Request × Response) (name : Scalar) : Prop :=
  gateway.operation? exchange.1 = some .createDatabase ∧ gateway.name? exchange.1 = some name ∧
    exchange.2.status = 200

def Deletes (gateway : Gateway) (exchange : Request × Response) (name : Scalar) : Prop :=
  ∃ database, gateway.operation? exchange.1 = some (.deleteDatabase database) ∧ name = .text database ∧
    exchange.2.status = 200

/-- A name whose creation was acknowledged, and not its deletion since. -/
def Acknowledged (gateway : Gateway) (exchanges : List (Request × Response)) (name : Scalar) : Prop :=
  ∃ earlier exchange later, exchanges = earlier ++ exchange :: later ∧ Creates gateway exchange name ∧
    ∀ other ∈ later, ¬ Deletes gateway other name

/-- The first name that a service has, if its deletion was not acknowledged, and the acknowledged ones. -/
def IsOpen (gateway : Gateway) (database : Text) (exchanges : List (Request × Response)) (name : Scalar) : Prop :=
  (name = .text database ∧ ∀ exchange ∈ exchanges, ¬ Deletes gateway exchange name) ∨
    Acknowledged gateway exchanges name

theorem not_acknowledged_nil : ¬ Acknowledged gateway [] name := by
  rintro ⟨earlier, exchange, later, hexchanges, -⟩
  cases earlier <;> cases hexchanges

theorem acknowledged_cons {exchange : Request × Response} {exchanges : List (Request × Response)} :
    Acknowledged gateway (exchange :: exchanges) name ↔
      (Creates gateway exchange name ∧ ∀ other ∈ exchanges, ¬ Deletes gateway other name) ∨
        Acknowledged gateway exchanges name := by
  constructor
  · rintro ⟨earlier, created, later, hexchanges, hcreates, hlater⟩
    cases earlier with
    | nil =>
      cases hexchanges
      exact .inl ⟨hcreates, hlater⟩
    | cons first earlier =>
      cases hexchanges
      exact .inr ⟨earlier, created, later, rfl, hcreates, hlater⟩
  · rintro (⟨hcreates, hlater⟩ | ⟨earlier, created, later, rfl, hcreates, hlater⟩)
    · exact ⟨[], exchange, exchanges, rfl, hcreates, hlater⟩
    · exact ⟨exchange :: earlier, created, later, rfl, hcreates, hlater⟩

/-! ## Names after a request -/

inductive Renames (service : Service) (exchange : Request × Response) (next : Service) : Prop
  | created (given : Scalar) (hcreates : ∀ name, Creates service.gateway exchange name ↔ name = given)
      (hdeletes : ∀ name, ¬ Deletes service.gateway exchange name) (hnew : given ∉ service.names)
      (hnames : next.names = service.names ++ [given])
  | deleted (database : Text) (hcreates : ∀ name, ¬ Creates service.gateway exchange name)
      (hdeletes : ∀ name, Deletes service.gateway exchange name ↔ name = .text database)
      (hnames : next.names = service.names.filter (· ≠ .text database))
  | kept (hcreates : ∀ name, ¬ Creates service.gateway exchange name)
      (hdeletes : ∀ name, ¬ Deletes service.gateway exchange name) (hnames : next.names = service.names)

theorem renames_createDatabase (h : service.gateway.operation? request = some .createDatabase) :
    Renames service (request, (service.createDatabase request).2) (service.createDatabase request).1 := by
  have hdeletes : ∀ (response : Response) name, ¬ Deletes service.gateway (request, response) name := by
    rintro response name ⟨database, hdelete, -⟩
    cases h.symm.trans hdelete
  cases hname : service.gateway.name? request with
  | none =>
    obtain ⟨response, hstatus, hresponse⟩ := exists_createDatabase_of_none hname
    rw [hresponse service rfl]
    exact .kept (fun _ hcreates => hstatus hcreates.2.2) (hdeletes _) rfl
  | some given =>
    rw [createDatabase_of_some hname]
    split
    · exact .kept (fun _ hcreates => absurd hcreates.2.2 (by simp [failure])) (hdeletes _) rfl
    · split
      · exact .kept (fun _ hcreates => absurd hcreates.2.2 (by simp [failure])) (hdeletes _) rfl
      · next hfree =>
        refine .created given (fun name => ⟨fun hcreates => ?_, fun hgiven => ⟨h, ?_, rfl⟩⟩) (hdeletes _)
          (not_mem_names (by simpa using hfree)) (names_enter given)
        · exact Option.some.inj (hcreates.2.1.symm.trans hname)
        · rw [hname, hgiven]

theorem renames_deleteDatabase {database : Text}
    (h : service.gateway.operation? request = some (.deleteDatabase database)) :
    Renames service (request, (service.deleteDatabase database).2) (service.deleteDatabase database).1 := by
  have hcreates : ∀ (response : Response) name, ¬ Creates service.gateway (request, response) name := by
    rintro response name ⟨hcreate, -⟩
    cases h.symm.trans hcreate
  cases hfound : service.find? (.text database) with
  | none =>
    rw [deleteDatabase_of_none hfound]
    refine .kept (hcreates _) ?_ rfl
    rintro name ⟨-, -, -, hstatus⟩
    cases hstatus
  | some session =>
    rw [deleteDatabase_of_some hfound]
    refine .deleted database (hcreates _) (fun name => ⟨?_, fun hname => ⟨database, h, hname, rfl⟩⟩) names_remove
    rintro ⟨deleted, hdelete, hname, -⟩
    cases h.symm.trans hdelete
    exact hname

theorem names_of_actsIn {owner : Text} {handler : Service → Service × Response} (h : ActsIn owner handler) :
    (handler service).1.names = service.names := by
  obtain ⟨response, hresponse⟩ | ⟨act, hact, hchange⟩ := h service.toSettings
  · rw [hresponse service rfl]
  · rw [hchange service rfl, names_change hact]

theorem renames_handle (service : Service) (request : Request) :
    Renames service (request, (service.handle request).2) (service.handle request).1 := by
  cases hoperation : service.gateway.operation? request with
  | none =>
    obtain ⟨response, hresponse⟩ := exists_handle_of_none hoperation
    rw [hresponse service rfl]
    refine .kept ?_ ?_ rfl
    · rintro name ⟨hcreate, -⟩
      cases hoperation.symm.trans hcreate
    · rintro name ⟨database, hdelete, -⟩
      cases hoperation.symm.trans hdelete
  | some operation =>
    rw [handle_of_operation hoperation]
    have hkept : ∀ {next : Service × Response}, operation ≠ .createDatabase →
        (∀ database, operation ≠ .deleteDatabase database) → next.1.names = service.names →
        Renames service (request, next.2) next.1 := by
      refine fun hcreate hdelete hnames => .kept (fun name h => ?_) (fun name h => ?_) hnames
      · exact hcreate (Option.some.inj (hoperation.symm.trans h.1))
      · obtain ⟨database, hdatabase, -⟩ := h
        exact hdelete database (Option.some.inj (hoperation.symm.trans hdatabase))
    cases operation with
    | createDatabase => exact renames_createDatabase hoperation
    | deleteDatabase database => exact renames_deleteDatabase hoperation
    | dropTable database table => exact hkept nofun nofun (names_of_actsIn (actsIn_dropTable table))
    | execute database => exact hkept nofun nofun (names_of_actsIn actsIn_execute)
    | executeBatch database => exact hkept nofun nofun (names_of_actsIn actsIn_executeBatch)
    | _ => exact hkept nofun nofun rfl

theorem mem_names_handle : name ∈ (service.handle request).1.names ↔
    (name ∈ service.names ∧ ¬ Deletes service.gateway (request, (service.handle request).2) name) ∨
      Creates service.gateway (request, (service.handle request).2) name := by
  cases renames_handle service request with
  | created given hcreates hdeletes hnew hnames => simp [hnames, hcreates, hdeletes]
  | deleted database hcreates hdeletes hnames => simp [hnames, hcreates, hdeletes]
  | kept hcreates hdeletes hnames => simp [hnames, hcreates, hdeletes]

theorem nodup_names_handle (h : service.names.Nodup) : (service.handle request).1.names.Nodup := by
  cases renames_handle service request with
  | created given hcreates hdeletes hnew hnames =>
    rw [hnames]
    exact List.nodup_append.mpr ⟨h, List.nodup_singleton given, by
      rintro name hname other hother rfl
      exact hnew (List.mem_singleton.mp hother ▸ hname)⟩
  | deleted database hcreates hdeletes hnames =>
    rw [hnames]
    exact h.filter _
  | kept hcreates hdeletes hnames => rwa [hnames]

/-! ## Names after many requests -/

theorem mem_names_after : name ∈ (service.after requests).names ↔
    (name ∈ service.names ∧ ∀ exchange ∈ service.exchanges requests, ¬ Deletes service.gateway exchange name) ∨
      Acknowledged service.gateway (service.exchanges requests) name := by
  induction requests generalizing service with
  | nil => simp [after, exchanges, not_acknowledged_nil]
  | cons request requests ih =>
    rw [after, exchanges, ih, gateway_handle, mem_names_handle, acknowledged_cons, List.forall_mem_cons,
      or_and_right, and_assoc, or_assoc]

theorem nodup_names_after (h : service.names.Nodup) : (service.after requests).names.Nodup := by
  induction requests generalizing service with
  | nil => exact h
  | cons request requests ih =>
    rw [after]
    exact ih (nodup_names_handle h)

/-! ## The listing -/

theorem sortedNames?_of_alike {names : List Scalar} (h : ∀ a ∈ names, ∀ b ∈ names, isText a = isText b) :
    sortedNames? names = some (Sorting.sort Scalar.lessThan names) := by
  unfold sortedNames?
  rw [if_pos]
  cases names with
  | nil => rfl
  | cons first names =>
    have hall : ∀ name ∈ first :: names, isText name = isText first :=
      fun name hname => h name hname first List.mem_cons_self
    cases hfirst : isText first with
    | true => simp [List.all_eq_true.mpr fun name hname => (hall name hname).trans hfirst]
    | false =>
      have hnone : (first :: names).all (!isText ·) = true :=
        List.all_eq_true.mpr fun name hname => by rw [hall name hname, hfirst]; rfl
      rw [hnone, Bool.or_true, Bool.true_or]

theorem sortedNames?_of_mixed {names : List Scalar} {text other : Scalar} (htext : text ∈ names)
    (hother : other ∈ names) (htextKind : isText text = true) (hotherKind : isText other = false) :
    sortedNames? names = none := by
  unfold sortedNames?
  rw [if_neg]
  simp only [Bool.or_eq_true, List.all_eq_true, decide_eq_true_eq, not_or, not_forall]
  refine ⟨⟨⟨other, hother, by simp [hotherKind]⟩, ⟨text, htext, by simp [htextKind]⟩⟩, fun hlength => ?_⟩
  match names with
  | [] => cases htext
  | [name] =>
    rw [List.mem_singleton.mp htext] at htextKind
    rw [List.mem_singleton.mp hother, htextKind] at hotherKind
    cases hotherKind
  | _ :: _ :: _ => simp at hlength

/-- Texts and other scalars are open at the same time. -/
def Mixed (isOpen : Scalar → Prop) : Prop :=
  ∃ text other, isOpen text ∧ isOpen other ∧ isText text = true ∧ isText other = false

/-- An answer with all open names, each of them once, and their number. They are in order; a name that is
no number at all has no place in it. -/
def Lists (response : Response) (isOpen : Scalar → Prop) : Prop :=
  ∃ names : List Scalar, names.Nodup ∧ (∀ name, name ∈ names ↔ isOpen name) ∧
    ((∀ name, isOpen name → name.isNan = false) → names.Pairwise fun a b => b.lessThan a = false) ∧
    response = success [("databases", .array (names.map .scalar)), ("count", .int names.length)]

theorem listDatabases_of_not_mixed (hnodup : service.names.Nodup) (h : ¬ Mixed (· ∈ service.names)) :
    Lists service.listDatabases (· ∈ service.names) := by
  have halike : ∀ a ∈ service.names, ∀ b ∈ service.names, isText a = isText b := by
    intro a ha b hb
    by_contra hkinds
    cases hkind : isText a with
    | true => exact h ⟨a, b, ha, hb, hkind, by simpa [hkind] using hkinds⟩
    | false => exact h ⟨b, a, hb, ha, by simpa [hkind] using hkinds, hkind⟩
  have hperm := Sorting.perm_sort Scalar.lessThan service.names
  have hsorted := sortedNames?_of_alike halike
  refine ⟨_, hperm.nodup_iff.mpr hnodup, fun name => hperm.mem_iff, fun hnan => ?_, ?_⟩
  · exact Scalar.pairwise_sort fun a ha b hb => ⟨halike a ha b hb, hnan a ha, hnan b hb⟩
  · unfold listDatabases
    unfold names at hsorted
    rw [hsorted]
    rfl

theorem listDatabases_of_mixed (h : Mixed (· ∈ service.names)) : service.listDatabases = broken := by
  obtain ⟨text, other, htext, hother, htextKind, hotherKind⟩ := h
  have hnone := sortedNames?_of_mixed htext hother htextKind hotherKind
  unfold listDatabases
  unfold names at hnone
  rw [hnone]

theorem gateway_after : (service.after requests).gateway = service.gateway := by
  induction requests generalizing service with
  | nil => rfl
  | cons request requests ih => rw [after, ih, gateway_handle]

/-- Listing the databases answers the open names, unless a text and another scalar are among them: then
it fails. -/
theorem databases_listed (settings : Settings) (database : Text) (requests : List Request)
    (h : settings.gateway.operation? request = some .listDatabases) :
    (¬ Mixed (IsOpen settings.gateway database ((reset settings database).exchanges requests)) →
      Lists (((reset settings database).after requests).handle request).2
        (IsOpen settings.gateway database ((reset settings database).exchanges requests))) ∧
    (Mixed (IsOpen settings.gateway database ((reset settings database).exchanges requests)) →
      (((reset settings database).after requests).handle request).2 = broken) := by
  have hopen : IsOpen settings.gateway database ((reset settings database).exchanges requests) =
      (· ∈ ((reset settings database).after requests).names) := by
    funext name
    rw [mem_names_after, IsOpen]
    simp [names, reset, Session.new]
  have hgateway : ((reset settings database).after requests).gateway = settings.gateway := gateway_after
  rw [← hgateway] at h
  rw [hopen, handle_of_operation h]
  exact ⟨listDatabases_of_not_mixed (nodup_names_after (List.nodup_singleton _)), listDatabases_of_mixed⟩

def numberedRequest : Request :=
  .post "/api/databases" [("name", .int 5)]

def listingRequest : Request :=
  .bodiless "GET" "/api/databases"

theorem databases_listed_numbered : Gateway.standard.operation? listingRequest = some .listDatabases ∧
    (¬ Mixed (IsOpen .standard defaultDatabase (fresh.exchanges [numberedRequest])) →
      Lists ((fresh.after [numberedRequest]).handle listingRequest).2
        (IsOpen .standard defaultDatabase (fresh.exchanges [numberedRequest]))) ∧
    (Mixed (IsOpen .standard defaultDatabase (fresh.exchanges [numberedRequest])) →
      ((fresh.after [numberedRequest]).handle listingRequest).2 = broken) := by
  have hlisting : Gateway.standard.operation? listingRequest = some .listDatabases := by decide +kernel
  exact ⟨hlisting, databases_listed fresh.toSettings _ _ hlisting⟩

/-- After a database with a number for its name, the listing fails. -/
theorem not_every_listing_answered : ¬ ∀ (requests : List Request) (request : Request),
    Gateway.standard.operation? request = some .listDatabases →
      Lists ((fresh.after requests).handle request).2
        (IsOpen .standard defaultDatabase (fresh.exchanges requests)) := by
  intro hevery
  have hstatus : ((fresh.after [numberedRequest]).handle listingRequest).2.status = 500 := by decide +kernel
  obtain ⟨names, -, -, -, hanswer⟩ := hevery [numberedRequest] listingRequest (by decide +kernel)
  rw [hanswer] at hstatus
  cases hstatus

end Service

end SnapshotSql
