import SnapshotSql.Proofs.DeleteMeaning
import SnapshotSql.Proofs.RefusedDeletes
import SnapshotSql.Proofs.SchemaOrder

/-! # DELETE and the order of foreign keys

A DELETE asks the foreign keys in the order in which the schemas list them. What it takes away, what it
refuses and what it sets to null can be told without that order, from the least set of rows closed under
cascades, as long as the actions of different foreign keys do not meet on one row. Where they do, the
foreign key that is asked first decides: a row that a cascade has taken along no longer restricts.
-/
namespace SnapshotSql

namespace Integrity

variable {database other : Database} {table child : Text} {positions : List Nat} {position : Nat}
  {first last : Progress} {removed : Set (Text × Nat)}

/-! ## What a DELETE takes away -/

/-- The rows that every closed set with the given rows has. -/
def removals (database : Database) (table : Text) (positions : List Nat) : Set (Text × Nat) :=
  {row | ∀ rows, (∀ position ∈ positions, (table, position) ∈ rows) → CascadeClosed database rows →
    row ∈ rows}

theorem mem_removals (h : position ∈ positions) : (table, position) ∈ removals database table positions :=
  fun _ hgiven _ => hgiven position h

theorem cascadeClosed_removals : CascadeClosed database (removals database table positions) := by
  rintro child foreignKey hforeign haction position row hrow ⟨key, href, hlost⟩ rows hgiven hclosed
  have hsubset : removals database table positions ⊆ rows := fun _ hmem => hmem rows hgiven hclosed
  exact hclosed child foreignKey hforeign haction position row hrow ⟨key, href, hlost.mono hsubset⟩

def RestrictLost (database : Database) (removed : Set (Text × Nat)) (child : Text) (position : Nat) :
    Prop :=
  ∃ foreignKey ∈ database.foreignKeys child, foreignKey.onDelete = .restrict ∧
    ∃ row, (database.tableRows child)[position]? = some row ∧
      ReferenceLost database removed foreignKey row

/-- The actions of different foreign keys do not meet on one row of a DELETE: columns that are set to
null belong to no other reference and are not referred to, and no row that is taken along has lost a
reference that restricts. -/
structure ActionsApart (database : Database) (table : Text) (positions : List Nat) : Prop where
  nullsApart : NullsApart database (removals database table positions)
  keysStay : KeysStay database (removals database table positions)
  restricting : ∀ child position, (child, position) ∈ removals database table positions →
    RestrictLost database (removals database table positions) child position →
      child = table ∧ position ∈ positions

/-- Actions never meet where no column is in two foreign keys, none that is set to null is referred to,
and no table has a reference that cascades and one that restricts. -/
theorem ActionsApart.of_schemas (hapart : database.ColumnsApart) (hstay : database.ReferencesStay)
    (hactions : ∀ table, ∀ foreignKey ∈ database.foreignKeys table, foreignKey.onDelete = .cascade →
      ∀ other ∈ database.foreignKeys table, other.onDelete ≠ .restrict) :
    ActionsApart database table positions := by
  refine ⟨hapart.nullsApart _, hstay.keysStay _, fun child position hmem hlost => ?_⟩
  obtain hgiven | ⟨foreignKey, hforeign, haction⟩ :=
    hmem {row | (row.1 = table ∧ row.2 ∈ positions) ∨
        ∃ foreignKey ∈ database.foreignKeys row.1, foreignKey.onDelete = .cascade}
      (fun position hposition => Or.inl ⟨rfl, hposition⟩)
      fun child foreignKey hforeign haction _ _ _ _ => Or.inr ⟨foreignKey, hforeign, haction⟩
  · exact hgiven
  · obtain ⟨restricting, hrestricting, hrestrict, -⟩ := hlost
    exact absurd hrestrict (hactions child foreignKey hforeign haction restricting hrestricting)

theorem NullsApart.subset {fewer : Set (Text × Nat)} (h : NullsApart database removed)
    (hsubset : fewer ⊆ removed) : NullsApart database fewer :=
  fun table nulled hnulled => h table nulled (hnulled.mono hsubset)

theorem KeysStay.subset {fewer : Set (Text × Nat)} (h : KeysStay database removed)
    (hsubset : fewer ⊆ removed) : KeysStay database fewer :=
  fun table nulled hnulled => h table nulled (hnulled.mono hsubset)

section
variable (hapart : ActionsApart database table positions)
include hapart

/-- All waves on the way are among the rows that every closed set has. -/
theorem DeleteTrace.doomed_subset_removals {questions : List (Question Wave)}
    (h : DeleteTrace database ⟨[⟨table, positions⟩], .empty⟩ questions last) :
    rowSet (doomed last.waves) ⊆ removals database table positions ∧
      RowsCleared database (KeyLost database (removals database table positions)) last := by
  refine h.waves_subset hapart.keysStay rfl cascadeClosed_removals ?_
  rintro ⟨child, position⟩ hmem
  obtain ⟨wave, hwave, rfl, hposition⟩ := (mem_doomed ..).mp hmem
  cases List.mem_singleton.mp hwave
  exact mem_removals hposition

/-- The waves at the end are the rows that every closed set has. -/
theorem DeleteTrace.doomed_eq_removals
    (h : DeleteTrace database ⟨[⟨table, positions⟩], .empty⟩
      (last.waves.flatMap (Wave.questions database)) last) :
    rowSet (doomed last.waves) = removals database table positions := by
  have hsubset := (DeleteTrace.doomed_subset_removals hapart h).1
  refine hsubset.antisymm fun row hrow => hrow _ (fun position hposition => ?_) ?_
  · exact doomed_subset (DeleteTrace.waves_prefix h)
      ((mem_doomed ..).mpr ⟨_, List.mem_singleton_self _, rfl, hposition⟩)
  · exact h.cascadeClosed_of_nullsApart (hapart.nullsApart.subset hsubset)
      (hapart.keysStay.subset hsubset) rfl

/-- A DELETE that is published takes these rows away, and sets to null what they take from the others. -/
theorem rows_of_publish_delete {limit : Int} {count : Nat} {next : Database}
    (h : database.publish (delete database limit table positions) = .ok (count, next)) :
    count = positions.length ∧ ∃ removed : Text → List Nat,
      rowSet removed = removals database table positions ∧
      ∀ child, List.Forall₂ (LeftOver database (removals database table positions) child)
        (rowsExcept (database.tableRows child) (removed child)) (next.tableRows child) := by
  obtain ⟨scratch, hruns, rfl⟩ := Database.publish_eq_ok.mp h
  obtain ⟨hcount, last, -, htrace, hrows⟩ := trace_of_delete hruns
  have hremoved := DeleteTrace.doomed_eq_removals hapart htrace
  refine ⟨hcount, doomed last.waves, hremoved, fun child => ?_⟩
  have hlost := DeleteTrace.rows_lost_of_keysStay hapart.keysStay htrace rfl hremoved.subset
  rw [Database.tableRows_commit, hrows]
  refine forall₂_rowsExcept (hlost child).length_eq fun position row left hposition hrow hleft => ?_
  rw [← hremoved]
  exact htrace.leftOver_of_nullsApart (hapart.nullsApart.subset hremoved.subset)
    (hapart.keysStay.subset hremoved.subset) rfl hposition hrow hleft

/-- A DELETE within the limit is published exactly if no row that it leaves has lost a reference that
restricts. -/
theorem exists_publish_delete_iff {limit : Int}
    (hlimit : ¬ Staging.Refused (delete database limit table positions) .empty
      (.blocked (.depthLimit "DELETE" limit))) :
    (∃ answer, database.publish (delete database limit table positions) = .ok answer) ↔
      ∀ child position, RestrictLost database (removals database table positions) child position →
        (child, position) ∈ removals database table positions := by
  constructor
  · rintro ⟨⟨count, next⟩, h⟩ child position ⟨foreignKey, hforeign, haction, row, hrow, hlost⟩
    obtain ⟨scratch, hruns, -⟩ := Database.publish_eq_ok.mp h
    obtain ⟨-, last, -, htrace, -⟩ := trace_of_delete hruns
    have hremoved := DeleteTrace.doomed_eq_removals hapart htrace
    rw [← hremoved] at hlost ⊢
    exact htrace.doomed_of_referenceLost (hapart.nullsApart.subset hremoved.subset)
      (hapart.keysStay.subset hremoved.subset) rfl hforeign (by simp [haction]) hrow hlost
  · intro hstays
    cases hresult : database.publish (delete database limit table positions) with
    | ok answer => exact ⟨answer, rfl⟩
    | error failure =>
      obtain ⟨error, -, hrefused⟩ := Database.publish_eq_error.mp hresult
      rcases of_refused_delete hrefused with ⟨questions, state, question, htrace, hrestricts⟩ | rfl
      · -- The row in the way is outside the waves so far, but it is among those taken along.
        obtain ⟨parents, hparents, haffected, -⟩ := hrestricts.affected
        obtain ⟨position, hposition⟩ := List.exists_mem_of_ne_nil _ haffected
        obtain ⟨hsubset, hrows⟩ := DeleteTrace.doomed_subset_removals hapart htrace
        obtain ⟨row, hrow, hlost⟩ := hrestricts.toAsked.referenceLost hapart.keysStay hrows hsubset
          hparents hposition
        have hrestrict : RestrictLost database (removals database table positions) question.child
            position := ⟨_, hrestricts.foreignKey_mem, hrestricts.restrict, row, hrow, hlost⟩
        obtain ⟨htable, hgiven⟩ := hapart.restricting _ _ (hstays _ _ hrestrict) hrestrict
        have hdoomed : position ∈ doomed state.waves question.child :=
          doomed_subset (DeleteTrace.waves_prefix htrace)
            ((mem_doomed ..).mpr ⟨_, List.mem_singleton_self _, htable.symm, hgiven⟩)
        exact absurd hdoomed ((mem_referringTo ..).mp hposition).1
      · exact absurd hrefused hlimit

end

/-- What is left of a row is determined. -/
theorem LeftOver.unique {row left left' : Row} (h : LeftOver database removed table row left)
    (h' : LeftOver database removed table row left') : left = left' := by
  refine OrderedMap.eq_of_names_of_get? (h.names.trans h'.names.symm) fun column => ?_
  by_cases hcleared : ∃ foreignKey ∈ database.foreignKeys table, foreignKey.onDelete = .setNull ∧
      ReferenceLost database removed foreignKey row ∧ column ∈ foreignKey.columns
  · obtain ⟨foreignKey, hforeign, haction, hlost, hcolumn⟩ := hcleared
    rw [h.cleared foreignKey hforeign haction hlost column hcolumn,
      h'.cleared foreignKey hforeign haction hlost column hcolumn]
  · have hkept : ∀ foreignKey ∈ database.foreignKeys table, foreignKey.onDelete = .setNull →
        ReferenceLost database removed foreignKey row → column ∉ foreignKey.columns :=
      fun foreignKey hforeign haction hlost hcolumn =>
        hcleared ⟨foreignKey, hforeign, haction, hlost, hcolumn⟩
    rw [h.kept column hkept, h'.kept column hkept]

theorem rowsExcept_congr {rows : List Row} {others : List Nat}
    (h : ∀ position, position ∈ positions ↔ position ∈ others) :
    rowsExcept rows positions = rowsExcept rows others := by
  have hsame (position : Nat) : positions.contains position = others.contains position := by
    rw [Bool.eq_iff_iff, List.contains_iff_mem, List.contains_iff_mem, h]
  simp only [rowsExcept, hsame]

end Integrity

/-! ## Another order -/

/-- The same snapshot, with the foreign keys of its schemas listed in another order. -/
structure Database.Reordered (database other : Database) : Prop where
  active : other.active = database.active
  names : other.tableNames = database.tableNames
  schemas : ∀ table schema, database.schemas.get? table = some schema → ∃ foreignKeys,
    List.Perm foreignKeys schema.foreignKeys ∧
      other.schemas.get? table = some { schema with foreignKeys := foreignKeys }
  rows : other.rows = database.rows

namespace Database.Reordered

open Integrity

variable {database other : Database} {table : Text} {positions : List Nat} {removed : Set (Text × Nat)}
  (h : Reordered database other)
include h

theorem get?_eq_none (hnone : database.schemas.get? table = none) : other.schemas.get? table = none := by
  cases hother : other.schemas.get? table with
  | none => rfl
  | some schema =>
    have hmem : table ∈ other.tableNames := (OrderedMap.mem_names_iff ..).mpr ⟨schema, hother⟩
    rw [h.names] at hmem
    obtain ⟨found, hfound⟩ := (OrderedMap.mem_names_iff ..).mp hmem
    rw [hnone] at hfound
    cases hfound

theorem perm_foreignKeys (table : Text) :
    List.Perm (other.foreignKeys table) (database.foreignKeys table) := by
  unfold Database.foreignKeys
  cases hschema : database.schemas.get? table with
  | none => rw [h.get?_eq_none hschema]
  | some schema =>
    obtain ⟨foreignKeys, hperm, hother⟩ := h.schemas table schema hschema
    rwa [hother]

theorem mem_foreignKeys {foreignKey : ForeignKey} :
    foreignKey ∈ other.foreignKeys table ↔ foreignKey ∈ database.foreignKeys table :=
  (h.perm_foreignKeys table).mem_iff

theorem tableRows : other.tableRows = database.tableRows := by
  funext table
  rw [Database.tableRows, h.rows, Database.tableRows]

theorem referenceLost : ReferenceLost other removed = ReferenceLost database removed := by
  unfold ReferenceLost KeyLost
  rw [h.tableRows]

theorem removals : removals other table positions = removals database table positions := by
  unfold Integrity.removals CascadeClosed
  simp only [h.mem_foreignKeys, h.tableRows, h.referenceLost]

theorem restrictLost : RestrictLost other removed = RestrictLost database removed := by
  unfold RestrictLost
  simp only [h.mem_foreignKeys, h.tableRows, h.referenceLost]

theorem nullLost_iff {nulled : ForeignKey} :
    NullLost other removed table nulled ↔ NullLost database removed table nulled := by
  constructor
  · rintro ⟨hmem, haction, hlost⟩
    rw [h.tableRows, h.referenceLost] at hlost
    exact ⟨h.mem_foreignKeys.mp hmem, haction, hlost⟩
  · rintro ⟨hmem, haction, hlost⟩
    rw [← h.tableRows, ← h.referenceLost] at hlost
    exact ⟨h.mem_foreignKeys.mpr hmem, haction, hlost⟩

theorem actionsApart (happart : ActionsApart database table positions) :
    ActionsApart other table positions := by
  obtain ⟨hnulls, hkeys, hrestricting⟩ := happart
  constructor
  · simpa only [NullsApart, h.removals, h.nullLost_iff, h.mem_foreignKeys] using hnulls
  · simpa only [KeysStay, h.removals, h.nullLost_iff, h.mem_foreignKeys] using hkeys
  · simpa only [h.removals, h.restrictLost] using hrestricting

theorem leftOver_iff {row left : Row} :
    LeftOver other removed table row left ↔ LeftOver database removed table row left := by
  constructor
  · rintro ⟨hnames, hcleared, hkept⟩
    simp only [h.mem_foreignKeys, h.referenceLost] at hcleared hkept
    exact ⟨hnames, hcleared, hkept⟩
  · rintro ⟨hnames, hcleared, hkept⟩
    simp only [← h.mem_foreignKeys, ← h.referenceLost] at hcleared hkept
    exact ⟨hnames, hcleared, hkept⟩

/-- What both DELETEs publish has the same rows. -/
theorem tableRows_of_publish (happart : ActionsApart database table positions) {limit : Int}
    {count count' : Nat} {next next' : Database}
    (hnext : database.publish (Integrity.delete database limit table positions) = .ok (count, next))
    (hnext' : other.publish (Integrity.delete other limit table positions) = .ok (count', next')) :
    count' = count ∧ next'.tableRows = next.tableRows := by
  obtain ⟨hcount, removed, hremoved, hrows⟩ := rows_of_publish_delete happart hnext
  obtain ⟨hcount', removed', hremoved', hrows'⟩ := rows_of_publish_delete (h.actionsApart happart) hnext'
  refine ⟨hcount'.trans hcount.symm, funext fun child => ?_⟩
  have hsame (position : Nat) : position ∈ removed' child ↔ position ∈ removed child := by
    rw [h.removals, ← hremoved] at hremoved'
    exact Set.ext_iff.mp hremoved' (child, position)
  have hleft := hrows' child
  rw [h.tableRows, h.removals, rowsExcept_congr hsame] at hleft
  have hunique : Relator.RightUnique
      (LeftOver database (Integrity.removals database table positions) child) :=
    fun _ _ _ hfirst hsecond => hfirst.unique hsecond
  exact hunique.forall₂ (hleft.imp fun _ _ => h.leftOver_iff.mp) (hrows child)

theorem exists_publish_iff (happart : ActionsApart database table positions) {limit : Int}
    (hlimit : ¬ Staging.Refused (Integrity.delete database limit table positions) .empty
      (.blocked (.depthLimit "DELETE" limit)))
    (hlimit' : ¬ Staging.Refused (Integrity.delete other limit table positions) .empty
      (.blocked (.depthLimit "DELETE" limit))) :
    (∃ answer, other.publish (Integrity.delete other limit table positions) = .ok answer) ↔
      ∃ answer, database.publish (Integrity.delete database limit table positions) = .ok answer := by
  rw [exists_publish_delete_iff happart hlimit, exists_publish_delete_iff (h.actionsApart happart) hlimit',
    h.removals, h.restrictLost]

end Database.Reordered

/-! ## DELETE statements -/

namespace Database

open Integrity

variable {database other : Database} {limit : Int} {deletion : Delete} {schema : TableSchema}

def deleted (table : Text) (answer : Nat × Database) : Outcome :=
  .published answer.2 (.affected
    ("Deleted " ++ Numeral.wholeText answer.1 ++ " row(s) from " ++ table ++ ".") answer.1)

theorem delete_eq_map (hschema : database.schemas.get? deletion.table = some schema)
    (hname : schema.name = deletion.table) : database.delete limit deletion =
      (database.publish (Integrity.delete database limit deletion.table
        (deletedPositions deletion (database.tableRows deletion.table)))).map (deleted deletion.table) := by
  have hrequire : orFail (database.requireTable deletion.table) = .ok schema := by
    rw [Check.orFail_eq_ok, requireTable_eq_ok, hschema]
  unfold delete
  rw [hrequire, ← hname]
  change (database.publish (Integrity.delete database limit schema.name
    (deletedPositions deletion (database.tableRows schema.name))) >>= fun answer =>
      pure (deleted schema.name answer)) = _
  generalize database.publish _ = published
  cases published <;> rfl

theorem not_refused_of_delete (hschema : database.schemas.get? deletion.table = some schema)
    (hname : schema.name = deletion.table) {error : SqlError}
    (h : database.delete limit deletion ≠ .error (.rejected error)) :
    ¬ Staging.Refused (Integrity.delete database limit deletion.table
      (deletedPositions deletion (database.tableRows deletion.table))) .empty error := by
  intro hrefused
  rw [delete_eq_map hschema hname, publish_eq_error.mpr ⟨error, rfl, hrefused⟩] at h
  exact h rfl

/-- The order of the foreign keys decides neither whether a DELETE succeeds nor what it leaves, where
their actions do not meet on one row and the limit of the depth stops neither of the two. -/
theorem delete_of_reordered (hreachable : database.Reachable) (h : Reordered database other)
    (happart : ActionsApart database deletion.table
      (deletedPositions deletion (database.tableRows deletion.table)))
    (hlimit : database.delete limit deletion ≠
      .error (.rejected (.blocked (.depthLimit "DELETE" limit))))
    (hlimit' : other.delete limit deletion ≠
      .error (.rejected (.blocked (.depthLimit "DELETE" limit)))) :
    ((∃ outcome, other.delete limit deletion = .ok outcome) ↔
      ∃ outcome, database.delete limit deletion = .ok outcome) ∧
    ∀ outcome outcome', database.delete limit deletion = .ok outcome →
      other.delete limit deletion = .ok outcome' → outcome'.result = outcome.result ∧
        (outcome'.snapshot other).tableRows = (outcome.snapshot database).tableRows := by
  have hexists {α β : Type} {result : Except Failure α} {f : α → β} :
      (∃ answer, result.map f = .ok answer) ↔ ∃ answer, result = .ok answer := by
    cases result <;> simp [Except.map]
  cases hschema : database.schemas.get? deletion.table with
  | none =>
    have hmissing (snapshot : Database) (hnone : snapshot.schemas.get? deletion.table = none) :
        snapshot.delete limit deletion = .error (.rejected (.tableNotFound deletion.table)) := by
      simp [delete, requireTable, hnone, orFail, bind, Except.bind]
    simp [hmissing _ hschema, hmissing _ (h.get?_eq_none hschema)]
  | some schema =>
    obtain ⟨foreignKeys, -, hother⟩ := h.schemas _ _ hschema
    have hname := hreachable.listed.named _ _ hschema
    have hrefused := not_refused_of_delete hschema hname hlimit
    have hrefused' := not_refused_of_delete hother hname hlimit'
    rw [h.tableRows] at hrefused'
    rw [delete_eq_map hschema hname, delete_eq_map hother hname, h.tableRows]
    constructor
    · rw [hexists, hexists]
      exact h.exists_publish_iff happart hrefused hrefused'
    · intro outcome outcome' houtcome houtcome'
      obtain ⟨⟨count, next⟩, hnext, rfl⟩ := Check.map_eq_ok.mp houtcome
      obtain ⟨⟨count', next'⟩, hnext', rfl⟩ := Check.map_eq_ok.mp houtcome'
      obtain ⟨rfl, hrows⟩ := h.tableRows_of_publish happart hnext hnext'
      exact ⟨rfl, hrows⟩

def memberTexts (onDeleteHome onDeleteGuest : Text) : List (Int × Text) :=
  [(64, "create table club(id int primary key)"),
    (64, "create table member(id int primary key, home int references club(id) on delete " ++
      onDeleteHome ++ ", guest int references club(id) on delete " ++ onDeleteGuest ++ ")"),
    (64, "insert into club values (1), (2)"),
    (64, "insert into member values (1, 1, 1), (2, 2, 1)")]

def members (references : List ForeignKey) : Database :=
  let plain (name : Text) : Column := ⟨name, .int, false, false, false⟩
  ⟨"member",
    .ofList [
      ("club", ⟨"club", [plain "id"], ["id"], [], [], .column, false⟩),
      ("member", ⟨"member", [plain "id", plain "home", plain "guest"], ["id"], [], references,
        .column, false⟩)],
    .ofList [
      ("club", [.ofList [("id", .int 1)], .ofList [("id", .int 2)]]),
      ("member", [.ofList [("id", .int 1), ("home", .int 1), ("guest", .int 1)],
        .ofList [("id", .int 2), ("home", .int 2), ("guest", .int 1)]])]⟩

def clubReference (column : Text) (action : ReferentialAction) : ForeignKey :=
  ⟨[column], "club", ["id"], action, .restrict, none⟩

theorem reordered_members {references others : List ForeignKey} (h : others.Perm references) :
    Reordered (members references) (members others) := by
  refine ⟨rfl, rfl, fun table schema hschema => ?_, rfl⟩
  simp only [members, OrderedMap.ofList, List.foldl_cons, List.foldl_nil, OrderedMap.get?_insert] at hschema ⊢
  split at hschema
  · next hmember =>
    cases hschema
    exact ⟨others, h, by rw [if_pos hmember]⟩
  · next hother =>
    exact ⟨schema.foreignKeys, List.Perm.refl _, by rw [if_neg hother, hschema]⟩

set_option maxRecDepth 20000 in
/-- Deleting a club takes its members along, and its guests lose it, whichever reference is listed
first. -/
theorem delete_of_reordered_members :
    let home := clubReference "home" .cascade
    let guest := clubReference "guest" .setNull
    let deletion : Delete := ⟨"club", some (.compare (.column "id") .equal (.literal (.int 1)))⟩
    ∃ outcome outcome',
      (members [home, guest]).delete 64 deletion = .ok outcome ∧
      (members [guest, home]).delete 64 deletion = .ok outcome' ∧ outcome'.result = outcome.result ∧
      (outcome'.snapshot (members [guest, home])).tableRows =
        (outcome.snapshot (members [home, guest])).tableRows := by
  intro home guest deletion
  have hreachable : (members [home, guest]).Reachable :=
    ⟨memberTexts "cascade" "set null", by decide +kernel⟩
  have hactions : ∀ table, ∀ foreignKey ∈ (members [home, guest]).foreignKeys table,
      foreignKey.onDelete = .cascade →
        ∀ other ∈ (members [home, guest]).foreignKeys table, other.onDelete ≠ .restrict :=
    forall_foreignKeys_iff.mpr (by decide +kernel)
  have hok : ((members [home, guest]).delete 64 deletion).isOk = true := by decide +kernel
  have hok' : ((members [guest, home]).delete 64 deletion).isOk = true := by decide +kernel
  obtain ⟨outcome, houtcome⟩ := Check.exists_of_isOk hok
  obtain ⟨outcome', houtcome'⟩ := Check.exists_of_isOk hok'
  have hsame := delete_of_reordered hreachable (reordered_members (List.Perm.swap ..))
    (.of_schemas (by decide +kernel) (by decide +kernel) hactions) (by rw [houtcome]; exact nofun)
    (by rw [houtcome']; exact nofun)
  exact ⟨outcome, outcome', houtcome, houtcome', hsame.2 outcome outcome' houtcome houtcome'⟩

set_option maxRecDepth 20000 in
/-- It is not so that the order of foreign keys never decides whether a DELETE succeeds: a member who
is taken along with the home no longer restricts as a guest. -/
theorem not_every_order_alike : ¬ ∀ database other : Database, database.Reachable →
    Reordered database other → ∀ (limit : Int) (deletion : Delete),
      (∃ outcome, other.delete limit deletion = .ok outcome) ↔
        ∃ outcome, database.delete limit deletion = .ok outcome := by
  intro hevery
  let home := clubReference "home" .cascade
  let guest := clubReference "guest" .restrict
  have hreachable : (members [home, guest]).Reachable :=
    ⟨memberTexts "cascade" "restrict", by decide +kernel⟩
  have hok : ((members [home, guest]).delete 64 ⟨"club", none⟩).isOk = true := by decide +kernel
  have hblocked : ((members [guest, home]).delete 64 ⟨"club", none⟩).isOk = false := by decide +kernel
  obtain ⟨outcome, h⟩ := (hevery _ _ hreachable (reordered_members (List.Perm.swap ..)) 64
    ⟨"club", none⟩).mpr (Check.exists_of_isOk hok)
  rw [h] at hblocked
  cases hblocked

end Database

end SnapshotSql
