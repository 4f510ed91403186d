import SnapshotSql.Proofs.BareTexts
import SnapshotSql.Proofs.DistinctGroups
import SnapshotSql.Proofs.NamedTables
import SnapshotSql.Proofs.PaddedRows

/-! # Queries for one column

SELECT with one column of a table finds the values that are stored in the column, if the name of the column has no
point. A point makes a qualified name of it for the check of the SELECT, which wants the table before the point and
a column behind it, though the rows are asked for the whole name first.
-/
namespace SnapshotSql

def columnQuery (column table : Text) : Select :=
  ⟨Select.columnItems [column], table, none, false, none, [], none, [], none, 0⟩

def columnText (column table : Text) : Text :=
  "SELECT " ++ column ++ " FROM " ++ table

example : parse (columnText "team" "player") = .ok (.select (columnQuery "team" "player")) := by
  decide +kernel

variable {column table : Text}

/-! ## Reading the text -/

namespace Parser

/-- Behind a column without a label, the items end or go on. -/
def Unlabelled (more : List Lexeme) : Prop :=
  firstOf more = .keyword "FROM" ∨ firstOf more = .symbol .comma

theorem itemLabel_parses_nil {default : Text} : Parses (itemLabel default) [] default Unlabelled := by
  have hother : ∀ {more}, Unlabelled more → firstOf more ≠ .keyword "AS" ∧ ∀ name, firstOf more ≠ .name name := by
    intro more hmore
    obtain hmore | hmore := hmore <;> rw [hmore] <;> exact ⟨nofun, nofun⟩
  refine parses_declined (fun more hmore => by simpa using (hother hmore).1) ?_
  refine parses_current fun token ⟨more, hmore, htoken⟩ => ?_
  have hname : ∀ name, token.lexeme ≠ .name name := fun name => htoken ▸ (hother hmore).2 name
  split
  · next name hlexeme => exact absurd hlexeme (hname name)
  · exact parses_pure

theorem column_parses (column : Text) :
    Parses selectItem [.name column] (.column column (SourceText.labelOf column)) Unlabelled := by
  refine parses_current_cons fun token htoken => ?_
  rw [htoken]
  refine parses_following fun token ⟨more, hmore, htoken⟩ => ?_
  have hnext : token.lexeme = firstOf more := htoken
  have hlabel : Parses (advance >>= fun _ => itemLabel (SourceText.labelOf column) >>= fun label =>
      pure (SelectItem.column column label)) [.name column] _ Unlabelled :=
    parses_advance nofun (itemLabel_parses_nil.make (SelectItem.column column))
  obtain hmore | hmore := hmore
  · rw [hnext, hmore]
    exact hlabel
  · rw [hnext, hmore]
    exact hlabel

theorem columnQuery_parses (column table : Text) :
    Parses statement [.keyword "SELECT", .name column, .keyword "FROM", .name table]
      (.select (columnQuery column table)) (· = [.endOfInput]) := by
  have hparsable : Parsable none := nofun
  have hcolumn : ∀ item ∈ (columnQuery column table).items, Parses selectItem [.name column] item Unlabelled := by
    intro item hitem
    rw [List.mem_singleton.mp hitem]
    exact column_parses column
  have hitems : Parses (commaSeparated selectItem) [.name column] (columnQuery column table).items
      (firstOf · = .keyword "FROM") :=
    commaSeparated_parses (fun _ => Or.inr rfl) (fun more hmore => ⟨Or.inl hmore, by rw [hmore]; nofun⟩) hcolumn
  have hjoin : .keyword "JOIN" ∉ .name table :: (aliasLexemes (columnQuery column table).tableAlias ++
      (columnQuery column table).clauses) := by
    change Lexeme.keyword "JOIN" ∉ [Lexeme.name table]
    simp
  have hsource := parses_source (show Parsable (columnQuery column table).condition from hparsable) hparsable hjoin
  have hselect : Parses select [.keyword "SELECT", .name column, .keyword "FROM", .name table]
      (columnQuery column table) (· = [.endOfInput]) := by
    refine parses_expectKeyword _ (parses_declined (fun _ _ => rfl) ?_)
    exact hitems.bind hsource fun _ _ => rfl
  refine statement_parses (parses_current_cons fun token htoken => ?_)
  rw [htoken]
  exact hselect.make Statement.select

end Parser

theorem columnText_eq (column table : Text) : columnText column table =
    Text.ofString "SELECT" ++ .char ' ' :: (column ++ .char ' ' :: (Text.ofString "FROM" ++ .char ' ' :: table)) := by
  simp [columnText]
  rfl

section
variable (hcolumn : IsName column) (htable : IsName table)

include htable in
theorem solid_columnText : Text.Solid (columnText column table) := by
  have hfirst : Text.Solid (Text.ofString "SELECT") := Text.solid_of_forall (by decide) (by decide)
  have hwhole : Text.Solid (Text.ofString "SELECT" ++ .char ' ' :: (column ++ .char ' ' ::
      (Text.ofString "FROM" ++ [.char ' '])) ++ table) := hfirst.append htable.1.solid
  rw [columnText_eq]
  simpa using hwhole

include hcolumn htable

theorem bare_columnText : SourceText.Bare (columnText column table) := by
  have hwords : SourceText.Bare (Text.ofString "SELECT ") ∧ SourceText.Bare (Text.ofString " FROM ") := by decide
  simp [columnText, hwords, SourceText.bare_name hcolumn, SourceText.bare_name htable]

theorem parse_columnText : parse (columnText column table) = .ok (.select (columnQuery column table)) := by
  have hwords : IsCapital "SELECT" ∧ IsCapital "FROM" := by decide
  have hsource := hwords.2.isWord.lays.append (Lexer.boundary_cons (by decide)) (Lexer.lays_name htable).space
  have hitems := (Lexer.lays_name hcolumn).append (Lexer.boundary_cons (by decide)) hsource.space
  have hlays := hwords.1.isWord.lays.append (Lexer.boundary_cons (by decide)) hitems.space
  rw [← columnText_eq] at hlays
  exact parse_of_lays (solid_columnText htable) hlays (Parser.columnQuery_parses column table)

theorem runsAs_columnText : Database.RunsAs (columnText column table) (.select (columnQuery column table)) := by
  have hshown : Text.trim (SourceText.withoutComments (columnText column table)) = columnText column table := by
    rw [(bare_columnText hcolumn htable).kept.withoutComments, (solid_columnText htable).trim]
  constructor
  · simpa [hshown] using (solid_columnText htable).ne_nil
  · rw [hshown, columnText_eq, SourceText.kind?_select]
    exact nofun
  · rw [hshown]
    exact parse_columnText hcolumn htable

end

/-! ## Running the query -/

theorem Row.resolve_eq (row : Row) (name : Text) :
    row.resolve name = (row.get? name).getD (row.value (bareName name)) := by
  rw [Row.resolve, bareName]
  cases hget : row.get? name with
  | some value => rfl
  | none =>
    cases splitQualified name with
    | none => rw [Row.value, hget]; rfl
    | some parts => rfl

theorem Row.value_eq_resolve_iff (row : Row) (name : Text) :
    row.value name = row.resolve name ↔ (row.get? name = none → row.value (bareName name) = .null) := by
  rw [Row.resolve_eq, Row.value]
  cases row.get? name <;> simp [eq_comm]

/-- A SELECT on the table may name the column: if there is a point in the name, the table stands before the last
one, and behind it a column. -/
def TableSchema.Selectable (schema : TableSchema) (table column : Text) : Prop :=
  ∀ qualifier bare, splitQualified column = some (qualifier, bare) → qualifier = table ∧ bare ∈ schema.columnNames

variable {schema : TableSchema}

theorem TableSchema.selectable_of_plain (hplain : .char '.' ∉ column) : schema.Selectable table column := by
  intro qualifier bare hsplit
  rw [(splitQualified_eq_none_iff column).mpr hplain] at hsplit
  cases hsplit

theorem bareName_of_plain (hplain : .char '.' ∉ column) : bareName column = column := by
  rw [bareName, (splitQualified_eq_none_iff column).mpr hplain]

theorem checkName_columnQuery (hmem : column ∈ schema.columnNames) :
    (columnQuery column table).checkName schema column = .ok () ↔ schema.Selectable table column := by
  rw [Select.checkName, TableSchema.Selectable]
  cases splitQualified column with
  | none => simp [TableSchema.requireColumn_eq_ok, hmem]
  | some parts =>
    obtain ⟨qualifier, bare⟩ := parts
    by_cases hqualifier : qualifier = table
    · simp [columnQuery, Select.qualifiers, hqualifier, TableSchema.requireColumn_eq_ok]
    · simp [columnQuery, Select.qualifiers, hqualifier]

theorem resultOf_columnQuery (hcolumn : IsName column) (rows : List Row) :
    (columnQuery column table).resultOf schema rows =
      ⟨[column], rows.map fun row => .ofList [(column, row.resolve column)]⟩ := by
  have hnames : ∀ name ∈ [column], IsName name := List.forall_mem_singleton.mpr hcolumn
  have hcolumns : (columnQuery column table).resultColumns schema = [column] :=
    Select.resultColumns_columnItems rfl hnames
  have hprojected : (columnQuery column table).projectAll schema rows =
      rows.map fun row => ⟨Select.pick [column] row, row⟩ := Select.projectAll_columnItems hnames rfl rfl rows
  have hfound : (columnQuery column table).found schema rows =
      rows.map fun row => ⟨Select.pick [column] row, row⟩ := by
    have hpassing : (columnQuery column table).passing rows = rows := List.filter_true rows
    rw [← hprojected, Select.found, hpassing]
    exact List.filter_true _
  rw [Select.resultOf_eq, hcolumns, hfound]
  change (⟨[column], ((Select.sortRows [] _).drop 0).map _⟩ : QueryResult) = _
  rw [Select.sortRows_nil, List.drop_zero, List.map_map]
  rfl

namespace Database

variable {database : Database} {limit : Int}

/-- The values that the rows of a table store in a column, null where a row has none. -/
def storedColumn (database : Database) (table column : Text) : QueryResult :=
  ⟨[column], (database.tableRows table).map fun row => .ofList [(column, row.value column)]⟩

theorem select_columnQuery_eq_ok (hfound : database.schemas.get? table = some schema)
    (hmem : column ∈ schema.columnNames) (hcolumn : IsName column) {result : QueryResult} :
    database.select (columnQuery column table) = .ok result ↔ schema.Selectable table column ∧
      result = ⟨[column], (database.tableRows table).map fun row => .ofList [(column, row.resolve column)]⟩ := by
  have hitems : (columnQuery column table).items.forM ((columnQuery column table).checkItem schema) = .ok () ↔
      schema.Selectable table column := by
    rw [Check.forM_eq_ok, ← checkName_columnQuery hmem]
    exact List.forall_mem_singleton
  rw [select_eq_ok]
  constructor
  · rintro ⟨other, hother, hchecked, hresult⟩
    have hsame : other = schema := Option.some.inj (hother.symm.trans hfound)
    subst hsame
    exact ⟨hitems.mp hchecked, by rw [← hresult, resultOf_columnQuery hcolumn]; rfl⟩
  · rintro ⟨hselectable, hresult⟩
    exact ⟨schema, hfound, hitems.mpr hselectable, by rw [hresult, resultOf_columnQuery hcolumn]; rfl⟩

/-- Two columns with one name are the same exactly if they show the same value for every row. -/
theorem column_inj {rows : List Row} {f g : Row → Scalar} :
    (⟨[column], rows.map fun row => .ofList [(column, f row)]⟩ : QueryResult) =
        ⟨[column], rows.map fun row => .ofList [(column, g row)]⟩ ↔ ∀ row ∈ rows, f row = g row := by
  have hcell : ∀ value other : Scalar, OrderedMap.ofList [(column, value)] = .ofList [(column, other)] ↔
      value = other := by
    intro value other
    constructor
    · intro heq
      simpa [OrderedMap.ofList] using congrArg (·.get? column) heq
    · intro heq
      rw [heq]
  rw [QueryResult.mk.injEq, and_iff_right rfl, List.map_inj_left]
  simp only [hcell]

/-- The query for one column of a reachable snapshot succeeds exactly if a SELECT may name the column, and answers
what its rows resolve the name to. -/
theorem Reachable.execute_columnText_eq_ok (h : database.Reachable)
    (hfound : database.schemas.get? table = some schema) (hmem : column ∈ schema.columnNames)
    (hcolumn : IsName column) {outcome : Outcome} :
    database.execute limit (columnText column table) = .ok outcome ↔ schema.Selectable table column ∧
      outcome = .unchanged ⟨[column], (database.tableRows table).map fun row =>
        .ofList [(column, row.resolve column)]⟩ := by
  have hruns := runsAs_columnText hcolumn (h.tablesNamed table schema hfound)
  have hrun : database.execute limit (columnText column table) = .ok outcome ↔
      ∃ result, database.select (columnQuery column table) = .ok result ∧ .unchanged result = outcome := by
    rw [execute_of_runsAs hruns]
    exact Check.orFail_eq_ok.trans Check.map_eq_ok
  simp only [hrun, select_columnQuery_eq_ok hfound hmem hcolumn]
  constructor
  · rintro ⟨result, ⟨hselectable, rfl⟩, rfl⟩
    exact ⟨hselectable, rfl⟩
  · rintro ⟨hselectable, rfl⟩
    exact ⟨_, ⟨hselectable, rfl⟩, rfl⟩

/-- In a reachable snapshot, SELECT with one column of a table or view succeeds exactly if the name has no point or
names the table before it and a column behind it, and it answers, for each row in turn, the value of the column, or
where the row has none the value of the column that is named behind the last point. So it answers the stored values
if the name has no point, and else exactly if it succeeds and no other value stands in for a missing one. -/
theorem select_column (h : database.Reachable) (hfound : database.schemas.get? table = some schema)
    (hmem : column ∈ schema.columnNames) (hcolumn : IsName column) (limit : Int) :
    (∀ outcome, database.execute limit (columnText column table) = .ok outcome ↔
      schema.Selectable table column ∧
        outcome = .unchanged ⟨[column], (database.tableRows table).map fun row =>
          .ofList [(column, (row.get? column).getD (row.value (bareName column)))]⟩) ∧
      (database.execute limit (columnText column table) = .ok (.unchanged (database.storedColumn table column)) ↔
        .char '.' ∉ column ∨ schema.Selectable table column ∧
          ∀ row ∈ database.tableRows table, row.get? column = none → row.value (bareName column) = .null) := by
  have hanswers : ∀ outcome, database.execute limit (columnText column table) = .ok outcome ↔ _ :=
    fun outcome => h.execute_columnText_eq_ok hfound hmem hcolumn
  have hsame : Outcome.unchanged (database.storedColumn table column) = .unchanged ⟨[column],
      (database.tableRows table).map fun row => .ofList [(column, row.resolve column)]⟩ ↔
      ∀ row ∈ database.tableRows table, row.get? column = none → row.value (bareName column) = .null := by
    rw [Outcome.unchanged, Outcome.unchanged, Outcome.mk.injEq, and_iff_right rfl, storedColumn, column_inj]
    exact forall₂_congr fun row _ => row.value_eq_resolve_iff column
  constructor
  · simpa only [Row.resolve_eq] using hanswers
  · rw [hanswers, hsame]
    constructor
    · exact Or.inr
    · rintro (hplain | hboth)
      · refine ⟨TableSchema.selectable_of_plain hplain, fun row _ hnone => ?_⟩
        rw [bareName_of_plain hplain, Row.value, hnone]
        rfl
      · exact hboth

/-- A room, and a view of its number under the qualified name. -/
def roomTexts : List (Int × Text) :=
  [(64, "CREATE TABLE room (id INT PRIMARY KEY)"), (64, "INSERT INTO room VALUES (1)"),
    (64, "CREATE VIEW listed AS SELECT room.id FROM room")]

def roomSchema : TableSchema :=
  ⟨"room", [⟨"id", .int, false, false, false⟩], ["id"], [], [], .column, false⟩

def listedSchema : TableSchema :=
  ⟨"listed", [⟨"room.id", .int, false, false, false⟩], [], [], [], .none, true⟩

def rooms : Database :=
  ⟨"listed", .ofList [("room", roomSchema), ("listed", listedSchema)],
    .ofList [("room", [.ofList [("id", .int 1)]]), ("listed", [.ofList [("room.id", .int 1)]])]⟩

set_option maxRecDepth 20000 in
theorem rooms_reachable : rooms.Reachable :=
  ⟨roomTexts, by decide +kernel⟩

theorem not_selectable_listed : ¬ listedSchema.Selectable "listed" "room.id" := by
  intro hselectable
  have hsplit : splitQualified "room.id" = some (.ofString "room", .ofString "id") := by decide
  have hsame : Text.ofString "room" = "listed" := (hselectable _ _ hsplit).1
  exact absurd hsame (by decide)

theorem select_column_rooms : rooms.Reachable ∧ rooms.schemas.get? "room" = some roomSchema ∧
    rooms.schemas.get? "listed" = some listedSchema ∧
    rooms.execute 64 (columnText "id" "room") = .ok (.unchanged ⟨["id"], [.ofList [("id", .int 1)]]⟩) ∧
    ∀ outcome, rooms.execute 64 (columnText "room.id" "listed") ≠ .ok outcome := by
  have hroom : rooms.schemas.get? "room" = some roomSchema := by decide +kernel
  have hlisted : rooms.schemas.get? "listed" = some listedSchema := by decide +kernel
  have hcolumns : Text.ofString "id" ∈ roomSchema.columnNames ∧
      Text.ofString "room.id" ∈ listedSchema.columnNames := by decide
  have hnames : IsName "id" ∧ IsName "room.id" := by decide
  obtain ⟨-, hstored⟩ := select_column rooms_reachable hroom hcolumns.1 hnames.1 64
  obtain ⟨hanswers, -⟩ := select_column rooms_reachable hlisted hcolumns.2 hnames.2 64
  have hrows : rooms.storedColumn "room" "id" = ⟨["id"], [.ofList [("id", .int 1)]]⟩ := by decide +kernel
  refine ⟨rooms_reachable, hroom, hlisted, ?_, fun outcome hanswer => ?_⟩
  · rw [← hrows]
    exact hstored.mpr (Or.inl (by decide))
  · exact not_selectable_listed ((hanswers outcome).mp hanswer).1

/-- The column of a view may be stored under a name that no SELECT can ask the view for. -/
theorem not_every_column_selected :
    ¬ ∀ database : Database, database.Reachable → ∀ table schema, database.schemas.get? table = some schema →
      ∀ column ∈ schema.columnNames, IsName column → ∀ limit,
        database.execute limit (columnText column table) = .ok (.unchanged (database.storedColumn table column)) := by
  intro hall
  have hfound : rooms.schemas.get? "listed" = some listedSchema := by decide +kernel
  have hmem : Text.ofString "room.id" ∈ listedSchema.columnNames := by decide
  have hname : IsName "room.id" := by decide
  have hanswered := hall rooms rooms_reachable "listed" listedSchema hfound "room.id" hmem hname 64
  exact not_selectable_listed ((rooms_reachable.execute_columnText_eq_ok hfound hmem hname).mp hanswered).1

end Database

end SnapshotSql
