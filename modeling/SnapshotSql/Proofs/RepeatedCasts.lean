import SnapshotSql.Proofs.FittingValues
import SnapshotSql.Proofs.OverflowingCasts
import SnapshotSql.Proofs.TypedRows

/-! # Casting a row again

Of several columns with one name the last one decides what a typed row holds under the name. Its cast fits its
type, and a value that fits a type other than DECIMAL is its own cast. So a row that has been cast once does not
change when it is cast again, as an UPDATE does with all columns of a row for the sake of one.
-/
namespace SnapshotSql

variable {columns : List Column} {row other typed typed' result result' : Row} {name : Text}

def lastNamed? (columns : List Column) (name : Text) : Option Column :=
  columns.reverse.find? (·.name = name)

theorem lastNamed?_cons (column : Column) (columns : List Column) (name : Text) :
    lastNamed? (column :: columns) name =
      (lastNamed? columns name).or (if column.name = name then some column else none) := by
  rw [lastNamed?, List.reverse_cons, List.find?_append, List.find?_singleton]
  simp [lastNamed?]

theorem lastNamed?_eq_none_iff : lastNamed? columns name = none ↔ name ∉ columns.map (·.name) := by
  simp [lastNamed?, List.find?_eq_none]

theorem lastNamed?_eq_some {column : Column} (h : lastNamed? columns name = some column) :
    column ∈ columns ∧ column.name = name :=
  ⟨List.mem_reverse.mp (List.mem_of_find?_eq_some h), by simpa using List.find?_some h⟩

/-- A typed row holds the casts to the last columns of the names. -/
theorem get?_castColumns_last (h : castColumns row typed columns = .ok result) {column : Column}
    (hlast : lastNamed? columns name = some column) {source : Scalar} (hsource : row.get? name = some source) :
    ∃ value, source.castTo column.type = .ok value ∧ result.get? name = some value := by
  induction columns generalizing typed with
  | nil => cases hlast
  | cons first columns ih =>
    rw [lastNamed?_cons] at hlast
    cases hmore : lastNamed? columns name with
    | some later =>
      rw [hmore, Option.some_or] at hlast
      cases hlast
      unfold castColumns at h
      split at h
      · exact ih h hmore
      · obtain ⟨_, -, h⟩ := Check.bind_eq_ok.mp h
        exact ih h hmore
    | none =>
      rw [hmore, Option.none_or] at hlast
      obtain ⟨rfl, hfirst⟩ := Option.ite_none_right_eq_some.mp hlast
      cases hfirst
      rw [castColumns, hsource] at h
      obtain ⟨value, hvalue, h⟩ := Check.bind_eq_ok.mp h
      refine ⟨value, hvalue, ?_⟩
      rw [get?_castColumns_of_notMem h (lastNamed?_eq_none_iff.mp hmore), OrderedMap.get?_insert, if_pos rfl]

/-- Under which names a typed row holds values, and in which order, is told from the names of the source. -/
theorem names_castColumns (h : castColumns row typed columns = .ok result)
    (h' : castColumns other typed' columns = .ok result')
    (hpresent : ∀ column ∈ columns, (row.get? column.name).isSome = (other.get? column.name).isSome)
    (hnames : typed.names = typed'.names) : result.names = result'.names := by
  induction columns generalizing typed typed' with
  | nil =>
    cases h
    cases h'
    exact hnames
  | cons column columns ih =>
    obtain ⟨hcolumn, hpresent⟩ := List.forall_mem_cons.mp hpresent
    rw [castColumns] at h h'
    cases hsource : row.get? column.name with
    | none =>
      rw [hsource] at hcolumn h
      have hsource' : other.get? column.name = none := by simpa using hcolumn.symm
      rw [hsource'] at h'
      exact ih h h' hpresent hnames
    | some source =>
      rw [hsource] at hcolumn h
      obtain ⟨source', hsource'⟩ := Option.isSome_iff_exists.mp hcolumn.symm
      rw [hsource'] at h'
      obtain ⟨value, -, h⟩ := Check.bind_eq_ok.mp h
      obtain ⟨value', -, h'⟩ := Check.bind_eq_ok.mp h'
      refine ih h h' hpresent ?_
      rw [OrderedMap.names_insert, OrderedMap.names_insert, hnames]

/-- What a row that has been cast holds under a name: the cast of what the source holds there to the last column
of the name, and nothing if there is no such column or no such value. -/
theorem get?_castRow_eq_some_iff (h : castRow columns row = .ok result) {value : Scalar} :
    result.get? name = some value ↔ ∃ column source, lastNamed? columns name = some column ∧
      row.get? name = some source ∧ source.castTo column.type = .ok value := by
  constructor
  · intro hvalue
    cases hsource : row.get? name with
    | none =>
      rw [get?_castColumns_of_none h hsource] at hvalue
      cases hvalue
    | some source =>
      cases hlast : lastNamed? columns name with
      | none =>
        rw [get?_castColumns_of_notMem h (lastNamed?_eq_none_iff.mp hlast)] at hvalue
        cases hvalue
      | some column =>
        obtain ⟨cast, hcast, hget⟩ := get?_castColumns_last h hlast hsource
        rw [hget] at hvalue
        cases hvalue
        exact ⟨column, source, rfl, rfl, hcast⟩
  · rintro ⟨column, source, hlast, hsource, hcast⟩
    obtain ⟨cast, hcast', hget⟩ := get?_castColumns_last h hlast hsource
    rw [hcast] at hcast'
    cases hcast'
    exact hget

/-- A row has a value under the name of a column before and after it is cast, or neither. -/
theorem isSome_get?_castRow (h : castRow columns row = .ok result) {column : Column} (hcolumn : column ∈ columns) :
    (result.get? column.name).isSome = (row.get? column.name).isSome := by
  obtain ⟨last, hlast⟩ : ∃ last, lastNamed? columns column.name = some last := by
    rw [← Option.ne_none_iff_exists', ne_eq, lastNamed?_eq_none_iff, not_not]
    exact List.mem_map_of_mem hcolumn
  cases hsource : row.get? column.name with
  | none =>
    rw [get?_castColumns_of_none h hsource]
    rfl
  | some source =>
    obtain ⟨_, -, hget⟩ := get?_castColumns_last h hlast hsource
    rw [hget]
    rfl

theorem exists_castRow (hdecimal : ∀ column ∈ columns, column.type.typeName ≠ .decimal) (row : Row) :
    ∃ result, castRow columns row = .ok result := by
  cases hcast : castRow columns row with
  | ok result => exact ⟨result, rfl⟩
  | error failure =>
    obtain ⟨-, column, hcolumn, value, -, hover⟩ := castRow_eq_error.mp hcast
    generalize htype : column.type = type at hover
    cases hover with
    | decimal _ _ => exact absurd (congrArg ColumnType.typeName htype) (hdecimal column hcolumn)

/-- What a row that has been cast holds under a name is its own cast to the last column of the name. -/
theorem castTo_of_get?_castRow (hdecimal : ∀ column ∈ columns, column.type.typeName ≠ .decimal)
    (h : castRow columns row = .ok result) {value : Scalar} (hvalue : result.get? name = some value) :
    ∃ column, lastNamed? columns name = some column ∧ value.castTo column.type = .ok value := by
  obtain ⟨column, source, hlast, -, hcast⟩ := (get?_castRow_eq_some_iff h).mp hvalue
  exact ⟨column, hlast, Scalar.castTo_of_fits (hdecimal column (lastNamed?_eq_some hlast).1) (Scalar.fits_castTo hcast)⟩

/-- A row that has been cast is its own cast. -/
theorem castRow_of_castRow (hdecimal : ∀ column ∈ columns, column.type.typeName ≠ .decimal)
    (h : castRow columns row = .ok result) : castRow columns result = .ok result := by
  obtain ⟨again, hagain⟩ := exists_castRow hdecimal result
  have hsame : again = result := by
    apply OrderedMap.eq_of_names_of_get?
    · exact names_castColumns hagain h (fun column hcolumn => isSome_get?_castRow h hcolumn) rfl
    · intro name
      ext value
      rw [get?_castRow_eq_some_iff hagain]
      constructor
      · rintro ⟨column, source, hlast, hsource, hcast⟩
        obtain ⟨column', hlast', hself⟩ := castTo_of_get?_castRow hdecimal h hsource
        rw [hlast] at hlast'
        cases hlast'
        rw [hself] at hcast
        cases hcast
        exact hsource
      · intro hvalue
        obtain ⟨column, hlast, hself⟩ := castTo_of_get?_castRow hdecimal h hvalue
        exact ⟨column, value, hlast, hvalue, hself⟩
  rw [hagain, hsame]

/-- Where no column is a DECIMAL, every row has a typed form, which is its own: it holds a value under the names of
just those columns that the row has a value for, and the value is null or one that the type of the column stands
for. The name must not belong to a column of another type as well, which no table and no view has. -/
theorem castRow_castRow (schema : TableSchema) (row : Row)
    (hdecimal : ∀ column ∈ schema.columns, column.type.typeName ≠ .decimal) :
    ∃ result, castRow schema.columns row = .ok result ∧ castRow schema.columns result = .ok result ∧
      (∀ name, (result.get? name).isSome ↔ name ∈ schema.columnNames ∧ (row.get? name).isSome) ∧
      ∀ column ∈ schema.columns, (∀ other ∈ schema.columns, other.name = column.name → other.type = column.type) →
        ∀ value, result.get? column.name = some value → column.type.Fits value := by
  obtain ⟨result, hresult⟩ := exists_castRow hdecimal row
  refine ⟨result, hresult, castRow_of_castRow hdecimal hresult, fun name => ?_,
    fun column hcolumn hshared value hvalue => ?_⟩
  · constructor
    · intro hsome
      obtain ⟨value, hvalue⟩ := Option.isSome_iff_exists.mp hsome
      obtain ⟨column, source, hlast, hsource, -⟩ := (get?_castRow_eq_some_iff hresult).mp hvalue
      obtain ⟨hmem, rfl⟩ := lastNamed?_eq_some hlast
      exact ⟨List.mem_map_of_mem hmem, by rw [hsource]; rfl⟩
    · rintro ⟨hname, hsome⟩
      obtain ⟨column, hcolumn, rfl⟩ := List.mem_map.mp hname
      rwa [isSome_get?_castRow hresult hcolumn]
  · obtain ⟨last, source, hlast, -, hcast⟩ := (get?_castRow_eq_some_iff hresult).mp hvalue
    obtain ⟨hmem, hname⟩ := lastNamed?_eq_some hlast
    rw [← hshared last hmem hname]
    exact Scalar.fits_castTo hcast

theorem castRow_castRow_padded :
    let schema : TableSchema := ⟨"players", [⟨"id", .int, true, true, true⟩, ⟨"code", .char 3, false, false, false⟩,
      ⟨"captain", .boolean, false, false, false⟩, ⟨"team", .int, false, false, false⟩], ["id"], [], [], .column, false⟩
    let row : Row := .ofList [("team", .null), ("captain", .text "no"), ("code", .int 7), ("id", .text "12b"),
      ("age", .int 30)]
    let typed : Row := .ofList [("id", .int 12), ("code", .text "7  "), ("captain", .bool true), ("team", .null)]
    castRow schema.columns row = .ok typed ∧ castRow schema.columns typed = .ok typed := by
  intro schema row typed
  have htyped : castRow schema.columns row = .ok typed := by rfl
  obtain ⟨result, hresult, hagain, -, -⟩ := castRow_castRow schema row (by decide)
  rw [htyped] at hresult
  cases hresult
  exact ⟨htyped, hagain⟩

end SnapshotSql
