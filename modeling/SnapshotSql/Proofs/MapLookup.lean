import SnapshotSql.Row
import Mathlib.Data.List.Basic

/-! # What the operations on maps do to lookups

A map is observed through `get?`. Inserting changes one name, erasing forgets one, and inserting all
entries of a second map lets that map answer first. Rows are maps, so the values of a row follow.
-/
namespace SnapshotSql

namespace OrderedMap

variable {α : Type}

theorem lookup_cons_eq (other : Text) (entry : Text × α) (rest : List (Text × α)) :
    (entry :: rest).lookup other = if other = entry.1 then some entry.2 else rest.lookup other := by
  obtain ⟨name, value⟩ := entry
  rw [List.lookup_cons]
  by_cases h : other = name
  · simp [h]
  · have hb : (other == name) = false := by simpa using h
    simp [h, hb]

theorem lookup_put (name other : Text) (value : α) (entries : List (Text × α)) :
    (put name value entries).lookup other =
      if other = name then some value else entries.lookup other := by
  induction entries with
  | nil => simp [put, lookup_cons_eq]
  | cons entry rest ih =>
    by_cases hentry : entry.1 = name
    · simp only [put, hentry, if_true, lookup_cons_eq]
      split <;> rfl
    · simp only [put, hentry, if_false, lookup_cons_eq, ih]
      by_cases hother : other = entry.1
      · simp [hother, hentry]
      · simp [hother]

@[simp] theorem get?_insert (map : OrderedMap α) (name other : Text) (value : α) :
    (map.insert name value).get? other = if other = name then some value else map.get? other :=
  lookup_put name other value map.entries

theorem get?_erase (map : OrderedMap α) (name other : Text) :
    (map.erase name).get? other = if other = name then none else map.get? other := by
  simp only [get?, erase]
  induction map.entries with
  | nil => simp
  | cons entry rest ih =>
    by_cases hentry : entry.1 = name
    · rw [List.filter_cons_of_neg (by simpa using hentry), ih, lookup_cons_eq, hentry]
      split <;> rfl
    · rw [List.filter_cons_of_pos (by simpa using hentry), lookup_cons_eq, lookup_cons_eq, ih]
      by_cases hother : other = entry.1
      · simp [hother, hentry]
      · simp [hother]

private theorem mem_iff_lookup {entries : List (Text × α)} (hnodup : (entries.map (·.1)).Nodup)
    (name : Text) (value : α) :
    (name, value) ∈ entries ↔ entries.lookup name = some value := by
  induction entries with
  | nil => simp
  | cons entry rest ih =>
    simp only [List.map_cons, List.nodup_cons] at hnodup
    rw [lookup_cons_eq, List.mem_cons, ih hnodup.2]
    by_cases h : name = entry.1
    · have hrest : rest.lookup name ≠ some value := fun hlookup =>
        hnodup.1 (h ▸ List.mem_map_of_mem (f := (·.1)) ((ih hnodup.2).2 hlookup))
      simp [Prod.ext_iff, h, h ▸ hrest, eq_comm]
    · simp [Prod.ext_iff, h]

/-- No name occurs twice, so an entry is what its name looks up. -/
theorem mem_entries_iff (map : OrderedMap α) (name : Text) (value : α) :
    (name, value) ∈ map.entries ↔ map.get? name = some value :=
  mem_iff_lookup map.nodup name value

theorem contains_iff (map : OrderedMap α) (name : Text) :
    map.contains name = true ↔ ∃ value, map.get? name = some value := by
  simp [contains, Option.isSome_iff_exists]

theorem mem_names_iff (map : OrderedMap α) (name : Text) :
    name ∈ map.names ↔ ∃ value, map.get? name = some value := by
  simp [names, ← mem_entries_iff]

theorem get?_foldl_insert (entries : List (Text × α)) (map : OrderedMap α) (name : Text)
    (hnodup : (entries.map (·.1)).Nodup) :
    (entries.foldl (fun map entry => map.insert entry.1 entry.2) map).get? name =
      (entries.lookup name).or (map.get? name) := by
  induction entries generalizing map with
  | nil => simp
  | cons entry rest ih =>
    simp only [List.map_cons, List.nodup_cons] at hnodup
    rw [List.foldl_cons, ih _ hnodup.2, get?_insert, lookup_cons_eq]
    by_cases h : name = entry.1
    · have hrest : rest.lookup name = none := by
        rw [List.lookup_eq_none_iff]
        intro other hmem
        have hne : name ≠ other.1 := fun heq =>
          hnodup.1 (h ▸ heq ▸ List.mem_map_of_mem (f := (·.1)) hmem)
        simpa using hne
      simp [h, h ▸ hrest]
    · simp [h]

/-- What is looked up after some insertions is one of them, or was there before. -/
theorem mem_of_get?_foldl_insert {entries : List (Text × α)} {map : OrderedMap α} {name : Text}
    {value : α} (h : (entries.foldl (fun map entry => map.insert entry.1 entry.2) map).get? name = some value) :
    (name, value) ∈ entries ∨ map.get? name = some value := by
  induction entries generalizing map with
  | nil => exact Or.inr h
  | cons entry entries ih =>
    rcases ih h with hlater | hfirst
    · exact Or.inl (List.mem_cons_of_mem entry hlater)
    · rw [get?_insert] at hfirst
      split at hfirst
      · next heq =>
        cases hfirst
        exact Or.inl (heq ▸ List.mem_cons_self)
      · exact Or.inr hfirst

theorem get?_insertAll (map more : OrderedMap α) (name : Text) :
    (map.insertAll more).get? name = (more.get? name).or (map.get? name) :=
  get?_foldl_insert more.entries map name more.nodup

private theorem map_fst_put {name : Text} (value : α) {entries : List (Text × α)}
    (h : name ∈ entries.map (·.1)) : (put name value entries).map (·.1) = entries.map (·.1) := by
  induction entries with
  | nil => simp at h
  | cons entry rest ih =>
    by_cases hentry : entry.1 = name
    · simp [put, hentry]
    · have hrest : name ∈ rest.map (·.1) := by
        rcases List.mem_cons.mp h with heq | hmem
        · exact absurd heq.symm hentry
        · exact hmem
      simp only [put, hentry, if_false, List.map_cons, ih hrest]

/-- Replacing a value keeps the places of all names. -/
theorem names_insert_of_mem (map : OrderedMap α) {name : Text} (value : α)
    (h : name ∈ map.names) : (map.insert name value).names = map.names :=
  map_fst_put value h

private theorem map_fst_put_of_not_mem {name : Text} (value : α) {entries : List (Text × α)}
    (h : name ∉ entries.map (·.1)) :
    (put name value entries).map (·.1) = entries.map (·.1) ++ [name] := by
  induction entries with
  | nil => rfl
  | cons entry rest ih =>
    obtain ⟨hentry, hrest⟩ := not_or.mp (mt List.mem_cons.mpr h)
    simp [put, Ne.symm hentry, ih hrest]

/-- A new name goes to the end. -/
theorem names_insert_of_not_mem (map : OrderedMap α) {name : Text} (value : α)
    (h : name ∉ map.names) : (map.insert name value).names = map.names ++ [name] :=
  map_fst_put_of_not_mem value h

theorem names_insert (map : OrderedMap α) (name : Text) (value : α) :
    (map.insert name value).names = if name ∈ map.names then map.names else map.names ++ [name] := by
  split
  · next hmem => exact names_insert_of_mem map value hmem
  · next hmem => exact names_insert_of_not_mem map value hmem

theorem names_erase (map : OrderedMap α) (name : Text) :
    (map.erase name).names = map.names.filter (· ≠ name) := by
  simp only [names, erase, List.filter_map, Function.comp_def]

theorem eq_empty_of_names {map : OrderedMap α} (h : map.names = []) : map = .empty := by
  obtain ⟨entries, _⟩ := map
  cases List.map_eq_nil_iff.mp h
  rfl

/-- The names after all insertions are told from the names of both maps. -/
theorem names_insertAll_eq (map more : OrderedMap α) : (map.insertAll more).names =
    more.names.foldl (fun names name => if name ∈ names then names else names ++ [name]) map.names := by
  have hnames : more.names = more.entries.map (·.1) := rfl
  rw [hnames, List.foldl_map]
  exact (List.foldl_hom names fun map entry => (map.names_insert entry.1 entry.2).symm).symm

/-- Inserting under names that are there keeps the places of all names. -/
theorem names_insertAll (map : OrderedMap α) {more : OrderedMap α}
    (h : ∀ name ∈ more.names, name ∈ map.names) : (map.insertAll more).names = map.names := by
  rw [names_insertAll_eq]
  generalize more.names = names at h
  induction names with
  | nil => rfl
  | cons name names ih =>
    obtain ⟨hname, hrest⟩ := List.forall_mem_cons.mp h
    rw [List.foldl_cons, if_pos hname, ih hrest]

theorem contains_congr {map other : OrderedMap α} (h : other.names = map.names) (name : Text) :
    other.contains name = map.contains name := by
  rw [Bool.eq_iff_iff, contains_iff, contains_iff, ← mem_names_iff, ← mem_names_iff, h]

/-! ## Maps told by their names and lookups -/

theorem entries_eq (map : OrderedMap α) :
    map.entries = map.names.filterMap fun name => (map.get? name).map (name, ·) := by
  have hentry : ∀ entry ∈ map.entries, ((map.get? entry.1).map (entry.1, ·)) = some entry := by
    intro entry hmem
    rw [(mem_entries_iff map entry.1 entry.2).mp hmem]
    rfl
  rw [names, List.filterMap_map]
  exact (List.filterMap_some.symm).trans (List.filterMap_congr hentry).symm

/-- Two maps are equal if they list the same names in the same order and look up the same values. -/
theorem eq_of_names_of_get? {map other : OrderedMap α} (hnames : map.names = other.names)
    (hget : ∀ name, map.get? name = other.get? name) : map = other := by
  have hentries : map.entries = other.entries := by
    rw [entries_eq map, entries_eq other, hnames]
    simp only [hget]
  cases map
  cases other
  simpa using hentries

/-- Insertions under different names, all of them there already, can be made in either order. -/
theorem insertAll_comm (map : OrderedMap α) {first second : OrderedMap α}
    (hfirst : ∀ name ∈ first.names, name ∈ map.names) (hsecond : ∀ name ∈ second.names, name ∈ map.names)
    (hapart : ∀ name ∈ first.names, name ∉ second.names) :
    (map.insertAll first).insertAll second = (map.insertAll second).insertAll first := by
  have hsecond' : ∀ name ∈ second.names, name ∈ (map.insertAll first).names :=
    fun name hmem => names_insertAll map hfirst ▸ hsecond name hmem
  have hfirst' : ∀ name ∈ first.names, name ∈ (map.insertAll second).names :=
    fun name hmem => names_insertAll map hsecond ▸ hfirst name hmem
  apply eq_of_names_of_get?
  · rw [names_insertAll _ hsecond', names_insertAll _ hfirst', names_insertAll _ hfirst,
      names_insertAll _ hsecond]
  · intro name
    simp only [get?_insertAll]
    cases hget : first.get? name with
    | none => simp
    | some value =>
      have hmem : name ∈ first.names := (mem_names_iff ..).mpr ⟨value, hget⟩
      have hnone : second.get? name = none := by
        rw [Option.eq_none_iff_forall_ne_some]
        exact fun other hother => hapart name hmem ((mem_names_iff ..).mpr ⟨other, hother⟩)
      simp [hnone]

/-! ## Insertions under one name -/

theorem put_put (name : Text) (first second : α) (entries : List (Text × α)) :
    put name second (put name first entries) = put name second entries := by
  induction entries with
  | nil => simp [put]
  | cons entry entries ih =>
    by_cases heq : entry.1 = name
    · simp [put, heq]
    · simp [put, heq, ih]

/-- Of two values inserted under one name the second counts. -/
theorem insert_insert (map : OrderedMap α) (name : Text) (first second : α) :
    (map.insert name first).insert name second = map.insert name second := by
  simp only [insert, put_put]

end OrderedMap

namespace Row

theorem mem_names_of_value {row : Row} {column : Text}
    (h : (row.value column).isNull = false) : column ∈ row.names := by
  rw [OrderedMap.mem_names_iff]
  cases hget : row.get? column with
  | none => simp [Row.value, hget, Scalar.isNull] at h
  | some value => exact ⟨value, rfl⟩

end Row

end SnapshotSql
