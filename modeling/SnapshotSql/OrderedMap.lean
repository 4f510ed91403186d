import SnapshotSql.Text.CodePoint

/-! # Maps in insertion order

A map from names to values that lists its entries in the order in which their names were first
inserted. Replacing a value keeps the place of its name; erasing a name and inserting it again moves
it to the end. Rows, tables and schemas are kept in such maps, and no name occurs twice.
-/
namespace SnapshotSql

structure OrderedMap (α : Type) where
  entries : List (Text × α)
  nodup : (entries.map (·.1)).Nodup
  deriving DecidableEq

namespace OrderedMap

variable {α : Type}

def put (name : Text) (value : α) : List (Text × α) → List (Text × α)
  | [] => [(name, value)]
  | entry :: rest => if entry.1 = name then (name, value) :: rest else entry :: put name value rest

theorem mem_map_put {name other : Text} {value : α} {entries : List (Text × α)} :
    other ∈ (put name value entries).map (·.1) ↔ other = name ∨ other ∈ entries.map (·.1) := by
  induction entries with
  | nil => simp [put]
  | cons entry rest ih =>
      unfold put
      split
      · simp_all
      · simp only [List.map_cons, List.mem_cons, ih]
        grind

theorem nodup_put {name : Text} {value : α} {entries : List (Text × α)}
    (h : (entries.map (·.1)).Nodup) : ((put name value entries).map (·.1)).Nodup := by
  induction entries with
  | nil => simp [put]
  | cons entry rest ih =>
      simp only [List.map_cons, List.nodup_cons] at h
      unfold put
      split
      · simp_all
      · next hne =>
        simp only [List.map_cons, List.nodup_cons, mem_map_put]
        exact ⟨fun hmem => hmem.elim hne h.1, ih h.2⟩

def empty : OrderedMap α :=
  ⟨[], List.nodup_nil⟩

instance : Inhabited (OrderedMap α) := ⟨empty⟩

def insert (map : OrderedMap α) (name : Text) (value : α) : OrderedMap α :=
  ⟨put name value map.entries, nodup_put map.nodup⟩

def erase (map : OrderedMap α) (name : Text) : OrderedMap α :=
  ⟨map.entries.filter (·.1 ≠ name), map.nodup.sublist (List.filter_sublist.map _)⟩

def get? (map : OrderedMap α) (name : Text) : Option α :=
  map.entries.lookup name

def names (map : OrderedMap α) : List Text :=
  map.entries.map (·.1)

def contains (map : OrderedMap α) (name : Text) : Bool :=
  (map.get? name).isSome

def ofList (entries : List (Text × α)) : OrderedMap α :=
  entries.foldl (fun map entry => map.insert entry.1 entry.2) empty

def insertAll (map more : OrderedMap α) : OrderedMap α :=
  more.entries.foldl (fun map entry => map.insert entry.1 entry.2) map

end OrderedMap

end SnapshotSql
