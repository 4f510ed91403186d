import SnapshotSql.Proofs.Transitions

/-! # The order of schemas

Every schema is listed under its own name, in the order of creation. A foreign key could be declared
only when its target was there, so no table refers to one that is listed behind it. This survives a
DROP, which other references to the table prevent, and the replacement of a view, which refers to
nothing. References to other tables therefore lead to earlier positions and never in a circle.
-/
namespace SnapshotSql

namespace OrderedMap

variable {α : Type} {related : Text × α → Text × α → Prop} {name : Text} {value : α}
  {entries : List (Text × α)}

theorem mem_put {entry : Text × α} (h : entry ∈ put name value entries) :
    entry = (name, value) ∨ entry ∈ entries := by
  induction entries with
  | nil => exact Or.inl (List.mem_singleton.mp h)
  | cons first entries ih =>
    unfold put at h
    split at h
    · exact (List.mem_cons.mp h).imp_right (List.mem_cons_of_mem first)
    · rcases List.mem_cons.mp h with rfl | hrest
      · exact Or.inr List.mem_cons_self
      · exact (ih hrest).imp_right (List.mem_cons_of_mem first)

/-- A relation of earlier to later entries survives a new value under a name, if of the later entry it
regards the name only: a value that is replaced keeps its place, and any other goes to the end. -/
theorem pairwise_put (h : entries.Pairwise related)
    (hname : ∀ {entry old}, related entry (name, old) → related entry (name, value))
    (hplaced : name ∈ entries.map (·.1) → ∀ entry ∈ entries, related (name, value) entry)
    (hlast : name ∉ entries.map (·.1) → ∀ entry ∈ entries, related entry (name, value)) :
    (put name value entries).Pairwise related := by
  induction entries with
  | nil => exact List.pairwise_singleton _ _
  | cons first entries ih =>
    obtain ⟨hfirst, hrest⟩ := List.pairwise_cons.mp h
    unfold put
    split
    · next heq =>
      refine List.pairwise_cons.mpr ⟨fun entry hentry => ?_, hrest⟩
      exact hplaced (List.mem_cons.mpr (Or.inl heq.symm)) entry (List.mem_cons_of_mem first hentry)
    · next hne =>
      refine List.pairwise_cons.mpr ⟨fun entry hentry => ?_, ih hrest ?_ ?_⟩
      · rcases mem_put hentry with rfl | hold
        · by_cases hmem : name ∈ entries.map (·.1)
          · obtain ⟨⟨_, old⟩, hold, rfl⟩ := List.mem_map.mp hmem
            exact hname (hfirst _ hold)
          · exact hlast (by simp [Ne.symm hne, hmem]) first List.mem_cons_self
        · exact hfirst entry hold
      · intro hmem entry hentry
        exact hplaced (List.mem_cons_of_mem _ hmem) entry (List.mem_cons_of_mem first hentry)
      · intro hnot entry hentry
        exact hlast (by simp [Ne.symm hne, hnot]) entry (List.mem_cons_of_mem first hentry)

end OrderedMap

namespace Database

variable {database before after : Database} {table : Text} {foreignKey : ForeignKey}

/-- Schemas are listed under their names, and refer to none that is listed behind them. -/
structure Listed (database : Database) : Prop where
  named : ∀ name schema, database.schemas.get? name = some schema → schema.name = name
  backward : database.schemas.entries.Pairwise fun earlier later =>
    ∀ foreignKey ∈ earlier.2.foreignKeys, foreignKey.refTable ≠ later.1

theorem Listed.of_schemas_eq (h : before.Listed) (hschemas : after.schemas = before.schemas) :
    after.Listed :=
  ⟨hschemas ▸ h.named, hschemas ▸ h.backward⟩

/-- A schema under a new name goes behind all others, and one that takes the place of another refers to
nothing. -/
theorem Listed.insert {schema : TableSchema} (h : before.Listed) (hbuilt : before.WellBuilt)
    (hschemas : after.schemas = before.schemas.insert schema.name schema)
    (hplaced : (∃ old, before.schemas.get? schema.name = some old) → schema.foreignKeys = []) :
    after.Listed := by
  constructor
  · intro name found hfound
    rw [hschemas, OrderedMap.get?_insert] at hfound
    split at hfound
    · next heq =>
      cases hfound
      exact heq.symm
    · exact h.named name found hfound
  · rw [hschemas]
    refine OrderedMap.pairwise_put h.backward (fun hold => hold) ?_ ?_
    · intro hmem entry _
      rw [hplaced ((OrderedMap.mem_names_iff ..).mp hmem)]
      exact nofun
    · intro hnew entry hentry foreignKey hforeign heq
      obtain ⟨other, declared⟩ := entry
      have hdeclared := (OrderedMap.mem_entries_iff ..).mp hentry
      obtain ⟨target, htarget⟩ :=
        hbuilt.target other foreignKey ((mem_foreignKeys ..).mpr ⟨declared, hdeclared, hforeign⟩)
      rw [heq] at htarget
      exact hnew ((OrderedMap.mem_names_iff ..).mpr ⟨target, htarget⟩)

theorem Transition.listed (h : Transition before after) (hbuilt : before.WellBuilt)
    (hlisted : before.Listed) : after.Listed := by
  cases h with
  | @create definition schema hdefinition hnew hschema =>
    obtain ⟨hname, -, -⟩ := of_buildSchema hdefinition hschema
    refine hlisted.insert hbuilt rfl ?_
    rintro ⟨old, hold⟩
    rw [hname, hnew] at hold
    cases hold
  | @view view result _ =>
    have hnone : (viewSchema view result).foreignKeys = [] := rfl
    exact hlisted.insert hbuilt rfl fun _ => hnone
  | @drop erased _ =>
    constructor
    · intro name schema hschema
      rw [eraseTable, OrderedMap.get?_erase] at hschema
      split at hschema
      · cases hschema
      · exact hlisted.named name schema hschema
    · exact hlisted.backward.sublist List.filter_sublist
  | insert h => exact hlisted.of_schemas_eq (schemas_of_publish h)
  | update _ h => exact hlisted.of_schemas_eq (schemas_of_publish h)
  | delete h => exact hlisted.of_schemas_eq (schemas_of_publish h)

theorem Reachable.listed (h : database.Reachable) : database.Listed :=
  h.invariant_of_wellBuilt Listed ⟨nofun, List.Pairwise.nil⟩ fun _ _ hstep => hstep.listed

def place (database : Database) (table : Text) : Nat :=
  database.tableNames.idxOf table

theorem entry_at_place {schema : TableSchema} (h : database.schemas.get? table = some schema) :
    ∃ hplace : database.place table < database.schemas.entries.length,
      database.schemas.entries[database.place table] = (table, schema) := by
  obtain ⟨position, hposition, hentry⟩ :=
    List.mem_iff_getElem.mp ((OrderedMap.mem_entries_iff ..).mpr h)
  have hlength : position < database.tableNames.length := by
    simpa [tableNames, OrderedMap.names] using hposition
  have hname : database.tableNames[position] = table := by
    simp [tableNames, OrderedMap.names, hentry]
  have hnodup : database.tableNames.Nodup := database.schemas.nodup
  have hplace : database.place table = position := by
    rw [place, ← hname, hnodup.idxOf_getElem position hlength]
  exact ⟨hplace ▸ hposition, by simp only [hplace, hentry]⟩

/-- A reference to another table leads to an earlier place. -/
theorem Listed.place_lt (h : database.Listed) (hbuilt : database.WellBuilt)
    (hforeign : foreignKey ∈ database.foreignKeys table) (hne : foreignKey.refTable ≠ table) :
    database.place foreignKey.refTable < database.place table := by
  obtain ⟨schema, hschema, hmem⟩ := (mem_foreignKeys ..).mp hforeign
  obtain ⟨target, htarget⟩ := hbuilt.target table foreignKey hforeign
  obtain ⟨hlt, hentry⟩ := entry_at_place hschema
  obtain ⟨hlt', hentry'⟩ := entry_at_place htarget
  rcases Nat.lt_trichotomy (database.place foreignKey.refTable) (database.place table) with
    hbefore | hsame | hbehind
  · exact hbefore
  · simp only [hsame, hentry, Prod.mk.injEq] at hentry'
    exact absurd hentry'.1.symm hne
  · have hnot := List.pairwise_iff_getElem.mp h.backward _ _ hlt hlt' hbehind
    rw [hentry, hentry'] at hnot
    exact absurd rfl (hnot foreignKey hmem)

end Database

end SnapshotSql
