import SnapshotSql.Proofs.GroupedRows
import SnapshotSql.Proofs.OrderedScalars

/-! # Rows in order

ORDER BY compares two rows by the first of its items on which they do not tie, and an item that is descending
turns its comparison round. No two rows precede each other, whatever values they have. Where each item finds
only texts in the rows, or only other values and no NaN, and one row precedes another one, any third row is
preceded by the first or precedes the second. That is what the sort needs to be stable: it moves the rows
from the places that they have without ORDER BY, and rows that tie on all items keep their order.
-/
namespace SnapshotSql

namespace Select

variable {item : OrderItem} {items : List OrderItem} {a b c : Projected}

/-- The item puts one row before another one: its value comes first in the order of the item. -/
def PutsFirst (item : OrderItem) (a b : Projected) : Prop :=
  Scalar.comesFirst item.descending (sortValue a item.column) (sortValue b item.column) = true

instance (item : OrderItem) (a b : Projected) : Decidable (PutsFirst item a b) :=
  inferInstanceAs (Decidable (_ = true))

def Tied (items : List OrderItem) (a b : Projected) : Prop :=
  ∀ item ∈ items, ¬ PutsFirst item a b ∧ ¬ PutsFirst item b a

/-- The first item on which two rows do not tie puts the first of them before the other. -/
inductive Precedes : List OrderItem → Projected → Projected → Prop where
  | first {item : OrderItem} {items : List OrderItem} {a b : Projected} (h : PutsFirst item a b) :
      Precedes (item :: items) a b
  | later {item : OrderItem} {items : List OrderItem} {a b : Projected}
      (hnot : ¬ PutsFirst item a b) (hnot' : ¬ PutsFirst item b a) (h : Precedes items a b) :
      Precedes (item :: items) a b

def ComparesAll (item : OrderItem) (rows : List Projected) : Prop :=
  ∀ a ∈ rows, ∀ b ∈ rows, (sortValue a item.column).Comparable (sortValue b item.column)

instance (item : OrderItem) (rows : List Projected) : Decidable (ComparesAll item rows) :=
  inferInstanceAs (Decidable (∀ a ∈ rows, ∀ b ∈ rows,
    (sortValue a item.column).Comparable (sortValue b item.column)))

/-! ## One item -/

theorem PutsFirst.asymm (h : PutsFirst item a b) : ¬ PutsFirst item b a := by
  unfold PutsFirst
  rw [Scalar.comesFirst_asymm h]
  exact Bool.false_ne_true

theorem PutsFirst.split {rows : List Projected} (hrows : ComparesAll item rows) (ha : a ∈ rows) (hb : b ∈ rows)
    (hc : c ∈ rows) (h : PutsFirst item a c) : PutsFirst item a b ∨ PutsFirst item b c :=
  Scalar.comesFirst_split (hrows a ha b hb) (hrows b hb c hc) h

theorem compareRows_cons (item : OrderItem) (items : List OrderItem) (a b : Projected) :
    compareRows a b (item :: items) = if PutsFirst item a b then .lt
      else if PutsFirst item b a then .gt else compareRows a b items := by
  obtain ⟨column, descending⟩ := item
  by_cases hless : (sortValue a column).lessThan (sortValue b column) = true
  · have hnot := Scalar.lessThan_asymm hless
    cases descending <;> simp [compareRows, PutsFirst, Scalar.comesFirst, Scalar.greaterThan, hless, hnot]
  · cases descending <;> simp [compareRows, PutsFirst, Scalar.comesFirst, Scalar.greaterThan, hless]

/-! ## All items -/

theorem compareRows_singleton_eq_lt_iff : compareRows a b [item] = .lt ↔ PutsFirst item a b := by
  rw [compareRows_cons]
  split
  · next hput => exact ⟨fun _ => hput, fun _ => rfl⟩
  · next hnot =>
    refine ⟨fun h => ?_, fun hput => absurd hput hnot⟩
    split at h <;> cases h

/-- The comparison that the sort uses finds the rows that precede others. -/
theorem compareRows_eq_lt_iff : compareRows a b items = .lt ↔ Precedes items a b := by
  induction items with
  | nil => exact ⟨nofun, nofun⟩
  | cons item items ih =>
    rw [compareRows_cons]
    split
    · next hput => exact ⟨fun _ => .first hput, fun _ => rfl⟩
    · next hnot =>
      split
      · next hput =>
        refine ⟨nofun, fun h => ?_⟩
        cases h with
        | first h => exact absurd h hnot
        | later _ hback _ => exact absurd hput hback
      · next hback =>
        refine ih.trans ⟨.later hnot hback, fun h => ?_⟩
        cases h with
        | first h => exact absurd h hnot
        | later _ _ h => exact h

theorem Precedes.asymm (h : Precedes items a b) : ¬ Precedes items b a := by
  induction h with
  | first hfirst =>
    intro hback
    cases hback with
    | first hback => exact hfirst.asymm hback
    | later _ hnot _ => exact hnot hfirst
  | later hnot hnot' _ ih =>
    intro hback
    cases hback with
    | first hback => exact hnot' hback
    | later _ _ hback => exact ih hback

theorem Precedes.split {rows : List Projected} (hrows : ∀ item ∈ items, ComparesAll item rows) (ha : a ∈ rows)
    (hb : b ∈ rows) (hc : c ∈ rows) (h : Precedes items a c) : Precedes items a b ∨ Precedes items b c := by
  induction h with
  | first hfirst =>
    have hitem := (List.forall_mem_cons.mp hrows).1
    exact (hfirst.split hitem ha hb hc).imp .first .first
  | @later item items a c hnot hnot' h ih =>
    obtain ⟨hitem, hrest⟩ := List.forall_mem_cons.mp hrows
    by_cases hab : PutsFirst item a b
    · exact .inl (.first hab)
    · by_cases hbc : PutsFirst item b c
      · exact .inr (.first hbc)
      · -- The first and the third row tie, so neither of them is put before or behind the second one.
        have hba : ¬ PutsFirst item b a := fun hba => (hba.split hitem hb hc ha).elim hbc hnot'
        have hcb : ¬ PutsFirst item c b := fun hcb => (hcb.split hitem hc ha hb).elim hnot' hab
        exact (ih hrest ha hc).imp (.later hab hba) (.later hbc hcb)

theorem precedes_or_tied (items : List OrderItem) (a b : Projected) :
    Precedes items a b ∨ Precedes items b a ∨ Tied items a b := by
  induction items with
  | nil => exact .inr (.inr nofun)
  | cons item items ih =>
    by_cases hab : PutsFirst item a b
    · exact .inl (.first hab)
    · by_cases hba : PutsFirst item b a
      · exact .inr (.inl (.first hba))
      · rcases ih with hprecedes | hprecedes | htied
        · exact .inl (.later hab hba hprecedes)
        · exact .inr (.inl (.later hba hab hprecedes))
        · exact .inr (.inr (List.forall_mem_cons.mpr ⟨⟨hab, hba⟩, htied⟩))

/-! ## Sorted rows -/

/-- Of the rows at two positions the first one precedes the second, or it ties with it and stands in front
of it. -/
def Leads (items : List OrderItem) (rows : List Projected) (i j : Fin rows.length) : Prop :=
  Precedes items (rows.get i) (rows.get j) ∨ Tied items (rows.get i) (rows.get j) ∧ i < j

theorem strictWeakOn_compareRows {rows : List Projected} (hrows : ∀ item ∈ items, ComparesAll item rows) :
    Sorting.StrictWeakOn (fun a b => compareRows a b items = .lt) rows where
  asymm a _ b _ h := by
    simp only [decide_eq_true_eq, decide_eq_false_iff_not, compareRows_eq_lt_iff] at h ⊢
    exact h.asymm
  split a ha b hb c hc h := by
    simp only [decide_eq_true_eq, compareRows_eq_lt_iff] at h ⊢
    exact h.split hrows ha hb hc

/-- Sorting takes the rows from their positions so that each one leads the later ones. -/
theorem exists_positions {rows : List Projected} (hrows : ∀ item ∈ items, ComparesAll item rows) :
    ∃ positions : List (Fin rows.length), positions.Perm (List.finRange rows.length) ∧
      sortRows items rows = positions.map rows.get ∧ positions.Pairwise (Leads items rows) := by
  obtain ⟨positions, hperm, hsort, hleads⟩ := Sorting.exists_positions (strictWeakOn_compareRows hrows)
  refine ⟨positions, hperm, hsort, hleads.imp fun {i j} hij => ?_⟩
  simp only [Sorting.Leads, decide_eq_true_eq, decide_eq_false_iff_not, compareRows_eq_lt_iff] at hij
  rcases hij with hprecedes | ⟨hnot, hlt⟩
  · exact .inl hprecedes
  · rcases precedes_or_tied items (rows.get i) (rows.get j) with hprecedes | hback | htied
    · exact .inl hprecedes
    · exact absurd hback hnot
    · exact .inr ⟨htied, hlt⟩

def unordered (query : Select) : Select :=
  { query with orderBy := [] }

end Select

namespace Database

variable {database : Database} {query : Select}

/-- The rows that a query finds, in the order that they have without ORDER BY; none if there is no table. -/
def found (database : Database) (query : Select) : List Select.Projected :=
  match database.schemas.get? query.table with
  | some schema => query.found schema (database.tableRows query.table)
  | none => []

/-- The query answers the rows that it finds, taken from all their positions in this order. -/
structure Arranges (database : Database) (query : Select)
    (positions : List (Fin (database.found query).length)) : Prop where
  perm : positions.Perm (List.finRange (database.found query).length)
  leads : positions.Pairwise (Select.Leads query.orderBy (database.found query))
  unordered : ∀ result, database.select query.unordered = .ok result →
    result.rows = (database.found query).map (·.output)
  ordered : database.select query = (database.select query.unordered).map fun result =>
    { result with rows := positions.map fun i => ((database.found query).get i).output }

/-- ORDER BY is a stable sort of the rows of the same query without it. -/
theorem select_ordered (hlimit : query.limit = none) (hoffset : query.offset = 0)
    (hcompares : ∀ item ∈ query.orderBy, Select.ComparesAll item (database.found query)) :
    ∃ positions, database.Arranges query positions := by
  obtain ⟨positions, hperm, hsort, hleads⟩ := Select.exists_positions hcompares
  have hfound : ∀ schema, database.schemas.get? query.table = some schema →
      query.found schema (database.tableRows query.table) = database.found query := by
    intro schema hschema
    rw [found, hschema]
  refine ⟨positions, hperm, hleads, fun result hresult => ?_,
    select_eq_map rfl (fun _ => rfl) fun schema hschema => ?_⟩
  · obtain ⟨schema, hschema, -, rfl⟩ := select_eq_ok.mp hresult
    rw [← hfound schema hschema, Select.resultOf_eq]
    change (Select.limitRows query.limit query.offset (Select.sortRows [] _)).map _ = _
    rw [hlimit, hoffset, Select.sortRows_nil]
    rfl
  · have hrows : Select.limitRows none 0 (positions.map (database.found query).get) =
        positions.map (database.found query).get := rfl
    rw [Select.resultOf_eq, hfound schema hschema, hsort, hlimit, hoffset, hrows, List.map_map]
    rfl

def smallTeams : Select :=
  { squadQuery with orderBy := [⟨"players", false⟩, ⟨"player.id", true⟩] }

example : parse "SELECT team, COUNT(*) AS players, SUM(id) AS ids FROM player GROUP BY team
    ORDER BY players, player.id DESC" = .ok (.select smallTeams) := by
  decide +kernel

theorem select_ordered_teams : smallTeams.limit = none ∧ smallTeams.offset = 0 ∧
    (∀ item ∈ smallTeams.orderBy, Select.ComparesAll item (league.found smallTeams)) ∧
    ∃ positions, league.Arranges smallTeams positions := by
  have hcompares : ∀ item ∈ smallTeams.orderBy, Select.ComparesAll item (league.found smallTeams) := by
    decide +kernel
  exact ⟨rfl, rfl, hcompares, select_ordered rfl rfl hcompares⟩

end Database

end SnapshotSql
