import SnapshotSql.Integrity
import SnapshotSql.Expression
import SnapshotSql.Proofs.ReferenceRows

/-! # What is read of a row

Conditions, expressions and keys read a row by the values of columns, possibly behind a qualifier. Two
rows that hold the same values, be it that one has a null where the other one lacks the column, or that
they list their columns in another order, are alike to them. So are lists of such rows to the checks of
keys and references and to the searches for the rows that a cascade concerns.
-/
namespace SnapshotSql

/-! ## Related lists -/

section
variable {α β γ δ ε : Type} {related : α → β → Prop} {items : List α} {others : List β}

theorem map_eq_of_forall₂ {f : α → γ} {g : β → γ} (hfg : ∀ item other, related item other → f item = g other)
    (h : List.Forall₂ related items others) : items.map f = others.map g := by
  induction h with
  | nil => rfl
  | cons hfirst _ ih => rw [List.map_cons, List.map_cons, hfg _ _ hfirst, ih]

theorem filterMap_eq_of_forall₂ {f : α → Option γ} {g : β → Option γ}
    (hfg : ∀ item other, related item other → f item = g other) (h : List.Forall₂ related items others) :
    items.filterMap f = others.filterMap g := by
  induction h with
  | nil => rfl
  | cons hfirst _ ih => rw [List.filterMap_cons, List.filterMap_cons, hfg _ _ hfirst, ih]

theorem foldlM_eq_of_forall₂ {f : δ → α → Except ε δ} {g : δ → β → Except ε δ}
    (hfg : ∀ state item other, related item other → f state item = g state other)
    (h : List.Forall₂ related items others) (state : δ) : items.foldlM f state = others.foldlM g state := by
  induction h generalizing state with
  | nil => rfl
  | cons hfirst _ ih =>
    rw [List.foldlM_cons, List.foldlM_cons, hfg _ _ _ hfirst]
    exact bind_congr fun next => ih next

theorem forM_eq_of_forall₂ {f : α → Except ε Unit} {g : β → Except ε Unit}
    (hfg : ∀ item other, related item other → f item = g other) (h : List.Forall₂ related items others) :
    items.forM f = others.forM g := by
  induction h with
  | nil => rfl
  | cons hfirst _ ih =>
    change (f _ >>= fun _ => List.forM _ f) = (g _ >>= fun _ => List.forM _ g)
    rw [hfg _ _ hfirst, ih]

/-- Related elements stand at one position. -/
theorem forall₂_zipIdx (h : List.Forall₂ related items others) (start : Nat) :
    List.Forall₂ (fun entry other => related entry.1 other.1 ∧ entry.2 = other.2) (items.zipIdx start)
      (others.zipIdx start) := by
  induction h generalizing start with
  | nil => exact List.Forall₂.nil
  | cons hfirst _ ih => exact List.Forall₂.cons ⟨hfirst, rfl⟩ (ih (start + 1))

theorem forall₂_filter (keep : α → Bool) (keep' : β → Bool)
    (hkeep : ∀ item other, related item other → keep item = keep' other)
    (h : List.Forall₂ related items others) :
    List.Forall₂ related (items.filter keep) (others.filter keep') :=
  List.rel_filter (fun {item other} hrelated => by simp only [hkeep item other hrelated]) h

theorem forall₂_set (h : List.Forall₂ related items others) {item : α} {other : β}
    (hitem : related item other) (position : Nat) :
    List.Forall₂ related (items.set position item) (others.set position other) := by
  induction h generalizing position with
  | nil => exact List.Forall₂.nil
  | cons hfirst hrest ih =>
    cases position with
    | zero => exact List.Forall₂.cons hitem hrest
    | succ position => exact List.Forall₂.cons hfirst (ih position)

end

/-! ## Rows -/

namespace Row

/-- Rows that hold the same value under every column, where a missing column holds a null. -/
def SameValues (row other : Row) : Prop :=
  ∀ name, row.value name = other.value name

/-- Rows of which the same is read by qualified names too. -/
structure ReadsAlike (row other : Row) : Prop where
  sameValues : row.SameValues other
  resolve : ∀ name, row.resolve name = other.resolve name

variable {row other : Row}

theorem SameValues.values (h : row.SameValues other) (columns : List Text) :
    row.values columns = other.values columns :=
  List.map_congr_left fun name _ => h name

end Row

/-! ## Conditions and expressions -/

def Operand.columns : Operand → List Text
  | .column name => [name]
  | .literal _ => []

def Condition.columns : Condition → List Text
  | .compare left _ right => left.columns ++ right.columns
  | .like left _ _ => left.columns
  | .inList left items _ => left.columns ++ items.flatMap Operand.columns
  | .between left low high _ => left.columns ++ low.columns ++ high.columns
  | .isNull left _ => left.columns
  | .and left right => left.columns ++ right.columns
  | .or left right => left.columns ++ right.columns
  | .group inner => inner.columns

section
variable {row other : Row}

theorem Operand.value_of_resolve {operand : Operand}
    (h : ∀ name ∈ operand.columns, row.resolve name = other.resolve name) :
    operand.value row = operand.value other := by
  cases operand with
  | column name => exact h name List.mem_cons_self
  | literal value => rfl

/-- A condition sees of a row only what the columns that it names resolve to. -/
theorem Condition.holds_of_resolve {condition : Condition}
    (h : ∀ name ∈ condition.columns, row.resolve name = other.resolve name) :
    condition.holds row = condition.holds other := by
  induction condition with
  | and left right hleft hright =>
    simp only [columns, List.forall_mem_append] at h
    simp only [holds, hleft h.1, hright h.2]
  | or left right hleft hright =>
    simp only [columns, List.forall_mem_append] at h
    simp only [holds, hleft h.1, hright h.2]
  | group inner hinner => simp only [holds, hinner h]
  | compare left comparison right =>
    simp only [columns, List.forall_mem_append] at h
    simp only [holds, Operand.value_of_resolve h.1, Operand.value_of_resolve h.2]
  | like left pattern negated => simp only [holds, Operand.value_of_resolve h]
  | inList left items negated =>
    simp only [columns, List.forall_mem_append] at h
    have hitem : ∀ item ∈ items, item.value row = item.value other := fun item hitem =>
      Operand.value_of_resolve fun name hname => h.2 name (List.mem_flatMap.mpr ⟨item, hitem, hname⟩)
    have hany : (items.any fun item => (left.value row).strictEquals (item.value row)) =
        items.any fun item => (left.value other).strictEquals (item.value other) := by
      rw [Bool.eq_iff_iff, List.any_eq_true, List.any_eq_true]
      refine exists_congr fun item => and_congr_right fun hmem => ?_
      rw [Operand.value_of_resolve h.1, hitem item hmem]
    simp only [holds, hany]
  | between left low high negated =>
    simp only [columns, List.forall_mem_append] at h
    simp only [holds, Operand.value_of_resolve h.1.1, Operand.value_of_resolve h.1.2,
      Operand.value_of_resolve h.2]
  | isNull left negated => simp only [holds, Operand.value_of_resolve h]

theorem Operand.value_congr (h : row.ReadsAlike other) (operand : Operand) :
    operand.value row = operand.value other :=
  value_of_resolve fun name _ => h.resolve name

theorem Condition.holds_congr (h : row.ReadsAlike other) (condition : Condition) :
    condition.holds row = condition.holds other :=
  holds_of_resolve fun name _ => h.resolve name

theorem SetExpression.value_congr (h : row.ReadsAlike other) (expression : SetExpression) :
    expression.value row = expression.value other := by
  cases expression <;> simp only [value, Operand.value_congr h]

end

/-! ## Keys -/

namespace SeenKeys

variable {row other : Row} {rows others : List Row}

theorem add_congr (schema : TableSchema) (seen : SeenKeys) (h : row.SameValues other) :
    seen.add schema row = seen.add schema other := by
  have hunique : ∀ constraints seens,
      addUniques schema row constraints seens = addUniques schema other constraints seens := by
    intro constraints
    induction constraints with
    | nil => exact fun _ => rfl
    | cons columns constraints ih =>
      rintro (_ | ⟨seen, seens⟩)
      · rfl
      · simp only [addUniques, addUnique, h.values, ih]
  simp only [add, checkNotNull, addPrimary, h _, h.values, hunique]

theorem ofRows_congr (schema : TableSchema) (h : List.Forall₂ Row.SameValues rows others) :
    ofRows schema rows = ofRows schema others :=
  foldlM_eq_of_forall₂ (fun seen _ _ hrow => seen.add_congr schema hrow) h _

end SeenKeys

namespace Integrity

variable {row other : Row} {rows others parents parents' : List Row} (foreignKey : ForeignKey)

theorem offeredKeys_congr (h : List.Forall₂ Row.SameValues parents parents') :
    offeredKeys foreignKey parents = offeredKeys foreignKey parents' :=
  map_eq_of_forall₂ (fun _ _ hrow => by rw [hrow.values]) h

theorem checkReferences_congr (table : Text) (hparents : List.Forall₂ Row.SameValues parents parents')
    (h : List.Forall₂ Row.SameValues rows others) :
    checkReferences table foreignKey parents rows = checkReferences table foreignKey parents' others := by
  unfold checkReferences
  rw [offeredKeys_congr foreignKey hparents]
  exact forM_eq_of_forall₂ (fun row other hrow => by
    rw [reference?_congr (hrow.values _), hrow.values]) h

theorem nextValue_congr (column : Text) (h : List.Forall₂ Row.SameValues rows others) :
    nextValue rows column = nextValue others column := by
  unfold nextValue
  rw [filterMap_eq_of_forall₂ (fun row other hrow => by rw [hrow column]) h]

theorem fillCounters_congr (schema : TableSchema) (h : List.Forall₂ Row.SameValues rows others) (row : Row) :
    fillCounters schema rows row = fillCounters schema others row := by
  simp only [fillCounters, nextValue_congr _ h]

/-! ## Rows that a cascade concerns -/

theorem forall₂_rowsAt {related : Row → Row → Prop} (h : List.Forall₂ related rows others)
    (positions : List Nat) : List.Forall₂ related (rowsAt rows positions) (rowsAt others positions) := by
  induction positions with
  | nil => exact List.Forall₂.nil
  | cons position positions ih =>
    unfold rowsAt at ih ⊢
    cases hrow : rows[position]? with
    | none =>
      have hother : others[position]? = none := by
        rw [List.getElem?_eq_none_iff, ← h.length_eq]
        exact List.getElem?_eq_none_iff.mp hrow
      simpa only [List.filterMap_cons, hrow, hother] using ih
    | some row =>
      obtain ⟨other, hother, hrelated⟩ := exists_right_of_forall₂ h hrow
      simpa only [List.filterMap_cons, hrow, hother] using List.Forall₂.cons hrelated ih

theorem referringTo_congr (keys : List Text) (h : List.Forall₂ Row.SameValues rows others)
    (leftOut : List Nat) :
    referringTo foreignKey keys rows leftOut = referringTo foreignKey keys others leftOut := by
  refine map_eq_of_forall₂ (fun _ _ hentry => hentry.2) (forall₂_filter _ _ ?_ (forall₂_zipIdx h 0))
  rintro ⟨row, position⟩ ⟨other, _⟩ ⟨hrow, rfl⟩
  simp only [reference?_congr (hrow.values _)]

theorem lostKeys_congr (h : List.Forall₂ Row.SameValues parents parents') (wave doomedParents : List Nat) :
    lostKeys foreignKey parents wave doomedParents = lostKeys foreignKey parents' wave doomedParents := by
  have hgoing := forall₂_filter (fun row => !Key.hasNull (row.values foreignKey.refColumns)) _
    (fun row other hrow => by rw [hrow.values]) (forall₂_rowsAt h wave)
  have hkept : List.Forall₂ Row.SameValues (rowsExcept parents doomedParents)
      (rowsExcept parents' doomedParents) := forall₂_rowsExcept h.length_eq
    fun position row other _ => (forall₂_iff_getElem?.mp h).2 position row other
  simp only [lostKeys, offeredKeys_congr foreignKey hkept, offeredKeys_congr foreignKey hgoing]

theorem changedKeys_congr {changes changes' : List (Row × Row)}
    (h : List.Forall₂ (fun change change' => Row.SameValues change.1 change'.1 ∧
      Row.SameValues change.2 change'.2) changes changes') :
    changedKeys foreignKey changes = changedKeys foreignKey changes' := by
  unfold changedKeys
  rw [filterMap_eq_of_forall₂ ?_ h]
  rintro ⟨before, after⟩ ⟨before', after'⟩ ⟨hbefore, hafter⟩
  simp only [hbefore.values, hafter.values]

end Integrity

end SnapshotSql
