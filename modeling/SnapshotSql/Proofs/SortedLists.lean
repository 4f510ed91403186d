import SnapshotSql.Sorting
import Mathlib.Data.List.Basic
import Mathlib.Data.List.Forall2
import Mathlib.Data.List.Sort
import Mathlib.Order.Lattice

/-! # Sorted lists

Every stage of the sort moves elements from the rest of the list into the run, so that run and rest
together stay a permutation of the list. Where they go is decided by comparisons only: lists whose
elements compare alike are sorted alike. The run stays in any order that the comparison of a later element
with an earlier one decides. Such is the order of positions in which ties are resolved by the place in the
list, so for a strict weak order the sort is stable, and elements that are compared by rank come out in the
order of their ranks.
-/
namespace SnapshotSql

namespace Sorting

variable {α : Type} {before : α → α → Bool}

private theorem perm_ascending (last : α) (run list : List α) :
    ((ascending before last run list).1 ++ (ascending before last run list).2).Perm (run ++ list) := by
  induction list generalizing last run with
  | nil => simp [ascending]
  | cons x rest ih =>
    unfold ascending
    split
    · exact (List.reverse_perm run).append_right _
    · exact (ih x (x :: run)).trans List.perm_middle.symm

private theorem perm_descending (last : α) (run list : List α) :
    ((descending before last run list).1 ++ (descending before last run list).2).Perm (run ++ list) := by
  induction list generalizing last run with
  | nil => simp [descending]
  | cons x rest ih =>
    unfold descending
    split
    · exact (ih x (x :: run)).trans List.perm_middle.symm
    · exact List.Perm.refl _

private theorem perm_firstRun (list : List α) :
    ((firstRun before list).1 ++ (firstRun before list).2).Perm list := by
  match list with
  | [] => exact List.Perm.refl _
  | [x] => exact List.Perm.refl _
  | x :: y :: rest =>
    rw [firstRun]
    split
    · exact (perm_descending y [y, x] rest).trans (List.Perm.swap x y rest)
    · exact (perm_ascending y [y, x] rest).trans (List.Perm.swap x y rest)

private theorem perm_insertInto (run : List α) (x : α) : (insertInto before run x).Perm (x :: run) := by
  rw [insertInto]
  exact List.perm_middle.trans (by rw [List.take_append_drop])

private theorem perm_foldl_insertInto (run rest : List α) :
    (rest.foldl (insertInto before) run).Perm (run ++ rest) := by
  induction rest generalizing run with
  | nil => simp
  | cons x rest ih =>
    exact (ih _).trans (((perm_insertInto run x).append_right rest).trans List.perm_middle.symm)

theorem perm_sort (before : α → α → Bool) (list : List α) : (sort before list).Perm list :=
  (perm_foldl_insertInto _ _).trans (perm_firstRun list)

private theorem ascending_of_never (h : ∀ x y, before x y = false) (last : α) (run list : List α) :
    ascending before last run list = (run.reverse ++ list, []) := by
  induction list generalizing last run with
  | nil => simp [ascending]
  | cons x rest ih => simp [ascending, h, ih]

/-- A list in which no element has to come before another one is in order. -/
theorem sort_of_never (h : ∀ x y, before x y = false) (list : List α) : sort before list = list := by
  match list with
  | [] => rfl
  | [x] => rfl
  | x :: y :: rest => simp [sort, firstRun, h, ascending_of_never h]

/-! ## Elements that compare alike -/

section
variable {β : Type} {before' : β → β → Bool} {related : α → β → Prop}

/-- Related elements compare alike. -/
def CompareAlike (before : α → α → Bool) (before' : β → β → Bool) (related : α → β → Prop) : Prop :=
  ∀ x x' y y', related x x' → related y y' → before x y = before' x' y'

variable (halike : CompareAlike before before' related)
include halike

private theorem forall₂_ascending {last : α} {last' : β} (hlast : related last last') {run : List α}
    {run' : List β} (hrun : List.Forall₂ related run run') {list : List α} {list' : List β}
    (h : List.Forall₂ related list list') :
    List.Forall₂ related (ascending before last run list).1 (ascending before' last' run' list').1 ∧
      List.Forall₂ related (ascending before last run list).2 (ascending before' last' run' list').2 := by
  induction h generalizing last last' run run' with
  | nil => exact ⟨List.rel_reverse hrun, List.Forall₂.nil⟩
  | cons hfirst hrest ih =>
    unfold ascending
    rw [halike _ _ _ _ hfirst hlast]
    split
    · exact ⟨List.rel_reverse hrun, List.Forall₂.cons hfirst hrest⟩
    · exact ih hfirst (List.Forall₂.cons hfirst hrun)

private theorem forall₂_descending {last : α} {last' : β} (hlast : related last last') {run : List α}
    {run' : List β} (hrun : List.Forall₂ related run run') {list : List α} {list' : List β}
    (h : List.Forall₂ related list list') :
    List.Forall₂ related (descending before last run list).1 (descending before' last' run' list').1 ∧
      List.Forall₂ related (descending before last run list).2 (descending before' last' run' list').2 := by
  induction h generalizing last last' run run' with
  | nil => exact ⟨hrun, List.Forall₂.nil⟩
  | cons hfirst hrest ih =>
    unfold descending
    rw [halike _ _ _ _ hfirst hlast]
    split
    · exact ih hfirst (List.Forall₂.cons hfirst hrun)
    · exact ⟨hrun, List.Forall₂.cons hfirst hrest⟩

private theorem forall₂_firstRun {list : List α} {list' : List β} (h : List.Forall₂ related list list') :
    List.Forall₂ related (firstRun before list).1 (firstRun before' list').1 ∧
      List.Forall₂ related (firstRun before list).2 (firstRun before' list').2 := by
  cases h with
  | nil => exact ⟨List.Forall₂.nil, List.Forall₂.nil⟩
  | cons hx hrest =>
    cases hrest with
    | nil => exact ⟨List.Forall₂.cons hx List.Forall₂.nil, List.Forall₂.nil⟩
    | cons hy hrest =>
      have hrun := List.Forall₂.cons hy (List.Forall₂.cons hx List.Forall₂.nil)
      simp only [firstRun, halike _ _ _ _ hy hx]
      split
      · exact forall₂_descending halike hy hrun hrest
      · exact forall₂_ascending halike hy hrun hrest

private theorem place_eq {x : α} {x' : β} (hx : related x x') {run : List α} {run' : List β}
    (hrun : List.Forall₂ related run run') (fuel low high : Nat) :
    place (before x) run fuel low high = place (before' x') run' fuel low high := by
  have hany : ∀ middle : Nat, (run[middle]?).any (before x) = (run'[middle]?).any (before' x') := by
    intro middle
    induction hrun generalizing middle with
    | nil => rfl
    | cons hfirst _ ih =>
      cases middle with
      | zero => exact halike _ _ _ _ hx hfirst
      | succ middle => exact ih middle
  induction fuel generalizing low high with
  | zero => rfl
  | succ fuel ih => simp only [place, hany, ih]

private theorem forall₂_insertInto {run : List α} {run' : List β} (hrun : List.Forall₂ related run run')
    {x : α} {x' : β} (hx : related x x') :
    List.Forall₂ related (insertInto before run x) (insertInto before' run' x') := by
  unfold insertInto
  rw [place_eq halike hx hrun, hrun.length_eq]
  exact List.rel_append (List.forall₂_take _ hrun) (List.Forall₂.cons hx (List.forall₂_drop _ hrun))

/-- Lists whose elements compare alike are sorted alike. -/
theorem forall₂_sort {list : List α} {list' : List β} (h : List.Forall₂ related list list') :
    List.Forall₂ related (sort before list) (sort before' list') := by
  obtain ⟨hrun, hrest⟩ := forall₂_firstRun halike h
  have hinsert : Relator.LiftFun (List.Forall₂ related)
      (Relator.LiftFun related (List.Forall₂ related)) (insertInto before) (insertInto before') :=
    fun _ _ hrun _ _ hx => forall₂_insertInto halike hrun hx
  exact List.rel_foldl hinsert hrun hrest

end

/-- Images are sorted as the elements that they are compared for. -/
theorem sort_map {β : Type} (before : β → β → Bool) (f : α → β) (list : List α) :
    sort before (list.map f) = (sort (fun x y => before (f x) (f y)) list).map f := by
  have halike : CompareAlike (fun x y => before (f x) (f y)) before fun x y => f x = y := by
    rintro x _ y _ rfl rfl
    rfl
  have hlist : List.Forall₂ (fun x y => f x = y) list (list.map f) := by
    rw [List.forall₂_map_right_iff, List.forall₂_same]
    exact fun _ _ => rfl
  have hsorted := forall₂_sort halike hlist
  rw [← List.forall₂_map_left_iff (f := f), List.forall₂_eq_eq_eq] at hsorted
  exact hsorted.symm

/-! ## Order of the result -/

/-- Where an element of a run that the new one comes before is followed by such elements only, the search
finds the place in front of them. -/
private theorem place_spec {α : Type} {comesBefore : α → Bool} {run : List α}
    (hrun : run.Pairwise fun x y => comesBefore x = true → comesBefore y = true) {fuel low high : Nat}
    (hfuel : high ≤ low + fuel) (hle : low ≤ high) (hhigh : high ≤ run.length)
    (hbelow : ∀ y ∈ run.take low, comesBefore y = false) (habove : ∀ y ∈ run.drop high, comesBefore y = true) :
    (∀ y ∈ run.take (place comesBefore run fuel low high), comesBefore y = false) ∧
      ∀ y ∈ run.drop (place comesBefore run fuel low high), comesBefore y = true := by
  induction fuel generalizing low high with
  | zero =>
    obtain rfl : low = high := by omega
    exact ⟨hbelow, habove⟩
  | succ fuel ih =>
    unfold place
    split
    · next hlt =>
      dsimp only
      have hlow : low ≤ low + (high - low) / 2 := by omega
      have hmiddle : low + (high - low) / 2 < high := by omega
      have hfuels : high ≤ low + (high - low) / 2 + 1 + fuel ∧ low + (high - low) / 2 ≤ low + fuel := by omega
      generalize low + (high - low) / 2 = middle at hmiddle hlow hfuels
      have hlength : middle < run.length := hmiddle.trans_le hhigh
      -- What is true of the element in the middle is true of one half of the run, as the run is in order.
      rw [List.getElem?_eq_getElem hlength, Option.any_some]
      split
      · next hbefore =>
        refine ih hfuels.2 hlow hlength.le hbelow fun y hy => ?_
        have hdrop := hrun.drop (i := middle)
        rw [List.drop_eq_getElem_cons hlength] at hdrop hy
        rcases List.mem_cons.mp hy with rfl | hy
        · exact hbefore
        · exact List.rel_of_pairwise_cons hdrop hy hbefore
      · next hnot =>
        refine ih hfuels.1 hmiddle hhigh (fun y hy => ?_) habove
        have htake := hrun.take (i := middle + 1)
        rw [List.take_succ_eq_append_getElem hlength] at htake hy
        by_contra hbefore
        rcases List.mem_append.mp hy with hy | hy
        · exact hnot ((List.pairwise_append.mp htake).2.2 y hy _ (List.mem_singleton_self _)
            (by simpa using hbefore))
        · rw [List.mem_singleton.mp hy] at hbefore
          exact hnot (by simpa using hbefore)
    · next hlt =>
      obtain rfl : low = high := by omega
      exact ⟨hbelow, habove⟩

section
variable {R : α → α → Prop}

/-- The comparison of a later element with an earlier one tells their order. -/
def Decides (before : α → α → Bool) (R : α → α → Prop) (earlier later : α) : Prop :=
  (before later earlier = true → R later earlier) ∧ (before later earlier = false → R earlier later)

/-- A run in order, and a rest of elements that all count as later ones. -/
private structure InOrder (before : α → α → Bool) (R : α → α → Prop) (run rest : List α) : Prop where
  sorted : run.Pairwise R
  later : rest.Pairwise (Decides before R)
  between : ∀ x ∈ run, ∀ y ∈ rest, Decides before R x y

private theorem InOrder.insert (front back : List α) {rest : List α} {x : α}
    (h : InOrder before R (front ++ back) (x :: rest)) (hfront : ∀ y ∈ front, R y x)
    (hback : ∀ y ∈ back, R x y) : InOrder before R (front ++ x :: back) rest where
  sorted := by
    obtain ⟨hrunFront, hrunBack, hcross⟩ := List.pairwise_append.mp h.sorted
    refine List.pairwise_append.mpr ⟨hrunFront, List.pairwise_cons.mpr ⟨hback, hrunBack⟩, ?_⟩
    intro y hy z hz
    rcases List.mem_cons.mp hz with rfl | hz
    · exact hfront y hy
    · exact hcross y hy z hz
  later := h.later.tail
  between := by
    intro y hy z hz
    rcases List.mem_cons.mp (List.perm_middle.mem_iff.mp hy) with rfl | hy
    · exact List.rel_of_pairwise_cons h.later hz
    · exact h.between y hy z (List.mem_cons_of_mem x hz)

variable (htrans : ∀ x y z, R x y → R y z → R x z)
include htrans

private theorem inOrder_ascending {last : α} {run list : List α}
    (h : InOrder before R (last :: run).reverse list) :
    InOrder before R (ascending before last (last :: run) list).1
      (ascending before last (last :: run) list).2 := by
  induction list generalizing last run with
  | nil => exact h
  | cons x rest ih =>
    unfold ascending
    split
    · exact h
    · next hnot =>
      have hlast : R last x := (h.between last (by simp) x List.mem_cons_self).2 (by simpa using hnot)
      have hrun : ∀ y ∈ run, R y last := by
        have hreverse := h.sorted
        rw [List.pairwise_reverse] at hreverse
        exact fun y hy => List.rel_of_pairwise_cons hreverse hy
      apply ih
      rw [List.reverse_cons]
      refine InOrder.insert _ [] (by simpa using h) (fun y hy => ?_) nofun
      rcases List.mem_cons.mp (List.mem_reverse.mp hy) with rfl | hy
      · exact hlast
      · exact htrans y last x (hrun y hy) hlast

private theorem inOrder_descending {last : α} {run list : List α}
    (h : InOrder before R (last :: run) list) :
    InOrder before R (descending before last (last :: run) list).1
      (descending before last (last :: run) list).2 := by
  induction list generalizing last run with
  | nil => exact h
  | cons x rest ih =>
    unfold descending
    split
    · next hbefore =>
      have hlast : R x last := (h.between last List.mem_cons_self x List.mem_cons_self).1 hbefore
      apply ih
      refine InOrder.insert [] _ h nofun fun y hy => ?_
      rcases List.mem_cons.mp hy with rfl | hy
      · exact hlast
      · exact htrans x last y hlast (List.rel_of_pairwise_cons h.sorted hy)
    · exact h

private theorem inOrder_firstRun {list : List α} (h : list.Pairwise (Decides before R)) :
    InOrder before R (firstRun before list).1 (firstRun before list).2 := by
  match list with
  | [] => exact ⟨.nil, .nil, nofun⟩
  | [x] => exact ⟨List.pairwise_singleton R x, .nil, fun _ _ => nofun⟩
  | x :: y :: rest =>
    have hsingle : InOrder before R [x] (y :: rest) := by
      refine ⟨List.pairwise_singleton R x, h.tail, fun z hz w hw => ?_⟩
      rw [List.mem_singleton.mp hz]
      exact List.rel_of_pairwise_cons h hw
    have hdecides : Decides before R x y := List.rel_of_pairwise_cons h List.mem_cons_self
    rw [firstRun]
    split
    · next hbefore =>
      have hpair : InOrder before R [y, x] rest :=
        InOrder.insert [] _ hsingle nofun (by simpa using hdecides.1 hbefore)
      exact inOrder_descending htrans hpair
    · next hnot =>
      have hpair : InOrder before R [y, x].reverse rest :=
        InOrder.insert [x] [] hsingle (by simpa using hdecides.2 (by simpa using hnot)) nofun
      exact inOrder_ascending htrans hpair

variable (hmono : ∀ x y z, before x y = true → R y z → before x z = true)
include hmono

omit htrans in
private theorem inOrder_insertInto {run rest : List α} {x : α} (h : InOrder before R run (x :: rest)) :
    InOrder before R (insertInto before run x) rest := by
  have hmonotone : run.Pairwise fun y z => before x y = true → before x z = true :=
    h.sorted.imp fun hyz hbefore => hmono x _ _ hbefore hyz
  obtain ⟨hbelow, habove⟩ := place_spec hmonotone (Nat.zero_add _).ge (Nat.zero_le _) le_rfl (by simp) (by simp)
  unfold insertInto
  generalize place (before x) run run.length 0 run.length = k at hbelow habove
  refine InOrder.insert _ _ (by rwa [List.take_append_drop]) (fun y hy => ?_) fun y hy => ?_
  · exact (h.between y (List.mem_of_mem_take hy) x List.mem_cons_self).2 (hbelow y hy)
  · exact (h.between y (List.mem_of_mem_drop hy) x List.mem_cons_self).1 (habove y hy)

omit htrans in
private theorem pairwise_foldl_insertInto {run rest : List α} (h : InOrder before R run rest) :
    (rest.foldl (insertInto before) run).Pairwise R := by
  induction rest generalizing run with
  | nil => exact h.sorted
  | cons x rest ih => exact ih (inOrder_insertInto hmono h)

/-- A list is sorted by an order that is decided by comparing later elements with earlier ones. -/
theorem pairwise_sort_of_decides {list : List α} (h : list.Pairwise (Decides before R)) :
    (sort before list).Pairwise R :=
  pairwise_foldl_insertInto hmono (inOrder_firstRun htrans h)

end

/-! ## Ties -/

/-- On the elements of a list, coming before is a strict order, and so is coming before some element of
those that tie. -/
structure StrictWeakOn (before : α → α → Bool) (list : List α) : Prop where
  asymm : ∀ x ∈ list, ∀ y ∈ list, before x y = true → before y x = false
  split : ∀ x ∈ list, ∀ y ∈ list, ∀ z ∈ list, before x z = true → before x y = true ∨ before y z = true

/-- The element at one position comes before the one at the other, or ties with it and stands in front
of it. -/
def Leads (before : α → α → Bool) (list : List α) (i j : Fin list.length) : Prop :=
  before (list.get i) (list.get j) = true ∨ before (list.get j) (list.get i) = false ∧ i < j

/-- The sort is stable: it moves elements from their positions so that they come before the later ones, or
tie with them and stood in front of them already. -/
theorem exists_positions {list : List α} (h : StrictWeakOn before list) :
    ∃ positions : List (Fin list.length), positions.Perm (List.finRange list.length) ∧
      sort before list = positions.map list.get ∧ positions.Pairwise (Leads before list) := by
  have hmem : ∀ i : Fin list.length, list.get i ∈ list := list.get_mem
  have hasymm := fun i j => h.asymm _ (hmem i) _ (hmem j)
  have hsplit := fun i j k => h.split _ (hmem i) _ (hmem j) _ (hmem k)
  refine ⟨sort (fun i j => before (list.get i) (list.get j)) (List.finRange list.length), perm_sort _ _, ?_, ?_⟩
  · rw [← sort_map, List.map_get_finRange]
  · apply pairwise_sort_of_decides
    · rintro i j k (hij | ⟨hji, hlt⟩) (hjk | ⟨hkj, hlt'⟩)
      all_goals grind [Leads]
    · rintro i j k hij (hjk | ⟨hkj, -⟩)
      all_goals grind
    · refine (List.pairwise_lt_finRange list.length).imp fun hlt => ⟨.inl, fun hnot => .inr ⟨hnot, hlt⟩⟩

/-- The sort begins with an element that comes before all elements in front of it, and that no element
behind it comes before. -/
theorem exists_head?_sort {list : List α} (h : StrictWeakOn before list) (hne : list ≠ []) :
    ∃ front x back, list = front ++ x :: back ∧ (sort before list).head? = some x ∧
      (∀ y ∈ front, before x y = true) ∧ ∀ y ∈ back, before y x = false := by
  obtain ⟨positions, hperm, hsort, hleads⟩ := exists_positions h
  cases positions with
  | nil =>
    have hlength : 0 = list.length := by simpa using hperm.length_eq
    exact absurd (List.length_eq_zero_iff.mp hlength.symm) hne
  | cons i rest =>
    have hlead : ∀ j : Fin list.length, j ≠ i → Leads before list i j := by
      intro j hj
      have hmem : j ∈ i :: rest := hperm.mem_iff.mpr (List.mem_finRange j)
      exact List.rel_of_pairwise_cons hleads ((List.mem_cons.mp hmem).resolve_left hj)
    refine ⟨list.take i, list.get i, list.drop (i + 1), ?_, by rw [hsort]; rfl, fun y hy => ?_, fun y hy => ?_⟩
    · rw [List.get_eq_getElem, ← List.drop_eq_getElem_cons i.isLt, List.take_append_drop]
    · obtain ⟨j, hj, rfl⟩ := List.mem_take_iff_getElem.mp hy
      have hlt : j < i := by omega
      rcases hlead ⟨j, by omega⟩ (Fin.ne_of_lt hlt) with hbefore | ⟨-, hback⟩
      · exact hbefore
      · exact absurd hback (lt_asymm hlt)
    · obtain ⟨j, hj, rfl⟩ := List.mem_drop_iff_getElem.mp hy
      have hlt : i.val < i + 1 + j := by omega
      rcases hlead ⟨i + 1 + j, by omega⟩ (Fin.ne_of_gt hlt) with hbefore | ⟨hnot, -⟩
      · exact h.asymm _ (list.get_mem i) _ (List.getElem_mem _) hbefore
      · exact hnot

/-- Elements that compare as their ranks in a linear order are sorted by rank. -/
theorem pairwise_sort {β : Type} [LinearOrder β] {rank : α → β} {list : List α}
    (hrank : ∀ x ∈ list, ∀ y ∈ list, before x y = true ↔ rank x < rank y) :
    (sort before list).Pairwise fun x y => rank x ≤ rank y := by
  have hweak : StrictWeakOn before list := by
    refine ⟨fun x hx y hy hbefore => ?_, fun x hx y hy z hz hbefore => ?_⟩
    · rw [← Bool.not_eq_true, hrank y hy x hx]
      exact ((hrank x hx y hy).mp hbefore).not_gt
    · rw [hrank x hx y hy, hrank y hy z hz]
      have hlt : rank x < rank z := (hrank x hx z hz).mp hbefore
      exact (lt_or_ge (rank x) (rank y)).imp_right fun hle => hle.trans_lt hlt
  obtain ⟨positions, -, hsort, hleads⟩ := exists_positions hweak
  rw [hsort, List.pairwise_map]
  refine hleads.imp fun {i j} hij => ?_
  rcases hij with hbefore | ⟨hnot, -⟩
  · exact ((hrank _ (list.get_mem i) _ (list.get_mem j)).mp hbefore).le
  · rw [← Bool.not_eq_true, hrank _ (list.get_mem j) _ (list.get_mem i)] at hnot
    exact not_lt.mp hnot

end Sorting

end SnapshotSql
