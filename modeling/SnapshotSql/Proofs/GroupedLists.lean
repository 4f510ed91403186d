import SnapshotSql.Proofs.DeleteTraces
import Mathlib.Data.List.Induction

/-! # Lists grouped by a key

The elements of a list that share a key are its members, and the keys come in the order in which the list
first has them. The groups are disjoint and together they have every element as often as the list. Which
element comes first in each group depends only on which elements share a key.
-/
namespace SnapshotSql

namespace Grouping

variable {α : Type}

def keys (keyOf : α → Text) (list : List α) : List Text :=
  (list.map keyOf).eraseDups

def members (keyOf : α → Text) (list : List α) (key : Text) : List α :=
  list.filter (keyOf · = key)

def firsts (keyOf : α → Text) (list : List α) : List α :=
  (keys keyOf list).filterMap fun key => (members keyOf list key).head?

variable {keyOf : α → Text} {list : List α} {key : Text}

theorem mem_keys : key ∈ keys keyOf list ↔ ∃ x ∈ list, keyOf x = key := by
  rw [keys, List.mem_eraseDups, List.mem_map]

theorem nodup_keys : (keys keyOf list).Nodup :=
  Integrity.nodup_eraseDups _

theorem exists_head?_members (h : key ∈ keys keyOf list) :
    ∃ first, (members keyOf list key).head? = some first := by
  obtain ⟨x, hx, hkey⟩ := mem_keys.mp h
  rw [← Option.isSome_iff_exists, List.isSome_head?]
  exact List.ne_nil_of_mem (List.mem_filter.mpr ⟨hx, decide_eq_true hkey⟩)

theorem pairwise_eraseDups (names : List Text) :
    names.eraseDups.Pairwise fun a b => names.idxOf a < names.idxOf b := by
  induction names using List.reverseRecOn with
  | nil => exact .nil
  | append_singleton names last ih =>
    have hold : ∀ {name}, name ∈ names.eraseDups → (names ++ [last]).idxOf name = names.idxOf name :=
      fun hname => List.idxOf_append_of_mem (List.mem_eraseDups.mp hname)
    rw [List.eraseDups_append]
    refine List.pairwise_append.mpr ⟨ih.imp_of_mem fun ha hb hlt => ?_, ?_, fun name hname other hother => ?_⟩
    · rwa [hold ha, hold hb]
    · by_cases hmem : last ∈ names <;> simp [List.removeAll, hmem, List.eraseDups_cons]
    · obtain ⟨hother, hnew⟩ : other = last ∧ other ∉ names := by
        simpa [List.removeAll, List.mem_eraseDups] using hother
      rw [hold hname, List.idxOf_append_of_notMem hnew]
      exact Nat.lt_add_right _ (List.idxOf_lt_length_of_mem (List.mem_eraseDups.mp hname))

theorem pairwise_keys :
    (keys keyOf list).Pairwise fun a b => (list.map keyOf).idxOf a < (list.map keyOf).idxOf b :=
  pairwise_eraseDups _

private theorem perm_members_of_nodup {keys : List Text} (h : keys.Nodup) :
    (keys.flatMap (members keyOf list)).Perm (list.filter (keyOf · ∈ keys)) := by
  induction keys with
  | nil => simp
  | cons key keys ih =>
    obtain ⟨hnew, hrest⟩ := List.nodup_cons.mp h
    have hsplit := List.filter_append_perm (fun x => decide (keyOf x = key)) (list.filter (keyOf · ∈ key :: keys))
    rw [List.filter_filter, List.filter_filter] at hsplit
    have hmembers : list.filter (fun x => decide (keyOf x = key) && decide (keyOf x ∈ key :: keys)) =
        members keyOf list key := by
      refine List.filter_congr fun x _ => ?_
      by_cases hx : keyOf x = key <;> simp [hx]
    have hothers : list.filter (fun x => !decide (keyOf x = key) && decide (keyOf x ∈ key :: keys)) =
        list.filter (keyOf · ∈ keys) := by
      refine List.filter_congr fun x _ => ?_
      by_cases hx : keyOf x = key <;> simp [hx, hnew]
    rw [hmembers, hothers] at hsplit
    rw [List.flatMap_cons]
    exact (ih hrest).append_left _ |>.trans hsplit

/-- The groups together have the elements of the list. -/
theorem perm_members (keyOf : α → Text) (list : List α) :
    ((keys keyOf list).flatMap (members keyOf list)).Perm list := by
  have hall : list.filter (keyOf · ∈ keys keyOf list) = list :=
    List.filter_eq_self.mpr fun x hx => decide_eq_true (mem_keys.mpr ⟨x, hx, rfl⟩)
  exact (perm_members_of_nodup nodup_keys).trans (.of_eq hall)

/-! ## Chosen groups -/

theorem eraseDups_filter (keep : Text → Bool) (names : List Text) :
    (names.filter keep).eraseDups = names.eraseDups.filter keep := by
  induction names using List.reverseRecOn with
  | nil => rfl
  | append_singleton names last ih =>
    rw [List.filter_append, List.eraseDups_append, List.eraseDups_append, List.filter_append, ih]
    congr 1
    by_cases hmem : last ∈ names <;> cases hkeep : keep last <;>
      simp [List.removeAll, List.eraseDups_cons, hmem, hkeep]

/-- Elements chosen by their keys have the chosen ones of the keys. -/
theorem keys_filter (keep : Text → Bool) :
    keys keyOf (list.filter fun x => keep (keyOf x)) = (keys keyOf list).filter keep := by
  rw [keys, keys, ← eraseDups_filter, List.filter_map]
  rfl

/-- A group whose key is chosen stays as it is. -/
theorem members_filter {keep : Text → Bool} (h : keep key = true) :
    members keyOf (list.filter fun x => keep (keyOf x)) key = members keyOf list key := by
  rw [members, List.filter_filter]
  refine List.filter_congr fun x _ => ?_
  by_cases hx : keyOf x = key <;> simp [hx, h]

/-- What elements with one key have in common is told by the key. -/
theorem exists_keep {holds : α → Bool}
    (h : ∀ x ∈ list, ∀ y ∈ list, keyOf x = keyOf y → holds x = holds y) :
    ∃ keep : Text → Bool, ∀ x ∈ list, holds x = keep (keyOf x) := by
  refine ⟨fun key => (members keyOf list key).any holds, fun x hx => ?_⟩
  have hself : x ∈ members keyOf list (keyOf x) := List.mem_filter.mpr ⟨hx, decide_eq_true rfl⟩
  rw [Bool.eq_iff_iff, List.any_eq_true]
  constructor
  · exact fun hholds => ⟨x, hself, hholds⟩
  · rintro ⟨y, hy, hholds⟩
    obtain ⟨hy, hkey⟩ := List.mem_filter.mp hy
    rw [h x hx y hy (of_decide_eq_true hkey).symm, hholds]

/-! ## First members -/

theorem firsts_cons (x : α) :
    firsts keyOf (x :: list) = x :: firsts keyOf (list.filter (keyOf · ≠ keyOf x)) := by
  have hkeys : keys keyOf (x :: list) = keyOf x :: keys keyOf (list.filter (keyOf · ≠ keyOf x)) := by
    simp only [keys, List.map_cons, List.eraseDups_cons, List.filter_map]
    refine congrArg (fun others : List α => keyOf x :: (others.map keyOf).eraseDups) ?_
    exact List.filter_congr fun y _ => by simp [beq_eq_decide]
  unfold firsts
  rw [hkeys, List.filterMap_cons]
  simp only [members, List.filter_cons, decide_true, if_true, List.head?_cons]
  congr 1
  refine List.filterMap_congr fun key hkey => ?_
  obtain ⟨y, hy, rfl⟩ := mem_keys.mp hkey
  have hne : keyOf y ≠ keyOf x := by simpa using (List.mem_filter.mp hy).2
  rw [if_neg (by simpa using Ne.symm hne), List.filter_filter]
  congr 1
  refine List.filter_congr fun z _ => ?_
  by_cases hz : keyOf z = keyOf y <;> simp [hz, hne]

theorem firsts_map {β : Type} (keyOf : β → Text) (f : α → β) (list : List α) :
    firsts keyOf (list.map f) = (firsts (fun x => keyOf (f x)) list).map f := by
  simp only [firsts, keys, members, List.map_map, List.filter_map, List.head?_map, List.map_filterMap]
  rfl

/-- Keys that are shared by the same elements give the same first ones. -/
theorem firsts_congr {keyOf' : α → Text} (h : ∀ x y, keyOf x = keyOf y ↔ keyOf' x = keyOf' y) :
    firsts keyOf list = firsts keyOf' list := by
  -- The other groups are those of a filtered list, so the induction is on the length.
  induction hlength : list.length using Nat.strongRecOn generalizing list with
  | ind length ih =>
    cases list with
    | nil => rfl
    | cons x list =>
      have hothers : list.filter (keyOf · ≠ keyOf x) = list.filter (keyOf' · ≠ keyOf' x) :=
        List.filter_congr fun y _ => decide_eq_decide.mpr (not_congr (h y x))
      have hshorter := List.length_filter_le (keyOf' · ≠ keyOf' x) list
      rw [List.length_cons] at hlength
      rw [firsts_cons, firsts_cons, hothers, ih _ (by omega) rfl]

end Grouping

end SnapshotSql
