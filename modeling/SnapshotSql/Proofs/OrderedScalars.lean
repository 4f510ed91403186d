import SnapshotSql.Service
import SnapshotSql.Proofs.SortedLists
import Mathlib.Data.List.Lex
import Mathlib.Data.Int.Order.Basic

/-! # The order of scalars

Two texts are in the order of their code points, and two other values in the order of the numbers that
they are. Both are orders of ranks that are lists of integers. A text and another value do not compare in
this way, and NaN has no rank.
-/
namespace SnapshotSql

theorem CodePoint.toNat_injective : Function.Injective CodePoint.toNat := by
  have hdistinct : ∀ (c : Char) (index : Fin 2048), c.toNat ≠ firstSurrogate + index := by
    intro c index heq
    have hvalid : c.toNat < 0xD800 ∨ 0xDFFF < c.toNat ∧ c.toNat < 0x110000 := c.valid
    have hfirst : firstSurrogate = 0xD800 := rfl
    omega
  intro a b h
  cases a with
  | char c =>
    cases b with
    | char d => exact congrArg CodePoint.char (Char.toNat_inj.mp h)
    | surrogate index => exact absurd h (hdistinct c index)
  | surrogate index =>
    cases b with
    | char d => exact absurd h.symm (hdistinct d index)
    | surrogate other => exact congrArg CodePoint.surrogate (Fin.ext (Nat.add_left_cancel h))

namespace Scalar

/-- The code points of a text, and the place of any other value among the numbers. -/
def rank : Scalar → List Int
  | .text chars => chars.map fun c => (c.toNat : Int)
  | value =>
      match value.toNumber.place? with
      | some place => [place.1, place.2]
      | none => []

/-- Two texts or two values that are no texts, NaN apart. -/
def Comparable (a b : Scalar) : Prop :=
  Service.isText a = Service.isText b ∧ a.isNan = false ∧ b.isNan = false

instance (a b : Scalar) : Decidable (Comparable a b) :=
  inferInstanceAs (Decidable (_ ∧ _ ∧ _))

private theorem text_lt_iff (a b : Text) : Text.lt a b = true ↔
    (a.map fun c => (c.toNat : Int)) < b.map fun c => (c.toNat : Int) := by
  induction a generalizing b with
  | nil => cases b <;> simp [Text.lt]
  | cons c a ih =>
    cases b with
    | nil => simp [Text.lt]
    | cons d b =>
      simp only [Text.lt, ih, Bool.or_eq_true, Bool.and_eq_true, decide_eq_true_eq, List.map_cons,
        List.cons_lt_cons_iff, Int.ofNat_lt, Int.ofNat_inj, CodePoint.toNat_injective.eq_iff]

private theorem number_lt_iff {a b : Number} {p q : Int × Int} (ha : a.place? = some p)
    (hb : b.place? = some q) : Number.lt a b = true ↔ [p.1, p.2] < [q.1, q.2] := by
  rw [Number.lt, ha, hb]
  simp [List.cons_lt_cons_iff]

theorem exists_place {value : Scalar} (htext : Service.isText value = false) (hnan : value.isNan = false) :
    ∃ place, value.toNumber.place? = some place := by
  cases value with
  | text chars => cases htext
  | float value =>
    cases value with
    | nan => cases hnan
    | infinite negative => exact ⟨_, rfl⟩
    | finite negative units h => exact ⟨_, rfl⟩
  | _ => exact ⟨_, rfl⟩

private theorem rank_of_place {value : Scalar} {place : Int × Int} (htext : Service.isText value = false)
    (hplace : value.toNumber.place? = some place) : value.rank = [place.1, place.2] := by
  unfold rank
  split
  · cases htext
  · rw [hplace]

theorem lessThan_iff {a b : Scalar} (h : Comparable a b) : a.lessThan b = true ↔ a.rank < b.rank := by
  obtain ⟨hkind, hnanA, hnanB⟩ := h
  cases htext : Service.isText a with
  | true =>
    rw [htext] at hkind
    cases a <;> cases htext
    cases b <;> cases hkind
    exact text_lt_iff _ _
  | false =>
    rw [htext] at hkind
    obtain ⟨p, hp⟩ := exists_place htext hnanA
    obtain ⟨q, hq⟩ := exists_place hkind.symm hnanB
    rw [rank_of_place htext hp, rank_of_place hkind.symm hq, ← number_lt_iff hp hq]
    unfold lessThan
    split
    · cases htext
    · rfl

private theorem number_lt_asymm {a b : Number} (h : Number.lt a b = true) : Number.lt b a = false := by
  unfold Number.lt at h ⊢
  cases ha : a.place? with
  | none => simp [ha] at h
  | some p =>
    cases hb : b.place? with
    | none => rfl
    | some q =>
      simp only [ha, hb, Bool.or_eq_true, Bool.and_eq_true, decide_eq_true_eq] at h
      simp only [Bool.or_eq_false_iff, Bool.and_eq_false_iff, decide_eq_false_iff_not]
      omega

/-- No two values come before each other, whether they compare as texts or as numbers. -/
theorem lessThan_asymm {a b : Scalar} (h : a.lessThan b = true) : b.lessThan a = false := by
  unfold lessThan at h ⊢
  split at h
  · rw [text_lt_iff] at h
    rw [← Bool.not_eq_true, text_lt_iff]
    exact h.not_gt
  · next htexts =>
    split
    · exact absurd rfl (htexts _ _ rfl)
    · exact number_lt_asymm h

theorem Comparable.symm {a b : Scalar} (h : Comparable a b) : Comparable b a :=
  ⟨h.1.symm, h.2.2, h.2.1⟩

/-- What comes before a value comes before a third one, or the third one before the value. -/
theorem lessThan_split {a b c : Scalar} (hab : Comparable a b) (hbc : Comparable b c)
    (h : a.lessThan c = true) : a.lessThan b = true ∨ b.lessThan c = true := by
  have hac : Comparable a c := ⟨hab.1.trans hbc.1, hab.2.1, hbc.2.2⟩
  rw [lessThan_iff hac] at h
  rw [lessThan_iff hab, lessThan_iff hbc]
  exact (lt_or_ge a.rank b.rank).imp_right fun hle => hle.trans_lt h

/-! ## Descending order -/

/-- A value comes before another one in ascending or in descending order. -/
def comesFirst (descending : Bool) (a b : Scalar) : Bool :=
  if descending then a.greaterThan b else a.lessThan b

theorem comesFirst_asymm {descending : Bool} {a b : Scalar} (h : comesFirst descending a b = true) :
    comesFirst descending b a = false := by
  cases descending
  · exact lessThan_asymm h
  · exact lessThan_asymm (a := b) h

theorem comesFirst_split {descending : Bool} {a b c : Scalar} (hab : Comparable a b) (hbc : Comparable b c)
    (h : comesFirst descending a c = true) : comesFirst descending a b = true ∨ comesFirst descending b c = true := by
  cases descending
  · exact lessThan_split hab hbc h
  · exact (lessThan_split hbc.symm hab.symm h).symm

/-- Values that compare with each other are in a strict weak order, ascending or descending. -/
theorem strictWeakOn_comesFirst (descending : Bool) {values : List Scalar}
    (h : ∀ a ∈ values, ∀ b ∈ values, Comparable a b) : Sorting.StrictWeakOn (comesFirst descending) values where
  asymm _ _ _ _ hbefore := comesFirst_asymm hbefore
  split a ha b hb c hc hbefore := comesFirst_split (h a ha b hb) (h b hb c hc) hbefore

/-- Values that compare with each other are sorted: none comes before one that stands in front of it. -/
theorem pairwise_sort {values : List Scalar} (h : ∀ a ∈ values, ∀ b ∈ values, Comparable a b) :
    (Sorting.sort lessThan values).Pairwise fun a b => b.lessThan a = false := by
  have hmem := fun value => (Sorting.perm_sort lessThan values).mem_iff (a := value)
  have hranks : (Sorting.sort lessThan values).Pairwise fun a b => a.rank ≤ b.rank :=
    Sorting.pairwise_sort fun a ha b hb => lessThan_iff (h a ha b hb)
  refine hranks.imp_of_mem fun ha hb hle => ?_
  rw [← Bool.not_eq_true, lessThan_iff (h _ ((hmem _).mp hb) _ ((hmem _).mp ha))]
  exact not_lt.mpr hle

end Scalar

end SnapshotSql
