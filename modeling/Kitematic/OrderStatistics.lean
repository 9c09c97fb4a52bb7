import Mathlib.Data.List.Sort
import Mathlib.Data.Rat.Floor
import Mathlib.Tactic.Linarith

/-! Order statistics. In a list that goes up, the element at a place is no less than those before
it and no greater than those after it, so the element at the rank of a quantile has at least that
share of the list on either side. -/

namespace Kitematic.OrderStatistics

section places
variable {α : Type*} [LinearOrder α] {items : List α} {k : ℕ}

theorem getElem_le_getElem (up : items.Pairwise (· ≤ ·)) {i j : ℕ} (ordered : i ≤ j)
    (inside : j < items.length) : items[i] ≤ items[j] := by
  rcases Nat.eq_or_lt_of_le ordered with rfl | before
  · exact le_refl _
  · exact List.pairwise_iff_getElem.mp up i j _ inside before

theorem lt_countP_le (up : items.Pairwise (· ≤ ·)) (inside : k < items.length) :
    k < items.countP fun a => a ≤ items[k] := by
  have all : ∀ a ∈ items.take (k + 1), decide (a ≤ items[k]) = true := by
    intro a member
    obtain ⟨i, before, rfl⟩ := List.mem_take_iff_getElem.mp member
    exact decide_eq_true (getElem_le_getElem up (by omega) inside)
  have taken : (items.take (k + 1)).length = k + 1 := by
    rw [List.length_take]
    omega
  have first := List.countP_eq_length.mpr all
  have whole := (List.take_sublist (k + 1) items).countP_le (p := fun a => a ≤ items[k])
  omega

theorem length_le_countP_ge (up : items.Pairwise (· ≤ ·)) (inside : k < items.length) :
    items.length ≤ k + items.countP fun a => items[k] ≤ a := by
  have all : ∀ a ∈ items.drop k, decide (items[k] ≤ a) = true := by
    intro a member
    obtain ⟨i, inside', rfl⟩ := List.mem_drop_iff_getElem.mp member
    exact decide_eq_true (getElem_le_getElem up (Nat.le_add_right k i) _)
  have dropped : (items.drop k).length = items.length - k := List.length_drop
  have last := List.countP_eq_length.mpr all
  have whole := (List.drop_sublist k items).countP_le (p := fun a => items[k] ≤ a)
  omega

end places

/-! Quantiles. -/

def rank (count : ℕ) (q : ℚ) : ℕ := ⌊count * q⌋.toNat

theorem rank_mono (count : ℕ) {q q' : ℚ} (ordered : q ≤ q') : rank count q ≤ rank count q' :=
  Int.toNat_le_toNat (Int.floor_mono (mul_le_mul_of_nonneg_left ordered (Nat.cast_nonneg count)))

section rank
variable {q : ℚ} (low : 0 ≤ q)
include low

theorem cast_rank (count : ℕ) : (rank count q : ℚ) = ⌊count * q⌋ := by
  have whole : 0 ≤ ⌊(count : ℚ) * q⌋ :=
    Int.floor_nonneg.mpr (mul_nonneg (Nat.cast_nonneg count) low)
  have cast := Int.toNat_of_nonneg whole
  exact_mod_cast cast

theorem rank_le (count : ℕ) : (rank count q : ℚ) ≤ count * q := by
  rw [cast_rank low]
  exact Int.floor_le _

theorem lt_rank (count : ℕ) : (count : ℚ) * q < rank count q + 1 := by
  rw [cast_rank low]
  exact Int.lt_floor_add_one _

theorem rank_lt {count : ℕ} (filled : 0 < count) (high : q < 1) : rank count q < count := by
  have positive : (0 : ℚ) < count := Nat.cast_pos.mpr filled
  have place : (rank count q : ℚ) < count :=
    calc (rank count q : ℚ) ≤ count * q := rank_le low count
      _ < count * 1 := by gcongr
      _ = count := mul_one _
  exact_mod_cast place

end rank

section quantile
variable {α : Type*} [LinearOrder α] {items sorted : List α} {q : ℚ}

/-- At least that share of the list is on either side of the element. -/
structure Quantile (items : List α) (q : ℚ) (a : α) : Prop where
  below : items.length * q ≤ items.countP fun b => b ≤ a
  above : items.length * (1 - q) ≤ items.countP fun b => a ≤ b

theorem quantile_rank (perm : sorted.Perm items) (up : sorted.Pairwise (· ≤ ·)) (low : 0 ≤ q)
    (inside : rank sorted.length q < sorted.length) :
    Quantile items q sorted[rank sorted.length q] where
  below := by
    have place := lt_countP_le up inside
    have share := lt_rank low sorted.length
    rw [← perm.length_eq, ← perm.countP_eq]
    have next : (rank sorted.length q : ℚ) + 1 ≤
        sorted.countP fun b => b ≤ sorted[rank sorted.length q] := by exact_mod_cast place
    linarith
  above := by
    have place := length_le_countP_ge up inside
    have share := rank_le low sorted.length
    rw [← perm.length_eq, ← perm.countP_eq]
    have rest : (sorted.length : ℚ) ≤ rank sorted.length q +
        sorted.countP fun b => sorted[rank sorted.length q] ≤ b := by exact_mod_cast place
    linarith

end quantile

end Kitematic.OrderStatistics
