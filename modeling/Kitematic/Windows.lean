import Mathlib.Algebra.BigOperators.Group.List.Basic
import Mathlib.Algebra.Order.Field.Basic
import Mathlib.Tactic.Linarith
import Mathlib.Tactic.Ring

/-! Amounts granted over time, against a credit that time refills. If the credit
never exceeds a cap and grows at most at a rate, then what is granted between two
instants is at most the cap and what the rate adds between them. -/

namespace Kitematic.Windows
variable {α : Type*} [Field α] [LinearOrder α]

structure Grant (α : Type*) where
  time : α
  amount : α

/-- The amount granted from `s` to `t`, both included. -/
def within (grants : List (Grant α)) (s t : α) : α :=
  ((grants.filter fun g => s ≤ g.time ∧ g.time ≤ t).map Grant.amount).sum

@[simp] theorem within_nil (s t : α) : within ([] : List (Grant α)) s t = 0 := rfl

theorem within_append (grants : List (Grant α)) (g : Grant α) (s t : α) :
    within (grants ++ [g]) s t =
      within grants s t + if s ≤ g.time ∧ g.time ≤ t then g.amount else 0 := by
  by_cases inside : s ≤ g.time ∧ g.time ≤ t <;> simp [within, inside]

theorem within_congr {grants : List (Grant α)} {s t s' t' : α}
    (same : ∀ g ∈ grants, (s ≤ g.time ∧ g.time ≤ t) ↔ (s' ≤ g.time ∧ g.time ≤ t')) :
    within grants s t = within grants s' t' := by
  unfold within
  congr 2
  exact List.filter_congr fun g member => by simp only [same g member]

variable [IsStrictOrderedRing α]

/-- At `clock` the grants so far leave `credit`: it pays for what comes next, and
with it the grants since any instant stay within the cap and the refill. -/
structure Covered (cap rate clock credit : α) (grants : List (Grant α)) : Prop where
  past : ∀ g ∈ grants, g.time ≤ clock
  nonneg : 0 ≤ credit
  capped : credit ≤ cap
  since : ∀ s ≤ clock, within grants s clock + credit ≤ cap + rate * (clock - s)
  window : ∀ s t, s ≤ t → within grants s t ≤ cap + rate * (t - s)

namespace Covered
variable {cap rate clock credit : α} {grants : List (Grant α)}

theorem start (full : 0 ≤ cap) (refills : 0 ≤ rate) (clock : α) :
    Covered cap rate clock cap [] := by
  have gained : ∀ s t : α, s ≤ t → 0 ≤ rate * (t - s) := fun s t ordered =>
    mul_nonneg refills (sub_nonneg.mpr ordered)
  refine ⟨by simp, full, le_rfl, fun s before => ?_, fun s t ordered => ?_⟩
  · have := gained s clock before
    simp only [within_nil]
    linarith
  · have := gained s t ordered
    simp only [within_nil]
    linarith

omit [IsStrictOrderedRing α] in
theorem within_clock (covered : Covered cap rate clock credit grants) {s t : α}
    (later : clock ≤ t) : within grants s t = within grants s clock :=
  within_congr fun g member =>
    and_congr_right fun _ =>
      iff_of_true ((covered.past g member).trans later) (covered.past g member)

omit [IsStrictOrderedRing α] in
theorem within_future (covered : Covered cap rate clock credit grants) {s t : α}
    (later : clock < s) : within grants s t = 0 := by
  have none : (grants.filter fun g => s ≤ g.time ∧ g.time ≤ t) = [] := by
    refine List.filter_eq_nil_iff.mpr fun g member => ?_
    have missed : ¬ s ≤ g.time := not_le.mpr ((covered.past g member).trans_lt later)
    simp [missed]
  rw [within, none]
  rfl

theorem advance (covered : Covered cap rate clock credit grants) (refills : 0 ≤ rate)
    {now next : α} (later : clock ≤ now) (nonneg : 0 ≤ next) (capped : next ≤ cap)
    (grown : next ≤ credit + rate * (now - clock)) : Covered cap rate now next grants := by
  refine ⟨fun g member => (covered.past g member).trans later, nonneg, capped, ?_,
    covered.window⟩
  intro s before
  have gained : 0 ≤ rate * (now - s) := mul_nonneg refills (sub_nonneg.mpr before)
  rw [covered.within_clock later]
  by_cases old : s ≤ clock
  · have spent := covered.since s old
    have split : rate * (now - s) = rate * (clock - s) + rate * (now - clock) := by ring
    linarith
  · rw [covered.within_future (not_le.mp old)]
    linarith

theorem grant (covered : Covered cap rate clock credit grants) (refills : 0 ≤ rate) {amount : α}
    (positive : 0 ≤ amount) (paid : amount ≤ credit) :
    Covered cap rate clock (credit - amount) (grants ++ [⟨clock, amount⟩]) := by
  have since : ∀ s ≤ clock, within (grants ++ [⟨clock, amount⟩]) s clock + (credit - amount) ≤
      cap + rate * (clock - s) := by
    intro s before
    have spent := covered.since s before
    rw [within_append, if_pos ⟨before, le_rfl⟩]
    linarith
  refine ⟨?_, sub_nonneg.mpr paid, (sub_le_self _ positive).trans covered.capped, since, ?_⟩
  · intro g member
    cases List.mem_append.mp member with
    | inl old => exact covered.past g old
    | inr new => exact (List.mem_singleton.mp new) ▸ le_rfl
  · intro s t ordered
    by_cases inside : s ≤ clock ∧ clock ≤ t
    · have spent := covered.since s inside.1
      have gained : 0 ≤ rate * (t - clock) := mul_nonneg refills (sub_nonneg.mpr inside.2)
      have split : rate * (t - s) = rate * (clock - s) + rate * (t - clock) := by ring
      rw [within_append, if_pos inside, covered.within_clock inside.2]
      linarith
    · have old := covered.window s t ordered
      rw [within_append, if_neg inside]
      linarith

end Covered
end Kitematic.Windows
