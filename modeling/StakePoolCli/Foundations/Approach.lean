import Mathlib.Data.Nat.Dist
import Mathlib.Order.Interval.Set.UnorderedInterval
import Mathlib.Order.OrderIsoNat

/-!
# Approaching a target

`Toward t a b`: on the way from `a` to the target `t` comes `b`. Steps toward a target compose
(`Toward.trans`) and never pass it.

In the natural numbers the distance to the target goes down by the length of each step
(`Toward.dist_add_dist`), so that a sequence of steps ends up standing still
(`Toward.eventually_eq`).
-/

namespace StakePoolCli.Approach

/-- `b` lies between `a` and the target `t`. -/
def Toward {α : Type*} [Lattice α] (t a b : α) : Prop := b ∈ Set.uIcc a t

namespace Toward

section

variable {α : Type*} [Lattice α] {t a b : α}

theorem refl (t a : α) : Toward t a a := Set.left_mem_uIcc

theorem of_le (hab : a ≤ b) (hbt : b ≤ t) : Toward t a b := Set.mem_uIcc_of_le hab hbt

theorem of_ge (htb : t ≤ b) (hba : b ≤ a) : Toward t a b := Set.mem_uIcc_of_ge htb hba

end

section

variable {α : Type*} [LinearOrder α] {t a b c : α}

theorem iff_le_or_ge : Toward t a b ↔ a ≤ b ∧ b ≤ t ∨ t ≤ b ∧ b ≤ a := Set.mem_uIcc

theorem trans (hab : Toward t a b) (hbc : Toward t b c) : Toward t a c := by
  rw [iff_le_or_ge] at hab hbc ⊢
  rcases hab with ⟨hab, hbt⟩ | ⟨htb, hba⟩ <;> rcases hbc with ⟨hbc, hct⟩ | ⟨htc, hcb⟩
  · exact .inl ⟨hab.trans hbc, hct⟩
  · -- then `b` is the target already
    obtain rfl := le_antisymm hbt (htc.trans hcb)
    obtain rfl := le_antisymm hcb htc
    exact .inl ⟨hab, le_rfl⟩
  · obtain rfl := le_antisymm (hbc.trans hct) htb
    obtain rfl := le_antisymm hct hbc
    exact .inr ⟨le_rfl, hba⟩
  · exact .inr ⟨htc, hcb.trans hba⟩

end

section

variable {t a b : ℕ}

/-- The distance that is left goes down by the length of the step. -/
theorem dist_add_dist (h : Toward t a b) : a.dist b + b.dist t = a.dist t := by
  unfold Nat.dist
  rcases iff_le_or_ge.mp h with ⟨hab, hbt⟩ | ⟨htb, hba⟩ <;> omega

/-- **Steps toward a target come to a stand.** -/
theorem eventually_eq {f : ℕ → ℕ} (h : ∀ n, Toward t (f n) (f (n + 1))) :
    ∃ N, ∀ n, N ≤ n → f n = f N := by
  have hstep : ∀ n, (f (n + 1)).dist t ≤ (f n).dist t := fun n => by
    have := (h n).dist_add_dist
    omega
  obtain ⟨N, hN⟩ := WellFoundedGT.monotone_chain_condition
    (⟨fun n => OrderDual.toDual ((f n).dist t), monotone_nat_of_le_succ hstep⟩ : ℕ →o ℕᵒᵈ)
  refine ⟨N, fun n hn => ?_⟩
  induction n, hn using Nat.le_induction with
  | base => rfl
  | succ n hn ih =>
    -- the distance is that of `N` before the step and after it, so the step has no length
    have hbefore : (f N).dist t = (f n).dist t := hN n hn
    have hafter : (f N).dist t = (f (n + 1)).dist t := hN (n + 1) (by omega)
    have hdist := (h n).dist_add_dist
    have hzero : (f n).dist (f (n + 1)) = 0 := by omega
    rw [← ih, Nat.eq_of_dist_eq_zero hzero]

end

end Toward

end StakePoolCli.Approach
