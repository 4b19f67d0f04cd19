import Mathlib.Algebra.BigOperators.Group.List.Basic
import Mathlib.Algebra.GroupWithZero.Nat
import Mathlib.Data.List.Basic

/-!
# Handing out a budget along a list

A list of demands is served in order out of one budget. `decision R d` is the decision about the
demand `d` when `R` is left, and `cost d c` what the decision `c` about `d` takes from the budget.

* `rest` is what is left after the whole list, `decisions` the decisions made on the way.
* A decision depends on the demands before it only through what they left (`getElem?_decisions`).
* When no decision costs more than what is left, the budget is conserved (`rest_add_sum_cost`).
* A lower bound on the budget that every paying decision re-establishes holds after any list in
  which something was paid (`le_rest_of_pays`).
* When some decisions are taken only above a bound, and others leave at most that bound, none of the
  first follows one of the second (`pairwise_decisions`).
* When the budget covers what all demands need, on top of what a decision has to find, each demand
  gets what it would get alone (`decisions_eq_map`), whatever the order.
-/

namespace StakePoolCli.Budget

variable {δ γ : Type*} (decision : ℕ → δ → γ) (cost : δ → γ → ℕ)

/-- What is left after the demands. -/
def rest : List δ → ℕ → ℕ
  | [], R => R
  | d :: ds, R => rest ds (R - cost d (decision R d))

/-- The decisions about the demands. -/
def decisions : List δ → ℕ → List γ
  | [], _ => []
  | d :: ds, R => decision R d :: decisions ds (R - cost d (decision R d))

variable {decision cost}

@[simp] theorem rest_nil (R : ℕ) : rest decision cost [] R = R := rfl

@[simp] theorem rest_cons (d : δ) (ds : List δ) (R : ℕ) :
    rest decision cost (d :: ds) R = rest decision cost ds (R - cost d (decision R d)) := rfl

@[simp] theorem decisions_nil (R : ℕ) : decisions decision cost [] R = [] := rfl

@[simp] theorem decisions_cons (d : δ) (ds : List δ) (R : ℕ) :
    decisions decision cost (d :: ds) R =
      decision R d :: decisions decision cost ds (R - cost d (decision R d)) := rfl

/-- The decision at a position is made with what the demands before it left. -/
theorem getElem?_decisions (ds : List δ) (R i : ℕ) :
    (decisions decision cost ds R)[i]? =
      ds[i]?.map (decision (rest decision cost (ds.take i) R)) := by
  induction ds generalizing R i with
  | nil => simp
  | cons d ds ih =>
    cases i with
    | zero => rfl
    | succ i => exact ih _ _

/-- **The budget is conserved.** -/
theorem rest_add_sum_cost (hcost : ∀ R d, cost d (decision R d) ≤ R) (ds : List δ) (R : ℕ) :
    rest decision cost ds R +
      (List.zipWith cost ds (decisions decision cost ds R)).sum = R := by
  induction ds generalizing R with
  | nil => simp
  | cons d ds ih =>
    have h := ih (R - cost d (decision R d))
    have := hcost R d
    simp only [rest_cons, decisions_cons, List.zipWith_cons_cons, List.sum_cons]
    omega

/-- A bound that holds after every paying decision, and that the others preserve, holds after any
list in which some decision pays. -/
theorem le_rest_of_pays {pays : γ → Prop} {b : ℕ}
    (hpay : ∀ R d, pays (decision R d) → b ≤ R - cost d (decision R d))
    (hfree : ∀ R d, ¬ pays (decision R d) → cost d (decision R d) = 0) (ds : List δ) (R : ℕ)
    (h : b ≤ R ∨ ∃ c ∈ decisions decision cost ds R, pays c) : b ≤ rest decision cost ds R := by
  induction ds generalizing R with
  | nil => simpa using h
  | cons d ds ih =>
    apply ih
    by_cases hd : pays (decision R d)
    · exact .inl (hpay R d hd)
    · rw [hfree R d hd]
      simpa [hd, hfree R d hd] using h

/-- Every decision is one about some demand, with some budget. -/
theorem exists_of_mem_decisions {ds : List δ} {R : ℕ} {c : γ}
    (h : c ∈ decisions decision cost ds R) : ∃ d ∈ ds, ∃ R', c = decision R' d := by
  obtain ⟨i, hi⟩ := List.mem_iff_getElem?.mp h
  rw [getElem?_decisions, Option.map_eq_some_iff] at hi
  obtain ⟨d, hd, rfl⟩ := hi
  exact ⟨d, List.mem_of_getElem? hd, _, rfl⟩

/-- A bound that the budget is under stays one. -/
theorem le_bound_of_mem_decisions {Q : γ → Prop} {b : ℕ} (hfund : ∀ R d, Q (decision R d) → b < R)
    {ds : List δ} {R : ℕ} (hR : R ≤ b) {c : γ} (h : c ∈ decisions decision cost ds R) : ¬ Q c := by
  induction ds generalizing R with
  | nil => cases h
  | cons d ds ih =>
    rcases List.mem_cons.mp h with rfl | h
    · intro hQ
      have := hfund R d hQ
      omega
    · apply ih _ h
      omega

/-- **Served in order.** After a decision that leaves at most the bound, none is taken that needs
more. -/
theorem pairwise_decisions {P Q : γ → Prop} {b : ℕ}
    (hshort : ∀ R d, P (decision R d) → R - cost d (decision R d) ≤ b)
    (hfund : ∀ R d, Q (decision R d) → b < R) (ds : List δ) (R : ℕ) :
    (decisions decision cost ds R).Pairwise fun c c' => P c → ¬ Q c' := by
  induction ds generalizing R with
  | nil => exact .nil
  | cons d ds ih =>
    refine .cons (fun c' hc' hP => ?_) (ih _)
    exact le_bound_of_mem_decisions hfund (hshort R d hP) hc'

/-- **Served independently of the order.** With a budget for all needs, every demand gets what it
would get if it were alone. -/
theorem decisions_eq_map {need : δ → ℕ} {alone : δ → γ} {b : ℕ}
    (halone : ∀ R d, b + need d ≤ R → decision R d = alone d)
    (hcost : ∀ d, cost d (alone d) ≤ need d) {ds : List δ} {R : ℕ}
    (h : b + (ds.map need).sum ≤ R) : decisions decision cost ds R = ds.map alone := by
  induction ds generalizing R with
  | nil => rfl
  | cons d ds ih =>
    rw [List.map_cons, List.sum_cons] at h
    have hd := halone R d (by omega)
    have := hcost d
    rw [decisions_cons, hd, List.map_cons, ih (by omega)]

end StakePoolCli.Budget
