import Mathlib.Data.List.Basic

/-!
# Reconciling a state with a configuration

A list of aspects of a state is compared with what they should be, once, before anything is done;
for each aspect that needs it an action is emitted, and then the actions are executed in order.

`run exec as s` executes actions that may fail. `run_filterMap`: when every action can be executed
and reaches the goal of its aspect without undoing another one, and an aspect without an action
is at its goal already, the whole run succeeds and reaches every goal.
-/

namespace StakePoolCli.Reconcile

variable {σ α ι : Type*} (exec : α → σ → Option σ)

/-- Execute actions in order, as long as they succeed. -/
def run : List α → σ → Option σ
  | [], s => some s
  | a :: as, s => (exec a s).bind (run as)

variable {exec}

@[simp] theorem run_nil (s : σ) : run exec [] s = some s := rfl

theorem run_cons_of_some {a : α} {as : List α} {s s' : σ} (h : exec a s = some s') :
    run exec (a :: as) s = run exec as s' := by
  rw [run, h, Option.bind_some]

theorem run_append (as bs : List α) (s : σ) :
    run exec (as ++ bs) s = (run exec as s).bind (run exec bs) := by
  induction as generalizing s with
  | nil => rfl
  | cons a as ih =>
    rw [List.cons_append, run, run, Option.bind_assoc]
    congr 1
    funext s'
    exact ih s'

theorem run_cons_eq_some {a : α} {as : List α} {s s' : σ} :
    run exec (a :: as) s = some s' ↔ ∃ s₁, exec a s = some s₁ ∧ run exec as s₁ = some s' :=
  Option.bind_eq_some_iff

theorem run_append_eq_some {as bs : List α} {s s' : σ} :
    run exec (as ++ bs) s = some s' ↔
      ∃ s₁, run exec as s = some s₁ ∧ run exec bs s₁ = some s' := by
  rw [run_append, Option.bind_eq_some_iff]

@[simp] theorem run_singleton {a : α} {s : σ} : run exec [a] s = exec a s := by
  rw [run]
  exact Option.bind_fun_some _

/-- What every action preserves, a run preserves. -/
theorem rel_of_run {R : σ → σ → Prop} (hrefl : ∀ s, R s s)
    (htrans : ∀ s₁ s₂ s₃, R s₁ s₂ → R s₂ s₃ → R s₁ s₃) {as : List α}
    (hstep : ∀ a ∈ as, ∀ s s', exec a s = some s' → R s s') {s s' : σ}
    (h : run exec as s = some s') : R s s' := by
  induction as generalizing s with
  | nil =>
    obtain rfl := Option.some.inj h
    exact hrefl s
  | cons a as ih =>
    obtain ⟨s₁, hexec, hrun⟩ := run_cons_eq_some.mp h
    exact htrans _ _ _ (hstep a List.mem_cons_self _ _ hexec)
      (ih (fun b hb => hstep b (List.mem_cons_of_mem _ hb)) hrun)

/-- **Reconciliation.** Executing the emitted actions reaches the goal of every aspect. -/
theorem run_filterMap {emit : ι → Option α} {goal : ι → σ → Prop} {inv : σ → Prop}
    (hstep : ∀ i a, emit i = some a → ∀ s, inv s →
      ∃ s', exec a s = some s' ∧ inv s' ∧ goal i s' ∧ ∀ j, goal j s → goal j s')
    {is : List ι} {s : σ} (hinv : inv s) (hnone : ∀ i ∈ is, emit i = none → goal i s) :
    ∃ s', run exec (is.filterMap emit) s = some s' ∧ inv s' ∧ (∀ i ∈ is, goal i s') ∧
      ∀ j, goal j s → goal j s' := by
  induction is generalizing s with
  | nil => exact ⟨s, rfl, hinv, by simp, fun _ h => h⟩
  | cons i is ih =>
    cases hemit : emit i with
    | none =>
      have hgoal := hnone i List.mem_cons_self hemit
      obtain ⟨s', hrun, hinv', hgoals, hmono⟩ :=
        ih hinv fun j hj => hnone j (List.mem_cons_of_mem _ hj)
      refine ⟨s', ?_, hinv', ?_, hmono⟩
      · rw [List.filterMap_cons_none hemit, hrun]
      · exact List.forall_mem_cons.mpr ⟨hmono i hgoal, hgoals⟩
    | some a =>
      obtain ⟨s₁, hexec, hinv₁, hgoal, hmono₁⟩ := hstep i a hemit s hinv
      obtain ⟨s', hrun, hinv', hgoals, hmono⟩ :=
        ih hinv₁ fun j hj h => hmono₁ j (hnone j (List.mem_cons_of_mem _ hj) h)
      refine ⟨s', ?_, hinv', ?_, fun j h => hmono j (hmono₁ j h)⟩
      · rw [List.filterMap_cons_some hemit, run_cons_of_some hexec, hrun]
      · exact List.forall_mem_cons.mpr ⟨hmono i hgoal, hgoals⟩

end StakePoolCli.Reconcile
