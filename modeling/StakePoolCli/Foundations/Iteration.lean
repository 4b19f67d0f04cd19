import StakePoolCli.Foundations.Checked

/-!
# Stateful iterators that may stop

An iterator is a function `next : σ → Except ε (Option (β × σ))`: from its state it either stops
with an error, or is exhausted, or yields an item and its next state. `take next k s` is the list
of the items of the first `k` calls, with the state after them.

`take_succ_eq_ok` is the inversion that the inductions over a run go by: a run that succeeds begins
with an exhausted iterator, or with an item and a run from the next state. `exists_next_of_take`
looks at a run from its middle: the item at a position is yielded by the state after the items
before it.
-/

universe v

namespace StakePoolCli.Iteration

open Checked

variable {ε : Type*} {σ β : Type v} (next : σ → Except ε (Option (β × σ)))

/-- The items of the first `k` calls of `next`, and the state after them. -/
def take : ℕ → σ → Except ε (List β × σ)
  | 0, s => .ok ([], s)
  | k + 1, s => do
    match ← next s with
    | none => .ok ([], s)
    | some (b, s') =>
      let (bs, s'') ← take k s'
      .ok (b :: bs, s'')

variable {next}

theorem take_succ_of_none {s : σ} (h : next s = .ok none) (k : ℕ) :
    take next (k + 1) s = .ok ([], s) := by
  rw [take, h]
  rfl

theorem take_succ_of_some {s s' : σ} {b : β} (h : next s = .ok (some (b, s'))) (k : ℕ) :
    take next (k + 1) s = (do let (bs, s'') ← take next k s'; .ok (b :: bs, s'')) := by
  rw [take, h]
  rfl

/-- The three ways in which `take` of a successor succeeds. -/
theorem take_succ_eq_ok {s t : σ} {k : ℕ} {bs : List β} :
    take next (k + 1) s = .ok (bs, t) ↔
      (next s = .ok none ∧ bs = [] ∧ t = s) ∨
      ∃ b s' bs', next s = .ok (some (b, s')) ∧ take next k s' = .ok (bs', t) ∧ bs = b :: bs' := by
  cases h : next s with
  | error e => simp [take, h]
  | ok o =>
    cases o with
    | none =>
      rw [take_succ_of_none h]
      simp [eq_comm]
    | some p =>
      obtain ⟨b, s'⟩ := p
      rw [take_succ_of_some h, bind_eq_ok]
      constructor
      · rintro ⟨⟨bs', t'⟩, htake, heq⟩
        obtain ⟨rfl, rfl⟩ := Prod.mk.inj (Except.ok.inj heq)
        exact .inr ⟨b, s', bs', rfl, htake, rfl⟩
      · rintro (⟨h', -⟩ | ⟨_, _, bs', h', htake, rfl⟩)
        · cases h'
        · obtain ⟨rfl, rfl⟩ := Prod.mk.inj (Option.some.inj (Except.ok.inj h'))
          exact ⟨(bs', t), htake, rfl⟩

/-- The item at a position is yielded by the state after the items before it. -/
theorem exists_next_of_take {s t : σ} {k i : ℕ} {bs : List β} {b : β}
    (h : take next k s = .ok (bs, t)) (hb : bs[i]? = some b) :
    ∃ sᵢ sᵢ', take next i s = .ok (bs.take i, sᵢ) ∧ next sᵢ = .ok (some (b, sᵢ')) := by
  induction k generalizing s bs i with
  | zero =>
    obtain ⟨rfl, -⟩ := Prod.mk.inj (Except.ok.inj h)
    cases hb
  | succ k ih =>
    rcases take_succ_eq_ok.mp h with ⟨-, rfl, -⟩ | ⟨b₀, s₁, bs', hnext, htake, rfl⟩
    · cases hb
    cases i with
    | zero =>
      obtain rfl := Option.some.inj hb
      exact ⟨s, s₁, rfl, hnext⟩
    | succ i =>
      obtain ⟨sᵢ, sᵢ', htakeᵢ, hnextᵢ⟩ := ih htake hb
      refine ⟨sᵢ, sᵢ', ?_, hnextᵢ⟩
      rw [take_succ_of_some hnext, htakeᵢ]
      rfl

end StakePoolCli.Iteration
