import Mathlib.Data.List.ReduceOption
import Mathlib.Data.List.Forall2

/-!
# Selecting from a list and from what becomes of it

An update of a list is given by its outcomes, one for each element: what becomes of it, or `none`
when it is dropped. The updated list is `os.reduceOption`.

`map_filter_eq_iff`: where no outcome is selected whose origin is not, the selected elements of the
list and of the updated list have the same images exactly when every selected element stays
selected with its own image. Nothing can make up for an element that drops out, since the second
selection is never longer than the first (`length_filter_reduceOption_le`).
-/

namespace StakePoolCli.Outcomes

variable {α β : Type*} {R : α → Option α → Prop} {p : α → Bool}

theorem filter_reduceOption_cons_of_neg {o : Option α} (os : List (Option α))
    (h : ∀ b, o = some b → ¬ p b = true) :
    (o :: os).reduceOption.filter p = os.reduceOption.filter p := by
  cases o with
  | none => rw [List.reduceOption_cons_of_none]
  | some b => rw [List.reduceOption_cons_of_some, List.filter_cons_of_neg (h b rfl)]

theorem filter_reduceOption_cons_of_pos {b : α} (os : List (Option α)) (h : p b = true) :
    (some b :: os).reduceOption.filter p = b :: os.reduceOption.filter p := by
  rw [List.reduceOption_cons_of_some, List.filter_cons_of_pos h]

/-- The ways an outcome can be selected or not. -/
theorem selected_or_not (p : α → Bool) (o : Option α) :
    (∃ b, o = some b ∧ p b = true) ∨ ∀ b, o = some b → ¬ p b = true := by
  by_cases h : ∃ b, o = some b ∧ p b = true
  · exact .inl h
  · exact .inr fun b hb hp => h ⟨b, hb, hp⟩

/-- What holds of every element holds of every element with its outcome. -/
theorem forall_mem_zip_fst {P : α → Prop} {l : List α} {l' : List β} (h : l.length = l'.length) :
    (∀ x ∈ l.zip l', P x.1) ↔ ∀ a ∈ l, P a := by
  conv_rhs => rw [← List.map_fst_zip (Nat.le_of_eq h)]
  exact List.forall_mem_map.symm

variable (hsel : ∀ a b, R a (some b) → p b = true → p a = true)
include hsel

/-- No more outcomes are selected than elements. -/
theorem length_filter_reduceOption_le {l : List α} {os : List (Option α)}
    (hR : List.Forall₂ R l os) :
    (os.reduceOption.filter p).length ≤ (l.filter p).length := by
  induction hR with
  | nil => exact Nat.le_refl _
  | @cons a o l os hao _ ih =>
    rcases selected_or_not p o with ⟨b, rfl, hb⟩ | hnot
    · rw [filter_reduceOption_cons_of_pos os hb, List.filter_cons_of_pos (hsel a b hao hb)]
      exact Nat.succ_le_succ ih
    · rw [filter_reduceOption_cons_of_neg os hnot]
      exact Nat.le_trans ih ((List.sublist_cons_self a l).filter p).length_le

/-- **The selections agree** iff every selected element stays selected, with its own image. -/
theorem map_filter_eq_iff {f : α → β} {l : List α} {os : List (Option α)}
    (hR : List.Forall₂ R l os) :
    (l.filter p).map f = (os.reduceOption.filter p).map f ↔
      ∀ x ∈ l.zip os, p x.1 = true → ∃ b, x.2 = some b ∧ p b = true ∧ f x.1 = f b := by
  induction hR with
  | nil => exact iff_of_true rfl (by simp)
  | @cons a o l os hao hR ih =>
    rw [List.zip_cons_cons, List.forall_mem_cons]
    cases ha : p a with
    | false =>
      have hnot : ∀ b, o = some b → ¬ p b = true := by
        rintro b rfl hb
        rw [hsel a b hao hb] at ha
        cases ha
      rw [filter_reduceOption_cons_of_neg os hnot, List.filter_cons_of_neg (by simp [ha]), ih]
      exact (and_iff_right fun h => nomatch h).symm
    | true =>
      rw [List.filter_cons_of_pos ha]
      rcases selected_or_not p o with ⟨b, rfl, hb⟩ | hnot
      · rw [filter_reduceOption_cons_of_pos os hb, List.map_cons, List.map_cons,
          List.cons.injEq, ih]
        simp [hb]
      · -- the second selection is too short
        rw [filter_reduceOption_cons_of_neg os hnot]
        refine iff_of_false (fun heq => ?_) fun ⟨h, _⟩ => ?_
        · have hlen := congrArg List.length heq
          have hle := length_filter_reduceOption_le hsel hR
          simp only [List.length_map, List.length_cons] at hlen
          omega
        · obtain ⟨b, hb, hp, -⟩ := h rfl
          exact hnot b hb hp

end StakePoolCli.Outcomes
