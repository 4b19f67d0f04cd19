import Mathlib.Data.List.Forall2

/-!
# Numbering a list and keeping a part of it

The elements of a list get their positions, and a function of the two keeps some of them:
`l.zipIdx.filterMap f`. The positions are those from before anything is dropped.

* Where only the element decides whether it is kept, what is kept corresponds in order to the
  elements that are (`forall₂_filterMap_zipIdx`).
* A relation that follows from the order of the positions holds pairwise of what is kept
  (`pairwise_filterMap_zipIdx`).
-/

namespace StakePoolCli.Numbered

variable {α β : Type*} {f : α × ℕ → Option β}

/-- What is kept corresponds in order to the elements that are kept. -/
theorem forall₂_filterMap_zipIdx {R : α → β → Prop} {p : α → Bool}
    (hkept : ∀ a i, p a = true → ∃ b, f (a, i) = some b ∧ R a b)
    (hdropped : ∀ a i, p a = false → f (a, i) = none) (l : List α) (k : ℕ) :
    List.Forall₂ R (l.filter p) ((l.zipIdx k).filterMap f) := by
  induction l generalizing k with
  | nil => exact List.Forall₂.nil
  | cons a l ih =>
    rw [List.zipIdx_cons, List.filter_cons]
    cases ha : p a with
    | true =>
      obtain ⟨b, hb, hR⟩ := hkept a k ha
      rw [if_pos rfl, List.filterMap_cons_some hb]
      exact List.Forall₂.cons hR (ih (k + 1))
    | false =>
      rw [if_neg Bool.false_ne_true, List.filterMap_cons_none (hdropped a k ha)]
      exact ih (k + 1)

/-- The positions are in order. -/
theorem pairwise_zipIdx (l : List α) (k : ℕ) :
    (l.zipIdx k).Pairwise fun x y => x.2 < y.2 := by
  apply List.pairwise_map.mp
  rw [List.zipIdx_map_snd]
  exact List.pairwise_lt_range'

/-- A relation that follows from the order of the positions holds pairwise of what is kept. -/
theorem pairwise_filterMap_zipIdx {R : β → β → Prop} {l : List α}
    (h : ∀ a b i j x y, i < j → j < l.length → f (a, i) = some x → f (b, j) = some y → R x y) :
    (l.zipIdx.filterMap f).Pairwise R := by
  rw [List.pairwise_filterMap]
  apply (pairwise_zipIdx l 0).imp_of_mem
  rintro ⟨a, i⟩ ⟨b, j⟩ - hb hij x hx y hy
  have hj : j < l.length := (List.getElem?_eq_some_iff.mp (List.mem_zipIdx_iff_getElem?.mp hb)).1
  exact h a b i j x y hij hj hx hy

end StakePoolCli.Numbered
