import Mathlib.Data.List.Sort
import Mathlib.Data.List.FinRange

/-!
# Stable sorting with a partial comparator

A sort that is handed a three-valued comparator `cmp` promises something only where `cmp` orders
the list. Here that is asked at pairs of *distinct positions* only (`OrdersPositions`): nothing is
said of an element compared with itself.

* `StablySorts cmp l out`: `out` is `l` rearranged, in the order of `cmp`, with elements that
  compare equal in their original order.
* `StablySorts.unique`: where `cmp` orders the positions of `l`, there is at most one such list.
* `lastBy p` moves the elements with `p` to the end. It orders the positions of a list with at most
  one of them, and there a stable sort by it is `filter`, twice (`StableSort.sortBy_lastBy`).
* `StableSort`: a sorting function with the proof that it sorts stably wherever its comparator
  orders the positions. `StableSort.insertion` is one, so the structure is inhabited.
-/

namespace StakePoolCli.Sorting

variable {α : Type*}

/-- `cmp` is antisymmetric and transitive on the elements at distinct positions of `l`. -/
structure OrdersPositions (cmp : α → α → Ordering) (l : List α) : Prop where
  antisymm : ∀ (i j : ℕ) (a b : α), i ≠ j → l[i]? = some a → l[j]? = some b →
    cmp a b = (cmp b a).swap
  trans : ∀ (i j k : ℕ) (a b c : α), i ≠ j → j ≠ k → i ≠ k → l[i]? = some a →
    l[j]? = some b → l[k]? = some c → cmp a b ≠ .gt → cmp b c ≠ .gt → cmp a c ≠ .gt

/-- The order of a stable sort, on elements tagged with their original positions: by `cmp`, and
by position among elements that compare equal. -/
def Before (cmp : α → α → Ordering) (a b : α × ℕ) : Prop :=
  cmp a.1 b.1 = .lt ∨ (cmp a.1 b.1 = .eq ∧ a.2 < b.2)

/-- `out` is `l` sorted stably by `cmp`. -/
def StablySorts (cmp : α → α → Ordering) (l out : List α) : Prop :=
  ∃ p : List (α × ℕ), p.Perm l.zipIdx ∧ p.map Prod.fst = out ∧ p.Pairwise (Before cmp)

theorem Before.ne_gt {cmp : α → α → Ordering} {a b : α × ℕ} (h : Before cmp a b) :
    cmp a.1 b.1 ≠ .gt := by
  rcases h with h | ⟨h, -⟩ <;> simp [h]

/-- Two tagged elements cannot come before each other. -/
theorem Before.asymm {cmp : α → α → Ordering} {l : List α} (hcmp : OrdersPositions cmp l)
    {a b : α × ℕ} (ha : a ∈ l.zipIdx) (hb : b ∈ l.zipIdx) (hne : a.2 ≠ b.2)
    (h : Before cmp a b) : ¬ Before cmp b a := by
  rw [List.mem_zipIdx_iff_getElem?] at ha hb
  have hswap := hcmp.antisymm _ _ _ _ hne ha hb
  rcases h with h | ⟨h, hlt⟩
  · rintro (h' | ⟨h', -⟩) <;> rw [h, h'] at hswap <;> cases hswap
  · rintro (h' | ⟨-, hlt'⟩)
    · rw [h, h'] at hswap
      cases hswap
    · omega

/-- **A stable sort is unique** where the comparator orders the positions. -/
theorem StablySorts.unique {cmp : α → α → Ordering} {l out out' : List α}
    (hcmp : OrdersPositions cmp l) (h : StablySorts cmp l out) (h' : StablySorts cmp l out') :
    out = out' := by
  obtain ⟨p, hp, rfl, hs⟩ := h
  obtain ⟨p', hp', rfl, hs'⟩ := h'
  rw [List.Perm.eq_of_pairwise ?_ hs hs' (hp.trans hp'.symm)]
  intro a b ha hb hab hba
  have ha' := hp.mem_iff.mp ha
  have hb' := hp'.mem_iff.mp hb
  by_cases hne : a.2 = b.2
  · rw [List.mem_zipIdx_iff_getElem?] at ha' hb'
    exact Prod.ext (by rw [hne, hb'] at ha'; exact (Option.some.inj ha').symm) hne
  · exact absurd hba (Before.asymm hcmp ha' hb' hne hab)

/-- A sorting function that sorts stably wherever its comparator orders the positions. -/
structure StableSort (α : Type*) where
  sortBy : (α → α → Ordering) → List α → List α
  stable : ∀ cmp l, OrdersPositions cmp l → StablySorts cmp l (sortBy cmp l)

/-! ## Moving one element to the end -/

/-- The comparator that puts the elements with `p` last and says nothing of the others. With two
of them it is not antisymmetric. -/
def lastBy (p : α → Bool) (a b : α) : Ordering :=
  if p a then .gt else if p b then .lt else .eq

/-- At most one element has `p`: no two positions do. -/
theorem countP_le_one_iff {p : α → Bool} {l : List α} :
    l.countP p ≤ 1 ↔ l.Pairwise fun a b => ¬ (p a ∧ p b) := by
  induction l with
  | nil => simp
  | cons a l ih =>
    rw [List.pairwise_cons, ← ih, List.countP_cons]
    cases ha : p a with
    | false => simp
    | true =>
      have hzero : l.countP p + 1 ≤ 1 ↔ ∀ b ∈ l, ¬ p b = true := by
        rw [← List.countP_eq_zero]
        omega
      simp only [if_true, true_and, hzero]
      constructor
      · exact fun h => ⟨h, (List.countP_eq_zero.mpr h).trans_le (Nat.zero_le 1)⟩
      · exact fun h => h.1

section

variable {p : α → Bool} {l : List α}

theorem not_both_of_countP_le_one (h : l.countP p ≤ 1) {i j : ℕ} {a b : α} (hij : i ≠ j)
    (ha : l[i]? = some a) (hb : l[j]? = some b) : ¬ (p a = true ∧ p b = true) := by
  rw [countP_le_one_iff, List.pairwise_iff_getElem] at h
  obtain ⟨hi, rfl⟩ := List.getElem?_eq_some_iff.mp ha
  obtain ⟨hj, rfl⟩ := List.getElem?_eq_some_iff.mp hb
  rcases Nat.lt_or_gt_of_ne hij with hlt | hlt
  · exact h i j hi hj hlt
  · exact fun ⟨h₁, h₂⟩ => h j i hj hi hlt ⟨h₂, h₁⟩

/-- With at most one element to move, the comparator orders the positions. -/
theorem ordersPositions_lastBy (h : l.countP p ≤ 1) : OrdersPositions (lastBy p) l where
  antisymm i j a b hij ha hb := by
    have hnot := not_both_of_countP_le_one h hij ha hb
    unfold lastBy
    cases hpa : p a <;> cases hpb : p b <;> simp_all
  trans i j k a b c hij hjk _ ha hb hc hab hbc := by
    unfold lastBy at *
    cases hpa : p a <;> cases hpb : p b <;> simp_all

/-- **Moving one element to the end.** A stable sort by the comparator keeps the other elements in
their order and puts the element with `p`, if there is one, behind them. -/
theorem StableSort.sortBy_lastBy (sort : StableSort α) (h : l.countP p ≤ 1) :
    sort.sortBy (lastBy p) l = l.filter (! p ·) ++ l.filter p := by
  apply (sort.stable _ _ (ordersPositions_lastBy h)).unique (ordersPositions_lastBy h)
  have hfilter : ∀ q : α → Bool, (l.zipIdx.filter (q ·.1)).map Prod.fst = l.filter q := fun q => by
    have hmap : (l.zipIdx.map Prod.fst).filter q =
        (l.zipIdx.filter (q ∘ Prod.fst)).map Prod.fst := List.filter_map
    rw [List.zipIdx_map_fst] at hmap
    exact hmap.symm
  have hidx : l.zipIdx.Pairwise fun a b => a.2 < b.2 := by
    rw [List.pairwise_iff_getElem]
    intro i j hi hj hij
    simpa using hij
  refine ⟨l.zipIdx.filter (! p ·.1) ++ l.zipIdx.filter (p ·.1), ?_, ?_, ?_⟩
  · exact List.perm_append_comm.trans (List.filter_append_perm (p ·.1) l.zipIdx)
  · rw [List.map_append, hfilter (! p ·), hfilter p]
  · rw [List.pairwise_append]
    refine ⟨?_, ?_, fun a ha b hb => ?_⟩
    · refine (hidx.sublist List.filter_sublist).imp_of_mem fun ha hb hlt => .inr ⟨?_, hlt⟩
      rw [List.mem_filter, Bool.not_eq_true'] at ha hb
      simp [lastBy, ha.2, hb.2]
    · have hone : (l.zipIdx.filter (p ·.1)).length ≤ 1 := by
        rw [← List.length_map Prod.fst, hfilter p, ← List.countP_eq_length_filter]
        exact h
      rw [List.pairwise_iff_getElem]
      intro i j _ hj hij
      omega
    · rw [List.mem_filter] at ha hb
      rw [Bool.not_eq_true'] at ha
      exact .inl (by simp [lastBy, ha.2, hb.2])

end

/-! ## Insertion sort of the positions -/

/-- The order of a stable sort on the positions of `l`, made reflexive. -/
def PositionLE (cmp : α → α → Ordering) (l : List α) (i j : Fin l.length) : Prop :=
  i = j ∨ Before cmp (l.get i, i.val) (l.get j, j.val)

instance (cmp : α → α → Ordering) (l : List α) : DecidableRel (PositionLE cmp l) :=
  fun _ _ => inferInstanceAs (Decidable (_ ∨ (_ ∨ (_ ∧ _))))

/-- Insertion sort of the positions. -/
def insertionBy (cmp : α → α → Ordering) (l : List α) : List α :=
  ((List.finRange l.length).insertionSort (PositionLE cmp l)).map l.get

section

variable {cmp : α → α → Ordering} {l : List α} (hcmp : OrdersPositions cmp l)
include hcmp

theorem cmp_get_swap {i j : Fin l.length} (h : i ≠ j) :
    cmp (l.get i) (l.get j) = (cmp (l.get j) (l.get i)).swap :=
  hcmp.antisymm i j _ _ (fun h' => h (Fin.ext h')) (by simp) (by simp)

theorem positionLE_total (i j : Fin l.length) : PositionLE cmp l i j ∨ PositionLE cmp l j i := by
  by_cases h : i = j
  · exact .inl (.inl h)
  have hswap := cmp_get_swap hcmp h
  have hval : i.val ≠ j.val := fun h' => h (Fin.ext h')
  cases hc : cmp (l.get j) (l.get i) with
  | lt => exact .inr (.inr (.inl hc))
  | gt => exact .inl (.inr (.inl (by rw [hswap, hc]; rfl)))
  | eq =>
    rw [hc] at hswap
    rcases Nat.lt_or_gt_of_ne hval with hlt | hlt
    · exact .inl (.inr (.inr ⟨hswap, hlt⟩))
    · exact .inr (.inr (.inr ⟨hc, hlt⟩))

theorem positionLE_trans {i j k : Fin l.length} (hij : PositionLE cmp l i j)
    (hjk : PositionLE cmp l j k) : PositionLE cmp l i k := by
  rcases hij with rfl | hij
  · exact hjk
  rcases hjk with rfl | hjk
  · exact .inr hij
  by_cases hne : i = j
  · exact hne ▸ .inr hjk
  by_cases hne' : j = k
  · exact hne' ▸ .inr hij
  by_cases hne'' : i = k
  · exact .inl hne''
  have hvals : i.val ≠ j.val ∧ j.val ≠ k.val ∧ i.val ≠ k.val :=
    ⟨fun h => hne (Fin.ext h), fun h => hne' (Fin.ext h), fun h => hne'' (Fin.ext h)⟩
  have htrans := fun (a b c : Fin l.length) (h₁ : a.val ≠ b.val) (h₂ : b.val ≠ c.val)
      (h₃ : a.val ≠ c.val) => hcmp.trans a b c (l.get a) (l.get b) (l.get c) h₁ h₂ h₃
        (by simp) (by simp) (by simp)
  have hle : cmp (l.get i) (l.get k) ≠ .gt :=
    htrans i j k hvals.1 hvals.2.1 hvals.2.2 hij.ne_gt hjk.ne_gt
  cases hc : cmp (l.get i) (l.get k) with
  | lt => exact .inr (.inl hc)
  | gt => exact absurd hc hle
  | eq =>
    -- if `i` and `k` compare equal, so do `i` and `j`, and `j` and `k`
    have hki : cmp (l.get k) (l.get i) = .eq := by
      rw [cmp_get_swap hcmp (Ne.symm hne''), hc]
      rfl
    have hki' : cmp (l.get k) (l.get i) ≠ .gt := by
      rw [hki]
      decide
    have hji : cmp (l.get j) (l.get i) ≠ .gt :=
      htrans j k i hvals.2.1 (Ne.symm hvals.2.2) (Ne.symm hvals.1) hjk.ne_gt hki'
    have hkj : cmp (l.get k) (l.get j) ≠ .gt :=
      htrans k i j (Ne.symm hvals.2.2) hvals.1 (Ne.symm hvals.2.1) hki' hij.ne_gt
    rcases hij with h | ⟨-, hij⟩
    · simp only at h
      rw [cmp_get_swap hcmp (Ne.symm hne), h] at hji
      exact absurd rfl hji
    rcases hjk with h | ⟨-, hjk⟩
    · simp only at h
      rw [cmp_get_swap hcmp (Ne.symm hne'), h] at hkj
      exact absurd rfl hkj
    exact .inr (.inr ⟨hc, hij.trans hjk⟩)

theorem stablySorts_insertionBy : StablySorts cmp l (insertionBy cmp l) := by
  have : Std.Total (PositionLE cmp l) := ⟨positionLE_total hcmp⟩
  have : IsTrans (Fin l.length) (PositionLE cmp l) := ⟨fun _ _ _ => positionLE_trans hcmp⟩
  set s := (List.finRange l.length).insertionSort (PositionLE cmp l) with hs
  have hperm : s.Perm (List.finRange l.length) := List.perm_insertionSort _ _
  have hnodup : s.Nodup := hperm.nodup_iff.mpr (List.nodup_finRange _)
  refine ⟨s.map fun i => (l.get i, i.val), ?_, by simp [insertionBy, hs], ?_⟩
  · have : l.zipIdx = (List.finRange l.length).map fun i => (l.get i, i.val) := by
      apply List.ext_getElem (by simp)
      intro i h₁ h₂
      simp
    rw [this]
    exact hperm.map _
  · rw [List.pairwise_map]
    refine (List.pairwise_insertionSort (PositionLE cmp l) _).imp₂ (fun i j hle hne => ?_) hnodup
    exact hle.resolve_left hne

end

/-- Insertion sort is a stable sort. -/
def StableSort.insertion : StableSort α where
  sortBy := insertionBy
  stable _ _ h := stablySorts_insertionBy h

end StakePoolCli.Sorting
