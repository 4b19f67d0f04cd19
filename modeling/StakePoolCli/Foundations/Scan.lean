import Mathlib.Tactic.Common

/-!
# Scans of a list

Two loops over a list and what they return.

* `maxByKey` returns an element with the largest key, the last one of several (`maxByKey_eq_some`).
* `firstOf` makes an attempt for one element after the other and returns what the first one yields
  (`firstOf_eq_ok`). When no attempt can fail it fails iff all of them yield nothing
  (`firstOf_eq_error`).
-/

namespace StakePoolCli.Scan

/-! ## The last of the largest -/

section

variable {α κ : Type*} [LE κ] [DecidableLE κ] (key : α → κ)

/-- `Iterator::max_by_key` -/
def maxByKey : List α → Option α
  | [] => none
  | a :: l => some (l.foldl (fun x y => if key x ≤ key y then y else x) a)

variable [LT κ]

/-- The key of `a` is the largest one, and smaller ones follow. -/
def IsLastMax (l : List α) (a : α) : Prop :=
  ∃ before after, l = before ++ a :: after ∧ (∀ b ∈ before, key b ≤ key a) ∧
    ∀ b ∈ after, key b < key a

variable {key} [Std.IsLinearOrder κ] [Std.LawfulOrderLT κ] {l : List α} {a b : α}

namespace IsLastMax

omit [DecidableLE κ] [Std.IsLinearOrder κ] [Std.LawfulOrderLT κ] in
theorem mem (h : IsLastMax key l a) : a ∈ l := by
  obtain ⟨before, after, rfl, -, -⟩ := h
  exact List.mem_append_right _ List.mem_cons_self

omit [DecidableLE κ] in
theorem le (h : IsLastMax key l a) (hb : b ∈ l) : key b ≤ key a := by
  obtain ⟨before, after, rfl, hbefore, hafter⟩ := h
  rcases List.mem_append.mp hb with hb | hb
  · exact hbefore b hb
  · rcases List.mem_cons.mp hb with rfl | hb
    · exact Std.le_refl _
    · exact Std.le_of_lt (hafter b hb)

omit [DecidableLE κ] [Std.IsLinearOrder κ] [Std.LawfulOrderLT κ] in
/-- A key that is not larger may come first. -/
theorem cons (h : IsLastMax key l a) (hb : key b ≤ key a) : IsLastMax key (b :: l) a := by
  obtain ⟨before, after, rfl, hbefore, hafter⟩ := h
  exact ⟨b :: before, after, rfl, List.forall_mem_cons.mpr ⟨hb, hbefore⟩, hafter⟩

omit [DecidableLE κ] in
/-- A smaller key may follow the first one. -/
theorem insert {c : α} (h : IsLastMax key (b :: l) a) (hc : key c < key b) :
    IsLastMax key (b :: c :: l) a := by
  have hle := h.le List.mem_cons_self
  obtain ⟨before, after, heq, hbefore, hafter⟩ := h
  cases before with
  | nil =>
    obtain ⟨rfl, rfl⟩ := List.cons.inj heq
    exact ⟨[], c :: l, rfl, by simp, List.forall_mem_cons.mpr ⟨hc, hafter⟩⟩
  | cons b' before =>
    obtain ⟨rfl, rfl⟩ := List.cons.inj heq
    refine ⟨b :: c :: before, after, rfl, ?_, hafter⟩
    rw [List.forall_mem_cons] at hbefore
    exact List.forall_mem_cons.mpr ⟨hle,
      List.forall_mem_cons.mpr ⟨Std.le_trans (Std.le_of_lt hc) hle, hbefore.2⟩⟩

omit [DecidableLE κ] in
theorem unique (h : IsLastMax key l a) (h' : IsLastMax key l b) : a = b := by
  have hba := h.le h'.mem
  have hab := h'.le h.mem
  obtain ⟨before, after, heq, -, hafter⟩ := h
  obtain ⟨before', after', heq', -, hafter'⟩ := h'
  rcases List.append_eq_append_iff.mp (heq.symm.trans heq') with
    ⟨rest, rfl, hrest⟩ | ⟨rest, rfl, hrest⟩
  · cases rest with
    | nil => exact (List.cons.inj hrest).1
    | cons c rest =>
      obtain ⟨-, rfl⟩ := List.cons.inj hrest
      exact absurd hab (Std.not_le.mpr (hafter b (by simp)))
  · cases rest with
    | nil => exact (List.cons.inj hrest).1.symm
    | cons c rest =>
      obtain ⟨-, rfl⟩ := List.cons.inj hrest
      exact absurd hba (Std.not_le.mpr (hafter' a (by simp)))

end IsLastMax

theorem isLastMax_foldl (a : α) (l : List α) :
    IsLastMax key (a :: l) (l.foldl (fun x y => if key x ≤ key y then y else x) a) := by
  induction l generalizing a with
  | nil => exact ⟨[], [], rfl, by simp, by simp⟩
  | cons b l ih =>
    rw [List.foldl_cons]
    split_ifs with hle
    · exact (ih b).cons (Std.le_trans hle ((ih b).le List.mem_cons_self))
    · exact (ih a).insert (Std.not_le.mp hle)

/-- **The last of the largest** is returned, if there is any element. -/
theorem maxByKey_eq_some : maxByKey key l = some a ↔ IsLastMax key l a := by
  constructor
  · intro h
    cases l with
    | nil => cases h
    | cons b l =>
      obtain rfl := Option.some.inj h
      exact isLastMax_foldl b l
  · intro h
    cases l with
    | nil => cases h.mem
    | cons b l => exact congrArg some ((isLastMax_foldl b l).unique h)

end

/-! ## The first attempt that yields something -/

section

variable {α β ε : Type*}

/-- A loop that returns as soon as an attempt yields something, and fails at its end. -/
def firstOf (f : α → Except ε (Option β)) (e : ε) : List α → Except ε β
  | [] => .error e
  | a :: l =>
    match f a with
    | .error e' => .error e'
    | .ok (some b) => .ok b
    | .ok none => firstOf f e l

variable {f : α → Except ε (Option β)} {e e' : ε} {l : List α} {b : β}

theorem firstOf_eq_ok : firstOf f e l = .ok b ↔ ∃ before a after, l = before ++ a :: after ∧
    (∀ a' ∈ before, f a' = .ok none) ∧ f a = .ok (some b) := by
  induction l with
  | nil => simp [firstOf]
  | cons a l ih =>
    rw [firstOf]
    constructor
    · intro h
      split at h
      · cases h
      · rename_i hfa
        obtain rfl := Except.ok.inj h
        exact ⟨[], a, l, rfl, by simp, hfa⟩
      · rename_i hfa
        obtain ⟨before, a', after, rfl, hnone, hsome⟩ := ih.mp h
        exact ⟨a :: before, a', after, rfl, List.forall_mem_cons.mpr ⟨hfa, hnone⟩, hsome⟩
    · rintro ⟨before, a', after, heq, hnone, hsome⟩
      cases before with
      | nil =>
        obtain ⟨rfl, rfl⟩ := List.cons.inj heq
        rw [hsome]
      | cons a'' before =>
        obtain ⟨rfl, rfl⟩ := List.cons.inj heq
        obtain ⟨hfa, hnone⟩ := List.forall_mem_cons.mp hnone
        rw [hfa]
        exact ih.mpr ⟨before, a', after, rfl, hnone, hsome⟩

/-- The same over numbered attempts. -/
theorem firstOf_range_eq_ok {n : ℕ} {g : ℕ → α} :
    firstOf f e ((List.range n).map g) = .ok b ↔
      ∃ i < n, (∀ j < i, f (g j) = .ok none) ∧ f (g i) = .ok (some b) := by
  rw [firstOf_eq_ok]
  constructor
  · rintro ⟨before, a, after, heq, hnone, hsome⟩
    have hlength : n = before.length + (after.length + 1) := by
      simpa using congrArg List.length heq
    have hget : ∀ i < n, ((List.range n).map g)[i]? = some (g i) := by
      intro i hi
      rw [List.getElem?_map, List.getElem?_range hi, Option.map_some]
    refine ⟨before.length, by omega, fun j hj => ?_, ?_⟩
    · have hj' := hget j (by omega)
      rw [heq, List.getElem?_append_left hj] at hj'
      exact hnone _ (List.mem_of_getElem? hj')
    · have hi := hget before.length (by omega)
      rw [heq, List.getElem?_append_right (Nat.le_refl _), Nat.sub_self] at hi
      rw [← hsome, ← Option.some.inj hi]
  · rintro ⟨i, hi, hnone, hsome⟩
    refine ⟨(List.range i).map g, g i, (List.range' (i + 1) (n - i - 1)).map g, ?_, ?_, hsome⟩
    · have hsplit : List.range n = List.range i ++ i :: List.range' (i + 1) (n - i - 1) := by
        rw [← List.range'_succ, List.range_eq_range', List.range_eq_range']
        have happend := List.range'_append_1 (s := 0) (m := i) (n := n - i - 1 + 1)
        rw [Nat.zero_add] at happend
        rw [happend]
        congr 1
        omega
      rw [hsplit, List.map_append, List.map_cons]
    · intro a ha
      obtain ⟨j, hj, rfl⟩ := List.mem_map.mp ha
      exact hnone j (List.mem_range.mp hj)

/-- **The loop runs out** iff no attempt yields anything. -/
theorem firstOf_eq_error (hf : ∀ a ∈ l, ∃ o, f a = .ok o) :
    firstOf f e l = .error e' ↔ e' = e ∧ ∀ a ∈ l, f a = .ok none := by
  induction l with
  | nil => simp [firstOf, eq_comm]
  | cons a l ih =>
    obtain ⟨⟨o, ho⟩, hf⟩ := List.forall_mem_cons.mp hf
    rw [firstOf, ho, List.forall_mem_cons, ho]
    cases o with
    | none => simpa using ih hf
    | some b => simp

end

end StakePoolCli.Scan
