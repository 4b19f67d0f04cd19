import Mathlib.Data.Set.Insert
import Mathlib.Order.BooleanAlgebra.Set

/-!
# A roster, and the actions that bring it in line

Of the keys that a roster knows, some are live. A new key can be added, which is live then, and a
live key can be removed, which stays known. A key that is known and not live is dead: it can not be
added.

A roster is brought in line with a set of wanted keys by adding wanted keys and removing others.
`Progress wanted r r'` is what such actions achieve, in whatever number and order: no wanted key
stops being live, no other key becomes live, no wanted key dies. It is reflexive and transitive,
and it survives when dead keys are forgotten (`Progress.of_forgets`).

Once every wanted key that was missing has been added and every other key that was live has been
removed, the roster is in line (`Runs.inLine`): it is live in the wanted keys that are not dead
(`InLine.live_eq`). If what was missing is told from an older roster, of which dead keys have been
forgotten since, it is live in the wanted keys that were not dead then (`Runs.live_eq_of_forgets`).
-/

namespace StakePoolCli

/-- The known keys and, among them, the live ones. -/
@[ext] structure Roster (κ : Type*) where
  known : Set κ
  live : Set κ
  live_subset : live ⊆ known

namespace Roster

variable {κ : Type*}

inductive Action (κ : Type*)
  | add (k : κ)
  | remove (k : κ)

/-- The actions that serve a set of wanted keys: a wanted key may be added, another one removed. -/
def Action.Serves (wanted : Set κ) : Action κ → Prop
  | add k => k ∈ wanted
  | remove k => k ∉ wanted

def add (r : Roster κ) (k : κ) : Roster κ where
  known := insert k r.known
  live := insert k r.live
  live_subset := Set.insert_subset_insert r.live_subset

def remove (r : Roster κ) (k : κ) : Roster κ where
  known := r.known
  live := r.live \ {k}
  live_subset := Set.sdiff_subset.trans r.live_subset

/-- The known keys that are not live. -/
def dead (r : Roster κ) : Set κ := r.known \ r.live

/-- What an action does when it is possible. -/
inductive Does : Action κ → Roster κ → Roster κ → Prop
  | add {r : Roster κ} {k : κ} (h : k ∉ r.known) : Does (.add k) r (r.add k)
  | remove {r : Roster κ} {k : κ} (h : k ∈ r.live) : Does (.remove k) r (r.remove k)

/-- Some dead keys are forgotten, and nothing else happens. -/
structure Forgets (r r' : Roster κ) : Prop where
  live_eq : r'.live = r.live
  known_subset : r'.known ⊆ r.known

theorem Forgets.refl (r : Roster κ) : r.Forgets r := ⟨rfl, subset_rfl⟩

theorem Forgets.trans {r₁ r₂ r₃ : Roster κ} (h : r₁.Forgets r₂) (h' : r₂.Forgets r₃) :
    r₁.Forgets r₃ where
  live_eq := h'.live_eq.trans h.live_eq
  known_subset := h'.known_subset.trans h.known_subset

variable {wanted : Set κ} {r r₁ r₂ r' : Roster κ} {a : Action κ} {k : κ}

@[simp] theorem mem_known_add {k' : κ} : k' ∈ (r.add k).known ↔ k' = k ∨ k' ∈ r.known := Iff.rfl

@[simp] theorem mem_live_add {k' : κ} : k' ∈ (r.add k).live ↔ k' = k ∨ k' ∈ r.live := Iff.rfl

@[simp] theorem known_remove : (r.remove k).known = r.known := rfl

@[simp] theorem mem_live_remove {k' : κ} : k' ∈ (r.remove k).live ↔ k' ∈ r.live ∧ k' ≠ k := Iff.rfl

@[simp] theorem mem_dead : k ∈ r.dead ↔ k ∈ r.known ∧ k ∉ r.live := Iff.rfl

theorem Does.live_of_remove (h : Does (.remove k) r r') : k ∈ r.live := by
  cases h with
  | remove hlive => exact hlive

/-! ## Progress -/

/-- What serving a set of wanted keys achieves. -/
structure Progress (wanted : Set κ) (r r' : Roster κ) : Prop where
  live_of_wanted : ∀ k ∈ wanted, k ∈ r.live → k ∈ r'.live
  live_of_notWanted : ∀ k ∉ wanted, k ∈ r'.live → k ∈ r.live
  dead_of_wanted : ∀ k ∈ wanted, k ∈ r'.dead → k ∈ r.dead

namespace Progress

theorem refl (wanted : Set κ) (r : Roster κ) : Progress wanted r r :=
  ⟨fun _ _ h => h, fun _ _ h => h, fun _ _ h => h⟩

theorem trans (h : Progress wanted r r₁) (h' : Progress wanted r₁ r₂) : Progress wanted r r₂ where
  live_of_wanted k hk hlive := h'.live_of_wanted k hk (h.live_of_wanted k hk hlive)
  live_of_notWanted k hk hlive := h.live_of_notWanted k hk (h'.live_of_notWanted k hk hlive)
  dead_of_wanted k hk hdead := h.dead_of_wanted k hk (h'.dead_of_wanted k hk hdead)

theorem of_forgets (h : r.Forgets r') : Progress wanted r r' where
  live_of_wanted _ _ hlive := h.live_eq ▸ hlive
  live_of_notWanted _ _ hlive := h.live_eq ▸ hlive
  dead_of_wanted _ _ hdead := ⟨h.known_subset hdead.1, h.live_eq ▸ hdead.2⟩

/-- An action that serves the wanted keys is progress. -/
theorem of_does (h : Does a r r') (hserves : a.Serves wanted) : Progress wanted r r' := by
  cases h with
  | add hnew =>
    refine ⟨fun k' _ hlive => .inr hlive, fun k' hout hlive => ?_, fun k' _ hdead => ?_⟩
    · rcases hlive with rfl | hlive
      · exact absurd hserves hout
      · exact hlive
    · rcases hdead.1 with rfl | hknown
      · exact absurd (.inl rfl) hdead.2
      · exact ⟨hknown, fun hlive => hdead.2 (.inr hlive)⟩
  | remove hlive =>
    refine ⟨fun k' hk' hlive' => ⟨hlive', ?_⟩, fun k' _ hlive' => hlive'.1, fun k' hk' hdead => ?_⟩
    · rintro rfl
      exact hserves hk'
    · refine ⟨hdead.1, fun hlive' => hdead.2 ⟨hlive', ?_⟩⟩
      rintro rfl
      exact hserves hk'

end Progress

/-! ## Actions in a row -/

/-- Actions carried out one after the other. -/
inductive Runs : List (Action κ) → Roster κ → Roster κ → Prop
  | nil (r : Roster κ) : Runs [] r r
  | cons {a : Action κ} {as : List (Action κ)} {r r₁ r₂ : Roster κ} (h : Does a r r₁)
      (h' : Runs as r₁ r₂) : Runs (a :: as) r r₂

namespace Runs

variable {as bs : List (Action κ)}

theorem append (h : Runs as r r₁) (h' : Runs bs r₁ r₂) : Runs (as ++ bs) r r₂ := by
  induction h with
  | nil => exact h'
  | cons h _ ih => exact .cons h (ih h')

theorem progress (h : Runs as r r') (hserve : ∀ a ∈ as, a.Serves wanted) :
    Progress wanted r r' := by
  induction h with
  | nil r => exact .refl wanted r
  | cons h _ ih =>
    exact (Progress.of_does h (hserve _ List.mem_cons_self)).trans
      (ih fun a ha => hserve a (List.mem_cons_of_mem _ ha))

/-- A known key stays known. -/
theorem known_subset (h : Runs as r r') : r.known ⊆ r'.known := by
  induction h with
  | nil => exact subset_rfl
  | cons h _ ih =>
    cases h with
    | add => exact (Set.subset_insert _ _).trans ih
    | remove => exact ih

/-- A dead key stays dead. -/
theorem dead_subset (h : Runs as r r') : r.dead ⊆ r'.dead := by
  induction h with
  | nil => exact subset_rfl
  | cons h _ ih =>
    refine subset_trans ?_ ih
    rintro k ⟨hknown, hlive⟩
    cases h with
    | add hnew =>
      refine ⟨.inr hknown, ?_⟩
      rintro (rfl | hlive')
      · exact hnew hknown
      · exact hlive hlive'
    | remove => exact ⟨hknown, fun hlive' => hlive hlive'.1⟩

theorem mem_known_of_add (h : Runs as r r') (hadd : .add k ∈ as) : k ∈ r'.known := by
  induction h with
  | nil => simp at hadd
  | cons h hrest ih =>
    rcases List.mem_cons.mp hadd with rfl | hadd
    · cases h
      exact hrest.known_subset (.inl rfl)
    · exact ih hadd

theorem mem_dead_of_remove (h : Runs as r r') (hremove : .remove k ∈ as) : k ∈ r'.dead := by
  induction h with
  | nil => simp at hremove
  | cons h hrest ih =>
    rcases List.mem_cons.mp hremove with rfl | hremove
    · cases h with
      | remove hlive =>
        have hknown := Roster.live_subset _ hlive
        exact hrest.dead_subset ⟨hknown, fun hlive' => hlive'.2 rfl⟩
    · exact ih hremove

/-- A dead key was dead before, or has been removed. -/
theorem dead_or_removed (h : Runs as r r') (hdead : k ∈ r'.dead) : k ∈ r.dead ∨ .remove k ∈ as := by
  induction h with
  | nil => exact .inl hdead
  | @cons a as r r₁ r₂ h _ ih =>
    rcases ih hdead with hdead₁ | hremove
    · cases h with
      | add hnew =>
        refine .inl ⟨?_, fun hlive => hdead₁.2 (.inr hlive)⟩
        rcases hdead₁.1 with rfl | hknown
        · exact absurd (.inl rfl) hdead₁.2
        · exact hknown
      | @remove _ k' hlive =>
        by_cases hk : k = k'
        · exact .inr (hk ▸ List.mem_cons_self)
        · exact .inl ⟨hdead₁.1, fun hlive' => hdead₁.2 ⟨hlive', hk⟩⟩
    · exact .inr (List.mem_cons_of_mem _ hremove)

/-- A live key was live before, or has been added. -/
theorem live_or_added (h : Runs as r r') (hlive : k ∈ r'.live) : k ∈ r.live ∨ .add k ∈ as := by
  induction h with
  | nil => exact .inl hlive
  | cons h _ ih =>
    rcases ih hlive with hlive₁ | hadd
    · cases h with
      | add =>
        rcases hlive₁ with rfl | hlive
        · exact .inr List.mem_cons_self
        · exact .inl hlive
      | remove => exact .inl hlive₁.1
    · exact .inr (List.mem_cons_of_mem _ hadd)

end Runs

/-! ## A roster in line -/

/-- Every wanted key is known, and only wanted keys are live. -/
structure InLine (wanted : Set κ) (r : Roster κ) : Prop where
  known : wanted ⊆ r.known
  live : r.live ⊆ wanted

/-- **The live keys** are the wanted ones that are not dead. -/
theorem InLine.live_eq (h : InLine wanted r) : r.live = wanted \ r.dead := by
  ext k
  constructor
  · exact fun hlive => ⟨h.live hlive, fun hdead => hdead.2 hlive⟩
  · rintro ⟨hk, hdead⟩
    by_contra hlive
    exact hdead ⟨h.known hk, hlive⟩

/-- **Bringing a roster in line.** -/
theorem Runs.inLine {as : List (Action κ)} (h : Runs as r r')
    (hserve : ∀ a ∈ as, a.Serves wanted) (hadd : ∀ k ∈ wanted, k ∉ r.known → .add k ∈ as)
    (hremove : ∀ k ∈ r.live, k ∉ wanted → .remove k ∈ as) : InLine wanted r' := by
  constructor
  · intro k hk
    by_cases hknown : k ∈ r.known
    · exact h.known_subset hknown
    · exact h.mem_known_of_add (hadd k hk hknown)
  · intro k hlive
    by_contra hout
    have hlive' := (h.progress hserve).live_of_notWanted k hout hlive
    exact (h.mem_dead_of_remove (hremove k hlive' hout)).2 hlive

/-- **Bringing a roster in line with what it was**, before some dead keys were forgotten. -/
theorem Runs.live_eq_of_forgets {as : List (Action κ)} {r₀ : Roster κ} (hforgets : r₀.Forgets r)
    (h : Runs as r r') (hserve : ∀ a ∈ as, a.Serves wanted)
    (hadd : ∀ k, .add k ∈ as ↔ k ∈ wanted ∧ k ∉ r₀.known)
    (hremove : ∀ k ∈ r₀.live, k ∉ wanted → .remove k ∈ as) : r'.live = wanted \ r₀.dead := by
  have hprogress := h.progress hserve
  ext k
  constructor
  · intro hlive
    rcases h.live_or_added hlive with hlive₀ | hnew
    · rw [hforgets.live_eq] at hlive₀
      refine ⟨?_, fun hdead => hdead.2 hlive₀⟩
      by_contra hout
      exact (h.mem_dead_of_remove (hremove k hlive₀ hout)).2 hlive
    · obtain ⟨hk, hunknown⟩ := (hadd k).mp hnew
      exact ⟨hk, fun hdead => hunknown hdead.1⟩
  · rintro ⟨hk, hdead⟩
    by_cases hlive₀ : k ∈ r₀.live
    · exact hprogress.live_of_wanted k hk (hforgets.live_eq ▸ hlive₀)
    · have hunknown : k ∉ r₀.known := fun hknown => hdead ⟨hknown, hlive₀⟩
      have hknown' := h.mem_known_of_add ((hadd k).mpr ⟨hk, hunknown⟩)
      by_contra hlive
      have hdead' := hprogress.dead_of_wanted k hk ⟨hknown', hlive⟩
      exact hunknown (hforgets.known_subset hdead'.1)

end Roster

end StakePoolCli
