import Mathlib.Data.List.Basic
import Mathlib.Data.List.Nodup

/-!
# Keeping a list in line with a set of keys

A list of keyed entries, some of them live, is compared with the keys that are wanted. `missing` are
the wanted keys without an entry, `surplus` the live entries whose key is not wanted. An entry that
is not live keeps its key from being missing.

When the surplus stops being live and a live entry is appended for each missing key (`Applied`), the
keys stay distinct (`Applied.nodup_keys`), the live entries are those of the wanted keys that had no
entry which was not live (`Applied.exists_live_iff`), and nothing is missing or surplus any more
(`Applied.missing_eq_nil`, `Applied.surplus_eq_nil`).
-/

namespace StakePoolCli.KeySync

variable {κ ε : Type*} (key : ε → κ) (live : ε → Prop)

section

variable [DecidableEq κ] [DecidablePred live]

def missing (wanted : List κ) (entries : List ε) : List κ :=
  wanted.filter fun k => ¬ entries.any fun e => key e = k

def surplus (wanted : List κ) (entries : List ε) : List ε :=
  entries.filter fun e => live e ∧ key e ∉ wanted

end

/-- `entries'` is `entries` without the removed ones being live, and with a live entry for each key
that is added. -/
def Applied (added : List κ) (removed entries entries' : List ε) : Prop :=
  ∃ kept appended, entries' = kept ++ appended ∧
    List.Forall₂ (fun e e' => key e' = key e ∧ (live e' ↔ live e ∧ e ∉ removed)) entries kept ∧
    List.Forall₂ (fun k e => key e = k ∧ live e) added appended

variable {key live} {wanted : List κ} {entries entries' : List ε}

section

variable [DecidableEq κ] [DecidablePred live]

theorem mem_missing {k : κ} :
    k ∈ missing key wanted entries ↔ k ∈ wanted ∧ ∀ e ∈ entries, key e ≠ k := by
  simp [missing]

theorem mem_surplus {e : ε} :
    e ∈ surplus key live wanted entries ↔ e ∈ entries ∧ live e ∧ key e ∉ wanted := by
  simp [surplus]

/-- Nothing is added and removed at once. -/
theorem key_notMem_missing {e : ε} (h : e ∈ surplus key live wanted entries) :
    key e ∉ missing key wanted entries := by
  intro hmissing
  exact (mem_surplus.mp h).2.2 (mem_missing.mp hmissing).1

theorem missing_eq_nil (h : ∀ k ∈ wanted, ∃ e ∈ entries, key e = k) :
    missing key wanted entries = [] := by
  rw [List.eq_nil_iff_forall_not_mem]
  intro k hk
  obtain ⟨hwanted, hnone⟩ := mem_missing.mp hk
  obtain ⟨e, he, hkey⟩ := h k hwanted
  exact hnone e he hkey

theorem surplus_eq_nil (h : ∀ e ∈ entries, live e → key e ∈ wanted) :
    surplus key live wanted entries = [] := by
  rw [List.eq_nil_iff_forall_not_mem]
  intro e he
  obtain ⟨hmem, hlive, hout⟩ := mem_surplus.mp he
  exact hout (h e hmem hlive)

end

namespace Applied

section

variable {added : List κ} {removed : List ε} (h : Applied key live added removed entries entries')
include h

/-- The keys are the old ones, then the added ones. -/
theorem map_key : entries'.map key = entries.map key ++ added := by
  obtain ⟨kept, appended, rfl, hkept, hadded⟩ := h
  have hkeys : kept.map key = entries.map key := by
    induction hkept with
    | nil => rfl
    | cons he _ ih => rw [List.map_cons, List.map_cons, he.1, ih]
  have hnew : appended.map key = added := by
    clear hkept hkeys
    induction hadded with
    | nil => rfl
    | cons he _ ih => rw [List.map_cons, he.1, ih]
  rw [List.map_append, hkeys, hnew]

/-- A key is live if it is added, or if it was live in an entry that is not removed. -/
theorem exists_live_iff' {k : κ} :
    (∃ e' ∈ entries', key e' = k ∧ live e') ↔
      k ∈ added ∨ ∃ e ∈ entries, key e = k ∧ live e ∧ e ∉ removed := by
  obtain ⟨kept, appended, rfl, hkept, hadded⟩ := h
  have hkeep : (∃ e' ∈ kept, key e' = k ∧ live e') ↔
      ∃ e ∈ entries, key e = k ∧ live e ∧ e ∉ removed := by
    induction hkept with
    | nil => simp
    | cons he _ ih =>
      rw [List.exists_mem_cons_iff, List.exists_mem_cons_iff, ih, he.1, he.2]
  have hnew : (∃ e ∈ appended, key e = k ∧ live e) ↔ k ∈ added := by
    clear hkept hkeep
    induction hadded with
    | nil => simp
    | cons he _ ih =>
      rw [List.exists_mem_cons_iff, List.mem_cons, ih, he.1, eq_comm, and_iff_left he.2]
  simp only [List.mem_append, or_and_right, exists_or]
  rw [hkeep, hnew, or_comm]

end

variable [DecidableEq κ] [DecidablePred live]
  (h : Applied key live (missing key wanted entries) (surplus key live wanted entries)
    entries entries')
include h

/-- **Distinct keys stay distinct.** -/
theorem nodup_keys (hwanted : wanted.Nodup) (hkeys : (entries.map key).Nodup) :
    (entries'.map key).Nodup := by
  rw [h.map_key]
  refine List.Nodup.append hkeys (hwanted.filter _) ?_
  intro k hk hmissing
  obtain ⟨e, he, rfl⟩ := List.mem_map.mp hk
  exact (mem_missing.mp hmissing).2 e he rfl

/-- A live key is wanted. -/
theorem key_mem_wanted {e' : ε} (he' : e' ∈ entries') (hlive : live e') : key e' ∈ wanted := by
  rcases h.exists_live_iff'.mp ⟨e', he', rfl, hlive⟩ with hadded | ⟨e, he, hkey, hlive, hnot⟩
  · exact (mem_missing.mp hadded).1
  · by_contra hout
    rw [← hkey] at hout
    exact hnot (mem_surplus.mpr ⟨he, hlive, hout⟩)

/-- **The live keys** are the wanted ones that had no entry which was not live. -/
theorem exists_live_iff (hkeys : (entries.map key).Nodup) {k : κ} :
    (∃ e' ∈ entries', key e' = k ∧ live e') ↔
      k ∈ wanted ∧ ¬ ∃ e ∈ entries, key e = k ∧ ¬ live e := by
  constructor
  · rintro ⟨e', he', rfl, hlive⟩
    refine ⟨h.key_mem_wanted he' hlive, ?_⟩
    rintro ⟨e, he, hkey, hdead⟩
    rcases h.exists_live_iff'.mp ⟨e', he', rfl, hlive⟩ with hadded | ⟨e₁, he₁, hkey₁, hlive₁, -⟩
    · exact (mem_missing.mp hadded).2 e he hkey
    · obtain rfl := List.inj_on_of_nodup_map hkeys he he₁ (hkey.trans hkey₁.symm)
      exact hdead hlive₁
  · rintro ⟨hwanted, hnone⟩
    apply h.exists_live_iff'.mpr
    by_cases hentry : ∃ e ∈ entries, key e = k
    · obtain ⟨e, he, rfl⟩ := hentry
      have hlive : live e := by
        by_contra hdead
        exact hnone ⟨e, he, rfl, hdead⟩
      exact .inr ⟨e, he, rfl, hlive, fun hsurplus => (mem_surplus.mp hsurplus).2.2 hwanted⟩
    · push Not at hentry
      exact .inl (mem_missing.mpr ⟨hwanted, hentry⟩)

/-- **Nothing is missing any more.** -/
theorem missing_eq_nil : missing key wanted entries' = [] := by
  apply KeySync.missing_eq_nil
  intro k hk
  rw [← List.mem_map, h.map_key, List.mem_append]
  by_cases hentry : k ∈ entries.map key
  · exact .inl hentry
  · exact .inr (mem_missing.mpr ⟨hk, fun e he hkey => hentry (hkey ▸ List.mem_map_of_mem he)⟩)

/-- **Nothing is surplus any more.** -/
theorem surplus_eq_nil : surplus key live wanted entries' = [] :=
  KeySync.surplus_eq_nil fun _ => h.key_mem_wanted

end Applied

end StakePoolCli.KeySync
