import Mathlib.Data.List.Basic
import Mathlib.Tactic.Ring

/-!
# Cutting a list into chunks

`chunks n l` cuts `l` into consecutive pieces of length `n`, the last one possibly shorter.

* Concatenating the chunks gives the list back (`flatten_chunks`); no chunk is empty or longer
  than `n` (`ne_nil_of_mem_chunks`, `length_le_of_mem_chunks`).
* The `i`-th chunk is the window of `l` that starts at `i * n` (`getElem?_chunks`), so positions
  `i` and `j` share a chunk iff `i / n = j / n`. A relation holds between any two elements of
  every chunk iff it holds between any two positions with the same quotient
  (`forall_pairwise_chunks_iff`).
* `windows` are the chunks with the positions they start at: in order, disjoint, and covering every
  position (`pairwise_windows`, `exists_window`).
* A stretch `mid` of the list lies in one chunk iff it does not run over the end of the chunk its
  first element is in (`exists_chunk_split_iff`).
-/

namespace StakePoolCli.Chunks

variable {α : Type*} {n : ℕ}

/-- `chunks`, with a bound on the number of chunks. -/
def chunksGo (n : ℕ) : ℕ → List α → List (List α)
  | 0, _ => []
  | _ + 1, [] => []
  | fuel + 1, a :: l => (a :: l).take n :: chunksGo n fuel ((a :: l).drop n)

/-- Consecutive pieces of length `n`, the last one possibly shorter. -/
def chunks (n : ℕ) (l : List α) : List (List α) := chunksGo n l.length l

@[simp] theorem chunks_nil : chunks n ([] : List α) = [] := rfl

/-- The bound plays no role once it is at least the length of the list. -/
theorem chunksGo_eq (hn : 0 < n) {fuel fuel' : ℕ} {l : List α} (h : l.length ≤ fuel)
    (h' : l.length ≤ fuel') : chunksGo n fuel l = chunksGo n fuel' l := by
  induction fuel generalizing fuel' l with
  | zero =>
    obtain rfl := List.length_eq_zero_iff.mp (Nat.le_zero.mp h)
    cases fuel' <;> rfl
  | succ fuel ih =>
    cases l with
    | nil => cases fuel' <;> rfl
    | cons a l =>
      obtain ⟨fuel', rfl⟩ : ∃ f, fuel' = f + 1 := ⟨fuel' - 1, by simp at h'; omega⟩
      have hlen : ((a :: l).drop n).length ≤ l.length := by simp; omega
      simp only [List.length_cons] at h h'
      rw [chunksGo, chunksGo, @ih fuel' _ (by omega) (by omega)]

theorem chunks_of_ne_nil (hn : 0 < n) {l : List α} (hl : l ≠ []) :
    chunks n l = l.take n :: chunks n (l.drop n) := by
  cases l with
  | nil => exact absurd rfl hl
  | cons a l =>
    rw [chunks, List.length_cons, chunksGo, chunks]
    congr 1
    exact chunksGo_eq hn (by simp; omega) le_rfl

/-- Induction along the chunks of a list. -/
theorem chunks_induction (hn : 0 < n) {motive : List α → Prop} (nil : motive [])
    (step : ∀ l, l ≠ [] → motive (l.drop n) → motive l) (l : List α) : motive l := by
  induction h : l.length using Nat.strongRecOn generalizing l with
  | ind m ih =>
    by_cases hl : l = []
    · exact hl ▸ nil
    · have : 0 < l.length := List.length_pos_iff.mpr hl
      exact step l hl (ih (l.drop n).length (by simp; omega) _ rfl)

theorem flatten_chunks (hn : 0 < n) (l : List α) : (chunks n l).flatten = l := by
  induction l using chunks_induction hn with
  | nil => rfl
  | step l hl ih => rw [chunks_of_ne_nil hn hl, List.flatten_cons, ih, List.take_append_drop]

/-- Cutting groups of length `n`, laid end to end, gives the groups back. -/
theorem chunks_flatMap {β : Type*} (hn : 0 < n) {f : β → List α} (hf : ∀ b, (f b).length = n)
    (bs : List β) : chunks n (bs.flatMap f) = bs.map f := by
  induction bs with
  | nil => rfl
  | cons b bs ih =>
    have hne : (b :: bs).flatMap f ≠ [] := by
      rw [List.flatMap_cons, ← List.length_pos_iff, List.length_append, hf]
      omega
    rw [chunks_of_ne_nil hn hne, List.flatMap_cons, List.take_left' (hf b), List.drop_left' (hf b),
      ih, List.map_cons]

/-- The `i`-th chunk is the window that starts at `i * n`. -/
theorem getElem?_chunks (hn : 0 < n) (l : List α) (i : ℕ) :
    (chunks n l)[i]? = if i * n < l.length then some ((l.drop (i * n)).take n) else none := by
  induction l using chunks_induction hn generalizing i with
  | nil => simp
  | step l hl ih =>
    have : 0 < l.length := List.length_pos_iff.mpr hl
    rw [chunks_of_ne_nil hn hl]
    cases i with
    | zero => simp [this]
    | succ i =>
      rw [List.getElem?_cons_succ, ih, List.length_drop, List.drop_drop,
        show n + i * n = (i + 1) * n by ring]
      have : i * n < l.length - n ↔ (i + 1) * n < l.length := by
        rw [Nat.succ_mul]
        omega
      simp only [this]

theorem mem_chunks_iff (hn : 0 < n) {l c : List α} :
    c ∈ chunks n l ↔ ∃ i, i * n < l.length ∧ (l.drop (i * n)).take n = c := by
  rw [List.mem_iff_getElem?]
  refine exists_congr fun i => ?_
  rw [getElem?_chunks hn]
  split <;> simp [*]

theorem length_le_of_mem_chunks (hn : 0 < n) {l c : List α} (h : c ∈ chunks n l) :
    c.length ≤ n := by
  obtain ⟨i, -, rfl⟩ := (mem_chunks_iff hn).mp h
  exact List.length_take_le _ _

theorem ne_nil_of_mem_chunks (hn : 0 < n) {l c : List α} (h : c ∈ chunks n l) : c ≠ [] := by
  obtain ⟨i, hi, rfl⟩ := (mem_chunks_iff hn).mp h
  rw [← List.length_pos_iff, List.length_take, List.length_drop]
  omega

/-! ## Groups laid end to end -/

/-- The element at a position of groups laid end to end: the `o`-th of the `i`-th group. -/
theorem getElem?_flatMap_eq_some_iff {β : Type*} {f : β → List α} {bs : List β} {p : ℕ} {a : α} :
    (bs.flatMap f)[p]? = some a ↔
      ∃ i b o, bs[i]? = some b ∧ (f b)[o]? = some a ∧
        p = ((bs.take i).flatMap f).length + o := by
  induction bs generalizing p with
  | nil => simp
  | cons b bs ih =>
    rw [List.flatMap_cons, List.getElem?_append]
    constructor
    · intro h
      split at h
      · exact ⟨0, b, p, rfl, h, by simp⟩
      · obtain ⟨i, b', o, hb, ho, hp⟩ := ih.mp h
        refine ⟨i + 1, b', o, hb, ho, ?_⟩
        simp only [List.take_succ_cons, List.flatMap_cons, List.length_append]
        omega
    · rintro ⟨i, b', o, hb, ho, rfl⟩
      have hlt : o < (f b').length := (List.getElem?_eq_some_iff.mp ho).1
      cases i with
      | zero =>
        obtain rfl := Option.some.inj hb
        simpa [hlt] using ho
      | succ i =>
        simp only [List.take_succ_cons, List.flatMap_cons, List.length_append]
        rw [if_neg (by omega)]
        exact ih.mpr ⟨i, b', o, hb, ho, by omega⟩

/-! ## Positions and chunks -/

/-- The element of a chunk at position `j` is the element of the list at `i * n + j`. -/
theorem getElem?_window {l : List α} {i j : ℕ} (hj : j < n) :
    ((l.drop (i * n)).take n)[j]? = l[i * n + j]? := by
  rw [List.getElem?_take_of_lt hj, List.getElem?_drop]

/-- A relation holds inside every chunk iff it holds between positions with the same quotient. -/
theorem forall_pairwise_chunks_iff (hn : 0 < n) {R : α → α → Prop} {l : List α} :
    (∀ c ∈ chunks n l, c.Pairwise R) ↔
      ∀ i j a b, i < j → i / n = j / n → l[i]? = some a → l[j]? = some b → R a b := by
  constructor
  · intro h i j a b hij hq ha hb
    have hdi := Nat.div_add_mod' i n
    have hdj := Nat.div_add_mod' j n
    have hmi := Nat.mod_lt i hn
    have hmj := Nat.mod_lt j hn
    have hlen : i < l.length := (List.getElem?_eq_some_iff.mp ha).1
    have hc := h _ ((mem_chunks_iff hn).mpr ⟨i / n, by omega, rfl⟩)
    rw [List.pairwise_iff_getElem] at hc
    have ha' : ((l.drop (i / n * n)).take n)[i % n]? = some a := by
      rw [getElem?_window hmi, hdi, ha]
    have hb' : ((l.drop (i / n * n)).take n)[j % n]? = some b := by
      rw [getElem?_window hmj, hq, hdj, hb]
    obtain ⟨hi', rfl⟩ := List.getElem?_eq_some_iff.mp ha'
    obtain ⟨hj', rfl⟩ := List.getElem?_eq_some_iff.mp hb'
    exact hc _ _ hi' hj' (by rw [hq] at hdi; omega)
  · intro h c hc
    obtain ⟨k, hk, rfl⟩ := (mem_chunks_iff hn).mp hc
    rw [List.pairwise_iff_getElem]
    intro i j hi hj hij
    have hjn : j < n := by simp at hj; omega
    have hdiv : ∀ m < n, (k * n + m) / n = k := fun m hm => by
      rw [Nat.mul_comm, Nat.mul_add_div hn, Nat.div_eq_of_lt hm, Nat.add_zero]
    refine h (k * n + i) (k * n + j) _ _ (by omega) ?_ ?_ ?_
    · rw [hdiv i (by omega), hdiv j hjn]
    · rw [← getElem?_window (by omega), List.getElem?_eq_getElem hi]
    · rw [← getElem?_window hjn, List.getElem?_eq_getElem hj]

/-! ## Windows -/

/-- The chunks, with the positions they start at. -/
def windows (n : ℕ) (l : List α) : List (ℕ × List α) := (chunks n l).mapIdx fun i c => (i * n, c)

theorem mem_windows_iff (hn : 0 < n) {l : List α} {w : ℕ × List α} :
    w ∈ windows n l ↔ ∃ i, i * n < l.length ∧ w = (i * n, (l.drop (i * n)).take n) := by
  rw [List.mem_iff_getElem?]
  refine exists_congr fun i => ?_
  rw [windows, List.getElem?_mapIdx, getElem?_chunks hn]
  split <;> simp [*, eq_comm]

section

variable {l : List α} {w : ℕ × List α}

theorem window_bounds (hn : 0 < n) (h : w ∈ windows n l) :
    0 < w.2.length ∧ w.2.length ≤ n ∧ w.1 + w.2.length ≤ l.length := by
  obtain ⟨i, hi, rfl⟩ := (mem_windows_iff hn).mp h
  simp only [List.length_take, List.length_drop]
  omega

/-- A window shows the list from the position it starts at. -/
theorem getElem?_of_mem_windows (hn : 0 < n) (h : w ∈ windows n l) {j : ℕ} (hj : j < w.2.length) :
    w.2[j]? = l[w.1 + j]? := by
  have hlen := (window_bounds hn h).2.1
  obtain ⟨i, -, rfl⟩ := (mem_windows_iff hn).mp h
  exact getElem?_window (by omega)

/-- Every position lies in a window. -/
theorem exists_window (hn : 0 < n) {k : ℕ} (hk : k < l.length) :
    ∃ w ∈ windows n l, w.1 ≤ k ∧ k < w.1 + w.2.length := by
  have hdiv := Nat.div_add_mod' k n
  have hmod := Nat.mod_lt k hn
  refine ⟨_, (mem_windows_iff hn).mpr ⟨k / n, by omega, rfl⟩, by omega, ?_⟩
  simp only [List.length_take, List.length_drop]
  omega

end

/-- A window ends before the next one starts. -/
theorem pairwise_windows (hn : 0 < n) (l : List α) :
    (windows n l).Pairwise fun v w => v.1 + v.2.length ≤ w.1 := by
  rw [List.pairwise_iff_getElem]
  intro i j hi hj hij
  have hmem : (windows n l)[i] ∈ windows n l := List.getElem_mem hi
  have hlen := (window_bounds hn hmem).2.1
  have hstep := Nat.mul_le_mul_right n (Nat.succ_le_of_lt hij)
  simp only [windows, List.getElem_mapIdx] at hlen ⊢
  rw [Nat.succ_mul] at hstep
  omega

/-! ## A stretch inside one chunk -/

/-- The first `k` chunks are the first `k * n` elements. -/
theorem flatten_take_chunks (hn : 0 < n) (l : List α) (k : ℕ) :
    ((chunks n l).take k).flatten = l.take (k * n) := by
  induction l using chunks_induction hn generalizing k with
  | nil => simp
  | step l hl ih =>
    rw [chunks_of_ne_nil hn hl]
    cases k with
    | zero => simp
    | succ k =>
      rw [List.take_succ_cons, List.flatten_cons, ih, ← List.take_add]
      congr 1
      ring

/-- What comes before a chunk, and the chunk itself. -/
theorem chunks_append_cons (hn : 0 < n) {l c : List α} {before after : List (List α)}
    (h : chunks n l = before ++ c :: after) :
    before.length * n < l.length ∧ before.flatten = l.take (before.length * n) ∧
      c = (l.drop (before.length * n)).take n := by
  have hc : (chunks n l)[before.length]? = some c := by simp [h]
  have hb : (chunks n l).take before.length = before := by simp [h]
  rw [getElem?_chunks hn] at hc
  split at hc
  · rename_i hlt
    exact ⟨hlt, by rw [← flatten_take_chunks hn, hb], (Option.some.inj hc).symm⟩
  · cases hc

/-- **A stretch lies in one chunk** iff it does not run over the end of the chunk that its first
element is in. -/
theorem exists_chunk_split_iff (hn : 0 < n) {pre mid post : List α} (hmid : mid ≠ []) :
    (∃ before p q after, chunks n (pre ++ mid ++ post) = before ++ (p ++ mid ++ q) :: after ∧
        before.flatten ++ p = pre) ↔ pre.length % n + mid.length ≤ n := by
  have hpos : 0 < mid.length := List.length_pos_iff.mpr hmid
  constructor
  · rintro ⟨before, p, q, after, h, hpre⟩
    obtain ⟨hlt, hflat, hc⟩ := chunks_append_cons hn h
    have hlen : before.flatten.length = before.length * n := by
      rw [hflat, List.length_take, Nat.min_eq_left (le_of_lt hlt)]
    have hcl : (p ++ mid ++ q).length ≤ n := by rw [hc]; exact List.length_take_le _ _
    simp only [List.length_append] at hcl
    rw [← hpre, List.length_append, hlen, Nat.mul_comm, Nat.mul_add_mod,
      Nat.mod_eq_of_lt (by omega)]
    omega
  · intro h
    set k := pre.length / n
    have hk : k * n + pre.length % n = pre.length := Nat.div_add_mod' _ _
    have hget : (chunks n (pre ++ mid ++ post))[k]? =
        some (((pre ++ mid ++ post).drop (k * n)).take n) := by
      rw [getElem?_chunks hn, if_pos (by simp only [List.length_append]; omega)]
    -- the chunk starts with the end of `pre`, and `mid` fits behind it
    have hchunk : ((pre ++ mid ++ post).drop (k * n)).take n = pre.drop (k * n) ++ mid ++
        post.take (n - (pre.length % n + mid.length)) := by
      rw [List.append_assoc, List.drop_append_of_le_length (by omega), List.take_append,
        List.take_of_length_le (by simp; omega), List.take_append,
        List.take_of_length_le (by simp; omega), List.append_assoc]
      congr 3
      simp only [List.length_drop]
      omega
    obtain ⟨hk', hget⟩ := List.getElem?_eq_some_iff.mp hget
    refine ⟨(chunks n (pre ++ mid ++ post)).take k, pre.drop (k * n),
      post.take (n - (pre.length % n + mid.length)), (chunks n (pre ++ mid ++ post)).drop (k + 1),
      ?_, ?_⟩
    · rw [← hchunk, ← hget, ← List.drop_eq_getElem_cons hk', List.take_append_drop]
    · rw [flatten_take_chunks hn, List.append_assoc, List.take_append_of_le_length (by omega),
        List.take_append_drop]

end StakePoolCli.Chunks
