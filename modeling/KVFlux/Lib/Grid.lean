import KVFlux.Lib.Threads

/-!
# Grid-stride loops

A grid of `stride` threads covers the indices below `total`: thread `t` takes `t`, `t + stride`, ….
The loop counter is a word of modulus `m`.

* `loop`, `indices`: the indices of one thread; `mem_indices`: those with its remainder.
* `perm_range`: over the whole grid every index comes up exactly once.
* `kernel`: thread `t` runs the code `body i` for each of its indices; `Apart`: the bodies do not
  interfere.
* **`perm_targets`**, **`count_targets`**: the grid writes what the bodies write, each once.
* **`launch_stored`**, **`launch_other`**, **`run_stored`**: the kernel, in any order of its threads'
  instructions.
-/

namespace Grid

open Threads

/-- `for (; i < total; i += stride)` with the number of rounds. -/
def loop (m total stride : ℕ) : ℕ → ℕ → List ℕ
  | 0, _ => []
  | rounds + 1, i =>
    if i < total then i :: loop m total stride rounds ((i + stride) % m) else []

/-- The indices of thread `t`; every round raises the index. -/
def indices (m total stride t : ℕ) : List ℕ := loop m total stride total t

variable {m total stride : ℕ}

theorem mem_loop (hstride : 0 < stride) (hm : total + stride ≤ m) {rounds i : ℕ}
    (hrounds : total ≤ i + rounds) (k : ℕ) :
    k ∈ loop m total stride rounds i ↔ i ≤ k ∧ k < total ∧ k % stride = i % stride := by
  induction rounds generalizing i with
  | zero =>
    unfold loop
    simp only [List.not_mem_nil, false_iff]
    omega
  | succ rounds ih =>
    unfold loop
    split_ifs with hi
    · rw [Nat.mod_eq_of_lt (by omega), List.mem_cons, ih (by omega), Nat.add_mod_right]
      constructor
      · rintro (rfl | ⟨hle, hlt, hmod⟩)
        · exact ⟨le_rfl, hi, rfl⟩
        · exact ⟨by omega, hlt, hmod⟩
      · rintro ⟨hle, hlt, hmod⟩
        by_cases hk : k = i
        · exact .inl hk
        · have hdvd : stride ∣ k - i := (Nat.modEq_iff_dvd' hle).mp hmod.symm
          have hgap : stride ≤ k - i := Nat.le_of_dvd (by omega) hdvd
          exact .inr ⟨by omega, hlt, hmod⟩
    · simp only [List.not_mem_nil, false_iff]
      omega

theorem loop_pairwise (hstride : 0 < stride) (hm : total + stride ≤ m) (rounds i : ℕ) :
    (loop m total stride rounds i).Pairwise (· < ·) ∧
      ∀ k ∈ loop m total stride rounds i, i ≤ k := by
  induction rounds generalizing i with
  | zero => exact ⟨.nil, fun k hk => by cases hk⟩
  | succ rounds ih =>
    unfold loop
    split_ifs with hi
    · rw [Nat.mod_eq_of_lt (by omega)]
      obtain ⟨hpair, hle⟩ := ih (i + stride)
      refine ⟨.cons (fun k hk => ?_) hpair, fun k hk => ?_⟩
      · have := hle k hk
        omega
      · rcases List.mem_cons.mp hk with rfl | hk
        · exact le_rfl
        · have := hle k hk
          omega
    · exact ⟨.nil, fun k hk => by cases hk⟩

/-- The indices of a thread are those with its remainder. -/
theorem mem_indices (hm : total + stride ≤ m) {t : ℕ} (ht : t < stride) (k : ℕ) :
    k ∈ indices m total stride t ↔ k < total ∧ k % stride = t := by
  unfold indices
  rw [mem_loop (by omega) hm (by omega), Nat.mod_eq_of_lt ht]
  constructor
  · exact fun h => h.2
  · rintro ⟨hlt, rfl⟩
    exact ⟨Nat.mod_le _ _, hlt, rfl⟩

theorem nodup_indices (hstride : 0 < stride) (hm : total + stride ≤ m) (t : ℕ) :
    (indices m total stride t).Nodup :=
  (loop_pairwise hstride hm total t).1.imp fun h => h.ne

/-- **Over the grid every index comes up exactly once.** -/
theorem perm_range (hstride : 0 < stride) (hm : total + stride ≤ m) :
    ((List.range stride).flatMap (indices m total stride)).Perm (List.range total) := by
  apply (List.perm_ext_iff_of_nodup _ List.nodup_range).mpr
  · intro k
    simp only [List.mem_flatMap, List.mem_range]
    constructor
    · rintro ⟨t, ht, hk⟩
      exact ((mem_indices hm ht k).mp hk).1
    · intro hk
      exact ⟨k % stride, Nat.mod_lt _ hstride,
        (mem_indices hm (Nat.mod_lt _ hstride) k).mpr ⟨hk, rfl⟩⟩
  · rw [List.nodup_flatMap]
    refine ⟨fun t _ => nodup_indices hstride hm t, ?_⟩
    apply List.Pairwise.imp_of_mem _ List.nodup_range
    intro t u ht hu hne k hkt hku
    have h₁ := ((mem_indices hm (List.mem_range.mp ht) k).mp hkt).2
    have h₂ := ((mem_indices hm (List.mem_range.mp hu) k).mp hku).2
    exact hne (h₁.symm.trans h₂)

/-! ## Kernels -/

section Kernel

variable {A : Type} {V : A → Type}

/-- The code of thread `t`: its indices one after the other. -/
def kernel (m total stride : ℕ) (body : ℕ → Code A V Unit) (t : ℕ) : Code A V Unit :=
  if t < stride then Code.forEach body (indices m total stride t) else pure ()

/-- The bodies of different indices do not interfere. -/
structure Apart (total : ℕ) (body : ℕ → Code A V Unit) (memory : (a : A) → V a) : Prop where
  nodup : ∀ i < total, ((body i).targets memory).Nodup
  distinct : ∀ i < total, ∀ j < total, ∀ a ∈ (body i).targets memory,
    a ∈ (body j).targets memory → i = j
  source : ∀ i < total, ∀ j < total, ∀ a ∈ (body i).targets memory, a ∉ (body j).loads memory

variable {body : ℕ → Code A V Unit} {memory : (a : A) → V a} (hm : total + stride ≤ m)
include hm

/-- A store of a thread belongs to one of its indices. -/
theorem mem_stores (t : ℕ) (w : Σ a, V a) :
    w ∈ (kernel m total stride body t).stores memory ↔
      t < stride ∧ ∃ i < total, i % stride = t ∧ w ∈ (body i).stores memory := by
  unfold kernel
  split_ifs with ht
  · simp only [Code.stores_forEach, List.mem_flatMap, mem_indices hm ht, ht, true_and]
    constructor
    · rintro ⟨i, ⟨hi, hmod⟩, hw⟩
      exact ⟨i, hi, hmod, hw⟩
    · rintro ⟨i, hi, hmod, hw⟩
      exact ⟨i, ⟨hi, hmod⟩, hw⟩
  · simp [ht]

/-- A load of a thread belongs to one of its indices. -/
theorem mem_loads (t : ℕ) (a : A) :
    a ∈ (kernel m total stride body t).loads memory ↔
      t < stride ∧ ∃ i < total, i % stride = t ∧ a ∈ (body i).loads memory := by
  unfold kernel
  split_ifs with ht
  · simp only [Code.loads_forEach, List.mem_flatMap, mem_indices hm ht, ht, true_and]
    constructor
    · rintro ⟨i, ⟨hi, hmod⟩, ha⟩
      exact ⟨i, hi, hmod, ha⟩
    · rintro ⟨i, hi, hmod, ha⟩
      exact ⟨i, ⟨hi, hmod⟩, ha⟩
  · simp [ht]

theorem mem_targets {t : ℕ} {a : A} (ha : a ∈ (kernel m total stride body t).targets memory) :
    t < stride ∧ ∃ i < total, i % stride = t ∧ a ∈ (body i).targets memory := by
  obtain ⟨w, hw, rfl⟩ := List.mem_map.mp ha
  obtain ⟨ht, i, hi, hmod, hw⟩ := (mem_stores hm t w).mp hw
  exact ⟨ht, i, hi, hmod, List.mem_map_of_mem hw⟩

/-- **The stores of the grid** are those of all indices, each once. -/
theorem perm_targets (hstride : 0 < stride) :
    ((List.range stride).flatMap fun t => (kernel m total stride body t).targets memory).Perm
      ((List.range total).flatMap fun i => (body i).targets memory) := by
  have hthread : ∀ t ∈ List.range stride, (kernel m total stride body t).targets memory =
      (indices m total stride t).flatMap fun i => (body i).targets memory := by
    intro t ht
    unfold kernel
    rw [if_pos (List.mem_range.mp ht), Code.targets, Code.stores_forEach, List.map_flatMap]
    rfl
  rw [List.flatMap_congr hthread, ← List.flatMap_assoc]
  exact (perm_range hstride hm).flatMap_right _

theorem raceFree (happart : Apart total body memory) :
    RaceFree (⟨kernel m total stride body, memory⟩ : State A V) := by
  refine ⟨fun t => ?_, fun t t' a ha hb => ?_, fun t t' a ha hb => ?_⟩
  · show ((kernel m total stride body t).targets memory).Nodup
    unfold kernel
    split_ifs with ht
    · rw [Code.targets, Code.stores_forEach, List.map_flatMap, List.nodup_flatMap]
      refine ⟨fun i hi => happart.nodup i ((mem_indices hm ht i).mp hi).1, ?_⟩
      apply List.Pairwise.imp_of_mem _ (nodup_indices (by omega) hm t)
      intro i j hi hj hne a hai haj
      exact hne (happart.distinct i ((mem_indices hm ht i).mp hi).1 j
        ((mem_indices hm ht j).mp hj).1 a hai haj)
    · exact List.nodup_nil
  · obtain ⟨_, i, hi, hit, hai⟩ := mem_targets hm ha
    obtain ⟨_, j, hj, hjt, haj⟩ := mem_targets hm hb
    rw [← hit, ← hjt, happart.distinct i hi j hj a hai haj]
  · obtain ⟨_, i, hi, _, hai⟩ := mem_targets hm ha
    obtain ⟨_, j, hj, _, haj⟩ := (mem_loads hm t' a).mp hb
    exact happart.source i hi j hj a hai haj

variable [DecidableEq A]

/-- **Over the grid every target is written exactly once.** -/
theorem count_targets (hstride : 0 < stride) (happart : Apart total body memory) {i : ℕ}
    (hi : i < total) {a : A} (ha : a ∈ (body i).targets memory) :
    ((List.range stride).flatMap fun t =>
      (kernel m total stride body t).targets memory).count a = 1 := by
  rw [(perm_targets hm hstride).count_eq]
  apply List.count_eq_one_of_mem
  · rw [List.nodup_flatMap]
    refine ⟨fun j hj => happart.nodup j (List.mem_range.mp hj), ?_⟩
    apply List.Pairwise.imp_of_mem _ List.nodup_range
    intro j k hj hk hne b hbj hbk
    exact hne (happart.distinct j (List.mem_range.mp hj) k (List.mem_range.mp hk) b hbj hbk)
  · exact List.mem_flatMap.mpr ⟨i, List.mem_range.mpr hi, ha⟩

/-- **Every index has written its cells.** -/
theorem launch_stored (hstride : 0 < stride) (happart : Apart total body memory) (order : List ℕ)
    {i : ℕ} (hi : i < total) {a : A} {v : V a} (ha : ⟨a, v⟩ ∈ (body i).stores memory) :
    launch ⟨kernel m total stride body, memory⟩ stride order a = v :=
  Threads.launch_stored (raceFree hm happart) (Nat.mod_lt i hstride) order
    ((mem_stores hm _ _).mpr ⟨Nat.mod_lt i hstride, i, hi, rfl, ha⟩)

/-- **Nothing else has changed.** -/
theorem launch_other (happart : Apart total body memory) (order : List ℕ) {a : A}
    (ha : ∀ i < total, a ∉ (body i).targets memory) :
    launch ⟨kernel m total stride body, memory⟩ stride order a = memory a := by
  apply Threads.launch_other (raceFree hm happart)
  intro t h
  obtain ⟨_, i, hi, _, hai⟩ := mem_targets hm h
  exact ha i hi hai

/-- **A stopped kernel** has written a cell or not. -/
theorem run_stored (happart : Apart total body memory) (order : List ℕ) (a : A) :
    (run ⟨kernel m total stride body, memory⟩ order).memory a = memory a ∨
      ∃ i < total, ⟨a, (run ⟨kernel m total stride body, memory⟩ order).memory a⟩ ∈
        (body i).stores memory := by
  rcases Threads.run_stored (raceFree hm happart) order a with h | ⟨t, h⟩
  · exact .inl h
  · obtain ⟨_, i, hi, _, hai⟩ := (mem_stores hm t _).mp h
    exact .inr ⟨i, hi, hai⟩

end Kernel

end Grid
