import KVFlux.BlockManager.Ownership

/-!
# Calls on whole tables

`share` and `releaseTable` take all entries of a table or none.

* `Owns m hs`: what `validate` checks of the entries; `validate_ok_iff`.
* `addRefs m ids`: one more reference for each slot of `ids`.
* `releaseAll_addRefs`: the clean-up of `share` undoes exactly what was retained.
* **`share_cases`**, **`releaseTable_cases`**: all entries, or a throw and the same state.
* `Owned.releaseAll`: owners return all entries of a table.
-/

namespace KVFlux.BlockManager

open Fallible

variable {m m' : BlockManager} {held : Multiset BlockHandle} {h : BlockHandle}
  {hs seen done : List BlockHandle}

/-! ## Validation -/

/-- The entries name different live blocks with references. -/
structure Owns (m : BlockManager) (hs : List BlockHandle) : Prop where
  valid : ∀ h ∈ hs, m.Valid h
  refs_ne : ∀ h ∈ hs, (m.slots h.id).refs ≠ 0
  nodup : hs.Nodup

/-- Live handles of one slot are equal. -/
theorem Owns.nodup_ids (ho : Owns m hs) : (hs.map BlockHandle.id).Nodup := by
  refine ho.nodup.map_on fun a ha b hb he => ?_
  have hga := (ho.valid a ha).2.2
  have hgb := (ho.valid b hb).2.2
  cases a
  cases b
  simp_all

theorem Owns.tail (ho : Owns m (h :: hs)) : Owns m hs where
  valid g hg := ho.valid g (List.mem_cons_of_mem h hg)
  refs_ne g hg := ho.refs_ne g (List.mem_cons_of_mem h hg)
  nodup := (List.nodup_cons.mp ho.nodup).2

theorem Owns.head_notMem (ho : Owns m (h :: hs)) : h.id ∉ hs.map BlockHandle.id :=
  (List.nodup_cons.mp ho.nodup_ids).1

theorem validateBlocks_ok_iff (hs : List BlockHandle) : ∀ seen : List BlockHandle,
    m.validateBlocks seen hs = .ok () ↔ Owns m hs ∧ ∀ h ∈ hs, h ∉ seen := by
  induction hs with
  | nil =>
    intro seen
    exact iff_of_true rfl ⟨⟨nofun, nofun, List.nodup_nil⟩, nofun⟩
  | cons h hs ih =>
    intro seen
    unfold validateBlocks
    by_cases hv : m.Valid h
    · rw [checked_ok h hv]
      by_cases hr : (m.slots h.id).refs = 0
      · simp only [if_pos hr]
        exact iff_of_false nofun fun hc => hc.1.refs_ne h List.mem_cons_self hr
      · by_cases hm : h ∈ seen
        · simp only [if_neg hr, if_pos hm]
          exact iff_of_false nofun fun hc => hc.2 h List.mem_cons_self hm
        · simp only [if_neg hr, if_neg hm, ih]
          constructor
          · rintro ⟨ho, hn⟩
            have hh : h ∉ hs := fun hh => hn h hh (by simp)
            refine ⟨⟨?_, ?_, List.nodup_cons.mpr ⟨hh, ho.nodup⟩⟩, ?_⟩
            · exact List.forall_mem_cons.mpr ⟨hv, ho.valid⟩
            · exact List.forall_mem_cons.mpr ⟨hr, ho.refs_ne⟩
            · exact List.forall_mem_cons.mpr ⟨hm, fun g hg hs' => hn g hg (by simp [hs'])⟩
          · rintro ⟨ho, hn⟩
            refine ⟨ho.tail, fun g hg hs' => ?_⟩
            rcases List.mem_append.mp hs' with hs' | hs'
            · exact hn g (List.mem_cons_of_mem h hg) hs'
            · rw [List.mem_singleton.mp hs'] at hg
              exact (List.nodup_cons.mp ho.nodup).1 hg
    · rw [checked_error h hv]
      exact iff_of_false nofun fun hc => hv (hc.1.valid h List.mem_cons_self)

/-- **What `validate` accepts.** -/
theorem validate_ok_iff (m : BlockManager) (table : BlockTable) : m.validate table = .ok () ↔
    table.tokenCount / m.blockSize + (if table.tokenCount % m.blockSize ≠ 0 then 1 else 0) =
      table.blocks.length ∧ Owns m table.blocks := by
  unfold validate
  simp only
  by_cases hn : table.tokenCount / m.blockSize +
      (if table.tokenCount % m.blockSize ≠ 0 then 1 else 0) = table.blocks.length
  · rw [if_neg (not_not.mpr hn), validateBlocks_ok_iff]
    exact ⟨fun hc => ⟨hn, hc.1⟩, fun hc => ⟨hc.2, fun _ _ => List.not_mem_nil⟩⟩
  · rw [if_pos hn]
    exact iff_of_false nofun fun hc => hn hc.1

/-! ## References added and taken back -/

/-- One more reference for each slot of `ids`. -/
def addRefs (m : BlockManager) (ids : List ℕ) : BlockManager :=
  { m with slots := fun i =>
      if i ∈ ids then { m.slots i with refs := (m.slots i).refs + 1 } else m.slots i }

@[simp] theorem addRefs_nil (m : BlockManager) : m.addRefs [] = m := by
  simp [addRefs]

theorem addRefs_slots (m : BlockManager) (ids : List ℕ) (i : ℕ) : (m.addRefs ids).slots i =
    if i ∈ ids then { m.slots i with refs := (m.slots i).refs + 1 } else m.slots i := rfl

theorem addRefs_valid (ids : List ℕ) : (m.addRefs ids).Valid h ↔ m.Valid h := by
  unfold Valid
  rw [addRefs_slots]
  split_ifs <;> exact Iff.rfl

/-- Retaining a block with references is one more entry of `addRefs`. -/
theorem retained_addRefs {ids : List ℕ} {id : ℕ} (hr : (m.slots id).refs ≠ 0) (hn : id ∉ ids) :
    (m.addRefs ids).retained id = m.addRefs (ids ++ [id]) := by
  unfold retained
  rw [addRefs_slots, if_neg hn, if_neg hr]
  simp only [setSlot, addRefs, BlockManager.mk.injEq, and_true, true_and]
  funext i
  by_cases hi : i = id
  · simp [hi]
  · simp [hi]

theorem released_addRefs {ids : List ℕ} {id : ℕ} (hr : (m.slots id).refs ≠ 0) (hn : id ∉ ids) :
    (m.addRefs (id :: ids)).released id = m.addRefs ids := by
  unfold released
  simp only [addRefs_slots, List.mem_cons_self, if_true, Nat.add_sub_cancel, if_pos hr]
  simp only [setSlot, addRefs, BlockManager.mk.injEq, and_true, true_and]
  funext i
  by_cases hi : i = id
  · simp [hi, hn]
  · simp [hi]

/-- **The clean-up of `share`** gives back exactly what was retained. -/
theorem releaseAll_addRefs (ho : Owns m hs) :
    releaseAll hs (m.addRefs (hs.map BlockHandle.id)) = .ok () m := by
  induction hs with
  | nil => simp [releaseAll]
  | cons h hs ih =>
    have hr := ho.refs_ne h List.mem_cons_self
    have hv : (m.addRefs ((h :: hs).map BlockHandle.id)).Valid h :=
      (addRefs_valid _).mpr (ho.valid h List.mem_cons_self)
    have hr' : ((m.addRefs ((h :: hs).map BlockHandle.id)).slots h.id).refs ≠ 0 := by
      simp [addRefs_slots]
    rw [releaseAll, bind_apply, release_of_valid hv hr']
    simp only [List.map_cons, released_addRefs hr ho.head_notMem]
    exact ih ho.tail

/-- The loop of `share`, by induction on the entries still to be retained. -/
theorem retainAll_cases (hs : List BlockHandle) : ∀ done : List BlockHandle,
    Owns m (done ++ hs) →
    retainAll done hs (m.addRefs (done.map BlockHandle.id)) =
        .ok () (m.addRefs ((done ++ hs).map BlockHandle.id)) ∨
      ∃ e, retainAll done hs (m.addRefs (done.map BlockHandle.id)) = .error e m := by
  induction hs with
  | nil => intro done _; left; simp [retainAll]
  | cons h hs ih =>
    intro done ho
    have hm : h ∈ done ++ h :: hs := by simp
    have hnd := ho.nodup_ids
    rw [List.map_append, List.map_cons] at hnd
    have hn : h.id ∉ done.map BlockHandle.id := fun hd =>
      (List.nodup_append.mp hnd).2.2 _ hd _ List.mem_cons_self rfl
    have hslot : (m.addRefs (done.map BlockHandle.id)).slots h.id = m.slots h.id := if_neg hn
    unfold retainAll
    simp only [bind_apply, onError]
    rcases retain_cases h (m.addRefs (done.map BlockHandle.id)) with hc | hc | hc
    · exact absurd ((addRefs_valid _).mpr (ho.valid h hm)) hc.1
    · right
      have hd : Owns m done := ⟨fun g hg => ho.valid g (by simp [hg]),
        fun g hg => ho.refs_ne g (by simp [hg]), (List.nodup_append.mp ho.nodup).1⟩
      rw [hc.2.2]
      simp only [releaseAll_addRefs hd]
      exact ⟨_, rfl⟩
    · rw [hc.2.2, retained_addRefs (ho.refs_ne h hm) hn]
      have := ih (done ++ [h]) (by simpa using ho)
      simpa using this

/-- **`share`** retains all entries of an owned table, or throws and changes nothing. -/
theorem share_cases (table : BlockTable) (m : BlockManager) :
    (Owns m table.blocks ∧
      share table m = .ok table (m.addRefs (table.blocks.map BlockHandle.id))) ∨
    ∃ e, share table m = .error e m := by
  unfold share
  simp only [bind_apply, get_apply]
  cases hv : m.validate table with
  | error e => exact .inr ⟨e, rfl⟩
  | ok u =>
    have ho := ((validate_ok_iff m table).mp hv).2
    simp only [check_ok]
    rcases retainAll_cases table.blocks [] (by simpa using ho) with hc | ⟨e, hc⟩
    · left
      simp only [List.map_nil, addRefs_nil, List.nil_append] at hc
      rw [hc]
      exact ⟨ho, rfl⟩
    · right
      simp only [List.map_nil, addRefs_nil] at hc
      rw [hc]
      exact ⟨e, rfl⟩

/-- Releasing different owned blocks succeeds; each loses one reference. -/
theorem releaseAll_owns (hs : List BlockHandle) : ∀ {m : BlockManager}, Owns m hs →
    ∃ m', releaseAll hs m = .ok () m' ∧
      ∀ i, (m.slots i).refs = (m'.slots i).refs + if i ∈ hs.map BlockHandle.id then 1 else 0 := by
  induction hs with
  | nil => intro m _; exact ⟨m, rfl, fun i => by simp⟩
  | cons h hs ih =>
    intro m ho
    have hv := ho.valid h List.mem_cons_self
    have hr := ho.refs_ne h List.mem_cons_self
    have hne : ∀ g ∈ hs, g.id ≠ h.id := fun g hg he =>
      ho.head_notMem (he ▸ List.mem_map_of_mem hg)
    have hslot : ∀ i, i ≠ h.id → (m.released h.id).slots i = m.slots i := fun i hi => by
      rw [released_slots, if_neg hi]
    have ht : Owns (m.released h.id) hs := by
      refine ⟨fun g hg => ?_, fun g hg => ?_, ho.tail.nodup⟩
      · have := ho.tail.valid g hg
        unfold Valid at this ⊢
        rwa [hslot g.id (hne g hg), released_capacity]
      · rw [hslot g.id (hne g hg)]
        exact ho.tail.refs_ne g hg
    obtain ⟨m', hm', href⟩ := ih ht
    refine ⟨m', ?_, fun i => ?_⟩
    · rw [releaseAll, bind_apply, release_of_valid hv hr]
      exact hm'
    · have := href i
      by_cases hi : i = h.id
      · subst hi
        rw [if_neg ho.head_notMem, released_slots, if_pos rfl] at this
        rw [if_pos (by simp)]
        split_ifs at this <;> simp only at this <;> omega
      · rw [hslot i hi] at this
        rw [this]
        simp [hi]

/-- **`release(table)`** releases all entries of an owned table, or throws and changes nothing. -/
theorem releaseTable_cases (table : BlockTable) (m : BlockManager) :
    (Owns m table.blocks ∧ ∃ m', releaseTable table m = .ok {} m' ∧
      releaseAll table.blocks m = .ok () m' ∧
      ∀ i, (m.slots i).refs =
        (m'.slots i).refs + if i ∈ table.blocks.map BlockHandle.id then 1 else 0) ∨
    ∃ e, releaseTable table m = .error e m := by
  unfold releaseTable
  simp only [bind_apply, get_apply]
  cases hv : m.validate table with
  | error e => exact .inr ⟨e, rfl⟩
  | ok u =>
    left
    have ho := ((validate_ok_iff m table).mp hv).2
    obtain ⟨m', hm', href⟩ := releaseAll_owns table.blocks ho
    simp only [check_ok, hm']
    exact ⟨ho, m', rfl, rfl, href⟩

/-! ## The ledger -/

/-- Owners return all entries of a table. -/
theorem Owned.releaseAll (hs : List BlockHandle) : ∀ {m : BlockManager},
    Owned m (hs + held) → ∃ m', BlockManager.releaseAll hs m = .ok () m' ∧ Owned m' held := by
  induction hs with
  | nil => intro m ho; exact ⟨m, rfl, by simpa using ho⟩
  | cons h hs ih =>
    intro m ho
    have hm : h ∈ ((h :: hs : List BlockHandle) : Multiset BlockHandle) + held := by simp
    obtain ⟨hr, ho'⟩ := ho.release hm
    rw [← Multiset.cons_coe, Multiset.cons_add, Multiset.erase_cons_head] at ho'
    obtain ⟨m', hm', ho''⟩ := ih ho'
    exact ⟨m', by rw [BlockManager.releaseAll, bind_apply, hr]; exact hm', ho''⟩

/-- Shared entries get one more owner each. -/
theorem Owned.addRefs (ho : Owned m held) (hw : Owns m hs) :
    Owned (m.addRefs (hs.map BlockHandle.id)) (hs + held) where
  valid h hh := by
    rw [addRefs_valid]
    rcases Multiset.mem_add.mp hh with hh | hh
    · exact hw.valid h hh
    · exact ho.valid h hh
  refs_eq i := by
    rw [Multiset.map_add, Multiset.count_add, ← ho.refs_eq, addRefs_slots, Multiset.map_coe,
      Multiset.coe_count]
    split_ifs with hi
    · rw [List.count_eq_one_of_mem hw.nodup_ids hi, Nat.add_comm]
    · rw [List.count_eq_zero_of_not_mem hi, Nat.zero_add]

end KVFlux.BlockManager
