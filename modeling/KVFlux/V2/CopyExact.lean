import KVFlux.V2.AppendExact

/-!
# When an append copies

* `recorded copy`: the callback beside a list of its calls.
* `CopyExact`: what `append_token_with_copy` does to a sequence and to the others.
* **`copy_exact`**: in every reachable family the callback is called once when the tail page is
  partial and shared and a page can be had, and never otherwise; a throw changes nothing that
  anybody holds.
-/

namespace KVFlux.V2

open Fallible BlockManager SequenceState

variable {H : Tokens → UInt64} {m m' m₁ : PhysicalBlockPool} {rest : Multiset BlockHandle}
  {s s' r : SequenceState} {grow : ℕ → Option Exn} {σ : Type} {x x' : σ}
  {blocks : List BlockHandle} {old new g : BlockHandle}

/-- The callback with the pages of every call noted, also of one that throws. -/
def recorded (copy : BlockCopier σ) : BlockCopier (σ × List (BlockHandle × BlockHandle)) :=
  fun pool source destination (x, log) =>
    match copy pool source destination x with
    | .ok _ x' => .ok () (x', log ++ [(source, destination)])
    | .error err x' => .error err (x', log ++ [(source, destination)])

/-- What `append_token_with_copy` does to the sequence `s` and to the sequences `others`. -/
structure CopyExact (m : PhysicalBlockPool) (s : SequenceState) (others : List SequenceState)
    (grow : ℕ → Option Exn) (copy : Option (BlockCopier σ)) (x : σ) : Prop where
  /-- Without a shared partial tail page it is `append_token`. -/
  in_place : tailShared m s = false →
    appendTokenWithCopy grow (copy.map recorded) ((m, s), (x, [])) =
      onFst (appendToken grow) ((m, s), (x, []))
  /-- With one, and no page to copy to or nothing to copy with, it throws at once. -/
  refused : tailShared m s = true → (s.numTokens = sizeMax ∨ copy = none ∨
    ∃ err m', PhysicalBlockPool.allocate m = .error err m') →
    ∃ err, appendTokenWithCopy grow (copy.map recorded) ((m, s), (x, [])) =
      .error err ((m, s), (x, []))
  /-- Else the callback is called once, with the tail page and a fresh private page, which takes
  the place of the tail page when the callback returns. -/
  copied : tailShared m s = true → s.numTokens ≠ sizeMax → ∀ f new m₁, copy = some f →
    PhysicalBlockPool.allocate m = .ok new m₁ → ∃ blocks old,
      s.blockTable.blocks = blocks ++ [old] ∧
      ((m.slots new.id).refs = 0 ∧ (m₁.slots new.id).refs = 1 ∧ (m₁.slots new.id).cached = false) ∧
      appendTokenWithCopy grow (copy.map recorded) ((m, s), (x, [])) =
        match f m₁ old new x with
        | .ok _ x' => .ok ⟨new.id, s.numTokens % s.blockSize⟩
          ((m₁.released old.id, s.copied blocks new), (x', [(old, new)]))
        | .error err x' => .error err ((m₁.released new.id, s), (x', [(old, new)]))
  /-- The tail page loses one reference, and all pages but these two are as before. -/
  returned : tailShared m s = true → ∀ loc m' s' y,
    appendTokenWithCopy grow (copy.map recorded) ((m, s), (x, [])) = .ok loc ((m', s'), y) →
    ∃ blocks old new, s.blockTable.blocks = blocks ++ [old] ∧ s' = s.copied blocks new ∧
      y.2 = [(old, new)] ∧ (m'.slots old.id).refs + 1 = (m.slots old.id).refs ∧
      (m'.slots new.id).refs = 1 ∧ (m'.slots new.id).cached = false ∧
      ∀ page, page ≠ old.id → page ≠ new.id → m'.slots page = m.slots page
  /-- A throw leaves the sequence, all counts and the spare pages as they were. -/
  error : ∀ err m' s' y,
    appendTokenWithCopy grow (copy.map recorded) ((m, s), (x, [])) = .error err ((m', s'), y) →
    s' = s ∧ (∀ page, (m'.slots page).refs = (m.slots page).refs) ∧ m'.available = m.available
  /-- The other sequences map the same pages. -/
  others : ∀ m' : PhysicalBlockPool, (∃ s' y,
      (∃ loc, appendTokenWithCopy grow (copy.map recorded) ((m, s), (x, [])) =
        .ok loc ((m', s'), y)) ∨
      ∃ err, appendTokenWithCopy grow (copy.map recorded) ((m, s), (x, [])) =
        .error err ((m', s'), y)) →
    ∀ r ∈ others, ∀ l, r.physicalBlockId m' l = r.physicalBlockId m l

theorem recorded_eq (copy : BlockCopier σ) (pool : PhysicalBlockPool) (x : σ) :
    recorded copy pool old new (x, []) = match copy pool old new x with
      | .ok _ x' => .ok () (x', [(old, new)])
      | .error err x' => .error err (x', [(old, new)]) := rfl

/-- A page that other sequences hold has the same number for them. -/
theorem physicalBlockId_congr {held held' : Multiset BlockHandle} (hs : Sound H m held)
    (hs' : Sound H m' held') (hr : ∀ h ∈ r.blockTable.blocks, h ∈ held ∧ h ∈ held') (l : ℕ) :
    r.physicalBlockId m' l = r.physicalBlockId m l := by
  unfold physicalBlockId BlockTable.physicalId
  cases hl : r.blockTable.blocks[l]? with
  | none => rfl
  | some h =>
    obtain ⟨h₁, h₂⟩ := hr h (List.mem_of_getElem? hl)
    exact (hs'.id_eq h₂).trans (hs.id_eq h₁).symm

theorem tailShared_iff (hb : s.blockTable.blocks = blocks ++ [old]) : tailShared m s = true ↔
    s.numTokens % s.blockSize ≠ 0 ∧ 1 < (m.slots old.id).refs := by
  rw [tailShared, hb, List.getLast?_concat]
  simp

/-- **The shared tail page**, with the callback recorded. -/
theorem appendTokenWithCopy_recorded (hs : Sound H m (s.blockTable.blocks + rest))
    (copy : Option (BlockCopier σ)) (hmax : s.numTokens ≠ sizeMax)
    (hb : s.blockTable.blocks = blocks ++ [old]) (ht : tailShared m s = true) :
    appendTokenWithCopy grow (copy.map recorded) ((m, s), (x, [])) =
      match copy with
      | none => .error (.invalidArgument "copy callback is required for shared partial block")
        ((m, s), (x, []))
      | some f =>
        match PhysicalBlockPool.allocate m with
        | .error err _ => .error err ((m, s), (x, []))
        | .ok new m₁ =>
          match f m₁ old new x with
          | .ok _ x' => .ok ⟨new.id, s.numTokens % s.blockSize⟩
            ((m₁.released old.id, s.copied blocks new), (x', [(old, new)]))
          | .error err x' => .error err ((m₁.released new.id, s), (x', [(old, new)])) := by
  obtain ⟨hp, hr⟩ := (tailShared_iff hb).mp ht
  rw [appendTokenWithCopy_eq hs hmax hp hb (by omega)]
  cases copy with
  | none => rfl
  | some f =>
    simp only [Option.map_some]
    cases PhysicalBlockPool.allocate m with
    | error err m' => rfl
    | ok new m₁ =>
      simp only [recorded_eq]
      cases f m₁ old new x <;> rfl

/-- At the limit `append_token` throws what the copying call throws. -/
theorem appendToken_limit (hmax : s.numTokens = sizeMax) : appendToken grow (m, s) =
    .error (.overflowError "sequence token count overflow") (m, s) := by
  have hone : ¬ (1 : ℕ) = 0 := one_ne_zero
  simp only [appendToken, appendTokens, bind_apply, get_apply, if_neg hone, ensure, hmax,
    Nat.sub_self, Nat.one_pos, gt_iff_lt, not_true, if_false]

/-- A full tail page, or a private one, needs no copy. -/
theorem in_place_of_tailShared (hs : Sound H m (s.blockTable.blocks + rest)) (hc : s.Covered)
    (ht : tailShared m s = false) : s.numTokens % s.blockSize = 0 ∨
      s.blockTable.refCount m (s.blockTable.size - 1) = .ok 1 := by
  by_cases hp : s.numTokens % s.blockSize = 0
  · exact .inl hp
  · right
    obtain ⟨blocks, old, hb⟩ := hc.concat hp
    have hpos := hs.owned.refs_pos (h := old) (Multiset.mem_add.mpr (.inl (by rw [hb]; simp)))
    have hle : ¬ 1 < (m.slots old.id).refs := fun h => by
      rw [(tailShared_iff hb).mpr ⟨hp, h⟩] at ht
      cases ht
    rw [(refCount_last hs hb).1, show (m.slots old.id).refs = 1 by omega]

/-- A page that was taken for the copy. -/
theorem copied_pages (hs : Sound H m (s.blockTable.blocks + rest)) (ha : Allocated m m₁ [new])
    (hold : old ∈ s.blockTable.blocks) : new.id ≠ old.id ∧ (m.slots new.id).refs = 0 ∧
      m₁.slots old.id = m.slots old.id := by
  have hmem : old ∈ (s.blockTable.blocks : Multiset BlockHandle) + rest :=
    Multiset.mem_add.mpr (.inl hold)
  have hne : old.id ∉ [new].map BlockHandle.id :=
    ha.notMem hs.good (hs.owned.refs_pos hmem)
  have hnew := hs.good.mem_reclaimOrder.mp
    (ha.order ▸ List.mem_append_left _ (by simp) : new.id ∈ m.reclaimOrder)
  refine ⟨fun he => hne (by simp [he]), hnew.2, ha.frame _ hne⟩

/-- **What the call does**, from the ledger. -/
theorem copyExact (hs : Sound H m (s.blockTable.blocks + rest)) (hb : 0 < s.blockSize)
    (hc : s.Covered) {others : List SequenceState}
    (hothers : ∀ r ∈ others, ∀ h ∈ r.blockTable.blocks, h ∈ rest) (grow : ℕ → Option Exn)
    (copy : Option (BlockCopier σ)) (x : σ) : CopyExact m s others grow copy x := by
  have hconcat : tailShared m s = true → ∃ blocks old, s.blockTable.blocks = blocks ++ [old] := by
    intro ht
    refine hc.concat fun h0 => ?_
    simp [tailShared, h0] at ht
  refine ⟨fun ht => ?_, fun ht hwhy => ?_, fun ht hmax f new m₁ hf ha => ?_,
    fun ht loc m' s' y h => ?_, fun err m' s' y h => ?_, fun m' hcall r hr l => ?_⟩
  · by_cases hmax : s.numTokens = sizeMax
    · rw [appendTokenWithCopy_limit hmax, onFst_apply, appendToken_limit hmax]
    · exact appendTokenWithCopy_inPlace hmax (in_place_of_tailShared hs hc ht)
  · obtain ⟨blocks, old, hblocks⟩ := hconcat ht
    by_cases hmax : s.numTokens = sizeMax
    · exact ⟨_, appendTokenWithCopy_limit hmax⟩
    rw [appendTokenWithCopy_recorded hs copy hmax hblocks ht]
    rcases hwhy with hlimit | rfl | ⟨err, m', ha⟩
    · exact absurd hlimit hmax
    · exact ⟨_, rfl⟩
    · cases copy with
      | none => exact ⟨_, rfl⟩
      | some f =>
        rw [ha]
        exact ⟨err, rfl⟩
  · obtain ⟨blocks, old, hblocks⟩ := hconcat ht
    rw [appendTokenWithCopy_recorded hs copy hmax hblocks ht, hf, ha]
    rcases hs.allocate with ⟨new', m₂, ha', -, halloc⟩ | ⟨err, ha'⟩
    · obtain ⟨rfl, rfl⟩ := EStateM.Result.ok.inj (ha.symm.trans ha')
      obtain ⟨-, hnew, -⟩ := copied_pages hs halloc
        (show old ∈ s.blockTable.blocks by simp [hblocks])
      obtain ⟨hcd, hrefs⟩ := halloc.fresh new List.mem_cons_self
      exact ⟨blocks, old, hblocks, ⟨hnew, hrefs, hcd⟩, rfl⟩
    · rw [ha] at ha'
      cases ha'
  · obtain ⟨blocks, old, hblocks⟩ := hconcat ht
    by_cases hmax : s.numTokens = sizeMax
    · rw [appendTokenWithCopy_limit hmax] at h
      cases h
    rw [appendTokenWithCopy_recorded hs copy hmax hblocks ht] at h
    cases copy with
    | none => cases h
    | some f =>
    rcases hs.allocate with ⟨new, m₁, ha, -, halloc⟩ | ⟨err, ha⟩
    swap
    · rw [ha] at h
      cases h
    rw [ha] at h
    simp only at h
    cases hcopy : f m₁ old new x with
    | error err x' =>
      rw [hcopy] at h
      cases h
    | ok u x' =>
      rw [hcopy] at h
      cases h
      obtain ⟨hne, -, hsame⟩ := copied_pages hs halloc
        (show old ∈ s.blockTable.blocks by simp [hblocks])
      obtain ⟨hcd, hrefs⟩ := halloc.fresh new List.mem_cons_self
      have hshared := ((tailShared_iff hblocks).mp ht).2
      refine ⟨blocks, old, new, hblocks, rfl, rfl, ?_, ?_, ?_, fun page h₁ h₂ => ?_⟩
      · rw [released_slots, if_pos rfl, hsame]
        split_ifs with h0
        · omega
        · show (m.slots old.id).refs - 1 + 1 = _
          omega
      · rw [released_slots, if_neg hne, hrefs]
      · rw [released_slots, if_neg hne, hcd]
      · rw [released_slots, if_neg h₁, halloc.frame page (by simpa using h₂)]
  · rcases appendTokenWithCopy_cases hs hb hc grow (copy.map recorded) (x, []) with
      ⟨loc, m₁, s₁, x₁, h', -⟩ | ⟨err', m₁, x₁, h', hs', hshrink⟩
    · rw [h'] at h
      cases h
    · rw [h'] at h
      cases h
      exact ⟨rfl, hs.unchanged hs' hshrink⟩
  · have hsound : ∃ s' : SequenceState, Sound H m' (s'.blockTable.blocks + rest) := by
      obtain ⟨s', y, ⟨loc, h⟩ | ⟨err, h⟩⟩ := hcall
      · rcases appendTokenWithCopy_cases hs hb hc grow (copy.map recorded) (x, []) with
          ⟨loc', m₁, s₁, x₁, h', hs', -⟩ | ⟨err', m₁, x₁, h', -⟩
        · rw [h'] at h
          cases h
          exact ⟨_, hs'⟩
        · rw [h'] at h
          cases h
      · rcases appendTokenWithCopy_cases hs hb hc grow (copy.map recorded) (x, []) with
          ⟨loc', m₁, s₁, x₁, h', -⟩ | ⟨err', m₁, x₁, h', hs', -⟩
        · rw [h'] at h
          cases h
        · rw [h'] at h
          cases h
          exact ⟨_, hs'⟩
    obtain ⟨s', hs'⟩ := hsound
    refine physicalBlockId_congr hs hs' (fun h hh => ?_) l
    exact ⟨Multiset.mem_add.mpr (.inr (hothers r hr h hh)),
      Multiset.mem_add.mpr (.inr (hothers r hr h hh))⟩

open Family in
/-- **Main result.** In every reachable family an append copies exactly when the tail page is
partial and shared: it calls the callback once, changes the last entry of its own table and nothing
of the other sequences, or it throws and has changed nothing that anybody holds. -/
theorem copy_exact {here : ℕ} {f : Family} {i : ℕ}
    (hr : Transition.Reachable (step here) (Start H) (Allowed H) f)
    (hi : f.sequences[i]? = some s) (grow : ℕ → Option Exn) (copy : Option (BlockCopier σ)) (x : σ) :
    CopyExact f.pool s (f.sequences.eraseIdx i) grow copy x := by
  have hf := intact_of_reachable hr
  have hb : 0 < s.blockSize := (hf.at_ hi).blockSize ▸ hf.blockSize_pos
  refine copyExact (hf.view hi) hb (hf.at_ hi).covered (fun r hr h hh => ?_) grow copy x
  exact Multiset.mem_add.mpr (.inl (Multiset.mem_add.mpr (.inl (mem_tables hr hh))))

/-- One of two sequences goes on from a shared partial page. -/
theorem copy_exact_forked : ∃ f : Family, ∃ s old new loc st,
    Transition.run (Family.step 0) [.create 1, .appendTokens 0 3 fun _ => none,
      .forkShared 0 2 fun _ => none] ⟨BlockManager.init 4 2, [], 0⟩ = some f ∧
    f.sequences[0]? = some s ∧
    appendTokenWithCopy (fun _ => none) (some (recorded fun _ _ _ n => .ok () (n + 1)))
      ((f.pool, s), (0, [])) = .ok loc (st, (1, [(old, new)])) := by
  have hstart : Family.Start (fun _ => 0) ⟨BlockManager.init 4 2, [], 0⟩ :=
    ⟨⟨4, 2, fun _ => .ok 0, fun _ _ h => (Except.ok.inj h).symm, rfl⟩, rfl, rfl⟩
  have hnew : Transition.Reachable (Family.step 0) (Family.Start fun _ => 0)
      (Family.Allowed fun _ => 0) ⟨BlockManager.init 4 2, [], 0⟩ := .start hstart
  have hcheck : (Transition.run (Family.step 0) [.create 1, .appendTokens 0 3 fun _ => none,
      .forkShared 0 2 fun _ => none] ⟨BlockManager.init 4 2, [], 0⟩).any (fun f =>
        f.sequences.length = 2 ∧ thrown (PhysicalBlockPool.allocate f.pool) = none ∧
          ∀ s ∈ f.sequences, s.numTokens = 3 ∧ tailShared f.pool s = true) = true := by
    decide +kernel
  obtain ⟨f, hrun, hf⟩ := (Option.any_eq_true _ _).mp hcheck
  obtain ⟨hlen, halloc, hall⟩ := of_decide_eq_true hf
  have hreach := hnew.run (fun a ha s => by fin_cases ha <;> exact trivial) hrun
  have hi : f.sequences[0]? = some f.sequences[0] := List.getElem?_eq_getElem (by omega)
  obtain ⟨hnum, hshared⟩ := hall _ (List.mem_of_getElem? hi)
  cases ha : PhysicalBlockPool.allocate f.pool with
  | error err m => rw [ha] at halloc; cases halloc
  | ok new m₁ =>
    have hmax : f.sequences[0].numTokens ≠ sizeMax := by
      rw [hnum]
      decide
    obtain ⟨blocks, old, -, -, hcall⟩ := (copy_exact hreach hi (fun _ => none)
      (some fun _ _ _ n => .ok () (n + 1)) 0).copied hshared hmax _ new m₁ rfl ha
    exact ⟨f, _, old, new, _, _, hrun, hi, hcall⟩

end KVFlux.V2
