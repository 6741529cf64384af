import KVFlux.TieredBlockManager.Demand

/-!
# Prefetching

* `Core.enqueue`, `Core.accept`: a load is queued, a prefetch is counted.
* `prefetchWindow`: the blocks that `prefetch_next` protects; `Crowded`: no slot is free, and only
  protected blocks could leave one.
* `Windowed`: what becomes of the protected blocks.
* **`prefetchNext_post`**: what a call leaves, whether or not it throws; it never lacks a slot.
-/

namespace KVFlux.TieredBlockManager

open Fallible BlockManager AsyncTransfer Table

variable {c : ℕ → Bytes} {x x' : Option ℕ} {ps ps' qs qs' hs : List LogicalBlockHandle}
  {m m' m'' : TieredBlockManager} {i id : ℕ} {e : Entry} {h : LogicalBlockHandle} {g : BlockHandle}
  {isProtected : ℕ → Bool}

/-! ## Queueing a load -/

/-- The entry of a block that waits for a slot. -/
def Entry.enqueued (e : Entry) : Entry := { e with location := .transferring, move := .queuedLoad }

theorem enqueue_entries (h : LogicalBlockHandle) (m : TieredBlockManager) :
    (prefetchBlock.enqueue h m).entries =
      Function.update m.entries h.id (m.entries h.id).enqueued := rfl

/-- **A load is queued.** -/
theorem Core.enqueue (hc : Core c x ps qs m) (hlive : (m.entries h.id).live = true)
    (hhandle : (m.entries h.id).handle = h) (hp : (m.entries h.id).phase = some .stored) :
    Core c x ps (qs ++ [h]) (prefetchBlock.enqueue h m) ∧
      Frame m (prefetchBlock.enqueue h m) := by
  have hentries := enqueue_entries h m
  have hgpu := (Entry.phase_stored.mp hp).2.2
  have hpins : (m.entries h.id).pins = 0 := hc.pins_eq (by rw [hp]; decide)
  have hphase : (m.entries h.id).enqueued.phase = some .queued :=
    Entry.phase_queued.mpr ⟨rfl, rfl, hgpu⟩
  have hheld : (prefetchBlock.enqueue h m).held = m.held := held_same rfl hentries rfl
  have hold := hc.entry h.id
  obtain ⟨hnm, hnw⟩ := not_moving_of_phase hp (.inr rfl)
  refine ⟨hc.update rfl hentries rfl (hheld.symm ▸ hc.ledger) hc.unpublished rfl (fun _ => rfl)
    (fun _ _ => rfl) (fun _ _ _ _ => ⟨rfl, rfl⟩) (fun g' hg' => ?_) (fun _ _ hx => hx) ?_ ?_
    (hc.waiting.push hhandle hnw hphase) ?_, ?_⟩
  · exact absurd (hg'.symm.trans hgpu) (Option.some_ne_none g')
  · refine hold.of_live (e := (m.entries h.id).enqueued) hlive rfl rfl (Function.update_self ..)
      rfl rfl (by rw [hphase]; exact Option.some_ne_none _) (fun hp' => absurd hpins hp')
      (fun _ _ => by rw [hphase]; decide) (fun _ => hold.backed hlive (.inl hp))
      (fun g' hg' => absurd (hg'.symm.trans hgpu) (Option.some_ne_none g'))
  · have hnm' : ¬ (m.entries h.id).enqueued.Moving := fun hm => by
      rcases hm with hm | hm <;> (rw [hphase] at hm; cases hm)
    rw [hentries]
    exact hc.moving.same (iff_of_false hnm' hnm) fun hm => absurd hm hnm'
  · exact hc.lru_same rfl hentries (iff_of_false (Entry.not_evictable hphase (by decide))
      (Entry.not_evictable hp (by decide)))
  · exact frame_entry hentries rfl rfl rfl rfl rfl hpins ⟨rfl, rfl, hpins⟩ rfl

/-! ## Counting a prefetch -/

theorem accept_entries (h : LogicalBlockHandle) (m : TieredBlockManager) :
    (prefetchBlock.accept h m).entries =
      Function.update m.entries h.id { m.entries h.id with prefetched := true } := rfl

/-- **A prefetch is counted and marked.** -/
theorem Inv.accept (hi : Inv c m) (hlive : (m.entries h.id).live = true)
    (hp : (m.entries h.id).phase = some .loading ∨ (m.entries h.id).phase = some .queued)
    (hmark : (m.entries h.id).prefetched = false) :
    Inv c (prefetchBlock.accept h m) ∧ Frame m (prefetchBlock.accept h m) := by
  have hc := hi.steady.core
  have hentries := accept_entries h m
  have hne : (m.entries h.id).phase ≠ some .resident ∧ (m.entries h.id).phase ≠ some .stored ∧
      (m.entries h.id).phase ≠ some .saving := by
    rcases hp with hp | hp
    all_goals rw [hp]; decide
  have hpins := hc.pins_eq hne.1
  have hlt := hc.lt_capacity hlive
  have hc' : Core c none m.pending m.queued (prefetchBlock.accept h m) := by
    refine hc.relabel rfl rfl rfl hentries rfl (fun hl => ?_) (hc.entry h.id).pinned
      (fun _ _ => hne.2) (fun _ _ hx => hx) (hc.lru_same rfl hentries Iff.rfl)
    rw [hlive] at hl
    cases hl
  have hsame : ∀ j, ((prefetchBlock.accept h m).entries j).gpu = (m.entries j).gpu ∧
      ((prefetchBlock.accept h m).entries j).move = (m.entries j).move := fun j => by
    rw [hentries]
    by_cases hj : j = h.id
    · rw [hj, Function.update_self]
      exact ⟨rfl, rfl⟩
    · rw [Function.update_of_ne hj]
      exact ⟨rfl, rfl⟩
  refine ⟨⟨⟨hc', underway_congr hi.steady.underway (fun g _ => hsame g.id) rfl,
    billed_congr hi.steady.billed rfl rfl rfl rfl rfl⟩, ?_⟩, ?_⟩
  · exact hi.reserve.trans_eq (leaving_congr fun g _ => (hsame g.id).2).symm
  · refine ⟨rfl, rfl, rfl, rfl, fun j => ?_, fun j hj => ?_, spares_of_eq rfl, ?_, rfl,
      le_rfl⟩
    · rw [hentries]
      by_cases hj : j = h.id
      · rw [hj, Function.update_self]
        exact ⟨rfl, rfl, rfl⟩
      · rw [Function.update_of_ne hj]
        exact ⟨rfl, rfl, rfl⟩
    · have hne' : j ≠ h.id := fun he => hj (by rw [he, hpins])
      rw [hentries, Function.update_of_ne hne']
    · -- one more mark, one more prefetch
      have htotal := total_update hlt { m.entries h.id with prefetched := true }
        (f := fun e : Entry => if e.prefetched = true then 1 else 0) (e := m.entries)
      rw [hmark] at htotal
      have houtstanding : (prefetchBlock.accept h m).outstanding = m.outstanding + 1 := by
        have hlogical : (prefetchBlock.accept h m).logical = m.logical := rfl
        unfold outstanding
        rw [hentries, hlogical]
        simpa using htotal
      unfold marks
      rw [houtstanding]
      show m.prefetchHits + m.prefetchLate + m.prefetchUnused + (m.outstanding + 1) +
        m.prefetchSubmitted = m.prefetchHits + m.prefetchLate + m.prefetchUnused + m.outstanding +
        (m.prefetchSubmitted + 1)
      omega

/-! ## The window -/

/-- The blocks that `prefetch_next` protects. -/
def prefetchWindow (order : List LogicalBlockHandle) (current nextN : ℕ) :
    List LogicalBlockHandle :=
  (order.drop current).take (min nextN (order.length - current - 1) + 1)

/-- No slot is free, and every block that could leave one is protected. -/
def Crowded (isProtected : ℕ → Bool) (m : TieredBlockManager) : Prop :=
  m.remainingBlocks = 0 ∧ m.victim isProtected = none

/-- What becomes of the protected blocks while the blocks `hs` are prefetched. -/
structure Windowed (isProtected : ℕ → Bool) (hs : List LogicalBlockHandle)
    (m m' : TieredBlockManager) : Prop where
  kept : ∀ i, isProtected i = true → (m'.entries i).phase = (m.entries i).phase ∨
    (m.entries i).phase = some .stored ∧
      ((m'.entries i).phase = some .loading ∨ (m'.entries i).phase = some .queued)
  reached : ∀ h ∈ hs, (m'.entries h.id).phase = some .stored → Crowded isProtected m'
  stuck : Crowded isProtected m → Crowded isProtected m'

namespace Windowed

theorem refl (isProtected : ℕ → Bool) (m : TieredBlockManager) : Windowed isProtected [] m m :=
  ⟨fun _ _ => .inl rfl, fun _ hh => absurd hh List.not_mem_nil, fun hc => hc⟩

/-- A protected block that is stored in the end was never moved. -/
theorem stored (hw : Windowed isProtected hs m m') (hp : isProtected i = true)
    (hs' : (m'.entries i).phase = some .stored) : (m.entries i).phase = some .stored := by
  rcases hw.kept i hp with hsame | ⟨hstored, -⟩
  · exact hsame.symm.trans hs'
  · exact hstored

theorem cons (hw : Windowed isProtected [h] m m') (hw' : Windowed isProtected hs m' m'')
    (hp : isProtected h.id = true) : Windowed isProtected (h :: hs) m m'' where
  kept i hi := by
    rcases hw'.kept i hi with hsame | ⟨hstored, hmoved⟩
    · rw [hsame]
      exact hw.kept i hi
    · exact .inr ⟨hw.stored hi hstored, hmoved⟩
  reached h' hh' hs' := by
    rcases List.mem_cons.mp hh' with rfl | hh'
    · exact hw'.stuck (hw.reached h' (List.mem_singleton_self h') (hw'.stored hp hs'))
    · exact hw'.reached h' hh' hs'
  stuck hc := hw'.stuck (hw.stuck hc)

/-- A block on its way leaves the other protected blocks alone. -/
theorem of_moved (hothers : ∀ j, isProtected j = true → j ≠ h.id → m'.entries j = m.entries j)
    (hp : (m.entries h.id).phase = some .stored)
    (hp' : (m'.entries h.id).phase = some .loading ∨ (m'.entries h.id).phase = some .queued)
    (hroom : ¬ Crowded isProtected m) : Windowed isProtected [h] m m' where
  kept i hi := by
    by_cases he : i = h.id
    · exact .inr (he ▸ ⟨hp, hp'⟩)
    · rw [hothers i hi he]
      exact .inl rfl
  reached h' hh' hs' := by
    obtain rfl := List.mem_singleton.mp hh'
    rcases hp' with hp' | hp'
    all_goals exact absurd (hp'.symm.trans hs') (by decide)
  stuck hc := absurd hc hroom

end Windowed

/-! ## `prefetch_next` -/

/-- What a prefetch leaves, also when it throws. -/
structure Prefetched (c : ℕ → Bytes) (m m' : TieredBlockManager) : Prop where
  inv : Inv c m'
  frame : Frame m m'

theorem Prefetched.after (h : Frame m m') (h' : Prefetched c m' m'') : Prefetched c m m'' :=
  ⟨h'.inv, h.trans h'.frame⟩

/-- **A prefetch of one block** leaves it where it is only when the slots are crowded. -/
theorem prefetchBlock_post (hi : Inv c m) (isProtected : ℕ → Bool) (h : LogicalBlockHandle) :
    Post (fun _ m' => Prefetched c m m' ∧ Windowed isProtected [h] m m')
      (fun e m' => Prefetched c m m' ∧ NotCapacity e) (prefetchBlock isProtected h m) := by
  have hstay : Prefetched c m m := ⟨hi, Frame.refl m⟩
  unfold prefetchBlock
  by_cases hv : m.logical.Valid (raw h)
  swap
  · rw [bind_of_error (checked_of_not_valid hv)]
    exact ⟨hstay, fun he => absurd he (by decide)⟩
  rw [bind_of_ok (checked_of_valid hv)]
  refine Post.ite (fun hlocation => ⟨hstay, ?_⟩) fun hlocation => ?_
  · refine ⟨fun _ _ => .inl rfl, fun h' hh' hs' => ?_, fun hc => hc⟩
    obtain rfl := List.mem_singleton.mp hh'
    exact absurd (Entry.of_phase hs').1 hlocation
  obtain ⟨hlive, hhandle⟩ := hi.steady.core.of_valid hv
  obtain ⟨p, hp⟩ := hi.steady.core.exists_phase h.id
  obtain rfl : p = .stored := by
    rw [(Entry.of_phase hp).1] at hlocation
    cases p with
    | stored => rfl
    | _ => exact absurd (by decide) hlocation
  have hmark : (m.entries h.id).prefetched = false := by
    cases hm : (m.entries h.id).prefetched with
    | false => rfl
    | true =>
      exact absurd hp ((hi.steady.core.entry h.id).marked (Option.some_ne_none _).symm hm).1
  rw [bind_of_ok (get_apply m)]
  refine Post.ite (fun hroom => ?_) fun hroom => ?_
  · rcases hi.startLoad_cases hv hp with
      ⟨m₁, hrun, hbegun, hmark₁⟩ | ⟨e, hrun, hfull⟩ | ⟨e, m₁, hrun, hcap, hrev⟩
    · rw [bind_of_ok hrun]
      obtain ⟨hi', hframe⟩ := (hbegun.inv hi).accept (h := h)
        ((hbegun.frame.entry h.id).1.trans hlive) (.inl hbegun.phase) (hmark₁.trans hmark)
      refine ⟨⟨hi', hbegun.frame.trans hframe⟩,
        Windowed.of_moved (fun j _ hj => ?_) hp (.inl ?_) fun hc => hroom hc.1⟩
      · rw [accept_entries, Function.update_of_ne hj]
        exact hbegun.others j hj
      · rw [accept_entries, Function.update_self]
        exact hbegun.phase
    · rw [bind_of_error hrun]
      exact ⟨hstay, fun he => hroom (hfull he)⟩
    · rw [bind_of_error hrun]
      exact ⟨⟨hrev.inv, hrev.frame⟩, hcap⟩
  · rcases hi.steady.core.victim_cases isProtected with
      ⟨id, hvictim, hev, hout⟩ | ⟨hvictim, -⟩
    swap
    · rw [hvictim]
      have hcrowded : Crowded isProtected m := ⟨not_not.mp hroom, hvictim⟩
      refine ⟨⟨⟨⟨hi.steady.core.congr rfl rfl rfl rfl rfl, hi.steady.underway,
        hi.steady.billed⟩, hi.reserve⟩, ⟨rfl, rfl, rfl, rfl, fun _ => ⟨rfl, rfl, rfl⟩,
        fun _ _ => rfl, Spares.refl _, rfl, rfl, le_rfl⟩⟩, ?_⟩
      exact ⟨fun _ _ => .inl rfl, fun _ _ _ => hcrowded, fun _ => hcrowded⟩
    rw [hvictim]
    obtain ⟨hv', hid⟩ := hi.steady.core.valid_of_evictable hev
    have hev' : (m.entries (m.entries id).handle.id).Evictable := by rwa [hid]
    have hne : h.id ≠ (m.entries id).handle.id := fun he => by
      rw [he, hev'.1] at hp
      cases hp
    rcases hi.startOffload_cases hv' hev' with ⟨m₁, hrun, hbegun, -⟩ | ⟨e, m₁, hrun, hcap, hrev⟩
    · show Post _ _ ((startOffload _ >>= _) m)
      rw [bind_of_ok hrun]
      have hself : m₁.entries h.id = m.entries h.id := hbegun.others h.id hne
      obtain ⟨hc₂, hframe₂⟩ := hbegun.steady.core.enqueue (h := h) (by rw [hself]; exact hlive)
        (by rw [hself]; exact hhandle) (by rw [hself]; exact hp)
      have hinv : Inv c (prefetchBlock.enqueue h m₁) := by
        have hsame : ∀ g ∈ m₁.pending,
            (prefetchBlock.enqueue h m₁).entries g.id = m₁.entries g.id := fun g hg => by
          have hne' : g.id ≠ h.id := fun he => by
            have hm := hbegun.steady.core.moving.of_mem hg
            rw [he, hself] at hm
            rcases hm with hm | hm <;> (rw [hp] at hm; cases hm)
          rw [enqueue_entries, Function.update_of_ne hne']
        refine ⟨⟨?_, underway_congr hbegun.steady.underway
          (fun g hg => by rw [hsame g hg]; exact ⟨rfl, rfl⟩) rfl,
          billed_congr hbegun.steady.billed rfl rfl rfl rfl rfl⟩, ?_⟩
        · show Core c none m₁.pending (m₁.queued ++ [h]) _
          rw [hbegun.queued]
          exact hc₂
        · show (m₁.queued ++ [h]).length ≤ leaving m₁.pending (prefetchBlock.enqueue h m₁)
          have hleaving : leaving m₁.pending (prefetchBlock.enqueue h m₁) = leaving m.pending m + 1 :=
            (leaving_congr fun g hg => by rw [hsame g hg]).trans hbegun.leaving
          rw [hleaving, hbegun.queued, List.length_append]
          exact Nat.add_le_add_right hi.reserve 1
      have hself₂ : (prefetchBlock.enqueue h m₁).entries h.id = (m₁.entries h.id).enqueued :=
        Function.update_self ..
      obtain ⟨hi₃, hframe₃⟩ := hinv.accept (h := h) (by rw [hself₂, hself]; exact hlive)
        (by
          rw [hself₂, hself]
          exact .inr (Entry.phase_queued.mpr ⟨rfl, rfl, (Entry.phase_stored.mp hp).2.2⟩))
        (by rw [hself₂, hself]; exact hmark)
      refine ⟨⟨hi₃, (hbegun.frame.trans hframe₂).trans hframe₃⟩,
        Windowed.of_moved (fun j hj hne' => ?_) hp (.inr ?_) fun hc => ?_⟩
      · have hspared : j ≠ (m.entries id).handle.id := fun he => by
          rw [he, hid, hout] at hj
          cases hj
        rw [accept_entries, Function.update_of_ne hne', enqueue_entries,
          Function.update_of_ne hne']
        exact hbegun.others j hspared
      · rw [accept_entries, Function.update_self, hself₂, hself]
        exact Entry.phase_queued.mpr ⟨rfl, rfl, (Entry.phase_stored.mp hp).2.2⟩
      · have hnone := hc.2
        rw [hvictim] at hnone
        cases hnone
    · show Post _ _ ((startOffload _ >>= _) m)
      rw [bind_of_error hrun]
      exact ⟨⟨hrev.inv, hrev.frame⟩, hcap⟩

theorem prefetchLoop_post (isProtected : ℕ → Bool) (hs : List LogicalBlockHandle) :
    ∀ {m} submitted, Inv c m → Post (fun _ m' => Prefetched c m m' ∧
      ((∀ h ∈ hs, isProtected h.id = true) → Windowed isProtected hs m m'))
      (fun e m' => Prefetched c m m' ∧ NotCapacity e) (prefetchLoop isProtected hs submitted m) := by
  induction hs with
  | nil => exact fun _ hi => ⟨⟨hi, Frame.refl _⟩, fun _ => Windowed.refl isProtected _⟩
  | cons h hs ih =>
    intro m submitted hi
    refine (prefetchBlock_post hi isProtected h).bind fun accepted m₁ h₁ => ?_
    refine (ih _ h₁.1.inv).mono (fun _ _ h₂ => ⟨h₂.1.after h₁.1.frame, fun hall => ?_⟩)
      fun _ _ h₂ => ⟨h₂.1.after h₁.1.frame, h₂.2⟩
    exact h₁.2.cons (h₂.2 fun h' hh' => hall h' (List.mem_cons_of_mem h hh'))
      (hall h List.mem_cons_self)

theorem checkAll_post (hs : List LogicalBlockHandle) (m : TieredBlockManager) :
    Post (fun _ m' => m' = m) (fun e m' => m' = m ∧ NotCapacity e) (checkAll hs m) := by
  induction hs with
  | nil => exact rfl
  | cons h hs ih =>
    rw [checkAll]
    by_cases hv : m.logical.Valid (raw h)
    · rw [bind_of_ok (checked_of_valid hv)]
      exact ih
    · rw [bind_of_error (checked_of_not_valid hv)]
      exact ⟨rfl, fun he => absurd he (by decide)⟩

/-- **The outcomes of `prefetch_next`.** No block of the window is moved to the host, and one stays
there only when the slots are crowded. -/
theorem prefetchNext_post (hi : Inv c m) (order : List LogicalBlockHandle) (current nextN : ℕ) :
    Post (fun _ m' => Prefetched c m m' ∧
      (∀ h ∈ prefetchWindow order current nextN, (m'.entries h.id).phase = some .saving →
        (m.entries h.id).phase = some .saving) ∧
      ∀ h ∈ (prefetchWindow order current nextN).tail, (m'.entries h.id).phase = some .stored →
        Crowded (fun id => id ∈ (prefetchWindow order current nextN).map LogicalBlockHandle.id) m')
      (fun e m' => Prefetched c m m' ∧ NotCapacity e) (prefetchNext order current nextN m) := by
  have hstay : Prefetched c m m := ⟨hi, Frame.refl m⟩
  unfold prefetchNext
  refine Post.ensure (fun _ => ?_) fun _ => ⟨hstay, fun he => absurd he (by decide)⟩
  change Post _ _ ((checkAll (prefetchWindow order current nextN) >>= fun _ => poll >>= fun _ =>
    prefetchLoop (fun id => id ∈ (prefetchWindow order current nextN).map LogicalBlockHandle.id)
      (prefetchWindow order current nextN).tail 0) m)
  generalize prefetchWindow order current nextN = window
  have hcheck := (checkAll_post window m).mono (fun _ _ h => h) fun e m' h =>
    show Prefetched c m m' ∧ NotCapacity e from ⟨h.1.symm ▸ hstay, h.2⟩
  refine hcheck.bind fun _ m₁ h₁ => ?_
  subst h₁
  have hpoll := (poll_post hi).mono (fun _ _ h => h) fun e m' h =>
    show Prefetched c m₁ m' ∧ NotCapacity e from ⟨⟨h.1, h.2.1⟩, h.2.2⟩
  refine hpoll.bind fun _ m₂ h₂ => ?_
  obtain ⟨hi₂, hframe, -, hsaves⟩ := h₂
  have hprotected : ∀ h ∈ window, decide (h.id ∈ window.map LogicalBlockHandle.id) = true :=
    fun h hh => decide_eq_true (List.mem_map_of_mem hh)
  refine (prefetchLoop_post _ _ 0 hi₂).mono (fun _ m' h₃ => ?_)
    fun _ _ h₃ => ⟨h₃.1.after hframe, h₃.2⟩
  have hw := h₃.2 fun h hh => hprotected h (List.mem_of_mem_tail hh)
  refine ⟨h₃.1.after hframe, fun h hh hp => hsaves h.id ?_, hw.reached⟩
  rcases hw.kept h.id (hprotected h hh) with hsame | ⟨-, hp' | hp'⟩
  · exact hsame.symm.trans hp
  all_goals exact absurd (hp'.symm.trans hp) (by decide)

end KVFlux.TieredBlockManager
