import KVFlux.TieredBlockManager.Wait

/-!
# Room for a block

* `victimFrom_eq`: the search for a victim goes through the LRU list, oldest first.
* `Full m`: every GPU slot is leased.
* **`makeRoom_post`**, **`load_post`**, **`offload_post`**: what the calls leave; a demand lacks a
  slot only when every slot is leased.
-/

namespace KVFlux.TieredBlockManager

open Fallible BlockManager AsyncTransfer Table Threaded

variable {c : ℕ → Bytes} {x x' : Option ℕ} {ps ps' qs qs' : List LogicalBlockHandle}
  {m m' m'' : TieredBlockManager} {i id : ℕ} {e : Entry} {h : LogicalBlockHandle} {g : BlockHandle}
  {isProtected : ℕ → Bool} {p : Phase}

/-! ## The victim -/

/-- **The victim is the oldest id that is not protected.** -/
theorem victimFrom_eq {lru : IndexLru} (xs : List ℕ) : ∀ {cur n}, Chain lru.next cur xs →
    xs.length ≤ n → victimFrom lru isProtected n cur = xs.find? fun id => !isProtected id := by
  induction xs with
  | nil =>
    intro cur n hc _
    rw [chain_nil.mp hc]
    cases n <;> rfl
  | cons x xs ih =>
    intro cur n hc hn
    obtain ⟨rfl, hrest⟩ := chain_cons.mp hc
    cases n with
    | zero => simp at hn
    | succ n =>
      rw [victimFrom, List.find?_cons]
      cases hx : isProtected x with
      | false => rfl
      | true => exact ih hrest (Nat.le_of_succ_le_succ hn)

/-- The victim of a state that keeps the invariant. -/
theorem Core.victim_cases (hc : Core c x ps qs m) (isProtected : ℕ → Bool) :
    (∃ id, m.victim isProtected = some id ∧ (m.entries id).Evictable ∧ isProtected id = false) ∨
    (m.victim isProtected = none ∧ ∀ i, (m.entries i).Evictable → isProtected i = true) := by
  obtain ⟨xs, hrepr, hmem⟩ := hc.lru
  have hbound : xs.length ≤ m.logical.capacity := by
    refine le_of_le_of_eq (List.subperm_of_subset hrepr.nodup fun i hi =>
      List.mem_range.mpr ?_).length_le List.length_range
    obtain ⟨-, -, g, hg⟩ := Entry.phase_resident.mp ((hmem i).mp hi).1
    exact hc.lt_capacity (hc.live_of_gpu hg)
  have hchain : Chain m.residentLru.next m.residentLru.oldest xs := by
    rw [hrepr.oldest_eq]
    exact hrepr.seg.chain
  have hvictim : m.victim isProtected = xs.find? fun id => !isProtected id :=
    victimFrom_eq xs hchain hbound
  rw [hvictim]
  cases hfind : xs.find? fun id => !isProtected id with
  | none =>
    refine .inr ⟨rfl, fun i hi => ?_⟩
    have hnot := List.find?_eq_none.mp hfind i ((hmem i).mpr hi)
    simpa using hnot
  | some id =>
    refine .inl ⟨id, rfl, (hmem id).mp (List.mem_of_find?_eq_some hfind), ?_⟩
    simpa using List.find?_some hfind

/-! ## Started moves between two calls -/

/-- The handle of a block that can be moved out. -/
theorem Core.valid_of_evictable (hc : Core c x ps qs m) (he : (m.entries id).Evictable) :
    m.logical.Valid (raw (m.entries id).handle) ∧ (m.entries id).handle.id = id := by
  obtain ⟨-, -, g, hg⟩ := Entry.phase_resident.mp he.1
  exact hc.valid_of_live (hc.live_of_gpu hg)

theorem Begun.leaving (hb : Begun c p qs h m m') : leaving m'.pending m' =
    leaving m.pending m + if p = .saving then 1 else 0 := by
  have hc := hb.steady.core
  have hnodup := hc.moving.nodup
  rw [hb.pending, List.map_append, List.nodup_append] at hnodup
  have hmove : ((m'.entries h.id).move = .toCpu) ↔ p = .saving := by
    have hm := hc.moving.of_mem (hb.pending ▸ List.mem_append_right _ (List.mem_singleton_self h))
    have hp := hb.phase
    rcases hm with hm | hm
    · obtain rfl := Option.some.inj (hp.symm.trans hm)
      rw [(Entry.phase_loading.mp hm).2.1]
      decide
    · obtain rfl := Option.some.inj (hp.symm.trans hm)
      rw [(Entry.phase_saving.mp hm).2.1]
      decide
  have hsame : TieredBlockManager.leaving m.pending m' = TieredBlockManager.leaving m.pending m := by
    refine leaving_congr fun g hg => ?_
    rw [hb.others]
    exact hnodup.2.2 g.id (List.mem_map_of_mem hg) h.id (List.mem_singleton_self _)
  rw [hb.pending, ← hsame]
  unfold TieredBlockManager.leaving
  rw [List.countP_append, List.countP_singleton]
  by_cases hs : p = .saving
  · simp [hs, hmove.mpr hs]
  · have hne := mt hmove.mp hs
    simp [hs, hne]

/-- **A move that has started** keeps the invariant. -/
theorem Begun.inv (hi : Inv c m) (hb : Begun c p m.queued h m m') : Inv c m' where
  steady := by
    rw [hb.queued]
    exact hb.steady
  reserve := by
    rw [hb.queued, hb.leaving]
    exact hi.reserve.trans (Nat.le_add_right _ _)

theorem Reverted.inv (h : Reverted c [] m m') : Inv c m' := inv_of_queued h.steady h.queued

theorem Reverted.calm (h : Reverted c [] m m') (i : ℕ) : (m'.entries i).Calm :=
  (calm_iff h.core i).mpr ⟨not_moving_of_nil h.core i, not_waiting_of_nil h.core i⟩

/-- The steps of `start_load` between two calls. -/
theorem Inv.startLoad_cases (hi : Inv c m) (hv : m.logical.Valid (raw h))
    (hp : (m.entries h.id).phase = some .stored) :
    (∃ m', startLoad h m = .ok () m' ∧ Begun c .loading m.queued h m m' ∧
      (m'.entries h.id).prefetched = (m.entries h.id).prefetched) ∨
    (∃ e, startLoad h m = .error e m ∧ (e = .capacityError → m.remainingBlocks = 0)) ∨
    ∃ e m', startLoad h m = .error e m' ∧ NotCapacity e ∧ Reverted c [] m m' := by
  have hs : Steady c none (m.queued ++ []) m := by
    rw [List.append_nil]
    exact hi.steady
  have hcases := TieredBlockManager.startLoad_cases hs hv hp (.inl rfl)
  rw [List.append_nil] at hcases
  refine hcases.imp_left fun hstart => ?_
  obtain ⟨m', hrun, hb, -, hm⟩ := hstart
  exact ⟨m', hrun, hb, hm⟩

/-- The steps of `start_offload` between two calls. -/
theorem Inv.startOffload_cases (hi : Inv c m) (hv : m.logical.Valid (raw h))
    (he : (m.entries h.id).Evictable) :
    (∃ m', startOffload h m = .ok () m' ∧ Begun c .saving m.queued h m m' ∧
      m'.owning = m.owning) ∨
    ∃ e m', startOffload h m = .error e m' ∧ NotCapacity e ∧ Reverted c [] m m' := by
  have hs : Steady c none (m.queued ++ []) m := by
    rw [List.append_nil]
    exact hi.steady
  have hcases := TieredBlockManager.startOffload_cases hs hv he
  rw [List.append_nil] at hcases
  exact hcases

/-! ## Making room -/

/-- **Every GPU slot is leased.** -/
def Full (m : TieredBlockManager) : Prop :=
  m.remainingBlocks = 0 ∧ ∀ i g, (m.entries i).gpu = some g → (m.entries i).pins ≠ 0

/-- What a demand that throws leaves. -/
structure Refused (c : ℕ → Bytes) (calm : ℕ → Prop) (e : Exn) (m m' : TieredBlockManager) :
    Prop where
  inv : Inv c m'
  frame : Frame m m'
  full : e = .capacityError → Full m'
  calm : ∀ i, calm i → (m'.entries i).Calm

theorem Refused.after {p p' : ℕ → Prop} {exn : Exn} (h : Frame m m') (hp : ∀ i, p i → p' i)
    (h' : Refused c p' exn m' m'') : Refused c p exn m m'' :=
  ⟨h'.inv, h.trans h'.frame, h'.full, fun i hi => h'.calm i (hp i hi)⟩

theorem Broken.refused {p : ℕ → Prop} {exn : Exn} (h : Broken c p exn m m') :
    Refused c p exn m m' :=
  ⟨h.inv, h.frame, fun he => absurd he h.notCapacity, h.calm⟩

theorem Reverted.refused {exn : Exn} (hcap : NotCapacity exn) (h : Reverted c [] m m')
    (p : ℕ → Prop) : Refused c p exn m m' :=
  ⟨h.inv, h.frame, fun he => absurd he hcap, fun i _ => h.calm i⟩

theorem Waited.stored (hw : Waited c m m') (hp : (m.entries i).phase = some .stored) :
    (m'.entries i).phase = some .stored := by
  rw [hw.phase i, hp]
  rfl

/-- **The outcomes of `make_room`.** -/
theorem makeRoom_post (hi : Inv c m) : Post
    (fun _ m' => Inv c m' ∧ Frame m m' ∧ m'.remainingBlocks ≠ 0 ∧
      ∀ i, (m.entries i).phase = some .stored → (m'.entries i).phase = some .stored)
    (fun e m' => Refused c (fun i => (m.entries i).phase = some .stored) e m m') (makeRoom m) := by
  unfold makeRoom
  rw [bind_of_ok (get_apply m)]
  refine Post.ite (fun hroom => ⟨hi, Frame.refl m, hroom, fun _ hp => hp⟩) fun _ => ?_
  have hstored : ∀ i, (m.entries i).phase = some .stored → ¬ (m.entries i).Waiting := fun i hp hw => by
    rw [Entry.Waiting, hp] at hw
    cases hw
  have hwait := (wait_post hi).mono (fun _ _ h => h) fun _ _ hb =>
    hb.refused.after (Frame.refl m) hstored
  refine hwait.bind fun _ m₁ h₁ => ?_
  rw [bind_of_ok (get_apply m₁)]
  refine Post.ite (fun hroom => ⟨h₁.inv, h₁.frame, hroom, fun i hp => h₁.stored hp⟩) fun hroom => ?_
  have hnil : m₁.queued = [] := h₁.queued
  have hcore : Core c none [] [] m₁ := by
    have hcore := h₁.steady.core
    rwa [h₁.pending] at hcore
  rcases hcore.victim_cases fun _ => false with ⟨id, hvictim, hev, -⟩ | ⟨hvictim, hnone⟩
  swap
  · rw [hvictim]
    refine ⟨h₁.inv, h₁.frame, fun _ => ⟨not_not.mp hroom, fun i g hg hpins => ?_⟩, fun i hp => ?_⟩
    · -- a block with a slot is resident, since nothing moves
      have hcalm := (calm_iff hcore i).mpr ⟨not_moving_of_nil hcore i, not_waiting_of_nil hcore i⟩
      rcases hcalm with hp | hp
      · exact absurd (hnone i ⟨hp, hpins⟩) (by decide)
      · rw [(Entry.phase_stored.mp hp).2.2] at hg
        cases hg
    · exact .inr (h₁.stored hp)
  rw [hvictim]
  obtain ⟨hv, hid⟩ := hcore.valid_of_evictable hev
  have hev' : (m₁.entries (m₁.entries id).handle.id).Evictable := by rwa [hid]
  have hkeep : ∀ i, (m.entries i).phase = some .stored → i ≠ (m₁.entries id).handle.id := by
    intro i hp he
    have hp₁ := h₁.stored hp
    rw [he, hev'.1] at hp₁
    cases hp₁
  rcases h₁.inv.startOffload_cases hv hev' with
    ⟨m₂, hstart, hbegun, howning⟩ | ⟨e, m₂, hstart, hcap, hrev⟩
  · show Post _ _ ((startOffload _ >>= fun _ => wait) m₁)
    rw [bind_of_ok hstart]
    have hinv := hbegun.inv h₁.inv
    have hstored₂ : ∀ i, (m.entries i).phase = some .stored → (m₂.entries i).phase = some .stored :=
      fun i hp => by
        rw [hbegun.others i (hkeep i hp)]
        exact h₁.stored hp
    have hframe := h₁.frame.trans hbegun.frame
    refine (wait_post hinv).mono (fun _ m₃ h₃ => ⟨h₃.inv, hframe.trans h₃.frame, fun hzero => ?_,
      fun i hp => h₃.stored (hstored₂ i hp)⟩) fun e m₃ hb => ?_
    · -- the victim has given its slot back
      have hleaving := hbegun.leaving
      rw [h₁.pending, if_pos rfl] at hleaving
      have howning₃ := h₃.owning
      have hadd₁ := h₁.steady.remaining_add
      have hadd₃ := h₃.steady.remaining_add
      have hcapacity : m₃.gpuCapacity = m₁.gpuCapacity :=
        h₃.frame.capacity.trans hbegun.frame.capacity
      rw [hleaving, hbegun.queued, hnil, List.length_nil] at howning₃
      have hnone : leaving [] m₁ = 0 := rfl
      omega
    · refine hb.refused.after hframe fun i hp hw => ?_
      rw [Entry.Waiting, hstored₂ i hp] at hw
      cases hw
  · show Post _ _ ((startOffload _ >>= fun _ => wait) m₁)
    rw [bind_of_error hstart]
    exact (hrev.refused hcap _).after h₁.frame fun _ h => h

/-! ## `load` -/

/-- Where a block is. -/
def Phase.location : Phase → BlockLocation
  | .resident => .gpuResident
  | .stored => .cpuResident
  | _ => .transferring

/-- The move of a block. -/
def Phase.move : Phase → Move
  | .loading => .toGpu
  | .saving => .toCpu
  | .queued => .queuedLoad
  | _ => .none

theorem Entry.of_phase (hp : e.phase = some p) : e.location = p.location ∧ e.move = p.move := by
  cases p with
  | resident =>
    obtain ⟨h, h', -⟩ := Entry.phase_resident.mp hp
    exact ⟨h, h'⟩
  | stored =>
    obtain ⟨h, h', -⟩ := Entry.phase_stored.mp hp
    exact ⟨h, h'⟩
  | loading =>
    obtain ⟨h, h', -⟩ := Entry.phase_loading.mp hp
    exact ⟨h, h'⟩
  | saving =>
    obtain ⟨h, h', -⟩ := Entry.phase_saving.mp hp
    exact ⟨h, h'⟩
  | queued =>
    obtain ⟨h, h', -⟩ := Entry.phase_queued.mp hp
    exact ⟨h, h'⟩

theorem Core.exists_phase (hc : Core c x ps qs m) (i : ℕ) : ∃ p, (m.entries i).phase = some p :=
  Option.ne_none_iff_exists'.mp (hc.entry i).shape

/-- What `load` leaves when it returns: the block is in its slot, or on the way. -/
structure Demanded (c : ℕ → Bytes) (h : LogicalBlockHandle) (m m' : TieredBlockManager) : Prop where
  inv : Inv c m'
  frame : Frame m m'
  valid : m.logical.Valid (raw h)
  here : (m'.entries h.id).phase ≠ some .stored ∧ (m'.entries h.id).phase ≠ some .saving
  mark : (m.entries h.id).prefetched = true → (m'.entries h.id).prefetched = true
  started : (m.entries h.id).phase = some .stored → (m'.entries h.id).phase = some .loading

/-- The end of `load`, once the block is not on the way to the host. -/
def loadRest (h : LogicalBlockHandle) : TieredCall Unit := do
  let e ← entry h.id
  match e.location with
  | .gpuResident => if e.pins = 0 then modify (touchLru h.id) else pure ()
  | .transferring => pure ()
  | .cpuResident => do
    makeRoom
    startLoad h

theorem load_of_valid (hv : m.logical.Valid (raw h)) : load h m =
    if (m.entries h.id).move = .toCpu then (wait >>= fun _ => loadRest h) m else loadRest h m := by
  unfold load
  rw [bind_of_ok (checked_of_valid hv)]
  by_cases hm : (m.entries h.id).move = .toCpu
  · rw [if_pos hm, if_pos hm]
    rfl
  · rw [if_neg hm, if_neg hm]
    rfl

/-- A touch of a block that can be moved out. -/
theorem Inv.touch (hi : Inv c m) (he : (m.entries id).Evictable) :
    Inv c (touchLru id m) ∧ Frame m (touchLru id m) := by
  have hc := hi.steady.core
  have hc' : Core c none m.pending m.queued (touchLru id m) :=
    { hc with
      lru := hc.lru.touch fun j => (or_iff_right_of_imp fun hj => hj ▸ he).symm
      entry := fun i => ⟨(hc.entry i).shape, (hc.entry i).idle, (hc.entry i).live,
        (hc.entry i).handle, (hc.entry i).pinned, (hc.entry i).marked, (hc.entry i).size,
        (hc.entry i).backed, (hc.entry i).kept⟩ }
  exact ⟨⟨⟨hc', hi.steady.underway, hi.steady.billed⟩, hi.reserve⟩,
    ⟨rfl, rfl, rfl, rfl, fun _ => ⟨rfl, rfl, rfl⟩, fun _ _ => rfl, Spares.refl _, rfl, rfl, le_rfl⟩⟩

theorem loadRest_post (hi : Inv c m) (hv : m.logical.Valid (raw h))
    (hne : (m.entries h.id).phase ≠ some .saving) :
    Post (fun _ m' => Demanded c h m m')
      (fun e m' => Refused c (fun i => (m.entries i).phase = some .stored) e m m')
      (loadRest h m) := by
  obtain ⟨p, hp⟩ := hi.steady.core.exists_phase h.id
  have hlocation := (Entry.of_phase hp).1
  unfold loadRest
  rw [bind_of_ok (entry_apply h.id m), hlocation]
  have hstay : p ≠ .stored → Demanded c h m m := fun hs =>
    ⟨hi, Frame.refl m, hv, ⟨by rw [hp]; exact fun he => hs (Option.some.inj he), hne⟩, id,
      fun he => absurd (Option.some.inj (hp.symm.trans he)) hs⟩
  cases p with
  | resident =>
    refine Post.ite (fun hpins => ?_) fun _ => hstay (by decide)
    obtain ⟨hi', hframe⟩ := hi.touch ⟨hp, hpins⟩
    have h₀ := hstay (by decide)
    exact ⟨hi', hframe, hv, h₀.here, id, h₀.started⟩
  | loading => exact hstay (by decide)
  | saving => exact absurd hp hne
  | queued => exact hstay (by decide)
  | stored =>
    have hunmarked : (m.entries h.id).prefetched ≠ true := fun hm =>
      ((hi.steady.core.entry h.id).marked (Option.some_ne_none _).symm hm).1 hp
    refine (makeRoom_post hi).bind fun _ m₁ h₁ => ?_
    obtain ⟨hi₁, hframe₁, hroom, hstored⟩ := h₁
    have hv₁ : m₁.logical.Valid (raw h) := by rwa [hframe₁.logical]
    rcases hi₁.startLoad_cases hv₁ (hstored h.id hp) with
      ⟨m₂, hrun, hbegun, -⟩ | ⟨e, hrun, hfull⟩ | ⟨e, m₂, hrun, hcap, hrev⟩
    · rw [hrun]
      refine ⟨hbegun.inv hi₁, hframe₁.trans hbegun.frame, hv, ?_, fun hm => absurd hm hunmarked,
        fun _ => hbegun.phase⟩
      rw [hbegun.phase]
      decide
    · rw [hrun]
      exact ⟨hi₁, hframe₁, fun he => absurd (hfull he) hroom, fun i hp' => .inr (hstored i hp')⟩
    · rw [hrun]
      exact (hrev.refused hcap _).after hframe₁ hstored

/-- **The outcomes of `load`**: it lacks a slot only when every slot is leased. -/
theorem load_post (hi : Inv c m) (h : LogicalBlockHandle) : Post (fun _ m' => Demanded c h m m')
    (fun e m' => Refused c (fun i => (m.entries i).phase = some .stored) e m m') (load h m) := by
  by_cases hv : m.logical.Valid (raw h)
  swap
  · unfold load
    rw [bind_of_error (checked_of_not_valid hv)]
    exact ⟨hi, Frame.refl m, fun he => absurd he (by decide), fun i hp => .inr hp⟩
  rw [load_of_valid hv]
  obtain ⟨p, hp⟩ := hi.steady.core.exists_phase h.id
  have hmove := (Entry.of_phase hp).2
  by_cases hm : (m.entries h.id).move = .toCpu
  · rw [if_pos hm]
    have hsaving : (m.entries h.id).phase = some .saving := by
      rw [hmove] at hm
      cases p with
      | saving => exact hp
      | _ => cases hm
    have hwait := (wait_post hi).mono (fun _ _ h => h) fun _ _ hb => hb.refused.after
      (p := fun i => (m.entries i).phase = some .stored) (Frame.refl m) fun i hp hw => by
        rw [Entry.Waiting, hp] at hw
        cases hw
    refine hwait.bind fun _ m₁ h₁ => ?_
    have hp₁ : (m₁.entries h.id).phase = some .stored := by
      rw [h₁.phase h.id, hsaving]
      rfl
    have hpost := loadRest_post h₁.inv (h := h) (by rwa [h₁.frame.logical]) (by rw [hp₁]; decide)
    refine hpost.mono (fun _ m' hd => ⟨hd.inv, h₁.frame.trans hd.frame, hv, hd.here, fun hmark => ?_,
      fun hstored => ?_⟩) fun e m' hr => hr.after h₁.frame fun i hp => h₁.stored hp
    · exact absurd hsaving
        ((hi.steady.core.entry h.id).marked (Option.some_ne_none _).symm hmark).2
    · rw [hsaving] at hstored
      cases hstored
  · rw [if_neg hm]
    refine loadRest_post hi hv fun hs => hm ?_
    exact (Entry.phase_saving.mp hs).2.1

/-! ## `offload` -/

/-- **The outcomes of `offload`.** -/
theorem offload_post (hi : Inv c m) (h : LogicalBlockHandle) :
    Post (fun _ m' => Inv c m' ∧ Frame m m') (fun e m' => Inv c m' ∧ Frame m m' ∧ NotCapacity e)
      (offload h m) := by
  unfold offload
  by_cases hv : m.logical.Valid (raw h)
  swap
  · rw [bind_of_error (checked_of_not_valid hv)]
    exact ⟨hi, Frame.refl m, fun he => absurd he (by decide)⟩
  rw [bind_of_ok (checked_of_valid hv)]
  refine Post.ensure (fun hpins => ?_) fun _ => ⟨hi, Frame.refl m, fun he => absurd he (by decide)⟩
  refine Post.ite (fun _ => ⟨hi, Frame.refl m⟩) fun _ => ?_
  have hrest : ∀ m₁, Inv c m₁ → Frame m m₁ → Post (fun _ m' => Inv c m' ∧ Frame m m')
      (fun e m' => Inv c m' ∧ Frame m m' ∧ NotCapacity e)
      ((do
        let e ← entry h.id
        if e.location = .gpuResident then startOffload h : TieredCall Unit) m₁) := by
    intro m₁ hi₁ hframe₁
    rw [bind_of_ok (entry_apply h.id m₁)]
    refine Post.ite (fun hlocation => ?_) fun _ => ⟨hi₁, hframe₁⟩
    obtain ⟨p, hp⟩ := hi₁.steady.core.exists_phase h.id
    rw [(Entry.of_phase hp).1] at hlocation
    have hev : (m₁.entries h.id).Evictable := by
      refine ⟨?_, (hframe₁.entry h.id).2.2.trans hpins⟩
      cases p with
      | resident => exact hp
      | _ => cases hlocation
    rcases hi₁.startOffload_cases (by rwa [hframe₁.logical]) hev with
      ⟨m₂, hrun, hbegun, -⟩ | ⟨e, m₂, hrun, hcap, hrev⟩
    · rw [hrun]
      exact ⟨hbegun.inv hi₁, hframe₁.trans hbegun.frame⟩
    · rw [hrun]
      exact ⟨hrev.inv, hframe₁.trans hrev.frame, hcap⟩
  refine Post.ite (fun _ => ?_) fun _ => hrest m hi (Frame.refl m)
  have hwait := (wait_post hi).mono (fun _ _ h => h) fun _ _ hb =>
    (⟨hb.inv, hb.frame, hb.notCapacity⟩ : _ ∧ _ ∧ _)
  exact hwait.bind fun _ m₁ h₁ => hrest m₁ h₁.inv h₁.frame

end KVFlux.TieredBlockManager
