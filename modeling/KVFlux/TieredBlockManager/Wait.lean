import KVFlux.TieredBlockManager.Moves

/-!
# Waiting for the moves

* `Inv c m`: the state between two calls; every queued load has a slot to come.
* `Core.unqueue`, **`dispatchLoop_post`**: every queued load finds a slot.
* **`advance_post`**, **`wait_post`**, **`poll_post`**: what a round, a wait and a poll leave.
* **`waitLoop_eq`**: two rounds are enough.
-/

namespace KVFlux.TieredBlockManager

open Fallible BlockManager AsyncTransfer Table

variable {c : ℕ → Bytes} {x x' : Option ℕ} {ps ps' qs qs' hs : List LogicalBlockHandle}
  {m m' m'' : TieredBlockManager} {i : ℕ} {e : Entry} {h : LogicalBlockHandle} {g : BlockHandle}

/-- **The state between two calls.** -/
structure Inv (c : ℕ → Bytes) (m : TieredBlockManager) : Prop where
  steady : Steady c none m.queued m
  reserve : m.queued.length ≤ leaving m.pending m

/-- The capacity of the GPU pool. -/
def gpuCapacity (m : TieredBlockManager) : ℕ := m.transfers.pool.manager.capacity

theorem Steady.remaining_add (hs : Steady c x qs m) : m.remainingBlocks + m.owning = m.gpuCapacity :=
  hs.core.remaining_add hs.underway

/-- Nothing is going on with the block. -/
def Entry.Calm (e : Entry) : Prop := e.phase = some .resident ∨ e.phase = some .stored

theorem calm_iff (hc : Core c x ps qs m) (i : ℕ) :
    (m.entries i).Calm ↔ ¬ (m.entries i).Moving ∧ ¬ (m.entries i).Waiting := by
  have hshape := (hc.entry i).shape
  unfold Entry.Calm Entry.Moving Entry.Waiting
  cases hp : (m.entries i).phase with
  | none => exact absurd hp hshape
  | some p => cases p <;> decide

theorem Core.valid_of_live (hc : Core c x ps qs m) (hl : (m.entries i).live = true) :
    m.logical.Valid (raw (m.entries i).handle) ∧ (m.entries i).handle.id = i := by
  have hold := hc.entry i
  have hhandle := hold.handle hl
  rw [hhandle]
  exact ⟨⟨hc.lt_capacity hl, hold.live.mp hl, rfl⟩, rfl⟩

/-- The handles in the lists are valid. -/
theorem Core.valid_of_waiting (hc : Core c x ps qs m) (hh : h ∈ qs) :
    m.logical.Valid (raw h) := by
  have hw := hc.waiting.of_mem hh
  have hlive : (m.entries h.id).live = true := hc.live_of_phase (by
    rw [Entry.Waiting] at hw
    rw [hw]
    decide)
  rw [← hc.waiting.handle h hh]
  exact (hc.valid_of_live hlive).1

/-! ## Dispatching the queue -/

/-- The entry of a queued block that is taken out of the queue. -/
def Entry.unqueued (e : Entry) : Entry := { e with location := .cpuResident, move := .none }

theorem phase_unqueued (hg : e.gpu = none) : e.unqueued.phase = some .stored :=
  Entry.phase_stored.mpr ⟨rfl, rfl, hg⟩

/-- The state with a block out of the queue. -/
def unqueue (h : LogicalBlockHandle) (m : TieredBlockManager) : TieredBlockManager :=
  m.modifyEntry h.id Entry.unqueued

theorem unqueue_entries (h : LogicalBlockHandle) (m : TieredBlockManager) :
    (unqueue h m).entries = Function.update m.entries h.id (m.entries h.id).unqueued := rfl

/-- **A load leaves the queue** with its mark. -/
theorem Core.unqueue (hc : Core c none ps (h :: qs) m) :
    Core c (some h.id) ps qs (unqueue h m) ∧ Frame m (TieredBlockManager.unqueue h m) := by
  have hw := hc.waiting.of_mem List.mem_cons_self
  have hentries := unqueue_entries h m
  have hgpu := (Entry.phase_queued.mp hw).2.2
  have hlive : (m.entries h.id).live = true := hc.live_of_phase (by
    rw [Entry.Waiting] at hw
    rw [hw]
    decide)
  have hne : (m.entries h.id).phase ≠ some .resident := by
    rw [Entry.Waiting] at hw
    rw [hw]
    decide
  have hpins := hc.pins_eq hne
  have hold := hc.entry h.id
  have hphase := phase_unqueued hgpu
  have hheld : (TieredBlockManager.unqueue h m).held = m.held := held_same rfl hentries rfl
  obtain ⟨hm', hw'⟩ := not_moving_of_phase hphase (.inr rfl)
  refine ⟨hc.update rfl hentries rfl (hheld.symm ▸ hc.ledger) hc.unpublished rfl (fun _ => rfl)
    (fun _ _ => rfl) (fun _ _ _ _ => ⟨rfl, rfl⟩) (fun g' hg' => ?_) (fun j _ hx => by cases hx)
    ?_ ?_ ?_ ?_, ?_⟩
  · exact absurd (hg'.symm.trans hgpu) (Option.some_ne_none g')
  · refine hold.of_live (e := (m.entries h.id).unqueued) hlive rfl rfl (Function.update_self ..)
      rfl rfl (by rw [hphase]; exact Option.some_ne_none _) (fun hp => absurd hpins hp)
      (fun hx => absurd rfl hx) (fun _ => hold.backed hlive (.inr (.inr hw)))
      (fun g' hg' => absurd (hg'.symm.trans hgpu) (Option.some_ne_none g'))
  · rw [hentries]
    refine hc.moving.same (iff_of_false hm' fun hm => ?_) fun hp => absurd hp hm'
    rw [Entry.Waiting] at hw
    rcases hm with hp | hp <;> (rw [hw] at hp; cases hp)
  · rw [hentries]
    exact hc.waiting.pop hw'
  · exact hc.lru_same rfl hentries
      (iff_of_false (Entry.not_evictable hphase (by decide)) fun he => hne he.1)
  · exact frame_entry hentries rfl rfl rfl rfl rfl hpins ⟨rfl, rfl, hpins⟩ rfl

/-- What becomes of a block when the queue is dispatched. -/
def Phase.dispatched : Phase → Phase
  | .queued => .loading
  | p => p

/-- The state once every queued load is started. -/
structure Dispatched (c : ℕ → Bytes) (hs : List LogicalBlockHandle) (m m' : TieredBlockManager) :
    Prop where
  steady : Steady c none [] m'
  frame : Frame m m'
  pending : m'.pending = m.pending ++ hs
  queued : m'.queued = []
  phase : ∀ i, (m'.entries i).phase = (m.entries i).phase.map Phase.dispatched
  mark : ∀ i, (m'.entries i).prefetched = (m.entries i).prefetched
  owning : m'.owning = m.owning + hs.length

/-- The state when the device has failed, or a slot is worn out. -/
structure Broken (c : ℕ → Bytes) (calm : ℕ → Prop) (e : Exn) (m m' : TieredBlockManager) : Prop where
  steady : Steady c none [] m'
  frame : Frame m m'
  queued : m'.queued = []
  notCapacity : NotCapacity e
  calm : ∀ i, calm i → (m'.entries i).Calm

theorem Broken.after {p p' : ℕ → Prop} {exn : Exn} (h : Frame m m') (hp : ∀ i, p i → p' i)
    (h' : Broken c p' exn m' m'') : Broken c p exn m m'' :=
  ⟨h'.steady, h.trans h'.frame, h'.queued, h'.notCapacity, fun i hi => h'.calm i (hp i hi)⟩

/-- Loads that are given up between two moves. -/
theorem Steady.cancelLoads (hs : Steady c none (qs ++ qs') m) :
    Steady c none qs' (m.cancelLoads qs) ∧ Cancelled m (m.cancelLoads qs) := by
  obtain ⟨hc, hcancel⟩ := hs.core.cancelLoads qs
  refine ⟨⟨?_, ?_, billed_congr hs.billed (congrArg Transfers.runtime hcancel.transfers)
    hcancel.frame.blockBytes hcancel.offloads hcancel.loads hcancel.faults⟩, hcancel⟩
  · rw [hcancel.pending]
    exact hc
  · rw [hcancel.pending]
    refine underway_congr hs.underway (fun h hh => ?_) (by rw [hcancel.transfers])
    have hnot : h.id ∉ qs.map LogicalBlockHandle.id := fun hm => by
      obtain ⟨h', hh', hid⟩ := List.mem_map.mp hm
      have hw := hs.core.waiting.of_mem (List.mem_append_left qs' hh')
      have hm := hs.core.moving.of_mem hh
      rw [hid, Entry.Waiting] at hw
      rcases hm with hp | hp <;> (rw [hw] at hp; cases hp)
    rw [cancelLoads_entries qs hnot]
    exact ⟨rfl, rfl⟩

/-- A load that failed is given up with those behind it. -/
theorem Steady.cancelRest (hs : Steady c x qs m) (hl : (m.entries h.id).live = true)
    (hp : (m.entries h.id).phase = some .stored) (hx : x = none ∨ x = some h.id) :
    Steady c none [] (m.cancelLoads (h :: qs)) ∧ Cancelled m (m.cancelLoads (h :: qs)) := by
  have hdiscard := cancelled_discard (hs.core.lt_capacity hl) (hs.core.pins_eq (i := h.id) (by
    rw [hp]
    decide))
  have hs₁ : Steady c none (qs ++ []) (discardPrefetch h.id m) := by
    rw [List.append_nil]
    refine hs.discard fun j hj he => ?_
    rcases hx with rfl | rfl
    · cases he
    · exact absurd (Option.some.inj he).symm hj
  obtain ⟨hs', hcancel⟩ := hs₁.cancelLoads
  have hstate : m.cancelLoads (h :: qs) = (discardPrefetch h.id m).cancelLoads qs := by
    rw [← cancelLoad_stored hp]
    rfl
  rw [hstate]
  exact ⟨hs', hdiscard.trans hcancel⟩

theorem Steady.unqueue (hs : Steady c none (h :: qs) m) :
    Steady c (some h.id) qs (unqueue h m) ∧ Frame m (TieredBlockManager.unqueue h m) := by
  obtain ⟨hc, hframe⟩ := hs.core.unqueue
  refine ⟨⟨hc, ?_, billed_congr hs.billed rfl rfl rfl rfl rfl⟩, hframe⟩
  refine underway_congr hs.underway (fun h' hh' => ?_) rfl
  have hne : h'.id ≠ h.id := fun he => by
    have hw := hs.core.waiting.of_mem List.mem_cons_self
    have hm := hs.core.moving.of_mem hh'
    rw [he] at hm
    rw [Entry.Waiting] at hw
    rcases hm with hp | hp <;> (rw [hw] at hp; cases hp)
  rw [unqueue_entries, Function.update_of_ne hne]
  exact ⟨rfl, rfl⟩

theorem not_waiting_of_nil (hc : Core c x ps [] m) (i : ℕ) : ¬ (m.entries i).Waiting := fun hw =>
  absurd ((hc.waiting.mem i).mpr hw) List.not_mem_nil

theorem dispatched_of_not_waiting (hw : ¬ e.Waiting) : e.phase.map Phase.dispatched = e.phase := by
  cases hp : e.phase with
  | none => rfl
  | some p =>
    cases p with
    | queued => exact absurd hp hw
    | _ => rfl

/-- **Every queued load finds a slot**, as many slots are free. -/
theorem dispatchLoop_post (hs : List LogicalBlockHandle) : ∀ {m}, Steady c none hs m →
    m.queued = [] → m.owning + hs.length ≤ m.gpuCapacity →
    Post (fun _ m' => Dispatched c hs m m')
      (fun e m' => Broken c (fun i => (m.entries i).Calm) e m m') (dispatchLoop hs m) := by
  induction hs with
  | nil =>
    intro m hs hqueued _
    exact ⟨hs, Frame.refl m, (List.append_nil _).symm, hqueued,
      fun i => (dispatched_of_not_waiting (not_waiting_of_nil hs.core i)).symm, fun _ => rfl, rfl⟩
  | cons h hs ih =>
    intro m hsteady hqueued hroom
    have hw := hsteady.core.waiting.of_mem List.mem_cons_self
    have hv := hsteady.core.valid_of_waiting List.mem_cons_self
    obtain ⟨hs₁, hframe₁⟩ := hsteady.unqueue
    have hself : (unqueue h m).entries h.id = (m.entries h.id).unqueued := Function.update_self ..
    have hothers : ∀ j, j ≠ h.id → (unqueue h m).entries j = m.entries j := fun j hj =>
      Function.update_of_ne hj _ _
    have hp₁ : ((unqueue h m).entries h.id).phase = some .stored := by
      rw [hself]
      exact phase_unqueued (Entry.phase_queued.mp hw).2.2
    have hlive₁ := (hs₁.core.of_valid (h := h) hv).1
    have howning₁ : (unqueue h m).owning = m.owning := by
      have hlogical : (unqueue h m).logical = m.logical := rfl
      have howning := owning_update (congrArg BlockManager.capacity hlogical)
        (unqueue_entries h m) (hs₁.core.lt_capacity hlive₁)
      exact Nat.add_right_cancel howning
    have hne : ∀ i, (m.entries i).Calm → i ≠ h.id := fun i hi he => by
      rw [he] at hi
      exact ((calm_iff hsteady.core h.id).mp hi).2 hw
    have hnil : (unqueue h m).queued = [] := hqueued
    have hs₂ : Steady c (some h.id) ((unqueue h m).queued ++ hs) (unqueue h m) := by
      rw [hnil]
      exact hs₁
    have hcases := startLoad_cases hs₂ hv hp₁ (.inr rfl)
    rw [hnil, List.nil_append] at hcases
    rw [dispatchLoop, bind_of_ok (modify_apply _ _)]
    show Post _ _ ((onError (startLoad h) _ >>= _) (unqueue h m))
    rw [List.length_cons] at hroom
    rcases hcases with ⟨m₂, hstart, hbegun, howning₂, hmark⟩ | ⟨e, hstart, hfull⟩ |
      ⟨e, m₂, hstart, hcap, hreverted⟩
    · rw [bind_of_ok (onError_ok.mpr hstart)]
      have hcapacity : m₂.gpuCapacity = m.gpuCapacity := hbegun.frame.capacity
      have hpost := ih hbegun.steady (hbegun.queued.trans hnil) (by omega)
      have hframe := hframe₁.trans hbegun.frame
      have hentry : ∀ j, j ≠ h.id → m₂.entries j = m.entries j := fun j hj =>
        (hbegun.others j hj).trans (hothers j hj)
      refine hpost.mono (fun _ m' hd => ⟨hd.steady, hframe.trans hd.frame, ?_, hd.queued,
        fun i => ?_, fun i => ?_, ?_⟩) fun e m' hb => hb.after hframe fun i hi => ?_
      · rw [hd.pending, hbegun.pending, List.append_assoc]
        rfl
      · rw [hd.phase i]
        by_cases hi : i = h.id
        · rw [Entry.Waiting] at hw
          rw [hi, hbegun.phase, hw]
          rfl
        · rw [hentry i hi]
      · rw [hd.mark i]
        by_cases hi : i = h.id
        · rw [hi, hmark, hself]
          rfl
        · rw [hentry i hi]
      · rw [hd.owning, howning₂, howning₁, List.length_cons]
        omega
      · rw [hentry i (hne i hi)]
        exact hi
    · -- no slot could be allocated, which is not for want of room
      rw [bind_of_error (onError_clean hstart (modify_apply _ _))]
      obtain ⟨hs', hcancel⟩ := hs₁.cancelRest hlive₁ hp₁ (.inr rfl)
      refine ⟨hs', hframe₁.trans hcancel.frame, hcancel.queued.trans hnil, fun he => ?_,
        fun i hi => ?_⟩
      · have hadd := hs₁.remaining_add
        have hcapacity : (unqueue h m).gpuCapacity = m.gpuCapacity := rfl
        rw [hfull he] at hadd
        omega
      · have hnot : i ∉ (h :: hs).map LogicalBlockHandle.id := fun hm =>
          ((calm_iff hsteady.core i).mp hi).2 ((hsteady.core.waiting.mem i).mp hm)
        rw [cancelLoads_entries (h :: hs) hnot, hothers i (hne i hi)]
        exact hi
    · rw [bind_of_error (onError_clean hstart (modify_apply _ _))]
      have hlive₂ : (m₂.entries h.id).live = true := (hreverted.frame.entry h.id).1.trans hlive₁
      obtain ⟨hs', hcancel⟩ := hreverted.steady.cancelRest hlive₂ (hreverted.stored h.id (.inl hp₁))
        (.inl rfl)
      refine ⟨hs', (hframe₁.trans hreverted.frame).trans hcancel.frame,
        hcancel.queued.trans hreverted.queued, hcap, fun i _ => ?_⟩
      have hcore := hs'.core
      rw [hcancel.pending, hreverted.pending] at hcore
      exact (calm_iff hcore i).mpr ⟨not_moving_of_nil hcore i, not_waiting_of_nil hcore i⟩

/-! ## One round -/

/-- What becomes of a block in one round. -/
def Phase.advanced : Phase → Phase
  | .loading => .resident
  | .saving => .stored
  | .queued => .loading
  | p => p

theorem Phase.dispatched_ended (p : Phase) : (p.ended true).dispatched = p.advanced := by
  cases p <;> rfl

/-- The state after a round that succeeds. -/
structure Advanced (c : ℕ → Bytes) (m m' : TieredBlockManager) : Prop where
  steady : Steady c none [] m'
  frame : Frame m m'
  pending : m'.pending = m.queued
  queued : m'.queued = []
  phase : ∀ i, (m'.entries i).phase = (m.entries i).phase.map Phase.advanced
  mark : ∀ i, (m'.entries i).prefetched = (m.entries i).prefetched
  owning : m'.owning + leaving m.pending m = m.owning + m.queued.length

theorem inv_of_queued (hs : Steady c none [] m) (hq : m.queued = []) : Inv c m where
  steady := by
    rw [hq]
    exact hs
  reserve := by
    rw [hq]
    exact Nat.zero_le _

theorem Advanced.inv (h : Advanced c m m') : Inv c m' := inv_of_queued h.steady h.queued

theorem Broken.inv {p : ℕ → Prop} {exn : Exn} (h : Broken c p exn m m') : Inv c m' :=
  inv_of_queued h.steady h.queued

/-- Nothing waits in a state without a queue. -/
theorem Inv.not_waiting (hi : Inv c m) (hq : m.queued = []) (i : ℕ) : ¬ (m.entries i).Waiting := by
  have hc := hi.steady.core
  rw [hq] at hc
  exact not_waiting_of_nil hc i

/-- **The outcomes of a round.** -/
theorem advance_post (hi : Inv c m) : Post (fun _ m' => Advanced c m m')
    (fun e m' => Broken c (fun i => ¬ (m.entries i).Waiting) e m m') (advance m) := by
  have hs := hi.steady
  have hpost := synchronizeTransfers_post hs.core (fun _ hh => hh) hs.underway
  unfold advance
  cases hsync : synchronizeTransfers m with
  | error e m₁ =>
    obtain ⟨hdrained, hf, hcap⟩ := hpost.of_error hsync
    have hdevice := hdrained.device
    obtain ⟨m', hfinish, hreverted⟩ := finish_false [] (by
      rw [hdevice.pending, hdevice.queued, List.append_nil]
      exact hdrained.core) hdrained.underway (.inl rfl) hf
    rw [bind_of_error (onError_clean hsync hfinish)]
    have hframe := (hdevice.frame (spares_of_eq hdrained.history)).trans hreverted.frame
    refine ⟨hreverted.steady, hframe, hreverted.queued, hcap, fun i _ => ?_⟩
    exact (calm_iff hreverted.core i).mpr
      ⟨not_moving_of_nil hreverted.core i, not_waiting_of_nil hreverted.core i⟩
  | ok u m₁ =>
    obtain ⟨hdrained, hlanded, hbill⟩ := hpost.of_ok hsync
    have hdevice := hdrained.device
    have hentries := hdevice.entries
    obtain ⟨m₂, hfinish, hdone⟩ := finish_true (m := m₁) (by
      rw [hdevice.pending]
      exact hdrained.core) hdrained.underway (by rwa [hdevice.pending])
      (by rw [hdevice.pending]; exact hbill hs.billed)
    rw [bind_of_ok (onError_ok.mpr hsync), bind_of_ok hfinish]
    unfold dispatchQueued
    rw [bind_of_ok (get_apply m₂), bind_of_ok (modify_apply _ _), hdone.queued, hdevice.queued]
    have hframe₁ : Frame m₂ { m₂ with queued := [] } :=
      ⟨rfl, rfl, rfl, rfl, fun _ => ⟨rfl, rfl, rfl⟩, fun _ _ => rfl, Spares.refl _, rfl, rfl, le_rfl⟩
    have hframe := ((hdevice.frame (spares_of_eq hdrained.history)).trans hdone.frame).trans hframe₁
    have hs₂ : Steady c none m.queued { m₂ with queued := [] } := by
      refine ⟨?_, ?_, hdone.billed⟩
      · show Core c none m₂.pending m.queued _
        rw [hdone.pending]
        exact hdone.core.congr rfl rfl rfl rfl rfl
      · show Underway m₂.pending m₂
        rw [hdone.pending]
        exact hdone.underway
    have howning₁ : m₁.owning = m.owning := by
      unfold owning
      rw [hentries, hdevice.logical]
    have hleaving : leaving m₁.pending m₁ = leaving m.pending m := by
      rw [hdevice.pending]
      exact leaving_congr fun _ _ => by rw [hentries]
    have howning := hdone.owning
    rw [howning₁, hleaving] at howning
    have hroom : m₂.owning + m.queued.length ≤ m.gpuCapacity := by
      have hadd := hs.remaining_add
      have hreserve := hi.reserve
      omega
    have hcapacity : m₂.gpuCapacity = m.gpuCapacity := hframe.capacity
    have hphase : ∀ i, (m₂.entries i).phase = (m.entries i).phase.map (Phase.ended true) := fun i => by
      rw [hdone.phase i, hentries]
    refine (dispatchLoop_post m.queued hs₂ rfl (hroom.trans_eq hcapacity.symm)).mono
      (fun _ m' hd => ⟨hd.steady, hframe.trans hd.frame, ?_, hd.queued, fun i => ?_, fun i => ?_, ?_⟩)
      fun e m' hb => hb.after hframe fun i hw => ?_
    · rw [hd.pending]
      show m₂.pending ++ m.queued = m.queued
      rw [hdone.pending]
      rfl
    · rw [hd.phase i]
      show (m₂.entries i).phase.map Phase.dispatched = _
      rw [hphase i, Option.map_map]
      exact Option.map_congr fun p _ => p.dispatched_ended
    · rw [hd.mark i]
      show (m₂.entries i).prefetched = _
      rw [hdone.mark i, hentries]
    · rw [hd.owning]
      show m₂.owning + m.queued.length + _ = _
      omega
    · refine (calm_iff hs₂.core i).mpr ⟨?_, fun hw' => hw ?_⟩
      · have hcore := hs₂.core
        rw [show ({ m₂ with queued := [] } : TieredBlockManager).pending = [] from hdone.pending]
          at hcore
        exact not_moving_of_nil hcore i
      · exact (hs.core.waiting.mem i).mp ((hs₂.core.waiting.mem i).mpr hw')

/-! ## `wait` -/

/-- What becomes of a block in a wait. -/
def Phase.waited : Phase → Phase
  | .loading => .resident
  | .saving => .stored
  | .queued => .resident
  | p => p

theorem Phase.advanced_advanced (p : Phase) : p.advanced.advanced = p.waited := by
  cases p <;> rfl

/-- The state after a wait that returns. -/
structure Waited (c : ℕ → Bytes) (m m' : TieredBlockManager) : Prop where
  steady : Steady c none [] m'
  frame : Frame m m'
  pending : m'.pending = []
  queued : m'.queued = []
  phase : ∀ i, (m'.entries i).phase = (m.entries i).phase.map Phase.waited
  mark : ∀ i, (m'.entries i).prefetched = (m.entries i).prefetched
  owning : m'.owning + leaving m.pending m = m.owning + m.queued.length

theorem Waited.inv (h : Waited c m m') : Inv c m' := inv_of_queued h.steady h.queued

theorem waitLoop_idle (hp : m.pending = []) (hq : m.queued = []) (n : ℕ) :
    waitLoop n m = .ok () m := by
  cases n with
  | zero => rfl
  | succ n =>
    rw [waitLoop, bind_of_ok (get_apply m), if_pos ⟨hp, hq⟩]
    rfl

theorem waitLoop_succ (hne : ¬ (m.pending = [] ∧ m.queued = [])) (n : ℕ) :
    waitLoop (n + 1) m = (advance >>= fun _ => waitLoop n) m := by
  rw [waitLoop, bind_of_ok (get_apply m), if_neg hne]

/-- Nothing is left of a queue after one round, and nothing at all after two. -/
theorem Advanced.waited_of_idle (h : Advanced c m m') (hq : m.queued = []) (hi : Inv c m) :
    Waited c m m' where
  steady := h.steady
  frame := h.frame
  pending := h.pending.trans hq
  queued := h.queued
  phase i := by
    rw [h.phase i]
    have hw := hi.not_waiting hq i
    cases hp : (m.entries i).phase with
    | none => rfl
    | some p =>
      cases p with
      | queued => exact absurd hp hw
      | _ => rfl
  mark := h.mark
  owning := h.owning

theorem Advanced.waited (hi : Inv c m) (h : Advanced c m m') (h' : Advanced c m' m'') :
    Waited c m m'' where
  steady := h'.steady
  frame := h.frame.trans h'.frame
  pending := h'.pending.trans h.queued
  queued := h'.queued
  phase i := by
    rw [h'.phase i, h.phase i, Option.map_map]
    exact Option.map_congr fun p _ => p.advanced_advanced
  mark i := (h'.mark i).trans (h.mark i)
  owning := by
    have hnone : leaving m'.pending m' = 0 := by
      -- the moves of the second round are the loads that were queued
      refine List.countP_eq_zero.mpr fun g hg => ?_
      rw [h.pending] at hg
      have hw := hi.steady.core.waiting.of_mem hg
      have hp := h.phase g.id
      rw [Entry.Waiting] at hw
      rw [hw] at hp
      rw [(Entry.phase_loading.mp hp).2.1]
      decide
    have h₁ := h.owning
    have h₂ := h'.owning
    rw [hnone, h.queued, List.length_nil] at h₂
    omega

/-- **The outcomes of `wait`**: nothing is left to wait for, or the device has failed. It never
lacks a slot. -/
theorem wait_post (hi : Inv c m) : Post (fun _ m' => Waited c m m')
    (fun e m' => Broken c (fun i => ¬ (m.entries i).Waiting) e m m') (wait m) := by
  by_cases hidle : m.pending = [] ∧ m.queued = []
  · obtain ⟨hpending, hqueued⟩ := hidle
    have hs := hi.steady
    rw [hqueued] at hs
    have hcore := hs.core
    rw [hpending] at hcore
    unfold wait
    rw [waitLoop_idle hpending hqueued]
    refine ⟨hs, Frame.refl m, hpending, hqueued, fun i => ?_, fun _ => rfl,
      by rw [hpending, hqueued]; rfl⟩
    rcases (calm_iff hcore i).mpr ⟨not_moving_of_nil hcore i, not_waiting_of_nil hcore i⟩ with hp | hp
    all_goals rw [hp]; rfl
  unfold wait
  rw [waitLoop_succ hidle]
  refine (advance_post hi).bind fun _ m₁ h₁ => ?_
  by_cases hidle₁ : m₁.pending = [] ∧ m₁.queued = []
  · rw [waitLoop_idle hidle₁.1 hidle₁.2]
    exact h₁.waited_of_idle (h₁.pending.symm.trans hidle₁.1) hi
  rw [waitLoop_succ hidle₁]
  have hpost := (advance_post h₁.inv).mono (fun _ _ h => h) fun _ _ hb =>
    hb.after (p := fun i => ¬ (m.entries i).Waiting) h₁.frame
      fun i _ => h₁.inv.not_waiting h₁.queued i
  refine hpost.bind fun _ m₂ h₂ => ?_
  rw [waitLoop_idle (h₂.pending.trans h₁.queued) h₂.queued]
  exact h₁.waited hi h₂

/-- **Two rounds are enough**: with more rounds the loop does the same. -/
theorem waitLoop_eq (hi : Inv c m) (n : ℕ) : waitLoop (n + 2) m = wait m := by
  unfold wait
  by_cases hidle : m.pending = [] ∧ m.queued = []
  · rw [waitLoop_idle hidle.1 hidle.2, waitLoop_idle hidle.1 hidle.2]
  rw [waitLoop_succ hidle, waitLoop_succ hidle]
  cases hadvance : advance m with
  | error e m₁ => rw [bind_of_error hadvance, bind_of_error hadvance]
  | ok u m₁ =>
    have h₁ := (advance_post hi).of_ok hadvance
    rw [bind_of_ok hadvance, bind_of_ok hadvance]
    by_cases hidle₁ : m₁.pending = [] ∧ m₁.queued = []
    · rw [waitLoop_idle hidle₁.1 hidle₁.2, waitLoop_idle hidle₁.1 hidle₁.2]
    rw [waitLoop_succ hidle₁, waitLoop_succ hidle₁]
    cases hadvance₁ : advance m₁ with
    | error e m₂ => rw [bind_of_error hadvance₁, bind_of_error hadvance₁]
    | ok u m₂ =>
      have h₂ := (advance_post h₁.inv).of_ok hadvance₁
      have hpending : m₂.pending = [] := h₂.pending.trans h₁.queued
      rw [bind_of_ok hadvance₁, bind_of_ok hadvance₁, waitLoop_idle hpending h₂.queued,
        waitLoop_idle hpending h₂.queued]

/-! ## `poll` -/

/-- Answers of the device alone change nothing. -/
theorem Inv.device {faults : ℕ} (hi : Inv c m) (answers : List CudaAnswer)
    (hf : m.faults ≤ faults) : Inv c { m with answers := answers, faults := faults } ∧
      Frame m { m with answers := answers, faults := faults } := by
  refine ⟨⟨⟨hi.steady.core.congr rfl rfl rfl rfl rfl, hi.steady.underway, fun h => ?_⟩, hi.reserve⟩,
    ⟨rfl, rfl, rfl, rfl, fun _ => ⟨rfl, rfl, rfl⟩, fun _ _ => rfl, Spares.refl _, rfl, rfl, hf⟩⟩
  exact hi.steady.billed (Nat.le_zero.mp (hf.trans_eq h))

/-- A round leaves no block on its way to the host. -/
theorem Advanced.not_saving (h : Advanced c m m') :
    (m'.entries i).phase ≠ some .saving := fun hp => by
  rw [h.phase i] at hp
  obtain ⟨p, -, hp⟩ := Option.map_eq_some_iff.mp hp
  cases p <;> cases hp

/-- **The outcomes of `poll`**; it never lacks a slot, and moves no block to the host. -/
theorem poll_post (hi : Inv c m) : Post
    (fun done m' => Inv c m' ∧ Frame m m' ∧ (done = true → m'.pending = [] ∧ m'.queued = []) ∧
      ∀ i, (m'.entries i).phase = some .saving → (m.entries i).phase = some .saving)
    (fun e m' => Inv c m' ∧ Frame m m' ∧ NotCapacity e) (poll m) := by
  unfold poll
  rw [bind_of_ok (get_apply m)]
  by_cases hidle : m.pending = [] ∧ m.queued = []
  · rw [if_pos hidle]
    exact ⟨hi, Frame.refl m, fun _ => hidle, fun _ hp => hp⟩
  rw [if_neg hidle, bind_of_ok (draw_eq _ _)]
  obtain ⟨hi₁, hframe₁⟩ := hi.device m.answers.tail
    (onDevice_drawn (m.answers.headD .success).guardFault.isSome m).faults
  generalize (m.answers.headD .success).guardFault = fault at *
  have hdrawn : Inv c (drawn fault.isSome m) ∧ Frame m (drawn fault.isSome m) := ⟨hi₁, hframe₁⟩
  refine Post.check (fun _ _ => ?_) fun e he => ⟨hi₁, hframe₁, deviceGuard_throws he⟩
  have hquery : query (drawn fault.isSome m) =
      .ok ((drawn fault.isSome m).answers.headD .success).isReady
        { drawn fault.isSome m with answers := (drawn fault.isSome m).answers.tail } := rfl
  obtain ⟨hi₂, hframe₂⟩ := hi₁.device (drawn fault.isSome m).answers.tail le_rfl
  rw [bind_of_ok hquery]
  have hframe := hframe₁.trans hframe₂
  cases hready : ((drawn fault.isSome m).answers.headD .success).isReady with
  | false => exact ⟨hi₂, hframe, fun h => absurd h (by decide), fun _ hp => hp⟩
  | true =>
    refine Post.ite (fun h => absurd h (by decide)) fun _ => ?_
    have hpost := (advance_post hi₂).mono (fun _ _ h => h) fun _ _ hb =>
      (⟨hb.inv, hframe.trans hb.frame, hb.notCapacity⟩ : _ ∧ _ ∧ _)
    refine hpost.bind fun _ m₃ h₃ => ?_
    exact ⟨h₃.inv, hframe.trans h₃.frame, fun hd => ⟨of_decide_eq_true hd, h₃.queued⟩,
      fun _ hp => absurd hp h₃.not_saving⟩

end KVFlux.TieredBlockManager
