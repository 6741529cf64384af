import KVFlux.TieredBlockManager.Slots

/-!
# Ending the moves

* `Phase.ended success`: what becomes of a move.
* `EntryOk.of_live`: the invariant of an entry in use after a change.
* `Core.landOnCpu`, `Core.landOnGpu`: one move ends; `finishEntry_ok`, `finishEntries_ok`.
* **`finish_true`**, **`finish_false`**: every move ends, and no exception is thrown.
-/

namespace KVFlux.TieredBlockManager

open Fallible BlockManager AsyncTransfer Table

variable {c : ℕ → Bytes} {x x' : Option ℕ} {ps ps' qs qs' : List LogicalBlockHandle}
  {m m' m'' : TieredBlockManager} {i : ℕ} {e : Entry} {h : LogicalBlockHandle} {g : BlockHandle}
  {success : Bool}

/-- What becomes of a move. -/
def Phase.ended (success : Bool) : Phase → Phase
  | .loading => if success = true then .resident else .stored
  | .saving => if success = true then .stored else .resident
  | p => p

theorem Phase.ended_ended (p : Phase) : (p.ended success).ended success = p.ended success := by
  cases p <;> cases success <;> rfl

theorem ended_of_not_moving (success : Bool) (hp : ¬ e.Moving) :
    e.phase.map (Phase.ended success) = e.phase := by
  cases hphase : e.phase with
  | none => rfl
  | some p =>
    cases p with
    | loading => exact absurd (.inl hphase) hp
    | saving => exact absurd (.inr hphase) hp
    | resident => rfl
    | stored => rfl
    | queued => rfl

/-- **The invariant of an entry in use**, from what it was before a change. -/
theorem EntryOk.of_live (hold : EntryOk c x m i) (hlive : (m.entries i).live = true)
    (hlogical : m'.logical = m.logical) (hbytes : m'.blockBytes = m.blockBytes)
    (he : m'.entries i = e) (hl : e.live = (m.entries i).live)
    (hh : e.handle = (m.entries i).handle) (hshape : e.phase ≠ none)
    (hpinned : e.pins ≠ 0 → e.phase = some .resident)
    (hmarked : x' ≠ some i → e.prefetched = true →
      e.phase ≠ some .stored ∧ e.phase ≠ some .saving)
    (hbacked : e.phase = some .stored ∨ e.phase = some .loading ∨ e.phase = some .queued →
      (m'.transfers.buffers i).bytes = c i)
    (hkept : ∀ g, e.gpu = some g → e.phase ≠ some .loading →
      m'.transfers.memory g.id = c i ∧ m'.transfers.pool.initialized g.id = true) :
    EntryOk c x' m' i := by
  have hlive' : e.live = true := hl.trans hlive
  refine ⟨?_, fun hf => ?_, ?_, fun _ => ?_, ?_, fun hx => ?_, fun _ => ?_, fun _ => ?_, ?_⟩
  · rw [he]; exact hshape
  · rw [he, hlive'] at hf
    cases hf
  · rw [he, hl, hlogical]; exact hold.live
  · rw [he, hh, hlogical]; exact hold.handle hlive
  · rw [he]; exact hpinned
  · rw [he]; exact hmarked hx
  · rw [hbytes]; exact hold.size hlive
  · rw [he]; exact hbacked
  · rw [he]; exact hkept

/-- A block that is being moved has no lease. -/
theorem Core.pins_eq (hc : Core c x ps qs m) (hp : (m.entries i).phase ≠ some .resident) :
    (m.entries i).pins = 0 := by
  by_contra hpins
  exact hp ((hc.entry i).pinned hpins)

/-! ## One move -/

/-- The entry of a block that is on the host. -/
def Entry.onCpu (e : Entry) : Entry := { e with gpu := none, location := .cpuResident, move := .none }

/-- The entry of a block that is in its slot. -/
def Entry.onGpu (e : Entry) : Entry := { e with location := .gpuResident, move := .none }

theorem Entry.phase_onCpu (e : Entry) : e.onCpu.phase = some .stored := rfl

theorem Entry.phase_onGpu (hg : e.gpu = some g) : e.onGpu.phase = some .resident :=
  Entry.phase_resident.mpr ⟨rfl, rfl, g, hg⟩

/-- Neither list sees an entry that is not moving and not waiting. -/
theorem not_moving_of_phase {p : Phase} (hp : e.phase = some p) (hne : p = .resident ∨ p = .stored) :
    ¬ e.Moving ∧ ¬ e.Waiting := by
  unfold Entry.Moving Entry.Waiting
  rw [hp]
  rcases hne with rfl | rfl <;> decide

theorem Core.moving_head (hc : Core c x (h :: ps) qs m) :
    (m.entries h.id).Moving ∧ ¬ (m.entries h.id).Waiting ∧ ¬ (m.entries h.id).Evictable ∧
      (m.entries h.id).live = true ∧ (m.entries h.id).pins = 0 := by
  have hm := hc.moving.of_mem List.mem_cons_self
  have hne : (m.entries h.id).phase ≠ some .queued ∧ (m.entries h.id).phase ≠ some .resident ∧
      (m.entries h.id).phase ≠ some .stored := by
    rcases hm with hp | hp
    all_goals rw [hp]; decide
  exact ⟨hm, hne.1, fun he => hne.2.1 he.1, hc.live_of_phase hne.2.2, hc.pins_eq hne.2.1⟩

/-- The block is on the host, its slot `g` is returned. -/
def landedOnCpu (g : BlockHandle) (id : ℕ) (m : TieredBlockManager) : TieredBlockManager :=
  (slotReleased g m).setEntry id (m.entries id).onCpu

/-- The block is in its slot. -/
def landedOnGpu (id : ℕ) (m : TieredBlockManager) : TieredBlockManager :=
  (m.setEntry id (m.entries id).onGpu).touchLru id

theorem landedOnCpu_entries (g : BlockHandle) (id : ℕ) (m : TieredBlockManager) :
    (landedOnCpu g id m).entries = Function.update m.entries id (m.entries id).onCpu := rfl

theorem landedOnGpu_entries (id : ℕ) (m : TieredBlockManager) :
    (landedOnGpu id m).entries = Function.update m.entries id (m.entries id).onGpu := rfl

/-- **A block is on the host again** and its slot is returned. -/
theorem Core.landOnCpu (hc : Core c x (h :: ps) qs m) (hg : (m.entries h.id).gpu = some g)
    (hled : Ledger (m.held.erase g) [] (slotReleased g m).transfers)
    (hbytes : (m.transfers.buffers h.id).bytes = c h.id)
    (hmark : x ≠ some h.id → (m.entries h.id).prefetched = false) :
    Core c x ps qs (landedOnCpu g h.id m) := by
  obtain ⟨hm, hw, hev, hlive, hpins⟩ := hc.moving_head
  obtain ⟨hm', hw'⟩ := not_moving_of_phase (m.entries h.id).phase_onCpu (.inr rfl)
  have hheld : (landedOnCpu g h.id m).held = m.held.erase g :=
    held_leave rfl (landedOnCpu_entries g h.id m) (hc.lt_capacity hlive) hg rfl
  refine hc.update rfl (landedOnCpu_entries g h.id m) rfl (hheld ▸ hled) (fun j => ?_) rfl
    (fun _ => rfl) (fun _ _ => rfl) (fun _ _ _ _ => ⟨rfl, rfl⟩) (fun g' hg' => by cases hg')
    (fun _ _ hx => hx) ?_ (hc.moving.pop hm')
    (hc.waiting.same (iff_of_false hw' hw) fun hp => absurd hp hw') ?_
  · exact (released_steady m.transfers.pool.manager g.id j).2.1.trans (hc.unpublished j)
  · refine (hc.entry h.id).of_live hlive rfl rfl (Function.update_self ..) rfl rfl
      (by rw [Entry.phase_onCpu]; exact Option.some_ne_none _) (fun hp => absurd hpins hp)
      (fun hx hp => ?_) (fun _ => hbytes) (fun g' hg' => by cases hg')
    rw [show (m.entries h.id).onCpu.prefetched = (m.entries h.id).prefetched from rfl,
      hmark hx] at hp
    cases hp
  · exact hc.lru_same rfl (landedOnCpu_entries g h.id m)
      (iff_of_false (Entry.not_evictable (m.entries h.id).phase_onCpu (by decide)) hev)

/-- **A block is in its slot.** -/
theorem Core.landOnGpu (hc : Core c x (h :: ps) qs m) (hg : (m.entries h.id).gpu = some g)
    (hkept : m.transfers.memory g.id = c h.id ∧ m.transfers.pool.initialized g.id = true) :
    Core c x ps qs (landedOnGpu h.id m) := by
  obtain ⟨hm, hw, hev, hlive, hpins⟩ := hc.moving_head
  have hphase := Entry.phase_onGpu (e := m.entries h.id) hg
  obtain ⟨hm', hw'⟩ := not_moving_of_phase hphase (.inl rfl)
  have hheld : (landedOnGpu h.id m).held = m.held := held_same rfl (landedOnGpu_entries h.id m) rfl
  refine hc.update rfl (landedOnGpu_entries h.id m) rfl (hheld.symm ▸ hc.ledger) hc.unpublished rfl
    (fun _ => rfl) (fun _ _ => rfl) (fun _ _ _ _ => ⟨rfl, rfl⟩) (fun g' hg' j g'' hj hg'' he => ?_)
    (fun _ _ hx => hx) ?_ (hc.moving.pop hm')
    (hc.waiting.same (iff_of_false hw' hw) fun hp => absurd hp hw') ?_
  · exact hj (hc.distinct h.id j g' g'' hg' hg'' he).symm
  · refine (hc.entry h.id).of_live hlive rfl rfl (Function.update_self ..) rfl rfl
      (by rw [hphase]; exact Option.some_ne_none _) (fun hp => absurd hpins hp)
      (fun _ _ => by rw [hphase]; decide) (fun hp => ?_) (fun g' hg' _ => ?_)
    · rw [hphase] at hp
      rcases hp with hp | hp | hp <;> cases hp
    · obtain rfl : g' = g := Option.some.inj (hg'.symm.trans hg)
      exact hkept
  · refine hc.lru.touch fun j => ?_
    rw [landedOnGpu_entries]
    by_cases hj : j = h.id
    · rw [hj, Function.update_self]
      exact iff_of_true ⟨hphase, hpins⟩ (.inl rfl)
    · rw [Function.update_of_ne hj]
      exact (or_iff_right hj).symm

/-- The counters after an ended move. -/
def counted (success toCpu : Bool) (m : TieredBlockManager) : TieredBlockManager :=
  if success = true then countMove toCpu m else m

/-- The mark of a move that is given up. -/
def unmarked (success : Bool) (id : ℕ) (m : TieredBlockManager) : TieredBlockManager :=
  if success = true then m else discardPrefetch id m

/-- Where the block of an ended move is. -/
def toHost (success : Bool) (e : Entry) : Bool :=
  (success && decide (e.move = .toCpu)) || (!success && !decide (e.move = .toCpu))

theorem modifyEntry_setEntry (i : ℕ) (f : Entry → Entry) (e : Entry) (m : TieredBlockManager) :
    modifyEntry i f (setEntry i e m) = setEntry i (f e) m := by
  unfold modifyEntry setEntry
  simp

theorem modifyEntry_countMove (i : ℕ) (f : Entry → Entry) (toCpu : Bool) (m : TieredBlockManager) :
    modifyEntry i f (countMove toCpu m) = countMove toCpu (modifyEntry i f m) := by
  cases toCpu <;> rfl

theorem modifyEntry_settleOnGpu (h : LogicalBlockHandle) (m : TieredBlockManager) :
    modifyEntry h.id (fun e => { e with move := .none }) (settleOnGpu h m) =
      landedOnGpu h.id m := by
  have hset : settleOnGpu h m =
      touchLru h.id (setEntry h.id { m.entries h.id with location := .gpuResident } m) := rfl
  have hcomm : ∀ f m', modifyEntry h.id f (touchLru h.id m') = touchLru h.id (modifyEntry h.id f m') :=
    fun _ _ => rfl
  rw [hset, hcomm, modifyEntry_setEntry]
  rfl

theorem modifyEntry_settledOnCpu (g : BlockHandle) (h : LogicalBlockHandle)
    (m : TieredBlockManager) :
    modifyEntry h.id (fun e => { e with move := .none }) ((slotReleased g m).setEntry h.id
      { m.entries h.id with gpu := none, location := .cpuResident }) = landedOnCpu g h.id m := by
  rw [modifyEntry_setEntry]
  rfl

/-- The steps of a move behind the mark. -/
theorem finishEntry_eq (hm' : unmarked success h.id m = m') : finishEntry success h m = (do
    if toHost success (m'.entries h.id) = true then settleOnCpu h
      else modify (settleOnGpu h)
    if success = true then modify (countMove (decide ((m'.entries h.id).move = .toCpu)))
    modify (modifyEntry h.id fun e => { e with move := .none }) : TieredCall Unit) m' := by
  rw [← hm']
  cases success <;> rfl

theorem settleOnCpu_eq (hg : (m.entries h.id).gpu = some g)
    (hrelease : onGpu (GpuMemoryPool.release g) m = .ok () (slotReleased g m)) :
    settleOnCpu h m = .ok () ((slotReleased g m).setEntry h.id
      { m.entries h.id with gpu := none, location := .cpuResident }) := by
  have hentry : entry h.id m = .ok (m.entries h.id) m := rfl
  have hderef : deref (m.entries h.id) m = .ok g m := by
    unfold deref
    rw [hg]
    rfl
  unfold settleOnCpu
  rw [bind_of_ok hentry, bind_of_ok hderef, bind_of_ok hrelease]
  rfl

theorem finishEntry_onCpu (hm' : unmarked success h.id m = m')
    (hg : (m'.entries h.id).gpu = some g) (hdir : toHost success (m'.entries h.id) = true)
    (hrelease : onGpu (GpuMemoryPool.release g) m' = .ok () (slotReleased g m')) :
    finishEntry success h m = .ok () (counted success true (landedOnCpu g h.id m')) := by
  have hmove : success = true → decide ((m'.entries h.id).move = .toCpu) = true := fun hs => by
    simpa [toHost, hs] using hdir
  rw [finishEntry_eq hm', if_pos hdir, bind_of_ok (settleOnCpu_eq hg hrelease),
    ← modifyEntry_settledOnCpu]
  cases success with
  | false => rfl
  | true =>
    rw [hmove rfl, counted, if_pos rfl, ← modifyEntry_countMove]
    rfl

theorem finishEntry_onGpu (hm' : unmarked success h.id m = m')
    (hdir : toHost success (m'.entries h.id) = false) :
    finishEntry success h m = .ok () (counted success false (landedOnGpu h.id m')) := by
  have hmove : success = true → decide ((m'.entries h.id).move = .toCpu) = false := fun hs => by
    simpa [toHost, hs] using hdir
  rw [finishEntry_eq hm', hdir, ← modifyEntry_settleOnGpu]
  cases success with
  | false => rfl
  | true =>
    rw [hmove rfl, counted, if_pos rfl, ← modifyEntry_countMove]
    rfl

/-! ## All the moves -/

/-- What the end of some moves leaves alone. -/
structure Ended (success : Bool) (m m' : TieredBlockManager) : Prop where
  frame : Frame m m'
  phase : ∀ i, (m'.entries i).phase.map (Phase.ended success) =
    (m.entries i).phase.map (Phase.ended success)
  mark : success = true → ∀ i, (m'.entries i).prefetched = (m.entries i).prefetched
  buffers : m'.transfers.buffers = m.transfers.buffers
  memory : m'.transfers.memory = m.transfers.memory
  initialized : m'.transfers.pool.initialized = m.transfers.pool.initialized
  runtime : m'.transfers.runtime = m.transfers.runtime
  pending : m'.pending = m.pending
  queued : m'.queued = m.queued
  faults : m'.faults = m.faults

namespace Ended

theorem refl (success : Bool) (m : TieredBlockManager) : Ended success m m :=
  ⟨Frame.refl m, fun _ => rfl, fun _ _ => rfl, rfl, rfl, rfl, rfl, rfl, rfl, rfl⟩

theorem trans (h : Ended success m m') (h' : Ended success m' m'') : Ended success m m'' where
  frame := h.frame.trans h'.frame
  phase i := (h'.phase i).trans (h.phase i)
  mark hs i := (h'.mark hs i).trans (h.mark hs i)
  buffers := h'.buffers.trans h.buffers
  memory := h'.memory.trans h.memory
  initialized := h'.initialized.trans h.initialized
  runtime := h'.runtime.trans h.runtime
  pending := h'.pending.trans h.pending
  queued := h'.queued.trans h.queued
  faults := h'.faults.trans h.faults

theorem discard (hi : i < m.logical.capacity) (hpins : (m.entries i).pins = 0) :
    Ended false m (discardPrefetch i m) := by
  refine ⟨frame_discard hi hpins, fun j => ?_, fun hs => absurd hs (by decide), ?_,
    ?_, ?_, ?_, ?_, ?_, ?_⟩
  · rw [discardPrefetch_entries]
    by_cases hj : j = i
    · rw [hj, Function.update_self, phase_unmarked]
    · rw [Function.update_of_ne hj]
  all_goals rw [discardPrefetch_eq]

end Ended

theorem frame_counted (success toCpu : Bool) (m : TieredBlockManager) :
    Frame m (counted success toCpu m) := by
  cases success <;> cases toCpu <;>
    exact ⟨rfl, rfl, rfl, rfl, fun _ => ⟨rfl, rfl, rfl⟩, fun _ _ => rfl, Spares.refl _, rfl, rfl,
      le_rfl⟩

theorem ended_counted (success toCpu : Bool) (m : TieredBlockManager) :
    Ended success m (counted success toCpu m) := by
  refine ⟨frame_counted success toCpu m, ?_, ?_, ?_, ?_, ?_, ?_, ?_, ?_, ?_⟩
  all_goals cases success <;> cases toCpu <;> intros <;> rfl

theorem counted_entries (success toCpu : Bool) (m : TieredBlockManager) :
    (counted success toCpu m).entries = m.entries ∧
      (counted success toCpu m).logical = m.logical := by
  cases success <;> cases toCpu <;> exact ⟨rfl, rfl⟩

theorem Core.congr_counted (hc : Core c x ps qs m) (success toCpu : Bool) :
    Core c x ps qs (counted success toCpu m) := by
  refine hc.congr ?_ ?_ ?_ ?_ ?_
  all_goals cases success <;> cases toCpu <;> rfl

/-- The entry of an ended move in its new place. -/
theorem phase_update {e : Entry} (hentries : m'.entries = Function.update m.entries i e)
    (hp : e.phase = (m.entries i).phase.map (Phase.ended success)) (j : ℕ) :
    (m'.entries j).phase.map (Phase.ended success) =
      (m.entries j).phase.map (Phase.ended success) := by
  rw [hentries]
  by_cases hj : j = i
  · rw [hj, Function.update_self, hp]
    cases (m.entries i).phase with
    | none => rfl
    | some p => exact congrArg some p.ended_ended
  · rw [Function.update_of_ne hj]

/-- The mark of an entry that does not move. -/
theorem mark_update {e : Entry} (hentries : m'.entries = Function.update m.entries i e)
    (hp : e.prefetched = (m.entries i).prefetched) (j : ℕ) :
    (m'.entries j).prefetched = (m.entries j).prefetched := by
  rw [hentries]
  by_cases hj : j = i
  · rw [hj, Function.update_self, hp]
  · rw [Function.update_of_ne hj]

theorem ended_landedOnCpu (hpins : (m.entries h.id).pins = 0)
    (hp : (m.entries h.id).phase.map (Phase.ended success) = some .stored) :
    Ended success m (landedOnCpu g h.id m) where
  frame := frame_entry (landedOnCpu_entries g h.id m) rfl released_capacity rfl rfl rfl hpins
    ⟨rfl, rfl, hpins⟩ rfl
  phase := phase_update (landedOnCpu_entries g h.id m) hp.symm
  mark _ := mark_update (landedOnCpu_entries g h.id m) rfl
  buffers := rfl
  memory := rfl
  initialized := rfl
  runtime := rfl
  pending := rfl
  queued := rfl
  faults := rfl

theorem ended_landedOnGpu (hpins : (m.entries h.id).pins = 0)
    (hg : (m.entries h.id).gpu = some g)
    (hp : (m.entries h.id).phase.map (Phase.ended success) = some .resident) :
    Ended success m (landedOnGpu h.id m) where
  frame := frame_entry (landedOnGpu_entries h.id m) rfl rfl rfl rfl rfl hpins ⟨rfl, rfl, hpins⟩ rfl
  phase := phase_update (landedOnGpu_entries h.id m) ((Entry.phase_onGpu hg).trans hp.symm)
  mark _ := mark_update (landedOnGpu_entries h.id m) rfl
  buffers := rfl
  memory := rfl
  initialized := rfl
  runtime := rfl
  pending := rfl
  queued := rfl
  faults := rfl

/-- The moves out among `hs`. -/
def leaving (hs : List LogicalBlockHandle) (m : TieredBlockManager) : ℕ :=
  hs.countP fun h => (m.entries h.id).move = .toCpu

/-- The entry whose mark is not settled once the one of `id` is. -/
def settled (x : Option ℕ) (id : ℕ) : Option ℕ := if x = some id then none else x

theorem settled_of_ne (hx : x ≠ some i) : settled x i = x := if_neg hx

theorem settled_eq {j : ℕ} (hj : j ≠ i) (hx : x = some j) : settled x i = some j := by
  rw [settled_of_ne, hx]
  rw [hx]
  exact fun he => hj (Option.some.inj he)

theorem landed_congr (hl : Landed c ps m) (hentries : ∀ h ∈ ps, m'.entries h.id = m.entries h.id)
    (hbuffers : m'.transfers.buffers = m.transfers.buffers)
    (hmemory : m'.transfers.memory = m.transfers.memory)
    (hinit : m'.transfers.pool.initialized = m.transfers.pool.initialized) : Landed c ps m' := by
  intro h hh
  rw [hentries h hh, hbuffers, hmemory, hinit]
  exact hl h hh

theorem leaving_congr (he : ∀ h ∈ ps, (m'.entries h.id).move = (m.entries h.id).move) :
    leaving ps m' = leaving ps m :=
  List.countP_congr fun h hh => by rw [he h hh]

theorem leaving_cons : leaving (h :: ps) m =
    leaving ps m + if (m.entries h.id).move = .toCpu then 1 else 0 := by
  unfold leaving
  rw [List.countP_cons]
  simp

/-- An ended move is counted. -/
theorem billed_counted {toCpu : Bool} (hb : Billed (h :: ps) m)
    (hothers : ∀ g ∈ ps, m'.entries g.id = m.entries g.id) (hfaults : m'.faults = m.faults)
    (hmetrics : m'.transfers.runtime = m.transfers.runtime) (hbytes : m'.blockBytes = m.blockBytes)
    (hoffloads : m'.offloads = m.offloads) (hloads : m'.loads = m.loads)
    (hmove : (m.entries h.id).move = if toCpu = true then .toCpu else .toGpu) :
    Billed ps (counted true toCpu m') := by
  intro hf
  have hf' : m.faults = 0 := by
    rw [← hfaults, ← (ended_counted true toCpu m').faults]
    exact hf
  obtain ⟨hout, hin⟩ := hb hf'
  have hcount : ∀ v : Move, (ps.countP fun g => ((counted true toCpu m').entries g.id).move = v) =
      ps.countP fun g => (m.entries g.id).move = v := fun v => List.countP_congr fun g hg => by
    rw [(counted_entries true toCpu m').1, hothers g hg]
  rw [hcount, hcount, (ended_counted true toCpu m').runtime, (frame_counted true toCpu m').blockBytes,
    hmetrics, hbytes, hout, hin]
  rw [List.countP_cons, List.countP_cons]
  cases toCpu with
  | true =>
    have hstate : (counted true true m').offloads = m.offloads + 1 ∧
        (counted true true m').loads = m.loads := ⟨congrArg (· + 1) hoffloads, hloads⟩
    rw [hstate.1, hstate.2, hmove]
    simp [add_assoc, add_comm]
  | false =>
    have hstate : (counted true false m').offloads = m.offloads ∧
        (counted true false m').loads = m.loads + 1 := ⟨hoffloads, congrArg (· + 1) hloads⟩
    rw [hstate.1, hstate.2, hmove]
    simp [add_assoc, add_comm]

/-- Nothing but the mark of a move differs. -/
structure Unmarked (success : Bool) (id : ℕ) (m m' : TieredBlockManager) : Prop where
  ended : Ended success m m'
  entries : ∃ b, m'.entries =
    Function.update m.entries id { m.entries id with prefetched := b } ∧ (success = false → b = false)
  transfers : m'.transfers = m.transfers
  offloads : m'.offloads = m.offloads
  loads : m'.loads = m.loads

theorem Core.unmark (hc : Core c x (h :: ps) qs m) (hx : success = true → x ≠ some h.id) :
    Core c (settled x h.id) (h :: ps) qs (unmarked success h.id m) ∧
      Unmarked success h.id m (unmarked success h.id m) := by
  obtain ⟨-, -, -, hlive, hpins⟩ := hc.moving_head
  cases success with
  | true =>
    rw [settled_of_ne (hx rfl)]
    exact ⟨hc, Ended.refl true m, ⟨(m.entries h.id).prefetched,
      (Function.update_eq_self h.id m.entries).symm, fun hs => absurd hs (by decide)⟩, rfl, rfl, rfl⟩
  | false =>
    have hstate : unmarked false h.id m = discardPrefetch h.id m := rfl
    rw [hstate]
    refine ⟨hc.discard fun j hj he => settled_eq hj he,
      Ended.discard (hc.lt_capacity hlive) hpins, ⟨false, discardPrefetch_entries h.id m, fun _ => rfl⟩,
      ?_, ?_, ?_⟩
    all_goals rw [discardPrefetch_eq]

/-- **One move ends**, its mark is settled already. -/
theorem Core.land (hc : Core c x (h :: ps) qs m)
    (hmark : success = false → (m.entries h.id).prefetched = false)
    (hland : success = true → Landed c (h :: ps) m) : ∃ toCpu m', (∀ m₀, unmarked success h.id m₀ = m →
        finishEntry success h m₀ = .ok () (counted success toCpu m')) ∧
      Core c x ps qs m' ∧ Ended success m m' ∧ (∀ j, j ≠ h.id → m'.entries j = m.entries j) ∧
      m'.offloads = m.offloads ∧ m'.loads = m.loads ∧
      (success = true → (m.entries h.id).move = if toCpu = true then .toCpu else .toGpu) ∧
      m'.owning + (if toCpu = true then 1 else 0) = m.owning := by
  obtain ⟨hm, -, -, hlive, hpins⟩ := hc.moving_head
  have hlt := hc.lt_capacity hlive
  have hold := hc.entry h.id
  obtain ⟨g, hg⟩ : ∃ g, (m.entries h.id).gpu = some g := by
    rcases hm with hp | hp
    · exact (Entry.phase_loading.mp hp).2.2
    · exact (Entry.phase_saving.mp hp).2.2
  cases hdir : toHost success (m.entries h.id) with
  | true =>
    obtain ⟨hrelease, hled⟩ := hc.release_slot hg
    have hlogical : (landedOnCpu g h.id m).logical = m.logical := rfl
    have howning := owning_update (congrArg BlockManager.capacity hlogical)
      (landedOnCpu_entries g h.id m) hlt
    rw [hg] at howning
    have hrest : (m.transfers.buffers h.id).bytes = c h.id ∧
        (x ≠ some h.id → (m.entries h.id).prefetched = false) ∧
        (m.entries h.id).phase.map (Phase.ended success) = some .stored ∧
        (success = true → (m.entries h.id).move = .toCpu) := by
      cases success with
      | true =>
        have hmove : (m.entries h.id).move = .toCpu := by simpa [toHost] using hdir
        have hp : (m.entries h.id).phase = some .saving := hm.resolve_left fun hp => by
          rw [(Entry.phase_loading.mp hp).2.1] at hmove
          cases hmove
        refine ⟨(hland rfl h List.mem_cons_self).1, fun hx => ?_, by rw [hp]; rfl, fun _ => hmove⟩
        cases hpre : (m.entries h.id).prefetched with
        | false => rfl
        | true => exact absurd hp (hold.marked hx hpre).2
      | false =>
        have hp : (m.entries h.id).phase = some .loading := hm.resolve_right fun hp => by
          simp [toHost, (Entry.phase_saving.mp hp).2.1] at hdir
        exact ⟨hold.backed hlive (.inr (.inl hp)), fun _ => hmark rfl, by rw [hp]; rfl,
          fun hs => absurd hs (by decide)⟩
    obtain ⟨hbytes, hmark', hphase, hmove⟩ := hrest
    exact ⟨true, landedOnCpu g h.id m, fun m₀ hm₀ => finishEntry_onCpu hm₀ hg hdir hrelease,
      hc.landOnCpu hg hled hbytes hmark', ended_landedOnCpu hpins hphase,
      fun j hj => by rw [landedOnCpu_entries, Function.update_of_ne hj], rfl, rfl, hmove, howning⟩
  | false =>
    have hlogical : (landedOnGpu h.id m).logical = m.logical := rfl
    have howning := owning_update (congrArg BlockManager.capacity hlogical)
      (landedOnGpu_entries h.id m) hlt
    have hrest : (m.transfers.memory g.id = c h.id ∧ m.transfers.pool.initialized g.id = true) ∧
        (m.entries h.id).phase.map (Phase.ended success) = some .resident ∧
        (success = true → (m.entries h.id).move = .toGpu) := by
      cases success with
      | true =>
        have hp : (m.entries h.id).phase = some .loading := hm.resolve_right fun hp => by
          simp [toHost, (Entry.phase_saving.mp hp).2.1] at hdir
        exact ⟨(hland rfl h List.mem_cons_self).2 g hg, by rw [hp]; rfl,
          fun _ => (Entry.phase_loading.mp hp).2.1⟩
      | false =>
        have hp : (m.entries h.id).phase = some .saving := hm.resolve_left fun hp => by
          simp [toHost, (Entry.phase_loading.mp hp).2.1] at hdir
        exact ⟨hold.kept g hg (by rw [hp]; decide), by rw [hp]; rfl,
          fun hs => absurd hs (by decide)⟩
    obtain ⟨hkept, hphase, hmove⟩ := hrest
    exact ⟨false, landedOnGpu h.id m, fun m₀ hm₀ => finishEntry_onGpu hm₀ hdir,
      hc.landOnGpu hg hkept, ended_landedOnGpu hpins hg hphase,
      fun j hj => by rw [landedOnGpu_entries, Function.update_of_ne hj], rfl, rfl, hmove,
      Nat.add_right_cancel howning⟩

theorem finishEntry_ok (hc : Core c x (h :: ps) qs m)
    (hland : success = true → Landed c (h :: ps) m ∧ x ≠ some h.id) :
    ∃ m', finishEntry success h m = .ok () m' ∧ Core c (settled x h.id) ps qs m' ∧
      Ended success m m' ∧ (success = true → Landed c ps m' ∧ (Billed (h :: ps) m → Billed ps m') ∧
        m'.owning + leaving (h :: ps) m = m.owning + leaving ps m') := by
  have hnodup := hc.moving.nodup
  rw [List.map_cons, List.nodup_cons] at hnodup
  have hne : ∀ g ∈ ps, g.id ≠ h.id := fun g hg he => hnodup.1 (he ▸ List.mem_map_of_mem hg)
  obtain ⟨hc₁, hu⟩ := hc.unmark fun hs => (hland hs).2
  obtain ⟨b, hentries, hb⟩ := hu.entries
  have hothers₁ : ∀ j, j ≠ h.id → (unmarked success h.id m).entries j = m.entries j := fun j hj => by
    rw [hentries, Function.update_of_ne hj]
  obtain ⟨toCpu, m', hfinish, hc', hended, hothers, hoffloads, hloads, hmove, howning⟩ := hc₁.land
    (fun hs => by rw [hentries, Function.update_self]; exact hb hs) fun hs => by
      have hstate : unmarked success h.id m = m := if_pos hs
      rw [hstate]
      exact (hland hs).1
  have hcounted := ended_counted success toCpu m'
  have hall := (hu.ended.trans hended).trans hcounted
  refine ⟨counted success toCpu m', hfinish m rfl, hc'.congr_counted success toCpu, hall, fun hs => ?_⟩
  subst hs
  have hstate : unmarked true h.id m = m := rfl
  rw [hstate] at hended hothers hoffloads hloads hmove howning
  have hsame : ∀ g ∈ ps, (counted true toCpu m').entries g.id = m.entries g.id := fun g hg => by
    rw [(counted_entries true toCpu m').1]
    exact hothers g.id (hne g hg)
  refine ⟨?_, fun hbill => ?_, ?_⟩
  · exact landed_congr (fun g hg => (hland rfl).1 g (List.mem_cons_of_mem h hg)) hsame hall.buffers
      hall.memory hall.initialized
  · exact billed_counted hbill (fun g hg => hothers g.id (hne g hg)) hended.faults hended.runtime
      hended.frame.blockBytes hoffloads hloads (hmove rfl)
  · have hcount : (counted true toCpu m').owning = m'.owning := by
      unfold owning
      rw [(counted_entries true toCpu m').1, (counted_entries true toCpu m').2]
    rw [hcount, leaving_cons, leaving_congr fun g hg => by rw [hsame g hg], hmove rfl, ← howning]
    cases toCpu
    · simp
    · simp
      omega

theorem finishEntries_ok (success : Bool) (ps : List LogicalBlockHandle) : ∀ {x m}, Core c x ps qs m →
    (x = none ∨ success = false ∧ ∃ h ∈ ps, x = some h.id) → (success = true → Landed c ps m) →
    ∃ m', finishEntries success ps m = .ok () m' ∧ Core c none [] qs m' ∧ Ended success m m' ∧
      (success = true → (Billed ps m → Billed [] m') ∧ m'.owning + leaving ps m = m.owning) := by
  induction ps with
  | nil =>
    intro x m hc hx _
    obtain rfl : x = none := hx.resolve_right fun he => by
      obtain ⟨-, h, hh, -⟩ := he
      exact absurd hh List.not_mem_nil
    exact ⟨m, rfl, hc, Ended.refl success m, fun _ => ⟨id, rfl⟩⟩
  | cons h ps ih =>
    intro x m hc hx hland
    have hx₁ : settled x h.id = none ∨ success = false ∧ ∃ g ∈ ps, settled x h.id = some g.id := by
      rcases hx with rfl | ⟨hs, g, hg, rfl⟩
      · exact .inl rfl
      · rcases List.mem_cons.mp hg with rfl | hg
        · exact .inl (if_pos rfl)
        · by_cases he : g.id = h.id
          · exact .inl (if_pos (congrArg some he))
          · exact .inr ⟨hs, g, hg, settled_eq he rfl⟩
    obtain ⟨m₁, hfirst, hc₁, hended₁, hs₁⟩ := finishEntry_ok hc fun hs => by
      refine ⟨hland hs, ?_⟩
      rcases hx with rfl | ⟨hs', -⟩
      · exact fun he => by cases he
      · rw [hs] at hs'
        cases hs'
    obtain ⟨m', hrest, hc', hended', hs'⟩ := ih hc₁ hx₁ fun hs => (hs₁ hs).1
    refine ⟨m', ?_, hc', hended₁.trans hended', fun hs => ⟨fun hb => ?_, ?_⟩⟩
    · rw [finishEntries, bind_of_ok hfirst, hrest]
    · exact (hs' hs).1 ((hs₁ hs).2.1 hb)
    · have h₁ := (hs₁ hs).2.2
      have h₂ := (hs' hs).2
      omega

/-! ## Queued loads that are given up -/

/-- The entry of a block on the host without a mark. -/
def Entry.cancelled (e : Entry) : Entry :=
  { e with location := .cpuResident, move := .none, prefetched := false }

theorem cancelLoad_entries (m : TieredBlockManager) (h : LogicalBlockHandle) :
    (cancelLoad m h).entries = Function.update m.entries h.id (m.entries h.id).cancelled := by
  show Function.update (discardPrefetch h.id m).entries h.id _ = _
  rw [discardPrefetch_entries, Function.update_self, Function.update_idem]
  rfl

theorem cancelLoad_rest (m : TieredBlockManager) (h : LogicalBlockHandle) : cancelLoad m h =
    { discardPrefetch h.id m with entries := (cancelLoad m h).entries } := rfl

/-- What the cancelled loads leave alone. -/
structure Cancelled (m m' : TieredBlockManager) : Prop where
  frame : Frame m m'
  transfers : m'.transfers = m.transfers
  pending : m'.pending = m.pending
  queued : m'.queued = m.queued
  offloads : m'.offloads = m.offloads
  loads : m'.loads = m.loads
  faults : m'.faults = m.faults

theorem Cancelled.trans (h : Cancelled m m') (h' : Cancelled m' m'') : Cancelled m m'' where
  frame := h.frame.trans h'.frame
  transfers := h'.transfers.trans h.transfers
  pending := h'.pending.trans h.pending
  queued := h'.queued.trans h.queued
  offloads := h'.offloads.trans h.offloads
  loads := h'.loads.trans h.loads
  faults := h'.faults.trans h.faults

theorem cancelled_discard (hi : i < m.logical.capacity) (hpins : (m.entries i).pins = 0) :
    Cancelled m (discardPrefetch i m) := by
  refine ⟨frame_discard hi hpins, ?_, ?_, ?_, ?_, ?_, ?_⟩
  all_goals rw [discardPrefetch_eq]

/-- A block on the host is only unmarked. -/
theorem cancelLoad_stored (hp : (m.entries h.id).phase = some .stored) :
    cancelLoad m h = discardPrefetch h.id m := by
  obtain ⟨hlocation, hmove, -⟩ := Entry.phase_stored.mp hp
  have hself : (m.entries h.id).cancelled = { m.entries h.id with prefetched := false } := by
    unfold Entry.cancelled
    rw [← hlocation, ← hmove]
  rw [cancelLoad_rest, cancelLoad_entries, hself, discardPrefetch_eq]

/-- **A queued load is given up.** -/
theorem Core.cancelLoad (hc : Core c none ps (h :: qs) m) :
    Core c none ps qs (cancelLoad m h) ∧ Cancelled m (cancelLoad m h) := by
  have hw := hc.waiting.of_mem List.mem_cons_self
  have hgpu := (Entry.phase_queued.mp hw).2.2
  have hlive : (m.entries h.id).live = true := hc.live_of_phase (by rw [hw]; decide)
  have hpins : (m.entries h.id).pins = 0 := hc.pins_eq (by rw [hw]; decide)
  have hlt := hc.lt_capacity hlive
  have hold := hc.entry h.id
  have hphase : (m.entries h.id).cancelled.phase = some .stored :=
    Entry.phase_stored.mpr ⟨rfl, rfl, hgpu⟩
  obtain ⟨hm', hw'⟩ := not_moving_of_phase hphase (.inr rfl)
  have hentries := cancelLoad_entries m h
  have htransfers : (TieredBlockManager.cancelLoad m h).transfers = m.transfers :=
    (cancelled_discard hlt hpins).transfers
  have hlogical : (TieredBlockManager.cancelLoad m h).logical = m.logical :=
    (cancelled_discard hlt hpins).frame.logical
  have hheld := held_same (e := (m.entries h.id).cancelled)
    (congrArg BlockManager.capacity hlogical) hentries rfl
  have hbytes : (TieredBlockManager.cancelLoad m h).blockBytes = m.blockBytes := by
    unfold blockBytes
    rw [htransfers]
  refine ⟨hc.update hlogical hentries ?_ ?_ ?_ hbytes (fun b => ?_) (fun j _ => ?_)
    (fun j g _ _ => ?_) (fun g' hg' => ?_) (fun _ _ hx => hx) ?_ ?_ ?_ ?_, ?_⟩
  · rw [cancelLoad_rest, discardPrefetch_eq]
  · rw [hheld, htransfers]
    exact hc.ledger
  · rw [htransfers]
    exact hc.unpublished
  · rw [htransfers]
  · rw [htransfers]
  · rw [htransfers]
    exact ⟨rfl, rfl⟩
  · exact absurd (hg'.symm.trans hgpu) (Option.some_ne_none g')
  · refine hold.of_live (e := (m.entries h.id).cancelled) hlive hlogical hbytes
      (by rw [hentries, Function.update_self]) rfl rfl
      (by rw [hphase]; exact Option.some_ne_none _) (fun hp => absurd hpins hp)
      (fun _ hp => by cases hp) (fun _ => ?_)
      (fun g' hg' => absurd (hg'.symm.trans hgpu) (Option.some_ne_none g'))
    rw [htransfers]
    exact hold.backed hlive (.inr (.inr hw))
  · rw [hentries]
    refine hc.moving.same (iff_of_false hm' ?_) fun hp => absurd hp hm'
    exact fun hm => by rcases hm with hp | hp <;> (rw [hw] at hp; cases hp)
  · rw [hentries]
    exact hc.waiting.pop hw'
  · have hlru : (TieredBlockManager.cancelLoad m h).residentLru = m.residentLru := by
      rw [cancelLoad_rest, discardPrefetch_eq]
    exact hc.lru_same hlru hentries (iff_of_false (Entry.not_evictable hphase (by decide))
      (Entry.not_evictable hw (by decide)))
  · -- the mark is discarded first, then the entry is reset
    have hdiscard := cancelled_discard hlt hpins
    have hentries' : (TieredBlockManager.cancelLoad m h).entries =
        Function.update (discardPrefetch h.id m).entries h.id (m.entries h.id).cancelled := by
      rw [hentries, discardPrefetch_entries, Function.update_idem]
    have hself : (discardPrefetch h.id m).entries h.id =
        { m.entries h.id with prefetched := false } := by
      rw [discardPrefetch_entries, Function.update_self]
    refine ⟨hdiscard.frame.trans (frame_entry hentries' rfl rfl rfl rfl rfl ?_ ?_ ?_), htransfers,
      hdiscard.pending, hdiscard.queued, hdiscard.offloads, hdiscard.loads, hdiscard.faults⟩
    · rw [hself]
      exact hpins
    · rw [hself]
      exact ⟨rfl, rfl, hpins⟩
    · rw [hself]
      rfl

theorem Core.cancelLoads (qs : List LogicalBlockHandle) : ∀ {m}, Core c none ps (qs ++ qs') m →
    Core c none ps qs' (m.cancelLoads qs) ∧ Cancelled m (m.cancelLoads qs) := by
  induction qs with
  | nil => exact fun hc => ⟨hc, Frame.refl _, rfl, rfl, rfl, rfl, rfl, rfl⟩
  | cons h qs ih =>
    intro m hc
    obtain ⟨hc₁, hfirst⟩ := hc.cancelLoad
    obtain ⟨hc', hrest⟩ := ih hc₁
    exact ⟨hc', hfirst.trans hrest⟩

theorem cancelLoads_entries (qs : List LogicalBlockHandle) : ∀ {m : TieredBlockManager},
    i ∉ qs.map LogicalBlockHandle.id → (m.cancelLoads qs).entries i = m.entries i := by
  induction qs with
  | nil => exact fun _ => rfl
  | cons h qs ih =>
    intro m hi
    rw [List.map_cons, List.mem_cons, not_or] at hi
    refine (ih hi.2).trans ?_
    rw [cancelLoad_entries, Function.update_of_ne hi.1]

/-! ## `finish` -/

/-- The state once every move has succeeded. -/
structure Completed (c : ℕ → Bytes) (qs : List LogicalBlockHandle) (m m' : TieredBlockManager) :
    Prop where
  core : Core c none [] qs m'
  frame : Frame m m'
  pending : m'.pending = []
  queued : m'.queued = m.queued
  underway : Underway [] m'
  billed : Billed [] m'
  phase : ∀ i, (m'.entries i).phase = (m.entries i).phase.map (Phase.ended true)
  mark : ∀ i, (m'.entries i).prefetched = (m.entries i).prefetched
  owning : m'.owning + leaving m.pending m = m.owning

/-- The state once every move and every queued load is given up. -/
structure Reverted (c : ℕ → Bytes) (qs : List LogicalBlockHandle) (m m' : TieredBlockManager) :
    Prop where
  core : Core c none [] qs m'
  frame : Frame m m'
  pending : m'.pending = []
  queued : m'.queued = []
  underway : Underway [] m'
  faults : m'.faults ≠ 0
  stored : ∀ i, (m.entries i).phase = some .stored ∨ (m.entries i).phase = some .loading →
    (m'.entries i).phase = some .stored

theorem Reverted.after (h : Frame m m') (hp : ∀ i,
      (m.entries i).phase = some .stored ∨ (m.entries i).phase = some .loading →
      (m'.entries i).phase = some .stored ∨ (m'.entries i).phase = some .loading)
    (h' : Reverted c qs m' m'') : Reverted c qs m m'' :=
  ⟨h'.core, h.trans h'.frame, h'.pending, h'.queued, h'.underway, h'.faults,
    fun i hi => h'.stored i (hp i hi)⟩

theorem not_moving_of_nil (hc : Core c x [] qs m) (i : ℕ) : ¬ (m.entries i).Moving := fun hm =>
  absurd ((hc.moving.mem i).mpr hm) List.not_mem_nil

/-- **The moves succeed**, and `finish` does not throw. -/
theorem finish_true (hc : Core c none m.pending qs m) (hu : Underway [] m)
    (hland : Landed c m.pending m) (hb : Billed m.pending m) :
    ∃ m', finish true m = .ok () m' ∧ Completed c qs m m' := by
  obtain ⟨m', hrun, hc', hended, hs⟩ := finishEntries_ok true m.pending hc (.inl rfl)
    fun _ => hland
  obtain ⟨hbill, howning⟩ := hs rfl
  have hfinish : finish true m = .ok () m'.clearPending := by
    unfold finish noexcept
    rw [onError_ok, bind_of_ok (get_apply m), bind_of_ok hrun]
    rfl
  have hclear : Frame m' m'.clearPending :=
    ⟨rfl, rfl, rfl, rfl, fun _ => ⟨rfl, rfl, rfl⟩, fun _ _ => rfl, Spares.refl _, rfl, rfl, le_rfl⟩
  refine ⟨m'.clearPending, hfinish, hc'.congr rfl rfl rfl rfl rfl, hended.frame.trans hclear, rfl,
    hended.queued, ?_, hbill hb, fun i => ?_, hended.mark rfl, howning⟩
  · show m'.transfers.runtime.pending = []
    rw [hended.runtime]
    exact hu
  · rw [← hended.phase i]
    exact (ended_of_not_moving true (not_moving_of_nil hc' i)).symm

/-- **The moves are given up**, and `finish` does not throw. -/
theorem finish_false (qs : List LogicalBlockHandle)
    (hc : Core c x m.pending (m.queued ++ qs) m) (hu : Underway [] m)
    (hx : x = none ∨ ∃ h ∈ m.pending, x = some h.id) (hf : m.faults ≠ 0) :
    ∃ m', finish false m = .ok () m' ∧ Reverted c qs m m' := by
  obtain ⟨m', hrun, hc', hended, -⟩ := finishEntries_ok false m.pending hc
    (hx.imp_right fun he => ⟨rfl, he⟩) fun hs => absurd hs (by decide)
  have hc₁ : Core c none [] (m'.queued ++ qs) m'.clearPending := by
    rw [hended.queued]
    exact hc'.congr rfl rfl rfl rfl rfl
  obtain ⟨hc₂, hcancel⟩ := hc₁.cancelLoads m'.queued
  have hfinish : finish false m = .ok () m'.clearPending.clearQueued := by
    unfold finish noexcept
    rw [onError_ok, bind_of_ok (get_apply m), bind_of_ok hrun]
    rfl
  have hclear : Frame m' m'.clearPending :=
    ⟨rfl, rfl, rfl, rfl, fun _ => ⟨rfl, rfl, rfl⟩, fun _ _ => rfl, Spares.refl _, rfl, rfl, le_rfl⟩
  have hqueue : Frame (m'.clearPending.cancelLoads m'.queued) m'.clearPending.clearQueued :=
    ⟨rfl, rfl, rfl, rfl, fun _ => ⟨rfl, rfl, rfl⟩, fun _ _ => rfl, Spares.refl _, rfl, rfl, le_rfl⟩
  refine ⟨m'.clearPending.clearQueued, hfinish, hc₂.congr rfl rfl rfl rfl rfl,
    ((hended.frame.trans hclear).trans hcancel.frame).trans hqueue, hcancel.pending, rfl, ?_, ?_,
    fun i hi => ?_⟩
  · show (m'.clearPending.cancelLoads m'.queued).transfers.runtime.pending = []
    rw [hcancel.transfers]
    show m'.transfers.runtime.pending = []
    rw [hended.runtime]
    exact hu
  · exact (hcancel.faults.trans hended.faults).trans_ne hf
  · have hp : (m'.entries i).phase = some .stored := by
      rw [← ended_of_not_moving false (not_moving_of_nil hc' i), hended.phase i]
      rcases hi with hi | hi
      all_goals rw [hi]; rfl
    have hnot : i ∉ m'.queued.map LogicalBlockHandle.id := fun hm => by
      obtain ⟨h, hh, rfl⟩ := List.mem_map.mp hm
      have hw := hc₁.waiting.of_mem (List.mem_append_left qs hh)
      rw [Entry.Waiting] at hw
      exact absurd (hp.symm.trans hw) (by decide)
    show ((m'.clearPending.cancelLoads m'.queued).entries i).phase = _
    rw [cancelLoads_entries m'.queued hnot]
    exact hp

end KVFlux.TieredBlockManager
