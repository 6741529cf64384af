import KVFlux.AsyncTransfer.Ledger

/-!
# Submitting and awaiting batches

* `Accepted`: what the checks of `submit` let through; **`validate_ok_iff`**.
* `submitted`: the state with a new batch on the stream; `Ledger.submitted`.
* **`submit_cases`**: a submission leaves the blocks and the buffers alone, or puts its batch on the
  stream, or gives up every batch. `submit_ok`: without a failure an accepted batch is submitted.
* **`synchronize_cases`**: every pending batch succeeds, or every pending batch fails.
-/

namespace KVFlux.AsyncTransfer

open Fallible BlockManager GpuMemoryPool

variable {held : Multiset BlockHandle} {others : List Pending} {t t' : Transfers}
  {blocks : List BlockHandle} {buffer : ℕ} {write : Bool} {h : BlockHandle} {pool : GpuMemoryPool}

/-! ## The checks -/

/-- A block that may join a batch. -/
structure BlockAccepted (pool : GpuMemoryPool) (write : Bool) (h : BlockHandle) : Prop where
  valid : pool.manager.Valid h
  refs_ne : (pool.manager.slots h.id).refs ≠ 0
  landed : pool.inFlight h.id = false
  exclusive : write = true →
    (pool.manager.slots h.id).refs = 1 ∧ (pool.manager.slots h.id).cached = false
  written : write = false → pool.initialized h.id = true

/-- What the checks of `submit` let through. -/
structure Accepted (t : Transfers) (blocks : List BlockHandle) (buffer : ℕ) (write : Bool) :
    Prop where
  nonempty : blocks ≠ []
  count : (t.buffers buffer).size / t.pool.blockBytes = blocks.length
  whole : (t.buffers buffer).size % t.pool.blockBytes = 0
  idle : (t.buffers buffer).busy = false
  block : ∀ h ∈ blocks, BlockAccepted t.pool write h
  ids_nodup : (blocks.map BlockHandle.id).Nodup

/-- One round of the loop of checks. -/
theorem validateBlocks_cons_iff (pool : GpuMemoryPool) (write : Bool) (seen : List ℕ)
    (h : BlockHandle) (hs : List BlockHandle) :
    validateBlocks pool write seen (h :: hs) = .ok () ↔ BlockAccepted pool write h ∧
      h.id ∉ seen ∧ validateBlocks pool write (h.id :: seen) hs = .ok () := by
  rw [validateBlocks]
  by_cases haddr : ∃ a, pool.deviceAddress h = .ok a
  swap
  · have hne : ¬ BlockAccepted pool write h := fun hb =>
      haddr (deviceAddress_ok_iff.mpr ⟨hb.valid, hb.refs_ne⟩)
    cases hd : pool.deviceAddress h with
    | ok a => exact absurd ⟨a, hd⟩ haddr
    | error e => exact iff_of_false (by simp [bind, Except.bind]) fun hc => hne hc.1
  obtain ⟨hv, hr⟩ := deviceAddress_ok_iff.mp haddr
  obtain ⟨a, haddr⟩ := haddr
  rw [haddr, refCount_of_valid hv, isPublished_of_valid hv]
  by_cases hseen : h.id ∈ seen
  · exact iff_of_false (by simp [hseen, bind, Except.bind]) fun hc => hc.2.1 hseen
  cases hflight : pool.inFlight h.id with
  | true =>
    exact iff_of_false (by simp [hseen, bind, Except.bind])
      fun hc => by have := hc.1.landed; simp [hflight] at this
  | false =>
    by_cases hexclusive : write = true ∧ ((pool.manager.slots h.id).refs ≠ 1 ∨
        (pool.manager.slots h.id).cached = true)
    · refine iff_of_false (by
        simp only [bind, Except.bind, if_neg hseen, if_pos hexclusive]
        nofun) fun hc => ?_
      obtain ⟨h1, h2⟩ := hc.1.exclusive hexclusive.1
      rcases hexclusive.2 with h3 | h3
      · exact h3 h1
      · rw [h2] at h3
        cases h3
    by_cases hwritten : write = false ∧ pool.initialized h.id = false
    · refine iff_of_false (by
        simp only [bind, Except.bind, if_neg hseen, if_neg hexclusive, if_pos hwritten]
        nofun) fun hc => ?_
      have := hc.1.written hwritten.1
      rw [hwritten.2] at this
      cases this
    · simp only [bind, Except.bind, if_neg hseen, if_neg hexclusive, if_neg hwritten,
        Bool.false_eq_true, if_false]
      refine ⟨fun hrest => ⟨⟨hv, hr, hflight, fun hw => ?_, fun hw => ?_⟩, hseen, hrest⟩,
        fun hc => hc.2.2⟩
      · push Not at hexclusive
        obtain ⟨h1, h2⟩ := hexclusive hw
        exact ⟨h1, by simpa using h2⟩
      · push Not at hwritten
        simpa using hwritten hw

theorem validateBlocks_ok_iff (pool : GpuMemoryPool) (write : Bool) (hs : List BlockHandle) :
    ∀ seen : List ℕ, validateBlocks pool write seen hs = .ok () ↔
      (∀ h ∈ hs, BlockAccepted pool write h) ∧ (hs.map BlockHandle.id).Nodup ∧
        ∀ h ∈ hs, h.id ∉ seen := by
  induction hs with
  | nil => intro seen; exact iff_of_true rfl ⟨by simp, by simp, by simp⟩
  | cons h hs ih =>
    intro seen
    rw [validateBlocks_cons_iff, ih]
    constructor
    · rintro ⟨hb, hn, hbs, hnd, hns⟩
      refine ⟨List.forall_mem_cons.mpr ⟨hb, hbs⟩, ?_, List.forall_mem_cons.mpr ⟨hn, ?_⟩⟩
      · rw [List.map_cons, List.nodup_cons]
        refine ⟨fun hm => ?_, hnd⟩
        obtain ⟨g, hg, he⟩ := List.mem_map.mp hm
        exact hns g hg (he ▸ List.mem_cons_self)
      · exact fun g hg hs' => hns g hg (List.mem_cons_of_mem _ hs')
    · rintro ⟨hbs, hnd, hns⟩
      rw [List.map_cons, List.nodup_cons] at hnd
      refine ⟨hbs h List.mem_cons_self, hns h List.mem_cons_self,
        fun g hg => hbs g (List.mem_cons_of_mem h hg), hnd.2, fun g hg hs' => ?_⟩
      rcases List.mem_cons.mp hs' with he | hs'
      · exact hnd.1 (he ▸ List.mem_map_of_mem hg)
      · exact hns g (List.mem_cons_of_mem h hg) hs'

/-- **What the checks of `submit` accept.** -/
theorem validate_ok_iff (t : Transfers) (blocks : List BlockHandle) (buffer : ℕ) (write : Bool) :
    validate t blocks buffer write = .ok () ↔ Accepted t blocks buffer write := by
  unfold validate
  by_cases hempty : blocks = []
  · exact iff_of_false (by simp [hempty, bind, Except.bind]) fun hc => hc.nonempty hempty
  by_cases hsize : (t.buffers buffer).size / t.pool.blockBytes ≠ blocks.length ∨
      (t.buffers buffer).size % t.pool.blockBytes ≠ 0
  · refine iff_of_false (by
      simp only [bind, Except.bind, if_neg hempty, if_pos hsize]
      nofun) fun hc => ?_
    rcases hsize with hs | hs
    · exact hs hc.count
    · exact hs hc.whole
  cases hbusy : (t.buffers buffer).busy with
  | true =>
    refine iff_of_false (by
      simp only [bind, Except.bind, if_neg hempty, if_neg hsize, hbusy, if_true]
      nofun) fun hc => ?_
    have := hc.idle
    rw [hbusy] at this
    cases this
  | false =>
    simp only [bind, Except.bind, if_neg hempty, if_neg hsize, hbusy, Bool.false_eq_true, if_false]
    rw [validateBlocks_ok_iff]
    push Not at hsize
    exact ⟨fun hc => ⟨hempty, hsize.1, hsize.2, hbusy, hc.1, hc.2.1⟩,
      fun hc => ⟨hc.block, hc.ids_nodup, fun _ _ => List.not_mem_nil⟩⟩

theorem Accepted.owns (ha : Accepted t blocks buffer write) : Owns t.pool.manager blocks where
  valid h hh := (ha.block h hh).valid
  refs_ne h hh := (ha.block h hh).refs_ne
  nodup := ha.ids_nodup.of_map

/-! ## A batch on the stream -/

/-- The state with the batch `w` on the stream and `recycled` event pairs left. -/
def submitted (w : Pending) (recycled : ℕ) (t : Transfers) : Transfers :=
  enter w { t with
    pool := { t.pool with manager := t.pool.manager.addRefs (w.blocks.map BlockHandle.id) }
    runtime := { t.runtime with recycled := recycled } }

/-- The state with another number of recycled event pairs. -/
def withRecycled (recycled : ℕ) (t : Transfers) : Transfers :=
  { t with runtime := { t.runtime with recycled := recycled } }

section Fields

variable (w : Pending) (r : ℕ) (t : Transfers)

@[simp] theorem submitted_manager : (submitted w r t).pool.manager =
    t.pool.manager.addRefs (w.blocks.map BlockHandle.id) := rfl
@[simp] theorem submitted_blockBytes : (submitted w r t).pool.blockBytes = t.pool.blockBytes := rfl
@[simp] theorem submitted_base : (submitted w r t).pool.base = t.pool.base := rfl
@[simp] theorem submitted_memory : (submitted w r t).memory = t.memory := rfl
@[simp] theorem submitted_history : (submitted w r t).history = t.history ++ [w] := rfl

@[simp] theorem submitted_pending :
    (submitted w r t).runtime.pending = t.runtime.pending ++ [w] := rfl

@[simp] theorem submitted_metrics : (submitted w r t).runtime.metrics = t.runtime.metrics := rfl

theorem submitted_inFlight (i : ℕ) : (submitted w r t).pool.inFlight i =
    if i ∈ w.blocks.map BlockHandle.id then true else t.pool.inFlight i := rfl

theorem submitted_initialized (i : ℕ) : (submitted w r t).pool.initialized i =
    if w.write = true ∧ i ∈ w.blocks.map BlockHandle.id then false else t.pool.initialized i := rfl

theorem submitted_buffers (b : ℕ) : (submitted w r t).buffers b =
    if b = w.buffer then { t.buffers b with busy := true } else t.buffers b := by
  show Function.update t.buffers w.buffer { t.buffers w.buffer with busy := true } b = _
  rw [Function.update_apply]
  split_ifs with hb
  · rw [hb]
  · rfl

@[simp] theorem submitted_bytes (b : ℕ) :
    ((submitted w r t).buffers b).bytes = (t.buffers b).bytes := by
  rw [submitted_buffers]
  split_ifs <;> rfl

@[simp] theorem withRecycled_pool : (withRecycled r t).pool = t.pool := rfl
@[simp] theorem withRecycled_memory : (withRecycled r t).memory = t.memory := rfl
@[simp] theorem withRecycled_buffers : (withRecycled r t).buffers = t.buffers := rfl
@[simp] theorem withRecycled_history : (withRecycled r t).history = t.history := rfl
@[simp] theorem withRecycled_pending : (withRecycled r t).runtime.pending = t.runtime.pending := rfl
@[simp] theorem withRecycled_metrics : (withRecycled r t).runtime.metrics = t.runtime.metrics := rfl

end Fields

/-- **The ledger takes the new batch in.** -/
theorem Ledger.submitted {w : Pending} (hl : Ledger held others t)
    (ha : Accepted t w.blocks w.buffer w.write)
    (hg : Good prefixHash (t.pool.manager.addRefs (w.blocks.map BlockHandle.id))) (r : ℕ) :
    Ledger held others (submitted w r t) := by
  have hperm : (t.runtime.pending ++ [w] ++ others).Perm (w :: (t.runtime.pending ++ others)) := by
    rw [List.append_assoc, List.singleton_append]
    exact List.perm_middle
  have hblocks : (batchBlocks (t.runtime.pending ++ [w] ++ others)).Perm
      (w.blocks ++ batchBlocks (t.runtime.pending ++ others)) := hperm.flatMap_right _
  have hids : (batchIds (t.runtime.pending ++ [w] ++ others)).Perm
      (w.blocks.map BlockHandle.id ++ batchIds (t.runtime.pending ++ others)) := by
    have := hblocks.map BlockHandle.id
    rwa [List.map_append] at this
  have hbuffers : (batchBuffers (t.runtime.pending ++ [w] ++ others)).Perm
      (w.buffer :: batchBuffers (t.runtime.pending ++ others)) := hperm.map _
  refine ⟨hg, ?_, ?_, fun i => ?_, ?_, fun b => ?_⟩
  · rw [submitted_manager, submitted_pending, Multiset.coe_eq_coe.mpr hblocks,
      ← Multiset.coe_add, add_assoc]
    exact hl.owned.addRefs ha.owns
  · rw [submitted_pending, hids.nodup_iff]
    refine List.nodup_append.mpr ⟨ha.ids_nodup, hl.ids_nodup, fun i hi j hj he => ?_⟩
    subst he
    obtain ⟨g, hg, rfl⟩ := List.mem_map.mp hi
    have := (ha.block g hg).landed
    rw [(hl.inFlight g.id).mpr hj] at this
    cases this
  · rw [submitted_pending, hids.mem_iff, List.mem_append, submitted_inFlight, ← hl.inFlight]
    split_ifs with hi
    · exact iff_of_true rfl (.inl hi)
    · exact (or_iff_right hi).symm
  · rw [submitted_pending, hbuffers.nodup_iff, List.nodup_cons]
    refine ⟨fun hb => ?_, hl.buffers_nodup⟩
    have := ha.idle
    rw [(hl.busy w.buffer).mpr hb] at this
    cases this
  · rw [submitted_pending, hbuffers.mem_iff, List.mem_cons, submitted_buffers, ← hl.busy]
    split_ifs with hb
    · exact iff_of_true rfl (.inl hb)
    · exact (or_iff_right hb).symm

/-! ## Outcomes of `submit` -/

theorem takeEvents_cases (fault : Option SubmitFault) (t : Transfers) :
    (∃ r, takeEvents fault t = .ok () (withRecycled r t)) ∨
      ∃ e, takeEvents fault t = .error e t := by
  unfold takeEvents
  simp only [bind_apply, get_apply]
  by_cases hr : t.runtime.recycled = 0
  · rw [if_pos hr]
    cases newEvents fault with
    | ok u => exact .inl ⟨t.runtime.recycled, rfl⟩
    | error e => exact .inr ⟨e, rfl⟩
  · rw [if_neg hr]
    exact .inl ⟨t.runtime.recycled - 1, rfl⟩

/-- The loop that takes the references takes them all or none. -/
theorem retainBlocks_cases (hg : Good prefixHash t.pool.manager) (ho : Owns t.pool.manager blocks) :
    (onPool (GpuMemoryPool.onManager (retainAll [] blocks)) t = .ok () { t with
        pool := { t.pool with
          manager := t.pool.manager.addRefs (blocks.map BlockHandle.id) } } ∧
      Good prefixHash (t.pool.manager.addRefs (blocks.map BlockHandle.id))) ∨
    ∃ e, onPool (GpuMemoryPool.onManager (retainAll [] blocks)) t = .error e t := by
  have hkeeps := retainAll_keeps (H := prefixHash) blocks [] t.pool.manager hg
  rcases retainAll_cases blocks [] (by simpa using ho) with hc | ⟨e, hc⟩
  · left
    simp only [List.map_nil, addRefs_nil, List.nil_append] at hc
    rw [hc] at hkeeps
    refine ⟨?_, hkeeps⟩
    unfold onPool GpuMemoryPool.onManager
    simp only [hc]
  · right
    simp only [List.map_nil, addRefs_nil] at hc
    refine ⟨e, ?_⟩
    unfold onPool GpuMemoryPool.onManager
    simp only [hc]

/-- **A rejected batch changes nothing**, in any state. -/
theorem submit_rejected (fault : Option SubmitFault) (h : ¬ Accepted t blocks buffer write) :
    ∃ e, submit fault blocks buffer write t = .error e t := by
  rw [← validate_ok_iff] at h
  cases hv : validate t blocks buffer write with
  | ok u => exact absurd hv h
  | error e =>
    refine ⟨e, ?_⟩
    unfold submit
    simp only [bind_apply, get_apply, hv, check_error]

/-- **The outcomes of `submit`**: nothing is put on the stream; the batch is pending; or the stream
refused a call, and every batch is given up. -/
theorem submit_cases (fault : Option SubmitFault) (blocks : List BlockHandle) (buffer : ℕ)
    (write : Bool) (hl : Ledger held others t) :
    (∃ e r, submit fault blocks buffer write t = .error e (withRecycled r t)) ∨
    (Accepted t blocks buffer write ∧ ∃ r,
      Ledger held others (submitted ⟨blocks, buffer, write⟩ r t) ∧
      ((issue (submitted ⟨blocks, buffer, write⟩ r t).pool fault blocks = .ok () ∧
          submit fault blocks buffer write t = .ok () (submitted ⟨blocks, buffer, write⟩ r t)) ∨
        ∃ e m, issue (submitted ⟨blocks, buffer, write⟩ r t).pool fault blocks = .error e ∧
          submit fault blocks buffer write t = .error e (finished false m
            (spoil (submitDamage fault) (submitted ⟨blocks, buffer, write⟩ r t))) ∧
          SameBlocks (t.pool.manager.addRefs (blocks.map BlockHandle.id)) m ∧
          Ledger held others (finished false m
            (spoil (submitDamage fault) (submitted ⟨blocks, buffer, write⟩ r t))))) := by
  by_cases ha : Accepted t blocks buffer write
  swap
  · obtain ⟨e, he⟩ := submit_rejected fault ha
    exact .inl ⟨e, t.runtime.recycled, he⟩
  unfold submit
  rw [bind_of_ok (get_apply t), bind_of_check ((validate_ok_iff t blocks buffer write).mpr ha)]
  rcases takeEvents_cases fault t with ⟨r, hevents⟩ | ⟨e, hevents⟩
  swap
  · exact .inl ⟨e, t.runtime.recycled, bind_of_error hevents⟩
  rw [bind_of_ok hevents]
  cases hguard : deviceGuard (submitGuard fault) with
  | error e => exact .inl ⟨e, r, rfl⟩
  | ok u =>
    rw [bind_of_check rfl]
    rcases retainBlocks_cases (t := withRecycled r t) hl.good ha.owns with ⟨hretain, hg⟩ | ⟨e, hretain⟩
    swap
    · exact .inl ⟨e, r, bind_of_error hretain⟩
    rw [bind_of_ok hretain, bind_of_ok (modify_apply _ _)]
    have hled := hl.submitted (w := ⟨blocks, buffer, write⟩) ha hg r
    refine .inr ⟨ha, r, hled, ?_⟩
    have hstate : enter ⟨blocks, buffer, write⟩ { withRecycled r t with
        pool := { (withRecycled r t).pool with
          manager := (withRecycled r t).pool.manager.addRefs (blocks.map BlockHandle.id) } } =
        submitted ⟨blocks, buffer, write⟩ r t := rfl
    rw [hstate, bind_of_ok (get_apply _)]
    cases hissue : issue (submitted ⟨blocks, buffer, write⟩ r t).pool fault blocks with
    | ok u => exact .inl ⟨rfl, rfl⟩
    | error e =>
      obtain ⟨m, habandon, hsame, hled'⟩ := abandon_ok (submitDamage fault) hled
      exact .inr ⟨e, m, rfl, onError_clean rfl habandon, hsame, hled'⟩

/-! ## Submissions that succeed or fail on the stream -/

/-- The call is one of those that put a batch of `n` blocks on the stream. -/
def StreamCall.Among (n : ℕ) : StreamCall → Prop
  | .copy i => i < n
  | _ => True

theorem issueCopies_none (hs : List BlockHandle) :
    ∀ i, (∀ h ∈ hs, ∃ a, pool.deviceAddress h = .ok a) → issueCopies pool none i hs = .ok () := by
  induction hs with
  | nil => intro i _; rfl
  | cons h hs ih =>
    intro i haddr
    obtain ⟨a, ha⟩ := haddr h List.mem_cons_self
    rw [issueCopies, ha]
    exact ih (i + 1) fun g hg => haddr g (List.mem_cons_of_mem h hg)

theorem issueCopies_refused (pool : GpuMemoryPool) (message : String) (damage : Damage)
    (hs : List BlockHandle) :
    ∀ i k, i ≤ k → k < i + hs.length →
    ∃ e, issueCopies pool (some (.stream (.copy k) message damage)) i hs = .error e := by
  induction hs with
  | nil => intro i k hle hlt; simp at hlt; omega
  | cons h hs ih =>
    intro i k hle hlt
    rw [issueCopies]
    cases pool.deviceAddress h with
    | error e => exact ⟨e, rfl⟩
    | ok a =>
      by_cases hk : k = i
      · subst hk
        refine ⟨cudaError "batch cudaMemcpyAsync" message, ?_⟩
        simp [streamCall, bind, Except.bind]
      · rw [List.length_cons] at hlt
        obtain ⟨e, he⟩ := ih (i + 1) k (by omega) (by omega)
        refine ⟨e, ?_⟩
        simp [streamCall, bind, Except.bind, hk, he]

/-- A call that the stream refuses stops the batch. -/
theorem issue_refused (pool : GpuMemoryPool) (message : String) (damage : Damage) {call : StreamCall}
    (hc : StreamCall.Among blocks.length call) :
    ∃ e, issue pool (some (.stream call message damage)) blocks = .error e := by
  unfold issue
  cases call with
  | recordBegin => exact ⟨cudaError "record transfer begin" message, rfl⟩
  | copy k =>
    have hk : k < blocks.length := hc
    obtain ⟨e, he⟩ := issueCopies_refused pool message damage blocks 0 k (by omega) (by omega)
    refine ⟨e, ?_⟩
    simp [streamCall, bind, Except.bind, he]
  | recordEnd =>
    have hbegin : streamCall (some (.stream .recordEnd message damage)) .recordBegin
        "record transfer begin" = .ok () := rfl
    rw [hbegin]
    cases hcopies : issueCopies pool (some (.stream .recordEnd message damage)) 0 blocks with
    | error e => exact ⟨e, rfl⟩
    | ok u => exact ⟨cudaError "record transfer end" message, rfl⟩

/-- An accepted batch whose blocks can take one more reference reaches the stream, unless the events
or the guard fail. -/
theorem submit_reaches (fault : Option SubmitFault) (hl : Ledger held others t)
    (ha : Accepted t blocks buffer write)
    (hmax : ∀ h ∈ blocks, (t.pool.manager.slots h.id).refs ≠ sizeMax)
    (hevents : newEvents fault = .ok ()) (hguard : submitGuard fault = none) :
    ∃ r, Ledger held others (submitted ⟨blocks, buffer, write⟩ r t) ∧
      submit fault blocks buffer write t =
        onError (check (issue (submitted ⟨blocks, buffer, write⟩ r t).pool fault blocks))
          (abandon (submitDamage fault)) (submitted ⟨blocks, buffer, write⟩ r t) := by
  have htake : ∃ r, takeEvents fault t = .ok () (withRecycled r t) := by
    unfold takeEvents
    simp only [bind_apply, get_apply]
    split_ifs
    · rw [hevents]
      exact ⟨t.runtime.recycled, rfl⟩
    · exact ⟨t.runtime.recycled - 1, rfl⟩
  obtain ⟨r, htake⟩ := htake
  have hall := retainAll_ok blocks [] (by simpa using ha.owns) hmax
  simp only [List.map_nil, addRefs_nil, List.nil_append] at hall
  have hretain : onPool (GpuMemoryPool.onManager (retainAll [] blocks)) (withRecycled r t) =
      .ok () { withRecycled r t with
        pool := { t.pool with manager := t.pool.manager.addRefs (blocks.map BlockHandle.id) } } := by
    unfold onPool GpuMemoryPool.onManager
    simp only [withRecycled_pool, hall]
  have hgood : Good prefixHash (t.pool.manager.addRefs (blocks.map BlockHandle.id)) := by
    have := retainAll_keeps (H := prefixHash) blocks [] t.pool.manager hl.good
    rwa [hall] at this
  refine ⟨r, hl.submitted (w := ⟨blocks, buffer, write⟩) ha hgood r, ?_⟩
  unfold submit
  rw [bind_of_ok (get_apply t), bind_of_check ((validate_ok_iff t blocks buffer write).mpr ha),
    bind_of_ok htake, bind_of_check (a := ()) (by rw [hguard]; rfl), bind_of_ok hretain, bind_of_ok (modify_apply _ _)]
  rfl

/-- **Without a failure an accepted batch is submitted.** -/
theorem submit_ok (hl : Ledger held others t) (ha : Accepted t blocks buffer write)
    (hmax : ∀ h ∈ blocks, (t.pool.manager.slots h.id).refs ≠ sizeMax) :
    ∃ r, Ledger held others (submitted ⟨blocks, buffer, write⟩ r t) ∧
      submit none blocks buffer write t = .ok () (submitted ⟨blocks, buffer, write⟩ r t) := by
  obtain ⟨r, hled, hsubmit⟩ := submit_reaches none hl ha hmax rfl rfl
  refine ⟨r, hled, ?_⟩
  have haddr : ∀ h ∈ blocks, ∃ a, (submitted ⟨blocks, buffer, write⟩ r t).pool.deviceAddress h =
      .ok a := by
    intro h hh
    refine deviceAddress_ok_iff.mpr ⟨?_, ?_⟩
    · exact (addRefs_valid _).mpr (ha.owns.valid h hh)
    · rw [submitted_manager, addRefs_slots, if_pos (List.mem_map_of_mem hh)]
      simp
  have hissue : issue (submitted ⟨blocks, buffer, write⟩ r t).pool none blocks = .ok () := by
    unfold issue
    rw [issueCopies_none blocks 0 haddr]
    rfl
  rw [hsubmit, hissue]
  rfl

/-! ## Outcomes of `synchronize` -/

theorem deliverBatch_pool (t : Transfers) (w : Pending) : (deliverBatch t w).pool = t.pool := by
  unfold deliverBatch
  simp only
  split_ifs <;> rfl

theorem deliverBatch_runtime (t : Transfers) (w : Pending) :
    (deliverBatch t w).runtime = t.runtime := by
  unfold deliverBatch
  simp only
  split_ifs <;> rfl

theorem deliverBatch_history (t : Transfers) (w : Pending) :
    (deliverBatch t w).history = t.history := by
  unfold deliverBatch
  simp only
  split_ifs <;> rfl

theorem deliverBatch_busy (t : Transfers) (w : Pending) (b : ℕ) :
    ((deliverBatch t w).buffers b).busy = (t.buffers b).busy := by
  unfold deliverBatch
  simp only
  split_ifs
  · rfl
  · simp only [Function.update_apply]
    split_ifs with hb
    · rw [hb]
    · rfl

/-- The copies leave the pool, the runtime and the flags of the buffers alone. -/
theorem delivered_frame (ws : List Pending) : ∀ t : Transfers,
    (ws.foldl deliverBatch t).pool = t.pool ∧ (ws.foldl deliverBatch t).runtime = t.runtime ∧
      (ws.foldl deliverBatch t).history = t.history ∧
      ∀ b, ((ws.foldl deliverBatch t).buffers b).busy = (t.buffers b).busy := by
  induction ws with
  | nil => intro t; exact ⟨rfl, rfl, rfl, fun _ => rfl⟩
  | cons w ws ih =>
    intro t
    obtain ⟨h1, h2, h3, h4⟩ := ih (deliverBatch t w)
    exact ⟨h1.trans (deliverBatch_pool t w), h2.trans (deliverBatch_runtime t w),
      h3.trans (deliverBatch_history t w), fun b => (h4 b).trans (deliverBatch_busy t w b)⟩

@[simp] theorem deliver_pool (t : Transfers) : (deliver t).pool = t.pool :=
  (delivered_frame _ t).1

@[simp] theorem deliver_runtime (t : Transfers) : (deliver t).runtime = t.runtime :=
  (delivered_frame _ t).2.1

@[simp] theorem deliver_history (t : Transfers) : (deliver t).history = t.history :=
  (delivered_frame _ t).2.2.1

@[simp] theorem deliver_busy (t : Transfers) (b : ℕ) :
    ((deliver t).buffers b).busy = (t.buffers b).busy :=
  (delivered_frame _ t).2.2.2 b

/-- The state with other metrics. -/
def withMetrics (metrics : TransferMetrics) (t : Transfers) : Transfers :=
  { t with runtime := { t.runtime with metrics := metrics } }

/-- What the batches add to the metrics. -/
def measured (t : Transfers) (ws : List Pending) (metrics : TransferMetrics) : TransferMetrics :=
  ws.foldl (measure.count t) metrics

theorem measure_ok {fault : Option SyncFault} {updated : TransferMetrics} (ws : List Pending) :
    ∀ i metrics, measure t fault i ws metrics = .ok updated →
      updated = measured t ws metrics := by
  induction ws with
  | nil => intro i metrics h; exact (Except.ok.inj h).symm
  | cons w ws ih =>
    intro i metrics h
    unfold measure at h
    split at h
    · split_ifs at h
      exact ih _ _ h
    · exact ih _ _ h

theorem measure_none (ws : List Pending) : ∀ i metrics,
    measure t none i ws metrics = .ok (measured t ws metrics) := by
  induction ws with
  | nil => intro i metrics; rfl
  | cons w ws ih => intro i metrics; exact ih (i + 1) _

/-- The state with the copies done and counted. -/
def arrived (t : Transfers) : Transfers :=
  withMetrics (measured (deliver t) t.runtime.pending t.runtime.metrics) (deliver t)

theorem awaitCopies_cases (fault : Option SyncFault) (t : Transfers) :
    awaitCopies fault t = .ok () (arrived t) ∨
      (fault ≠ none ∧ ∃ e t₁, (t₁ = t ∨ t₁ = deliver t) ∧ awaitCopies fault t = .error e t₁) := by
  unfold awaitCopies
  cases hguard : deviceGuard (syncGuard fault) with
  | error e =>
    refine .inr ⟨?_, e, t, .inl rfl, rfl⟩
    rintro rfl
    cases hguard
  | ok u =>
    rw [bind_of_check rfl]
    cases hstream : awaitStream fault with
    | error e =>
      refine .inr ⟨?_, e, t, .inl rfl, rfl⟩
      rintro rfl
      cases hstream
    | ok u' =>
      rw [bind_of_check rfl, bind_of_ok (modify_apply _ _), bind_of_ok (get_apply _)]
      cases hmeasure : measure (deliver t) fault 0 (deliver t).runtime.pending
          (deliver t).runtime.metrics with
      | error e =>
        refine .inr ⟨?_, e, deliver t, .inr rfl, rfl⟩
        rintro rfl
        rw [measure_none] at hmeasure
        cases hmeasure
      | ok updated =>
        left
        rw [bind_of_check rfl, modify_apply, measure_ok _ _ _ hmeasure, deliver_runtime]
        unfold arrived withMetrics
        rw [deliver_runtime]

/-- **The outcomes of `synchronize`**: all pending batches succeed, or all of them fail. -/
theorem synchronize_cases (fault : Option SyncFault) (hl : Ledger held others t) :
    (∃ m, synchronize fault t = .ok () (finished true m (arrived t)) ∧
      SameBlocks t.pool.manager m ∧ Ledger held others (finished true m (arrived t))) ∨
    (fault ≠ none ∧ ∃ e m t₁, (t₁ = t ∨ t₁ = deliver t) ∧
      synchronize fault t = .error e (finished false m (spoil (syncDamage fault) t₁)) ∧
      SameBlocks t.pool.manager m ∧
      Ledger held others (finished false m (spoil (syncDamage fault) t₁))) := by
  have hdeliver : Ledger held others (deliver t) :=
    hl.frame (deliver_pool t) (by rw [deliver_runtime]) (deliver_busy t)
  rcases awaitCopies_cases fault t with hawait | ⟨hne, e, t₁, ht₁, hawait⟩
  · have hled : Ledger held others (arrived t) := hdeliver.frame rfl rfl fun _ => rfl
    obtain ⟨m, hfinish, hsame, hled'⟩ := finish_ok true hled
    refine .inl ⟨m, ?_, by rw [← deliver_pool t]; exact hsame, hled'⟩
    unfold synchronize
    rw [bind_of_ok (onError_ok.mpr hawait), hfinish]
  · have hled : Ledger held others t₁ := by
      rcases ht₁ with rfl | rfl
      · exact hl
      · exact hdeliver
    have hpool : t₁.pool = t.pool := by
      rcases ht₁ with rfl | rfl
      · rfl
      · exact deliver_pool t
    obtain ⟨m, habandon, hsame, hled'⟩ := abandon_ok (syncDamage fault) hled
    refine .inr ⟨hne, e, m, t₁, ht₁, ?_, by rw [← hpool]; exact hsame, hled'⟩
    unfold synchronize
    rw [bind_of_error (onError_clean hawait habandon)]

end KVFlux.AsyncTransfer
