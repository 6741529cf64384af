import KVFlux.AsyncTransfer.Traffic

/-!
# A submission is all or nothing

* `GivenUp others w t t'`: from `t` to `t'` the runtime has given up the batch `w` and all of its
  pending batches, and the batches `others` of the other runtimes go on.
* `submit_error`: a submission that throws leaves everything alone or gives everything up.
* **`submit_all_or_nothing`**: a rejected batch changes nothing; a batch that the stream refuses at
  any of its calls is given up with every pending batch.
-/

namespace KVFlux.AsyncTransfer

open Fallible BlockManager Transition

variable {held : Multiset BlockHandle} {others : List Pending} {t t' : Transfers}
  {blocks : List BlockHandle} {buffer : ℕ} {write : Bool}

/-- The runtime has given up `w` and every pending batch. -/
structure GivenUp (others : List Pending) (w : Pending) (t t' : Transfers) : Prop where
  inFlight : ∀ i, t'.pool.inFlight i = true ↔ i ∈ batchIds others
  busy : ∀ b, (t'.buffers b).busy = true ↔ b ∈ batchBuffers others
  pending : t'.runtime.pending = []
  refs : ∀ i, (t.pool.manager.slots i).refs =
    (t'.pool.manager.slots i).refs + (batchIds t.runtime.pending).count i
  unwritten : ∀ v ∈ t.runtime.pending ++ [w], v.write = true →
    ∀ h ∈ v.blocks, t'.pool.initialized h.id = false
  failed : t'.runtime.metrics.failedBatches =
    t.runtime.metrics.failedBatches + (t.runtime.pending ++ [w]).length

/-- The reference counts under two ledgers of the same callers. -/
theorem refs_returned {m m' : BlockManager} {ws : List Pending}
    (ho : Owned m (batchBlocks (ws ++ others) + held)) (ho' : Owned m' (batchBlocks others + held))
    (i : ℕ) : (m.slots i).refs = (m'.slots i).refs + (batchIds ws).count i := by
  have hcount : ∀ vs : List Pending, ((batchBlocks vs : Multiset BlockHandle).map
      BlockHandle.id).count i = (batchIds vs).count i := fun vs => by
    rw [Multiset.map_coe, Multiset.coe_count]
    rfl
  rw [ho.refs_eq, ho'.refs_eq, Multiset.map_add, Multiset.map_add, Multiset.count_add,
    Multiset.count_add, hcount, hcount, batchIds_append, List.count_append]
  omega

/-- The state in which the runtime has given everything up. -/
theorem givenUp_finished {w : Pending} {r : ℕ} {m : BlockManager} {damage : Damage}
    (hl : Ledger held others t)
    (hled : Ledger held others (finished false m (spoil damage (submitted w r t)))) :
    GivenUp others w t (finished false m (spoil damage (submitted w r t))) where
  inFlight i := by
    have := hled.inFlight i
    rwa [finished_pending, List.nil_append] at this
  busy b := by
    have := hled.busy b
    rwa [finished_pending, List.nil_append] at this
  pending := rfl
  refs i := by
    have ho := hled.owned
    rw [finished_pending, List.nil_append] at ho
    exact refs_returned hl.owned ho i
  unwritten v hv hw h hh := by
    rw [finished_initialized, if_pos]
    exact mem_batchIds.mpr ⟨v, List.mem_filter.mpr ⟨hv, hw⟩, h, hh, rfl⟩
  failed := rfl

/-- **A submission that throws** leaves everything alone, up to a pair of events, or gives
everything up. -/
theorem submit_error {fault : Option SubmitFault} {e : Exn} (hl : Ledger held others t)
    (h : submit fault blocks buffer write t = .error e t') :
    (∃ r, t' = withRecycled r t) ∨ GivenUp others ⟨blocks, buffer, write⟩ t t' := by
  rcases submit_cases fault blocks buffer write hl with
    ⟨e', r, hc⟩ | ⟨-, r, -, ⟨-, hc⟩ | ⟨e', m, -, hc, -, hled⟩⟩
  · rw [hc] at h
    cases h
    exact .inl ⟨r, rfl⟩
  · rw [hc] at h
    cases h
  · rw [hc] at h
    cases h
    exact .inr (givenUp_finished hl hled)

/-- A call that the stream refuses. -/
theorem submit_refused {call : StreamCall} (message : String) (damage : Damage)
    (hl : Ledger held others t) (ha : Accepted t blocks buffer write)
    (hcall : StreamCall.Among blocks.length call)
    (hmax : ∀ h ∈ blocks, (t.pool.manager.slots h.id).refs ≠ sizeMax) :
    ∃ e t', submit (some (.stream call message damage)) blocks buffer write t = .error e t' ∧
      GivenUp others ⟨blocks, buffer, write⟩ t t' := by
  obtain ⟨r, hled, hsubmit⟩ := submit_reaches (some (.stream call message damage)) hl ha hmax
    rfl rfl
  obtain ⟨e, hissue⟩ :=
    issue_refused (submitted ⟨blocks, buffer, write⟩ r t).pool message damage hcall
  obtain ⟨m, habandon, -, hled'⟩ := abandon_ok damage hled
  refine ⟨e, _, ?_, givenUp_finished hl hled'⟩
  rw [hsubmit, hissue]
  exact onError_clean rfl habandon

namespace Traffic

/-- **Batch submission is all or nothing.** In any state a batch that the checks reject changes
nothing. In a reachable state, when the stream refuses one of the copies or event records of a batch,
it and every pending batch of the runtime are given up; with a single runtime no slot is in flight
and no buffer is busy then. A submission that throws for another reason also leaves the blocks, the
buffers and the batches alone. -/
theorem submit_all_or_nothing :
    (∀ t blocks buffer write fault, ¬ Accepted t blocks buffer write →
      ∃ e, submit fault blocks buffer write t = .error e t) ∧
    ∀ s r rt, Reachable step Start Allowed s → s.runtimes[r]? = some rt → ∀ blocks buffer write,
      (Accepted (s.transfers rt) blocks buffer write →
        (∀ h ∈ blocks, (s.pool.manager.slots h.id).refs ≠ sizeMax) →
        ∀ call message damage, StreamCall.Among blocks.length call → ∃ e t',
          submit (some (.stream call message damage)) blocks buffer write (s.transfers rt) =
            .error e t' ∧
          GivenUp (s.others r) ⟨blocks, buffer, write⟩ (s.transfers rt) t' ∧
          (s.runtimes.length = 1 →
            (∀ i, t'.pool.inFlight i = false) ∧ ∀ b, (t'.buffers b).busy = false)) ∧
      (∀ fault e t', submit fault blocks buffer write (s.transfers rt) = .error e t' →
        (∃ n, t' = withRecycled n (s.transfers rt)) ∨
          GivenUp (s.others r) ⟨blocks, buffer, write⟩ (s.transfers rt) t') := by
  refine ⟨fun t blocks buffer write fault hrejected => submit_rejected fault hrejected,
    fun s r rt hr hrt blocks buffer write => ?_⟩
  have hl := (balanced_iff hrt).mp (reachable_balanced hr)
  refine ⟨fun ha hmax call message damage hcall => ?_, fun fault e t' => submit_error hl⟩
  obtain ⟨e, t', hsubmit, hup⟩ := submit_refused message damage hl ha hcall hmax
  refine ⟨e, t', hsubmit, hup, fun hone => ?_⟩
  have hnone : s.others r = [] := by
    obtain ⟨hlt, -⟩ := List.getElem?_eq_some_iff.mp hrt
    have hlength : (s.runtimes.eraseIdx r).length = 0 := by
      rw [List.length_eraseIdx_of_lt hlt, hone]
    unfold others
    rw [List.eq_nil_of_length_eq_zero hlength]
    rfl
  rw [hnone] at hup
  refine ⟨fun i => ?_, fun b => ?_⟩
  · cases hi : t'.pool.inFlight i with
    | false => rfl
    | true => exact absurd ((hup.inFlight i).mp hi) List.not_mem_nil
  · cases hb : (t'.buffers b).busy with
    | false => rfl
    | true => exact absurd ((hup.busy b).mp hb) List.not_mem_nil

/-- With one batch pending, the copy of a second one is refused. -/
theorem submit_all_or_nothing_pending : ∃ s rt e t', Reachable step Start Allowed s ∧
    s.runtimes[0]? = some rt ∧ rt.pending = [⟨[⟨0, 1⟩], 0, true⟩] ∧
    submit (some (.stream (.copy 0) "refused" ⟨fun _ _ => 7, fun _ _ => 7⟩)) [⟨1, 1⟩] 1 true
      (s.transfers rt) = .error e t' ∧
    GivenUp (s.others 0) ⟨[⟨1, 1⟩], 1, true⟩ (s.transfers rt) t' := by
  have hstate : (run step [.allocate, .allocate, .submit 0 none [⟨0, 1⟩] 0 true] (small 1)).bind
      (fun s => (s.runtimes[0]?).map fun rt => (rt.pending,
        (validate (s.transfers rt) [⟨1, 1⟩] 1 true).isOk, (s.pool.manager.slots 1).refs)) =
      some ([⟨[⟨0, 1⟩], 0, true⟩], true, 1) := by decide +kernel
  obtain ⟨s, hs, hrt⟩ := Option.bind_eq_some_iff.mp hstate
  obtain ⟨rt, hrt, hc⟩ := Option.map_eq_some_iff.mp hrt
  obtain ⟨hpending, hc⟩ := Prod.mk.inj hc
  obtain ⟨hvalid, hrefs⟩ := Prod.mk.inj hc
  have hreach : Reachable step Start Allowed s := by
    refine Reachable.run (.start (small_start 1)) (fun a ha s => ?_) hs
    rcases List.mem_cons.mp ha with rfl | ha
    · trivial
    rcases List.mem_cons.mp ha with rfl | ha
    · trivial
    · rw [List.mem_singleton.mp ha]
      trivial
  have haccepted : Accepted (s.transfers rt) [⟨1, 1⟩] 1 true := by
    rw [← validate_ok_iff]
    cases hv : validate (s.transfers rt) [⟨1, 1⟩] 1 true with
    | ok u => rfl
    | error e => rw [hv] at hvalid; cases hvalid
  obtain ⟨e, t', hsubmit, hup, -⟩ :=
    (submit_all_or_nothing.2 s 0 rt hreach hrt [⟨1, 1⟩] 1 true).1 haccepted
      (fun h hh => by
        rw [List.mem_singleton.mp hh, hrefs]
        decide) (.copy 0) "refused" ⟨fun _ _ => 7, fun _ _ => 7⟩ Nat.one_pos
  exact ⟨s, rt, e, t', hreach, hrt, hpending, hsubmit, hup⟩

end Traffic

end KVFlux.AsyncTransfer
