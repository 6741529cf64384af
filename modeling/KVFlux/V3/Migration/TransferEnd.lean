import KVFlux.V3.Migration.Exclusive

/-!
# The end of a GPU/CPU transfer

`finish` waits for the event of a transfer. When the device reports an error there, `finish` throws
and has changed nothing; no other call looks at the transfer again.

* `TransferEnds`: the transfer is over and everything it held is given back.
* `finishReached_ok`: `finish` after a copy that arrived. `finish_waits`: only the device keeps
  `finish` waiting.
* **`transfer_ends_iff`**: when `finish` comes back it has ended the transfer exactly when the device
  reports success.
* `step_failed`, **`failed_forever`**: a transfer whose copy failed stays pending in every run.
* `transfer_never_ends`: such a run.
-/

namespace KVFlux.V3

open Fallible ChunkRecord Transition

namespace Engine

/-- The transfer `p` of the chunk `key` is over: it is not pending, its pin is gone, both replicas
are READY (or the source went back to its tier), and after an error the destination went back to its
tier and the source is READY. Other chunks and transfers are as they were. -/
structure TransferEnds (e e' : Engine) (key : CacheKey) (p : Pending) (releaseSource : Bool) :
    Prop where
  ended : e'.pending key = none
  others : ∀ k, k ≠ key → e'.pending k = e.pending k ∧ e'.directory.record k = e.directory.record k
  record : ∃ r r', e.directory.record key = some r ∧ e'.directory.record key = some r' ∧
    r'.pinCount + 1 = r.pinCount ∧
    (p.copy = .done →
      r'.replica (p.move key).destination = some ⟨p.destination, .READY⟩ ∧
      r'.replica (p.move key).source = if releaseSource then none else some ⟨p.source, .READY⟩) ∧
    (p.copy ≠ .done →
      r'.replica (p.move key).destination = none ∧
      r'.replica (p.move key).source = some ⟨p.source, .READY⟩)
  released : p.copy = .done → releaseSource = true →
    e'.directory.tiers.allocatedChunks (p.move key).source + 1 =
      e.directory.tiers.allocatedChunks (p.move key).source
  returned : p.copy ≠ .done →
    e'.directory.tiers.allocatedChunks (p.move key).destination + 1 =
      e.directory.tiers.allocatedChunks (p.move key).destination

variable {H : Tokens → UInt64} {e e' : Engine} {key : CacheKey} {p : Pending} {a : Action}
  {releaseSource destroyed : Bool}

theorem move_transfer (hp : e.pending key = some p) :
    e.move (.transfer key) = some (p.move key) := by
  show (e.pending key).map _ = _
  rw [hp]
  rfl

theorem finishTransfer_pending (hp : e.pending key = some p) :
    finishTransfer p.offload key releaseSource destroyed e =
      p.copy.eventSynchronize.map fun reached =>
        finishReached p.offload key releaseSource p reached destroyed e := by
  simp only [finishTransfer, hp, if_true]

/-- Without success of the device `finish` throws and changes nothing. -/
theorem finishReached_error {reached : Except Exn Unit}
    (h : ¬ (reached = .ok () ∧ destroyed = true)) {offload : Bool} :
    finalState (finishReached offload key releaseSource p reached destroyed e) = e := by
  cases reached with
  | error err => rfl
  | ok _ =>
    have hd : destroyed ≠ true := fun hd => h ⟨rfl, hd⟩
    simp only [finishReached, bind_apply, check_ok, ensure, if_neg hd]
    rfl

/-- `finish` after a copy that arrived. -/
theorem finishReached_ok (hl : e.Inv H) (hp : e.pending key = some p) (hc : p.copy = .done) :
    TransferEnds e (finalState (finishReached p.offload key releaseSource p (.ok ()) true e)) key p
      releaseSource := by
  have hm := move_transfer hp
  have hne := hl.locks.tiers_ne _ _ hm
  obtain ⟨r, hr, ⟨ss, hs, -⟩, ⟨sd, hd, -⟩, hpin⟩ := hl.locks.held _ _ hm
  have hr : e.directory.record key = some r := hr
  simp only [finishReached, bind_apply, get_apply, ensure, if_true, modify_apply,
    CacheDirectory.lookup_record hr, check_ok]
  have hs' : r.replica (if p.offload = true then StorageTier.GPU else .CPU) = some ⟨p.source, ss⟩ := hs
  have hd' : r.replica (if p.offload = true then StorageTier.CPU else .GPU) =
      some ⟨p.destination, sd⟩ := hd
  rw [hs', hd']
  simp only [Option.map_some, and_self, if_true]
  obtain ⟨d₁, h₁, hi₁, ht₁, hr₁⟩ :=
    CacheDirectory.complete_run hl.directory hr hs' hd' hne (by omega)
  have hready : onDirectory (do
        CacheDirectory.setState key (if p.offload = true then StorageTier.CPU else .GPU) .READY
        CacheDirectory.setState key (if p.offload = true then StorageTier.GPU else .CPU) .READY
        CacheDirectory.unpin key)
      { e with pending := Function.update e.pending key none } =
      .ok () { e with pending := Function.update e.pending key none, directory := d₁ } :=
    onDirectory_ok h₁
  rw [hready]
  simp only
  have hr₁' : d₁.record key = some (r.completed (p.move key)) := by
    rw [hr₁, Function.update_self]
    rfl
  have hsrc : (r.completed (p.move key)).replica (p.move key).source = some ⟨p.source, .READY⟩ :=
    (replica_setPins _ _ _).trans (replica_setReplica_self _ _ _)
  have hdst : (r.completed (p.move key)).replica (p.move key).destination =
      some ⟨p.destination, .READY⟩ :=
    (replica_setPins _ _ _).trans
      ((replica_setReplica_of_ne hne.symm).trans (replica_setReplica_self _ _ _))
  have hpins : (r.completed (p.move key)).pinCount + 1 = r.pinCount := by
    show r.pinCount - 1 + 1 = r.pinCount
    omega
  have hpend : ∀ k, k ≠ key → Function.update e.pending key none k = e.pending k :=
    fun k hk => Function.update_of_ne hk _ _
  have hother : ∀ k, k ≠ key → d₁.record k = e.directory.record k := by
    intro k hk
    rw [hr₁, Function.update_of_ne hk]
  cases releaseSource with
  | false =>
    refine ⟨Function.update_self .., fun k hk => ⟨hpend k hk, hother k hk⟩,
      ⟨r, _, hr, hr₁', hpins, fun _ => ⟨hdst, hsrc⟩, fun h => absurd hc h⟩, fun _ h => ?_,
      fun h => absurd hc h⟩
    cases h
  | true =>
    obtain ⟨d₂, h₂, -, hfreed, hr₂⟩ := CacheDirectory.remove_run hi₁ hr₁' hsrc (.inl rfl)
    have hremove : onDirectory (CacheDirectory.remove key
          (if p.offload = true then StorageTier.GPU else .CPU))
        { e with pending := Function.update e.pending key none, directory := d₁ } =
        .ok () { e with pending := Function.update e.pending key none, directory := d₂ } :=
      onDirectory_ok h₂
    simp only [if_true, hremove]
    refine ⟨Function.update_self .., fun k hk => ⟨hpend k hk, ?_⟩,
      ⟨r, (r.completed (p.move key)).setReplica (p.move key).source none, hr, ?_, ?_, fun _ => ⟨?_, ?_⟩,
        fun h => absurd hc h⟩, fun _ _ => ?_, fun h => absurd hc h⟩
    · show d₂.record k = _
      rw [hr₂, Function.update_of_ne hk, hother k hk]
    · show d₂.record key = _
      rw [hr₂, Function.update_self]
    · rw [setReplica_pinCount, hpins]
    · rw [replica_setReplica_of_ne hne.symm, hdst]
    · rw [replica_setReplica_self, if_pos rfl]
    · show d₂.tiers.allocatedChunks _ + 1 = _
      rw [hfreed, ht₁]

theorem finishTransfer_done (hp : e.pending key = some p) (hc : p.copy = .done)
    (releaseSource destroyed : Bool) :
    finishTransfer p.offload key releaseSource destroyed e =
      some (finishReached p.offload key releaseSource p (.ok ()) destroyed e) := by
  rw [finishTransfer_pending hp, CopyState.eventSynchronize_ok.mpr hc, Option.map_some]

/-- While `finish` waits, the device can still end the copy, and then `finish` comes back. -/
theorem finish_waits (hp : e.pending key = some p)
    (h : finishTransfer p.offload key releaseSource destroyed e = none) :
    ∃ (events : List DeviceEvent) (e' : Engine) (p' : Pending),
      run step (events.map (.device (.transfer key))) e = some e' ∧ e'.pending key = some p' ∧
      (finishTransfer p'.offload key releaseSource destroyed e').isSome := by
  rw [finishTransfer_pending hp, Option.map_eq_none_iff, CopyState.eventSynchronize_none] at h
  have hreached : ∀ {s : Engine} {q : Pending}, s.pending key = some q → q.copy = .landed →
      ∃ s' q', step (.device (.transfer key) .reach) s = some s' ∧ s'.pending key = some q' ∧
        (finishTransfer q'.offload key releaseSource destroyed s').isSome := by
    intro s q hq hc
    have hq' := setCopy_transfer hq .done
    exact ⟨_, _, reach_transfer hq hc, hq', by rw [finishTransfer_done hq' rfl _ _]; rfl⟩
  rcases h with hc | hc
  · obtain ⟨s, hland, hlanded⟩ : ∃ s, step (.device (.transfer key) .land) e = some s ∧
        s.pending key = some { p with copy := .landed } :=
      ⟨_, land_transfer hp hc rfl, setCopy_transfer hp .landed⟩
    obtain ⟨s', q', hreach, hend⟩ := hreached hlanded rfl
    refine ⟨[.land, .reach], s', q', ?_, hend⟩
    simp only [List.map_cons, List.map_nil, run, hland, Option.bind_some, hreach]
  · obtain ⟨s', q', hreach, hend⟩ := hreached hp hc
    refine ⟨[.reach], s', q', ?_, hend⟩
    simp only [List.map_cons, List.map_nil, run, Option.bind_some, hreach]

/-- **Main result.** In every reachable state, with any other transfers in flight, the matching
`finish` waits while the copy is on its way. When it comes back, it has ended the transfer exactly
when the device has reported the event as reached and gives it up. -/
theorem transfer_ends_iff (hr : Transition.Reachable step (Start H) Any e)
    (hp : e.pending key = some p) (releaseSource destroyed : Bool) :
    (finishTransfer p.offload key releaseSource destroyed e = none ↔
      p.copy = .running ∨ p.copy = .landed) ∧
    ∀ res, finishTransfer p.offload key releaseSource destroyed e = some res →
      (TransferEnds e (finalState res) key p releaseSource ↔
        p.copy = .done ∧ destroyed = true) := by
  rw [finishTransfer_pending hp]
  refine ⟨Option.map_eq_none_iff.trans CopyState.eventSynchronize_none, fun res hres => ?_⟩
  obtain ⟨reached, hreached, rfl⟩ := Option.map_eq_some_iff.mp hres
  constructor
  · intro hends
    by_contra h
    have herror : ¬ (reached = .ok () ∧ destroyed = true) := by
      rintro ⟨rfl, hd⟩
      exact h ⟨CopyState.eventSynchronize_ok.mp hreached, hd⟩
    rw [finishReached_error herror] at hends
    have hnone := hends.ended
    rw [hp] at hnone
    cases hnone
  · rintro ⟨hc, rfl⟩
    rw [CopyState.eventSynchronize_ok.mpr hc] at hreached
    cases hreached
    exact finishReached_ok (reachable_inv hr) hp hc

/-! ## A copy that failed -/

/-- A step leaves a transfer whose copy failed pending. -/
theorem step_failed (hl : e.Inv H) (h : step a e = some e') (hp : e.pending key = some p)
    (hc : p.copy = .failed) : e'.pending key = some p := by
  have heffect : ∀ {c e₁ e₂}, Effect H c e₁ e₂ → e₁.pending key = some p →
      e₂.pending key = some p := by
    intro c e₁ e₂ he hp
    cases he with
    | quiet | client | provide | abandon | submit | complete | discard | nvme => exact hp
    | @beginTransfer d k q r r' hi hb hnone hcopy =>
      have hk : key ≠ k := by
        rintro rfl
        rw [hnone] at hp
        cases hp
      exact (Function.update_of_ne hk _ _).trans hp
    | @finishTransfer d k q r r' hq hcopy hi hr hr' hpin hnew =>
      have hk : key ≠ k := by
        rintro rfl
        rw [hq] at hp
        cases hp
        rw [hc] at hcopy
        cases hcopy
      exact (Function.update_of_ne hk _ _).trans hp
  cases step_cases hl h with
  | call ho he => exact heffect he hp
  | poll ho he => exact heffect he hp
  | finalize ho ht hs he => exact heffect he hp
  | @device o event m s s' b hm hs hb hev =>
    cases o with
    | task id => exact hp
    | transfer k =>
      by_cases hk : key = k
      · subst hk
        have hs : (e.pending key).map Pending.copy = some s := hs
        rw [hp] at hs
        obtain rfl : p.copy = s := Option.some.inj hs
        rw [hc] at hev
        show Function.update e.pending key ((e.pending key).map _) key = _
        rw [Function.update_self, hp, Option.map_some]
        rcases hev with ⟨h, -⟩ | ⟨h, -⟩ | rfl
        · cases h
        · cases h
        · rw [← hc]
      · exact (Function.update_of_ne hk _ _).trans hp
  | _ => exact hp

/-- A transfer whose copy failed stays pending in every run that follows. -/
theorem failed_forever (hr : Transition.Reachable step (Start H) Any e) (hp : e.pending key = some p)
    (hc : p.copy = .failed) (hrun : Transition.Reachable step (fun s => s = e) Any e') :
    e'.pending key = some p := by
  refine (hrun.invariant (I := fun s => s.Inv H ∧ s.pending key = some p) ?_ ?_).2
  · rintro s rfl
    exact ⟨reachable_inv hr, hp⟩
  · rintro s a s' - ⟨hl, hs⟩ - h
    exact ⟨step_inv hl a h, step_failed hl h hs hc⟩

/-- Two chunks on their way from the GPU to the CPU; the copy of the first one goes `events`. -/
def offloadRun (events : List DeviceEvent) : List Action :=
  [.call (.directory (.create (chunk 1))), .call (.provide (chunk 1) .GPU 1 [1, 2, 3, 4] .none),
    .call (.directory (.create (chunk 2))), .call (.provide (chunk 2) .GPU 1 [5, 6, 7, 8] .none),
    .call (.beginTransfer true (chunk 2) {}), .call (.beginTransfer true (chunk 1) {})] ++
  events.map (.device (.transfer (chunk 1)))

/-- `finish` waits for the first of two transfers and ends it; the source is released. -/
theorem transfer_ends_iff_reached : ∃ e p e₁ p₁ res,
    run step (offloadRun []) (small 1000 1) = some e ∧ e.pending (chunk 1) = some p ∧
    finishTransfer p.offload (chunk 1) true true e = none ∧
    run step (offloadRun [.land, .reach]) (small 1000 1) = some e₁ ∧
    e₁.pending (chunk 1) = some p₁ ∧ (e₁.pending (chunk 2)).isSome ∧
    finishTransfer p₁.offload (chunk 1) true true e₁ = some res ∧
    TransferEnds e₁ (finalState res) (chunk 1) p₁ true := by
  have hstate : (run step (offloadRun []) (small 1000 1)).bind (fun e =>
      (e.pending (chunk 1)).map Pending.copy) = some .running := rfl
  have hstate₁ : (run step (offloadRun [.land, .reach]) (small 1000 1)).bind (fun e =>
      (e.pending (chunk 1)).map fun p => (p.copy, (e.pending (chunk 2)).isSome)) =
      some (.done, true) := rfl
  obtain ⟨e, he, hs⟩ := Option.bind_eq_some_iff.mp hstate
  obtain ⟨p, hp, hc⟩ := Option.map_eq_some_iff.mp hs
  obtain ⟨e₁, he₁, hs₁⟩ := Option.bind_eq_some_iff.mp hstate₁
  obtain ⟨p₁, hp₁, hc₁⟩ := Option.map_eq_some_iff.mp hs₁
  obtain ⟨hdone, hother⟩ := Prod.mk.inj hc₁
  have hwaits := (transfer_ends_iff (reachable_small one_ne_zero he) hp true true).1.mpr (.inl hc)
  have hends := (transfer_ends_iff (reachable_small one_ne_zero he₁) hp₁ true true).2
  have hres := finishTransfer_done hp₁ hdone true true
  exact ⟨e, p, e₁, p₁, _, he, hp, hwaits, he₁, hp₁, hother, hres, (hends _ hres).mpr ⟨hdone, rfl⟩⟩

/-- The copy of a transfer fails: its `finish` does not end it. -/
theorem transfer_never_ends : ∃ e p res, Transition.Reachable step (Start fun _ => 0) Any e ∧
    e.pending (chunk 1) = some p ∧ p.offload = true ∧ p.copy = .failed ∧
    finishTransfer true (chunk 1) true true e = some res ∧
    ¬ TransferEnds e (finalState res) (chunk 1) p true := by
  have hstate : (run step (offloadRun [.fail []]) (small 1000 1)).bind (fun e =>
      (e.pending (chunk 1)).map fun p => (p.offload, p.copy)) = some (true, .failed) := rfl
  obtain ⟨e, he, hs⟩ := Option.bind_eq_some_iff.mp hstate
  obtain ⟨p, hp, hc⟩ := Option.map_eq_some_iff.mp hs
  obtain ⟨hoffload, hfailed⟩ := Prod.mk.inj hc
  have hres : finishTransfer true (chunk 1) true true e = some (finishReached true (chunk 1) true p
      (.error (.runtimeError "cudaEventSynchronize")) true e) := by
    rw [← hoffload, finishTransfer_pending hp, hfailed]
    rfl
  refine ⟨e, p, _, reachable_small one_ne_zero he, hp, hoffload, hfailed, hres, fun hends => ?_⟩
  have hpending := hends.ended
  rw [finishReached_error (by rintro ⟨h, -⟩; cases h), hp] at hpending
  cases hpending

end Engine

end KVFlux.V3
