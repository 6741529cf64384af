import KVFlux.V3.Migration.FailedStart

/-!
# What a submission has done

* `onWay`: the record of a chunk on its way.
* `Submitted`, **`submit_ok`**: the engine after `submit` has returned.
* `settle_exact`, `settle_unpinned`: the directory calls at the end of a move.
* `finalize_ok`, `finalize_error`, `fail_frame`: the ends of a task.
-/

namespace KVFlux.V3

open Fallible ChunkRecord

namespace Engine

variable {H : Tokens → UInt64} {e e₀ e₁ e' : Engine} {d : CacheDirectory} {key : CacheKey}
  {r : ChunkRecord} {t t' t₀ : Task} {source destination : StorageTier} {id w : ℕ}
  {fault : CopyFault} {α : Type} {a : α}

/-! ## What `submit` has done -/

/-- The record of a chunk on its way. -/
def onWay (r : ChunkRecord) (t : Task) : ChunkRecord :=
  ((r.setReplica t.source (some ⟨t.sourceLoc, .COPYING⟩)).setReplica t.destination
    (some ⟨t.destinationLoc, taskState t.destination⟩)).setPins ((r.pinCount + 1) % 2 ^ 64)

/-- The record at the end of the move is the record before with the new replica. -/
theorem onWay_settled (hne : t.source ≠ t.destination)
    (hs : r.replica t.source = some ⟨t.sourceLoc, .READY⟩) (hpins : r.pinCount < 2 ^ 64)
    (hpin : (onWay r t).pinCount ≠ 0) : (((onWay r t).setReplica t.destination
      (some ⟨t.destinationLoc, .READY⟩)).setReplica t.source (some ⟨t.sourceLoc, .READY⟩)).setPins
        ((onWay r t).pinCount - 1) =
      r.setReplica t.destination (some ⟨t.destinationLoc, .READY⟩) := by
  have hpin' : (onWay r t).pinCount - 1 = r.pinCount := by
    have : (onWay r t).pinCount = (r.pinCount + 1) % 2 ^ 64 := rfl
    omega
  refine ext_replica (by simp [onWay]) (by simp [onWay]) (by simp [onWay]) ?_ fun tier => ?_
  · rw [setPins_pinCount, setReplica_pinCount, hpin']
  · by_cases h₁ : tier = t.source
    · subst h₁
      simp [hne, hs]
    · by_cases h₂ : tier = t.destination
      · subst h₂
        simp [hne.symm]
      · simp [onWay, h₁, h₂]

/-- What `submit` has done when it returns: `r` is the record before and `t` the new task. -/
structure Submitted (e e₀ : Engine) (r : ChunkRecord) (t : Task) (validTokens : UInt64)
    (fault : CopyFault) : Prop where
  record : e.directory.record t.key = some r
  source : r.replica t.source = some ⟨t.sourceLoc, .READY⟩
  destination : r.replica t.destination = none
  direct : direct t.source t.destination = true
  allocated : Tiers.allocate t.destination e.directory.tiers =
    .ok t.destinationLoc e₀.directory.tiers
  record_eq : e₀.directory.record = Function.update e.directory.record t.key (some (onWay r t))
  starts : t.usesCuda = true →
    e.CopyStarts t.source t.sourceLoc t.destination t.destinationLoc fault
  id_eq : t.id = e.nextId
  fileMeta : t.fileMeta = makeFileMeta t.key validTokens (UInt64.ofNat e.chunkBytes)
  state : t.state = if t.usesCuda then .RUNNING else .QUEUED
  cancelRequested : t.cancelRequested = false
  ioResult : t.ioResult = 0
  copy : t.copy = .running
  engine : e₀ = { e with
    directory := e₀.directory
    nextId := e.nextId + 1
    ioQueue := if t.usesCuda then e.ioQueue else e.ioQueue ++ [t.id]
    tasks := Function.update e.tasks t.id (some t) }

theorem startTask_ok (hr : e.directory.record t.key = some r) (hn : r.replica t.destination = none)
    (h : startTask t fault e = .ok t' e') : ∃ l d,
      Tiers.allocate t.destination e.directory.tiers = .ok l d.tiers ∧
      d.record = Function.update e.directory.record t.key (some ((r.setReplica t.destination
        (some ⟨l, taskState t.destination⟩)).setPins ((r.pinCount + 1) % 2 ^ 64))) ∧
      (t.usesCuda = true → e.CopyStarts t.source t.sourceLoc t.destination l fault) ∧
      t' = { t with destinationLoc := l, state := if t.usesCuda then .RUNNING else t.state } ∧
      e' = { e with
        directory := d
        ioQueue := if t.usesCuda then e.ioQueue else e.ioQueue ++ [t.id] } := by
  rcases CacheDirectory.place_exact hr hn (taskState t.destination) with
    ⟨err, t₁, -, h₁⟩ | ⟨l, t₁, d₁, ha, h₁, ht₁, hr₁⟩
  · have hp : onDirectory (CacheDirectory.place t.key t.destination
        (if t.destination = .GPU then .LOADING else .COPYING)) e =
        .error err { e with directory := { e.directory with tiers := t₁ } } :=
      onDirectory_error h₁
    simp only [startTask, bind_apply, hp] at h
    cases h
  have hr₁' : d₁.record t.key =
      some (r.setReplica t.destination (some ⟨l, taskState t.destination⟩)) := by
    rw [hr₁, Function.update_self]
  obtain ⟨d, h₂, ht₂, hr₂⟩ := CacheDirectory.pin_exact hr₁'
  have hp : onDirectory (CacheDirectory.place t.key t.destination
      (if t.destination = .GPU then .LOADING else .COPYING)) e = .ok l { e with directory := d₁ } :=
    onDirectory_ok h₁
  have hpin : onDirectory (CacheDirectory.pin t.key) { e with directory := d₁ } =
      .ok () { e with directory := d } :=
    onDirectory_ok h₂
  refine ⟨l, d, by rw [ha, ht₂, ht₁], ?_, ?_⟩
  · rw [hr₂, hr₁, Function.update_idem, setReplica_pinCount]
  have hcuda : (Task.usesCuda { t with destinationLoc := l }) = t.usesCuda := rfl
  simp only [startTask, bind_apply, hp, hpin, hcuda] at h
  cases hc : t.usesCuda with
  | false =>
    rw [hc] at h
    cases h
    exact ⟨fun h => absurd h Bool.false_ne_true, rfl, rfl⟩
  | true =>
    rw [hc] at h
    simp only [if_true, bind_apply, get_apply] at h
    cases hb₁ : buffer { e with directory := d } t.destination l.slot with
    | error err => rw [hb₁] at h; cases h
    | ok _ =>
      cases hb₂ : buffer { e with directory := d } t.source t.sourceLoc.slot with
      | error err => rw [hb₁, hb₂] at h; cases h
      | ok _ =>
        rw [hb₁, hb₂] at h
        simp only [check_ok] at h
        cases hs : submitCopy t.destination l.slot fault { e with directory := d } with
        | error err e₁ => rw [hs] at h; cases h
        | ok u e₁ =>
          rw [hs] at h
          cases h
          obtain ⟨hfault, rfl⟩ := submitCopy_ok hs
          exact ⟨fun _ => ⟨hb₁, hb₂, hfault⟩, rfl, rfl⟩

theorem submit_ok {validTokens : UInt64} {priority : ℤ}
    (h : submit key destination validTokens priority fault e = .ok id e₀) :
    ∃ r t, Submitted e e₀ r t validTokens fault ∧ t.key = key ∧ t.destination = destination ∧
      t.id = id := by
  cases hr : e.directory.record key with
  | none =>
    simp only [submit, bind_apply, get_apply, CacheDirectory.lookup_error hr, check_error] at h
    cases h
  | some r =>
  have hl := CacheDirectory.lookup_record hr
  cases hf : inferSource r destination with
  | error err =>
    simp only [submit, bind_apply, get_apply, hl, check_ok, hf, check_error] at h
    cases h
  | ok found =>
  cases found with
  | none =>
    simp only [submit, bind_apply, get_apply, hl, check_ok, hf, Option.bind_none, throw_apply] at h
    cases h
  | some source =>
  obtain ⟨ls, hs, hne⟩ := inferSource_slot hf
  obtain ⟨hdirect, -⟩ := inferSource_ready hf
  cases hn : r.replica destination with
  | some slot =>
    simp only [submit, bind_apply, get_apply, hl, check_ok, hf, Option.bind_some, hs,
      Option.map_some, ensure, hn, Option.isNone_some, Bool.false_eq_true, if_false] at h
    cases h
  | none =>
  -- behind the checks
  obtain ⟨d₁, h₁, ht₁, hr₁⟩ := CacheDirectory.setState_exact hr hs .COPYING
  have hset : onDirectory (CacheDirectory.setState key source .COPYING)
      { e with nextId := e.nextId + 1 } =
      .ok () { e with nextId := e.nextId + 1, directory := d₁ } :=
    onDirectory_ok h₁
  simp only [submit, bind_apply, get_apply, hl, check_ok, hf, Option.bind_some, hs,
    Option.map_some, ensure, hn, Option.isNone_none, if_true, if_pos hdirect, modify_apply, hset]
    at h
  cases hstart : onError (startTask
      { id := e.nextId, key := key, source := source, destination := destination,
        priority := priority, sourceLoc := ls, destinationLoc := ⟨0, 0⟩,
        fileMeta := makeFileMeta key validTokens (UInt64.ofNat e.chunkBytes) } fault)
      (rollbackSubmit key source destination fault)
      { e with nextId := e.nextId + 1, directory := d₁ } with
  | error err e₁ => rw [hstart] at h; cases h
  | ok t e₁ =>
    rw [hstart] at h
    cases h
    have hr₁' : d₁.record key = some (r.setReplica source (some ⟨ls, .COPYING⟩)) := by
      rw [hr₁, Function.update_self]
    obtain ⟨l, d, ha, hrec, hcopy, rfl, rfl⟩ := startTask_ok hr₁'
      ((replica_setReplica_of_ne hne.symm).trans hn) (onError_ok.mp hstart)
    refine ⟨r, _, ⟨hr, hs, hn, hdirect, ?_, ?_, hcopy, rfl, rfl, rfl, rfl, rfl, rfl, rfl⟩, rfl, rfl,
      rfl⟩
    · rw [← ht₁]
      exact ha
    · show d.record = _
      rw [hrec]
      show Function.update d₁.record key _ = _
      rw [hr₁, Function.update_idem, setReplica_pinCount]
      rfl

/-! ## The end of a move -/

/-- The directory calls at the end of a move. -/
def settle (key : CacheKey) (source destination : StorageTier) : Call CacheDirectory Unit := do
  CacheDirectory.setState key destination .READY
  CacheDirectory.setState key source .READY
  CacheDirectory.unpin key

theorem settle_exact {ls ld : TierLocation} {ss sd : ChunkState} (hr : d.record key = some r)
    (hs : r.replica source = some ⟨ls, ss⟩) (hd : r.replica destination = some ⟨ld, sd⟩)
    (hne : source ≠ destination) (hpos : r.pinCount ≠ 0) :
    ∃ d', settle key source destination d = .ok () d' ∧ d'.tiers = d.tiers ∧
      d'.record = Function.update d.record key (some (((r.setReplica destination
        (some ⟨ld, .READY⟩)).setReplica source (some ⟨ls, .READY⟩)).setPins (r.pinCount - 1))) := by
  obtain ⟨d₁, h₁, ht₁, hr₁⟩ := CacheDirectory.setState_exact hr hd .READY
  have hr₁' : d₁.record key = some (r.setReplica destination (some ⟨ld, .READY⟩)) := by
    rw [hr₁, Function.update_self]
  obtain ⟨d₂, h₂, ht₂, hr₂⟩ := CacheDirectory.setState_exact hr₁'
    ((replica_setReplica_of_ne hne).trans hs) .READY
  have hr₂' : d₂.record key = some ((r.setReplica destination (some ⟨ld, .READY⟩)).setReplica
      source (some ⟨ls, .READY⟩)) := by
    rw [hr₂, Function.update_self]
  obtain ⟨d₃, h₃, ht₃, hr₃⟩ := CacheDirectory.unpin_exact hr₂'
    (by rw [setReplica_pinCount, setReplica_pinCount]; exact hpos)
  refine ⟨d₃, ?_, ht₃.trans (ht₂.trans ht₁), ?_⟩
  · simp only [settle, bind_apply, h₁, h₂, h₃]
  · rw [hr₃, hr₂, hr₁, Function.update_idem, Function.update_idem, setReplica_pinCount,
      setReplica_pinCount]

/-- The chunk has a record, without pins. -/
def Unpinned (key : CacheKey) (d : CacheDirectory) : Prop :=
  ∃ r, d.record key = some r ∧ r.pinCount = 0

theorem setState_unpinned (tier : StorageTier) (state : ChunkState) :
    Keeps (Unpinned key) (CacheDirectory.setState key tier state) := by
  rintro d ⟨r, hr, hpin⟩
  cases hs : r.replica tier with
  | none =>
    refine ⟨r, ?_, hpin⟩
    unfold CacheDirectory.setState
    simp only [CacheDirectory.lookup_record hr, hs]
    exact hr
  | some slot =>
    obtain ⟨d', h, -, hr'⟩ := CacheDirectory.setState_exact hr hs state
    refine ⟨r.setReplica tier (some { slot with state := state }), ?_, ?_⟩
    · rw [h, finalState_ok, hr', Function.update_self]
    · rw [setReplica_pinCount, hpin]

theorem settle_unpinned (h : Unpinned key d) :
    ∃ err d', settle key source destination d = .error err d' ∧ Unpinned key d' := by
  have h₁ := setState_unpinned destination .READY d h
  simp only [settle, bind_apply]
  cases hx : CacheDirectory.setState key destination .READY d with
  | error err d₁ => rw [hx] at h₁; exact ⟨err, d₁, rfl, h₁⟩
  | ok u d₁ =>
    rw [hx] at h₁
    have h₂ := setState_unpinned source .READY d₁ h₁
    simp only
    cases hy : CacheDirectory.setState key source .READY d₁ with
    | error err d₂ => rw [hy] at h₂; exact ⟨err, d₂, rfl, h₂⟩
    | ok u d₂ =>
      rw [hy] at h₂
      obtain ⟨r, hr, hpin⟩ := h₂
      exact ⟨_, d₂, CacheDirectory.unpin_zero hr hpin, r, hr, hpin⟩

/-- The end of a task that is not cancelled. -/
theorem finalize_ok (hcancel : t.cancelRequested = false)
    (h : settle t.key t.source t.destination e.directory = .ok () d) :
    finalize t unlinked e = .ok () { e with
      directory := d, tasks := Function.update e.tasks t.id (some { t with state := .COMPLETED }) } := by
  have hx : onDirectory (settle t.key t.source t.destination) e = .ok () { e with directory := d } :=
    onDirectory_ok h
  unfold finalize
  rw [if_neg (by rw [hcancel]; exact Bool.false_ne_true)]
  exact bind_of_ok hx

theorem finalize_error {err : Exn} (hcancel : t.cancelRequested = false)
    (h : settle t.key t.source t.destination e.directory = .error err d) :
    finalize t unlinked e = .error err { e with directory := d } := by
  have hx : onDirectory (settle t.key t.source t.destination) e =
      .error err { e with directory := d } :=
    onDirectory_error h
  unfold finalize
  rw [if_neg (by rw [hcancel]; exact Bool.false_ne_true)]
  exact bind_of_error hx

/-- The end of a task that failed. -/
theorem fail_frame (t : Task) (e : Engine) : ∃ d, finalState (fail t e) =
    { e with directory := d, tasks := Function.update e.tasks t.id (some { t with state := .FAILED }) } := by
  simp only [fail, bind_apply, modify_apply]
  unfold onDirectory
  split
  · exact ⟨_, rfl⟩
  · exact ⟨_, rfl⟩

end Engine

end KVFlux.V3
