import KVFlux.V3.Migration.Alone

/-!
# Asynchronous and synchronous migration

A task that runs alone ends like the direct call for its direction.

* `Synchronous`: the runs of `GpuCpuTransfer` and `NvmeTransfer` that do not release the source.
* `Accepted`: the direct call gets past its checks.
* `begin_submitted`, `offload_submitted`, `onload_submitted`: the direct calls where `submit` works.
* **`submit_synchronous`**: where `submit` is accepted the direct call is, and a completed task has
  left what the direct call leaves.
-/

namespace KVFlux.V3

open Fallible ChunkRecord Transition

namespace Engine

variable {H : Tokens → UInt64} {e e₀ e₁ e' e'' : Engine} {d : CacheDirectory} {key : CacheKey}
  {r : ChunkRecord} {t t' : Task} {source destination : StorageTier} {id : ℕ}
  {validTokens : UInt64} {fault : CopyFault}

/-- A direct move without release of the source. The copy lands and its event is reached. -/
inductive Synchronous (key : CacheKey) (validTokens : UInt64) :
    StorageTier → StorageTier → Engine → Engine → Prop
  | copy {down : Bool} {fault : CopyFault} {e e₁ e₂ e₃ e₄ : Engine}
      (hbegin : beginTransfer down key fault e = .ok () e₁)
      (hland : e₁.deviceStep (.transfer key) .land = some e₂)
      (hreach : e₂.deviceStep (.transfer key) .reach = some e₃)
      (hfinish : finishTransfer down key false true e₃ = some (.ok () e₄)) :
      Synchronous key validTokens (if down then .GPU else .CPU) (if down then .CPU else .GPU) e e₄
  | offload {fault : WriteFault} {e e' : Engine}
      (h : offload key validTokens false fault e = .ok () e') :
      Synchronous key validTokens .CPU .NVME e e'
  | onload {fault : ReadFault} {unlinked : Bool} {e e' : Engine}
      (h : onload key false fault unlinked e = .ok () e') :
      Synchronous key validTokens .NVME .CPU e e'

/-- The direct call for a task gets past its checks: a copy begins, and a file transfer succeeds
where its file operation does. -/
def Accepted (t : Task) (validTokens : UInt64) (fault : CopyFault) (e : Engine) : Prop :=
  if t.usesCuda then ∃ e', beginTransfer (t.source = .GPU) t.key fault e = .ok () e'
  else if t.destination = .NVME then
    ∀ fault, (∃ e', offload t.key validTokens false fault e = .ok () e') ↔
      e.buffer .CPU t.sourceLoc.slot = .ok () ∧
      ∃ s, ChunkFileStore.write fault t.destinationLoc.slot t.fileMeta (e.cpu t.sourceLoc.slot)
        e.store = .ok () s
  else
    ∀ fault unlinked, (∃ e', onload t.key false fault unlinked e = .ok () e') ↔
      e.buffer .CPU t.destinationLoc.slot = .ok () ∧
      ∃ m out, e.store.read fault t.sourceLoc.slot t.fileMeta e.chunkBytes
        (e.cpu t.destinationLoc.slot) = .ok (some m) out

/-- The same records, tiers, bytes and files. -/
structure SameChunks (e e' : Engine) : Prop where
  record : e'.directory.record = e.directory.record
  tiers : e'.directory.tiers = e.directory.tiers
  data : e'.data = e.data

/-! ## The direct calls -/

/-- The source is marked and the destination placed. -/
theorem reserve_submitted (hs : Submitted e e₀ r t validTokens fault) (state : ChunkState) :
    ∃ d₁ d₂, CacheDirectory.setState t.key t.source .COPYING e.directory = .ok () d₁ ∧
      CacheDirectory.place t.key t.destination state d₁ = .ok t.destinationLoc d₂ ∧
      d₂.tiers = e₀.directory.tiers ∧
      d₂.record = Function.update e.directory.record t.key (some ((r.setReplica t.source
        (some ⟨t.sourceLoc, .COPYING⟩)).setReplica t.destination
          (some ⟨t.destinationLoc, state⟩))) := by
  have hne := direct_ne hs.direct
  obtain ⟨d₁, h₁, ht₁, hr₁⟩ := CacheDirectory.setState_exact hs.record hs.source .COPYING
  have hr₁' : d₁.record t.key = some (r.setReplica t.source (some ⟨t.sourceLoc, .COPYING⟩)) := by
    rw [hr₁, Function.update_self]
  rcases CacheDirectory.place_exact hr₁' ((replica_setReplica_of_ne hne.symm).trans hs.destination)
    state with ⟨err, t', ha, -⟩ | ⟨l, t', d₂, ha, h₂, ht₂, hr₂⟩
  · rw [ht₁, hs.allocated] at ha
    cases ha
  · rw [ht₁, hs.allocated] at ha
    cases ha
    exact ⟨d₁, d₂, h₁, h₂, ht₂, by rw [hr₂, hr₁, Function.update_idem]⟩

theorem Submitted.copy_tiers (hs : Submitted e e₀ r t validTokens fault) (hc : t.usesCuda = true) :
    (if decide (t.source = .GPU) then StorageTier.GPU else .CPU) = t.source ∧
      (if decide (t.source = .GPU) then StorageTier.CPU else .GPU) = t.destination := by
  have hd := hs.direct
  unfold Task.usesCuda at hc
  cases h : t.source <;> cases h' : t.destination <;> rw [h, h'] at hd hc <;>
    simp_all [V3.Engine.direct]

/-- **The beginning of a copy.** -/
theorem begin_submitted (hs : Submitted e e₀ r t validTokens fault) (hc : t.usesCuda = true)
    (hp : e.pending t.key = none) : ∃ d,
      beginTransfer (t.source = .GPU) t.key fault e = .ok () { e with
        directory := d
        pending := Function.update e.pending t.key
          (some { source := t.sourceLoc, destination := t.destinationLoc,
                  offload := t.source = .GPU }) } ∧
      d.tiers = e₀.directory.tiers ∧
      d.record = Function.update e.directory.record t.key (some (onWay r t)) := by
  obtain ⟨hb₁, hb₂, hf₁, hf₂, hf₃⟩ := hs.starts hc
  obtain ⟨hsource, hdestination⟩ := hs.copy_tiers hc
  obtain ⟨d₁, d₂, h₁, h₂, ht₂, hr₂⟩ := reserve_submitted hs (taskState t.destination)
  have hset : onDirectory (CacheDirectory.setState t.key t.source .COPYING) e =
      .ok () { e with directory := d₁ } :=
    onDirectory_ok h₁
  have hplace : onDirectory (CacheDirectory.place t.key t.destination
      (if t.destination = .GPU then .LOADING else .COPYING)) { e with directory := d₁ } =
      .ok t.destinationLoc { e with directory := d₂ } :=
    onDirectory_ok h₂
  have hcopy : beginCopy t.key t.source t.sourceLoc t.destination fault { e with directory := d₁ } =
      .ok t.destinationLoc { e with directory := d₂ } := by
    have hb₁' : buffer { e with directory := d₂ } t.destination t.destinationLoc.slot = .ok () := hb₁
    have hb₂' : buffer { e with directory := d₂ } t.source t.sourceLoc.slot = .ok () := hb₂
    simp only [beginCopy, bind_apply, hplace, ensure, if_pos hf₁, get_apply, hb₁', hb₂', check_ok,
      submitCopy_starts hf₁ hf₂ hf₃, pure_apply]
  have hr₂' : d₂.record t.key = some ((r.setReplica t.source (some ⟨t.sourceLoc, .COPYING⟩)).setReplica
      t.destination (some ⟨t.destinationLoc, taskState t.destination⟩)) := by
    rw [hr₂, Function.update_self]
  obtain ⟨d₃, h₃, ht₃, hr₃⟩ := CacheDirectory.pin_exact hr₂'
  have hpin : onDirectory (CacheDirectory.pin t.key) { e with directory := d₂ } =
      .ok () { e with directory := d₃ } :=
    onDirectory_ok h₃
  refine ⟨d₃, ?_, ht₃.trans ht₂, ?_⟩
  · simp only [beginTransfer, hsource, hdestination, bind_apply, get_apply, hp, Option.isNone_none,
      ensure, if_true, CacheDirectory.lookup_record hs.record, check_ok, hs.source, hs.destination,
      hset, onError, hcopy, hpin, modify_apply]
  · rw [hr₃, hr₂, Function.update_idem, setReplica_pinCount, setReplica_pinCount]
    rfl

/-- The end of a copy. -/
theorem finish_transfer {p : Pending} (hp : e.pending key = some p) (hdone : p.copy = .done)
    (hr : e.directory.record key = some r)
    (hs : (r.replica (if p.offload then .GPU else .CPU)).map Replica.location = some p.source)
    (hd : (r.replica (if p.offload then .CPU else .GPU)).map Replica.location = some p.destination)
    (hsettle : settle key (if p.offload then .GPU else .CPU) (if p.offload then .CPU else .GPU)
      e.directory = .ok () d) :
    finishTransfer p.offload key false true e =
      some (.ok () { e with pending := Function.update e.pending key none, directory := d }) := by
  have hdir : onDirectory (settle key (if p.offload then .GPU else .CPU)
      (if p.offload then .CPU else .GPU))
      { e with pending := Function.update e.pending key none } =
      .ok () { e with pending := Function.update e.pending key none, directory := d } :=
    onDirectory_ok hsettle
  unfold settle at hdir
  simp only [finishTransfer, hp, if_true, CopyState.eventSynchronize_ok.mpr hdone, Option.map_some,
    finishReached, bind_apply, get_apply, ensure, modify_apply, CacheDirectory.lookup_record hr,
    check_ok, hs, hd, and_self, hdir, Bool.false_eq_true, if_false, pure_apply]

/-- **A copy in one go.** -/
theorem copy_synchronous (hs : Submitted e e₀ r t validTokens fault) (hc : t.usesCuda = true)
    (hp : e.pending t.key = none) (hpins : r.pinCount < 2 ^ 64) (hpin : (onWay r t).pinCount ≠ 0) :
    ∃ e', Synchronous t.key validTokens t.source t.destination e e' ∧
      Delivered e r t e₀.directory.tiers e' := by
  obtain ⟨hsource, hdestination⟩ := hs.copy_tiers hc
  obtain ⟨d, hbegin, ht, hr⟩ := begin_submitted hs hc hp
  have hne := direct_ne hs.direct
  have hrec : d.record t.key = some (onWay r t) := by rw [hr, Function.update_self]
  have hs₁ : (onWay r t).replica t.source = some ⟨t.sourceLoc, .COPYING⟩ := by simp [onWay, hne]
  have hd₁ : (onWay r t).replica t.destination =
      some ⟨t.destinationLoc, taskState t.destination⟩ := by simp [onWay]
  obtain ⟨d', hsettle, ht', hr'⟩ := settle_exact hrec hs₁ hd₁ hne hpin
  let p : Pending :=
    { source := t.sourceLoc, destination := t.destinationLoc, offload := t.source = .GPU }
  have hm : p.move t.key = t.move := by
    simp only [p, Pending.move, Task.move, hsource, hdestination]
  obtain ⟨e₁, he₁⟩ : ∃ e₁ : Engine, e₁ =
      { e with directory := d, pending := Function.update e.pending t.key (some p) } := ⟨_, rfl⟩
  have hp₁ : e₁.pending t.key = some p := by
    rw [he₁]
    exact Function.update_self _ _ _
  have hdir : e₁.directory = d := by rw [he₁]
  have hdata : e₁.data = e.data := by rw [he₁]; rfl
  rw [← he₁] at hbegin
  clear he₁
  subst hdir
  have hland := land_transfer hp₁ rfl hm
  have hp₂ := setCopy_transfer (e := e₁.setMem t.destination t.destinationLoc.slot
    (overwrite (e₁.mem t.destination t.destinationLoc.slot) (e₁.mem t.source t.sourceLoc.slot)))
    hp₁ .landed
  have hreach := reach_transfer hp₂ rfl
  have hp₃ := setCopy_transfer hp₂ .done
  have hfinish := finish_transfer hp₃ rfl (d := d') (r := onWay r t) hrec
    (by show ((onWay r t).replica (if decide (t.source = .GPU) then .GPU else .CPU)).map _ = _
        rw [hsource, hs₁]; rfl)
    (by show ((onWay r t).replica (if decide (t.source = .GPU) then .CPU else .GPU)).map _ = _
        rw [hdestination, hd₁]; rfl)
    (by show settle _ (if decide (t.source = .GPU) then .GPU else .CPU)
          (if decide (t.source = .GPU) then .CPU else .GPU) e₁.directory = _
        rw [hsource, hdestination]; exact hsettle)
  have hsync : Synchronous t.key validTokens _ _ e _ := .copy hbegin hland hreach hfinish
  rw [hsource, hdestination] at hsync
  refine ⟨_, hsync, hpin, ?_, ht'.trans ht, ?_⟩
  · refine hr'.trans ?_
    rw [hr, Function.update_idem, onWay_settled hne hs.source hpins hpin]
  · show Moved e t (e₁.setMem t.destination t.destinationLoc.slot
      (overwrite (e₁.mem t.destination t.destinationLoc.slot)
        (e₁.mem t.source t.sourceLoc.slot))).data
    rw [setMem_data hdata, mem_data hdata]
    exact .copy hc

/-! ## File transfers in one go -/

/-- The directory calls of a file transfer. -/
theorem ready_submitted (hs : Submitted e e₀ r t validTokens fault) (state : ChunkState) :
    ∃ d₁ d₂ d₃, CacheDirectory.setState t.key t.source .COPYING e.directory = .ok () d₁ ∧
      CacheDirectory.place t.key t.destination state d₁ = .ok t.destinationLoc d₂ ∧
      (do
        CacheDirectory.setState t.key t.destination .READY
        CacheDirectory.setState t.key t.source .READY : Call CacheDirectory Unit) d₂ = .ok () d₃ ∧
      d₃.tiers = e₀.directory.tiers ∧
      d₃.record = Function.update e.directory.record t.key
        (some (r.setReplica t.destination (some ⟨t.destinationLoc, .READY⟩))) := by
  have hne := direct_ne hs.direct
  obtain ⟨d₁, d₂, h₁, h₂, ht₂, hr₂⟩ := reserve_submitted hs state
  have hr₂' : d₂.record t.key = some ((r.setReplica t.source
      (some ⟨t.sourceLoc, .COPYING⟩)).setReplica t.destination
        (some ⟨t.destinationLoc, state⟩)) := by
    rw [hr₂, Function.update_self]
  obtain ⟨d₃, h₃, ht₃, hr₃⟩ := CacheDirectory.setState_exact hr₂' (replica_setReplica_self _ _ _)
    .READY
  have hr₃' := congrFun hr₃ t.key
  rw [Function.update_self] at hr₃'
  obtain ⟨d₄, h₄, ht₄, hr₄⟩ := CacheDirectory.setState_exact hr₃'
    (by rw [replica_setReplica_of_ne hne, replica_setReplica_of_ne hne, replica_setReplica_self])
    .READY
  refine ⟨d₁, d₂, d₄, h₁, h₂, ?_, ht₄.trans (ht₃.trans ht₂), ?_⟩
  · simp only [bind_apply, h₃, h₄]
  · rw [hr₄, hr₃, hr₂, Function.update_idem, Function.update_idem]
    congr 2
    refine ext_replica (by simp) (by simp) (by simp) (by simp) fun tier => ?_
    by_cases h₁ : tier = t.source
    · subst h₁
      simp [hne, hs.source]
    · by_cases h₂ : tier = t.destination
      · subst h₂
        simp [hne.symm]
      · simp [h₁, h₂]

/-- **A write in one go.** -/
theorem offload_submitted (hs : Submitted e e₀ r t validTokens fault) (hsource : t.source = .CPU)
    (hdestination : t.destination = .NVME) : ∃ d, d.tiers = e₀.directory.tiers ∧
      d.record = Function.update e.directory.record t.key
        (some (r.setReplica t.destination (some ⟨t.destinationLoc, .READY⟩))) ∧
      ∀ fault : WriteFault,
        (∀ s, e.buffer .CPU t.sourceLoc.slot = .ok () →
          ChunkFileStore.write fault t.destinationLoc.slot t.fileMeta (e.cpu t.sourceLoc.slot)
            e.store = .ok () s →
          offload t.key validTokens false fault e = .ok () { e with directory := d, store := s }) ∧
        ∀ e', offload t.key validTokens false fault e = .ok () e' →
          e.buffer .CPU t.sourceLoc.slot = .ok () ∧
          ∃ s, ChunkFileStore.write fault t.destinationLoc.slot t.fileMeta
            (e.cpu t.sourceLoc.slot) e.store = .ok () s := by
  obtain ⟨d₁, d₂, d₃, h₁, h₂, h₃, ht, hr⟩ := ready_submitted hs .COPYING
  have hmeta := hs.fileMeta
  have hcpu : r.cpu = some ⟨t.sourceLoc, .READY⟩ := by
    have h := hs.source
    rw [hsource] at h
    exact h
  have hnvme : r.nvme = none := by
    have h := hs.destination
    rw [hdestination] at h
    exact h
  rw [hsource] at h₁ h₃
  rw [hdestination] at h₂ h₃
  refine ⟨d₃, ht, hr, fun fault => ?_⟩
  have hset : onDirectory (CacheDirectory.setState t.key .CPU .COPYING) e =
      .ok () { e with directory := d₁ } :=
    onDirectory_ok h₁
  have hplace : onDirectory (CacheDirectory.place t.key .NVME .COPYING) { e with directory := d₁ } =
      .ok t.destinationLoc { e with directory := d₂ } :=
    onDirectory_ok h₂
  have hready : ∀ s, onDirectory (do
      CacheDirectory.setState t.key .NVME .READY
      CacheDirectory.setState t.key .CPU .READY) { e with directory := d₂, store := s } =
      .ok () { e with directory := d₃, store := s } :=
    fun s => onDirectory_ok h₃
  cases hb : e.buffer .CPU t.sourceLoc.slot with
  | error err =>
    refine ⟨fun s h => (by cases h), fun e' h => ?_⟩
    have hb' : buffer { e with directory := d₂ } .CPU t.sourceLoc.slot = .error err := hb
    simp only [offload, bind_apply, get_apply, CacheDirectory.lookup_record hs.record, check_ok, hcpu,
      ensure, hnvme, Option.isNone_none, if_true, hset, onError, hplace, hb', check_error] at h
    cases hx : rollbackNvme t.key .CPU .NVME { e with directory := d₂ } <;> rw [hx] at h <;> cases h
  | ok _ =>
    have hb' : buffer { e with directory := d₂ } .CPU t.sourceLoc.slot = .ok () := hb
    cases hw : ChunkFileStore.write fault t.destinationLoc.slot t.fileMeta
      (e.cpu t.sourceLoc.slot) e.store with
    | error err s =>
      refine ⟨fun s' _ h => (by cases h), fun e' h => ?_⟩
      have hx : onStore (ChunkFileStore.write fault t.destinationLoc.slot
          (makeFileMeta t.key validTokens (UInt64.ofNat e.chunkBytes)) (e.cpu t.sourceLoc.slot))
          { e with directory := d₂ } = .error err { e with directory := d₂, store := s } := by
        unfold onStore
        rw [← hmeta]
        simp only [hw]
      simp only [offload, bind_apply, get_apply, CacheDirectory.lookup_record hs.record, check_ok,
        hcpu, ensure, hnvme, Option.isNone_none, if_true, hset, onError, hplace, hb', hx] at h
      cases hy : rollbackNvme t.key .CPU .NVME { e with directory := d₂, store := s } <;>
        rw [hy] at h <;> cases h
    | ok u s =>
      have hx : onStore (ChunkFileStore.write fault t.destinationLoc.slot
          (makeFileMeta t.key validTokens (UInt64.ofNat e.chunkBytes)) (e.cpu t.sourceLoc.slot))
          { e with directory := d₂ } = .ok () { e with directory := d₂, store := s } := by
        unfold onStore
        rw [← hmeta]
        simp only [hw]
      refine ⟨fun s' _ h => ?_, fun _ _ => ⟨rfl, s, rfl⟩⟩
      cases h
      simp only [offload, bind_apply, get_apply, CacheDirectory.lookup_record hs.record, check_ok,
        hcpu, ensure, hnvme, Option.isNone_none, if_true, hset, onError, hplace, hb', hx, hready,
        Bool.false_eq_true, if_false, pure_apply]

/-- What a read expects about the number of valid tokens does not matter. -/
theorem read_validTokens (s : ChunkFileStore) (fault : ReadFault) (i : ℕ) (key : CacheKey)
    (validTokens validTokens' size : UInt64) (capacity : ℕ) :
    s.read fault i (makeFileMeta key validTokens size) capacity =
      s.read fault i (makeFileMeta key validTokens' size) capacity := rfl

/-- **A read in one go.** -/
theorem onload_submitted (hs : Submitted e e₀ r t validTokens fault) (hsource : t.source = .NVME)
    (hdestination : t.destination = .CPU) : ∃ d, d.tiers = e₀.directory.tiers ∧
      d.record = Function.update e.directory.record t.key
        (some (r.setReplica t.destination (some ⟨t.destinationLoc, .READY⟩))) ∧
      ∀ (fault : ReadFault) (unlinked : Bool),
        (∀ m out, e.buffer .CPU t.destinationLoc.slot = .ok () →
          e.store.read fault t.sourceLoc.slot t.fileMeta e.chunkBytes
            (e.cpu t.destinationLoc.slot) = .ok (some m) out →
          onload t.key false fault unlinked e =
            .ok () { e.setMem .CPU t.destinationLoc.slot out with directory := d }) ∧
        ∀ e', onload t.key false fault unlinked e = .ok () e' →
          e.buffer .CPU t.destinationLoc.slot = .ok () ∧
          ∃ m out, e.store.read fault t.sourceLoc.slot t.fileMeta e.chunkBytes
            (e.cpu t.destinationLoc.slot) = .ok (some m) out := by
  obtain ⟨d₁, d₂, d₃, h₁, h₂, h₃, ht, hr⟩ := ready_submitted hs .LOADING
  have hmeta := hs.fileMeta
  have hnvme : r.nvme = some ⟨t.sourceLoc, .READY⟩ := by
    have h := hs.source
    rw [hsource] at h
    exact h
  have hcpu : r.cpu = none := by
    have h := hs.destination
    rw [hdestination] at h
    exact h
  rw [hsource] at h₁ h₃
  rw [hdestination] at h₂ h₃
  refine ⟨d₃, ht, hr, fun fault unlinked => ?_⟩
  have hset : onDirectory (CacheDirectory.setState t.key .NVME .COPYING) e =
      .ok () { e with directory := d₁ } :=
    onDirectory_ok h₁
  have hplace : onDirectory (CacheDirectory.place t.key .CPU .LOADING) { e with directory := d₁ } =
      .ok t.destinationLoc { e with directory := d₂ } :=
    onDirectory_ok h₂
  have hready : ∀ out, onDirectory (do
      CacheDirectory.setState t.key .CPU .READY
      CacheDirectory.setState t.key .NVME .READY)
      (setMem { e with directory := d₂ } .CPU t.destinationLoc.slot out) =
      .ok () { e.setMem .CPU t.destinationLoc.slot out with directory := d₃ } :=
    fun out => onDirectory_ok h₃
  have hread := read_validTokens e.store fault t.sourceLoc.slot t.key 0 validTokens
    (UInt64.ofNat e.chunkBytes) e.chunkBytes
  rw [← hmeta] at hread
  cases hx : readChunk t.sourceLoc.slot (makeFileMeta t.key 0 (UInt64.ofNat e.chunkBytes))
      t.destinationLoc.slot fault { e with directory := d₂ } with
  | error err e₁ =>
    refine ⟨fun m out hb hm => ?_, fun e' h => ?_⟩
    · have hb' : buffer { e with directory := d₂ } .CPU t.destinationLoc.slot = .ok () := hb
      simp only [readChunk, hb', hread, hm] at hx
      cases hx
    · simp only [onload, bind_apply, get_apply, CacheDirectory.lookup_record hs.record, check_ok,
        hnvme, ensure, hcpu, Option.isNone_none, if_true, hset, onError, hplace, hx] at h
      cases hy : rollbackNvme t.key .NVME .CPU e₁ <;> rw [hy] at h <;> cases h
  | ok u e₁ =>
    obtain ⟨m, out, hb, hm, rfl⟩ := readChunk_ok_inv hx
    have hm' : e.store.read fault t.sourceLoc.slot t.fileMeta e.chunkBytes
        (e.cpu t.destinationLoc.slot) = .ok (some m) out := hread ▸ hm
    refine ⟨fun m' out' _ h => ?_, fun _ _ => ⟨hb, m, out, hm'⟩⟩
    rw [hm'] at h
    cases h
    simp only [onload, bind_apply, get_apply, CacheDirectory.lookup_record hs.record, check_ok,
      hnvme, ensure, hcpu, Option.isNone_none, if_true, hset, onError, hplace, hx, hready,
      Bool.false_eq_true, if_false, pure_apply]

/-! ## Tasks -/

/-- Where `submit` is about to start the only move of the chunk. -/
structure Undisturbed (e : Engine) (key : CacheKey) : Prop where
  owner : e.owner = .idle
  unused : Unused e e.nextId
  moves : ∀ o m, e.move o = some m → m.key ≠ key
  pins : ∀ r, e.directory.record key = some r → r.pinCount < 2 ^ 64

/-- In reachable states the other moves are all there is to check. -/
theorem Inv.undisturbed (hl : e.Inv H) (ho : e.owner = .idle)
    (hm : ∀ o m, e.move o = some m → m.key ≠ key) : Undisturbed e key := by
  refine ⟨ho, ⟨fun hq => ?_, fun w hw => ?_⟩, hm, fun r hr => ?_⟩
  · obtain ⟨t, ht, -⟩ := hl.queue.queued _ hq
    exact absurd (hl.queue.task _ t ht).2.1 (lt_irrefl _)
  · obtain ⟨-, t, ht, -⟩ := hl.queue.taken w _ hw
    exact absurd (hl.queue.task _ t ht).2.1 (lt_irrefl _)
  · have hbound := hl.locks.bound key
    rcases hl.locks.counted key r hr with h | ⟨h, -⟩ <;> omega

theorem Undisturbed.pending (hu : Undisturbed e key) : e.pending key = none := by
  cases hp : e.pending key with
  | none => rfl
  | some p =>
    have hm : e.move (.transfer key) = some (p.move key) := by simp only [move, hp, Option.map_some]
    exact absurd rfl (hu.moves _ _ hm)

theorem Submitted.new (hs : Submitted e e₀ r t validTokens fault) (hu : Undisturbed e t.key) :
    New e r t e₀.directory where
  unused := hs.id_eq ▸ hu.unused
  direct := hs.direct
  source := hs.source
  destination := hs.destination
  record := hs.record_eq
  pins := hu.pins r hs.record
  state := hs.state
  cancelRequested := hs.cancelRequested
  ioResult := hs.ioResult
  copy := hs.copy

/-- The run begins in a stage. -/
theorem Submitted.phase (hs : Submitted e e₀ r t validTokens fault) (hu : Undisturbed e t.key) :
    Phase e r t e₀.directory e₀ := by
  have hengine := hs.engine
  have htask : e₀.tasks t.id = some t := by
    rw [hengine]
    exact Function.update_self _ _ _
  have hworkers : ∀ w, (e₀.workers w).task ≠ some t.id := by
    rw [hengine, hs.id_eq]
    exact hu.unused.workers
  have hdata : e₀.data = e.data := by
    rw [hengine]
    rfl
  refine ⟨by rw [hengine]; rfl, ?_, ?_⟩
  · rw [hengine]
    show OwnerState.WaitsOnly t.id e.owner
    rw [hu.owner]
    trivial
  · cases hc : t.usesCuda with
    | true =>
      have ht : { t with copy := .running } = t := by rw [← hs.copy]
      refine .copying (c := .running) (ht.symm ▸ htask) hc rfl ⟨?_, hworkers⟩ hdata
      rw [hengine]
      exact if_pos hc
    | false =>
      refine .queued htask hc rfl ?_ hworkers hdata
      rw [hengine]
      exact if_neg (by rw [hc]; exact Bool.false_ne_true)

/-- **Where `submit` is accepted the direct call is.** -/
theorem Submitted.accepted (hs : Submitted e e₀ r t validTokens fault) (hu : Undisturbed e t.key) :
    Accepted t validTokens fault e := by
  unfold Accepted
  split_ifs with hc hd
  · obtain ⟨d, hbegin, -⟩ := begin_submitted hs hc hu.pending
    exact ⟨_, hbegin⟩
  · intro fault
    rcases (hs.new hu).file_source (Bool.eq_false_iff.mpr hc) with ⟨hsource, -⟩ | ⟨-, hd'⟩
    · obtain ⟨d, -, -, h⟩ := offload_submitted hs hsource hd
      exact ⟨fun ⟨e', he⟩ => (h fault).2 e' he, fun ⟨hb, s, hw⟩ => ⟨_, (h fault).1 s hb hw⟩⟩
    · rw [hd] at hd'
      cases hd'
  · intro fault unlinked
    rcases (hs.new hu).file_source (Bool.eq_false_iff.mpr hc) with ⟨-, hd'⟩ | ⟨hsource, hd'⟩
    · exact absurd hd' hd
    · obtain ⟨d, -, -, h⟩ := onload_submitted hs hsource hd'
      exact ⟨fun ⟨e', he⟩ => (h fault unlinked).2 e' he,
        fun ⟨hb, m, out, hr⟩ => ⟨_, (h fault unlinked).1 m out hb hr⟩⟩

/-- What a completed task has left, a direct call leaves too. -/
theorem Submitted.synchronous (hs : Submitted e e₀ r t validTokens fault)
    (hu : Undisturbed e t.key) (h : Delivered e r t e₀.directory.tiers e') : ∃ e'',
      Synchronous t.key validTokens t.source t.destination e e'' ∧ SameChunks e' e'' := by
  obtain ⟨hpin, hrec, htiers, hdata⟩ := h
  generalize hg : e'.data = data at hdata
  cases hdata with
  | copy hc =>
    obtain ⟨e'', hsync, -, hrec', htiers', hdata'⟩ :=
      copy_synchronous hs hc hu.pending (hu.pins r hs.record) hpin
    exact ⟨e'', hsync, hrec'.trans hrec.symm, htiers'.trans htiers.symm,
      (hdata'.of_copy hc).trans hg.symm⟩
  | @write fault s hsource hd hb hw =>
    obtain ⟨d, ht, hr, h⟩ := offload_submitted hs hsource hd
    rw [hsource, hd]
    exact ⟨_, .offload ((h fault).1 s hb hw), hr.trans hrec.symm, ht.trans htiers.symm, hg.symm⟩
  | @read fault m out hsource hd hb hm =>
    obtain ⟨d, ht, hr, h⟩ := onload_submitted hs hsource hd
    rw [hsource, hd]
    exact ⟨_, .onload ((h fault true).1 m out hb hm), hr.trans hrec.symm, ht.trans htiers.symm,
      hg.symm⟩

/-- **Main result.** Where `submit` is accepted the direct call is accepted too, and when the task
runs alone to its completion, it leaves the records, tiers, bytes and files that the direct call
leaves. -/
theorem submit_synchronous {priority : ℤ} (hu : Undisturbed e key)
    (hsubmit : submit key destination validTokens priority fault e = .ok id e₀) :
    ∃ t, e₀.tasks id = some t ∧ t.key = key ∧ t.destination = destination ∧
      Accepted t validTokens fault e ∧
      ∀ e' t', Transition.Reachable step (· = e₀) (Own id) e' → e'.tasks id = some t' →
        t'.state = .COMPLETED → ∃ e'',
          Synchronous key validTokens t.source destination e e'' ∧ SameChunks e' e'' := by
  obtain ⟨r, t, hs, rfl, rfl, rfl⟩ := submit_ok hsubmit
  have hnew := hs.new hu
  have hstart := hs.phase hu
  refine ⟨t, ?_, rfl, rfl, hs.accepted hu, fun e' t' hr ht' hdone => ?_⟩
  · rw [hs.engine]
    exact Function.update_self _ _ _
  have hphase : Phase e r t e₀.directory e' :=
    hr.invariant (fun s h => h ▸ hstart) fun _ _ _ _ h ha hstep => own_phase hnew h ha hstep
  refine hs.synchronous hu ?_
  cases hphase.stage with
  | ended ht hend hfree h =>
    obtain rfl := Option.some.inj (ht'.symm.trans ht)
    exact h hdone
  | queued ht hc _ _ _ _ =>
    obtain rfl := Option.some.inj (ht'.symm.trans ht)
    rw [hs.state, hc] at hdone
    cases hdone
  | held ht _ _ _ _ _ =>
    obtain rfl := Option.some.inj (ht'.symm.trans ht)
    cases hdone
  | served _ ht _ _ _ _ =>
    obtain rfl := Option.some.inj (ht'.symm.trans ht)
    cases hdone
  | copying ht hc _ _ _ =>
    obtain rfl := Option.some.inj (ht'.symm.trans ht)
    have hdone : t.state = .COMPLETED := hdone
    rw [hs.state, hc] at hdone
    cases hdone
  | stuck ht _ _ _ hrun _ _ _ =>
    obtain rfl := Option.some.inj (ht'.symm.trans ht)
    rw [hrun] at hdone
    cases hdone

/-- A chunk in host memory. -/
def hostRun : List Action :=
  [.call (.directory (.create (chunk 1))), .call (.provide (chunk 1) .CPU 1 [1, 2, 3, 4] .none)]

/-- A copy to the GPU. -/
theorem submit_synchronous_copy : ∃ e e' e'', run step hostRun (small 1000 1) = some e ∧
    (e'.tasks 1).map Task.state = some .COMPLETED ∧
    Synchronous (chunk 1) 1 .CPU .GPU e e'' ∧ SameChunks e' e'' := by
  have hrun : (run step hostRun (small 1000 1)).map (fun e => (e.owner, (e.tasks, e.pending),
      match submit (chunk 1) .GPU 1 0 {} e with
      | .ok id e₀ => some (id, (e₀.tasks 1).map Task.source,
          (run step [.device (.task 1) .land, .device (.task 1) .reach, .call (.poll 1 true)] e₀).map
            fun e' => (e'.tasks 1).map Task.state)
      | .error _ _ => none)) =
      some (.idle, (fun _ => none, fun _ => none),
        some (1, some .CPU, some (some .COMPLETED))) := rfl
  obtain ⟨e, he, h⟩ := Option.map_eq_some_iff.mp hrun
  obtain ⟨howner, h⟩ := Prod.mk.inj h
  obtain ⟨hmoves, h⟩ := Prod.mk.inj h
  obtain ⟨htasks, hpending⟩ := Prod.mk.inj hmoves
  have hu : Undisturbed e (chunk 1) := by
    refine (reachable_inv (reachable_small one_ne_zero he)).undisturbed howner fun o m hm => ?_
    cases o with
    | task id => simp [move, htasks] at hm
    | transfer key => simp [move, hpending] at hm
  cases hs : submit (chunk 1) .GPU 1 0 {} e with
  | error err e₀ => rw [hs] at h; cases h
  | ok id e₀ =>
    rw [hs] at h
    obtain ⟨hid, h'⟩ := Prod.mk.inj (Option.some.inj h)
    obtain ⟨hsource, h'⟩ := Prod.mk.inj h'
    obtain ⟨e', hrun', hdone⟩ := Option.map_eq_some_iff.mp h'
    subst hid
    obtain ⟨t, ht, -, -, -, hsync⟩ := submit_synchronous hu hs
    rw [ht] at hsource
    obtain ⟨t', ht', hstate⟩ := Option.map_eq_some_iff.mp hdone
    have hown : ∀ a ∈ ([.device (.task 1) .land, .device (.task 1) .reach,
        .call (.poll 1 true)] : List Action), ∀ s, Own 1 s a := by
      intro a ha s
      simp only [List.mem_cons, List.not_mem_nil, or_false] at ha
      rcases ha with rfl | rfl | rfl <;> exact rfl
    obtain ⟨e'', hx, hsame⟩ := hsync e' t' (.run (.start rfl) hown hrun') ht' hstate
    rw [Option.some.inj hsource] at hx
    exact ⟨e, e', e'', he, hdone, hx, hsame⟩

end Engine

end KVFlux.V3
