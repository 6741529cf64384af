import KVFlux.V3.Migration.Effect

/-!
# The calls of the owner have the listed effects

* `onDirectory_ok`, `submitCopy_cases`, `synchronize_cases`, …: the parts of the calls.
* `submit_effect`, `beginTransfer_effect`, `finishTransfer_effect`, `offload_effect`,
  `onload_effect`, `poll_effect`, `provide_effect`, `clientDirectory_effect`.
* **`call_effect`**: every call of the client has an effect.
-/

namespace KVFlux.V3

open Fallible ChunkRecord

namespace Engine

variable {H : Tokens → UInt64} {e e' : Engine} {c : Option ClientCall} {d d' : CacheDirectory}
  {key : CacheKey} {r r' : ChunkRecord} {tier source destination : StorageTier}
  {l ls ld : TierLocation} {i : ℕ} {α : Type} {a : α} {err : Exn}

/-! ## Parts of calls -/

theorem onDirectory_ok {x : Call CacheDirectory α} (h : x e.directory = .ok a d) :
    onDirectory x e = .ok a { e with directory := d } := by
  unfold onDirectory
  rw [h]

theorem onDirectory_error {x : Call CacheDirectory α} (h : x e.directory = .error err d) :
    onDirectory x e = .error err { e with directory := d } := by
  unfold onDirectory
  rw [h]

/-- A slot that a call has just placed was free before. -/
theorem fresh_of_place {others : Multiset BlockHandle} (hi : d.Inv H others) (hr : e.directory.record key = some r)
    (hn : r.replica tier = none) {slot : Replica}
    (hr' : d.record = Function.update e.directory.record key (some r'))
    (hs' : r'.replica tier = some slot) : e.Fresh tier slot.location.slot := by
  intro k s slot' hk hs he
  have hkk : k ≠ key := by
    rintro rfl
    obtain rfl : r = s := Option.some.inj (hr.symm.trans hk)
    rw [hn] at hs
    cases hs
  have h₁ : d.record k = some s := by rwa [hr', Function.update_of_ne hkk]
  have h₂ : d.record key = some r' := by rw [hr', Function.update_self]
  exact hkk (hi.slot_key h₁ h₂ hs hs' he)

/-- A record is put back. -/
theorem update_back {record : CacheKey → Option ChunkRecord} {s s' : Option ChunkRecord}
    (hr : record key = some r) (hs : s = some r) :
    Function.update (Function.update record key s') key s = record := by
  rw [Function.update_idem, hs, ← hr, Function.update_eq_self]

/-- A transfer that is undone before it has a pin. -/
theorem revert_eq (hs : r.replica source = some ⟨ls, .READY⟩) (hd : r.replica destination = none)
    {a b : Option Replica} :
    (((r.setReplica source a).setReplica destination b).setReplica destination none).setReplica
      source (some ⟨ls, .READY⟩) = r := by
  refine ext_replica (by simp) (by simp) (by simp) (by simp) fun t => ?_
  by_cases ht : t = source
  · rw [ht]; simp [hs]
  · by_cases ht' : t = destination
    · rw [ht'] at ht ⊢; simp [ht, hd]
    · simp [ht, ht']

theorem revert_source_eq (hs : r.replica source = some ⟨ls, .READY⟩)
    (hd : r.replica destination = none) {a : Option Replica} :
    ((r.setReplica source a).setReplica destination none).setReplica source
      (some ⟨ls, .READY⟩) = r := by
  refine ext_replica (by simp) (by simp) (by simp) (by simp) fun t => ?_
  by_cases ht : t = source
  · rw [ht]; simp [hs]
  · by_cases ht' : t = destination
    · rw [ht'] at ht ⊢; simp [ht, hd]
    · simp [ht, ht']

theorem Fresh.not_orphan (hl : e.Inv H) (hf : e.Fresh tier i) : ⟨tier, i⟩ ∉ e.orphans := by
  intro ho
  obtain ⟨key, r, l, hr, ⟨state, hs, -⟩, hi, -⟩ := hl.locks.orphan _ ho
  exact hf key r _ hr hs hi

/-- A change of the memories and the directory outside the registered slots. -/
theorem Kept.of_cells (hc : ∀ t j, (∀ i, e.Fresh t i → j ≠ i) → e'.cell t j = e.cell t j)
    (hg : ∀ i, (e'.gpu i).length = (e.gpu i).length)
    (hcpu : ∀ i, (e'.cpu i).length = (e.cpu i).length) : Kept e e' :=
  ⟨fun key r _ tier slot _ hk hs _ _ _ => hc tier _ fun _ hf he => hf key r slot hk hs he, hg, hcpu⟩

theorem Kept.of_same (hg : e'.gpu = e.gpu) (hc : e'.cpu = e.cpu)
    (hf : e'.store.files = e.store.files) : Kept e e' := by
  refine .of_cells (fun t j _ => ?_) (fun i => by rw [hg]) fun i => by rw [hc]
  cases t
  · exact congrArg some (congrFun hg j)
  · exact congrArg some (congrFun hc j)
  · exact congrArg (AList.lookup j) hf

theorem length_overwrite (buffer bytes : Bytes) :
    (overwrite buffer bytes).length = buffer.length := by
  unfold overwrite
  rw [List.length_append, List.length_take, List.length_drop]
  omega

theorem overwrite_eq {buffer bytes : Bytes} (h : bytes.length = buffer.length) :
    overwrite buffer bytes = bytes := by
  unfold overwrite
  rw [← h, List.take_length, h, List.drop_length, List.append_nil]

theorem cell_setMem_of_ne {b : Bytes} {t : StorageTier} {j : ℕ} (h : t ≠ tier ∨ j ≠ i) :
    (e.setMem tier i b).cell t j = e.cell t j := by
  cases t <;> cases tier <;> simp_all [setMem, cell]

theorem setMem_gpu_length {b : Bytes} (h : b.length = (e.mem tier i).length) (j : ℕ) :
    ((e.setMem tier i b).gpu j).length = (e.gpu j).length := by
  cases tier with
  | GPU =>
    show (Function.update e.gpu i b j).length = _
    by_cases hj : j = i
    · rw [hj, Function.update_self]; exact h
    · rw [Function.update_of_ne hj]
  | CPU => rfl
  | NVME => rfl

theorem setMem_cpu_length {b : Bytes} (h : b.length = (e.mem tier i).length) (j : ℕ) :
    ((e.setMem tier i b).cpu j).length = (e.cpu j).length := by
  cases tier with
  | GPU => rfl
  | CPU =>
    show (Function.update e.cpu i b j).length = _
    by_cases hj : j = i
    · rw [hj, Function.update_self]; exact h
    · rw [Function.update_of_ne hj]
  | NVME => rfl

/-- Writing to a slot without a record. -/
theorem Kept.of_setMem {b : Bytes} (hf : e.Fresh tier i) (h : b.length = (e.mem tier i).length)
    (hg : e'.gpu = (e.setMem tier i b).gpu) (hc : e'.cpu = (e.setMem tier i b).cpu)
    (hs : e'.store.files = e.store.files) : Kept e e' := by
  have hcell : ∀ t j, e'.cell t j = (e.setMem tier i b).cell t j := by
    intro t j
    cases t
    · exact congrArg some (congrFun hg j)
    · exact congrArg some (congrFun hc j)
    · exact congrArg (AList.lookup j) hs
  refine .of_cells (fun t j hj => ?_) (fun j => ?_) fun j => ?_
  · rw [hcell]
    refine cell_setMem_of_ne ?_
    by_cases ht : t = tier
    · subst ht; exact .inr (hj i hf)
    · exact .inl ht
  · rw [hg]; exact setMem_gpu_length h j
  · rw [hc]; exact setMem_cpu_length h j

theorem setMem_self (e : Engine) (tier : StorageTier) (i : ℕ) :
    e.setMem tier i (e.mem tier i) = e := by
  cases tier <;> simp [setMem, mem]

/-- Nothing happened. -/
theorem Effect.nothing (hi : e.Inv H) : Effect H c e e :=
  .quiet hi.directory rfl le_rfl (.refl _) (.of_same rfl rfl rfl)

/-- Only the tiers changed. -/
theorem Effect.tiers (hi : d.Inv H 0) (hr : d.record = e.directory.record) :
    Effect H c e { e with directory := d } :=
  .quiet hi hr le_rfl (.refl _) (.of_same rfl rfl rfl)

/-! ## Directory calls of the client -/

theorem Effect.clientChange {op : DirOp} (hop : c = some (.directory op)) (hl : e.Inv H)
    (hi : d.Inv H 0) (hr : e.directory.record key = some r)
    (hr' : d.record = Function.update e.directory.record key (some r'))
    (hheld : ∀ tier l, r.Held tier l → r'.Held tier l) (hpin : r'.pinCount = r.pinCount)
    (hnew : ∀ tier slot, r'.replica tier = some slot →
      r.replica tier = some slot ∨ op = .place key tier slot.state) :
    Effect H c e { e with directory := d } := by
  have hc : ClientChange e.directory.record e.clientPins op d.record
      (Function.update e.clientPins key (e.clientPins key)) := by
    rw [hr']
    exact .change hr hheld (hl.locks.bound key) (by rw [hpin]) hnew
  rw [Function.update_eq_self] at hc
  exact .client hop hi hc

/-- A call that leaves the pins of the client alone. -/
theorem finalState_clientDirectory (op : DirOp) (hpin : ∀ key, op ≠ .pin key)
    (hunpin : ∀ key, op ≠ .unpin key) :
    finalState (clientDirectory op e) = finalState (onDirectory op.exec e) := by
  simp only [clientDirectory, bind_apply]
  cases onDirectory op.exec e with
  | error err e' => rfl
  | ok u e' =>
    cases op with
    | pin key => exact absurd rfl (hpin key)
    | unpin key => exact absurd rfl (hunpin key)
    | _ => rfl

theorem clientDirectory_effect (hl : e.Inv H) (op : DirOp) (hop : e.pinsOk op = true) :
    Effect H (some (.directory op)) e (finalState (clientDirectory op e)) := by
  have hcount : ∀ (key : CacheKey) (f : ChunkRecord → Except Exn ChunkRecord),
      (∀ r r', f r = .ok r' → (∀ t, r'.replica t = r.replica t) ∧ r'.pinCount = r.pinCount) →
      Effect H (some (.directory op)) e (finalState (onDirectory (CacheDirectory.count key f) e)) := by
    intro key f hf
    rcases CacheDirectory.count_cases hl.directory key f (fun r r' h => (hf r r' h).1) with
      ⟨-, hc⟩ | ⟨r, hr, ⟨er, -, hc⟩ | ⟨r', hfr, hc, hi⟩⟩
    · rw [onDirectory_error hc]; exact .nothing hl
    · rw [onDirectory_error hc]; exact .nothing hl
    · rw [onDirectory_ok hc]
      obtain ⟨hrep, hpin⟩ := hf r r' hfr
      exact .clientChange rfl hl hi hr (CacheDirectory.record_setRecord _ _ _)
        (fun t l hh => hh.congr (hrep t)) hpin fun t slot hs => .inl (by rw [← hrep t]; exact hs)
  cases op with
  | create key =>
    simp only [clientDirectory, DirOp.exec, bind_apply]
    rcases CacheDirectory.create_cases hl.directory key with ⟨-, hc⟩ | ⟨hn, hc, hi⟩
    · rw [onDirectory_error hc]; exact .nothing hl
    · rw [onDirectory_ok hc]
      refine .client rfl hi ?_
      rw [CacheDirectory.record_setRecord]
      exact .create hn
  | place key tier state =>
    have hx : finalState (clientDirectory (.place key tier state) e) =
        { e with directory := finalState (CacheDirectory.place key tier state e.directory) } := by
      simp only [clientDirectory, DirOp.exec, bind_apply, onDirectory, pure_apply]
      cases CacheDirectory.place key tier state e.directory <;> rfl
    rw [hx]
    rcases CacheDirectory.place_cases hl.directory key tier state with ⟨-, hc⟩ | ⟨r, hr, ⟨-, hc⟩ |
      ⟨hn, ⟨l, t', hc, hi⟩ | ⟨hc, -⟩ | ⟨er, t', hc, hi, -⟩⟩⟩
    · rw [hc]; exact .nothing hl
    · rw [hc]; exact .nothing hl
    · rw [hc]
      refine .clientChange rfl hl hi hr (CacheDirectory.record_setRecord _ _ _) (fun t l hh => ?_)
        (by simp) fun t slot hs => ?_
      · have ht : t ≠ tier := by rintro rfl; exact hh.isSome hn
        exact hh.congr (by simp [ht])
      · by_cases ht : t = tier
        · subst ht
          simp only [replica_setReplica, if_true, Option.some.injEq] at hs
          subst hs
          exact .inr rfl
        · simp only [replica_setReplica, if_neg ht] at hs
          exact .inl hs
    · rw [hc]; exact .nothing hl
    · rw [hc]; exact .tiers hi rfl
  | remove key tier =>
    simp only [clientDirectory, DirOp.exec, bind_apply]
    rcases CacheDirectory.remove_cases hl.directory key tier with ⟨-, hc⟩ | ⟨r, hr, ⟨-, hc⟩ |
      ⟨slot, hs, ⟨-, -, hc⟩ | ⟨hst, t', hc, hi⟩⟩⟩
    · rw [onDirectory_error hc]; exact .nothing hl
    · rw [onDirectory_error hc]; exact .nothing hl
    · rw [onDirectory_error hc]; exact .nothing hl
    · rw [onDirectory_ok hc]
      refine .clientChange rfl hl hi hr (CacheDirectory.record_setRecord _ _ _) (fun t l hh => ?_)
        (by simp) fun t slot' hs' => ?_
      · have ht : t ≠ tier := by
          rintro rfl
          obtain ⟨state, hs', h₁, h₂⟩ := hh
          rw [hs] at hs'
          cases hs'
          rcases hst with h | h
          · exact h₁ h
          · exact h₂ h
        exact hh.congr (by simp [ht])
      · by_cases ht : t = tier
        · subst ht; simp at hs'
        · simp only [replica_setReplica, if_neg ht] at hs'
          exact .inl hs'
  | setState => cases hop
  | addRef key =>
    have := hcount key (fun r => .ok { r with refCount := (r.refCount + 1) % 2 ^ 64 })
      (by rintro r _ ⟨⟩; exact ⟨fun t => by cases t <;> rfl, rfl⟩)
    rw [finalState_clientDirectory _ (by simp) (by simp)]
    exact this
  | releaseRef key =>
    have := hcount key (fun r => if r.refCount = 0 then
        .error (.logicError "reference count already zero")
      else .ok { r with refCount := r.refCount - 1 })
      (by
        intro r r' hf
        split_ifs at hf
        cases hf
        exact ⟨fun t => by cases t <;> rfl, rfl⟩)
    rw [finalState_clientDirectory _ (by simp) (by simp)]
    exact this
  | bumpVersion key =>
    have := hcount key (fun r => .ok { r with version := (r.version + 1) % 2 ^ 64 })
      (by rintro r _ ⟨⟩; exact ⟨fun t => by cases t <;> rfl, rfl⟩)
    rw [finalState_clientDirectory _ (by simp) (by simp)]
    exact this
  | pin key =>
    simp only [clientDirectory, DirOp.exec, bind_apply]
    have hbound : e.clientPins key + 2 < 2 ^ 64 := by simpa [pinsOk] using hop
    cases hr : e.directory.record key with
    | none =>
      have hc : CacheDirectory.pin key e.directory = .error CacheDirectory.unknownKey e.directory := by
        unfold CacheDirectory.pin CacheDirectory.count
        rw [CacheDirectory.lookup_error hr]
      rw [onDirectory_error hc]
      exact .nothing hl
    | some r =>
      have hle : r.pinCount ≤ e.clientPins key + 1 := by
        rcases hl.locks.counted key r hr with h | ⟨h, -⟩ <;> omega
      obtain ⟨d, hc, hi, -, hr'⟩ := CacheDirectory.pin_run hl.directory hr (by omega)
      rw [onDirectory_ok hc]
      have hchange : ClientChange e.directory.record e.clientPins (.pin key) d.record
          (Function.update e.clientPins key (e.clientPins key + 1)) := by
        rw [hr']
        refine .change hr (fun t l hh => hh.congr (by simp)) (by omega) ?_ fun t slot hs => ?_
        · rw [setPins_pinCount]; omega
        · rw [replica_setPins] at hs; exact .inl hs
      exact .client rfl hi hchange
  | unpin key =>
    simp only [clientDirectory, DirOp.exec, bind_apply]
    have hpos : 0 < e.clientPins key := by simpa [pinsOk] using hop
    cases hr : e.directory.record key with
    | none =>
      have := hl.locks.absent key hr
      omega
    | some r =>
      have hle : e.clientPins key ≤ r.pinCount := by
        rcases hl.locks.counted key r hr with h | ⟨h, -⟩ <;> omega
      have hbound := hl.locks.bound key
      obtain ⟨d, hc, hi, -, hr'⟩ := CacheDirectory.unpin_run hl.directory hr (by omega)
      rw [onDirectory_ok hc]
      have hchange : ClientChange e.directory.record e.clientPins (.unpin key) d.record
          (Function.update e.clientPins key (e.clientPins key - 1)) := by
        rw [hr']
        refine .change hr (fun t l hh => hh.congr (by simp)) (by omega) ?_ fun t slot hs => ?_
        · rw [setPins_pinCount]; omega
        · rw [replica_setPins] at hs; exact .inl hs
      exact .client rfl hi hchange
  | destroy key =>
    simp only [clientDirectory, DirOp.exec, bind_apply]
    rcases CacheDirectory.destroy_cases hl.directory key with ⟨er, hc⟩ | ⟨r, hr, hnone, -, hpin, hc, hi⟩
    · rw [onDirectory_error hc]; exact .nothing hl
    · rw [onDirectory_ok hc]
      refine .client rfl hi ?_
      rw [CacheDirectory.record_erase]
      exact .destroy hr hnone hpin

/-! ## Copies -/

theorem submitCopy_cases (tier : StorageTier) (i : ℕ) (fault : CopyFault) :
    submitCopy tier i fault e = .ok () e ∨
    (∃ err, submitCopy tier i fault e = .error err e) ∨
    (∃ err, submitCopy tier i fault e =
      .error err { e with orphans := ⟨tier, i⟩ :: e.orphans }) := by
  simp only [submitCopy, bind_apply, ensure, modify_apply]
  by_cases h₁ : fault.eventCreate = false
  · by_cases h₂ : fault.memcpy = false
    · by_cases h₃ : fault.eventRecord = false
      · left; simp [h₁, h₂, h₃]
      · right; right; exact ⟨.runtimeError "cudaEventRecord", by simp [h₁, h₂, h₃]⟩
    · right; right; exact ⟨.runtimeError "cudaMemcpyAsync", by simp [h₁, h₂]⟩
  · right; left; exact ⟨.runtimeError "cudaEventCreateWithFlags", by simp [h₁]⟩

/-- Without a copy to wait for. -/
theorem synchronize_none (tier : StorageTier) (fault : CopyFault) :
    synchronize tier none fault e = .ok () e ∨
    (∃ err, synchronize tier none fault e = .error err e) := by
  simp only [synchronize, bind_apply, ensure]
  by_cases h : fault.syncOk = true
  · left; simp [h]
  · right; exact ⟨.runtimeError "cudaStreamSynchronize", by simp [h]⟩

/-- After `synchronize` the copy no longer runs. -/
theorem synchronize_cases {orphans : List Orphan} (fault : CopyFault)
    (ho : e.orphans = orphans ∨ e.orphans = ⟨tier, i⟩ :: orphans) (hn : ⟨tier, i⟩ ∉ orphans) :
    (∃ err, synchronize tier (some i) fault e = .error err e) ∨
    (∃ b, b.length = (e.mem tier i).length ∧ synchronize tier (some i) fault e =
      .ok () { e.setMem tier i b with orphans := orphans }) := by
  simp only [synchronize, bind_apply, ensure, modify_apply]
  by_cases h : fault.syncOk = true
  · right
    rw [if_pos h]
    rcases ho with ho | ho
    · refine ⟨e.mem tier i, rfl, ?_⟩
      simp only [setMem_self]
      rw [if_neg (ho ▸ hn), ← ho]
    · refine ⟨overwrite (e.mem tier i) fault.garbage, length_overwrite _ _, ?_⟩
      have hmem : (⟨tier, i⟩ : Orphan) ∈ e.orphans := ho ▸ List.mem_cons_self
      have herase : e.orphans.erase ⟨tier, i⟩ = orphans := by rw [ho, List.erase_cons_head]
      simp only
      rw [if_pos hmem, herase]
  · left; exact ⟨.runtimeError "cudaStreamSynchronize", by rw [if_neg h]⟩

/-! ## submit -/

theorem direct_ne (h : direct source destination = true) : source ≠ destination := by
  rintro rfl
  cases source <;> cases h

theorem inferSource_ready (h : inferSource r destination = .ok (some source)) :
    direct source destination = true ∧ (r.replica source).map Replica.state = some .READY := by
  simp only [inferSource, List.foldl_cons, List.foldl_nil] at h
  split_ifs at h <;> simp_all

/-- The state of the destination of a task. -/
def taskState (destination : StorageTier) : ChunkState :=
  if destination = .GPU then .LOADING else .COPYING

theorem taskState_held (destination : StorageTier) :
    taskState destination ≠ .READY ∧ taskState destination ≠ .ERROR := by
  cases destination <;> decide

theorem startTask_cases (hi : e.directory.Inv H 0) {t : Task}
    (hr : e.directory.record t.key = some r) (hn : r.replica t.destination = none)
    (hbound : r.pinCount + 1 < 2 ^ 64) (hstate : t.state = .QUEUED) (fault : CopyFault) :
    (∃ err d, startTask t fault e = .error err { e with directory := d } ∧ d.Inv H 0 ∧
      d.record = e.directory.record) ∨
    (∃ d l, d.Inv H 0 ∧ d.record = Function.update e.directory.record t.key
        (some ((r.setReplica t.destination (some ⟨l, taskState t.destination⟩)).setPins
          (r.pinCount + 1))) ∧
      ((∃ err orphans, startTask t fault e =
          .error err { e with directory := d, orphans := orphans } ∧
        (orphans = e.orphans ∨ orphans = ⟨t.destination, l.slot⟩ :: e.orphans)) ∨
       startTask t fault e = .ok
        { t with destinationLoc := l, state := if t.usesCuda then .RUNNING else .QUEUED }
        { e with
          directory := d
          ioQueue := if t.usesCuda then e.ioQueue else e.ioQueue ++ [t.id] })) := by
  simp only [startTask, bind_apply]
  rcases CacheDirectory.place_run hi hr hn (taskState t.destination) with
    ⟨l, d₁, h₁, hi₁, hr₁⟩ | ⟨err, d, h₁, hi₁, hr₁⟩
  · right
    obtain ⟨d, h₂, hi₂, -, hr₂⟩ := CacheDirectory.pin_run hi₁ (by rw [hr₁, Function.update_self])
      (by simpa using hbound)
    refine ⟨d, l, hi₂, by rw [hr₂, hr₁, Function.update_idem, setReplica_pinCount], ?_⟩
    have hp : onDirectory (CacheDirectory.place t.key t.destination
        (if t.destination = .GPU then .LOADING else .COPYING)) e = .ok l { e with directory := d₁ } :=
      onDirectory_ok h₁
    have hpin : onDirectory (CacheDirectory.pin t.key) { e with directory := d₁ } =
        .ok () { e with directory := d } :=
      onDirectory_ok h₂
    rw [hp]
    simp only
    rw [hpin]
    simp only
    cases hc : t.usesCuda with
    | false =>
      right
      have : (Task.usesCuda { t with destinationLoc := l }) = false := hc
      simp only [this, Bool.false_eq_true, if_false, bind_apply, modify_apply, pure_apply]
      rw [hstate]
    | true =>
      have : (Task.usesCuda { t with destinationLoc := l }) = true := hc
      simp only [this, if_true, bind_apply, get_apply]
      cases hb₁ : buffer { e with directory := d } t.destination l.slot with
      | error err => left; exact ⟨err, e.orphans, by simp, .inl rfl⟩
      | ok _ =>
        cases hb₂ : buffer { e with directory := d } t.source t.sourceLoc.slot with
        | error err => left; exact ⟨err, e.orphans, by simp, .inl rfl⟩
        | ok _ =>
          simp only [check_ok]
          rcases @submitCopy_cases { e with directory := d } t.destination l.slot fault with
            h | ⟨err, h⟩ | ⟨err, h⟩
          · right; simp only [h, pure_apply]
          · left; exact ⟨err, e.orphans, by simp only [h], .inl rfl⟩
          · left; exact ⟨err, _, by simp only [h], .inr rfl⟩
  · left
    refine ⟨err, d, ?_, hi₁, hr₁⟩
    have hp : onDirectory (CacheDirectory.place t.key t.destination
        (if t.destination = .GPU then .LOADING else .COPYING)) e =
        .error err { e with directory := d } :=
      onDirectory_error h₁
    rw [hp]

/-- `rollback_submit` without a destination. -/
theorem rollbackSubmit_none (hi : e.directory.Inv H 0) (hr : e.directory.record key = some r)
    {ss : ChunkState} (hs : r.replica source = some ⟨ls, ss⟩) (hn : r.replica destination = none)
    (fault : CopyFault) :
    (∃ err, rollbackSubmit key source destination fault e = .error err e) ∨
    (∃ d, rollbackSubmit key source destination fault e = .ok () { e with directory := d } ∧
      d.Inv H 0 ∧ d.record = Function.update e.directory.record key
        (some (r.setReplica source (some ⟨ls, .READY⟩)))) := by
  simp only [rollbackSubmit, bind_apply, get_apply, CacheDirectory.lookup_record hr, check_ok, hn,
    Option.map_none, Option.isSome_none, Bool.false_eq_true, if_false]
  rcases @synchronize_none e destination fault with h | ⟨err, h⟩
  · right
    obtain ⟨d, h₁, hi₁, -, hr₁⟩ := CacheDirectory.setState_run hi hr hs .READY
    refine ⟨d, ?_, hi₁, hr₁⟩
    rw [h]
    exact onDirectory_ok h₁
  · left; exact ⟨err, by rw [h]⟩

/-- `rollback_submit` with a destination. -/
theorem rollbackSubmit_placed (hi : e.directory.Inv H 0) (hr : e.directory.record key = some r)
    {ss sd : ChunkState} (hs : r.replica source = some ⟨ls, ss⟩)
    (hd : r.replica destination = some ⟨ld, sd⟩) (hne : source ≠ destination)
    (hpos : 0 < r.pinCount) {orphans : List Orphan} (fault : CopyFault)
    (ho : e.orphans = orphans ∨ e.orphans = ⟨destination, ld.slot⟩ :: orphans)
    (hn : ⟨destination, ld.slot⟩ ∉ orphans) :
    (∃ err, rollbackSubmit key source destination fault e = .error err e) ∨
    (∃ d b, b.length = (e.mem destination ld.slot).length ∧
      rollbackSubmit key source destination fault e =
        .ok () { e.setMem destination ld.slot b with directory := d, orphans := orphans } ∧
      d.Inv H 0 ∧ d.record = Function.update e.directory.record key
        (some (((r.setReplica destination none).setReplica source (some ⟨ls, .READY⟩)).setPins
          (r.pinCount - 1)))) := by
  simp only [rollbackSubmit, bind_apply, get_apply, CacheDirectory.lookup_record hr, check_ok, hd,
    Option.map_some, Option.isSome_some, if_true]
  rcases synchronize_cases fault ho hn with ⟨err, h⟩ | ⟨b, hb, h⟩
  · left; exact ⟨err, by rw [h]⟩
  · right
    obtain ⟨d, h₁, hi₁, hr₁⟩ := CacheDirectory.rollback_run hi hr hs hd hne hpos
    refine ⟨d, b, hb, ?_, hi₁, hr₁⟩
    rw [h]
    exact onDirectory_ok h₁

theorem submit_effect (hl : e.Inv H) (validTokens : UInt64) (priority : ℤ) (fault : CopyFault) :
    Effect H c e (finalState (submit key destination validTokens priority fault e)) := by
  simp only [submit, bind_apply, get_apply]
  cases hr : e.directory.record key with
  | none => rw [CacheDirectory.lookup_error hr]; exact .nothing hl
  | some r =>
    rw [CacheDirectory.lookup_record hr]
    simp only [check_ok]
    cases hf : inferSource r destination with
    | error err => exact .nothing hl
    | ok found =>
      simp only [check_ok]
      cases hfound : found.bind fun source =>
        (r.replica source).map fun slot => (source, slot.location) with
      | none => exact .nothing hl
      | some p =>
        obtain ⟨source, rfl, hp⟩ := Option.bind_eq_some_iff.mp hfound
        obtain ⟨slot, hslot, rfl⟩ := Option.map_eq_some_iff.mp hp
        obtain ⟨hdirect, hready⟩ := inferSource_ready hf
        have hs : r.replica source = some ⟨slot.location, .READY⟩ := by
          rw [hslot] at hready ⊢
          cases slot
          cases hready
          rfl
        by_cases hn : (r.replica destination).isNone
        swap
        · simp only [bind_apply, ensure, if_neg hn]; exact .nothing hl
        simp only [bind_apply, ensure, if_pos hn, if_pos hdirect, modify_apply]
        rw [Option.isNone_iff_eq_none] at hn
        have hne := direct_ne hdirect
        obtain ⟨hstill, hpins⟩ := hl.locks.still hr (two_held_ready hs hn hne)
        have hbound := hl.locks.bound key
        -- the source is held from here on
        obtain ⟨d₁, h₁, hi₁, -, hr₁⟩ := CacheDirectory.setState_run hl.directory hr hslot .COPYING
        have hset : onDirectory (CacheDirectory.setState key source .COPYING)
            { e with nextId := e.nextId + 1 } =
            .ok () { e with nextId := e.nextId + 1, directory := d₁ } :=
          onDirectory_ok h₁
        rw [hset]
        simp only [onError]
        have hr₁' : d₁.record key = some (r.setReplica source (some ⟨slot.location, .COPYING⟩)) := by
          rw [hr₁, Function.update_self]
        rcases @startTask_cases H { e with nextId := e.nextId + 1, directory := d₁ } _ hi₁
            { id := e.nextId, key := key, source := source, destination := destination,
              priority := priority, sourceLoc := slot.location, destinationLoc := ⟨0, 0⟩,
              fileMeta := makeFileMeta key validTokens (UInt64.ofNat e.chunkBytes) } hr₁'
            ((replica_setReplica_of_ne hne.symm).trans hn)
            (by rw [setReplica_pinCount]; omega) rfl fault with
          ⟨err, d, h, hi, hrec⟩ | ⟨d, l, hi, hrec, ⟨err, orphans, h, ho⟩ | h⟩
        · -- the destination could not be placed
          rw [h]
          simp only at hrec
          rcases @rollbackSubmit_none H { e with nextId := e.nextId + 1, directory := d } key _
              source destination slot.location hi (by rw [hrec]; exact hr₁') .COPYING
              (replica_setReplica_self _ _ _) ((replica_setReplica_of_ne hne.symm).trans hn) fault with
            ⟨err', hb⟩ | ⟨d', hb, hi', hrec'⟩
          · simp only [hb]
            refine .abandon hi (Nat.le_succ _) hr hs hn hne (by rw [hrec, hr₁])
              (.inl (setReplica_pinCount _ _ _)) (fun b hb => .inl hb) fun t l ht => ?_
            by_cases h : t = source
            · subst h; rw [replica_setReplica_self] at ht; cases ht
            · rwa [replica_setReplica_of_ne h] at ht
          · simp only [hb]
            refine .quiet hi' ?_ (Nat.le_succ _) (.refl _) (.of_same rfl rfl rfl)
            rw [hrec', hrec, hr₁]
            refine update_back hr ?_
            refine congrArg some (ext_replica (by simp) (by simp) (by simp) (by simp) fun t => ?_)
            by_cases h : t = source
            · simp [h, hs]
            · simp [h]
        all_goals
          simp only at hrec
          rw [hr₁, Function.update_idem] at hrec
          rw [setReplica_pinCount] at hrec
          have hrec : d.record = Function.update e.directory.record key
              (some (r.moving ⟨key, source, slot.location, destination, l⟩ (taskState destination)
                (r.pinCount + 1))) := hrec
          obtain ⟨hready', herror'⟩ := taskState_held destination
        · -- the copy could not be submitted
          rw [h]
          have hfresh : e.Fresh destination l.slot := fresh_of_place hi hr hn hrec moving_destination
          rcases @rollbackSubmit_placed H
              { e with nextId := e.nextId + 1, directory := d, orphans := orphans } key _ source
              destination slot.location l hi (by rw [hrec, Function.update_self]) .COPYING
              (taskState destination) (moving_source hne) moving_destination hne (Nat.succ_pos _)
              e.orphans fault ho (hfresh.not_orphan hl) with
            ⟨err', hb⟩ | ⟨d', b, hlen, hb, hi', hrec'⟩
          · simp only [hb]
            refine .abandon hi (Nat.le_succ _) hr hs hn hne hrec
              (.inr ⟨rfl, moving_two hne hready' herror'⟩) (fun b hb => ?_)
              fun t l' => moving_ready hready'
            rcases ho with rfl | rfl
            · exact .inl hb
            · rcases List.mem_cons.mp hb with rfl | hb
              · exact .inr ⟨moving_two hne hready' herror', l, (moving_held hne hready' herror').2, rfl⟩
              · exact .inl hb
          · simp only [hb]
            refine .quiet hi' ?_ (Nat.le_succ _) (.refl _) (.of_setMem hfresh hlen rfl rfl rfl)
            rw [hrec', hrec]
            exact update_back hr (congrArg some (moving_back hs hn))
        · -- the task is on its way
          rw [h]
          exact .submit
            (t :=
              { id := e.nextId, key := key, source := source, destination := destination,
                priority := priority, sourceLoc := slot.location, destinationLoc := l,
                fileMeta := makeFileMeta key validTokens (UInt64.ofNat e.chunkBytes),
                state := if decide (source = .GPU ∨ destination = .GPU) then .RUNNING else .QUEUED })
            hi ⟨hr, hs, hn, hne, hrec, (moving_held hne hready' herror').1,
              (moving_held hne hready' herror').2, rfl, fun t => moving_other⟩ rfl hdirect rfl rfl rfl
            rfl rfl

/-! ## GpuCpuTransfer -/

theorem beginCopy_cases (hi : e.directory.Inv H 0) (hr : e.directory.record key = some r)
    (hn : r.replica destination = none) (fault : CopyFault) :
    (∃ err d, beginCopy key source ls destination fault e = .error err { e with directory := d } ∧
      d.Inv H 0 ∧ d.record = e.directory.record) ∨
    (∃ d l, d.Inv H 0 ∧ d.record = Function.update e.directory.record key
        (some (r.setReplica destination (some ⟨l, taskState destination⟩))) ∧
      ((∃ err orphans, beginCopy key source ls destination fault e =
          .error err { e with directory := d, orphans := orphans } ∧
        (orphans = e.orphans ∨ orphans = ⟨destination, l.slot⟩ :: e.orphans)) ∨
       beginCopy key source ls destination fault e = .ok l { e with directory := d })) := by
  simp only [beginCopy, bind_apply]
  rcases CacheDirectory.place_run hi hr hn (taskState destination) with
    ⟨l, d, h₁, hi₁, hr₁⟩ | ⟨err, d, h₁, hi₁, hr₁⟩
  · right
    refine ⟨d, l, hi₁, hr₁, ?_⟩
    have hp : onDirectory (CacheDirectory.place key destination
        (if destination = .GPU then .LOADING else .COPYING)) e = .ok l { e with directory := d } :=
      onDirectory_ok h₁
    rw [hp]
    simp only [ensure, get_apply]
    by_cases hev : fault.eventCreate = false
    swap
    · left
      exact ⟨.runtimeError "cudaEventCreateWithFlags", e.orphans, by rw [if_neg hev], .inl rfl⟩
    rw [if_pos hev]
    cases hb₁ : buffer { e with directory := d } destination l.slot with
    | error err => left; exact ⟨err, e.orphans, by simp only [hb₁, check_error], .inl rfl⟩
    | ok _ =>
      cases hb₂ : buffer { e with directory := d } source ls.slot with
      | error err => left; exact ⟨err, e.orphans, by simp only [hb₁, hb₂, check_ok, check_error], .inl rfl⟩
      | ok _ =>
        simp only [hb₁, hb₂, check_ok]
        rcases @submitCopy_cases { e with directory := d } destination l.slot fault with
          h | ⟨err, h⟩ | ⟨err, h⟩
        · right; simp only [h, pure_apply]
        · left; exact ⟨err, e.orphans, by simp only [h], .inl rfl⟩
        · left; exact ⟨err, _, by simp only [h], .inr rfl⟩
  · left
    refine ⟨err, d, ?_, hi₁, hr₁⟩
    have hp : onDirectory (CacheDirectory.place key destination
        (if destination = .GPU then .LOADING else .COPYING)) e =
        .error err { e with directory := d } :=
      onDirectory_error h₁
    rw [hp]

/-- The clean-up of a transfer whose record still has the source. -/
theorem rollbackBegin_cases (hi : e.directory.Inv H 0) (hr : e.directory.record key = some r)
    {ss : ChunkState} (hs : r.replica source = some ⟨ls, ss⟩) (hne : source ≠ destination)
    {orphans : List Orphan} (fault : CopyFault)
    (ho : match r.replica destination with
      | none => e.orphans = orphans
      | some slot => (e.orphans = orphans ∨
          e.orphans = ⟨destination, slot.location.slot⟩ :: orphans) ∧
        ⟨destination, slot.location.slot⟩ ∉ orphans) :
    (∃ err, rollbackBegin key source destination fault e = .error err e) ∨
    (∃ d e', rollbackBegin key source destination fault e = .ok () { e' with directory := d } ∧
      d.Inv H 0 ∧ d.record = Function.update e.directory.record key
        (some ((r.setReplica destination none).setReplica source (some ⟨ls, .READY⟩))) ∧
      match r.replica destination with
      | none => e' = e
      | some slot => ∃ b, b.length = (e.mem destination slot.location.slot).length ∧
        e' = { e.setMem destination slot.location.slot b with orphans := orphans }) := by
  obtain ⟨d, h₁, hi₁, hr₁⟩ := CacheDirectory.revert_run hi hr hs hne
  cases hd : r.replica destination with
  | none =>
    rw [hd] at h₁ ho
    simp only [rollbackBegin, bind_apply, get_apply, CacheDirectory.lookup_record hr, check_ok, hd,
      Option.map_none]
    rcases @synchronize_none e destination fault with h | ⟨err, h⟩
    · right
      exact ⟨d, e, by rw [h]; exact onDirectory_ok h₁, hi₁, hr₁, rfl⟩
    · left; exact ⟨err, by rw [h]⟩
  | some slot =>
    rw [hd] at h₁ ho
    simp only [rollbackBegin, bind_apply, get_apply, CacheDirectory.lookup_record hr, check_ok, hd,
      Option.map_some]
    rcases synchronize_cases fault ho.1 ho.2 with ⟨err, h⟩ | ⟨b, hb, h⟩
    · left; exact ⟨err, by rw [h]⟩
    · right
      exact ⟨d, _, by rw [h]; exact onDirectory_ok h₁, hi₁, hr₁, b, hb, rfl⟩

theorem beginTransfer_effect (hl : e.Inv H) (offload : Bool) (fault : CopyFault) :
    Effect H c e (finalState (beginTransfer offload key fault e)) := by
  have hne : (if offload = true then StorageTier.GPU else .CPU) ≠
      (if offload = true then StorageTier.CPU else .GPU) := by
    cases offload <;> decide
  simp only [beginTransfer, bind_apply, get_apply]
  generalize hsource : (if offload = true then StorageTier.GPU else .CPU) = source at hne ⊢
  generalize hdestination : (if offload = true then StorageTier.CPU else .GPU) = destination
    at hne ⊢
  by_cases hp : (e.pending key).isNone
  swap
  · simp only [ensure, if_neg hp]; exact .nothing hl
  simp only [ensure, if_pos hp]
  cases hr : e.directory.record key with
  | none => rw [CacheDirectory.lookup_error hr]; exact .nothing hl
  | some r =>
    rw [CacheDirectory.lookup_record hr]
    simp only [check_ok]
    rcases hs : r.replica source with _ | ⟨ls, state⟩
    · exact .nothing hl
    by_cases hready : state = .READY
    swap
    · cases state <;> first | exact absurd rfl hready | exact .nothing hl
    subst hready
    by_cases hn : (r.replica destination).isNone
    swap
    · simp only [bind_apply, ensure, if_neg hn]; exact .nothing hl
    simp only [bind_apply, ensure, if_pos hn]
    rw [Option.isNone_iff_eq_none] at hn hp
    obtain ⟨hstill, hpins⟩ := hl.locks.still hr (two_held_ready hs hn hne)
    have hbound := hl.locks.bound key
    obtain ⟨d₁, h₁, hi₁, -, hr₁⟩ := CacheDirectory.setState_run hl.directory hr hs .COPYING
    rw [onDirectory_ok h₁]
    simp only [onError]
    have hr₁' : d₁.record key = some (r.setReplica source (some ⟨ls, .COPYING⟩)) := by
      rw [hr₁, Function.update_self]
    have hn₁ : (r.setReplica source (some ⟨ls, .COPYING⟩)).replica destination = none :=
      (replica_setReplica_of_ne hne.symm).trans hn
    rcases @beginCopy_cases H { e with directory := d₁ } key _ source destination ls hi₁ hr₁' hn₁
        fault with ⟨err, d, h, hi, hrec⟩ | ⟨d, l, hi, hrec, ⟨err, orphans, h, ho⟩ | h⟩
    · -- the destination could not be placed
      rw [h]
      simp only at hrec
      rcases @rollbackBegin_cases H { e with directory := d } key _ source destination ls hi
          (by rw [hrec]; exact hr₁') .COPYING (replica_setReplica_self _ _ _) hne e.orphans fault
          (by rw [hn₁]) with ⟨err', hb⟩ | ⟨d', e', hb, hi', hrec', he'⟩
      · simp only [hb]
        have : Effect H c e { e with directory := d, nextId := e.nextId, orphans := e.orphans } := by
          refine .abandon hi le_rfl hr hs hn hne (by rw [hrec, hr₁])
            (.inl (setReplica_pinCount _ _ _)) (fun b hb => .inl hb) fun t l ht => ?_
          by_cases h : t = source
          · subst h; rw [replica_setReplica_self] at ht; cases ht
          · rwa [replica_setReplica_of_ne h] at ht
        exact this
      · rw [hn₁] at he'
        subst he'
        simp only [hb]
        refine .tiers hi' ?_
        rw [hrec', hrec, hr₁]
        exact update_back hr (congrArg some (revert_source_eq hs hn))
    all_goals
      simp only at hrec
      rw [hr₁, Function.update_idem] at hrec
      have hrec : d.record = Function.update e.directory.record key
          (some (r.moving ⟨key, source, ls, destination, l⟩ (taskState destination) r.pinCount)) := by
        rw [hrec]
        exact congrArg _ (congrArg some (ext_replica (by simp [moving]) (by simp [moving])
          (by simp [moving]) (by simp [moving]) fun t => by simp [moving]))
      obtain ⟨hready', herror'⟩ := taskState_held destination
      have hd : (r.moving ⟨key, source, ls, destination, l⟩ (taskState destination)
          r.pinCount).replica destination = some ⟨l, taskState destination⟩ := moving_destination
    · -- the copy could not be submitted
      rw [h]
      have hfresh : e.Fresh destination l.slot := fresh_of_place hi hr hn hrec hd
      rcases @rollbackBegin_cases H { e with directory := d, orphans := orphans } key _ source
          destination ls hi (by rw [hrec, Function.update_self]) .COPYING (moving_source hne) hne
          e.orphans fault (by rw [hd]; exact ⟨ho, hfresh.not_orphan hl⟩) with
        ⟨err', hb⟩ | ⟨d', e', hb, hi', hrec', he'⟩
      · simp only [hb]
        have : Effect H c e { e with directory := d, nextId := e.nextId, orphans := orphans } := by
          refine .abandon hi le_rfl hr hs hn hne hrec (.inl rfl) (fun b hb => ?_)
            fun t l' => moving_ready hready'
          rcases ho with rfl | rfl
          · exact .inl hb
          · rcases List.mem_cons.mp hb with rfl | hb
            · exact .inr ⟨moving_two hne hready' herror', l, (moving_held hne hready' herror').2, rfl⟩
            · exact .inl hb
        exact this
      · rw [hd] at he'
        obtain ⟨b, hlen, rfl⟩ := he'
        simp only [hb]
        refine .quiet hi' ?_ le_rfl (.refl _) (.of_setMem hfresh hlen rfl rfl rfl)
        rw [hrec', hrec]
        have hback := @moving_back r ⟨key, source, ls, destination, l⟩ (taskState destination)
          r.pinCount hs hn
        refine update_back hr (congrArg some ?_)
        refine Eq.trans (ext_replica (by simp) (by simp) (by simp) ?_ fun t => by simp) hback
        simp [moving]
    · -- the copy is on its way
      rw [h]
      have hrm : d.record key = some (r.moving ⟨key, source, ls, destination, l⟩
          (taskState destination) r.pinCount) := by
        rw [hrec, Function.update_self]
      obtain ⟨d₂, h₂, hi₂, -, hr₂⟩ := CacheDirectory.pin_run hi hrm
        (show r.pinCount + 1 < 2 ^ 64 by omega)
      have hpin : onDirectory (CacheDirectory.pin key) { e with directory := d } =
          .ok () { e with directory := d₂ } :=
        onDirectory_ok h₂
      simp only [hpin]
      rw [hrec, Function.update_idem] at hr₂
      subst hsource hdestination
      exact .beginTransfer (p := { source := ls, destination := l, offload := offload }) hi₂
        ⟨hr, hs, hn, hne, hr₂, (moving_held hne hready' herror').1,
          (moving_held hne hready' herror').2, rfl, fun t => moving_other⟩ hp rfl

theorem finishReached_effect (hl : e.Inv H) {p : Pending} (hp : e.pending key = some p)
    {reached : Except Exn Unit} (hreached : p.copy.eventSynchronize = some reached)
    (releaseSource destroyed : Bool) :
    Effect H c e (finalState (finishReached p.offload key releaseSource p reached destroyed e)) := by
  cases reached with
  | error err => exact .nothing hl
  | ok _ =>
    have hc : p.copy = .done := CopyState.eventSynchronize_ok.mp hreached
    simp only [finishReached, bind_apply, check_ok, ensure]
    by_cases hd : destroyed = true
    swap
    · rw [if_neg hd]; exact .nothing hl
    have hm : e.move (.transfer key) = some (p.move key) := by
      show (e.pending key).map _ = _
      rw [hp]
      rfl
    have hne := hl.locks.tiers_ne _ _ hm
    obtain ⟨r, hr, ⟨ss, hs, -⟩, ⟨sd, hds, -⟩, hpin⟩ := hl.locks.held _ _ hm
    have hr : e.directory.record key = some r := hr
    simp only [if_pos hd, modify_apply, get_apply, CacheDirectory.lookup_record hr, check_ok]
    have hs' : r.replica (if p.offload = true then StorageTier.GPU else .CPU) = some ⟨p.source, ss⟩ := hs
    have hds' : r.replica (if p.offload = true then StorageTier.CPU else .GPU) =
        some ⟨p.destination, sd⟩ := hds
    rw [hs', hds']
    simp only [Option.map_some, and_self, if_true]
    obtain ⟨d₁, h₁, hi₁, -, hr₁⟩ := CacheDirectory.complete_run hl.directory hr hs' hds' hne (by omega)
    have hready : onDirectory (do
          CacheDirectory.setState key (if p.offload = true then StorageTier.CPU else .GPU) .READY
          CacheDirectory.setState key (if p.offload = true then StorageTier.GPU else .CPU) .READY
          CacheDirectory.unpin key)
        { e with pending := Function.update e.pending key none } =
        .ok () { e with pending := Function.update e.pending key none, directory := d₁ } :=
      onDirectory_ok h₁
    rw [hready]
    simp only
    cases releaseSource with
    | false =>
      exact .finishTransfer hp hc hi₁ hr hr₁ (by rw [setPins_pinCount]; omega) fun t slot h => h
    | true =>
      have hr₁' : d₁.record key = some (r.completed (p.move key)) := by
        rw [hr₁, Function.update_self]
        rfl
      have hsrc : (r.completed (p.move key)).replica
          (if p.offload = true then StorageTier.GPU else .CPU) = some ⟨p.source, .READY⟩ :=
        (replica_setPins _ _ _).trans (replica_setReplica_self _ _ _)
      obtain ⟨d₂, h₂, hi₂, -, hr₂⟩ := CacheDirectory.remove_run hi₁ hr₁' hsrc (.inl rfl)
      have hremove : onDirectory (CacheDirectory.remove key
            (if p.offload = true then StorageTier.GPU else .CPU))
          { e with pending := Function.update e.pending key none, directory := d₁ } =
          .ok () { e with pending := Function.update e.pending key none, directory := d₂ } :=
        onDirectory_ok h₂
      simp only [if_true, hremove]
      refine .finishTransfer hp hc hi₂ hr (by rw [hr₂, hr₁, Function.update_idem]) ?_
        fun t slot h => ?_
      · rw [setReplica_pinCount]
        show r.pinCount - 1 + 1 = r.pinCount
        omega
      · by_cases ht : t = if p.offload = true then StorageTier.GPU else .CPU
        · rw [ht, replica_setReplica_self] at h; cases h
        · rwa [replica_setReplica_of_ne ht] at h

theorem finishTransfer_effect (hl : e.Inv H) (offload releaseSource destroyed : Bool)
    {res : EStateM.Result Exn Engine Unit}
    (h : finishTransfer offload key releaseSource destroyed e = some res) :
    Effect H c e (finalState res) := by
  unfold finishTransfer at h
  cases hp : e.pending key with
  | none =>
    rw [hp] at h
    cases h
    exact .nothing hl
  | some p =>
    rw [hp] at h
    simp only at h
    split_ifs at h with ho
    · subst ho
      obtain ⟨reached, hreached, rfl⟩ := Option.map_eq_some_iff.mp h
      exact finishReached_effect hl hp hreached releaseSource destroyed
    · cases h
      exact .nothing hl

/-! ## The ends of a task -/

theorem move_task {t : Task} (ht : e.tasks t.id = some t) (hn : t.state.terminal = false) :
    e.move (.task t.id) = some t.move := by
  simp [move, ht, hn]

/-- `finalize_cancelled` ends the task, unless the file of its destination cannot be deleted. -/
theorem finalizeCancelled_run (hl : e.Inv H) {t : Task} (ht : e.tasks t.id = some t)
    (hn : t.state.terminal = false) (unlinked : Bool) :
    (unlinked = false ∧ t.destination = .NVME ∧ e.store.existsAt t.destinationLoc.slot = true ∧
      ∃ err, finalizeCancelled t unlinked e = .error err e) ∨
    ∃ d store r, finalizeCancelled t unlinked e = .ok ⟨⟩ { e with
        directory := d, store := store
        tasks := Function.update e.tasks t.id (some { t with state := .CANCELLED }) } ∧
      d.Inv H 0 ∧ e.directory.record t.key = some r ∧ Discards e.directory d t.move r ∧
      (store = e.store ∨ (t.destination = .NVME ∧ ∃ file,
        e.store.files.lookup t.destinationLoc.slot = some file ∧
        store = { e.store with
          files := e.store.files.erase t.destinationLoc.slot
          storedBytes := e.store.storedBytes - ChunkFileStore.size file })) := by
  have hm := move_task ht hn
  obtain ⟨r, hr, ⟨ss, hs, -⟩, ⟨sd, hds, -⟩, hpin⟩ := hl.locks.held _ _ hm
  obtain ⟨d, h₁, hi₁, ha, hr₁⟩ := CacheDirectory.discard_run hl.directory hr hs hds
    (hl.locks.tiers_ne _ _ hm) (by omega)
  have hdiscard : ∀ store, onDirectory (do
        CacheDirectory.setState t.key t.destination .ERROR
        CacheDirectory.remove t.key t.destination
        CacheDirectory.setState t.key t.source .READY
        CacheDirectory.unpin t.key) { e with store := store } =
      .ok () { e with store := store, directory := d } :=
    fun store => onDirectory_ok h₁
  simp only [finalizeCancelled, bind_apply, get_apply]
  by_cases hx : t.destination = .NVME ∧ e.store.existsAt t.destinationLoc.slot = true
  · simp only [if_pos hx, bind_apply]
    obtain ⟨hnv, hex⟩ := hx
    obtain ⟨file, hf⟩ := Option.isSome_iff_exists.mp hex
    cases unlinked with
    | false =>
      have he : onStore (ChunkFileStore.erase false t.destinationLoc.slot) e =
          .error (.chunkStoreError "unlink" (e.store.pathFor t.destinationLoc.slot)) e := by
        simp [onStore, ChunkFileStore.erase, hf]
      rw [he]
      exact .inl ⟨rfl, hnv, hex, _, rfl⟩
    | true =>
      have he : onStore (ChunkFileStore.erase true t.destinationLoc.slot) e = .ok ()
          { e with store := { e.store with
              files := e.store.files.erase t.destinationLoc.slot
              storedBytes := e.store.storedBytes - ChunkFileStore.size file } } := by
        simp [onStore, ChunkFileStore.erase, hf]
      rw [he]
      simp only [hdiscard, modify_apply]
      exact .inr ⟨d, _, r, rfl, hi₁, hr, ⟨hr₁, ha⟩, .inr ⟨hnv, file, hf, rfl⟩⟩
  · have := hdiscard e.store
    simp only [if_neg hx, bind_apply, this, modify_apply]
    exact .inr ⟨d, _, r, rfl, hi₁, hr, ⟨hr₁, ha⟩, .inl rfl⟩

theorem finalizeCancelled_effect (hl : e.Inv H) {t : Task} (ht : e.tasks t.id = some t)
    (hn : t.state.terminal = false)
    (hend : (t.state = .RUNNING ∧ t.Ended) ∨
      (t.state = .QUEUED ∧ t.usesCuda = false ∧ t.id ∉ e.ioQueue)) (unlinked : Bool) :
    Effect H c e (finalState (finalizeCancelled t unlinked e)) := by
  rcases finalizeCancelled_run hl ht hn unlinked with ⟨-, -, -, err, h⟩ |
    ⟨d, store, r, h, hi, hr, hd, hs⟩
  · rw [h]
    exact .nothing hl
  · rw [h]
    exact .discard (t := t) ht (.inr rfl) hend hi hr hd hs nofun

theorem finalize_effect (hl : e.Inv H) {t : Task} (ht : e.tasks t.id = some t)
    (hrun : t.state = .RUNNING) (hend : t.Ended) (hdone : t.usesCuda = true → t.copy = .done)
    (hresult : t.usesCuda = false → 0 < t.ioResult) (unlinked : Bool) :
    Effect H c e (finalState (finalize t unlinked e)) := by
  have hn : t.state.terminal = false := by rw [hrun]; rfl
  unfold finalize
  by_cases hc : t.cancelRequested = true
  · rw [if_pos hc]
    exact finalizeCancelled_effect hl ht hn (.inl ⟨hrun, hend⟩) unlinked
  · rw [if_neg hc]
    have hm := move_task ht hn
    obtain ⟨r, hr, ⟨ss, hs, -⟩, ⟨sd, hds, -⟩, hpin⟩ := hl.locks.held _ _ hm
    obtain ⟨d, h₁, hi₁, -, hr₁⟩ := CacheDirectory.complete_run hl.directory hr hs hds
      (hl.locks.tiers_ne _ _ hm) (by omega)
    have hcomplete : onDirectory (do
          CacheDirectory.setState t.key t.destination .READY
          CacheDirectory.setState t.key t.source .READY
          CacheDirectory.unpin t.key) e = .ok () { e with directory := d } :=
      onDirectory_ok h₁
    simp only [bind_apply, hcomplete, modify_apply]
    exact .complete (t := t) ht hrun hend ⟨Bool.eq_false_iff.mpr hc, hdone, hresult⟩ hi₁ hr hr₁

theorem fail_effect (hl : e.Inv H) {t : Task} (ht : e.tasks t.id = some t)
    (hrun : t.state = .RUNNING) (hend : t.Ended) (hwhy : t.Failed) (error : String) :
    Effect H c e (finalState (fail { t with error := error } e)) := by
  have hn : t.state.terminal = false := by rw [hrun]; rfl
  have hm := move_task ht hn
  obtain ⟨r, hr, ⟨ss, hs, -⟩, ⟨sd, hds, -⟩, hpin⟩ := hl.locks.held _ _ hm
  obtain ⟨d, h₁, hi₁, ha, hr₁⟩ := CacheDirectory.discard_run hl.directory hr hs hds
    (hl.locks.tiers_ne _ _ hm) (by omega)
  have hdiscard : onDirectory (do
        CacheDirectory.setState t.key t.destination .ERROR
        CacheDirectory.remove t.key t.destination
        CacheDirectory.setState t.key t.source .READY
        CacheDirectory.unpin t.key) (e.setTask { t with state := .FAILED, error := error }) =
      .ok () { e.setTask { t with state := .FAILED, error := error } with directory := d } :=
    onDirectory_ok h₁
  simp only [fail, bind_apply, modify_apply, hdiscard]
  exact .discard (t := t) ht (.inl rfl) (.inl ⟨hrun, hend⟩) hi₁ hr ⟨hr₁, ha⟩ (.inl rfl)
    fun _ => ⟨hrun, hwhy⟩

theorem poll_effect (hl : e.Inv H) (id : ℕ) (unlinked : Bool) :
    Effect H c e (finalState (poll id unlinked e)) := by
  simp only [poll, bind_apply, get_apply, find]
  cases ht : e.tasks id with
  | none => exact .nothing hl
  | some t =>
    obtain ⟨rfl, -⟩ := hl.queue.task id t ht
    simp only [check_ok]
    by_cases hrun : t.state = .RUNNING
    swap
    · rw [if_pos hrun]; exact .nothing hl
    rw [if_neg (not_not.mpr hrun)]
    cases hc : t.usesCuda with
    | true =>
      simp only [if_true]
      have hio : ∀ {p : Prop}, t.usesCuda = false → p := fun h => absurd (hc.symm.trans h) nofun
      cases hcopy : t.copy with
      | running => exact .nothing hl
      | landed => exact .nothing hl
      | failed =>
        have hwhy : t.Failed := by unfold Task.Failed; rw [if_pos hc]; exact hcopy
        have := @fail_effect H e c hl t ht hrun ⟨fun _ => .inr hcopy, hio⟩ hwhy "cudaEventQuery"
        rwa [hcopy] at this
      | done => exact finalize_effect hl ht hrun ⟨fun _ => .inl hcopy, hio⟩ (fun _ => hcopy) hio unlinked
    | false =>
      simp only [Bool.false_eq_true, if_false]
      have hfalse : ¬ t.usesCuda = true := by rw [hc]; nofun
      by_cases h0 : t.ioResult = 0
      · rw [if_pos h0]; exact .nothing hl
      rw [if_neg h0]
      have hend : t.Ended := ⟨fun h => absurd h hfalse, fun _ => h0⟩
      by_cases hpos : t.ioResult > 0
      · rw [if_pos hpos]
        exact finalize_effect hl ht hrun hend (fun h => absurd h hfalse) (fun _ => hpos) unlinked
      · rw [if_neg hpos]
        have hwhy : t.Failed := by unfold Task.Failed; rw [if_neg hfalse]; omega
        exact fail_effect hl ht hrun hend hwhy t.error

/-! ## NvmeTransfer and the client's own writes -/

theorem onStore_ok {x : Call ChunkFileStore α} {s : ChunkFileStore} (h : x e.store = .ok a s) :
    onStore x e = .ok a { e with store := s } := by
  unfold onStore
  rw [h]

theorem onStore_error {x : Call ChunkFileStore α} {s : ChunkFileStore}
    (h : x e.store = .error err s) : onStore x e = .error err { e with store := s } := by
  unfold onStore
  rw [h]

/-- The file of a write whose payload is a whole chunk. -/
theorem image_writeCommit {s : ChunkFileStore} {validTokens : UInt64} {bytes : Bytes} {n : ℕ}
    {w : PendingWrite} (hn : n < 2 ^ 64) (hlen : bytes.length = n)
    (h : s.writeCheck i (makeFileMeta key validTokens (UInt64.ofNat n)) bytes = .ok w) :
    Image n key .NVME bytes ((s.writeCommit w bytes).files.lookup i) := by
  obtain ⟨hslot, hsize, hheader, -, -⟩ := ChunkFileStore.writeCheck_ok h
  refine ⟨validTokens, chunkChecksum (bytes.take n), ?_⟩
  have hpay : (makeFileMeta key validTokens (UInt64.ofNat n)).payloadSize.toNat = n :=
    UInt64.toNat_ofNat_of_lt' (by simpa using hn)
  rw [hpay] at hsize hheader
  show (s.files.insert w.slot (ChunkFileStore.PendingWrite.content w bytes)).lookup i = _
  rw [hslot, AList.lookup_insert]
  unfold ChunkFileStore.PendingWrite.content
  rw [hheader, hsize, ← hlen, List.take_length]

/-- The other files. -/
theorem lookup_writeCommit_of_ne {s : ChunkFileStore} {w : PendingWrite} {bytes : Bytes}
    (h : i ≠ w.slot) : (s.writeCommit w bytes).files.lookup i = s.files.lookup i :=
  AList.lookup_insert_ne h

theorem rollbackNvme_ok (hi : e.directory.Inv H 0) (hr : e.directory.record key = some r)
    {ss : ChunkState} (hs : r.replica source = some ⟨ls, ss⟩) (hne : source ≠ destination) :
    ∃ d, rollbackNvme key source destination e = .ok () { e with directory := d } ∧ d.Inv H 0 ∧
      d.record = Function.update e.directory.record key
        (some ((r.setReplica destination none).setReplica source (some ⟨ls, .READY⟩))) := by
  obtain ⟨d, h₁, hi₁, hr₁⟩ := CacheDirectory.revert_run hi hr hs hne
  refine ⟨d, ?_, hi₁, hr₁⟩
  simp only [rollbackNvme, bind_apply, get_apply, CacheDirectory.lookup_record hr, check_ok]
  exact onDirectory_ok h₁

/-- A write into a memory. -/
theorem fill_memory {e : Engine} (ht : tier ≠ .NVME) (key : CacheKey) (i : ℕ) (validTokens : UInt64)
    (bytes : Bytes) (fault : WriteFault) : fill key tier i validTokens bytes fault e =
      match e.buffer tier i with
      | .error err => .error err e
      | .ok _ => .ok () (e.setMem tier i (overwrite (e.mem tier i) bytes)) := by
  cases tier with
  | NVME => exact absurd rfl ht
  | GPU => simp only [fill, bind_apply, get_apply]; cases e.buffer .GPU i <;> rfl
  | CPU => simp only [fill, bind_apply, get_apply]; cases e.buffer .CPU i <;> rfl

theorem provide_effect (hl : e.Inv H) (tier : StorageTier) (validTokens : UInt64) (bytes : Bytes)
    (fault : WriteFault) : Effect H (some (.provide key tier validTokens bytes fault)) e
      (finalState (provide key tier validTokens bytes fault e)) := by
  simp only [provide, bind_apply]
  rcases CacheDirectory.place_cases hl.directory key tier .READY with ⟨-, hc⟩ | ⟨r, hr, ⟨-, hc⟩ |
    ⟨hn, ⟨l, t', hc, hi⟩ | ⟨hc, -⟩ | ⟨er, t', hc, hi, -⟩⟩⟩
  · rw [onDirectory_error hc]; exact .nothing hl
  · rw [onDirectory_error hc]; exact .nothing hl
  · rw [onDirectory_ok hc]
    have hr : e.directory.record key = some r := hr
    have hrec := CacheDirectory.record_setRecord { e.directory with tiers := t' } key
      (r.setReplica tier (some ⟨l, .READY⟩))
    generalize CacheDirectory.setRecord { e.directory with tiers := t' } key
      (r.setReplica tier (some ⟨l, .READY⟩)) = d at hi hrec
    have hrec : d.record = Function.update e.directory.record key
      (some (r.setReplica tier (some ⟨l, .READY⟩))) := hrec
    have hfresh : e.Fresh tier l.slot := fresh_of_place hi hr hn hrec (replica_setReplica_self _ _ _)
    have hdr : d.record key = some (r.setReplica tier (some ⟨l, .READY⟩)) := by
      rw [hrec, Function.update_self]
    obtain ⟨d₂, h₂, hi₂, -, hr₂⟩ := CacheDirectory.remove_run hi hdr
      (replica_setReplica_self _ _ _) (.inl rfl)
    have hback : d₂.record = e.directory.record := by
      rw [hr₂, hrec]
      refine update_back hr (congrArg some (ext_replica (by simp) (by simp) (by simp) (by simp)
        fun t => ?_))
      by_cases ht : t = tier
      · simp [ht, hn]
      · simp [ht]
    simp only [onError]
    by_cases htier : tier = .NVME
    · subst htier
      simp only [fill, bind_apply, get_apply]
      rcases ChunkFileStore.write_cases fault l.slot
          (makeFileMeta key validTokens (UInt64.ofNat e.chunkBytes)) bytes e.store with
        ⟨err, s', hw, hsame⟩ | ⟨w, s', hcheck, hw, hsame⟩
      · have hw' : onStore (ChunkFileStore.write fault l.slot
            (makeFileMeta key validTokens (UInt64.ofNat e.chunkBytes)) bytes)
            { e with directory := d } = .error err { e with directory := d, store := s' } :=
          onStore_error hw
        have hrem : onDirectory (CacheDirectory.remove key .NVME)
            { e with directory := d, store := s' } = .ok () { e with directory := d₂, store := s' } :=
          onDirectory_ok h₂
        simp only [hw', hrem]
        exact .quiet hi₂ hback le_rfl hsame (.of_same rfl rfl hsame.files)
      · have hw' : onStore (ChunkFileStore.write fault l.slot
            (makeFileMeta key validTokens (UInt64.ofNat e.chunkBytes)) bytes)
            { e with directory := d } = .ok () { e with directory := d, store := s' } :=
          onStore_ok hw
        simp only [hw', modify_apply]
        have hslot := (ChunkFileStore.writeCheck_ok hcheck).1
        refine .provide rfl hi hr hn hrec hfresh (.inr ⟨rfl, _, w, hcheck, hsame⟩)
          (.of_cells (fun t j hj => ?_) (fun _ => rfl) fun _ => rfl) fun hlen => ?_
        · cases t with
          | GPU => rfl
          | CPU => rfl
          | NVME =>
            show s'.files.lookup j = _
            rw [hsame.files]
            exact lookup_writeCommit_of_ne (hslot ▸ hj l.slot hfresh)
        · show Image _ _ _ _ (s'.files.lookup l.slot)
          rw [hsame.files]
          exact image_writeCommit hl.sized.chunkBytes_lt hlen hcheck
    · rw [fill_memory htier]
      cases hb : buffer { e with directory := d } tier l.slot with
      | error err =>
        have hrem : onDirectory (CacheDirectory.remove key tier) { e with directory := d } =
            .ok () { e with directory := d₂ } :=
          onDirectory_ok h₂
        simp only [hrem]
        exact .tiers hi₂ hback
      | ok _ =>
        simp only [modify_apply]
        refine .provide rfl hi hr hn hrec hfresh (.inl (.refl e.store))
          (.of_setMem hfresh (length_overwrite _ bytes) rfl rfl rfl) fun hlen => ?_
        cases tier with
        | NVME => exact absurd rfl htier
        | GPU =>
          show some (Function.update e.gpu l.slot (overwrite (e.gpu l.slot) bytes) l.slot) = some bytes
          rw [Function.update_self, overwrite_eq (hlen.trans (hl.sized.gpu _).symm)]
        | CPU =>
          show some (Function.update e.cpu l.slot (overwrite (e.cpu l.slot) bytes) l.slot) = some bytes
          rw [Function.update_self, overwrite_eq (hlen.trans (hl.sized.cpu _).symm)]
  · rw [onDirectory_error hc]; exact .nothing hl
  · rw [onDirectory_error hc]; exact .tiers hi rfl

/-- The record after a synchronous transfer. -/
theorem arrived_record {l : TierLocation} {state : ChunkState} {t : StorageTier} {slot : Replica}
    (hne : source ≠ destination)
    (h : ((((r.setReplica source (some ⟨ls, .COPYING⟩)).setReplica destination
      (some ⟨l, state⟩)).setReplica destination (some ⟨l, .READY⟩)).setReplica source
        (some ⟨ls, .READY⟩)).replica t = some slot)
    (hs : r.replica source = some ⟨ls, .READY⟩) :
    r.replica t = some slot ∨ (t = destination ∧ slot = ⟨l, .READY⟩) := by
  by_cases ht : t = source
  · rw [ht, replica_setReplica_self] at h
    rw [ht, hs]
    exact .inl h
  · by_cases ht' : t = destination
    · rw [ht', replica_setReplica_of_ne hne.symm, replica_setReplica_self] at h
      cases h
      exact .inr ⟨ht', rfl⟩
    · rw [replica_setReplica_of_ne ht, replica_setReplica_of_ne ht', replica_setReplica_of_ne ht',
        replica_setReplica_of_ne ht] at h
      exact .inl h

theorem offload_effect (hl : e.Inv H) (validTokens : UInt64) (releaseCpu : Bool)
    (fault : WriteFault) (hc : c = some (.offload key validTokens releaseCpu fault)) :
    Effect H c e (finalState (offload key validTokens releaseCpu fault e)) := by
  simp only [offload, bind_apply, get_apply]
  cases hr : e.directory.record key with
  | none => rw [CacheDirectory.lookup_error hr]; exact .nothing hl
  | some r =>
    rw [CacheDirectory.lookup_record hr]
    simp only [check_ok]
    rcases hs : r.cpu with _ | ⟨ls, state⟩
    · exact .nothing hl
    by_cases hready : state = .READY
    swap
    · cases state <;> first | exact absurd rfl hready | exact .nothing hl
    subst hready
    by_cases hn : r.nvme.isNone
    swap
    · simp only [bind_apply, ensure, if_neg hn]; exact .nothing hl
    simp only [bind_apply, ensure, if_pos hn]
    rw [Option.isNone_iff_eq_none] at hn
    have hs : r.replica .CPU = some ⟨ls, .READY⟩ := hs
    have hn : r.replica .NVME = none := hn
    have hne : StorageTier.CPU ≠ .NVME := by decide
    obtain ⟨d₁, h₁, hi₁, -, hr₁⟩ := CacheDirectory.setState_run hl.directory hr hs .COPYING
    rw [onDirectory_ok h₁]
    have hr₁' : d₁.record key = some (r.setReplica .CPU (some ⟨ls, .COPYING⟩)) := by
      rw [hr₁, Function.update_self]
    have hn₁ : (r.setReplica .CPU (some ⟨ls, .COPYING⟩)).replica .NVME = none :=
      (replica_setReplica_of_ne hne.symm).trans hn
    simp only [onError, bind_apply]
    rcases CacheDirectory.place_run hi₁ hr₁' hn₁ .COPYING with
      ⟨l, d₂, h₂, hi₂, hr₂⟩ | ⟨err, d₂, h₂, hi₂, hr₂⟩
    · have hp : onDirectory (CacheDirectory.place key .NVME .COPYING) { e with directory := d₁ } =
          .ok l { e with directory := d₂ } :=
        onDirectory_ok h₂
      have hrec : d₂.record = Function.update e.directory.record key
          (some ((r.setReplica .CPU (some ⟨ls, .COPYING⟩)).setReplica .NVME (some ⟨l, .COPYING⟩))) := by
        rw [hr₂, hr₁, Function.update_idem]
      have hdr : d₂.record key = some ((r.setReplica .CPU (some ⟨ls, .COPYING⟩)).setReplica .NVME
          (some ⟨l, .COPYING⟩)) := by
        rw [hrec, Function.update_self]
      have hsrc : ((r.setReplica .CPU (some ⟨ls, .COPYING⟩)).setReplica .NVME
          (some ⟨l, .COPYING⟩)).replica .CPU = some ⟨ls, .COPYING⟩ :=
        (replica_setReplica_of_ne hne).trans (replica_setReplica_self _ _ _)
      have hfresh : e.Fresh .NVME l.slot :=
        fresh_of_place hi₂ hr hn hrec (replica_setReplica_self _ _ _)
      have hfail : ∀ store : ChunkFileStore, store.Same e.store → ∃ d₃,
          rollbackNvme key .CPU .NVME { e with directory := d₂, store := store } =
            .ok () { e with directory := d₃, store := store } ∧
          Effect H c e { e with directory := d₃, store := store } := by
        intro store hsame
        obtain ⟨d₃, h₃, hi₃, hr₃⟩ := @rollbackNvme_ok H { e with directory := d₂, store := store } key
          _ .CPU .NVME ls hi₂ hdr .COPYING hsrc hne
        refine ⟨d₃, h₃, .quiet hi₃ ?_ le_rfl hsame (.of_same rfl rfl hsame.files)⟩
        rw [hr₃, hrec]
        exact update_back hr (congrArg some (revert_eq hs hn))
      simp only [hp, get_apply]
      cases hb : buffer { e with directory := d₂ } .CPU ls.slot with
      | error err =>
        simp only [check_error]
        obtain ⟨d₃, h₃, heffect⟩ := hfail e.store (.refl _)
        simp only [h₃]
        exact heffect
      | ok _ =>
        simp only [check_ok]
        rcases ChunkFileStore.write_cases fault l.slot
            (makeFileMeta key validTokens (UInt64.ofNat e.chunkBytes)) (e.cpu ls.slot) e.store with
          ⟨err, s', hw, hsame⟩ | ⟨w, s', hcheck, hw, hsame⟩
        · have hw' : onStore (ChunkFileStore.write fault l.slot
              (makeFileMeta key validTokens (UInt64.ofNat e.chunkBytes)) (e.cpu ls.slot))
              { e with directory := d₂ } = .error err { e with directory := d₂, store := s' } :=
            onStore_error hw
          obtain ⟨d₃, h₃, heffect⟩ := hfail s' hsame
          simp only [hw', h₃]
          exact heffect
        have hw' : onStore (ChunkFileStore.write fault l.slot
            (makeFileMeta key validTokens (UInt64.ofNat e.chunkBytes)) (e.cpu ls.slot))
            { e with directory := d₂ } = .ok () { e with directory := d₂, store := s' } :=
          onStore_ok hw
        simp only [hw']
        obtain ⟨d₃, h₃, hi₃, -, hr₃⟩ := CacheDirectory.ready_run hi₂ hdr hsrc
          (replica_setReplica_self _ _ _) hne
        have hready : onDirectory (do
              CacheDirectory.setState key .NVME .READY
              CacheDirectory.setState key .CPU .READY) { e with directory := d₂, store := s' } =
            .ok () { e with directory := d₃, store := s' } :=
          onDirectory_ok h₃
        simp only [hready]
        rw [hrec, Function.update_idem] at hr₃
        have hslot := (ChunkFileStore.writeCheck_ok hcheck).1
        have hkept : ∀ d, Kept e { e with directory := d, cpu := e.cpu, store := s' } := by
          intro d
          refine .of_cells (fun t j hj => ?_) (fun _ => rfl) fun _ => rfl
          cases t with
          | GPU => rfl
          | CPU => rfl
          | NVME =>
            show s'.files.lookup j = _
            rw [hsame.files]
            exact lookup_writeCommit_of_ne (hslot ▸ hj l.slot hfresh)
        have himage : ∀ bytes, bytes.length = e.chunkBytes →
            Image e.chunkBytes key .CPU bytes (e.cell .CPU ls.slot) →
            Image e.chunkBytes key .NVME bytes (cell { e with cpu := e.cpu, store := s' } .NVME l.slot) := by
          intro bytes hlen hbytes
          have hbytes : e.cpu ls.slot = bytes := Option.some.inj hbytes
          show Image _ _ _ _ (s'.files.lookup l.slot)
          rw [hsame.files, hbytes]
          rw [hbytes] at hcheck
          exact image_writeCommit hl.sized.chunkBytes_lt hlen hcheck
        have hheld : ∀ {r' : ChunkRecord}, (∀ t, t ≠ .CPU → t ≠ .NVME → r'.replica t = r.replica t) →
            ∀ t l, r.Held t l → r'.Held t l := by
          intro r' h t l hh
          refine hh.congr (h t ?_ ?_)
          · rintro rfl; exact hh.not_ready hs
          · rintro rfl; exact hh.isSome hn
        cases releaseCpu with
        | false =>
          exact .nvme l hi₃ hr hs hn hr₃ (by simp) (hheld fun t h h' => by simp [h, h'])
            (fun t slot h => arrived_record hne h hs)
            (.inr (.inl ⟨hfresh, ⟨_, _, _, hc⟩, _, w, hcheck, hsame⟩)) (hkept _) himage
        | true =>
          have hdr₃ : d₃.record key = some ((((r.setReplica .CPU (some ⟨ls, .COPYING⟩)).setReplica
              .NVME (some ⟨l, .COPYING⟩)).setReplica .NVME (some ⟨l, .READY⟩)).setReplica .CPU
              (some ⟨ls, .READY⟩)) := by
            rw [hr₃, Function.update_self]
          obtain ⟨d₄, h₄, hi₄, -, hr₄⟩ := CacheDirectory.remove_run hi₃ hdr₃
            (replica_setReplica_self _ _ _) (.inl rfl)
          have hremove : onDirectory (CacheDirectory.remove key .CPU)
              { e with directory := d₃, store := s' } = .ok () { e with directory := d₄, store := s' } :=
            onDirectory_ok h₄
          simp only [if_true, hremove]
          rw [hr₃, Function.update_idem] at hr₄
          refine .nvme l hi₄ hr hs hn hr₄ (by simp) (hheld fun t h h' => by simp [h, h'])
            (fun t slot h => ?_) (.inr (.inl ⟨hfresh, ⟨_, _, _, hc⟩, _, w, hcheck, hsame⟩)) (hkept _) himage
          by_cases ht : t = .CPU
          · rw [ht, replica_setReplica_self] at h; cases h
          · rw [replica_setReplica_of_ne ht] at h
            exact arrived_record hne h hs
    · have hp : onDirectory (CacheDirectory.place key .NVME .COPYING) { e with directory := d₁ } =
          .error err { e with directory := d₂ } :=
        onDirectory_error h₂
      obtain ⟨d₃, h₃, hi₃, hr₃⟩ := @rollbackNvme_ok H { e with directory := d₂ } key _ .CPU .NVME ls
        hi₂ (by rw [hr₂]; exact hr₁') .COPYING (replica_setReplica_self _ _ _) hne
      simp only [hp, h₃]
      refine .tiers hi₃ ?_
      rw [hr₃, hr₂, hr₁]
      exact update_back hr (congrArg some (revert_source_eq hs hn))

/-- **A read** leaves the chunk in the buffer, or fails. -/
theorem readChunk_cases (hsized : e.Sized) (i j : ℕ) (expected : ChunkFileMeta) (fault : ReadFault) :
    ∃ out, out.length = e.chunkBytes ∧
      ((∃ err, readChunk i expected j fault e = .error err (e.setMem .CPU j out)) ∨
       (readChunk i expected j fault e = .ok () (e.setMem .CPU j out) ∧
        ∀ key validTokens bytes, expected = makeFileMeta key validTokens (UInt64.ofNat e.chunkBytes) →
          bytes.length = e.chunkBytes →
          Image e.chunkBytes key .NVME bytes (e.store.files.lookup i) → out = bytes)) := by
  unfold readChunk
  cases hb : e.buffer .CPU j with
  | error err =>
    refine ⟨e.cpu j, hsized.cpu j, .inl ⟨err, ?_⟩⟩
    exact congrArg _ (setMem_self e .CPU j).symm
  | ok u =>
    simp only
    have hlen := @ChunkFileStore.read_length e.store i expected fault (e.cpu j)
    rw [hsized.cpu j] at hlen
    cases hread : e.store.read fault i expected e.chunkBytes (e.cpu j) with
    | error err out =>
      rw [hread] at hlen
      exact ⟨out, hlen, .inl ⟨err, rfl⟩⟩
    | ok found out =>
      rw [hread] at hlen
      cases found with
      | none => exact ⟨out, hlen, .inl ⟨_, rfl⟩⟩
      | some m =>
        refine ⟨out, hlen, .inr ⟨rfl, fun key validTokens bytes hexp hbytes himage => ?_⟩⟩
        obtain ⟨validTokens', sum, hfile⟩ := himage
        subst hexp
        have hpay : (makeFileMeta key validTokens' (UInt64.ofNat e.chunkBytes)).payloadSize.toNat =
            bytes.length := by
          rw [hbytes]
          exact UInt64.toNat_ofNat_of_lt' (by simpa using hsized.chunkBytes_lt)
        rw [ChunkFileStore.read_encode hfile rfl rfl hpay hread, hbytes, ← hsized.cpu j,
          List.drop_length, List.append_nil]

theorem onload_effect (hl : e.Inv H) (releaseNvme : Bool) (fault : ReadFault) (unlinked : Bool) :
    Effect H c e (finalState (onload key releaseNvme fault unlinked e)) := by
  simp only [onload, bind_apply, get_apply]
  cases hr : e.directory.record key with
  | none => rw [CacheDirectory.lookup_error hr]; exact .nothing hl
  | some r =>
    rw [CacheDirectory.lookup_record hr]
    simp only [check_ok]
    rcases hs : r.nvme with _ | ⟨ls, state⟩
    · exact .nothing hl
    by_cases hready : state = .READY
    swap
    · cases state <;> first | exact absurd rfl hready | exact .nothing hl
    subst hready
    by_cases hn : r.cpu.isNone
    swap
    · simp only [bind_apply, ensure, if_neg hn]; exact .nothing hl
    simp only [bind_apply, ensure, if_pos hn]
    rw [Option.isNone_iff_eq_none] at hn
    have hs : r.replica .NVME = some ⟨ls, .READY⟩ := hs
    have hn : r.replica .CPU = none := hn
    have hne : StorageTier.NVME ≠ .CPU := by decide
    obtain ⟨d₁, h₁, hi₁, -, hr₁⟩ := CacheDirectory.setState_run hl.directory hr hs .COPYING
    rw [onDirectory_ok h₁]
    have hr₁' : d₁.record key = some (r.setReplica .NVME (some ⟨ls, .COPYING⟩)) := by
      rw [hr₁, Function.update_self]
    have hn₁ : (r.setReplica .NVME (some ⟨ls, .COPYING⟩)).replica .CPU = none :=
      (replica_setReplica_of_ne hne.symm).trans hn
    simp only [onError, bind_apply]
    rcases CacheDirectory.place_run hi₁ hr₁' hn₁ .LOADING with
      ⟨l, d₂, h₂, hi₂, hr₂⟩ | ⟨err, d₂, h₂, hi₂, hr₂⟩
    swap
    · have hp : onDirectory (CacheDirectory.place key .CPU .LOADING) { e with directory := d₁ } =
          .error err { e with directory := d₂ } :=
        onDirectory_error h₂
      obtain ⟨d₃, h₃, hi₃, hr₃⟩ := @rollbackNvme_ok H { e with directory := d₂ } key _ .NVME .CPU ls
        hi₂ (by rw [hr₂]; exact hr₁') .COPYING (replica_setReplica_self _ _ _) hne
      simp only [hp, h₃]
      refine .tiers hi₃ ?_
      rw [hr₃, hr₂, hr₁]
      exact update_back hr (congrArg some (revert_source_eq hs hn))
    have hp : onDirectory (CacheDirectory.place key .CPU .LOADING) { e with directory := d₁ } =
        .ok l { e with directory := d₂ } :=
      onDirectory_ok h₂
    have hrec : d₂.record = Function.update e.directory.record key
        (some ((r.setReplica .NVME (some ⟨ls, .COPYING⟩)).setReplica .CPU (some ⟨l, .LOADING⟩))) := by
      rw [hr₂, hr₁, Function.update_idem]
    have hdr : d₂.record key = some ((r.setReplica .NVME (some ⟨ls, .COPYING⟩)).setReplica .CPU
        (some ⟨l, .LOADING⟩)) := by
      rw [hrec, Function.update_self]
    have hsrc : ((r.setReplica .NVME (some ⟨ls, .COPYING⟩)).setReplica .CPU
        (some ⟨l, .LOADING⟩)).replica .NVME = some ⟨ls, .COPYING⟩ :=
      (replica_setReplica_of_ne hne).trans (replica_setReplica_self _ _ _)
    have hfresh : e.Fresh .CPU l.slot :=
      fresh_of_place hi₂ hr hn hrec (replica_setReplica_self _ _ _)
    simp only [hp]
    have hsized : Sized { e with directory := d₂ } := ⟨hl.sized.chunkBytes_lt, hl.sized.gpu, hl.sized.cpu⟩
    obtain ⟨out, hlen, hread⟩ := readChunk_cases hsized ls.slot l.slot
      (makeFileMeta key 0 (UInt64.ofNat e.chunkBytes)) fault
    have hlen' : out.length = (e.mem .CPU l.slot).length := hlen.trans (hl.sized.cpu _).symm
    rcases hread with ⟨err, hread⟩ | ⟨hread, himage⟩
    · obtain ⟨d₃, h₃, hi₃, hr₃⟩ := @rollbackNvme_ok H
        (setMem { e with directory := d₂ } .CPU l.slot out) key _ .NVME .CPU ls hi₂ hdr .COPYING hsrc hne
      simp only [hread, h₃]
      refine .quiet hi₃ ?_ le_rfl (.refl _) (.of_setMem hfresh hlen' rfl rfl rfl)
      rw [hr₃]
      show Function.update d₂.record _ _ = _
      rw [hrec]
      exact update_back hr (congrArg some (revert_eq hs hn))
    · obtain ⟨d₃, h₃, hi₃, -, hr₃⟩ := CacheDirectory.ready_run hi₂ hdr hsrc
        (replica_setReplica_self _ _ _) hne
      have hready : onDirectory (do
            CacheDirectory.setState key .CPU .READY
            CacheDirectory.setState key .NVME .READY)
          (setMem { e with directory := d₂ } .CPU l.slot out) =
          .ok () { setMem e .CPU l.slot out with directory := d₃ } :=
        onDirectory_ok h₃
      simp only [hread, hready]
      rw [hrec, Function.update_idem] at hr₃
      have hcopy : ∀ (store : ChunkFileStore) bytes, bytes.length = e.chunkBytes →
          Image e.chunkBytes key .NVME bytes (e.cell .NVME ls.slot) →
          Image e.chunkBytes key .CPU bytes
            (cell { e with cpu := (e.setMem .CPU l.slot out).cpu, store := store } .CPU l.slot) := by
        intro store bytes hbytes hfile
        rw [← himage key 0 bytes rfl hbytes hfile]
        show some (Function.update e.cpu l.slot out l.slot) = some out
        rw [Function.update_self]
      have hheld : ∀ {r' : ChunkRecord}, (∀ t, t ≠ .NVME → t ≠ .CPU → r'.replica t = r.replica t) →
          ∀ t l, r.Held t l → r'.Held t l := by
        intro r' h t l hh
        refine hh.congr (h t ?_ ?_)
        · rintro rfl; exact hh.not_ready hs
        · rintro rfl; exact hh.isSome hn
      have hstay : Effect H c e { setMem e .CPU l.slot out with directory := d₃ } :=
        .nvme l hi₃ hr hs hn hr₃ (by simp) (hheld fun t h h' => by simp [h, h'])
          (fun t slot h => arrived_record hne h hs) (.inl (.refl e.store))
          (.of_setMem hfresh hlen' rfl rfl rfl) (hcopy e.store)
      cases releaseNvme with
      | false => exact hstay
      | true =>
        simp only [if_true, bind_apply]
        cases hf : e.store.files.lookup ls.slot with
        | none =>
          have he : onStore (ChunkFileStore.erase unlinked ls.slot)
              { setMem e .CPU l.slot out with directory := d₃ } =
              .error (.chunkMissError ("chunk file does not exist: " ++ e.store.pathFor ls.slot))
                { setMem e .CPU l.slot out with directory := d₃ } := by
            simp [onStore, ChunkFileStore.erase, setMem, hf]
          rw [he]
          exact hstay
        | some file =>
          cases unlinked with
          | false =>
            have he : onStore (ChunkFileStore.erase false ls.slot)
                { setMem e .CPU l.slot out with directory := d₃ } =
                .error (.chunkStoreError "unlink" (e.store.pathFor ls.slot))
                  { setMem e .CPU l.slot out with directory := d₃ } := by
              simp [onStore, ChunkFileStore.erase, setMem, hf]
            rw [he]
            exact hstay
          | true =>
            have he : onStore (ChunkFileStore.erase true ls.slot)
                { setMem e .CPU l.slot out with directory := d₃ } = .ok ()
                { setMem e .CPU l.slot out with
                  directory := d₃
                  store := { e.store with
                    files := e.store.files.erase ls.slot
                    storedBytes := e.store.storedBytes - ChunkFileStore.size file } } := by
              simp [onStore, ChunkFileStore.erase, setMem, hf]
            have hdr₃ : d₃.record key = some ((((r.setReplica .NVME (some ⟨ls, .COPYING⟩)).setReplica
                .CPU (some ⟨l, .LOADING⟩)).setReplica .CPU (some ⟨l, .READY⟩)).setReplica .NVME
                (some ⟨ls, .READY⟩)) := by
              rw [hr₃, Function.update_self]
            obtain ⟨d₄, h₄, hi₄, -, hr₄⟩ := CacheDirectory.remove_run hi₃ hdr₃
              (replica_setReplica_self _ _ _) (.inl rfl)
            have hremove : onDirectory (CacheDirectory.remove key .NVME)
                { setMem e .CPU l.slot out with
                  directory := d₃
                  store := { e.store with
                    files := e.store.files.erase ls.slot
                    storedBytes := e.store.storedBytes - ChunkFileStore.size file } } = .ok ()
                { setMem e .CPU l.slot out with
                  directory := d₄
                  store := { e.store with
                    files := e.store.files.erase ls.slot
                    storedBytes := e.store.storedBytes - ChunkFileStore.size file } } :=
              onDirectory_ok h₄
            simp only [he, hremove]
            rw [hr₃, Function.update_idem] at hr₄
            refine .nvme l hi₄ hr hs hn hr₄ (by simp) (hheld fun t h h' => by simp [h, h'])
              (fun t slot h => ?_) (.inr (.inr ⟨rfl, file, hf, rfl⟩)) ⟨?_, fun j => ?_, fun j => ?_⟩
              (hcopy _)
            · by_cases ht : t = .NVME
              · rw [ht, replica_setReplica_self] at h; cases h
              · rw [replica_setReplica_of_ne ht] at h
                exact arrived_record hne h hs
            · -- the erased file belongs to no other chunk
              intro k s s' t slot slot' hk hsl hk' hsl' hloc
              cases t with
              | GPU => rfl
              | CPU =>
                show some (Function.update e.cpu l.slot out slot.location.slot) = _
                rw [Function.update_of_ne (hfresh k s slot hk hsl)]
                rfl
              | NVME =>
                show (e.store.files.erase ls.slot).lookup slot.location.slot = _
                rw [AList.lookup_erase_ne]
                · rfl
                · intro heq
                  have hkk : k = key := hl.directory.slot_key hk hr hsl hs heq
                  subst hkk
                  have hk' : d₄.record k = some s' := hk'
                  rw [hr₄, Function.update_self] at hk'
                  cases hk'
                  rw [replica_setReplica_self] at hsl'
                  cases hsl'
            · rfl
            · exact setMem_cpu_length hlen' j

/-- **Every call of the client that returns or throws has an effect.** -/
theorem call_effect (hl : e.Inv H) (call : ClientCall) (hen : call.enabled e = true)
    {res : EStateM.Result Exn Engine Unit} (h : call.exec e = some res) :
    Effect H (some call) e (finalState res) := by
  cases call with
  | directory op =>
    cases h
    exact clientDirectory_effect hl op hen
  | provide key tier validTokens bytes fault =>
    cases h
    exact provide_effect hl tier validTokens bytes fault
  | submit key destination validTokens priority fault =>
    have := @submit_effect H e (some (.submit key destination validTokens priority fault)) key
      destination hl validTokens priority fault
    cases h
    simp only [bind_apply]
    cases h : submit key destination validTokens priority fault e <;> rw [h] at this <;> exact this
  | poll id unlinked =>
    cases h
    exact poll_effect hl id unlinked
  | beginTransfer down key fault =>
    cases h
    exact beginTransfer_effect hl down fault
  | finishTransfer down key releaseSource destroyed =>
    exact finishTransfer_effect hl down releaseSource destroyed h
  | offload key validTokens releaseCpu fault =>
    cases h
    exact offload_effect hl validTokens releaseCpu fault rfl
  | onload key releaseNvme fault unlinked =>
    cases h
    exact onload_effect hl releaseNvme fault unlinked

end Engine

end KVFlux.V3
