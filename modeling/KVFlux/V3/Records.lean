import KVFlux.V3.DirectoryRun

/-!
# Calls of the directory on a known record

The engines call the directory in fixed orders on records whose replicas they know. This file says
what such calls do to the map from keys to records.

* `CacheDirectory.record`: the map.
* **`Inv.slot_key`**: a slot belongs to one chunk.
* `setState_run`, `place_run`, `remove_run`, `pin_run`, `unpin_run`: single calls.
* `ready_run`, `complete_run`, `discard_run`, `rollback_run`, `revert_run`: how the engines end a transfer.
-/

namespace KVFlux.V3

open Fallible ChunkRecord

namespace ChunkRecord

def setPins (r : ChunkRecord) (n : ℕ) : ChunkRecord := { r with pinCount := n }

@[simp] theorem replica_setPins (r : ChunkRecord) (n : ℕ) (tier : StorageTier) :
    (r.setPins n).replica tier = r.replica tier := by
  cases tier <;> rfl

@[simp] theorem setPins_key (r : ChunkRecord) (n : ℕ) : (r.setPins n).key = r.key := rfl
@[simp] theorem setPins_version (r : ChunkRecord) (n : ℕ) : (r.setPins n).version = r.version := rfl
@[simp] theorem setPins_refCount (r : ChunkRecord) (n : ℕ) :
    (r.setPins n).refCount = r.refCount := rfl
@[simp] theorem setPins_pinCount (r : ChunkRecord) (n : ℕ) : (r.setPins n).pinCount = n := rfl

@[simp] theorem setReplica_key (r : ChunkRecord) (tier : StorageTier) (slot : Option Replica) :
    (r.setReplica tier slot).key = r.key := by
  cases tier <;> rfl

@[simp] theorem setReplica_version (r : ChunkRecord) (tier : StorageTier)
    (slot : Option Replica) : (r.setReplica tier slot).version = r.version := by
  cases tier <;> rfl

theorem replica_setReplica_self (r : ChunkRecord) (tier : StorageTier) (slot : Option Replica) :
    (r.setReplica tier slot).replica tier = slot := by
  simp

theorem replica_setReplica_of_ne {r : ChunkRecord} {tier tier' : StorageTier}
    {slot : Option Replica} (h : tier' ≠ tier) :
    (r.setReplica tier slot).replica tier' = r.replica tier' := by
  simp [h]

/-- A record is its identity, its counters and its replicas. -/
theorem ext_replica {r r' : ChunkRecord} (hk : r.key = r'.key) (hv : r.version = r'.version)
    (hc : r.refCount = r'.refCount) (hp : r.pinCount = r'.pinCount)
    (hr : ∀ tier, r.replica tier = r'.replica tier) : r = r' := by
  have hg := hr .GPU
  have hcpu := hr .CPU
  have hn := hr .NVME
  cases r
  cases r'
  simp only [replica] at hg hcpu hn
  simp only at hk hv hc hp
  subst hk hv hc hp hg hcpu hn
  rfl

end ChunkRecord

namespace CacheDirectory

variable {H : Tokens → UInt64} {d d' : CacheDirectory} {others : Multiset BlockHandle}
  {key key' : CacheKey} {r r' : ChunkRecord} {tier : StorageTier} {slot slot' : Replica}
  {source destination : StorageTier} {ls ld : TierLocation} {ss sd : ChunkState}

/-- The records by key. -/
def record (d : CacheDirectory) (key : CacheKey) : Option ChunkRecord := d.records.lookup key

theorem lookup_record (hr : d.record key = some r) : d.lookup key = .ok r := lookup_ok hr

@[simp] theorem record_setRecord (d : CacheDirectory) (key : CacheKey) (r : ChunkRecord) :
    (d.setRecord key r).record = Function.update d.record key (some r) := by
  funext k
  show (d.setRecord key r).records.lookup k = _
  rw [lookup_setRecord, Function.update_apply]
  rfl

@[simp] theorem record_erase (d : CacheDirectory) (key : CacheKey) :
    ({ d with records := d.records.erase key } : CacheDirectory).record =
      Function.update d.record key none := by
  funext k
  show (d.records.erase key).lookup k = _
  rw [Assoc.lookup_erase, Function.update_apply]
  rfl

/-- **A slot belongs to one chunk.** -/
theorem Inv.slot_key (hi : d.Inv H others) (hr : d.record key = some r)
    (hr' : d.record key' = some r') (hs : r.replica tier = some slot)
    (hs' : r'.replica tier = some slot') (he : slot.location.slot = slot'.location.slot) :
    key = key' := by
  by_contra hne
  have hnd := Tiers.Inv.nodup hi tier
  unfold locations at hnd
  rw [Assoc.collect_lookup hr, hs] at hnd
  have hmem : slot'.location ∈
      Assoc.collect (fun r => (r.replica tier).map Replica.location) (d.records.erase key) := by
    refine Assoc.mem_collect.mpr ⟨key', r', ?_, by simp [hs']⟩
    rw [Assoc.lookup_erase, if_neg (Ne.symm hne)]
    exact hr'
  simp only [Option.map_some, Assoc.ofOption_some, Multiset.singleton_add, Multiset.map_cons,
    Multiset.nodup_cons] at hnd
  exact hnd.1 (he ▸ Multiset.mem_map_of_mem TierLocation.slot hmem)

/-! ## Single calls -/

theorem setState_run (hi : d.Inv H others) (hr : d.record key = some r)
    (hs : r.replica tier = some slot) (state : ChunkState) :
    ∃ d', setState key tier state d = .ok () d' ∧ d'.Inv H others ∧ d'.tiers = d.tiers ∧
      d'.record = Function.update d.record key
        (some (r.setReplica tier (some { slot with state := state }))) := by
  rcases setState_cases hi key tier state with ⟨hl, -⟩ | ⟨r₁, hl, ⟨hn, -⟩ | ⟨slot₁, hs₁, hc, hi'⟩⟩
  · rw [show d.records.lookup key = some r from hr] at hl; cases hl
  all_goals obtain rfl : r = r₁ := Option.some.inj (hr.symm.trans hl)
  · rw [hs] at hn; cases hn
  · obtain rfl : slot = slot₁ := Option.some.inj (hs.symm.trans hs₁)
    exact ⟨_, hc, hi', rfl, record_setRecord _ _ _⟩

theorem place_run (hi : d.Inv H others) (hr : d.record key = some r)
    (hs : r.replica tier = none) (state : ChunkState) :
    (∃ l d', place key tier state d = .ok l d' ∧ d'.Inv H others ∧
      d'.record = Function.update d.record key (some (r.setReplica tier (some ⟨l, state⟩)))) ∨
    (∃ e d', place key tier state d = .error e d' ∧ d'.Inv H others ∧ d'.record = d.record) := by
  rcases place_cases hi key tier state with ⟨hl, -⟩ | ⟨r₁, hl, ⟨hn, -⟩ | ⟨-, ⟨l, t', hc, hi'⟩ |
    ⟨hc, -⟩ | ⟨e, t', hc, hi', -⟩⟩⟩
  · rw [show d.records.lookup key = some r from hr] at hl; cases hl
  all_goals obtain rfl : r = r₁ := Option.some.inj (hr.symm.trans hl)
  · rw [hs] at hn; cases hn
  · exact .inl ⟨l, _, hc, hi', record_setRecord _ _ _⟩
  · exact .inr ⟨_, _, hc, hi, rfl⟩
  · exact .inr ⟨_, _, hc, hi', rfl⟩

theorem remove_run (hi : d.Inv H others) (hr : d.record key = some r)
    (hs : r.replica tier = some slot) (hstate : slot.state = .READY ∨ slot.state = .ERROR) :
    ∃ d', remove key tier d = .ok () d' ∧ d'.Inv H others ∧
      d'.tiers.allocatedChunks tier + 1 = d.tiers.allocatedChunks tier ∧
      d'.record = Function.update d.record key (some (r.setReplica tier none)) := by
  rcases remove_cases hi key tier with ⟨hl, -⟩ | ⟨r₁, hl, ⟨hn, -⟩ | ⟨slot₁, hs₁, ⟨h₁, h₂, -⟩ |
    ⟨-, t', hc, hi'⟩⟩⟩
  · rw [show d.records.lookup key = some r from hr] at hl; cases hl
  all_goals obtain rfl : r = r₁ := Option.some.inj (hr.symm.trans hl)
  · rw [hs] at hn; cases hn
  all_goals obtain rfl : slot = slot₁ := Option.some.inj (hs.symm.trans hs₁)
  · rcases hstate with h | h
    · exact absurd h h₁
    · exact absurd h h₂
  · refine ⟨_, hc, hi', ?_, record_setRecord _ _ _⟩
    have hmem : slot.location ∈ d.locations tier := mem_locations.mpr ⟨key, r, slot, hl, hs, rfl⟩
    have hloc := @locations_remove { d with tiers := t' } key r tier slot hl hs
    rw [Tiers.Inv.allocated_eq hi, Tiers.Inv.allocated_eq hi', hloc, Function.update_self]
    exact Multiset.card_erase_add_one hmem

theorem pin_run (hi : d.Inv H others) (hr : d.record key = some r)
    (hlt : r.pinCount + 1 < 2 ^ 64) :
    ∃ d', pin key d = .ok () d' ∧ d'.Inv H others ∧ d'.tiers = d.tiers ∧
      d'.record = Function.update d.record key (some (r.setPins (r.pinCount + 1))) := by
  unfold pin
  rcases count_cases hi key (fun r => .ok { r with pinCount := (r.pinCount + 1) % 2 ^ 64 })
    (by rintro r _ ⟨⟩ t; exact ChunkRecord.replica_setPins r _ t) with ⟨hl, -⟩ | ⟨r₁, hl, ⟨e, hf, -⟩ | ⟨r', hf, hc, hi'⟩⟩
  · rw [show d.records.lookup key = some r from hr] at hl; cases hl
  · cases hf
  · obtain rfl : r = r₁ := Option.some.inj (hr.symm.trans hl)
    cases hf
    rw [Nat.mod_eq_of_lt hlt] at hc hi'
    exact ⟨_, hc, hi', rfl, record_setRecord _ _ _⟩

theorem unpin_run (hi : d.Inv H others) (hr : d.record key = some r) (hpos : 0 < r.pinCount) :
    ∃ d', unpin key d = .ok () d' ∧ d'.Inv H others ∧ d'.tiers = d.tiers ∧
      d'.record = Function.update d.record key (some (r.setPins (r.pinCount - 1))) := by
  unfold unpin
  rcases count_cases hi key (fun r => if r.pinCount = 0 then
      .error (.logicError "pin count already zero") else .ok { r with pinCount := r.pinCount - 1 })
    (by intro r r' hf t; split_ifs at hf; cases hf; exact ChunkRecord.replica_setPins r _ t) with
    ⟨hl, -⟩ | ⟨r₁, hl, ⟨e, hf, -⟩ | ⟨r', hf, hc, hi'⟩⟩
  · rw [show d.records.lookup key = some r from hr] at hl; cases hl
  all_goals
    obtain rfl : r = r₁ := Option.some.inj (hr.symm.trans hl)
    rw [if_neg hpos.ne'] at hf
  · cases hf
  · cases hf
    exact ⟨_, hc, hi', rfl, record_setRecord _ _ _⟩

/-! ## The ends of a transfer -/

/-- Both replicas become READY. -/
theorem ready_run (hi : d.Inv H others) (hr : d.record key = some r)
    (hs : r.replica source = some ⟨ls, ss⟩) (hd : r.replica destination = some ⟨ld, sd⟩)
    (hne : source ≠ destination) :
    ∃ d', (do setState key destination .READY; setState key source .READY : Call CacheDirectory Unit)
        d = .ok () d' ∧ d'.Inv H others ∧ d'.tiers = d.tiers ∧
      d'.record = Function.update d.record key
        (some ((r.setReplica destination (some ⟨ld, .READY⟩)).setReplica source
          (some ⟨ls, .READY⟩))) := by
  obtain ⟨d₁, h₁, hi₁, ht₁, hr₁⟩ := setState_run hi hr hd .READY
  obtain ⟨d₂, h₂, hi₂, ht₂, hr₂⟩ := setState_run hi₁ (by rw [hr₁, Function.update_self])
    ((replica_setReplica_of_ne hne).trans hs) .READY
  refine ⟨d₂, by simp only [bind_apply, h₁, h₂], hi₂, ht₂.trans ht₁, ?_⟩
  rw [hr₂, hr₁, Function.update_idem]

/-- Both replicas become READY and the pin goes. -/
theorem complete_run (hi : d.Inv H others) (hr : d.record key = some r)
    (hs : r.replica source = some ⟨ls, ss⟩) (hd : r.replica destination = some ⟨ld, sd⟩)
    (hne : source ≠ destination) (hpos : 0 < r.pinCount) :
    ∃ d', (do
        setState key destination .READY
        setState key source .READY
        unpin key : Call CacheDirectory Unit) d = .ok () d' ∧ d'.Inv H others ∧
      d'.tiers = d.tiers ∧ d'.record = Function.update d.record key
        (some (((r.setReplica destination (some ⟨ld, .READY⟩)).setReplica source
          (some ⟨ls, .READY⟩)).setPins (r.pinCount - 1))) := by
  obtain ⟨d₁, h₁, hi₁, ht₁, hr₁⟩ := setState_run hi hr hd .READY
  obtain ⟨d₂, h₂, hi₂, ht₂, hr₂⟩ := setState_run hi₁ (by rw [hr₁, Function.update_self])
    ((replica_setReplica_of_ne hne).trans hs) .READY
  obtain ⟨d₃, h₃, hi₃, ht₃, hr₃⟩ := unpin_run hi₂ (by rw [hr₂, Function.update_self])
    (by simpa using hpos)
  refine ⟨d₃, by simp only [bind_apply, h₁, h₂, h₃], hi₃, by rw [ht₃, ht₂, ht₁], ?_⟩
  rw [hr₃, hr₂, hr₁, Function.update_idem, Function.update_idem]
  simp

/-- The destination goes, the source becomes READY again and the pin goes. -/
theorem discard_run (hi : d.Inv H others) (hr : d.record key = some r)
    (hs : r.replica source = some ⟨ls, ss⟩) (hd : r.replica destination = some ⟨ld, sd⟩)
    (hne : source ≠ destination) (hpos : 0 < r.pinCount) :
    ∃ d', (do
        setState key destination .ERROR
        remove key destination
        setState key source .READY
        unpin key : Call CacheDirectory Unit) d = .ok () d' ∧ d'.Inv H others ∧
      d'.tiers.allocatedChunks destination + 1 = d.tiers.allocatedChunks destination ∧
      d'.record = Function.update d.record key
        (some (((r.setReplica destination none).setReplica source (some ⟨ls, .READY⟩)).setPins
          (r.pinCount - 1))) := by
  obtain ⟨d₁, h₁, hi₁, ht₁, hr₁⟩ := setState_run hi hr hd .ERROR
  obtain ⟨d₂, h₂, hi₂, ha₂, hr₂⟩ := remove_run hi₁ (by rw [hr₁, Function.update_self])
    (replica_setReplica_self r _ _) (.inr rfl)
  obtain ⟨d₃, h₃, hi₃, ht₃, hr₃⟩ := setState_run hi₂ (by rw [hr₂, Function.update_self])
    ((replica_setReplica_of_ne hne).trans ((replica_setReplica_of_ne hne).trans hs)) .READY
  obtain ⟨d₄, h₄, hi₄, ht₄, hr₄⟩ := unpin_run hi₃ (by rw [hr₃, Function.update_self])
    (by simpa using hpos)
  refine ⟨d₄, by simp only [bind_apply, h₁, h₂, h₃, h₄], hi₄, by rw [ht₄, ht₃, ha₂, ht₁], ?_⟩
  rw [hr₄, hr₃, hr₂, hr₁, Function.update_idem, Function.update_idem, Function.update_idem]
  congr 2
  refine ext_replica (by simp) (by simp) (by simp) (by simp) fun t => ?_
  by_cases h : t = destination <;> by_cases h' : t = source <;> simp [h, h']

/-- The directory calls of `rollback_submit`. -/
theorem rollback_run (hi : d.Inv H others) (hr : d.record key = some r)
    (hs : r.replica source = some ⟨ls, ss⟩) (hd : r.replica destination = some ⟨ld, sd⟩)
    (hne : source ≠ destination) (hpos : 0 < r.pinCount) :
    ∃ d', (do
        setState key destination .ERROR
        remove key destination
        unpin key
        setState key source .READY : Call CacheDirectory Unit) d = .ok () d' ∧ d'.Inv H others ∧
      d'.record = Function.update d.record key
        (some (((r.setReplica destination none).setReplica source (some ⟨ls, .READY⟩)).setPins
          (r.pinCount - 1))) := by
  obtain ⟨d₁, h₁, hi₁, -, hr₁⟩ := setState_run hi hr hd .ERROR
  obtain ⟨d₂, h₂, hi₂, -, hr₂⟩ := remove_run hi₁ (by rw [hr₁, Function.update_self])
    (replica_setReplica_self r _ _) (.inr rfl)
  obtain ⟨d₃, h₃, hi₃, -, hr₃⟩ := unpin_run hi₂ (by rw [hr₂, Function.update_self])
    (by simpa using hpos)
  obtain ⟨d₄, h₄, hi₄, -, hr₄⟩ := setState_run hi₃ (by rw [hr₃, Function.update_self])
    ((replica_setPins _ _ _).trans ((replica_setReplica_of_ne hne).trans
      ((replica_setReplica_of_ne hne).trans hs))) .READY
  refine ⟨d₄, by simp only [bind_apply, h₁, h₂, h₃, h₄], hi₄, ?_⟩
  rw [hr₄, hr₃, hr₂, hr₁, Function.update_idem, Function.update_idem, Function.update_idem]
  congr 2
  refine ext_replica (by simp) (by simp) (by simp) (by simp) fun t => ?_
  by_cases h : t = destination <;> by_cases h' : t = source <;> simp [h, h']

/-- The directory calls of a clean-up before the transfer counts as pending. -/
theorem revert_run (hi : d.Inv H others) (hr : d.record key = some r)
    (hs : r.replica source = some ⟨ls, ss⟩) (hne : source ≠ destination) :
    ∃ d', (if (r.replica destination).isSome then do
          setState key destination .ERROR
          remove key destination
          setState key source .READY
        else setState key source .READY : Call CacheDirectory Unit) d = .ok () d' ∧
      d'.Inv H others ∧ d'.record = Function.update d.record key
        (some ((r.setReplica destination none).setReplica source (some ⟨ls, .READY⟩))) := by
  cases hd : r.replica destination with
  | none =>
    obtain ⟨d₁, h₁, hi₁, -, hr₁⟩ := setState_run hi hr hs .READY
    refine ⟨d₁, by simpa using h₁, hi₁, ?_⟩
    rw [hr₁]
    congr 2
    refine ext_replica (by simp) (by simp) (by simp) (by simp) fun t => ?_
    by_cases h : t = destination
    · simp [h, hd]
    · simp [h]
  | some slot =>
    obtain ⟨d₁, h₁, hi₁, -, hr₁⟩ := setState_run hi hr hd .ERROR
    obtain ⟨d₂, h₂, hi₂, -, hr₂⟩ := remove_run hi₁ (by rw [hr₁, Function.update_self])
      (replica_setReplica_self r _ _) (.inr rfl)
    obtain ⟨d₃, h₃, hi₃, -, hr₃⟩ := setState_run hi₂ (by rw [hr₂, Function.update_self])
      ((replica_setReplica_of_ne hne).trans ((replica_setReplica_of_ne hne).trans hs)) .READY
    refine ⟨d₃, by simp [h₁, h₂, h₃], hi₃, ?_⟩
    rw [hr₃, hr₂, hr₁, Function.update_idem, Function.update_idem]
    congr 2
    refine ext_replica (by simp) (by simp) (by simp) (by simp) fun t => ?_
    by_cases h : t = destination <;> by_cases h' : t = source <;> simp [h, h']

end CacheDirectory

end KVFlux.V3
