import KVFlux.V3.CacheDirectory

/-!
# The directory and the tiers agree

* `CacheDirectory.locations`: the locations stored in the records, tier by tier.
* `CacheDirectory.Inv`: the tiers' books hold exactly these locations.
* `place_cases`, `remove_cases`, `setState_cases`, `count_cases`, `create_cases`, `destroy_cases`:
  the outcomes of the calls.
-/

namespace KVFlux.V3

open Fallible

namespace ChunkRecord

@[simp] theorem replica_setReplica (r : ChunkRecord) (tier tier' : StorageTier)
    (slot : Option Replica) :
    (r.setReplica tier slot).replica tier' = if tier' = tier then slot else r.replica tier' := by
  cases tier <;> cases tier' <;> rfl

@[simp] theorem setReplica_refCount (r : ChunkRecord) (tier : StorageTier)
    (slot : Option Replica) : (r.setReplica tier slot).refCount = r.refCount := by
  cases tier <;> rfl

@[simp] theorem setReplica_pinCount (r : ChunkRecord) (tier : StorageTier)
    (slot : Option Replica) : (r.setReplica tier slot).pinCount = r.pinCount := by
  cases tier <;> rfl

end ChunkRecord

namespace CacheDirectory

variable {H : Tokens → UInt64} {d d' : CacheDirectory} {others : Multiset BlockHandle}
  {key key' : CacheKey} {r r' : ChunkRecord} {tier : StorageTier} {slot : Replica}

/-- The locations stored in the records. -/
def locations (d : CacheDirectory) (tier : StorageTier) : Multiset TierLocation :=
  Assoc.collect (fun r => (r.replica tier).map Replica.location) d.records

/-- The books of the tiers list exactly the replicas of the records. -/
def Inv (H : Tokens → UInt64) (d : CacheDirectory) (others : Multiset BlockHandle) : Prop :=
  d.tiers.Inv H others d.locations

theorem mem_locations {l : TierLocation} : l ∈ d.locations tier ↔
    ∃ key r slot, d.records.lookup key = some r ∧ r.replica tier = some slot ∧
      slot.location = l := by
  unfold locations
  rw [Assoc.mem_collect]
  simp only [Option.map_eq_some_iff]
  constructor
  · rintro ⟨k, r, hl, s, hs, he⟩; exact ⟨k, r, s, hl, hs, he⟩
  · rintro ⟨k, r, s, hl, hs, he⟩; exact ⟨k, r, hl, s, hs, he⟩

@[simp] theorem setRecord_tiers (d : CacheDirectory) (key : CacheKey) (r : ChunkRecord) :
    (d.setRecord key r).tiers = d.tiers := rfl

@[simp] theorem lookup_setRecord (d : CacheDirectory) (key key' : CacheKey) (r : ChunkRecord) :
    (d.setRecord key r).records.lookup key' =
      if key' = key then some r else d.records.lookup key' :=
  Assoc.lookup_insert d.records key key' r

/-! ## Locations after an update -/

theorem locations_setRecord (hl : d.records.lookup key = some r)
    (hr : ∀ t, (r'.replica t).map Replica.location = (r.replica t).map Replica.location) :
    (d.setRecord key r').locations = d.locations := by
  funext t
  unfold locations
  rw [Assoc.collect_lookup hl]
  unfold setRecord
  rw [Assoc.collect_insert, hr]

theorem locations_place (hl : d.records.lookup key = some r) (hr : r.replica tier = none)
    (slot : Replica) :
    (d.setRecord key (r.setReplica tier (some slot))).locations =
      Function.update d.locations tier (slot.location ::ₘ d.locations tier) := by
  funext t
  unfold locations setRecord
  rw [Assoc.collect_insert]
  by_cases ht : t = tier
  · subst ht
    rw [Function.update_self, Assoc.collect_lookup hl, hr]
    simp
  · rw [Function.update_of_ne ht, Assoc.collect_lookup hl]
    simp [ht]

theorem locations_remove (hl : d.records.lookup key = some r) (hr : r.replica tier = some slot) :
    (d.setRecord key (r.setReplica tier none)).locations =
      Function.update d.locations tier ((d.locations tier).erase slot.location) := by
  funext t
  unfold locations setRecord
  rw [Assoc.collect_insert]
  by_cases ht : t = tier
  · subst ht
    rw [Function.update_self, Assoc.collect_lookup hl, hr]
    simp
  · rw [Function.update_of_ne ht, Assoc.collect_lookup hl]
    simp [ht]

theorem locations_create (hl : d.records.lookup key = none) (hr : ∀ t, r.replica t = none) :
    (d.setRecord key r).locations = d.locations := by
  funext t
  unfold locations setRecord
  rw [Assoc.collect_insert_of_notMem (AList.lookup_eq_none.mp hl), hr]
  simp

theorem locations_destroy (hl : d.records.lookup key = some r) (hr : ∀ t, r.replica t = none) :
    ({ d with records := d.records.erase key } : CacheDirectory).locations = d.locations := by
  funext t
  unfold locations
  rw [Assoc.collect_lookup hl, hr]
  simp

/-! ## Outcomes of the calls -/

theorem lookup_ok (hl : d.records.lookup key = some r) : d.lookup key = .ok r := by
  simp [lookup, hl]

theorem lookup_error (hl : d.records.lookup key = none) : d.lookup key = .error unknownKey := by
  simp [lookup, hl]

theorem create_cases (hi : d.Inv H others) (key : CacheKey) :
    ((∃ r, d.records.lookup key = some r) ∧
      create key d = .error (.invalidArgument "cache key already registered") d) ∨
    (d.records.lookup key = none ∧ create key d = .ok () (d.setRecord key { key := key }) ∧
      (d.setRecord key { key := key }).Inv H others) := by
  unfold create
  cases hl : d.records.lookup key with
  | some r => left; exact ⟨⟨r, rfl⟩, rfl⟩
  | none =>
    right
    refine ⟨rfl, rfl, ?_⟩
    unfold Inv
    rw [locations_create hl fun t => by cases t <;> rfl]
    exact hi

/-- **The outcomes of `place`.** -/
theorem place_cases (hi : d.Inv H others) (key : CacheKey) (tier : StorageTier)
    (state : ChunkState) :
    (d.records.lookup key = none ∧ place key tier state d = .error unknownKey d) ∨
    (∃ r, d.records.lookup key = some r ∧
      (((r.replica tier).isSome ∧ place key tier state d =
          .error (.logicError "tier already holds a replica of this chunk") d) ∨
       (r.replica tier = none ∧
        ((∃ l t', place key tier state d = .ok l
            ({ d with tiers := t' }.setRecord key (r.setReplica tier (some ⟨l, state⟩))) ∧
          ({ d with tiers := t' }.setRecord key (r.setReplica tier (some ⟨l, state⟩))).Inv
            H others) ∨
         (place key tier state d = .error .capacityError d ∧
          (d.tiers.Fresh → d.tiers.available tier = 0)) ∨
         (∃ e t', place key tier state d = .error e { d with tiers := t' } ∧
          ({ d with tiers := t' } : CacheDirectory).Inv H others ∧ ¬ d.tiers.Fresh))))) := by
  unfold place
  cases hl : d.records.lookup key with
  | none => left; rw [lookup_error hl]; exact ⟨rfl, rfl⟩
  | some r =>
    right
    refine ⟨r, rfl, ?_⟩
    rw [lookup_ok hl]
    simp only
    cases hr : r.replica tier with
    | some slot => left; exact ⟨rfl, rfl⟩
    | none =>
      right
      refine ⟨rfl, ?_⟩
      simp only [Option.isSome_none, Bool.false_eq_true, if_false]
      rcases Tiers.Inv.allocate hi tier with ⟨l, t', ha, hi'⟩ | ⟨ha, hf⟩ | ⟨e, t', ha, hi', hf⟩
      · left
        refine ⟨l, t', by rw [ha], ?_⟩
        have hloc := @locations_place { d with tiers := t' } key r tier hl hr ⟨l, state⟩
        unfold Inv
        rw [hloc]
        exact hi'
      · right; left; exact ⟨by rw [ha], hf⟩
      · right; right; exact ⟨e, t', by rw [ha], hi', hf⟩

/-- **The outcomes of `remove`.** The tier always takes the slot back. -/
theorem remove_cases (hi : d.Inv H others) (key : CacheKey) (tier : StorageTier) :
    (d.records.lookup key = none ∧ remove key tier d = .error unknownKey d) ∨
    (∃ r, d.records.lookup key = some r ∧
      ((r.replica tier = none ∧ remove key tier d =
          .error (.logicError "tier holds no replica of this chunk") d) ∨
       (∃ slot, r.replica tier = some slot ∧
        ((slot.state ≠ .READY ∧ slot.state ≠ .ERROR ∧ remove key tier d =
            .error (.logicError "replica is not ready; finish or fail its transfer first") d) ∨
         ((slot.state = .READY ∨ slot.state = .ERROR) ∧ ∃ t', remove key tier d =
            .ok () ({ d with tiers := t' }.setRecord key (r.setReplica tier none)) ∧
          ({ d with tiers := t' }.setRecord key (r.setReplica tier none)).Inv H others))))) := by
  unfold remove
  cases hl : d.records.lookup key with
  | none => left; rw [lookup_error hl]; exact ⟨rfl, rfl⟩
  | some r =>
    right
    refine ⟨r, rfl, ?_⟩
    rw [lookup_ok hl]
    simp only
    cases hr : r.replica tier with
    | none => left; exact ⟨rfl, rfl⟩
    | some slot =>
      right
      refine ⟨slot, rfl, ?_⟩
      simp only
      by_cases hs : slot.state ≠ .READY ∧ slot.state ≠ .ERROR
      · left
        exact ⟨hs.1, hs.2, if_pos hs⟩
      · right
        have hmem : slot.location ∈ d.locations tier := mem_locations.mpr ⟨key, r, slot, hl, hr, rfl⟩
        obtain ⟨t', ht, hi'⟩ := Tiers.Inv.release hi tier hmem
        refine ⟨by by_contra hn; exact hs (not_or.mp hn), t', ?_, ?_⟩
        · rw [if_neg hs, ht]
        · have hloc := @locations_remove { d with tiers := t' } key r tier slot hl hr
          unfold Inv
          rw [hloc]
          exact hi'

/-- **The outcomes of `set_state`.** -/
theorem setState_cases (hi : d.Inv H others) (key : CacheKey) (tier : StorageTier)
    (state : ChunkState) :
    (d.records.lookup key = none ∧ setState key tier state d = .error unknownKey d) ∨
    (∃ r, d.records.lookup key = some r ∧
      ((r.replica tier = none ∧ setState key tier state d =
          .error (.logicError "tier holds no replica of this chunk") d) ∨
       (∃ slot, r.replica tier = some slot ∧ setState key tier state d =
          .ok () (d.setRecord key (r.setReplica tier (some { slot with state := state }))) ∧
        (d.setRecord key (r.setReplica tier (some { slot with state := state }))).Inv H
          others))) := by
  unfold setState
  cases hl : d.records.lookup key with
  | none => left; rw [lookup_error hl]; exact ⟨rfl, rfl⟩
  | some r =>
    right
    refine ⟨r, rfl, ?_⟩
    rw [lookup_ok hl]
    simp only
    cases hr : r.replica tier with
    | none => left; exact ⟨rfl, rfl⟩
    | some slot =>
      right
      refine ⟨slot, rfl, rfl, ?_⟩
      unfold Inv
      rw [locations_setRecord hl fun t => ?_]
      · exact hi
      · by_cases ht : t = tier
        · subst ht; simp [hr]
        · simp [ht]

/-- The outcomes of the calls that change a counter. -/
theorem count_cases (hi : d.Inv H others) (key : CacheKey)
    (f : ChunkRecord → Except Exn ChunkRecord)
    (hf : ∀ r r', f r = .ok r' → ∀ t, r'.replica t = r.replica t) :
    (d.records.lookup key = none ∧ count key f d = .error unknownKey d) ∨
    (∃ r, d.records.lookup key = some r ∧
      ((∃ e, f r = .error e ∧ count key f d = .error e d) ∨
       (∃ r', f r = .ok r' ∧ count key f d = .ok () (d.setRecord key r') ∧
        (d.setRecord key r').Inv H others))) := by
  unfold count
  cases hl : d.records.lookup key with
  | none => left; rw [lookup_error hl]; exact ⟨rfl, rfl⟩
  | some r =>
    right
    refine ⟨r, rfl, ?_⟩
    rw [lookup_ok hl]
    simp only
    cases hr : f r with
    | error e => left; exact ⟨e, rfl, rfl⟩
    | ok r' =>
      right
      refine ⟨r', rfl, rfl, ?_⟩
      unfold Inv
      rw [locations_setRecord hl fun t => by rw [hf r r' hr]]
      exact hi

/-- **The outcomes of `destroy`.** -/
theorem destroy_cases (hi : d.Inv H others) (key : CacheKey) :
    (∃ e, destroy key d = .error e d) ∨
    (∃ r, d.records.lookup key = some r ∧ (∀ t, r.replica t = none) ∧ r.refCount = 0 ∧
      r.pinCount = 0 ∧ destroy key d = .ok () { d with records := d.records.erase key } ∧
      ({ d with records := d.records.erase key } : CacheDirectory).Inv H others) := by
  unfold destroy
  cases hl : d.records.lookup key with
  | none => left; rw [lookup_error hl]; exact ⟨_, rfl⟩
  | some r =>
    rw [lookup_ok hl]
    simp only
    by_cases hr : r.gpu.isSome ∨ r.cpu.isSome ∨ r.nvme.isSome
    · left; exact ⟨_, if_pos hr⟩
    rw [if_neg hr]
    by_cases hc : r.refCount ≠ 0 ∨ r.pinCount ≠ 0
    · left; exact ⟨_, if_pos hc⟩
    right
    have hnone : ∀ t, r.replica t = none := by
      simp only [not_or, Bool.not_eq_true, Option.isSome_eq_false_iff, Option.isNone_iff_eq_none]
        at hr
      intro t
      cases t with
      | GPU => exact hr.1
      | CPU => exact hr.2.1
      | NVME => exact hr.2.2
    simp only [ne_eq, not_or, not_not] at hc
    refine ⟨r, rfl, hnone, hc.1, hc.2, if_neg (by simp [hc]), ?_⟩
    have hloc := locations_destroy hl hnone
    unfold Inv
    rw [hloc]
    exact hi

end CacheDirectory

end KVFlux.V3
