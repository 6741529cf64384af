import KVFlux.Lib.Transition
import KVFlux.V3.TierInvariant

/-!
# Runs of a slot pool

* `Session`: a slot pool, and beside it the locations that are out. `Sparing`: no allocation finds a
  slot whose generation is exhausted at the head of the free list.
* `Books`: what the pool reports about its slots.
* `Sound`: the invariant; **`step_sound`**, **`sound_of_reachable`**: the step and the run lemma.
* **`books_exact`**: a sparing run keeps its books. **`books_lost`**: the allocation that ends one
  loses a slot, and the pool then takes a location back that it already has.
-/

namespace KVFlux.V3

open Fallible Threaded

namespace SlotTier

/-- `used_bytes()`. -/
def usedBytes (t : SlotTier) : ℕ := t.allocated * t.chunkBytes % (sizeMax + 1)

/-- `available_bytes()`. -/
def availableBytes (t : SlotTier) : ℕ := t.available * t.chunkBytes % (sizeMax + 1)

/-- A slot pool and the locations that were returned and have not been released since. -/
structure Session where
  tier : SlotTier
  out : Multiset TierLocation

namespace Session

inductive Action
  | allocate
  | release (location : TierLocation)
deriving DecidableEq, Repr

def step : Action → Session → Option Session
  | .allocate, s =>
    match SlotTier.allocate s.tier with
    | .ok l t => some ⟨t, l ::ₘ s.out⟩
    | .error _ t => some { s with tier := t }
  | .release l, s =>
    match SlotTier.release l s.tier with
    | .ok _ t => some ⟨t, s.out.erase l⟩
    | .error _ t => some { s with tier := t }

/-- A new pool. -/
def Start (s : Session) : Prop :=
  (∃ kind chunkSlots chunkBytes, SlotTier.new kind chunkSlots chunkBytes = .ok s.tier) ∧ s.out = 0

/-- An allocation finds no slot, or one with a generation left. -/
def Sparing (s : Session) : Action → Prop
  | .allocate => ¬ s.tier.Exhausted
  | .release _ => True

instance (t : SlotTier) : Decidable t.Exhausted :=
  decidable_of_iff (t.freeHead.any fun id => (t.slots id).generation = u64Max) (by
    rw [Option.any_eq_true]
    exact ⟨fun ⟨id, hh, hg⟩ => ⟨id, hh, of_decide_eq_true hg⟩,
      fun ⟨id, hh, hg⟩ => ⟨id, hh, decide_eq_true hg⟩⟩)

instance (s : Session) (a : Action) : Decidable (s.Sparing a) := by
  cases a <;> unfold Sparing <;> infer_instance

/-- **The books of the pool.** -/
structure Books (s : Session) : Prop where
  free_list : ∃ free, Chain (fun i => (s.tier.slots i).nextFree) s.tier.freeHead free ∧
    free.Nodup ∧ ∀ i, i ∈ free ↔ i < s.tier.capacity ∧ (s.tier.slots i).free = true
  allocated_eq : s.tier.allocated =
    ((Finset.range s.tier.capacity).filter fun i => (s.tier.slots i).free = false).card
  /-- `size_t` products wrap around -/
  bytes : (s.tier.usedBytes + s.tier.availableBytes) % (sizeMax + 1) =
    s.tier.capacity * s.tier.chunkBytes % (sizeMax + 1)
  bytes_exact : s.tier.capacity * s.tier.chunkBytes ≤ sizeMax →
    s.tier.usedBytes + s.tier.availableBytes = s.tier.capacity * s.tier.chunkBytes
  release_throws : ∀ l err t', SlotTier.release l s.tier = .error err t' → t' = s.tier
  accepts : ∀ l, (∃ t', SlotTier.release l s.tier = .ok () t') ↔ l ∈ s.out

/-! ## The invariant -/

/-- **The invariant.** No slot is lost. -/
structure Sound (s : Session) : Prop where
  inv : s.tier.Inv s.out
  taken : ∀ i < s.tier.capacity, (s.tier.slots i).free = false →
    i ∈ s.out.map TierLocation.slot

variable {s s' : Session} {t t' : SlotTier} {l : TierLocation}

theorem release_of_not_live (hl : ¬ t.Live l) :
    ∃ err, SlotTier.release l t = .error err t := by
  unfold SlotTier.release
  split_ifs with hstale
  · exact ⟨_, rfl⟩
  · push Not at hstale
    dsimp only
    split_ifs with hfree
    · exact ⟨_, rfl⟩
    · exact absurd ⟨hstale.1, Bool.eq_false_iff.mpr hfree, hstale.2⟩ hl

/-- `release` accepts what is live. -/
theorem release_iff : (∃ t', SlotTier.release l t = .ok () t') ↔ t.Live l := by
  constructor
  · rintro ⟨t', h⟩
    by_contra hl
    obtain ⟨err, he⟩ := release_of_not_live hl
    rw [he] at h
    cases h
  · exact fun hl => ⟨_, release_of_live hl⟩

namespace Sound

/-- What is live is out. -/
theorem live_iff (hs : s.Sound) : s.tier.Live l ↔ l ∈ s.out := by
  refine ⟨fun hl => ?_, hs.inv.live l⟩
  obtain ⟨l', hl', he⟩ := Multiset.mem_map.mp (hs.taken l.slot hl.1 hl.2.1)
  have hgen : l'.generation = l.generation := by
    rw [← (hs.inv.live l' hl').2.2, he]
    exact hl.2.2
  have heq : l' = l := by
    cases l
    cases l'
    simp_all
  rwa [← heq]

theorem take (hs : s.Sound) {id : ℕ} (hh : s.tier.freeHead = some id)
    (hg : (s.tier.slots id).generation ≠ u64Max) :
    Sound ⟨s.tier.take id, ⟨id, (s.tier.slots id).generation + 1⟩ ::ₘ s.out⟩ := by
  refine ⟨hs.inv.take hh hg, fun i hi hfree => ?_⟩
  rw [Multiset.map_cons, Multiset.mem_cons]
  by_cases h : i = id
  · exact .inl h
  · rw [take_slots, if_neg h] at hfree
    exact .inr (hs.taken i hi hfree)

theorem giveBack (hs : s.Sound) (hl : l ∈ s.out) :
    Sound ⟨s.tier.giveBack l.slot, s.out.erase l⟩ := by
  refine ⟨hs.inv.giveBack hl, fun i hi hfree => ?_⟩
  have hne : i ≠ l.slot := by
    rintro rfl
    simp at hfree
  rw [giveBack_slots, if_neg hne] at hfree
  obtain ⟨l', hl', rfl⟩ := Multiset.mem_map.mp (hs.taken i hi hfree)
  have hne' : l' ≠ l := by
    rintro rfl
    exact hne rfl
  exact Multiset.mem_map_of_mem _ ((Multiset.mem_erase_of_ne hne').mpr hl')

/-- The slots that are not free are those of the locations that are out. -/
theorem card_eq (hs : s.Sound) :
    ((Finset.range s.tier.capacity).filter fun i => (s.tier.slots i).free = false).card =
      s.out.card := by
  have hslots : ((Finset.range s.tier.capacity).filter fun i => (s.tier.slots i).free = false) =
      (s.out.map TierLocation.slot).toFinset := by
    ext i
    rw [Finset.mem_filter, Finset.mem_range, Multiset.mem_toFinset]
    constructor
    · exact fun h => hs.taken i h.1 h.2
    · intro h
      obtain ⟨l, hl, rfl⟩ := Multiset.mem_map.mp h
      exact ⟨(hs.inv.live l hl).1, (hs.inv.live l hl).2.1⟩
  rw [hslots, Multiset.toFinset_card_of_nodup hs.inv.nodup, Multiset.card_map]

theorem bytes (hs : s.Sound) : s.tier.allocated * s.tier.chunkBytes +
    s.tier.available * s.tier.chunkBytes = s.tier.capacity * s.tier.chunkBytes := by
  have hle := hs.inv.card_le
  rw [available, hs.inv.allocated_eq, sizeSub_of_le hle, ← Nat.add_mul, Nat.add_sub_cancel' hle]

theorem books (hs : s.Sound) : s.Books := by
  refine ⟨hs.inv.free_list, ?_, ?_, fun hle => ?_, fun l err t' h => ?_, fun l => ?_⟩
  · rw [hs.card_eq, hs.inv.allocated_eq]
  · rw [usedBytes, availableBytes, ← Nat.add_mod, hs.bytes]
  · have hsum := hs.bytes
    have hused : s.tier.usedBytes = s.tier.allocated * s.tier.chunkBytes :=
      Nat.mod_eq_of_lt (by omega)
    have havailable : s.tier.availableBytes = s.tier.available * s.tier.chunkBytes :=
      Nat.mod_eq_of_lt (by omega)
    rw [hused, havailable, hsum]
  · by_cases hl : s.tier.Live l
    · rw [release_of_live hl] at h
      cases h
    · obtain ⟨err', he⟩ := release_of_not_live hl
      rw [he] at h
      cases h
      rfl
  · rw [release_iff, hs.live_iff]

end Sound

/-- **The step lemma.** -/
theorem step_sound {a : Action} (hs : s.Sound) (ha : s.Sparing a) (h : step a s = some s') :
    s'.Sound := by
  cases a with
  | allocate =>
    rcases allocate_cases s.tier with ⟨-, hc⟩ | ⟨id, hh, hg, -⟩ | ⟨id, hh, hg, hc⟩
    · simp only [step, hc] at h
      cases h
      exact hs
    · exact absurd ⟨id, hh, hg⟩ ha
    · simp only [step, hc] at h
      cases h
      exact hs.take hh hg
  | release l =>
    by_cases hl : s.tier.Live l
    · simp only [step, release_of_live hl] at h
      cases h
      exact hs.giveBack (hs.live_iff.mp hl)
    · obtain ⟨err, he⟩ := release_of_not_live hl
      simp only [step, he] at h
      cases h
      exact hs

theorem start_sound (hs : Start s) : s.Sound := by
  obtain ⟨⟨kind, chunkSlots, chunkBytes, hnew⟩, hout⟩ := hs
  have hinv := inv_new hnew
  refine ⟨by rwa [hout], fun i hi hfree => ?_⟩
  unfold SlotTier.new at hnew
  split_ifs at hnew
  rw [← Except.ok.inj hnew] at hfree
  cases hfree

/-- **The run lemma.** -/
theorem sound_of_reachable (hr : Transition.Reachable step Start Sparing s) : s.Sound :=
  hr.invariant (fun _ => start_sound) fun _ _ _ _ hs ha h => step_sound hs ha h

/-- An allocation that throws changes nothing unless it has found an exhausted slot. -/
theorem Sound.allocate_throws (hs : s.Sound) :
    (∀ err t', SlotTier.allocate s.tier = .error err t' → t' = s.tier) ↔ ¬ s.tier.Exhausted := by
  rcases allocate_cases s.tier with ⟨hh, hc⟩ | ⟨id, hh, hg, hc⟩ | ⟨id, hh, hg, hc⟩
  · have hne : ¬ s.tier.Exhausted := by
      rintro ⟨id, hid, -⟩
      rw [hh] at hid
      cases hid
    refine iff_of_true (fun err t' h => ?_) hne
    rw [hc] at h
    cases h
    rfl
  · refine iff_of_false (fun h => ?_) (not_not.mpr ⟨id, hh, hg⟩)
    have hfree := (hs.inv.head_slot hh).2
    have hsame := h _ _ hc
    rw [← hsame, lose_slots, if_pos rfl] at hfree
    cases hfree
  · have hne : ¬ s.tier.Exhausted := by
      rintro ⟨id', hid, hg'⟩
      obtain rfl := Option.some.inj (hh.symm.trans hid)
      exact hg hg'
    refine iff_of_true (fun err t' h => ?_) hne
    rw [hc] at h
    cases h

/-- **Main result.** In every run whose allocations never meet an exhausted generation the pool keeps
its books, and its next allocation changes nothing when it throws exactly if it does not meet one
either. -/
theorem books_exact (hr : Transition.Reachable step Start Sparing s) :
    s.Books ∧ ((∀ err t', SlotTier.allocate s.tier = .error err t' → t' = s.tier) ↔
      ¬ s.tier.Exhausted) :=
  ⟨(sound_of_reachable hr).books, (sound_of_reachable hr).allocate_throws⟩

/-- Two slots, one of them taken, given back and taken again. -/
theorem books_exact_two : ∃ s : Session, s.out = {⟨0, 2⟩} ∧ s.Books ∧
    ((∀ err t', SlotTier.allocate s.tier = .error err t' → t' = s.tier) ↔ ¬ s.tier.Exhausted) := by
  have hcheck : (Transition.runChecked step (fun s a => decide (s.Sparing a))
      [.allocate, .release ⟨0, 1⟩, .allocate] ⟨init .NVME 2 64, 0⟩).any
        (fun s => decide (s.out = {⟨0, 2⟩})) = true := by decide +kernel
  obtain ⟨s, hrun, hout⟩ := (Option.any_eq_true _ _).mp hcheck
  have hnew : Transition.Reachable step Start Sparing ⟨init .NVME 2 64, 0⟩ :=
    .start ⟨⟨.NVME, 2, 64, rfl⟩, rfl⟩
  have hreachable := hnew.runChecked (fun a _ s h => of_decide_eq_true h) hrun
  exact ⟨s, of_decide_eq_true hout, books_exact hreachable⟩

/-! ## A lost slot -/

/-- A pool of one slot that has been taken and given back `n` times. -/
def worn (n : ℕ) : SlotTier := (init .CPU 1 1).setSlot 0 { generation := n }

theorem allocate_worn {n : ℕ} (hn : n ≠ u64Max) :
    SlotTier.allocate (worn n) = .ok ⟨0, n + 1⟩ ((worn n).take 0) := by
  have hgen : ((worn n).slots 0).generation = n := by simp [worn]
  rcases allocate_cases (worn n) with ⟨hh, -⟩ | ⟨id, hh, hg, -⟩ | ⟨id, hh, -, hc⟩
  · cases hh
  · cases hh
    exact absurd (hgen.symm.trans hg) hn
  · cases hh
    rw [hc, hgen]

theorem release_worn (n : ℕ) :
    SlotTier.release ⟨0, n + 1⟩ ((worn n).take 0) = .ok () (worn (n + 1)) := by
  have hlive : ((worn n).take 0).Live ⟨0, n + 1⟩ :=
    ⟨Nat.one_pos, by simp, by simp [worn]⟩
  rw [release_of_live hlive]
  simp [SlotTier.giveBack, SlotTier.take, worn, setSlot, init]

theorem reachable_worn {n : ℕ} (hn : n ≤ u64Max) :
    Transition.Reachable step Start Transition.Any ⟨worn n, 0⟩ := by
  induction n with
  | zero =>
    have hnew : worn 0 = init .CPU 1 1 := by
      have hslot : Function.update (init .CPU 1 1).slots 0 {} = (init .CPU 1 1).slots :=
        Function.update_eq_self 0 _
      simp only [worn, setSlot, hslot]
    exact .start ⟨⟨.CPU, 1, 1, by rw [hnew]; rfl⟩, rfl⟩
  | succ n ih =>
    have hne : n ≠ u64Max := by omega
    have htake := Transition.Reachable.step (a := .allocate) (ih (by omega)) trivial
      (by simp only [step, allocate_worn hne]; rfl)
    refine .step (a := .release ⟨0, n + 1⟩) htake trivial ?_
    simp only [step, release_worn]
    rw [Multiset.erase_cons_head]

/-- The allocation that follows throws, and the only slot is neither free nor out. The pool then
takes back the location it got back last, and its counter wraps around. -/
theorem books_lost : ∃ s s' : Session, Transition.Reachable step Start Transition.Any s ∧
    Transition.Reachable step Start Transition.Any s' ∧
    SlotTier.allocate s.tier = .error (.overflowError "slot generation exhausted") s'.tier ∧
    s'.tier ≠ s.tier ∧ s'.out = 0 ∧
    (∃ t, SlotTier.release ⟨0, u64Max⟩ s'.tier = .ok () t ∧ t.allocated = sizeMax) ∧
    ¬ s'.Books := by
  have hreachable := reachable_worn le_rfl
  have hgen : ((worn u64Max).slots 0).generation = u64Max := by simp [worn]
  have hthrows : SlotTier.allocate (worn u64Max) =
      .error (.overflowError "slot generation exhausted") ((worn u64Max).lose 0) := by
    rcases allocate_cases (worn u64Max) with ⟨hh, -⟩ | ⟨id, hh, -, hc⟩ | ⟨id, hh, hg, -⟩
    · cases hh
    · cases hh
      exact hc
    · cases hh
      exact absurd hgen hg
  have hnext : Transition.Reachable step Start Transition.Any ⟨(worn u64Max).lose 0, 0⟩ :=
    .step (a := .allocate) hreachable trivial (by simp only [step, hthrows])
  have hlive : ((worn u64Max).lose 0).Live ⟨0, u64Max⟩ := ⟨Nat.one_pos, by simp, by simp [worn]⟩
  refine ⟨_, _, hreachable, hnext, hthrows, fun h => ?_, rfl, ⟨_, release_of_live hlive, rfl⟩,
    fun hbooks => ?_⟩
  · have hfree : (((worn u64Max).lose 0).slots 0).free = ((worn u64Max).slots 0).free :=
      congrArg (fun t => (t.slots 0).free) h
    simp [worn] at hfree
  · exact Multiset.notMem_zero _ ((hbooks.accepts _).mp ⟨_, release_of_live hlive⟩)

end Session

end SlotTier

end KVFlux.V3
