import KVFlux.BlockManager.Acquire
import KVFlux.BlockManager.Calls

/-!
# The lifetimes of the slots

The history of a manager as a list of events of its slots: handed out, back in use, idle, free.

* `SlotEvent`, `slotCalls`, `slotHistory`: the calls beside a log of these events;
  `slotHistory_fst`: without the log they are the calls.
* `Policy`: a stack of free slots and a queue of idle ones, fed by the events.
* `current`, `handles`: the handle of the lifetime of a slot, and all handles ever returned.
* `zeroedAt`: when a slot lost its last reference.
* `Slots`, **`slotHistory_slots`**: the invariant of a history.
-/

namespace KVFlux.BlockManager

open Fallible

/-- A slot is handed out, gets a reference while it is idle, or loses its last reference. -/
inductive SlotEvent
  | allocated (h : BlockHandle)
  | revived (id : ℕ)
  | idled (id : ℕ)
  | freed (id : ℕ)
deriving DecidableEq

/-- The events of a `retain` of the slot. -/
def retainEvents (m : BlockManager) (id : ℕ) : List SlotEvent :=
  if (m.slots id).refs = 0 then [.revived id] else []

/-- The events of a `release` of the slot. -/
def releaseEvents (m : BlockManager) (id : ℕ) : List SlotEvent :=
  if (m.slots id).refs ≠ 1 then [] else if (m.slots id).cached then [.idled id] else [.freed id]

/-- The events of a `lookup`. -/
def lookupEvents (m : BlockManager) : Option BlockHandle → List SlotEvent
  | some h => m.retainEvents h.id
  | none => []

/-- The calls on single blocks beside the log. -/
def slotCalls : Calls (BlockManager × List SlotEvent) where
  manager := Prod.fst
  allocate := observed allocate fun _ h => [.allocated h]
  retain h := observed (retain h) fun m _ => m.retainEvents h.id
  release h := observed (release h) fun m _ => m.releaseEvents h.id
  publish hasher h p := observed (publish hasher h p) fun _ _ => []
  lookup hasher p := observed (lookup hasher p) lookupEvents

/-- The manager after some calls, and the events of its slots. -/
def slotHistory (m : BlockManager) (ops : List (Hasher × Op)) : BlockManager × List SlotEvent :=
  slotCalls.run (m, []) ops

theorem slotCalls_faithful : slotCalls.Faithful where
  allocate := .observed BlockManager.allocate fun _ h => [SlotEvent.allocated h]
  retain h := .observed (BlockManager.retain h) fun m _ => m.retainEvents h.id
  release h := .observed (BlockManager.release h) fun m _ => m.releaseEvents h.id
  publish hasher h p := .observed (BlockManager.publish hasher h p) fun _ _ => []
  lookup hasher p := .observed (BlockManager.lookup hasher p) lookupEvents

/-- Without the log the history is the run. -/
theorem slotHistory_fst (m : BlockManager) (ops : List (Hasher × Op)) :
    (slotHistory m ops).1 = run m ops :=
  Calls.run_manager slotCalls_faithful ops (m, [])

/-! ## Reading the log -/

/-- The slots that can be handed out: free ones, the newest first, and idle ones, the oldest
first. -/
structure Policy where
  stack : List ℕ
  queue : List ℕ

def Policy.apply (p : Policy) : SlotEvent → Policy
  | .allocated h => ⟨p.stack.erase h.id, p.queue.erase h.id⟩
  | .revived id => { p with queue := p.queue.erase id }
  | .idled id => { p with queue := p.queue ++ [id] }
  | .freed id => { p with stack := id :: p.stack }

/-- The slot that is handed out next. -/
def Policy.next (p : Policy) : Option ℕ := p.stack.head? <|> p.queue.head?

/-- All slots are free at first, the lowest id on top. -/
def policy (capacity : ℕ) (log : List SlotEvent) : Policy :=
  log.foldl Policy.apply ⟨List.range capacity, []⟩

/-- The handle of the slot's lifetime; none while the slot is free. -/
def SlotEvent.apply (handle : ℕ → Option BlockHandle) : SlotEvent → ℕ → Option BlockHandle
  | .allocated h => Function.update handle h.id (some h)
  | .freed id => Function.update handle id none
  | _ => handle

def current (log : List SlotEvent) : ℕ → Option BlockHandle :=
  log.foldl SlotEvent.apply fun _ => none

/-- The handle that an event returns. -/
def SlotEvent.handle : SlotEvent → Option BlockHandle
  | .allocated h => some h
  | _ => none

/-- The handles returned so far. -/
def handles (log : List SlotEvent) : List BlockHandle := log.filterMap SlotEvent.handle

/-- The event takes the last reference to the slot. -/
def SlotEvent.zeroes (id : ℕ) : SlotEvent → Bool
  | .idled i => i = id
  | .freed i => i = id
  | _ => false

/-- The time of the last event that took the last reference to the slot, `0` if there is none. -/
def zeroedAt (log : List SlotEvent) (id : ℕ) : ℕ :=
  (log.zipIdx 1).foldl (fun t e => if e.1.zeroes id then e.2 else t) 0

section Log

variable {log : List SlotEvent} {e : SlotEvent} {capacity id : ℕ}

theorem policy_append : policy capacity (log ++ [e]) = (policy capacity log).apply e := by
  rw [policy, List.foldl_append]
  rfl

theorem current_append : current (log ++ [e]) = e.apply (current log) := by
  rw [current, List.foldl_append]
  rfl

theorem handles_append : handles (log ++ [e]) = handles log ++ e.handle.toList := by
  rw [handles, List.filterMap_append]
  cases h : e.handle <;> simp [h, handles]

theorem zeroedAt_append :
    zeroedAt (log ++ [e]) id = if e.zeroes id then log.length + 1 else zeroedAt log id := by
  rw [zeroedAt, List.zipIdx_append, List.foldl_append]
  simp [zeroedAt, Nat.add_comm]

theorem zeroedAt_le : zeroedAt log id ≤ log.length := by
  induction log using List.reverseRecOn with
  | nil => simp [zeroedAt]
  | append_singleton log e ih =>
    rw [zeroedAt_append, List.length_append, List.length_singleton]
    split_ifs <;> omega

end Log

/-! ## The invariant -/

/-- The slot `i` was freed after `j`; the slots that were never used come last, in order. -/
def Newer (log : List SlotEvent) (i j : ℕ) : Prop :=
  zeroedAt log j < zeroedAt log i ∨ zeroedAt log i = 0 ∧ zeroedAt log j = 0 ∧ i < j

/-- The slot `i` turned idle before `j`. -/
def Older (log : List SlotEvent) (i j : ℕ) : Prop := zeroedAt log i < zeroedAt log j

/-- **The invariant of a history.** -/
structure Slots (capacity : ℕ) (s : BlockManager × List SlotEvent) : Prop where
  capacity_eq : s.1.capacity = capacity
  shape : Shape s.1 (policy capacity s.2).stack (policy capacity s.2).queue
  current_eq : ∀ i, current s.2 i =
    if (s.1.slots i).free then none else some ⟨i, (s.1.slots i).generation⟩
  age : ∀ h ∈ handles s.2, h.generation ≤ (s.1.slots h.id).generation
  nodup : (handles s.2).Nodup
  stack_order : (policy capacity s.2).stack.Pairwise (Newer s.2)
  queue_order : (policy capacity s.2).queue.Pairwise (Older s.2)
  next_eq : ∀ log₁ h log₂, s.2 = log₁ ++ .allocated h :: log₂ →
    (policy capacity log₁).next = some h.id

variable {m m' : BlockManager} {log : List SlotEvent} {e : SlotEvent} {capacity id : ℕ}
  {h : BlockHandle} {hasher : Hasher} {p : Tokens}

/-- A list of slots whose times an event does not change stays in order. -/
theorem Newer.congr {i j : ℕ} (hn : Newer log i j) (hi : e.zeroes i = false)
    (hj : e.zeroes j = false) : Newer (log ++ [e]) i j := by
  unfold Newer
  rw [zeroedAt_append, zeroedAt_append, hi, hj]
  exact hn

theorem Older.congr {i j : ℕ} (hn : Older log i j) (hi : e.zeroes i = false)
    (hj : e.zeroes j = false) : Older (log ++ [e]) i j := by
  unfold Older
  rw [zeroedAt_append, zeroedAt_append, hi, hj]
  exact hn

theorem next_append (hn : ∀ log₁ h log₂, log = log₁ ++ .allocated h :: log₂ →
    (policy capacity log₁).next = some h.id)
    (he : ∀ h, e = .allocated h → (policy capacity log).next = some h.id) :
    ∀ log₁ h log₂, log ++ [e] = log₁ ++ .allocated h :: log₂ →
      (policy capacity log₁).next = some h.id := by
  intro log₁ h log₂ hl
  rcases List.eq_nil_or_concat log₂ with rfl | ⟨log₃, a, rfl⟩
  · obtain ⟨rfl, h₂⟩ := List.append_inj' hl rfl
    exact he h (List.cons.inj h₂).1
  · rw [List.concat_eq_append, ← List.cons_append, ← List.append_assoc] at hl
    exact hn log₁ h log₃ (List.append_inj' hl rfl).1

namespace Slots

theorem not_mem_stack (hs : Slots capacity (m, log)) (hf : (m.slots id).free = false) :
    id ∉ (policy capacity log).stack := fun hm => by
  rw [((hs.shape.lists.mem_free id).mp hm).2] at hf
  cases hf

theorem not_mem_queue (hs : Slots capacity (m, log)) (hr : (m.slots id).refs ≠ 0) :
    id ∉ (policy capacity log).queue := fun hm => hr ((hs.shape.lists.mem_idle id).mp hm).2

/-- **A reference to a slot**, which leaves the queue. -/
theorem retained (hs : Slots capacity (m, log)) (hf : (m.slots id).free = false)
    (hr : (m.slots id).refs ≠ sizeMax) :
    Slots capacity (m.retained id, log ++ m.retainEvents id) := by
  have hshape := hs.shape.retained hf hr
  have hsteady : ∀ i, ((m.retained id).slots i).free = (m.slots i).free ∧
      ((m.retained id).slots i).generation = (m.slots i).generation := by
    intro i
    rw [retained_slots]
    split_ifs with hi
    · rw [hi]; exact ⟨rfl, rfl⟩
    · exact ⟨rfl, rfl⟩
  unfold retainEvents
  split_ifs with h0
  · refine ⟨retained_capacity.trans hs.capacity_eq, ?_, fun i => ?_, fun g hg => ?_, ?_, ?_, ?_,
      next_append hs.next_eq nofun⟩
    · rw [policy_append]
      exact hshape
    · rw [current_append, (hsteady i).1, (hsteady i).2]
      exact hs.current_eq i
    · rw [(hsteady g.id).2]
      exact hs.age g (by simpa [handles_append, SlotEvent.handle] using hg)
    · simpa [handles_append, SlotEvent.handle] using hs.nodup
    · rw [policy_append]
      exact hs.stack_order.imp fun hn => hn.congr rfl rfl
    · rw [policy_append]
      exact (hs.queue_order.sublist List.erase_sublist).imp fun hn => hn.congr rfl rfl
  · rw [List.append_nil]
    rw [List.erase_of_not_mem (hs.not_mem_queue h0)] at hshape
    refine ⟨retained_capacity.trans hs.capacity_eq, hshape, fun i => ?_, fun g hg => ?_, hs.nodup,
      hs.stack_order, hs.queue_order, hs.next_eq⟩
    · rw [(hsteady i).1, (hsteady i).2]
      exact hs.current_eq i
    · rw [(hsteady g.id).2]
      exact hs.age g hg

theorem zeroes_of_mem {xs : List ℕ} (hn : id ∉ xs) (he : ∀ i, e.zeroes i = true → i = id) {i : ℕ}
    (hi : i ∈ xs) : e.zeroes i = false := by
  by_contra hz
  exact hn (he i (Bool.not_eq_false _ ▸ hz) ▸ hi)

/-- **The last reference goes**: the slot turns free or idle. -/
theorem zeroed (hs : Slots capacity (m, log)) (hf : (m.slots id).free = false)
    (hr : (m.slots id).refs = 1) :
    Slots capacity (m.released id, log ++ m.releaseEvents id) := by
  have hr₀ : (m.slots id).refs ≠ 0 := by omega
  have hshape := hs.shape.released hf hr₀
  have hstack := hs.not_mem_stack hf
  have hqueue := hs.not_mem_queue hr₀
  have hgen : ∀ i, ((m.released id).slots i).generation = (m.slots i).generation := fun i =>
    (released_steady m id i).1
  unfold releaseEvents
  rw [if_neg (by rw [hr]; simp)]
  unfold releasedFree releasedIdle at hshape
  cases hc : (m.slots id).cached with
  | true =>
    rw [if_neg (by simp [hc]), if_pos ⟨hr, hc⟩] at hshape
    rw [if_pos rfl]
    have hz : ∀ i, (SlotEvent.idled id).zeroes i = true → i = id := fun i h => by
      simpa [SlotEvent.zeroes, eq_comm] using h
    refine ⟨released_capacity.trans hs.capacity_eq, ?_, fun i => ?_, fun g hg => ?_, ?_, ?_, ?_,
      next_append hs.next_eq nofun⟩
    · rw [policy_append]
      exact hshape
    · rw [current_append, hgen, released_slots]
      show current log i = _
      rw [hs.current_eq i]
      split_ifs with hi h1 h2 h3 <;> simp_all
    · rw [hgen]
      exact hs.age g (by simpa [handles_append, SlotEvent.handle] using hg)
    · simpa [handles_append, SlotEvent.handle] using hs.nodup
    · rw [policy_append]
      refine List.Pairwise.imp_of_mem (fun hi hj hn => hn.congr ?_ ?_) hs.stack_order
      · exact zeroes_of_mem hstack hz hi
      · exact zeroes_of_mem hstack hz hj
    · rw [policy_append]
      refine List.pairwise_append.mpr ⟨?_, List.pairwise_singleton _ _, fun i hi j hj => ?_⟩
      · exact List.Pairwise.imp_of_mem
          (fun hi hj hn => hn.congr (zeroes_of_mem hqueue hz hi) (zeroes_of_mem hqueue hz hj))
          hs.queue_order
      · rw [List.mem_singleton.mp hj]
        unfold Older
        rw [zeroedAt_append, zeroedAt_append, zeroes_of_mem hqueue hz hi]
        have := @zeroedAt_le log i
        simp only [SlotEvent.zeroes, decide_true, if_true]
        exact Nat.lt_succ_of_le this
  | false =>
    rw [if_pos ⟨hr, hc⟩, if_neg (by simp [hc])] at hshape
    rw [if_neg (by simp)]
    have hz : ∀ i, (SlotEvent.freed id).zeroes i = true → i = id := fun i h => by
      simpa [SlotEvent.zeroes, eq_comm] using h
    refine ⟨released_capacity.trans hs.capacity_eq, ?_, fun i => ?_, fun g hg => ?_, ?_, ?_, ?_,
      next_append hs.next_eq nofun⟩
    · rw [policy_append]
      exact hshape
    · rw [current_append, hgen, released_slots]
      show Function.update (current log) id none i = _
      by_cases hi : i = id
      · subst hi
        simp [hr, hc]
      · rw [Function.update_of_ne hi, if_neg hi]
        exact hs.current_eq i
    · rw [hgen]
      exact hs.age g (by simpa [handles_append, SlotEvent.handle] using hg)
    · simpa [handles_append, SlotEvent.handle] using hs.nodup
    · rw [policy_append]
      refine List.pairwise_cons.mpr ⟨fun j hj => .inl ?_, ?_⟩
      · rw [zeroedAt_append, zeroedAt_append, zeroes_of_mem hstack hz hj]
        have := @zeroedAt_le log j
        simp only [SlotEvent.zeroes, decide_true, if_true]
        exact Nat.lt_succ_of_le this
      · exact List.Pairwise.imp_of_mem
          (fun hi hj hn => hn.congr (zeroes_of_mem hstack hz hi) (zeroes_of_mem hstack hz hj))
          hs.stack_order
    · rw [policy_append]
      refine List.Pairwise.imp_of_mem (fun hi hj hn => hn.congr ?_ ?_) hs.queue_order
      · exact zeroes_of_mem hqueue hz hi
      · exact zeroes_of_mem hqueue hz hj

/-- A release. -/
theorem released (hs : Slots capacity (m, log)) (hf : (m.slots id).free = false)
    (hr : (m.slots id).refs ≠ 0) :
    Slots capacity (m.released id, log ++ m.releaseEvents id) := by
  by_cases h1 : (m.slots id).refs = 1
  · exact hs.zeroed hf h1
  have hshape := hs.shape.released hf hr
  unfold releasedFree releasedIdle at hshape
  rw [if_neg (fun h => h1 h.1), if_neg (fun h => h1 h.1)] at hshape
  unfold releaseEvents
  rw [if_pos h1, List.append_nil]
  have hgen : ∀ i, ((m.released id).slots i).generation = (m.slots i).generation := fun i =>
    (released_steady m id i).1
  refine ⟨released_capacity.trans hs.capacity_eq, hshape, fun i => ?_, fun g hg => ?_, hs.nodup,
    hs.stack_order, hs.queue_order, hs.next_eq⟩
  · rw [hgen, released_slots]
    rw [hs.current_eq i]
    split_ifs with hi h2 h3 h4 <;> simp_all
    omega
  · rw [hgen]
    exact hs.age g hg

/-- A slot is handed out. -/
theorem handed (hs : Slots capacity (m, log)) (hnext : (policy capacity log).next = some id)
    (hshape : Shape m' ((policy capacity log).stack.erase id) ((policy capacity log).queue.erase id))
    (hcap : m'.capacity = m.capacity) (hfree : (m'.slots id).free = false)
    (hgen : (m'.slots id).generation = (m.slots id).generation + 1)
    (hframe : ∀ i, i ≠ id → m'.slots i = m.slots i) :
    Slots capacity (m', log ++ [.allocated ⟨id, (m.slots id).generation + 1⟩]) := by
  refine ⟨hcap.trans hs.capacity_eq, ?_, fun i => ?_, fun g hg => ?_, ?_, ?_, ?_,
    next_append hs.next_eq fun g hg => ?_⟩
  · rw [policy_append]
    exact hshape
  · rw [current_append]
    show Function.update (current log) id _ i = _
    by_cases hi : i = id
    · subst hi
      rw [Function.update_self, hfree, hgen]
      rfl
    · rw [Function.update_of_ne hi, hframe i hi]
      exact hs.current_eq i
  · rw [handles_append, List.mem_append] at hg
    rcases hg with hg | hg
    · have hle : g.generation ≤ (m.slots g.id).generation := hs.age g hg
      show g.generation ≤ (m'.slots g.id).generation
      by_cases hi : g.id = id
      · rw [hi] at hle ⊢
        omega
      · rwa [hframe g.id hi]
    · obtain rfl := List.mem_singleton.mp hg
      exact hgen.ge
  · rw [handles_append]
    refine List.nodup_append.mpr ⟨hs.nodup, List.nodup_singleton _, fun g hg k hk he => ?_⟩
    obtain rfl := List.mem_singleton.mp hk
    have hle : g.generation ≤ (m.slots g.id).generation := hs.age g hg
    rw [he] at hle
    exact absurd hle (by simp)
  · rw [policy_append]
    exact (hs.stack_order.sublist List.erase_sublist).imp fun hn => hn.congr rfl rfl
  · rw [policy_append]
    exact (hs.queue_order.sublist List.erase_sublist).imp fun hn => hn.congr rfl rfl
  · cases hg
    exact hnext

theorem keep_allocate : Keeps (Slots capacity) slotCalls.allocate := by
  rintro ⟨m, log⟩ hs
  simp only [slotCalls, observed]
  generalize hp : policy capacity log = p at *
  obtain ⟨stack, queue⟩ := p
  have hi := hs.shape
  simp only [hp] at hi
  rcases allocate_cases hi with h | ⟨id, h⟩ | ⟨id, fs, rfl, hne, h⟩ | ⟨id, is, rfl, rfl, hne, h⟩
  · rw [h.2.2]
    exact hs
  · rw [h.2.2]
    exact hs
  · rw [h]
    have hfree := ((hi.lists.mem_free id).mp List.mem_cons_self).2
    have hqueue : id ∉ queue := fun hm => by
      rw [((hi.lists.mem_idle id).mp hm).1] at hfree
      cases hfree
    refine hs.handed (by rw [hp]; rfl) ?_ rfl ?_ ?_ fun i hi => ?_
    · rw [hp, List.erase_cons_head, List.erase_of_not_mem hqueue]
      exact hi.takeFree hne
    · rw [takeFree_slots, if_pos rfl]
    · rw [takeFree_slots, if_pos rfl]
    · rw [takeFree_slots, if_neg hi]
  · rw [h]
    refine hs.handed (by rw [hp]; rfl) ?_ rfl ?_ ?_ fun i hi => ?_
    · rw [hp, List.erase_cons_head]
      exact hi.evict hne
    · rw [evict_slots, if_pos rfl]
    · rw [evict_slots, if_pos rfl]
    · rw [evict_slots, if_neg hi]

theorem keep_retain (h : BlockHandle) : Keeps (Slots capacity) (slotCalls.retain h) := by
  rintro ⟨m, log⟩ hs
  simp only [slotCalls, observed]
  rcases retain_cases h m with hc | hc | hc
  · rw [hc.2]
    exact hs
  · rw [hc.2.2]
    exact hs
  · rw [hc.2.2]
    exact hs.retained hc.1.2.1 hc.2.1

theorem keep_release (h : BlockHandle) : Keeps (Slots capacity) (slotCalls.release h) := by
  rintro ⟨m, log⟩ hs
  simp only [slotCalls, observed]
  rcases release_cases h m with hc | hc | hc
  · rw [hc.2]
    exact hs
  · rw [hc.2.2]
    exact hs
  · rw [hc.2.2]
    exact hs.released hc.1.2.1 hc.2.1

theorem keep_publish (hasher : Hasher) (h : BlockHandle) (p : Tokens) :
    Keeps (Slots capacity) (slotCalls.publish hasher h p) := by
  rintro ⟨m, log⟩ hs
  simp only [slotCalls, observed]
  rcases publish_outcome m hasher h p with ⟨g, hc, hv, hu⟩ | ⟨e, hc⟩
  · rw [hc]
    have hsteady : ∀ i, ((m.published h.id p g).slots i).free = (m.slots i).free ∧
        ((m.published h.id p g).slots i).generation = (m.slots i).generation := by
      intro i
      rw [published_slots]
      split_ifs with hi
      · rw [hi]; exact ⟨rfl, rfl⟩
      · exact ⟨rfl, rfl⟩
    show Slots capacity (m.published h.id p g, log ++ [])
    rw [List.append_nil]
    refine ⟨hs.capacity_eq, hs.shape.published hv.2.1 hu p g, fun i => ?_, fun k hk => ?_, hs.nodup,
      hs.stack_order, hs.queue_order, hs.next_eq⟩
    · rw [(hsteady i).1, (hsteady i).2]
      exact hs.current_eq i
    · rw [(hsteady k.id).2]
      exact hs.age k hk
  · rw [hc]
    exact hs

theorem keep_lookup (hasher : Hasher) (p : Tokens) :
    Keeps (Slots capacity) (slotCalls.lookup hasher p) := by
  rintro ⟨m, log⟩ hs
  simp only [slotCalls, observed]
  rcases lookup_outcome ⟨_, _, hs.shape⟩ hasher p with ⟨h, hc, hv, hr, -⟩ | hc | ⟨e, hc⟩
  · rw [hc]
    exact hs.retained hv.2.1 hr
  · rw [hc]
    show Slots capacity (m, log ++ [])
    rw [List.append_nil]
    exact hs
  · rw [hc]
    exact hs

/-- The calls on single blocks keep the invariant, whatever the hasher returns. -/
theorem keep (hasher : Hasher) : slotCalls.Keep (Slots capacity) hasher where
  allocate := Slots.keep_allocate
  retain := Slots.keep_retain
  release := Slots.keep_release
  publish := Slots.keep_publish hasher
  lookup := Slots.keep_lookup hasher

end Slots

theorem slots_init {blockSize : ℕ} (hc : 0 < capacity) (hb : 0 < blockSize) :
    Slots capacity (init capacity blockSize, []) where
  capacity_eq := rfl
  shape := (inv_init (H := fun _ => 0) capacity blockSize hc hb).shape
  current_eq _ := rfl
  age _ h := absurd h List.not_mem_nil
  nodup := List.nodup_nil
  stack_order := List.pairwise_lt_range.imp fun h => .inr ⟨rfl, rfl, h⟩
  queue_order := List.Pairwise.nil
  next_eq log₁ h log₂ hl := by cases log₁ <;> cases hl

/-- **The invariant of every history.** -/
theorem slotHistory_slots {m₀ : BlockManager} {blockSize : ℕ} {hasher : Option Hasher}
    (hn : new capacity blockSize hasher = .ok m₀) (ops : List (Hasher × Op)) :
    Slots capacity (slotHistory m₀ ops) := by
  unfold new at hn
  split_ifs at hn with hc
  cases hn
  exact Calls.run_keep ops (fun c _ => Slots.keep c.1) (slots_init (by omega) (by omega))

end KVFlux.BlockManager
