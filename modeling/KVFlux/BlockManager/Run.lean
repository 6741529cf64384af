import KVFlux.BlockManager.Ops

/-!
# Runs of the block manager

* `releaseAll_keeps`, `acquireLoop_keeps`, `retainAll_keeps`: the loops of the calls on tables
  keep the invariant, by induction on the loop.
* `Op`, `Op.exec`, `run`: any sequence of calls with any arguments; a call that throws leaves the
  state it has reached.
* **`exec_inv`**, **`run_inv`**: the step lemma and the run lemma.
* **`run_wellFormed`**: the four linked structures agree after every run.
-/

namespace KVFlux.BlockManager

open Fallible Threaded

variable {H : Tokens → UInt64} {m m₀ : BlockManager} {hasher : Hasher}

/-! ## Calls on tables -/

theorem releaseAll_keeps (hs : List BlockHandle) : Keeps (Good H) (releaseAll hs) := by
  induction hs with
  | nil => exact .pure ()
  | cons h hs ih => exact .bind (release_keeps h) fun _ => ih

theorem acquireBlock_keeps (ha : Agrees H hasher) (p : Tokens) (full : Bool) :
    Keeps (fun s => Good H s.1) (acquireBlock hasher p full) := by
  unfold acquireBlock
  refine .bind ?_ fun hit => ?_
  · split_ifs
    · exact .onFst (lookup_keeps ha p)
    · exact .pure none
  cases hit with
  | some h => exact .modify fun _ hs => hs
  | none =>
    refine .bind (.onFst allocate_keeps) fun h => .bind (.modify fun _ hs => hs) fun _ => ?_
    split_ifs
    · exact .onFst (publish_keeps ha h p)
    · exact .pure ()

theorem acquireLoop_keeps (ha : Agrees H hasher) (blockSize fuel : ℕ) :
    ∀ p rest, Keeps (fun s => Good H s.1) (acquireLoop hasher blockSize fuel p rest) := by
  induction fuel with
  | zero => intro p rest; exact .pure ()
  | succ fuel ih =>
    intro p rest
    unfold acquireLoop
    split_ifs with hrest
    · exact .pure ()
    · exact .bind (acquireBlock_keeps ha _ _) fun _ => ih _ _

theorem acquire_keeps (ha : Agrees H hasher) (tokens : Tokens) :
    Keeps (Good H) (acquire hasher tokens) := by
  intro m hg
  have hl := acquireLoop_keeps ha m.blockSize tokens.length [] tokens (m, []) hg
  unfold acquire
  cases hc : acquireLoop hasher m.blockSize tokens.length [] tokens (m, []) with
  | ok u s => rw [hc] at hl; exact hl
  | error e s =>
    rw [hc] at hl
    have hr := releaseAll_keeps s.2 s.1 hl
    simp only
    cases he : releaseAll s.2 s.1 with
    | ok u m' => rw [he] at hr; exact hr
    | error e' m' => rw [he] at hr; exact hr

theorem retainAll_keeps (hs : List BlockHandle) :
    ∀ done, Keeps (Good H) (retainAll done hs) := by
  induction hs with
  | nil => intro done; exact .pure ()
  | cons h hs ih =>
    intro done
    exact .bind (.onError (retain_keeps h) (releaseAll_keeps done)) fun _ => ih _

theorem share_keeps (table : BlockTable) : Keeps (Good H) (share table) :=
  .bind .get fun _ => .bind (.check _) fun _ => .bind (retainAll_keeps _ _) fun _ => .pure _

theorem releaseTable_keeps (table : BlockTable) : Keeps (Good H) (releaseTable table) :=
  .bind .get fun _ => .bind (.check _) fun _ => .bind (releaseAll_keeps _) fun _ => .pure _

/-! ## Runs -/

/-- A call with its arguments. -/
inductive Op
  | allocate
  | retain (h : BlockHandle)
  | release (h : BlockHandle)
  | publish (h : BlockHandle) (p : Tokens)
  | lookup (p : Tokens)
  | acquire (tokens : Tokens)
  | share (table : BlockTable)
  | releaseTable (table : BlockTable)

/-- The state after a call, also after one that throws. -/
def Op.exec (hasher : Hasher) (m : BlockManager) : Op → BlockManager
  | .allocate => finalState (BlockManager.allocate m)
  | .retain h => finalState (BlockManager.retain h m)
  | .release h => finalState (BlockManager.release h m)
  | .publish h p => finalState (BlockManager.publish hasher h p m)
  | .lookup p => finalState (BlockManager.lookup hasher p m)
  | .acquire tokens => finalState (BlockManager.acquire hasher tokens m)
  | .share table => finalState (BlockManager.share table m)
  | .releaseTable table => finalState (BlockManager.releaseTable table m)

/-- Call after call; the hasher may throw in one call and return in the next. -/
def run (m : BlockManager) (ops : List (Hasher × Op)) : BlockManager :=
  ops.foldl (fun m c => c.2.exec c.1 m) m

theorem exec_inv (ha : Agrees H hasher) (op : Op) (hg : Good H m) :
    Good H (op.exec hasher m) := by
  cases op with
  | allocate => exact allocate_keeps m hg
  | retain h => exact retain_keeps h m hg
  | release h => exact release_keeps h m hg
  | publish h p => exact publish_keeps ha h p m hg
  | lookup p => exact lookup_keeps ha p m hg
  | acquire tokens => exact acquire_keeps ha tokens m hg
  | share table => exact share_keeps table m hg
  | releaseTable table => exact releaseTable_keeps table m hg

theorem run_inv (ops : List (Hasher × Op)) :
    ∀ {m : BlockManager}, Good H m → (∀ c ∈ ops, Agrees H c.1) → Good H (run m ops) := by
  induction ops with
  | nil => intro m hg _; exact hg
  | cons c ops ih =>
    intro m hg ha
    exact ih (exec_inv (ha c List.mem_cons_self) c.2 hg)
      fun d hd => ha d (List.mem_cons_of_mem _ hd)

/-! ## The invariant in the words of the structures -/

/-- The free list, the LRU list, the slot flags and the index agree. -/
structure WellFormed (H : Tokens → UInt64) (m : BlockManager) : Prop where
  /-- The chain from `freeHead` ends and visits exactly the free slots, once each. -/
  free_list : ∃ free, Chain (fun i => (m.slots i).nextFree) m.freeHead free ∧ free.Nodup ∧
    ∀ i, i ∈ free ↔ i < m.capacity ∧ (m.slots i).free = true
  /-- The LRU list holds exactly the idle slots, once each, and all of them are cached. -/
  idle_list : ∃ idle, m.idleLru.Repr idle ∧ idle.Nodup ∧
    (∀ i, i ∈ idle ↔ i < m.capacity ∧ (m.slots i).free = false ∧ (m.slots i).refs = 0) ∧
    ∀ i ∈ idle, (m.slots i).cached = true
  /-- A free slot is neither referenced nor cached. -/
  free_slot : ∀ i, (m.slots i).free = true →
    (m.slots i).refs = 0 ∧ (m.slots i).cached = false
  counts : m.stats.free + m.stats.active + m.stats.cachedIdle = m.capacity
  /-- A bucket holds a slot once if it is cached with a prefix of that hash, else not at all. -/
  bucket_count : ∀ g i, (m.bucket g).count i =
    if i < m.capacity ∧ (m.slots i).cached = true ∧ H (m.slots i).prefixTokens = g then 1 else 0
  no_empty_bucket : ∀ g, m.index g ≠ some []
  no_stale_id : ∀ g, ∀ i ∈ m.bucket g, i < m.capacity ∧ (m.slots i).free = false
  prefix_unique : ∀ i j, (m.slots i).cached = true → (m.slots j).cached = true →
    (m.slots i).prefixTokens = (m.slots j).prefixTokens → i = j

theorem Good.wellFormed (hg : Good H m) : WellFormed H m := by
  obtain ⟨free, idle, hi⟩ := hg
  have hcap : ∀ i, (m.slots i).cached = true → i < m.capacity := fun i hc =>
    hi.lt_capacity (hi.not_free_of_cached hc)
  refine ⟨⟨free, hi.lists.chain, hi.lists.free_nodup, hi.lists.mem_free⟩,
    ⟨idle, hi.lists.lru, hi.lists.lru.nodup, fun i => ?_, fun i hm => ?_⟩,
    fun i hf => ⟨(hi.slot i).free_refs hf, (hi.slot i).free_cached hf⟩, stats_sum m,
    fun g i => ?_, hi.indexed.bucket_ne, fun g i hm => ?_, hi.indexed.inj⟩
  · rw [hi.lists.mem_idle i]
    exact ⟨fun h => ⟨hi.lt_capacity h.1, h⟩, fun h => h.2⟩
  · obtain ⟨hf, hr⟩ := (hi.lists.mem_idle i).mp hm
    exact (hi.slot i).idle_cached hf hr
  · have hm := hi.indexed.mem_bucket g i
    split_ifs with hc
    · refine List.count_eq_one_of_mem (hi.indexed.bucket_nodup g) (hm.mpr ⟨hc.2.1, ?_⟩)
      rw [hi.indexed.hash_eq i hc.2.1, hc.2.2]
    · refine List.count_eq_zero_of_not_mem fun hmem => hc ?_
      obtain ⟨h1, h2⟩ := hm.mp hmem
      exact ⟨hcap i h1, h1, by rw [← hi.indexed.hash_eq i h1, h2]⟩
  · have hc := ((hi.indexed.mem_bucket g i).mp hm).1
    exact ⟨hcap i hc, hi.not_free_of_cached hc⟩

/-- **Main result.** After any calls on a new manager, throwing ones included, the free list, the
LRU list, the slot flags and the index agree. -/
theorem run_wellFormed {capacity blockSize : ℕ} {hasher : Option Hasher}
    (hn : new capacity blockSize hasher = .ok m₀) (ops : List (Hasher × Op))
    (ha : ∀ c ∈ ops, Agrees H c.1) : WellFormed H (run m₀ ops) :=
  (run_inv ops (good_of_new hn) ha).wellFormed

/-- Acquire two full blocks and a tail, share the table, release a stale handle. -/
theorem run_wellFormed_acquire :
    WellFormed prefixHash (run (init 4 2)
      [(fun p => .ok (prefixHash p), .acquire [1, 2, 3, 4, 5]),
       (fun p => .ok (prefixHash p), .share ⟨[⟨0, 1⟩, ⟨1, 1⟩, ⟨2, 1⟩], 5⟩),
       (fun p => .ok (prefixHash p), .release ⟨3, 7⟩)]) :=
  @run_wellFormed prefixHash (init 4 2) 4 2 (some fun p => .ok (prefixHash p)) rfl _
    fun c hc => by
      simp only [List.mem_cons, List.not_mem_nil, or_false] at hc
      rcases hc with rfl | rfl | rfl <;> exact fun p h he => by cases he; rfl

end KVFlux.BlockManager
