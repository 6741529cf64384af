import KVFlux.BlockManager.Acquire
import KVFlux.BlockManager.Calls
import KVFlux.PhysicalBlockPool

/-!
# Live publications

The history of a manager as a list of events, and the map of the publications still alive.

* `Event`, `live`: a publication lives until its slot is handed out again.
* `publicationCalls`, `history`: the calls beside a log of these events; `history_fst`: without the
  log they are the calls.
* `Tracks m log`: the cached slots of `m` are the live publications of `log`.
* `Tracked`, **`history_tracked`**: the invariant of a history.
* **`lookup_refines`**: `lookup` and `publish` answer by the map of live publications.
-/

namespace KVFlux.BlockManager

open Fallible

/-- A slot handed out, or a prefix published in a slot. -/
inductive Event
  | allocated (h : BlockHandle)
  | published (h : BlockHandle) (p : Tokens)

/-- The publications after an event: handing out a slot ends what was published in it. -/
def Event.apply (pubs : Tokens → Option BlockHandle) : Event → Tokens → Option BlockHandle
  | .allocated h => fun p => (pubs p).filter fun g => g.id ≠ h.id
  | .published h p => Function.update pubs p (some h)

/-- The live publications of a history. -/
def live (log : List Event) : Tokens → Option BlockHandle :=
  log.foldl Event.apply fun _ => none

theorem live_append (log : List Event) (e : Event) : live (log ++ [e]) = e.apply (live log) := by
  rw [live, List.foldl_append]
  rfl

/-! ## Calls beside the log -/

/-- The calls on single blocks beside the log. -/
def publicationCalls : Calls (BlockManager × List Event) where
  manager := Prod.fst
  allocate := observed allocate fun _ h => [.allocated h]
  retain h := observed (retain h) fun _ _ => []
  release h := observed (release h) fun _ _ => []
  publish hasher h p := observed (publish hasher h p) fun _ _ => [.published h p]
  lookup hasher p := observed (lookup hasher p) fun _ _ => []

/-- The manager after some calls, and all events so far. -/
def history (m : BlockManager) (ops : List (Hasher × Op)) : BlockManager × List Event :=
  publicationCalls.run (m, []) ops

theorem publicationCalls_faithful : publicationCalls.Faithful where
  allocate := .observed BlockManager.allocate fun _ h => [Event.allocated h]
  retain h := .observed (BlockManager.retain h) fun _ _ => []
  release h := .observed (BlockManager.release h) fun _ _ => []
  publish hasher h p := .observed (BlockManager.publish hasher h p) fun _ _ => [Event.published h p]
  lookup hasher p := .observed (BlockManager.lookup hasher p) fun _ _ => []

/-- Without the log the history is the run. -/
theorem history_fst (m : BlockManager) (ops : List (Hasher × Op)) :
    (history m ops).1 = run m ops :=
  Calls.run_manager publicationCalls_faithful ops (m, [])

/-! ## The live publications are the cached slots -/

variable {H : Tokens → UInt64} {m m' m₀ : BlockManager} {log : List Event} {h : BlockHandle}
  {p : Tokens} {hasher : Hasher}

/-- The cached slots of `m`, each under its prefix, are the live publications of `log`. -/
def Tracks (m : BlockManager) (log : List Event) : Prop := ∀ (p : Tokens) (h : BlockHandle),
  live log p = some h ↔ (m.slots h.id).cached = true ∧ (m.slots h.id).prefixTokens = p ∧
    (m.slots h.id).generation = h.generation

/-- Generation, cached flag and prefix of a slot. -/
def pubData (s : Slot) : ℕ × Bool × Tokens := (s.generation, s.cached, s.prefixTokens)

theorem tracks_init (capacity blockSize : ℕ) : Tracks (init capacity blockSize) [] := by
  intro p h
  simp [live, init]

/-- A call that changes no published data has no events. -/
theorem Tracks.steady (ht : Tracks m log)
    (hs : ∀ i, pubData (m'.slots i) = pubData (m.slots i)) : Tracks m' log := by
  intro p h
  obtain ⟨hg, hc⟩ := Prod.mk.inj (hs h.id)
  obtain ⟨hc, hp⟩ := Prod.mk.inj hc
  rw [ht p h, hg, hc, hp]

/-- Handing out a slot ends its publication. -/
theorem Tracks.allocated (ht : Tracks m log) (hs : Shaped m) (ha : allocate m = .ok h m') :
    Tracks m' (log ++ [.allocated h]) := by
  obtain ⟨-, -, -, hslot, hframe, -, -⟩ := allocate_ok hs ha
  intro p g
  rw [live_append]
  show ((live log p).filter fun g => g.id ≠ h.id) = some g ↔ _
  rw [Option.filter_eq_some_iff, ht p g]
  by_cases hg : g.id = h.id
  · rw [hg, hslot]
    simp
  · rw [hframe g.id hg]
    simp [hg]

/-- A publication of an unpublished slot under a new prefix. -/
theorem Tracks.published (ht : Tracks m log) (hv : m.Valid h) (hc : (m.slots h.id).cached = false)
    (hnew : ∀ i, (m.slots i).cached = true → (m.slots i).prefixTokens ≠ p) (g : UInt64) :
    Tracks (m.published h.id p g) (log ++ [.published h p]) := by
  intro q k
  rw [live_append, published_slots]
  show Function.update (live log) p (some h) q = some k ↔ _
  rw [Function.update_apply]
  by_cases hk : k.id = h.id
  · rw [if_pos hk]
    simp only [true_and, hv.2.2]
    split_ifs with hq
    · rw [hq, Option.some_inj]
      constructor
      · rintro rfl; exact ⟨rfl, rfl⟩
      · rintro ⟨-, hgen⟩
        cases h
        cases k
        simp_all
    · rw [ht q k, hk, hc]
      exact iff_of_false nofun fun he => hq he.1.symm
  · rw [if_neg hk]
    split_ifs with hq
    · refine iff_of_false (fun he => hk (Option.some.inj he ▸ rfl)) fun he => ?_
      exact hnew k.id he.1 (he.2.1.trans hq)
    · exact ht q k

/-! ## Every call is tracked -/

/-- **The invariant of a history.** -/
def Tracked (H : Tokens → UInt64) (s : BlockManager × List Event) : Prop :=
  Good H s.1 ∧ Tracks s.1 s.2

/-- Calls that keep the published data of all slots. -/
def Steady {α : Type} (x : Call BlockManager α) : Prop :=
  ∀ f : ℕ → ℕ × Bool × Tokens, Keeps (fun m => ∀ i, pubData (m.slots i) = f i) x

/-- A call without events. -/
theorem quiet_tracked {α : Type} {x : Call BlockManager α} (hg : Keeps (Good H) x)
    (hs : Steady x) : Keeps (Tracked H) (observed x fun _ _ => ([] : List Event)) := by
  rintro ⟨m, log⟩ ⟨hm, ht⟩
  have hm' := hg m hm
  have hs' := hs (fun i => pubData (m.slots i)) m fun _ => rfl
  unfold observed
  simp only
  cases hx : x m with
  | ok a m' =>
    rw [hx] at hm' hs'
    exact ⟨hm', by simpa using ht.steady hs'⟩
  | error e m' =>
    rw [hx] at hm' hs'
    exact ⟨hm', ht.steady hs'⟩

theorem retain_steady (h : BlockHandle) : Steady (retain h) := by
  intro f m hf
  rcases retain_cases h m with hc | hc | hc
  · rw [hc.2]; exact hf
  · rw [hc.2.2]; exact hf
  · rw [hc.2.2]
    intro i
    show pubData ((m.retained h.id).slots i) = f i
    rw [retained_slots]
    split_ifs with hi
    · rw [← hf i, hi]; rfl
    · exact hf i

theorem release_steady (h : BlockHandle) : Steady (release h) := by
  intro f m hf
  rcases release_cases h m with hc | hc | hc
  · rw [hc.2]; exact hf
  · rw [hc.2.2]; exact hf
  · rw [hc.2.2]
    intro i
    obtain ⟨h1, h2, h3⟩ := released_steady m h.id i
    show pubData ((m.released h.id).slots i) = f i
    rw [← hf i, pubData, h1, h2, h3]
    rfl

theorem lookup_steady (hasher : Hasher) (p : Tokens) : Steady (lookup hasher p) := by
  intro f m hf
  unfold lookup
  split_ifs
  · exact hf
  cases hasher p with
  | error e => exact hf
  | ok g =>
    simp only
    cases ((m.index g).getD []).find? fun id => (m.slots id).prefixTokens = p with
    | none => exact hf
    | some id =>
      have := retain_steady ⟨id, (m.slots id).generation⟩ f m hf
      simp only
      cases hr : retain ⟨id, (m.slots id).generation⟩ m with
      | ok u m' => rw [hr] at this; exact this
      | error e m' => rw [hr] at this; exact this

theorem allocate_tracked : Keeps (Tracked H) publicationCalls.allocate := by
  rintro ⟨m, log⟩ ⟨hm, ht⟩
  have hm' := allocate_keeps m hm
  simp only [publicationCalls, observed]
  cases ha : allocate m with
  | ok h m' =>
    rw [ha] at hm'
    exact ⟨hm', ht.allocated hm.shaped ha⟩
  | error e m' =>
    obtain ⟨free, idle, hi⟩ := hm
    have he : m' = m := by
      rcases allocate_cases hi.shape with hc | ⟨_, hc⟩ | ⟨_, _, -, -, hc⟩ | ⟨_, _, -, -, -, hc⟩
      · rw [hc.2.2] at ha; cases ha; rfl
      · rw [hc.2.2] at ha; cases ha; rfl
      · rw [hc] at ha; cases ha
      · rw [hc] at ha; cases ha
    exact ⟨he ▸ ⟨free, idle, hi⟩, he ▸ ht⟩

theorem publish_tracked (ha : Agrees H hasher) (h : BlockHandle) (p : Tokens) :
    Keeps (Tracked H) (publicationCalls.publish hasher h p) := by
  rintro ⟨m, log⟩ ⟨hm, ht⟩
  have hm' := publish_keeps ha h p m hm
  obtain ⟨free, idle, hi⟩ := hm
  simp only [publicationCalls, observed]
  rcases publish_cases hi ha h p with hc | hc | ⟨hv, hpre, ⟨e, -, hc⟩ | ⟨i, -, -, hc⟩ | hc⟩
  · rw [hc.2]; exact ⟨⟨free, idle, hi⟩, ht⟩
  · rw [hc.2.2]; exact ⟨⟨free, idle, hi⟩, ht⟩
  · rw [hc]; exact ⟨⟨free, idle, hi⟩, ht⟩
  · rw [hc]; exact ⟨⟨free, idle, hi⟩, ht⟩
  · rw [hc.2.2] at hm' ⊢
    exact ⟨hm', ht.published hv hpre.2.1 hc.2.1 _⟩

/-- **The calls on single blocks keep the invariant.** -/
theorem tracked_keep (ha : Agrees H hasher) : publicationCalls.Keep (Tracked H) hasher where
  allocate := allocate_tracked
  retain h := quiet_tracked (retain_keeps h) (retain_steady h)
  release h := quiet_tracked (release_keeps h) (release_steady h)
  publish := publish_tracked ha
  lookup p := quiet_tracked (lookup_keeps ha p) (lookup_steady hasher p)

/-- **The invariant of every history.** -/
theorem history_tracked {capacity blockSize : ℕ} {hasher : Option Hasher}
    (hn : new capacity blockSize hasher = .ok m₀) (ops : List (Hasher × Op))
    (ha : ∀ c ∈ ops, Agrees H c.1) : Tracked H (history m₀ ops) := by
  refine Calls.run_keep ops (fun c hc => tracked_keep (ha c hc)) ⟨good_of_new hn, ?_⟩
  unfold new at hn
  split_ifs at hn
  cases hn
  exact tracks_init capacity blockSize

/-! ## Lookups read the map -/

/-- One more reference to the slot `id`, which leaves the LRU list. -/
def OneMoreRef (m m' : BlockManager) (id : ℕ) : Prop :=
  m' = { m with
    slots := Function.update m.slots id { m.slots id with refs := (m.slots id).refs + 1 }
    idleLru := m'.idleLru } ∧
  ∀ idle, m.idleLru.Repr idle → m'.idleLru.Repr (idle.erase id)

theorem retained_oneMoreRef (hs : Shaped m) (id : ℕ) : OneMoreRef m (m.retained id) id := by
  obtain ⟨free, idle₀, hi⟩ := hs
  unfold retained
  split_ifs with h0
  · exact ⟨rfl, fun idle hl => hl.erase id⟩
  · refine ⟨rfl, fun idle hl => ?_⟩
    have hn : id ∉ idle := fun hm => by
      have := hi.lists.lru.present_iff.mp (hl.present_iff.mpr hm)
      exact h0 ((hi.lists.mem_idle id).mp this).2
    rw [List.erase_of_not_mem hn]
    exact hl

/-- `lookup` and `publish` answer by the map `pubs` of live publications. -/
structure Refines (lookup : Hasher → Tokens → Call BlockManager (Option BlockHandle))
    (publish : Hasher → BlockHandle → Tokens → Call BlockManager Unit) (H : Tokens → UInt64)
    (m : BlockManager) (pubs : Tokens → Option BlockHandle) : Prop where
  /-- Reference counters not exhausted, a lookup hits exactly the live publications. -/
  hit_iff : ∀ hasher p, hasher p = .ok (H p) → (∀ i, (m.slots i).refs ≠ sizeMax) →
    ((∃ h m', lookup hasher p m = .ok (some h) m') ↔
      p ≠ [] ∧ p.length % m.blockSize = 0 ∧ ∃ h, pubs p = some h)
  /-- The handle of a hit is the published slot under its current generation. -/
  hit : ∀ hasher p h m', hasher p = .ok (H p) → lookup hasher p m = .ok (some h) m' →
    pubs p = some h ∧ (m.slots h.id).generation = h.generation ∧ OneMoreRef m m' h.id
  /-- A miss changes nothing. -/
  miss : ∀ hasher p m', hasher p = .ok (H p) → lookup hasher p m = .ok none m' → m' = m
  total : ∀ hasher p, hasher p = .ok (H p) → (∀ i, (m.slots i).refs ≠ sizeMax) →
    ∃ out m', lookup hasher p m = .ok out m'
  /-- A private unpublished block is refused exactly for a prefix with a live publication. -/
  publish_iff : ∀ hasher h p, hasher p = .ok (H p) → m.Valid h → (m.slots h.id).refs = 1 →
    (m.slots h.id).cached = false → p ≠ [] → p.length % m.blockSize = 0 →
    ((∃ e m', publish hasher h p m = .error e m') ↔ ∃ g, pubs p = some g)

theorem tracks_some (ht : Tracks m log) : (∃ h, live log p = some h) ↔
    ∃ i, (m.slots i).cached = true ∧ (m.slots i).prefixTokens = p := by
  constructor
  · rintro ⟨h, hl⟩
    exact ⟨h.id, ((ht p h).mp hl).1, ((ht p h).mp hl).2.1⟩
  · rintro ⟨i, hc, hp⟩
    exact ⟨⟨i, (m.slots i).generation⟩, (ht p _).mpr ⟨hc, hp, rfl⟩⟩

/-- The calls only ask the hasher for the hash of their prefix. -/
theorem lookup_congr (hh : hasher p = .ok (H p)) (m : BlockManager) :
    lookup hasher p m = lookup (fun q => .ok (H q)) p m := by
  simp only [lookup, hh]

theorem publish_congr (hh : hasher p = .ok (H p)) (h : BlockHandle) (m : BlockManager) :
    publish hasher h p m = publish (fun q => .ok (H q)) h p m := by
  simp only [publish, hh]

theorem agrees_self (H : Tokens → UInt64) : Agrees H fun q => .ok (H q) :=
  fun _ _ he => (Except.ok.inj he).symm

theorem refines_of_tracked {s : BlockManager × List Event} (hs : Tracked H s) :
    Refines lookup publish H s.1 (live s.2) := by
  obtain ⟨m, log⟩ := s
  obtain ⟨hg, ht⟩ := hs
  have hshape := hg.shaped
  obtain ⟨free, idle, hi⟩ := hg
  constructor
  · intro hasher p hh hmax
    rw [lookup_congr hh, tracks_some ht]
    rcases lookup_cases hi (agrees_self H) p with
      ⟨hb, hc⟩ | ⟨hp, ⟨e, he, -⟩ | ⟨-, ⟨hn, hc⟩ | ⟨i, -, -, hr, -⟩ | ⟨i, hcd, hpi, -, hc⟩⟩⟩
    · refine iff_of_false ?_ fun hx => ?_
      · rintro ⟨h, m', hl⟩; rw [hc] at hl; cases hl
      · rcases hb with hb | hb
        · exact hx.1 hb
        · exact hb hx.2.1
    · cases he
    · refine iff_of_false ?_ fun hx => ?_
      · rintro ⟨h, m', hl⟩; rw [hc] at hl; cases hl
      · obtain ⟨-, -, i, hcd, hpi⟩ := hx
        exact hn i hcd hpi
    · exact absurd hr (hmax i)
    · exact iff_of_true ⟨_, _, hc⟩ ⟨hp.1, hp.2, i, hcd, hpi⟩
  · intro hasher p h m' hh hl
    rw [lookup_congr hh] at hl
    rcases lookup_cases hi (agrees_self H) p with
      ⟨-, hc⟩ | ⟨-, ⟨e, he, -⟩ | ⟨-, ⟨-, hc⟩ | ⟨i, -, -, -, hc⟩ | ⟨i, hcd, hpi, -, hc⟩⟩⟩
    · rw [hc] at hl; cases hl
    · cases he
    · rw [hc] at hl; cases hl
    · rw [hc] at hl; cases hl
    · rw [hc] at hl
      cases hl
      exact ⟨(ht p _).mpr ⟨hcd, hpi, rfl⟩, rfl, retained_oneMoreRef hshape i⟩
  · intro hasher p m' hh hl
    rw [lookup_congr hh] at hl
    rcases lookup_cases hi (agrees_self H) p with
      ⟨-, hc⟩ | ⟨-, ⟨e, he, -⟩ | ⟨-, ⟨-, hc⟩ | ⟨i, -, -, -, hc⟩ | ⟨i, -, -, -, hc⟩⟩⟩
    · rw [hc] at hl; cases hl; rfl
    · cases he
    · rw [hc] at hl; cases hl; rfl
    · rw [hc] at hl; cases hl
    · rw [hc] at hl; cases hl
  · intro hasher p hh hmax
    rw [lookup_congr hh]
    rcases lookup_cases hi (agrees_self H) p with
      ⟨-, hc⟩ | ⟨-, ⟨e, he, -⟩ | ⟨-, ⟨-, hc⟩ | ⟨i, -, -, hr, -⟩ | ⟨i, -, -, -, hc⟩⟩⟩
    · exact ⟨_, _, hc⟩
    · cases he
    · exact ⟨_, _, hc⟩
    · exact absurd hr (hmax i)
    · exact ⟨_, _, hc⟩
  · intro hasher h p hh hv hr hu hp hlen
    rw [publish_congr hh, tracks_some ht]
    rcases publish_cases hi (agrees_self H) h p with
      hc | ⟨-, hb, -⟩ | ⟨-, -, ⟨e, he, -⟩ | ⟨i, hcd, hpi, hc⟩ | ⟨-, hn, hc⟩⟩
    · exact absurd hv hc.1
    · rcases hb with hb | hb | hb | hb
      · exact absurd hr hb
      · exact absurd (hu.symm.trans hb) nofun
      · exact absurd hb hp
      · exact absurd hlen hb
    · cases he
    · exact iff_of_true ⟨_, _, hc⟩ ⟨i, hcd, hpi⟩
    · refine iff_of_false ?_ fun hx => ?_
      · rintro ⟨e, m', hx⟩; rw [hc] at hx; cases hx
      · obtain ⟨i, hcd, hpi⟩ := hx
        exact hn i hcd hpi

/-- A call on the pool, as the call on the manager that it is. -/
def poolOp : PhysicalBlockPool.Op → Op
  | .allocate => .allocate
  | .retain handle => .retain handle
  | .free handle => .release handle
  | .publish handle p => .publish handle p
  | .lookup p => .lookup p

theorem pool_run (m : PhysicalBlockPool) (ops : List (Hasher × PhysicalBlockPool.Op)) :
    PhysicalBlockPool.run m ops = run m (ops.map fun c => (c.1, poolOp c.2)) := by
  induction ops generalizing m with
  | nil => rfl
  | cons c ops ih =>
    obtain ⟨hasher, op⟩ := c
    have hstep : op.exec hasher m = (poolOp op).exec hasher m := by cases op <;> rfl
    show PhysicalBlockPool.run (op.exec hasher m) ops = _
    rw [hstep, ih]
    rfl

/-- **Main result.** After any calls on a manager or on a pool, `lookup` and `publish` answer by the
map of live publications, however many prefixes share a hash. -/
theorem lookup_refines {capacity blockSize : ℕ} {hasher : Option Hasher}
    (hn : new capacity blockSize hasher = .ok m₀) :
    (∀ ops : List (Hasher × Op), (∀ c ∈ ops, Agrees H c.1) →
      Refines lookup publish H (run m₀ ops) (live (history m₀ ops).2)) ∧
    ∀ ops : List (Hasher × PhysicalBlockPool.Op), (∀ c ∈ ops, Agrees H c.1) →
      Refines PhysicalBlockPool.lookup PhysicalBlockPool.publish H (PhysicalBlockPool.run m₀ ops)
        (live (history m₀ (ops.map fun c => (c.1, poolOp c.2))).2) := by
  have hall : ∀ ops : List (Hasher × Op), (∀ c ∈ ops, Agrees H c.1) →
      Refines lookup publish H (run m₀ ops) (live (history m₀ ops).2) := fun ops ha => by
    rw [← history_fst]
    exact refines_of_tracked (history_tracked hn ops ha)
  refine ⟨hall, fun ops ha => ?_⟩
  rw [pool_run]
  refine hall _ fun c hc => ?_
  obtain ⟨d, hd, rfl⟩ := List.mem_map.mp hc
  exact ha d hd

/-- Slot 1 is published under `[2]`, evicted, and published under `[1]`: `[1]` is refused now and
`[2]` is not. -/
theorem lookup_refines_evicted :
    let m := run (init 2 1) [(fun _ => .ok 0, .allocate), (fun _ => .ok 0, .acquire [2]),
      (fun _ => .ok 0, .releaseTable ⟨[⟨1, 1⟩], 1⟩), (fun _ => .ok 0, .acquire [1])]
    (∃ e m', publish (fun _ => .ok 0) ⟨0, 1⟩ [1] m = .error e m') ∧
      ¬ ∃ e m', publish (fun _ => .ok 0) ⟨0, 1⟩ [2] m = .error e m' := by
  have hr := (lookup_refines (H := fun _ => 0)
    (rfl : new 2 1 (some fun _ => .ok 0) = .ok (init 2 1))).1 [(fun _ => .ok 0, .allocate),
      (fun _ => .ok 0, .acquire [2]), (fun _ => .ok 0, .releaseTable ⟨[⟨1, 1⟩], 1⟩),
      (fun _ => .ok 0, .acquire [1])] (by simp [Agrees])
  refine ⟨(hr.publish_iff _ ⟨0, 1⟩ [1] rfl (by decide +kernel) (by decide +kernel)
    (by decide +kernel) nofun (by decide +kernel)).mpr ⟨⟨1, 2⟩, by decide +kernel⟩, ?_⟩
  rw [hr.publish_iff _ ⟨0, 1⟩ [2] rfl (by decide +kernel) (by decide +kernel)
    (by decide +kernel) nofun (by decide +kernel)]
  rintro ⟨g, hg⟩
  have hnone : live (history (init 2 1) [(fun _ => .ok 0, .allocate),
      (fun _ => .ok 0, .acquire [2]), (fun _ => .ok 0, .releaseTable ⟨[⟨1, 1⟩], 1⟩),
      (fun _ => .ok 0, .acquire [1])]).2 [2] = none := by decide +kernel
  exact absurd (hnone.symm.trans hg) nofun

end KVFlux.BlockManager
