import KVFlux.BlockManager.Acquire
import KVFlux.BlockManager.Run
import KVFlux.Lib.Transition

/-!
# Sessions over tables

A session takes tables by `acquire` and `share` and gives each of them back at most once.

* `Holder`: a table that was returned and not yet released; `Session`: the manager and the live
  tables. `Session.step` makes one call, `Session.Allowed` says which releases are made.
* `step_cases`: what a call does to the manager and to the live tables.
* **`Ledger`**, **`step_ledger`**: the entries of the live tables own all references.
* **`refs_eq_ownership`**: reference counts, `stats().active` and the live tables agree.
* **`Session.Inv`**, **`step_inv`**: the live tables keep their layout.
* **`prefix_sharing`**: two live tables share exactly their common full blocks.
-/

namespace KVFlux.BlockManager

open Fallible Transition

/-- A returned table, with the tokens it was acquired for; a shared copy has none. -/
structure Holder where
  table : BlockTable
  tokens : Option Tokens

/-- The manager, the live tables in the order they were returned, and all tails ever returned. -/
structure Session where
  m : BlockManager
  live : List Holder := []
  tails : List BlockHandle := []

namespace Session

/-- A call on tables. `release k table` passes `table`, which is the `k`-th live table. -/
inductive Request
  | acquire (hasher : Hasher) (tokens : Tokens)
  | share (table : BlockTable)
  | release (k : ℕ) (table : BlockTable)

/-- The entries of the live tables. -/
def entries (s : Session) : List BlockHandle := s.live.flatMap fun a => a.table.blocks

theorem mem_entries {s : Session} {g : BlockHandle} :
    g ∈ s.entries ↔ ∃ a ∈ s.live, g ∈ a.table.blocks := List.mem_flatMap

/-- The incomplete last block of a new table. -/
def tailOf (s : Session) (tokens : Tokens) (table : BlockTable) : List BlockHandle :=
  if tokens.length % s.m.blockSize ≠ 0 then table.blocks.getLast?.toList else []

/-- One call; a call that throws leaves the state it has reached. -/
def step : Request → Session → Option Session
  | .acquire hasher tokens, s =>
    match BlockManager.acquire hasher tokens s.m with
    | .ok table m =>
      some ⟨m, s.live ++ [⟨table, some tokens⟩], s.tails ++ s.tailOf tokens table⟩
    | .error _ m => some { s with m := m }
  | .share table, s =>
    match BlockManager.share table s.m with
    | .ok copy m => some { s with m := m, live := s.live ++ [⟨copy, none⟩] }
    | .error _ m => some { s with m := m }
  | .release k table, s =>
    match BlockManager.releaseTable table s.m with
    | .ok _ m => some { s with m := m, live := s.live.eraseIdx k }
    | .error _ m => some { s with m := m }

/-- A release that succeeds is the release of a live table. -/
def Allowed (s : Session) : Request → Prop
  | .release k table => s.live[k]?.map Holder.table = some table ∨
      ∃ e m', BlockManager.releaseTable table s.m = .error e m'
  | _ => True

/-- The hasher of each `acquire` agrees with `H`. -/
def AllowedBy (H : Tokens → UInt64) (s : Session) (r : Request) : Prop :=
  s.Allowed r ∧ ∀ hasher tokens, r = .acquire hasher tokens → Agrees H hasher

/-- A new manager. -/
def Start (s : Session) : Prop :=
  s.live = [] ∧ s.tails = [] ∧
    ∃ capacity blockSize hasher, BlockManager.new capacity blockSize hasher = .ok s.m

variable {H : Tokens → UInt64} {s s' : Session} {r : Request}

/-! ## The ledger -/

/-- **The ledger of a session.** -/
structure Ledger (s : Session) : Prop where
  shaped : Shaped s.m
  owned : Owned s.m s.entries
  blockSize_pos : 0 < s.m.blockSize

theorem start_ledger (hs : Start s) : Ledger s := by
  obtain ⟨hl, -, capacity, blockSize, hasher, hn⟩ := hs
  have he : s.entries = [] := by rw [entries, hl]; rfl
  have hgood := (good_of_new (H := fun _ => 0) hn).shaped
  obtain ⟨m, live, tails⟩ := s
  unfold BlockManager.new at hn
  split_ifs at hn with hc
  obtain rfl : init capacity blockSize = m := by simpa using hn
  exact ⟨hgood, by rw [he]; exact owned_init capacity blockSize, by show 0 < blockSize; omega⟩

theorem perm_eraseIdx {k : ℕ} {a : Holder} (hk : s.live[k]? = some a) :
    (s.entries : Multiset BlockHandle) =
      a.table.blocks + ((s.live.eraseIdx k).flatMap fun a => a.table.blocks) := by
  obtain ⟨hlt, rfl⟩ := List.getElem?_eq_some_iff.mp hk
  have hp := (List.getElem_cons_eraseIdx_perm hlt).flatMap_right fun a => a.table.blocks
  rw [entries, Multiset.coe_add, Multiset.coe_eq_coe]
  exact hp.symm

/-- **What a call does.** The live tables change with the call's outcome; the entries of the other
tables stay owned. -/
theorem step_cases (hl : Ledger s) (ha : s.Allowed r) (h : step r s = some s') :
    (s'.live = s.live ∧ s'.tails = s.tails ∧ Taken s.m s'.m [] s.entries) ∨
    (∃ table hasher tokens, r = .acquire hasher tokens ∧
      s'.live = s.live ++ [⟨table, some tokens⟩] ∧ s'.tails = s.tails ++ s.tailOf tokens table ∧
      Taken s.m s'.m table.blocks s.entries ∧
      Layout s'.m s.m.blockSize tokens table.blocks ∧
      FreshTail s.m.blockSize tokens table.blocks s.entries) ∨
    (∃ table : BlockTable, s'.live = s.live ++ [⟨table, none⟩] ∧ s'.tails = s.tails ∧
      Taken s.m s'.m table.blocks s.entries) ∨
    (∃ k a, s.live[k]? = some a ∧ s'.live = s.live.eraseIdx k ∧ s'.tails = s.tails ∧
      s'.m = finalState (releaseAll a.table.blocks s.m) ∧ Taken s.m s'.m [] s'.entries) := by
  have hkeep : Taken s.m s.m [] s.entries := ⟨hl.shaped, by simpa using hl.owned, .refl _, rfl⟩
  cases r with
  | acquire hasher tokens =>
    simp only [step] at h
    rcases acquire_cases hl.shaped hl.owned hl.blockSize_pos hasher tokens with
      ⟨table, m', hc, -, ht, hlay, hf⟩ | ⟨e, m', hc, ht⟩
    · rw [hc] at h
      cases h
      exact .inr (.inl ⟨table, hasher, tokens, rfl, rfl, rfl, ht, hlay, hf⟩)
    · rw [hc] at h
      cases h
      exact .inl ⟨rfl, rfl, ht⟩
  | share table =>
    simp only [step] at h
    have hshape := share_keeps_shaped table s.m hl.shaped
    rcases share_cases table s.m with ⟨ho, hc⟩ | ⟨e, hc⟩
    · rw [hc] at h hshape
      cases h
      exact .inr (.inr (.inl ⟨table, rfl, rfl,
        ⟨hshape, hl.owned.addRefs ho, addRefs_ages _ _, rfl⟩⟩))
    · rw [hc] at h
      cases h
      exact .inl ⟨rfl, rfl, hkeep⟩
  | release k table =>
    simp only [step] at h
    rcases releaseTable_cases table s.m with ⟨-, m', hc, hall, -⟩ | ⟨e, hc⟩
    · rw [hc] at h
      cases h
      rcases ha with ha | ⟨e, m'', ha⟩
      swap
      · rw [hc] at ha; cases ha
      obtain ⟨a, hk, rfl⟩ := Option.map_eq_some_iff.mp ha
      have hsplit := hl.owned
      rw [perm_eraseIdx hk] at hsplit
      obtain ⟨m₁, hall₁, ho⟩ := Owned.releaseAll _ hsplit
      obtain rfl : m' = m₁ := by rw [hall] at hall₁; cases hall₁; rfl
      have hs' := releaseAll_keeps_shaped a.table.blocks s.m hl.shaped
      have hst := releaseAll_steady a.table.blocks s.m
      have hb := releaseAll_blockSize a.table.blocks s.m
      rw [hall] at hs' hst hb
      refine .inr (.inr (.inr ⟨k, a, hk, rfl, rfl, by rw [hall]; rfl, hs', ?_,
        ages_of_eq hst, hb⟩))
      simpa [entries] using ho
    · rw [hc] at h
      cases h
      exact .inl ⟨rfl, rfl, hkeep⟩

theorem entries_append (s : Session) (a : Holder) (h : s'.live = s.live ++ [a]) :
    s'.entries = s.entries ++ a.table.blocks := by
  rw [entries, h, List.flatMap_append, entries]
  simp

theorem step_ledger (hl : Ledger s) (ha : s.Allowed r) (h : step r s = some s') : Ledger s' := by
  have hsize : ∀ {blocks held}, Taken s.m s'.m blocks held → 0 < s'.m.blockSize := fun ht => by
    rw [ht.blockSize_eq]; exact hl.blockSize_pos
  rcases step_cases hl ha h with ⟨hlive, -, ht⟩ | ⟨table, _, _, -, hlive, -, ht, -, -⟩ |
    ⟨table, hlive, -, ht⟩ | ⟨k, a, -, hlive, -, -, ht⟩
  · have he : s'.entries = s.entries := by rw [entries, hlive]; rfl
    refine ⟨ht.shaped, ?_, hsize ht⟩
    rw [he]
    simpa using ht.owned
  · refine ⟨ht.shaped, ?_, hsize ht⟩
    rw [entries_append s _ hlive, ← Multiset.coe_add, Multiset.add_comm]
    exact ht.owned
  · refine ⟨ht.shaped, ?_, hsize ht⟩
    rw [entries_append s _ hlive, ← Multiset.coe_add, Multiset.add_comm]
    exact ht.owned
  · exact ⟨ht.shaped, by simpa using ht.owned, hsize ht⟩

theorem reachable_ledger (hr : Reachable step Start Allowed s) : Ledger s :=
  hr.invariant (fun _ => start_ledger) fun _ _ _ _ hl ha h => step_ledger hl ha h

/-- **No named slot is disturbed.** A call neither evicts nor reallocates a slot that a live table
names. -/
theorem step_undisturbed (hl : Ledger s) (ha : s.Allowed r) (h : step r s = some s') :
    ∀ g ∈ s.entries, (s'.m.slots g.id).generation = (s.m.slots g.id).generation ∧
      (s'.m.slots g.id).cached = (s.m.slots g.id).cached ∧
      (s'.m.slots g.id).prefixTokens = (s.m.slots g.id).prefixTokens := by
  intro g hg
  have hv := hl.owned.valid g (by simpa using hg)
  have hold : ∀ {blocks : List BlockHandle}, Taken s.m s'.m blocks s.entries →
      (s'.m.slots g.id).generation = (s.m.slots g.id).generation ∧
        (s'.m.slots g.id).cached = (s.m.slots g.id).cached ∧
        (s'.m.slots g.id).prefixTokens = (s.m.slots g.id).prefixTokens := fun ht => by
    have hv' := ht.owned.valid g (by simp [hg])
    have he := hv'.2.2.trans hv.2.2.symm
    exact ⟨he, (ht.ages g.id).2 he⟩
  rcases step_cases hl ha h with ⟨-, -, ht⟩ | ⟨_, _, _, -, -, -, ht, -, -⟩ | ⟨_, -, -, ht⟩ |
    ⟨k, a, -, -, -, hm, -⟩
  · exact hold ht
  · exact hold ht
  · exact hold ht
  · rw [hm]
    exact releaseAll_steady a.table.blocks s.m g.id

/-- `stats().active` counts the slots that owners name. -/
theorem active_eq {m : BlockManager} {held : List BlockHandle} (ho : Owned m held) :
    m.stats.active = (held.map BlockHandle.id).dedup.length := by
  rw [stats_eq]
  show List.countP _ _ = _
  rw [List.countP_eq_length_filter]
  refine List.Perm.length_eq ((List.perm_ext_iff_of_nodup (List.nodup_range.filter _)
    (List.nodup_dedup _)).mpr fun i => ?_)
  rw [List.mem_dedup, List.mem_filter, List.mem_range]
  constructor
  · rintro ⟨-, hi⟩
    have hr : (m.slots i).refs ≠ 0 := by
      simp only [Bool.and_eq_true, decide_eq_true_eq] at hi
      exact hi.2
    obtain ⟨g, hg, rfl⟩ := ho.count_pos hr
    exact List.mem_map_of_mem hg
  · intro hi
    obtain ⟨g, hg, rfl⟩ := List.mem_map.mp hi
    have hv := ho.valid g hg
    have hr := ho.refs_pos (h := g) hg
    exact ⟨hv.1, by simp [hv.2.1, hr]⟩

/-- **Main result.** After any calls the references of each slot are the entries of live tables
that name it, `active` counts the named slots, and no named slot is evicted or reallocated.
`share` and `release` of any table whatsoever take all entries, or throw and change nothing. -/
theorem refs_eq_ownership (hr : Reachable step Start Allowed s) :
    (∀ i, (s.m.slots i).refs = (s.entries.map BlockHandle.id).count i) ∧
    s.m.stats.active = (s.entries.map BlockHandle.id).dedup.length ∧
    (∀ g ∈ s.entries, s.m.Valid g) ∧
    (∀ r s', s.Allowed r → step r s = some s' → ∀ g ∈ s.entries,
      (s'.m.slots g.id).generation = (s.m.slots g.id).generation ∧
      (s'.m.slots g.id).cached = (s.m.slots g.id).cached ∧
      (s'.m.slots g.id).prefixTokens = (s.m.slots g.id).prefixTokens) ∧
    ∀ table : BlockTable,
      ((∃ m', BlockManager.share table s.m = .ok table m' ∧ ∀ i, (m'.slots i).refs =
          (s.m.slots i).refs + (table.blocks.map BlockHandle.id).count i) ∨
        ∃ e, BlockManager.share table s.m = .error e s.m) ∧
      ((∃ m', BlockManager.releaseTable table s.m = .ok {} m' ∧ ∀ i, (s.m.slots i).refs =
          (m'.slots i).refs + (table.blocks.map BlockHandle.id).count i) ∨
        ∃ e, BlockManager.releaseTable table s.m = .error e s.m) := by
  have hl := reachable_ledger hr
  have hcount : ∀ {hs : List BlockHandle}, Owns s.m hs → ∀ i,
      (hs.map BlockHandle.id).count i = if i ∈ hs.map BlockHandle.id then 1 else 0 :=
    fun ho i => by
      split_ifs with hi
      · exact List.count_eq_one_of_mem ho.nodup_ids hi
      · exact List.count_eq_zero_of_not_mem hi
  refine ⟨fun i => ?_, active_eq hl.owned, fun g hg => hl.owned.valid g hg,
    fun r s' ha h => step_undisturbed hl ha h, fun table => ⟨?_, ?_⟩⟩
  · rw [hl.owned.refs_eq i, Multiset.map_coe, Multiset.coe_count]
  · rcases share_cases table s.m with ⟨ho, hc⟩ | hc
    · refine .inl ⟨_, hc, fun i => ?_⟩
      rw [addRefs_slots, hcount ho]
      split_ifs <;> rfl
    · exact .inr hc
  · rcases releaseTable_cases table s.m with ⟨ho, m', hc, -, href⟩ | hc
    · refine .inl ⟨m', hc, fun i => ?_⟩
      rw [hcount ho]
      exact href i
    · exact .inr hc

/-- Four slots of two tokens. -/
def small : Session := ⟨init 4 2, [], []⟩

theorem small_start : Start small := ⟨rfl, rfl, 4, 2, some fun _ => .ok 0, rfl⟩

/-- Two tables share their first block, and one of them is shared again. -/
theorem refs_eq_ownership_shared : ∃ s : Session,
    Transition.run step [.acquire (fun _ => .ok 0) [1, 2, 3], .acquire (fun _ => .ok 0) [1, 2, 4],
      .share ⟨[⟨0, 1⟩, ⟨1, 1⟩], 3⟩] small = some s ∧ (s.m.slots 0).refs = 3 := by
  have h : (Transition.run step [.acquire (fun _ => .ok 0) [1, 2, 3],
      .acquire (fun _ => .ok 0) [1, 2, 4], .share ⟨[⟨0, 1⟩, ⟨1, 1⟩], 3⟩] small).map
        (fun s => (s.entries.map BlockHandle.id).count 0) = some 3 := by decide +kernel
  obtain ⟨s, hs, hc⟩ := Option.map_eq_some_iff.mp h
  have hr : Reachable step Start Allowed s :=
    (Reachable.start small_start).run (by simp [Allowed]) hs
  exact ⟨s, hs, ((refs_eq_ownership hr).1 0).trans hc⟩

/-! ## Prefix sharing -/

/-- The tails of two acquired tables are different slots. -/
def Apart (n : ℕ) (a b : Holder) : Prop := ∀ ta tb, a.tokens = some ta → b.tokens = some tb →
  ∀ (i j : ℕ) (h g : BlockHandle), a.table.blocks[i]? = some h → ta.length < (i + 1) * n →
    b.table.blocks[j]? = some g → tb.length < (j + 1) * n → h.id ≠ g.id

theorem Apart.symm {n : ℕ} {a b : Holder} (h : Apart n a b) : Apart n b a :=
  fun tb ta hb ha j i g h' hg hj hh hi => (h ta tb ha hb i j h' g hh hi hg hj).symm

/-- **The invariant of the live tables.** -/
structure Inv (H : Tokens → UInt64) (s : Session) : Prop where
  ledger : Ledger s
  good : Good H s.m
  layout : ∀ a ∈ s.live, ∀ t, a.tokens = some t → Layout s.m s.m.blockSize t a.table.blocks
  apart : s.live.Pairwise (Apart s.m.blockSize)
  tails : ∀ g ∈ s.tails, g.generation ≤ (s.m.slots g.id).generation ∧
    ((s.m.slots g.id).generation = g.generation → (s.m.slots g.id).cached = false)

theorem start_inv (hs : Start s) : Inv H s := by
  have hl := start_ledger hs
  obtain ⟨hlive, htails, capacity, blockSize, hasher, hn⟩ := hs
  refine ⟨hl, good_of_new hn, ?_, ?_, ?_⟩
  · rw [hlive]; exact nofun
  · rw [hlive]; exact .nil
  · rw [htails]; exact nofun

theorem step_good (hg : Good H s.m) (ha : s.AllowedBy H r) (h : step r s = some s') :
    Good H s'.m := by
  cases r with
  | acquire hasher tokens =>
    have := acquire_keeps (ha.2 hasher tokens rfl) tokens s.m hg
    simp only [step] at h
    cases hc : BlockManager.acquire hasher tokens s.m <;> rw [hc] at h this <;> cases h <;>
      exact this
  | share table =>
    have := share_keeps table s.m hg
    simp only [step] at h
    cases hc : BlockManager.share table s.m <;> rw [hc] at h this <;> cases h <;> exact this
  | release k table =>
    have := releaseTable_keeps table s.m hg
    simp only [step] at h
    cases hc : BlockManager.releaseTable table s.m <;> rw [hc] at h this <;> cases h <;> exact this

/-- Tables that are still owned keep their layout. -/
theorem layout_kept {a : Holder} {t : Tokens} (hi : Inv H s) (hm : a ∈ s.live)
    (ht : a.tokens = some t) (hages : Ages s.m s'.m)
    (hv : ∀ g ∈ a.table.blocks, s'.m.Valid g) : Layout s'.m s.m.blockSize t a.table.blocks :=
  (hi.layout a hm t ht).ages hages
    (fun g hg => hi.ledger.owned.valid g
    (Multiset.mem_coe.mpr (mem_entries.mpr ⟨a, hm, hg⟩))) hv

theorem tails_kept {ts : List BlockHandle} {m m' : BlockManager}
    (ht : ∀ g ∈ ts, g.generation ≤ (m.slots g.id).generation ∧
      ((m.slots g.id).generation = g.generation → (m.slots g.id).cached = false))
    (ha : Ages m m') : ∀ g ∈ ts, g.generation ≤ (m'.slots g.id).generation ∧
      ((m'.slots g.id).generation = g.generation → (m'.slots g.id).cached = false) := by
  intro g hg
  obtain ⟨hle, hc⟩ := ht g hg
  have hle' := (ha g.id).1
  refine ⟨hle.trans hle', fun he => ?_⟩
  rw [((ha g.id).2 (by omega)).1]
  exact hc (by omega)

/-- An incomplete last block is past the end of the tokens. -/
theorem tailOf_spec {s : Session} {m : BlockManager} {tokens : Tokens} {table : BlockTable}
    (hl : Layout m s.m.blockSize tokens table.blocks) (hn : 0 < s.m.blockSize) {g : BlockHandle}
    (hg : g ∈ s.tailOf tokens table) : ∃ i : ℕ, table.blocks[i]? = some g ∧
      tokens.length < (i + 1) * s.m.blockSize := by
  unfold tailOf at hg
  split_ifs at hg with hmod
  · have hlast : table.blocks.getLast? = some g := by simpa using hg
    have hlen := hl.length_eq
    rw [if_pos hmod] at hlen
    refine ⟨table.blocks.length - 1, ?_, ?_⟩
    · rw [← List.getLast?_eq_getElem?]
      exact hlast
    · rw [hlen, Nat.add_sub_cancel, Nat.mul_comm]
      exact Nat.lt_mul_div_succ _ hn
  · exact absurd hg List.not_mem_nil

theorem step_inv (hi : Inv H s) (ha : s.AllowedBy H r) (h : step r s = some s') : Inv H s' := by
  have hl := step_ledger hi.ledger ha.1 h
  have hgood := step_good hi.good ha h
  have hmem : ∀ {a g}, a ∈ s'.live → g ∈ a.table.blocks → s'.m.Valid g := fun hm hg =>
    hl.owned.valid _ (Multiset.mem_coe.mpr (mem_entries.mpr ⟨_, hm, hg⟩))
  rcases step_cases hi.ledger ha.1 h with ⟨hlive, htails, ht⟩ |
    ⟨table, hasher, tokens, -, hlive, htails, ht, hlay, hf⟩ | ⟨table, hlive, htails, ht⟩ |
    ⟨k, a, -, hlive, htails, -, ht⟩
  · refine ⟨hl, hgood, fun a hm t hat => ?_, ?_, ?_⟩
    · rw [ht.blockSize_eq]
      exact layout_kept hi (hlive ▸ hm) hat ht.ages fun g => hmem hm
    · rw [hlive, ht.blockSize_eq]
      exact hi.apart
    · rw [htails]
      exact tails_kept hi.tails ht.ages
  · refine ⟨hl, hgood, fun a hm t hat => ?_, ?_, ?_⟩
    · rw [ht.blockSize_eq]
      have hm' := hm
      rw [hlive] at hm'
      rcases List.mem_append.mp hm' with hm' | hm'
      · exact layout_kept hi hm' hat ht.ages fun g => hmem hm
      · obtain rfl := List.mem_singleton.mp hm'
        cases hat
        exact hlay
    · rw [hlive, ht.blockSize_eq]
      refine List.pairwise_append.mpr ⟨hi.apart, List.pairwise_singleton _ _, ?_⟩
      intro a hm b hb ta tb _ htb i j x g hx _ hg hj
      obtain rfl := List.mem_singleton.mp hb
      cases htb
      have hx' : x ∈ s.entries := mem_entries.mpr ⟨a, hm, List.mem_of_getElem? hx⟩
      exact hf j g hg hj x (by simpa using hx')
    · rw [htails]
      intro g hg
      rcases List.mem_append.mp hg with hg | hg
      · exact tails_kept hi.tails ht.ages g hg
      · obtain ⟨i, hgi, hlt⟩ := tailOf_spec hlay hi.ledger.blockSize_pos hg
        have hv := ht.owned.valid g (by simp [List.mem_of_getElem? hgi])
        exact ⟨hv.2.2.ge, fun _ => hlay.tail i g hgi hlt⟩
  · refine ⟨hl, hgood, fun a hm t hat => ?_, ?_, ?_⟩
    · rw [ht.blockSize_eq]
      have hm' := hm
      rw [hlive] at hm'
      rcases List.mem_append.mp hm' with hm' | hm'
      · exact layout_kept hi hm' hat ht.ages fun g => hmem hm
      · obtain rfl := List.mem_singleton.mp hm'
        cases hat
    · rw [hlive, ht.blockSize_eq]
      refine List.pairwise_append.mpr ⟨hi.apart, List.pairwise_singleton _ _, ?_⟩
      intro a hm b hb ta tb _ htb
      obtain rfl := List.mem_singleton.mp hb
      cases htb
    · rw [htails]
      exact tails_kept hi.tails ht.ages
  · have hsub : ∀ b ∈ s'.live, b ∈ s.live := fun b hm =>
      (List.eraseIdx_sublist _ k).subset (hlive ▸ hm)
    refine ⟨hl, hgood, fun b hm t hbt => ?_, ?_, ?_⟩
    · rw [ht.blockSize_eq]
      exact layout_kept hi (hsub b hm) hbt ht.ages fun g => hmem hm
    · rw [hlive, ht.blockSize_eq]
      exact hi.apart.sublist (List.eraseIdx_sublist _ k)
    · rw [htails]
      exact tails_kept hi.tails ht.ages

theorem reachable_inv (hr : Reachable step Start (AllowedBy H) s) : Inv H s :=
  hr.invariant (fun _ => start_inv) fun _ _ _ _ hi ha h => step_inv hi ha h

/-- Two live acquired tables name the same block exactly for the same full prefix. -/
theorem shared_iff (hi : Inv H s) {a b : Holder} {ta tb : Tokens} (hm : a ∈ s.live)
    (hm' : b ∈ s.live) (hap : Apart s.m.blockSize a b) (hta : a.tokens = some ta)
    (htb : b.tokens = some tb) {i j : ℕ} {h g : BlockHandle} (hh : a.table.blocks[i]? = some h)
    (hg : b.table.blocks[j]? = some g) :
    h = g ↔ i = j ∧ (i + 1) * s.m.blockSize ≤ ta.length ∧ (i + 1) * s.m.blockSize ≤ tb.length ∧
      ta.take ((i + 1) * s.m.blockSize) = tb.take ((i + 1) * s.m.blockSize) := by
  have hla := hi.layout a hm ta hta
  have hlb := hi.layout b hm' tb htb
  constructor
  · rintro rfl
    rcases Nat.lt_or_ge ta.length ((i + 1) * s.m.blockSize) with ha | ha
    · -- a tail of `a`: unpublished, so it is a tail of `b` too
      have hunc := hla.tail i h hh ha
      rcases Nat.lt_or_ge tb.length ((j + 1) * s.m.blockSize) with hb | hb
      · exact absurd rfl (hap ta tb hta htb i j h h hh ha hg hb)
      · rw [(hlb.full j h hg hb).1] at hunc
        cases hunc
    · obtain ⟨hc, hp⟩ := hla.full i h hh ha
      rcases Nat.lt_or_ge tb.length ((j + 1) * s.m.blockSize) with hb | hb
      · rw [hlb.tail j h hg hb] at hc
        cases hc
      · have hp' := (hlb.full j h hg hb).2
        have hlen : (ta.take ((i + 1) * s.m.blockSize)).length =
            (tb.take ((j + 1) * s.m.blockSize)).length := by rw [← hp, ← hp']
        rw [List.length_take_of_le ha, List.length_take_of_le hb] at hlen
        have hij := Nat.eq_of_mul_eq_mul_right hi.ledger.blockSize_pos hlen
        obtain rfl : i = j := by omega
        exact ⟨rfl, ha, hb, hp.symm.trans hp'⟩
  · rintro ⟨rfl, ha, hb, htake⟩
    obtain ⟨hc, hp⟩ := hla.full i h hh ha
    obtain ⟨hc', hp'⟩ := hlb.full i g hg hb
    obtain ⟨free, idle, hinv⟩ := hi.good
    have hid : h.id = g.id := hinv.indexed.inj _ _ hc hc' (by rw [hp, hp', htake])
    exact hi.ledger.owned.handle_eq
      (Multiset.mem_coe.mpr (mem_entries.mpr ⟨a, hm, List.mem_of_getElem? hh⟩))
      (Multiset.mem_coe.mpr (mem_entries.mpr ⟨b, hm', List.mem_of_getElem? hg⟩)) hid

/-- **Main result.** The handles of a live acquired table are distinct. It shares a block with
another live acquired table exactly where both are full and agree on all tokens up to there; its
incomplete tail is in no other acquired table, and no tail is ever published. -/
theorem prefix_sharing {k : ℕ} {a : Holder} {ta : Tokens}
    (hr : Reachable step Start (AllowedBy H) s) (hk : s.live[k]? = some a)
    (hta : a.tokens = some ta) :
    a.table.blocks.Nodup ∧
    (∀ g ∈ s.tails, s.m.isPublished g ≠ .ok true) ∧
    (∀ i h, a.table.blocks[i]? = some h → ta.length < (i + 1) * s.m.blockSize →
      (s.m.slots h.id).cached = false) ∧
    ∀ l b tb, s.live[l]? = some b → k ≠ l → b.tokens = some tb →
      (∀ i j h g, a.table.blocks[i]? = some h → b.table.blocks[j]? = some g →
        (h = g ↔ i = j ∧ (i + 1) * s.m.blockSize ≤ ta.length ∧
          (i + 1) * s.m.blockSize ≤ tb.length ∧
          ta.take ((i + 1) * s.m.blockSize) = tb.take ((i + 1) * s.m.blockSize))) ∧
      ∀ i h, a.table.blocks[i]? = some h → ta.length < (i + 1) * s.m.blockSize →
        h ∉ b.table.blocks := by
  have hi := reachable_inv hr
  have hm := List.mem_of_getElem? hk
  have hla := hi.layout a hm ta hta
  refine ⟨hla.nodup hi.ledger.blockSize_pos, fun g hg => ?_, hla.tail,
    fun l b tb hl hkl htb => ?_⟩
  · unfold isPublished
    by_cases hv : s.m.Valid g
    · rw [checked_ok g hv]
      have := (hi.tails g hg).2 hv.2.2
      show Except.ok (s.m.slots g.id).cached ≠ Except.ok true
      rw [this]
      exact nofun
    · rw [checked_error g hv]
      exact nofun
  · have hap : Apart s.m.blockSize a b := by
      obtain ⟨hk', rfl⟩ := List.getElem?_eq_some_iff.mp hk
      obtain ⟨hl', rfl⟩ := List.getElem?_eq_some_iff.mp hl
      rcases Nat.lt_or_gt_of_ne hkl with hlt | hlt
      · exact List.pairwise_iff_getElem.mp hi.apart k l hk' hl' hlt
      · exact (List.pairwise_iff_getElem.mp hi.apart l k hl' hk' hlt).symm
    have hiff := fun i j h g => shared_iff hi (i := i) (j := j) (h := h) (g := g) hm
      (List.mem_of_getElem? hl) hap hta htb
    refine ⟨hiff, fun i h hh htail hmem => ?_⟩
    obtain ⟨j, hj⟩ := List.getElem?_of_mem hmem
    have := ((hiff i j h h hh hj).mp rfl).2.1
    omega

/-- Under a constant hasher two tables share their first block and have tails of their own. -/
theorem prefix_sharing_first : ∃ (s : Session) (a b : Holder),
    Transition.run step [.acquire (fun _ => .ok 0) [1, 2, 3], .acquire (fun _ => .ok 0) [1, 2, 4]]
      small = some s ∧ s.live = [a, b] ∧ a.table.blocks = [⟨0, 1⟩, ⟨1, 1⟩] ∧
      ⟨0, 1⟩ ∈ b.table.blocks ∧ ⟨1, 1⟩ ∉ b.table.blocks := by
  have h : (Transition.run step [.acquire (fun _ => .ok 0) [1, 2, 3],
      .acquire (fun _ => .ok 0) [1, 2, 4]] small).map
        (fun s => (s.m.blockSize, s.live.map fun a => (a.table.blocks, a.tokens))) =
      some (2, [([⟨0, 1⟩, ⟨1, 1⟩], some [1, 2, 3]), ([⟨0, 1⟩, ⟨2, 1⟩], some [1, 2, 4])]) := by
    decide +kernel
  obtain ⟨s, hs, hc⟩ := Option.map_eq_some_iff.mp h
  have hr : Reachable step Start (AllowedBy fun _ => 0) s :=
    (Reachable.start small_start).run (by simp [AllowedBy, Allowed, Agrees]) hs
  obtain ⟨hsize, hlive⟩ := Prod.mk.inj hc
  obtain ⟨a, l, hl, ha, hbs⟩ := List.map_eq_cons_iff.mp hlive
  obtain ⟨b, l', rfl, hb, hnil⟩ := List.map_eq_cons_iff.mp hbs
  obtain rfl := List.map_eq_nil_iff.mp hnil
  obtain ⟨ha1, ha2⟩ := Prod.mk.inj ha
  obtain ⟨hb1, hb2⟩ := Prod.mk.inj hb
  have hab := (prefix_sharing (k := 0) hr (by rw [hl]; rfl) ha2).2.2.2 1 b _ (by rw [hl]; rfl)
    nofun hb2
  rw [hsize, ha1, hb1] at hab
  exact ⟨s, a, b, hs, hl, ha1, hb1 ▸ List.mem_cons_self, hb1 ▸ hab.2 1 _ rfl (by decide)⟩

end Session

end KVFlux.BlockManager
