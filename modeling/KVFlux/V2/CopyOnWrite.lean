import KVFlux.V2.Requests

/-!
# Appends with copy-on-write

* `Local`: the store has the values of the tokens of one sequence.
* `Published`: the cached pages hold the values of their prefixes.
* `Valued`: both, and the pages of other holders are their own. `Consistent`: with the ledger and the
  tables of the family.
* `Exclusive m blocks rest j`: the page of block `j` has no other entry and is not cached.
* **`writeTokens_spec`**: what a caller writes on exclusive pages.
* **`changes_appendTokens`**, **`changes_copied`**: an append gives out exclusive positions, and the
  longer sequence has its values.
-/

namespace KVFlux.V2

open Fallible BlockManager

variable {H : Tokens → UInt64} {V : Type} {value : Tokens → V} {here : ℕ} {w w' : World V}
  {m m' : PhysicalBlockPool} {store store' : ℕ → ℕ → V} {r r' : Request} {s : SequenceState}
  {rest : Multiset BlockHandle} {i j : ℕ} {g h : BlockHandle} {tokens : Tokens}

def Request.blocks (r : Request) : List BlockHandle := r.sequence.blockTable.blocks

/-- The references of the sequences. -/
def owners (rs : List Request) : Multiset BlockHandle := Family.tables (rs.map Request.sequence)

/-- All references. -/
def World.held (w : World V) : Multiset BlockHandle := owners w.requests + w.others

/-- The references beside those of sequence `i`. -/
def World.beside (w : World V) (i : ℕ) : Multiset BlockHandle := w.family.beside 0 i

/-- What a sequence means. -/
structure Local (value : Tokens → V) (m : PhysicalBlockPool) (store : ℕ → ℕ → V) (r : Request) :
    Prop where
  length : r.sequence.numTokens = r.tokens.length
  /-- A cached page of the table is full. -/
  full : ∀ k h, r.blocks[k]? = some h → (m.slots h.id).cached = true →
    (k + 1) * m.blockSize ≤ r.sequence.numTokens
  content : ∀ t < r.sequence.numTokens, ∀ h, r.blocks[t / m.blockSize]? = some h →
    store h.id (t % m.blockSize) = value (r.tokens.take (t + 1))

/-- The cached pages hold the values of the last tokens of their prefixes. -/
def Published (value : Tokens → V) (m : PhysicalBlockPool) (store : ℕ → ℕ → V) : Prop :=
  ∀ i, (m.slots i).cached = true → ∀ k < m.blockSize, store i k =
    value ((m.slots i).prefixTokens.take ((m.slots i).prefixTokens.length - m.blockSize + k + 1))

/-- The pages of other holders are private to them. -/
def Apart (m : PhysicalBlockPool) (others tables : Multiset BlockHandle) : Prop :=
  ∀ h ∈ others, (m.slots h.id).cached = false ∧ ∀ g ∈ tables, g.id ≠ h.id

/-- What the tokens and the values mean. -/
structure Valued (value : Tokens → V) (w : World V) : Prop where
  local_ : ∀ r ∈ w.requests, Local value w.pool w.store r
  published : Published value w.pool w.store
  apart : Apart w.pool w.others (owners w.requests)

/-- **The invariant.** -/
structure Consistent (H : Tokens → UInt64) (here : ℕ) (value : Tokens → V) (w : World V) : Prop
    extends Valued value w where
  intact : Family.Intact H here 0 w.family

/-! ## References of lists of sequences -/

theorem mem_owners_iff {rs : List Request} : g ∈ owners rs ↔ ∃ r ∈ rs, g ∈ r.blocks := by
  rw [owners, Family.mem_tables_iff]
  simp only [List.mem_map, exists_exists_and_eq_and, Request.blocks]

theorem mem_owners {rs : List Request} (hr : r ∈ rs) (hg : g ∈ r.blocks) : g ∈ owners rs :=
  mem_owners_iff.mpr ⟨r, hr, hg⟩

theorem mem_beside : g ∈ w.beside i ↔ g ∈ owners (w.requests.eraseIdx i) ∨ g ∈ w.others := by
  simp only [World.beside, Family.beside, World.family, owners, List.eraseIdx_map, add_zero,
    Multiset.mem_add]

theorem held_eq (hi : w.requests[i]? = some r) : w.held = r.blocks + w.beside i := by
  rw [World.beside, Family.beside, add_zero, ← add_assoc, Request.blocks,
    ← Family.tables_eq (family_at hi)]
  rfl

namespace Consistent

theorem sound (hw : Consistent H here value w) : Sound H w.pool w.held := by
  have := hw.intact.sound
  rw [add_zero] at this
  exact this

/-- The pool as sequence `i` sees it. -/
theorem view (hw : Consistent H here value w) (hi : w.requests[i]? = some r) :
    Sound H w.pool (r.blocks + w.beside i) := hw.intact.view (family_at hi)

theorem proper (hw : Consistent H here value w) (hi : w.requests[i]? = some r) :
    Family.Proper here w.pool r.sequence := hw.intact.at_ (family_at hi)

theorem pos (hw : Consistent H here value w) (hi : w.requests[i]? = some r) :
    0 < r.sequence.blockSize := (hw.proper hi).blockSize ▸ hw.sound.blockSize_pos

end Consistent

/-! ## Frames -/

theorem Local.frame (hl : Local value m store r) (hs : Shrinks m m')
    (he : ∀ g ∈ r.blocks, store' g.id = store g.id) : Local value m' store' r where
  length := hl.length
  full k h hk hc := by
    rw [hs.blockSize]
    exact hl.full k h hk (hs.cached _ hc).1
  content t ht h hh := by
    rw [hs.blockSize] at hh ⊢
    rw [he h (List.mem_of_getElem? hh)]
    exact hl.content t ht h hh

theorem Published.frame (hp : Published value m store) (hs : Shrinks m m')
    (he : ∀ i, (m'.slots i).cached = true → store' i = store i) : Published value m' store' := by
  intro i hi k hk
  obtain ⟨hc, hpre⟩ := hs.cached i hi
  rw [hs.blockSize] at hk ⊢
  rw [he i hi, hpre]
  exact hp i hc k hk

theorem Apart.frame {others tables tables' : Multiset BlockHandle} (ha : Apart m others tables)
    (hs : Shrinks m m') (hr : ∀ g ∈ tables', g ∈ tables ∨ ∀ h ∈ others, g.id ≠ h.id) :
    Apart m' others tables' := by
  refine fun h hh => ⟨hs.uncached (ha h hh).1, fun g hg => ?_⟩
  rcases hr g hg with hg | hg
  · exact (ha h hh).2 g hg
  · exact hg h hh

/-! ## Exclusive pages -/

/-- Block `j` lies on an unpublished page that has no other entry. -/
structure Exclusive (m : PhysicalBlockPool) (blocks : List BlockHandle)
    (rest : Multiset BlockHandle) (j : ℕ) (h : BlockHandle) : Prop where
  block : blocks[j]? = some h
  cached : (m.slots h.id).cached = false
  rest : ∀ g ∈ rest, g.id ≠ h.id
  self : ∀ k g, blocks[k]? = some g → k ≠ j → g.id ≠ h.id

theorem exclusive_of_refs {blocks : List BlockHandle} (hs : Sound H m (blocks + rest))
    (hj : blocks[j]? = some h) (hr : (m.slots h.id).refs = 1)
    (hc : (m.slots h.id).cached = false) : Exclusive m blocks rest j h := by
  obtain ⟨hlt, hjh⟩ := List.getElem?_eq_some_iff.mp hj
  have hmem : h ∈ (blocks : Multiset BlockHandle) + rest :=
    Multiset.mem_add.mpr (.inl (List.mem_of_getElem? hj))
  have hone := hs.owned.count_eq_one hmem hr
  have herase : ((blocks : Multiset BlockHandle) + rest).erase h =
      (blocks.eraseIdx j : Multiset BlockHandle) + rest := by
    have : (blocks : Multiset BlockHandle) = h ::ₘ (blocks.eraseIdx j : Multiset BlockHandle) := by
      rw [Multiset.cons_coe, Multiset.coe_eq_coe, ← hjh]
      exact (List.getElem_cons_eraseIdx_perm hlt).symm
    rw [this, Multiset.cons_add, Multiset.erase_cons_head]
  rw [herase] at hone
  refine ⟨hj, hc, fun g hg => hone g (Multiset.mem_add.mpr (.inr hg)), fun k g hk hne => ?_⟩
  refine hone g (Multiset.mem_add.mpr (.inl ?_))
  exact List.mem_eraseIdx_iff_getElem?.mpr ⟨k, hne, hk⟩

/-! ## Writing the new values -/

/-- **Writes at exclusive positions.** Other pages keep their content, and so do the positions of
earlier tokens; the new tokens get their values. -/
theorem writeTokens_spec {n : ℕ} (count : ℕ) (hs : Sound H m (s.blockTable.blocks + rest))
    (hcov : ∀ t < n + count, ∃ g, s.blockTable.blocks[t / s.blockSize]? =
      some g) (hlen : n + count ≤ s.numTokens)
    (hex : ∀ t, n ≤ t → t < n + count →
      ∃ h, Exclusive m s.blockTable.blocks rest (t / s.blockSize) h) :
    (∀ page, (∀ t h, n ≤ t → t < n + count → s.blockTable.blocks[t / s.blockSize]? = some h →
      h.id ≠ page) → writeTokens value m s tokens n store count page = store page) ∧
    (∀ t < n, ∀ g, s.blockTable.blocks[t / s.blockSize]? = some g →
      writeTokens value m s tokens n store count g.id (t % s.blockSize) =
        store g.id (t % s.blockSize)) ∧
    (∀ t, n ≤ t → t < n + count → ∀ g, s.blockTable.blocks[t / s.blockSize]? = some g →
      writeTokens value m s tokens n store count g.id (t % s.blockSize) =
        value (tokens.take (t + 1))) := by
  induction count with
  | zero => exact ⟨fun _ _ => rfl, fun _ _ _ _ => rfl, fun t h₁ h₂ => by omega⟩
  | succ count ih =>
    obtain ⟨ih₁, ih₂, ih₃⟩ := ih (fun t ht => hcov t (by omega)) (by omega)
      (fun t h₁ h₂ => hex t h₁ (by omega))
    obtain ⟨h, hh⟩ := hex (n + count) (by omega) (by omega)
    have hloc := SequenceState.tokenLocation_eq hs (t := n + count) (by omega) hh.block
    have hstep : writeTokens value m s tokens n store (count + 1) =
        setValue (writeTokens value m s tokens n store count)
          ⟨h.id, (n + count) % s.blockSize⟩ (value (tokens.take (n + count + 1))) := by
      rw [writeTokens, hloc]
    -- another token of the sequence lies elsewhere
    have hother : ∀ t < n + count, ∀ g, s.blockTable.blocks[t / s.blockSize]? = some g →
        writeTokens value m s tokens n store (count + 1) g.id (t % s.blockSize) =
          writeTokens value m s tokens n store count g.id (t % s.blockSize) := by
      intro t ht g hg
      rw [hstep, setValue, setPage]
      by_cases hp : g.id = h.id
      · rw [hp, Function.update_self]
        refine Function.update_of_ne (fun hmod : t % s.blockSize = (n + count) % s.blockSize => ?_) _ _
        have hdiv : t / s.blockSize = (n + count) / s.blockSize := by
          by_contra hne
          exact hh.self _ g hg hne hp
        have h₁ := Nat.div_add_mod t s.blockSize
        have h₂ := Nat.div_add_mod (n + count) s.blockSize
        rw [hdiv, hmod] at h₁
        omega
      · rw [Function.update_of_ne hp]
    refine ⟨fun page hpage => ?_, fun t ht g hg => ?_, fun t h₁ h₂ g hg => ?_⟩
    · have hne : page ≠ h.id := (hpage (n + count) h (by omega) (by omega) hh.block).symm
      rw [hstep, setValue, setPage, Function.update_of_ne hne]
      exact ih₁ page fun t g h₁ h₂ hg => hpage t g h₁ (by omega) hg
    · rw [hother t (by omega) g hg]
      exact ih₂ t ht g hg
    · rcases Nat.lt_succ_iff_lt_or_eq.mp (show t < (n + count) + 1 by omega) with ht | rfl
      · rw [hother t ht g hg]
        exact ih₃ t h₁ ht g hg
      · obtain rfl : h = g := Option.some.inj (hh.block.symm.trans hg)
        rw [hstep, setValue, setPage, Function.update_self, Function.update_self]

/-! ## Changing one sequence -/

/-- What a step that changes one sequence has to provide. -/
structure Changes (value : Tokens → V) (w : World V) (i : ℕ) (r' : Request)
    (m' : PhysicalBlockPool) (store' : ℕ → ℕ → V) : Prop where
  shrinks : Shrinks w.pool m'
  local_ : Local value m' store' r'
  /-- Pages of the other sequences keep their content. -/
  others : ∀ g ∈ owners (w.requests.eraseIdx i), store' g.id = w.store g.id
  cached : ∀ i, (m'.slots i).cached = true → store' i = w.store i
  apart : ∀ g ∈ r'.blocks, ∀ h ∈ w.others, g.id ≠ h.id

theorem Valued.change (hw : Valued value w) (hi : w.requests[i]? = some r)
    (hc : Changes value w i r' m' store') :
    Valued value ⟨m', w.requests.set i r', w.others, store'⟩ := by
  have hlt := (List.getElem?_eq_some_iff.mp hi).1
  refine ⟨fun r'' hr'' => ?_, hw.published.frame hc.shrinks hc.cached,
    hw.apart.frame hc.shrinks fun g hg => ?_⟩
  · obtain ⟨j, hj⟩ := List.getElem?_of_mem hr''
    by_cases hji : j = i
    · subst hji
      rw [List.getElem?_set_self hlt] at hj
      exact Option.some.inj hj ▸ hc.local_
    · rw [List.getElem?_set_ne (Ne.symm hji)] at hj
      refine (hw.local_ r'' (List.mem_of_getElem? hj)).frame hc.shrinks fun g hg => hc.others g ?_
      exact mem_owners (List.mem_eraseIdx_iff_getElem?.mpr ⟨j, hji, hj⟩) hg
  · obtain ⟨q, hq, hgq⟩ := mem_owners_iff.mp hg
    rcases List.mem_or_eq_of_mem_set hq with hq | rfl
    · exact .inl (mem_owners hq hgq)
    · exact .inr (hc.apart g hgq)

/-- **A longer sequence.** `store₁` is the store before the caller writes: the new tokens lie on
exclusive pages, and it has the values of the old ones. -/
theorem changes_appended (hw : Valued value w) (hi : w.requests[i]? = some r)
    {store₁ : ℕ → ℕ → V} (hs : Sound H m' (s.blockTable.blocks + w.beside i))
    (hshrink : Shrinks w.pool m') (hbs : s.blockSize = m'.blockSize) (hcov : s.Covered)
    (hn : s.numTokens = r.sequence.numTokens + tokens.length)
    (hex : ∀ t, r.sequence.numTokens ≤ t → t < s.numTokens →
      ∃ h, Exclusive m' s.blockTable.blocks (w.beside i) (t / s.blockSize) h)
    (hfull : ∀ (k : ℕ) (h : BlockHandle), s.blockTable.blocks[k]? = some h → (m'.slots h.id).cached = true →
      r.blocks[k]? = some h)
    (hold : ∀ t < r.sequence.numTokens, ∀ h : BlockHandle, s.blockTable.blocks[t / s.blockSize]? = some h →
      store₁ h.id (t % s.blockSize) = value (r.tokens.take (t + 1)))
    (hrest : ∀ g ∈ owners (w.requests.eraseIdx i), store₁ g.id = w.store g.id)
    (hcached : ∀ i, (m'.slots i).cached = true → store₁ i = w.store i)
    (hapart : ∀ g ∈ s.blockTable.blocks, ∀ h ∈ w.others, g.id ≠ h.id) :
    Changes value w i ⟨s, r.tokens ++ tokens⟩ m' (writeTokens value m' s (r.tokens ++ tokens)
      r.sequence.numTokens store₁ tokens.length) := by
  have hl := hw.local_ r (List.mem_of_getElem? hi)
  have hpos : 0 < s.blockSize := hbs ▸ hs.blockSize_pos
  obtain ⟨hpages, hearlier, hnew⟩ := @writeTokens_spec H V value _ store₁ _ _
    (r.tokens ++ tokens) _ tokens.length hs
    (fun t ht => hcov.block hpos (hn ▸ ht)) hn.symm.le (fun t h₁ h₂ => hex t h₁ (hn ▸ h₂))
  have hpage : ∀ g : ℕ, (∀ t (h : BlockHandle), r.sequence.numTokens ≤ t → t < s.numTokens →
      s.blockTable.blocks[t / s.blockSize]? = some h →
      Exclusive m' s.blockTable.blocks (w.beside i) (t / s.blockSize) h → h.id ≠ g) →
      writeTokens value m' s (r.tokens ++ tokens) r.sequence.numTokens store₁ tokens.length g =
        store₁ g := by
    intro g hg
    refine hpages g fun t h h₁ h₂ hh => ?_
    obtain ⟨h', hx⟩ := hex t h₁ (hn ▸ h₂)
    obtain rfl : h' = h := Option.some.inj (hx.block.symm.trans hh)
    exact hg t h' h₁ (hn ▸ h₂) hh hx
  refine ⟨hshrink, ⟨?_, fun k h (hk : s.blockTable.blocks[k]? = some h) hc => ?_,
    fun t ht h (hh : s.blockTable.blocks[t / m'.blockSize]? = some h) => ?_⟩, ?_, ?_, hapart⟩
  · show s.numTokens = (r.tokens ++ tokens).length
    rw [hn, hl.length, List.length_append]
  · have := hl.full k h (hfull k h hk hc) (hshrink.cached _ hc).1
    rw [hshrink.blockSize]
    exact this.trans (hn ▸ Nat.le_add_right _ _)
  · rw [← hbs] at hh ⊢
    rcases Nat.lt_or_ge t r.sequence.numTokens with hlt | hge
    · rw [hearlier t hlt h hh, hold t hlt h hh, List.take_append_of_le_length]
      rw [← hl.length]
      exact hlt
    · exact hnew t hge (hn ▸ ht) h hh
  · intro g hg
    rw [← hrest g hg]
    exact hpage g.id fun t h _ _ _ hx => (hx.rest g (mem_beside.mpr (.inl hg))).symm
  · intro k hk
    rw [← hcached k hk]
    refine hpage k fun t h _ _ _ hx he => ?_
    rw [← he, hx.cached] at hk
    cases hk

/-! ## Appends -/

/-- The positions of a successful append. -/
def Fresh (w : World V) (i : ℕ) (r : Request) (m' : PhysicalBlockPool) (s : SequenceState) : Prop :=
  ∀ t, r.sequence.numTokens ≤ t → t < s.numTokens →
    ∃ h, Exclusive m' s.blockTable.blocks (w.beside i) (t / s.blockSize) h

/-- A partial tail page is not cached. -/
theorem Consistent.tail_uncached (hw : Consistent H here value w) (hi : w.requests[i]? = some r)
    {blocks : List BlockHandle} (hb : r.blocks = blocks ++ [h])
    (hp : r.sequence.numTokens % r.sequence.blockSize ≠ 0) : (w.pool.slots h.id).cached = false := by
  have hl := hw.local_ r (List.mem_of_getElem? hi)
  refine Bool.eq_false_iff.mpr fun hc => ?_
  have hlen : blocks.length + 1 = r.sequence.neededBlocks r.sequence.numTokens := by
    rw [← (hw.proper hi).covered]
    show _ = r.blocks.length
    rw [hb, List.length_append, List.length_singleton]
  have hfull := hl.full blocks.length h (by rw [hb]; simp) hc
  rw [SequenceState.neededBlocks, if_pos hp, Nat.succ_inj] at hlen
  rw [← (hw.proper hi).blockSize, hlen, Nat.add_mul, Nat.one_mul] at hfull
  have h₁ := Nat.div_add_mod r.sequence.numTokens r.sequence.blockSize
  have h₂ := Nat.mod_lt r.sequence.numTokens (hw.pos hi)
  rw [Nat.mul_comm] at h₁
  omega

theorem fresh_appendTokens (hw : Consistent H here value w) (hi : w.requests[i]? = some r)
    {new : List BlockHandle} {count : ℕ}
    (hs : Sound H m' ((r.blocks ++ new : List BlockHandle) + w.beside i))
    (ha : Allocated w.pool m' new) (hc : count ≠ 0 → r.sequence.sharedTail w.pool = .ok false ∧
      new.length = r.sequence.neededBlocks (r.sequence.numTokens + count) -
        r.sequence.blockTable.size) : Fresh w i r m' (r.sequence.grown new count) := by
  intro t h₁ h₂
  have hcovered := (hw.proper hi).covered
  have h₂' : t < r.sequence.numTokens + count := h₂
  obtain ⟨hshared, hlen⟩ := hc (by omega)
  have hcov := hcovered.grown hlen
  obtain ⟨h, hh⟩ := hcov.block (hw.pos hi) h₂
  refine ⟨h, ?_⟩
  have hh' : (r.blocks ++ new)[t / r.sequence.blockSize]? = some h := hh
  rcases Nat.lt_or_ge (t / r.sequence.blockSize) r.blocks.length with hlt | hge
  · -- the tail page: nobody else has it
    have hlt' : t / r.sequence.blockSize < r.sequence.neededBlocks r.sequence.numTokens := by
      rw [← hcovered]
      exact hlt
    obtain ⟨hp, hlast⟩ := SequenceState.neededBlocks_le h₁ hlt'
    obtain ⟨blocks, old, hb⟩ := hcovered.concat hp
    have hold : h = old := by
      rw [List.getElem?_append_left hlt] at hh'
      have hidx : t / r.sequence.blockSize = blocks.length := by
        rw [← hcovered, BlockTable.size, hb, List.length_append, List.length_singleton] at hlast
        exact Nat.succ.inj hlast
      have : r.blocks[blocks.length]? = some old := by
        show r.sequence.blockTable.blocks[blocks.length]? = some old
        rw [hb]
        simp
      rw [hidx, this] at hh'
      exact (Option.some.inj hh').symm
    subst hold
    have hr := SequenceState.sharedTail_false (hw.view hi) hb hp hshared
    have hframe := ha.frame h.id (ha.notMem hw.sound.good (by rw [hr]; exact one_ne_zero))
    refine exclusive_of_refs hs hh' (by rw [hframe, hr]) ?_
    exact ha.shrinks.uncached (hw.tail_uncached hi hb hp)
  · rw [List.getElem?_append_right hge] at hh'
    obtain ⟨hcached, hrefs⟩ := ha.fresh h (List.mem_of_getElem? hh')
    exact exclusive_of_refs hs hh hrefs hcached

/-- **`append_tokens`, and the writes of the caller.** -/
theorem changes_appendTokens (hw : Consistent H here value w) (hi : w.requests[i]? = some r)
    {grow : ℕ → Option Exn} (h : SequenceState.appendTokens grow tokens.length
      (w.pool, r.sequence) = .ok () (m', s)) :
    Changes value w i ⟨s, r.tokens ++ tokens⟩ m' (writeTokens value m' s (r.tokens ++ tokens)
      r.sequence.numTokens w.store tokens.length) ∧ Fresh w i r m' s := by
  have hl := hw.local_ r (List.mem_of_getElem? hi)
  obtain ⟨hbs, hcov, -⟩ := hw.proper hi
  rcases SequenceState.appendTokens_cases (hw.view hi) grow tokens.length with
    ⟨new, m₁, hrun, hs, ha, h0, hc⟩ | ⟨err, m₁, hrun, -⟩
  swap
  · rw [hrun] at h
    cases h
  rw [hrun] at h
  cases h
  have hfresh := fresh_appendTokens hw hi hs ha hc
  have hlen : new.length = r.sequence.neededBlocks (r.sequence.numTokens + tokens.length) -
      r.sequence.blockTable.size := by
    by_cases hz : tokens.length = 0
    · rw [h0 hz, hz, Nat.add_zero, hcov, Nat.sub_self]
      rfl
    · exact (hc hz).2
  refine ⟨changes_appended hw.toValued hi hs ha.shrinks ?_ (hcov.grown hlen) rfl hfresh ?_ ?_
    (fun _ _ => rfl) (fun _ _ => rfl) ?_, hfresh⟩
  · exact hbs.trans ha.blockSize.symm
  · intro k h hk hcached
    have hk' : (r.blocks ++ new)[k]? = some h := hk
    rcases Nat.lt_or_ge k r.blocks.length with hlt | hge
    · rwa [List.getElem?_append_left hlt] at hk'
    · rw [List.getElem?_append_right hge] at hk'
      rw [(ha.fresh h (List.mem_of_getElem? hk')).1] at hcached
      cases hcached
  · intro t ht h hh
    have hh' : (r.blocks ++ new)[t / r.sequence.blockSize]? = some h := hh
    have hlt : t / r.sequence.blockSize < r.blocks.length := by
      have := SequenceState.lt_neededBlocks (hw.pos hi) ht
      rwa [← hcov] at this
    rw [List.getElem?_append_left hlt, hbs] at hh'
    show w.store h.id (t % r.sequence.blockSize) = _
    rw [hbs]
    exact hl.content t ht h hh'
  · intro g hg h hh
    rcases List.mem_append.mp (show g ∈ r.blocks ++ new from hg) with hg | hg
    · exact (hw.apart h hh).2 g (mem_owners (List.mem_of_getElem? hi) hg)
    · intro he
      refine ha.notMem hw.sound.good (hw.sound.owned.refs_pos
        (Multiset.mem_add.mpr (.inr hh))) ?_
      rw [← he]
      exact List.mem_map_of_mem hg

/-- **The copying append, and the write of the caller.** -/
theorem changes_copied (hw : Consistent H here value w) (hi : w.requests[i]? = some r) (token : Token)
    {blocks : List BlockHandle} {old new : BlockHandle} {m₁ : PhysicalBlockPool}
    (hp : r.sequence.numTokens % r.sequence.blockSize ≠ 0) (hb : r.blocks = blocks ++ [old])
    (ha : Allocated w.pool m₁ [new]) (hshrink : Shrinks w.pool m') (hs₁ : Shrinks m₁ m')
    (hs : Sound H m' ((blocks ++ [new] : List BlockHandle) + w.beside i))
    (hrefs : (m'.slots new.id).refs = 1) :
    Changes value w i ⟨r.sequence.copied blocks new, r.tokens ++ [token]⟩ m'
      (writeTokens value m' (r.sequence.copied blocks new) (r.tokens ++ [token])
        r.sequence.numTokens (setPage w.store new.id (w.store old.id)) 1) ∧
      Fresh w i r m' (r.sequence.copied blocks new) := by
  have hl := hw.local_ r (List.mem_of_getElem? hi)
  obtain ⟨hbs, hcov, -⟩ := hw.proper hi
  have hnew : ∀ g ∈ w.held, g.id ≠ new.id := fun g hg he =>
    ha.notMem hw.sound.good (hw.sound.owned.refs_pos hg) (by simp [he])
  have hunc : (m'.slots new.id).cached = false :=
    hs₁.uncached (ha.fresh new List.mem_cons_self).1
  have hdiv : r.sequence.numTokens / r.sequence.blockSize = blocks.length := by
    have hlen : r.blocks.length = r.sequence.neededBlocks r.sequence.numTokens := hcov
    rw [hb, List.length_append, List.length_singleton, SequenceState.neededBlocks, if_pos hp,
      Nat.succ_inj] at hlen
    exact hlen.symm
  have hat : (blocks ++ [new])[blocks.length]? = some new := by simp
  have hfresh : Fresh w i r m' (r.sequence.copied blocks new) := by
    intro t h₁ h₂
    have h₂' : t < r.sequence.numTokens + 1 := h₂
    obtain rfl : t = r.sequence.numTokens := by omega
    refine ⟨new, exclusive_of_refs hs ?_ hrefs hunc⟩
    show (blocks ++ [new])[r.sequence.numTokens / r.sequence.blockSize]? = some new
    rw [hdiv, hat]
  refine ⟨changes_appended hw.toValued hi hs hshrink ?_ (hcov.copied hp hb) rfl hfresh ?_ ?_ ?_ ?_ ?_,
    hfresh⟩
  · exact hbs.trans hshrink.blockSize.symm
  · intro k h hk hc
    have hk' : (blocks ++ [new])[k]? = some h := hk
    rcases Nat.lt_or_ge k blocks.length with hlt | hge
    · rw [List.getElem?_append_left hlt] at hk'
      rw [hb, List.getElem?_append_left hlt, hk']
    · rw [List.getElem?_append_right hge] at hk'
      rw [List.mem_singleton.mp (List.mem_of_getElem? hk'), hunc] at hc
      cases hc
  · intro t ht h hh
    have hh' : (blocks ++ [new])[t / r.sequence.blockSize]? = some h := hh
    show setPage w.store new.id (w.store old.id) h.id (t % r.sequence.blockSize) = _
    have hle : t / r.sequence.blockSize ≤ blocks.length :=
      hdiv ▸ Nat.div_le_div_right (Nat.le_of_lt ht)
    rw [hbs] at hh' hle ⊢
    rcases hle.lt_or_eq with hlt | heq
    · rw [List.getElem?_append_left hlt] at hh'
      have hr : r.blocks[t / w.pool.blockSize]? = some h := by
        rw [hb, List.getElem?_append_left hlt, hh']
      have hne : h.id ≠ new.id := hnew h (held_eq hi ▸ Multiset.mem_add.mpr
        (.inl (List.mem_of_getElem? hr)))
      rw [setPage, Function.update_of_ne hne]
      exact hl.content t ht h hr
    · rw [heq, hat] at hh'
      obtain rfl := Option.some.inj hh'
      rw [setPage, Function.update_self]
      refine hl.content t ht old ?_
      rw [heq, hb]
      simp
  · intro g hg
    refine Function.update_of_ne (hnew g ?_) _ _
    rw [held_eq hi]
    exact Multiset.mem_add.mpr (.inr (mem_beside.mpr (.inl hg)))
  · intro k hk
    refine Function.update_of_ne (fun he => ?_) _ _
    rw [he, hunc] at hk
    cases hk
  · intro g hg h hh
    rcases List.mem_append.mp (show g ∈ blocks ++ [new] from hg) with hg | hg
    · refine (hw.apart h hh).2 g (mem_owners (List.mem_of_getElem? hi) ?_)
      rw [hb]
      exact List.mem_append_left _ hg
    · rw [List.mem_singleton.mp hg]
      exact (hnew h (Multiset.mem_add.mpr (.inr hh))).symm

end KVFlux.V2
