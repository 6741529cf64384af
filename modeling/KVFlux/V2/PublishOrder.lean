import KVFlux.V2.IndependentArrays

/-!
# Publishing after attaching

A request attaches the leading cached blocks of its tokens, appends the others, and publishes them
in ascending order. A block behind the first miss can still be cached, and publishing it again is
rejected, unless the pages of the request evicted it.

* `publishFrom`: the calls of the request after it has attached and appended.
* `leading`, `hits`, `missing`: what attaching finds, and how many pages appending takes.
* `Unobstructed`: each cached block behind the first miss is among the pages that are taken.
* **`publishFrom_accepted_iff`**: this is exactly when every block is accepted.
* **`publish_rejected`**: a history after which it does not hold.
-/

namespace KVFlux.V2

open Fallible BlockManager PrefixCache

/-- `publish_computed_block` for `count` full blocks from block `k` on. -/
def publishFrom (cache : PrefixCache) (hasher : Hasher) (n : ℕ) (tokens : Tokens) :
    ℕ → ℕ → SequenceCall Unit
  | 0, _ => pure ()
  | count + 1, k => do
    cache.publishComputedBlock hasher k (blockPrefix n tokens k)
    publishFrom cache hasher n tokens count (k + 1)

/-- The page cached under a prefix. -/
def cachedPage (m : PhysicalBlockPool) (p : Tokens) : Option ℕ :=
  (List.range m.capacity).find? fun i => (m.slots i).cached ∧ (m.slots i).prefixTokens = p

/-- The number of leading full blocks that are cached. -/
def leading (m : PhysicalBlockPool) (tokens : Tokens) : ℕ :=
  ((List.range (tokens.length / m.blockSize)).takeWhile fun i =>
    (cachedPage m (blockPrefix m.blockSize tokens i)).isSome).length

/-- The pages of the leading cached blocks. -/
def hits (m : PhysicalBlockPool) (tokens : Tokens) : List ℕ :=
  (List.range (leading m tokens)).filterMap fun i =>
    cachedPage m (blockPrefix m.blockSize tokens i)

/-- The number of pages for the other tokens. -/
def missing (m : PhysicalBlockPool) (tokens : Tokens) : ℕ :=
  tokens.length / m.blockSize + (if tokens.length % m.blockSize ≠ 0 then 1 else 0) -
    leading m tokens

/-- The hasher returns for every full block behind the first miss, and each of them that is cached
is on one of the pages that the allocations will take. -/
def Unobstructed (m : PhysicalBlockPool) (hasher : Hasher) (tokens : Tokens) : Prop :=
  ∀ i, leading m tokens ≤ i → i < tokens.length / m.blockSize →
    (∃ g, hasher (blockPrefix m.blockSize tokens i) = .ok g) ∧
    ∀ q, cachedPage m (blockPrefix m.blockSize tokens i) = some q →
      q ∈ (m.reclaimOrder.filter (· ∉ hits m tokens)).take (missing m tokens)

variable {H : Tokens → UInt64} {V : Type} {value : Tokens → V} {here : ℕ} {w : World V}
  {m m' m₁ m₂ : PhysicalBlockPool} {s s₁ s₂ : SequenceState} {rest : Multiset BlockHandle}
  {h : BlockHandle} {hasher : Hasher} {tokens p : Tokens} {new : List BlockHandle} {i k : ℕ}

/-! ## What attaching finds -/

theorem cachedPage_eq_some (hg : Good H m) :
    cachedPage m p = some i ↔ (m.slots i).cached = true ∧ (m.slots i).prefixTokens = p := by
  obtain ⟨free, idle, hi⟩ := hg
  constructor
  · intro h
    simpa using List.find?_some h
  · rintro ⟨hc, hp⟩
    have hlt := hi.lt_capacity (hi.not_free_of_cached hc)
    cases hf : cachedPage m p with
    | none =>
      have := List.find?_eq_none.mp hf i (List.mem_range.mpr hlt)
      exact absurd this (by simp [hc, hp])
    | some j =>
      have hj : (m.slots j).cached = true ∧ (m.slots j).prefixTokens = p := by
        simpa using List.find?_some hf
      rw [hi.indexed.inj j i hj.1 hc (hj.2.trans hp.symm)]

theorem length_takeWhile_range {f : ℕ → Bool} {n : ℕ} (hk : k ≤ n) (hall : ∀ i < k, f i = true)
    (hstop : k < n → f k = false) : ((List.range n).takeWhile f).length = k := by
  obtain ⟨d, rfl⟩ := Nat.exists_eq_add_of_le hk
  rw [List.range_add, List.takeWhile_append_of_pos fun i hi => hall i (List.mem_range.mp hi),
    List.length_append, List.length_range]
  cases d with
  | zero => rfl
  | succ d =>
    rw [List.range_succ_eq_map, List.map_cons, Nat.add_zero, List.takeWhile_cons_of_neg]
    · rfl
    · rw [hstop (Nat.lt_add_of_pos_right (Nat.succ_pos d))]
      exact Bool.false_ne_true

theorem leading_eq (hg : Good H m) (hh : Holds m tokens 0 new)
    (hstop : ¬ Cached m tokens new.length) :
    leading m tokens = new.length ∧ new.length ≤ tokens.length / m.blockSize := by
  have hpos : 0 < m.blockSize := by
    obtain ⟨free, idle, hi⟩ := hg
    exact hi.blockSize_pos
  have hle : new.length ≤ tokens.length / m.blockSize := by
    rw [Nat.le_div_iff_mul_le hpos]
    rcases Nat.eq_zero_or_pos new.length with hz | hp
    · rw [hz, Nat.zero_mul]
      exact Nat.zero_le _
    · have := (hh _ _ (List.getElem?_eq_getElem (Nat.sub_lt hp one_pos))).1
      rwa [show 0 + (new.length - 1) + 1 = new.length by omega] at this
  refine ⟨length_takeWhile_range hle (fun i hi => ?_) fun hlt => ?_, hle⟩
  · obtain ⟨-, hc, hp⟩ := hh i _ (List.getElem?_eq_getElem hi)
    rw [Nat.zero_add] at hp
    rw [(cachedPage_eq_some hg).mpr ⟨hc, hp⟩]
    rfl
  · cases hf : cachedPage m (blockPrefix m.blockSize tokens new.length) with
    | none => rfl
    | some j =>
      refine absurd ⟨?_, j, (cachedPage_eq_some hg).mp hf⟩ hstop
      exact (Nat.le_div_iff_mul_le hpos).mp hlt

theorem mem_hits (hg : Good H m) (hh : Holds m tokens 0 new)
    (hstop : ¬ Cached m tokens new.length) :
    i ∈ hits m tokens ↔ i ∈ new.map BlockHandle.id := by
  rw [hits, (leading_eq hg hh hstop).1, List.mem_filterMap, List.mem_map]
  constructor
  · rintro ⟨j, hj, hf⟩
    have hj := List.mem_range.mp hj
    obtain ⟨-, hc, hp⟩ := hh j _ (List.getElem?_eq_getElem hj)
    rw [Nat.zero_add] at hp
    rw [(cachedPage_eq_some hg).mpr ⟨hc, hp⟩] at hf
    exact ⟨_, List.getElem_mem hj, Option.some.inj hf⟩
  · rintro ⟨g, hgm, rfl⟩
    obtain ⟨j, hj⟩ := List.getElem?_of_mem hgm
    obtain ⟨-, hc, hp⟩ := hh j g hj
    rw [Nat.zero_add] at hp
    exact ⟨j, List.mem_range.mpr (List.getElem?_eq_some_iff.mp hj).1,
      (cachedPage_eq_some hg).mpr ⟨hc, hp⟩⟩

/-! ## The publishing loop -/

/-- A private block is accepted exactly if the hasher returns and its prefix is not cached. -/
theorem publishComputedBlock_private (hs : Sound H m (s.blockTable.blocks + rest))
    (ha : Agrees H hasher) {cache : PrefixCache} (hp : Publishable m s cache k p h)
    (hr : (m.slots h.id).refs = 1) (hc : (m.slots h.id).cached = false) :
    ((∃ g, hasher p = .ok g) ∧ (∀ i, (m.slots i).cached = true → (m.slots i).prefixTokens ≠ p) ∧
      cache.publishComputedBlock hasher k p (m, s) = .ok () (m.published h.id p (H p), s) ∧
      Sound H (m.published h.id p (H p)) (s.blockTable.blocks + rest)) ∨
    (¬ ((∃ g, hasher p = .ok g) ∧
        ∀ i, (m.slots i).cached = true → (m.slots i).prefixTokens ≠ p) ∧
      ∃ err, cache.publishComputedBlock hasher k p (m, s) = .error err (m, s)) := by
  rcases publishComputedBlock_cases hs ha cache k p with ⟨g, hp', -, -, hno, hh, hcall, hs'⟩ |
    ⟨err, hcall⟩
  · left
    obtain rfl : h = g := Option.some.inj (hp.block.symm.trans hp'.block)
    exact ⟨⟨_, hh⟩, hno, hcall, hs'⟩
  · right
    refine ⟨fun ⟨⟨g, hh⟩, hno⟩ => ?_, err, hcall⟩
    rcases publishComputedBlock_checks hs hasher cache k p with ⟨h', hp', heq⟩ | ⟨hnone, -⟩
    swap
    · exact hnone h hp
    obtain rfl : h = h' := Option.some.inj (hp.block.symm.trans hp'.block)
    rw [heq, onFst_apply, PhysicalBlockPool.publish] at hcall
    have hmem : h ∈ (s.blockTable.blocks : Multiset BlockHandle) + rest :=
      Multiset.mem_add.mpr (.inl (List.mem_of_getElem? hp.block))
    obtain ⟨free, idle, hi⟩ := hs.good
    rcases publish_cases hi ha h p with hx | hx | ⟨-, -, ⟨e, hx, -⟩ | ⟨j, hj, hjp, -⟩ | hx⟩
    · exact hx.1 (hs.owned.valid h hmem)
    · have hmod : p.length % m.blockSize = 0 := by rw [hp.length, Nat.mul_mod_left]
      have hne : p ≠ [] := by
        refine List.ne_nil_of_length_pos ?_
        rw [hp.length]
        exact Nat.mul_pos (Nat.succ_pos k) hi.blockSize_pos
      simp [hr, hc, hne, hmod] at hx
    · rw [hx] at hh
      cases hh
    · exact hno j hj hjp
    · rw [hx.2.2] at hcall
      cases hcall

theorem blockPrefix_ne {n i j : ℕ} (hn : 0 < n) (hj : (j + 1) * n ≤ tokens.length) (hij : i < j) :
    blockPrefix n tokens i ≠ blockPrefix n tokens j := by
  intro he
  have hlt : (i + 1) * n < (j + 1) * n := Nat.mul_lt_mul_of_pos_right (by omega) hn
  have := congrArg List.length he
  rw [blockPrefix, blockPrefix, List.length_take, List.length_take, min_eq_left hj,
    min_eq_left (by omega)] at this
  omega

/-- **The loop is accepted** if no block is cached before it; what it publishes itself is not in
its way. By induction on the blocks left. -/
theorem publishFrom_iff (ha : Agrees H hasher) {cache : PrefixCache} {n : ℕ} (count : ℕ) :
    ∀ {m : PhysicalBlockPool} {k : ℕ}, Sound H m (s.blockTable.blocks + rest) →
    m.blockSize = n → s.blockTable.pool = some cache.pool → (k + count) * n ≤ tokens.length →
    tokens.length ≤ s.numTokens →
    (∀ j, k ≤ j → j < k + count → ∃ h, s.blockTable.blocks[j]? = some h ∧
      (m.slots h.id).refs = 1 ∧ (m.slots h.id).cached = false) →
    ((∃ m', publishFrom cache hasher n tokens count k (m, s) = .ok () (m', s)) ↔
      ∀ j, k ≤ j → j < k + count → (∃ g, hasher (blockPrefix n tokens j) = .ok g) ∧
        ∀ i, (m.slots i).cached = true → (m.slots i).prefixTokens ≠ blockPrefix n tokens j) := by
  induction count with
  | zero =>
    intro m k _ _ _ _ _ _
    exact iff_of_true ⟨m, rfl⟩ fun j h₁ h₂ => by omega
  | succ count ih =>
    intro m k hs hn hpool hlen hnum hpriv
    subst hn
    have hpos : 0 < m.blockSize := by
      obtain ⟨free, idle, hi⟩ := hs.good
      exact hi.blockSize_pos
    have hfit : ∀ j, j < k + (count + 1) → (j + 1) * m.blockSize ≤ tokens.length := fun j hj =>
      (Nat.mul_le_mul_right _ (by omega)).trans hlen
    have hplen : ∀ j, j < k + (count + 1) →
        (blockPrefix m.blockSize tokens j).length = (j + 1) * m.blockSize := fun j hj => by
      rw [blockPrefix, List.length_take, min_eq_left (hfit j hj)]
    obtain ⟨h, hblock, hrefs, hunc⟩ := hpriv k le_rfl (by omega)
    have hex := exclusive_of_refs hs hblock hrefs hunc
    have hp : Publishable m s cache k (blockPrefix m.blockSize tokens k) h :=
      ⟨hpool, hblock, hplen k (by omega), by
        rw [hplen k (by omega)]
        exact (hfit k (by omega)).trans hnum⟩
    rw [publishFrom]
    rcases publishComputedBlock_private hs ha hp hrefs hunc with ⟨hh, hno, hcall, hs'⟩ |
      ⟨hbad, err, hcall⟩
    swap
    · refine iff_of_false ?_ fun hall => hbad (hall k le_rfl (by omega))
      rintro ⟨m', hm'⟩
      rw [bind_of_error hcall] at hm'
      cases hm'
    rw [bind_of_ok hcall]
    have hslot : ∀ i, i ≠ h.id → (m.published h.id (blockPrefix m.blockSize tokens k)
        (H (blockPrefix m.blockSize tokens k))).slots i = m.slots i := fun i hi => by
      rw [published_slots, if_neg hi]
    have hpriv' : ∀ j, k + 1 ≤ j → j < k + 1 + count → ∃ g, s.blockTable.blocks[j]? = some g ∧
        ((m.published h.id (blockPrefix m.blockSize tokens k)
          (H (blockPrefix m.blockSize tokens k))).slots g.id).refs = 1 ∧
        ((m.published h.id (blockPrefix m.blockSize tokens k)
          (H (blockPrefix m.blockSize tokens k))).slots g.id).cached = false := by
      intro j h₁ h₂
      obtain ⟨g, hg, hgr, hgc⟩ := hpriv j (by omega) (by omega)
      have hne := hex.self j g hg (by omega)
      exact ⟨g, hg, by rw [hslot g.id hne, hgr], by rw [hslot g.id hne, hgc]⟩
    rw [ih hs' published_blockSize hpool (by rwa [show k + 1 + count = k + (count + 1) by omega])
      hnum hpriv']
    have hsame : ∀ j, k + 1 ≤ j → j < k + 1 + count →
        ((∀ i, ((m.published h.id (blockPrefix m.blockSize tokens k)
            (H (blockPrefix m.blockSize tokens k))).slots i).cached = true →
          ((m.published h.id (blockPrefix m.blockSize tokens k)
            (H (blockPrefix m.blockSize tokens k))).slots i).prefixTokens ≠
            blockPrefix m.blockSize tokens j) ↔
        ∀ i, (m.slots i).cached = true →
          (m.slots i).prefixTokens ≠ blockPrefix m.blockSize tokens j) := by
      intro j h₁ h₂
      constructor
      · intro hall i hi
        have hne : i ≠ h.id := fun he => by
          rw [he, hunc] at hi
          cases hi
        have := hall i
        rw [hslot i hne] at this
        exact this hi
      · intro hall i hi
        by_cases he : i = h.id
        · subst he
          rw [published_slots, if_pos rfl]
          exact blockPrefix_ne hpos (hfit j (by omega)) (by omega)
        · rw [hslot i he] at hi ⊢
          exact hall i hi
    constructor
    · intro hall j h₁ h₂
      rcases h₁.lt_or_eq with h₁ | rfl
      · obtain ⟨hg, hi⟩ := hall j h₁ (by omega)
        exact ⟨hg, (hsame j h₁ (by omega)).mp hi⟩
      · exact ⟨hh, hno⟩
    · intro hall j h₁ h₂
      obtain ⟨hg, hi⟩ := hall j (by omega) (by omega)
      exact ⟨hg, (hsame j h₁ h₂).mpr hi⟩

/-! ## The whole request -/

/-- After attaching and appending, the pages of the new blocks are the next of the order of reuse. -/
theorem appended_pages (s₀ : SequenceState) (hs : Sound H m (s₀.blockTable.blocks + rest))
    (hh : Holds m tokens 0 new) (hstop : ¬ Cached m tokens new.length)
    (hatt : Attached m m₁ new) {new' : List BlockHandle} (ha : Allocated m₁ m₂ new')
    (hlen : new'.length = missing m tokens) :
    (m.reclaimOrder.filter (· ∉ hits m tokens)).take (missing m tokens) =
      new'.map BlockHandle.id := by
  have hfilter : m.reclaimOrder.filter (· ∉ hits m tokens) = m₁.reclaimOrder := by
    rw [hatt.order]
    refine List.filter_congr fun i _ => ?_
    simp only [mem_hits hs.good hh hstop]
  rw [hfilter, ha.order, List.take_left']
  rw [List.length_map, hlen]

/-- **Main result.** A new request attaches the cached prefix of its tokens and appends the other
tokens. All its new full blocks are accepted exactly if every one that is still cached behind the
first miss is on a page that the request has taken. -/
theorem publishFrom_accepted_iff
    (hr : Transition.Reachable (step value here) (Start H) (Allowed H) w) (ha : Agrees H hasher)
    {requestId reused : ℕ} {reserve : Option Exn} {grow grow' : ℕ → Option Exn}
    (hattach : attachCachedPrefix ⟨here⟩ hasher reserve grow tokens
      (w.pool, .new requestId here w.pool) = .ok reused (m₁, s₁))
    (happend : SequenceState.appendTokens grow' (tokens.length - reused) (m₁, s₁) =
      .ok () (m₂, s₂)) :
    (∃ m', publishFrom ⟨here⟩ hasher w.pool.blockSize tokens
        (tokens.length / w.pool.blockSize - reused / w.pool.blockSize)
        (reused / w.pool.blockSize) (m₂, s₂) = .ok () (m', s₂)) ↔
      Unobstructed w.pool hasher tokens := by
  have hw := consistent_of_reachable hr
  have hpos : 0 < w.pool.blockSize := hw.sound.blockSize_pos
  have hs₀ : Sound H w.pool (([] : List BlockHandle) + w.held) := by
    rw [Multiset.coe_nil, zero_add]
    exact hw.sound
  have hcov : (SequenceState.new requestId here w.pool).Covered := by
    show 0 = SequenceState.neededBlocks _ 0
    rw [SequenceState.neededBlocks, Nat.zero_div, Nat.zero_mod]
    rfl
  rcases attachCachedPrefix_cases (s := .new requestId here w.pool) hs₀ ha rfl hcov ⟨here⟩ reserve
    grow tokens with ⟨new, m', hc, -, -, -, hs₁, hatt, hholds, hstop⟩ | ⟨err, m', hc, -⟩
  swap
  · rw [hc] at hattach
    cases hattach
  rw [hc] at hattach
  cases hattach
  obtain ⟨hlead, hle⟩ := leading_eq hw.sound.good hholds hstop
  have hle' : new.length * w.pool.blockSize ≤ tokens.length := (Nat.le_div_iff_mul_le hpos).mp hle
  have hs₁' : Sound H m₁ ((extended (.new requestId here w.pool) w.pool.blockSize new :
      SequenceState).blockTable.blocks + w.held) := hs₁
  rcases SequenceState.appendTokens_cases hs₁' grow' (tokens.length - new.length *
    w.pool.blockSize) with ⟨new', m', hc', hs₂, halloc, h0, hn⟩ | ⟨err, m', hc', -⟩
  swap
  · rw [hc'] at happend
    cases happend
  rw [hc'] at happend
  cases happend
  -- the table covers all tokens
  have hnum : 0 + new.length * w.pool.blockSize + (tokens.length - new.length * w.pool.blockSize) =
      tokens.length := by omega
  have hlen : new'.length = missing w.pool tokens := by
    rw [missing, hlead]
    by_cases hz : tokens.length - new.length * w.pool.blockSize = 0
    · have heq : tokens.length = new.length * w.pool.blockSize := by omega
      rw [h0 hz, heq, Nat.mul_div_cancel _ hpos, Nat.mul_mod_left, if_neg (not_not.mpr rfl),
        Nat.add_zero, Nat.sub_self]
      rfl
    · rw [(hn hz).2]
      show SequenceState.neededBlocks _ (0 + new.length * w.pool.blockSize +
        (tokens.length - new.length * w.pool.blockSize)) - new.length = _
      rw [hnum]
      rfl
  have hpages := appended_pages (.new requestId here w.pool) hs₀ hholds hstop hatt halloc hlen
  have hblocks : ∀ j, new.length ≤ j → j < tokens.length / w.pool.blockSize →
      ∃ h, (new ++ new')[j]? = some h ∧ (m₂.slots h.id).refs = 1 ∧
        (m₂.slots h.id).cached = false := by
    intro j h₁ h₂
    have hlt : j - new.length < new'.length := by
      rw [hlen, missing, hlead]
      omega
    have hj := List.getElem?_eq_getElem hlt
    rw [List.getElem?_append_right h₁]
    obtain ⟨hcd, hrefs⟩ := halloc.fresh _ (List.getElem_mem hlt)
    exact ⟨_, hj, hrefs, hcd⟩
  have hbs₂ : m₂.blockSize = w.pool.blockSize := halloc.blockSize.trans hatt.blockSize
  have hdiv : new.length * w.pool.blockSize / w.pool.blockSize = new.length :=
    Nat.mul_div_cancel _ hpos
  have hsum : new.length + (tokens.length / w.pool.blockSize - new.length) =
      tokens.length / w.pool.blockSize := by omega
  rw [hdiv, publishFrom_iff ha _ hs₂ hbs₂ rfl (by rw [hsum]; exact Nat.div_mul_le_self _ _)
    hnum.symm.le (by rw [hsum]; exact hblocks), hsum]
  -- a page is still cached exactly if it was cached and the request did not take it
  have hkept : ∀ q, (m₂.slots q).cached = true ↔
      (w.pool.slots q).cached = true ∧ q ∉ new'.map BlockHandle.id := by
    intro q
    by_cases hq : q ∈ new'.map BlockHandle.id
    · obtain ⟨g, hg, rfl⟩ := List.mem_map.mp hq
      rw [(halloc.fresh g hg).1]
      exact iff_of_false Bool.false_ne_true fun h => h.2 hq
    · rw [halloc.frame q hq, (hatt.cached q).1]
      exact ⟨fun h => ⟨h, hq⟩, fun h => h.1⟩
  have hpre : ∀ q, (m₂.slots q).cached = true →
      (m₂.slots q).prefixTokens = (w.pool.slots q).prefixTokens := fun q hq => by
    rw [halloc.frame q ((hkept q).mp hq).2, (hatt.cached q).2]
  unfold Unobstructed
  rw [hlead, hpages]
  refine forall_congr' fun j => imp_congr_right fun _ => imp_congr_right fun _ =>
    and_congr_right fun _ => ?_
  constructor
  · intro hall q hq
    obtain ⟨hcd, hp⟩ := (cachedPage_eq_some hw.sound.good).mp hq
    by_contra hn
    have hcd₂ := (hkept q).mpr ⟨hcd, hn⟩
    exact hall q hcd₂ ((hpre q hcd₂).trans hp)
  · intro hall q hcd₂ hp
    obtain ⟨hcd, hn⟩ := (hkept q).mp hcd₂
    exact hn (hall q ((cachedPage_eq_some hw.sound.good).mpr ⟨hcd, (hpre q hcd₂).symm.trans hp⟩))

/-- No growth of a vector fails. -/
def noFault : ℕ → Option Exn := fun _ => none

/-! ## A history after which a block is rejected -/

/-- A publish names the request's own tokens. -/
def ownPrefix (w : World V) : Action V → Bool
  | .publishComputedBlock i _ _ p =>
    ((w.requests[i]?).map Request.tokens).all fun tokens => p.isPrefixOf tokens
  | _ => true

theorem allowed_of_ownPrefix {a : Action V} (hc : ownPrefix w a = true)
    (ha : ∀ i hasher k p, a = .publishComputedBlock i hasher k p → Agrees H hasher)
    (ha' : ∀ i hasher r g ts, a = .attachCachedPrefix i hasher r g ts → Agrees H hasher) :
    Allowed H w a := by
  cases a with
  | publishComputedBlock i hasher k p =>
    refine ⟨ha _ _ _ _ rfl, fun r hr => ?_⟩
    simp only [ownPrefix, hr, Option.map_some, Option.all_some] at hc
    exact List.isPrefixOf_iff_prefix.mp hc
  | attachCachedPrefix i hasher r g ts => exact ha' _ _ _ _ _ rfl
  | _ => trivial

/-- Two blocks of one request are published; a later request takes the first of them. -/
def pressureRun : List (Action Tokens) :=
  [.create 1, .appendTokens 0 [1, 2] noFault, .publishComputedBlock 0 (fun _ => .ok 0) 0 [1],
    .publishComputedBlock 0 (fun _ => .ok 0) 1 [1, 2], .destroy 0, .create 2,
    .appendTokens 0 [3, 4] noFault, .destroy 0]

theorem pressureRun_isSome : (Transition.runChecked (step id 0) ownPrefix pressureRun
    (⟨init 3 1, [], 0, fun _ _ => []⟩ : World Tokens)).isSome = true := by decide +kernel

/-- The state after it. -/
def pressured : World Tokens := (Transition.runChecked (step id 0) ownPrefix pressureRun
  ⟨init 3 1, [], 0, fun _ _ => []⟩).get pressureRun_isSome

theorem pressured_reachable :
    Transition.Reachable (step id 0) (Start fun _ => 0) (Allowed fun _ => 0) pressured := by
  have hstart : Start (fun _ => 0) (⟨init 3 1, [], 0, fun _ _ => []⟩ : World Tokens) :=
    ⟨⟨3, 1, fun _ => .ok 0, fun _ _ h => (Except.ok.inj h).symm, rfl⟩, rfl, rfl⟩
  have hagree : Agrees (fun _ => 0) fun _ => .ok 0 := fun _ _ h => (Except.ok.inj h).symm
  refine (Transition.Reachable.start hstart).runChecked (fun a ha s hc => ?_)
    (Option.some_get pressureRun_isSome).symm
  refine allowed_of_ownPrefix hc (fun i hasher k p he => ?_) fun i hasher r g ts he => ?_
  · subst he
    simp only [pressureRun, List.mem_cons, Action.publishComputedBlock.injEq, reduceCtorEq,
      List.not_mem_nil, or_false, false_or] at ha
    rcases ha with ⟨-, rfl, -⟩ | ⟨-, rfl, -⟩
    · exact hagree
    · exact hagree
  · subst he
    simp [pressureRun] at ha

/-- A new request attaches nothing, appends two tokens, and one of its two publishes throws. -/
def rejects (w : World Tokens) : Bool :=
  match attachCachedPrefix ⟨0⟩ (fun _ => .ok 0) none noFault [1, 2]
      (w.pool, .new 3 0 w.pool) with
  | .ok reused st => decide (reused = 0) &&
    match SequenceState.appendTokens noFault 2 st with
    | .ok _ st =>
      match publishFrom ⟨0⟩ (fun _ => .ok 0) 1 [1, 2] 2 0 st with
      | .ok _ _ => false
      | .error err _ => err = .invalidArgument "prefix already published; use lookup"
    | .error _ _ => false
  | .error _ _ => false

theorem rejects_pressured : (rejects pressured && pressured.requests.isEmpty &&
    decide (pressured.others = 0) && decide (pressured.pool.blockSize = 1)) = true := by
  decide +kernel

theorem rejects_run {w : World Tokens} (h : rejects w = true) : ∃ m₁ s₁ m₂ s₂ m' s',
    attachCachedPrefix ⟨0⟩ (fun _ => .ok 0) none noFault [1, 2] (w.pool, .new 3 0 w.pool) =
      .ok 0 (m₁, s₁) ∧
    SequenceState.appendTokens noFault 2 (m₁, s₁) = .ok () (m₂, s₂) ∧
    publishFrom ⟨0⟩ (fun _ => .ok 0) 1 [1, 2] 2 0 (m₂, s₂) =
      .error (.invalidArgument "prefix already published; use lookup") (m', s') := by
  unfold rejects at h
  cases h₁ : attachCachedPrefix ⟨0⟩ (fun _ => .ok 0) none noFault [1, 2]
      (w.pool, .new 3 0 w.pool) with
  | error err st =>
    rw [h₁] at h
    cases h
  | ok reused st₁ =>
    rw [h₁] at h
    simp only [Bool.and_eq_true, decide_eq_true_eq] at h
    obtain ⟨rfl, h⟩ := h
    cases h₂ : SequenceState.appendTokens noFault 2 st₁ with
    | error err st =>
      rw [h₂] at h
      cases h
    | ok u st₂ =>
      simp only [h₂] at h
      cases h₃ : publishFrom ⟨0⟩ (fun _ => .ok 0) 1 [1, 2] 2 0 st₂ with
      | ok u st =>
        simp only [h₃] at h
        cases h
      | error err st₃ =>
        simp only [h₃, decide_eq_true_eq] at h
        exact ⟨_, _, _, _, _, _, rfl, h₂, h ▸ h₃⟩

theorem pressured_facts : ∃ w : World Tokens, w = pressured ∧ rejects w = true ∧
    w.requests = [] ∧ w.others = 0 ∧ w.pool.blockSize = 1 := by
  have h := rejects_pressured
  rw [Bool.and_eq_true, Bool.and_eq_true, Bool.and_eq_true, List.isEmpty_iff, decide_eq_true_eq,
    decide_eq_true_eq] at h
  exact ⟨pressured, rfl, h.1.1.1, h.1.1.2, h.1.2, h.2⟩

/-- **A block is rejected** although no other request is live: its predecessor was evicted, so
attaching does not find it, but it is still cached. -/
theorem publish_rejected : ∃ w : World Tokens,
    Transition.Reachable (step id 0) (Start fun _ => 0) (Allowed fun _ => 0) w ∧
    w.requests = [] ∧ w.others = 0 ∧ ∃ m₁ s₁ m₂ s₂ m' s',
      attachCachedPrefix ⟨0⟩ (fun _ => .ok 0) none noFault [1, 2] (w.pool, .new 3 0 w.pool) =
        .ok 0 (m₁, s₁) ∧
      SequenceState.appendTokens noFault 2 (m₁, s₁) = .ok () (m₂, s₂) ∧
      publishFrom ⟨0⟩ (fun _ => .ok 0) 1 [1, 2] 2 0 (m₂, s₂) =
        .error (.invalidArgument "prefix already published; use lookup") (m', s') := by
  obtain ⟨w, hw, hrej, hreq, hoth, -⟩ := pressured_facts
  exact ⟨w, hw ▸ pressured_reachable, hreq, hoth, rejects_run hrej⟩

/-- There a cached block behind the first miss is not on the pages that the request takes. -/
theorem pressured_obstructed : ¬ Unobstructed pressured.pool (fun _ => .ok 0) [1, 2] := by
  obtain ⟨w, hw, hrej, -, -, hbs⟩ := pressured_facts
  obtain ⟨m₁, s₁, m₂, s₂, m', s', hattach, happend, hpub⟩ := rejects_run hrej
  have hagree : Agrees (fun _ => 0) fun _ => .ok 0 := fun _ _ h => (Except.ok.inj h).symm
  have hiff := publishFrom_accepted_iff (hw ▸ pressured_reachable) hagree hattach happend
  rw [← hw, ← hiff, hbs]
  rintro ⟨m₃, h₃⟩
  have h₄ : publishFrom ⟨0⟩ (fun _ => .ok 0) 1 [1, 2] 2 0 (m₂, s₂) = .ok () (m₃, s₂) := h₃
  rw [hpub] at h₄
  cases h₄

end KVFlux.V2
