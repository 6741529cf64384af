import KVFlux.V2.CopyOnWrite

/-!
# Sequences with copy-on-write are independent arrays

* `fork_valued`, `moveAssign_valued`, …: the calls that do not append keep what tokens and values mean.
* **`step_valued`**, **`step_consistent`**: every step keeps the invariant.
* **`independent_arrays`**: after every run each sequence reads back its own tokens, and every append
  gives out positions on pages that are neither published nor mapped by another sequence.
-/

namespace KVFlux.V2

open Fallible BlockManager

variable {H : Tokens → UInt64} {V : Type} {value : Tokens → V} {here : ℕ} {w w' : World V}
  {m m' : PhysicalBlockPool} {store store' : ℕ → ℕ → V} {r r' : Request} {s : SequenceState}
  {rest : Multiset BlockHandle} {i j : ℕ} {g h : BlockHandle} {tokens : Tokens}

/-! ## The steps -/

theorem set_same {rs : List Request} (hi : rs[i]? = some r) : rs.set i ⟨r.sequence, r.tokens⟩ = rs := by
  obtain ⟨hlt, rfl⟩ := List.getElem?_eq_some_iff.mp hi
  exact List.set_getElem_self hlt

/-- A step that leaves the sequences alone. -/
theorem Valued.frame {others' : Multiset BlockHandle} (hw : Valued value w)
    (hshrink : Shrinks w.pool m') (he : ∀ g ∈ owners w.requests, store' g.id = w.store g.id)
    (hc : ∀ i, (m'.slots i).cached = true → store' i = w.store i)
    (ha : Apart m' others' (owners w.requests)) : Valued value ⟨m', w.requests, others', store'⟩ where
  local_ r hr := (hw.local_ r hr).frame hshrink fun _ hg => he _ (mem_owners hr hg)
  published := hw.published.frame hshrink hc
  apart := ha

/-- The sequences of `rs` have the values of their tokens, and no page that had no owner before. -/
theorem Valued.regroup {rs : List Request} (hw : Valued value w) (hshrink : Shrinks w.pool m')
    (hrs : ∀ r ∈ rs, Local value w.pool w.store r ∧ ∀ g ∈ r.blocks, g ∈ owners w.requests) :
    Valued value { w with pool := m', requests := rs } where
  local_ r hr := (hrs r hr).1.frame hshrink fun _ _ => rfl
  published := hw.published.frame hshrink fun _ _ => rfl
  apart := hw.apart.frame hshrink fun g hg => by
    obtain ⟨r, hr, hg⟩ := mem_owners_iff.mp hg
    exact .inl ((hrs r hr).2 g hg)

/-- A sequence that was there before. -/
theorem Valued.same (hw : Valued value w) (hr : r ∈ w.requests) :
    Local value w.pool w.store r ∧ ∀ g ∈ r.blocks, g ∈ owners w.requests :=
  ⟨hw.local_ r hr, fun _ hg => mem_owners hr hg⟩

/-- A call that throws and leaves the sequences alone. -/
theorem Valued.thrown (hw : Valued value w) (hshrink : Shrinks w.pool m') :
    Valued value { w with pool := m' } := hw.regroup hshrink fun _ hr => hw.same hr

/-- An object without tokens. -/
theorem local_empty (hn : s.numTokens = 0) (hb : s.blockTable.blocks = []) :
    Local value m store ⟨s, []⟩ ∧ ∀ g ∈ Request.blocks ⟨s, []⟩, g ∈ owners w.requests := by
  have hnone : Request.blocks ⟨s, []⟩ = [] := hb
  refine ⟨⟨hn, fun k h hk _ => ?_, fun t ht => ?_⟩, fun g hg => ?_⟩
  · rw [hnone] at hk
    cases hk
  · rw [show (Request.mk s []).sequence.numTokens = 0 from hn] at ht
    cases ht
  · rw [hnone] at hg
    cases hg

theorem fork_valued (hw : Consistent H here value w) (hi : w.requests[i]? = some r)
    (grow : ℕ → Option Exn) (requestId : ℕ) :
    (∀ s m', SequenceState.forkShared grow requestId r.sequence w.pool = .ok s m' →
      Valued value { w with pool := m', requests := w.requests ++ [⟨s, r.tokens⟩] }) ∧
    (∀ err m', SequenceState.forkShared grow requestId r.sequence w.pool = .error err m' →
      Valued value { w with pool := m' }) := by
  have hmem := List.mem_of_getElem? hi
  rcases SequenceState.forkShared_cases (hw.view hi) grow requestId with
    ⟨at_, m₁, hpool, hc, hs, hshrink⟩ | ⟨err, m₁, hc, hs, hshrink⟩
  · refine ⟨fun s m' h => ?_, fun err m' h => by rw [hc] at h; cases h⟩
    rw [hc] at h
    cases h
    refine hw.regroup hshrink fun r' hr' => ?_
    rcases List.mem_append.mp hr' with hr' | hr'
    · exact hw.same hr'
    · obtain ⟨hl, hg⟩ := hw.same hmem
      exact List.mem_singleton.mp hr' ▸ ⟨⟨hl.length, hl.full, hl.content⟩, hg⟩
  · refine ⟨fun s m' h => (by rw [hc] at h; cases h), fun err' m' h => ?_⟩
    rw [hc] at h
    cases h
    exact hw.thrown hshrink

/-- A move passes the pages on. -/
theorem moveConstruct_valued (hw : Valued value w) (hi : w.requests[i]? = some r) :
    Valued value { w with
      requests := w.requests.set i ⟨r.sequence.movedFrom, []⟩ ++ [r] } := by
  refine hw.regroup (.refl w.pool) fun r' hr' => ?_
  rcases List.mem_append.mp hr' with hr' | hr'
  · rcases List.mem_or_eq_of_mem_set hr' with hr' | rfl
    · exact hw.same hr'
    · exact local_empty rfl rfl
  · exact List.mem_singleton.mp hr' ▸ hw.same (List.mem_of_getElem? hi)

theorem destroy_valued (hw : Consistent H here value w) (hi : w.requests[i]? = some r) :
    ∃ m' t, BlockTable.clear (w.pool, r.sequence.blockTable) = .ok () (m', t) ∧
      Valued value { w with pool := m', requests := w.requests.eraseIdx i } := by
  obtain ⟨m', hc, -, hshrink⟩ := BlockTable.clear_ok (hw.view hi)
  exact ⟨m', _, hc, hw.regroup hshrink fun r' hr' => hw.same (List.mem_of_mem_eraseIdx hr')⟩

theorem moveAssign_valued (hw : Consistent H here value w) {t : Request}
    (hj : w.requests[j]? = some t) (hi : w.requests[i]? = some r) :
    ∃ m', SequenceState.moveAssign r.sequence (w.pool, t.sequence) = .ok () (m', r.sequence) ∧
      Valued value { w with
        pool := m'
        requests := (w.requests.set j ⟨r.sequence, r.tokens⟩).set i
          ⟨r.sequence.movedFrom, []⟩ } := by
  obtain ⟨m', hc, -, hshrink⟩ := BlockTable.clear_ok (hw.view hj)
  refine ⟨m', ?_, hw.regroup hshrink fun r' hr' => ?_⟩
  · show (SequenceState.onTable BlockTable.clear >>= fun _ => modify fun st => (st.1, r.sequence))
      (w.pool, t.sequence) = _
    rw [bind_of_ok (SequenceState.onTable_ok hc)]
    rfl
  · rcases List.mem_or_eq_of_mem_set hr' with hr' | rfl
    · rcases List.mem_or_eq_of_mem_set hr' with hr' | rfl
      · exact hw.same hr'
      · exact hw.same (List.mem_of_getElem? hi)
    · exact local_empty rfl rfl

theorem attach_valued (hw : Consistent H here value w) (hi : w.requests[i]? = some r)
    {hasher : Hasher} (ha : Agrees H hasher) (cache : PrefixCache) (reserve : Option Exn)
    (grow : ℕ → Option Exn) (tokens : Tokens) :
    (∀ n m' s, cache.attachCachedPrefix hasher reserve grow tokens (w.pool, r.sequence) =
        .ok n (m', s) → Valued value { w with
          pool := m', requests := w.requests.set i ⟨s, tokens.take n⟩ }) ∧
    (∀ err m' s, cache.attachCachedPrefix hasher reserve grow tokens (w.pool, r.sequence) =
        .error err (m', s) → Valued value { w with
          pool := m', requests := w.requests.set i ⟨s, r.tokens⟩ }) := by
  obtain ⟨hbs, hcov, -⟩ := hw.proper hi
  have hpos : 0 < w.pool.blockSize := hw.sound.blockSize_pos
  rcases PrefixCache.attachCachedPrefix_cases (hw.view hi) ha hbs hcov cache reserve grow
    tokens with ⟨new, m₁, hc, h0, hempty, -, hs, hatt, hholds, -⟩ | ⟨err, m₁, hc, hs, hshrink⟩
  swap
  · refine ⟨fun n m' s h => (by rw [hc] at h; cases h), fun err' m' s h => ?_⟩
    rw [hc] at h
    cases h
    rw [set_same hi]
    exact hw.thrown hshrink
  refine ⟨fun n m' s h => ?_, fun err m' s h => by rw [hc] at h; cases h⟩
  rw [hc] at h
  cases h
  have hshrink := hatt.shrinks
  have hnum : (PrefixCache.extended r.sequence w.pool.blockSize new).numTokens =
      new.length * w.pool.blockSize := by
    rw [PrefixCache.extended, h0, Nat.zero_add]
  have hblocks : Request.blocks ⟨PrefixCache.extended r.sequence w.pool.blockSize new,
      tokens.take (new.length * w.pool.blockSize)⟩ = new := by
    show r.sequence.blockTable.blocks ++ new = new
    rw [hempty, List.nil_append]
  have hle : new.length * w.pool.blockSize ≤ tokens.length := by
    rcases Nat.eq_zero_or_pos new.length with hz | hp
    · rw [hz, Nat.zero_mul]
      exact Nat.zero_le _
    · have hlast := List.getElem?_eq_getElem (l := new) (Nat.sub_lt hp one_pos)
      have := (hholds _ _ hlast).1
      rwa [show 0 + (new.length - 1) + 1 = new.length by omega] at this
  refine hw.change hi ⟨hshrink, ⟨?_, fun k h hk hcd => ?_, fun t ht h hh => ?_⟩,
    fun _ _ => rfl, fun _ _ => rfl, fun g hg h hh => ?_⟩
  · show (PrefixCache.extended r.sequence w.pool.blockSize new).numTokens = _
    rw [hnum, List.length_take, min_eq_left hle]
  · rw [hblocks] at hk
    show (k + 1) * m₁.blockSize ≤ (PrefixCache.extended r.sequence w.pool.blockSize new).numTokens
    rw [hnum, hshrink.blockSize]
    exact Nat.mul_le_mul_right _ (List.getElem?_eq_some_iff.mp hk).1
  · -- a position of an attached page has the value it was published with
    have ht' : t < new.length * w.pool.blockSize := hnum ▸ ht
    rw [hblocks, hshrink.blockSize] at hh
    rw [hshrink.blockSize]
    obtain ⟨hlen, hcd, hpre⟩ := hholds _ h hh
    rw [Nat.zero_add] at hlen hpre
    have hmod := Nat.mod_lt t hpos
    have hval := hw.published h.id hcd (t % w.pool.blockSize) hmod
    have hplen : (PrefixCache.blockPrefix w.pool.blockSize tokens (t / w.pool.blockSize)).length =
        (t / w.pool.blockSize + 1) * w.pool.blockSize := by
      rw [PrefixCache.blockPrefix, List.length_take, min_eq_left hlen]
    have hidx : (t / w.pool.blockSize + 1) * w.pool.blockSize - w.pool.blockSize +
        t % w.pool.blockSize + 1 = t + 1 := by
      rw [Nat.add_mul, Nat.one_mul, Nat.add_sub_cancel, Nat.mul_comm, Nat.div_add_mod]
    have hsub : t + 1 ≤ (t / w.pool.blockSize + 1) * w.pool.blockSize := by
      have := Nat.div_add_mod t w.pool.blockSize
      rw [Nat.add_mul, Nat.one_mul, Nat.mul_comm]
      omega
    rw [hpre, hplen, hidx, PrefixCache.blockPrefix, List.take_take, min_eq_left hsub] at hval
    show w.store h.id (t % w.pool.blockSize) =
      value ((tokens.take (new.length * w.pool.blockSize)).take (t + 1))
    rw [hval, List.take_take, min_eq_left ht']
  · rw [hblocks] at hg
    obtain ⟨k, hk⟩ := List.getElem?_of_mem hg
    intro he
    have hcd := (hholds k g hk).2.1
    rw [he, (hw.apart h hh).1] at hcd
    cases hcd

theorem publish_valued (hw : Consistent H here value w) (hi : w.requests[i]? = some r)
    {hasher : Hasher} (ha : Agrees H hasher) (cache : PrefixCache) (k : ℕ) {p : Tokens}
    (hp : p <+: r.tokens) :
    (∀ m' s, cache.publishComputedBlock hasher k p (w.pool, r.sequence) = .ok () (m', s) →
      Valued value { w with pool := m', requests := w.requests.set i ⟨s, r.tokens⟩ }) ∧
    (∀ err m' s, cache.publishComputedBlock hasher k p (w.pool, r.sequence) = .error err (m', s) →
      Valued value { w with pool := m', requests := w.requests.set i ⟨s, r.tokens⟩ }) := by
  have hl := hw.local_ r (List.mem_of_getElem? hi)
  rcases PrefixCache.publishComputedBlock_cases (hw.view hi) ha cache k p with
    ⟨h, hpub, hrefs, hunc, -, -, hc, hs⟩ | ⟨err, hc⟩
  swap
  · refine ⟨fun m' s h => (by rw [hc] at h; cases h), fun err' m' s h => ?_⟩
    rw [hc] at h
    cases h
    rw [set_same hi]
    exact hw.toValued
  refine ⟨fun m' s h' => ?_, fun err m' s h' => by rw [hc] at h'; cases h'⟩
  rw [hc] at h'
  cases h'
  rw [set_same hi]
  have hex := exclusive_of_refs (hw.view hi) hpub.block hrefs hunc
  have hslot : ∀ j, j ≠ h.id → (w.pool.published h.id p (H p)).slots j = w.pool.slots j :=
    fun j hj => by rw [published_slots, if_neg hj]
  have hself : ((w.pool.published h.id p (H p)).slots h.id).prefixTokens = p := by
    rw [published_slots, if_pos rfl]
  refine ⟨fun r' hr' => ?_, fun j hj n hn => ?_, fun g hg => ⟨?_, (hw.apart g hg).2⟩⟩
  · have hl' := hw.local_ r' hr'
    refine ⟨hl'.length, fun n g hg hcd => ?_, hl'.content⟩
    by_cases he : g.id = h.id
    · -- the published page is only mapped here
      obtain ⟨j, hj⟩ := List.getElem?_of_mem hr'
      by_cases hji : j = i
      · subst hji
        obtain rfl : r = r' := Option.some.inj (hi.symm.trans hj)
        have hn : n = k := by
          by_contra hne
          exact hex.self n g hg hne he
        rw [hn]
        show (k + 1) * w.pool.blockSize ≤ _
        rw [← hpub.length]
        exact hpub.le
      · exfalso
        refine hex.rest g (mem_beside.mpr (.inl (mem_owners ?_ (List.mem_of_getElem? hg)))) he
        exact List.mem_eraseIdx_iff_getElem?.mpr ⟨j, hji, hj⟩
    · rw [hslot g.id he] at hcd
      exact hl'.full n g hg hcd
  · by_cases he : j = h.id
    · subst he
      have hn' : n < w.pool.blockSize := hn
      show w.store h.id n = _
      rw [hself, published_blockSize, hpub.length, Nat.add_mul, Nat.one_mul, Nat.add_sub_cancel]
      have hlt : k * w.pool.blockSize + n < r.sequence.numTokens := by
        have := hpub.le
        rw [hpub.length, Nat.add_mul, Nat.one_mul] at this
        omega
      have hdiv : (k * w.pool.blockSize + n) / w.pool.blockSize = k := by
        rw [Nat.mul_comm, Nat.mul_add_div (Nat.zero_lt_of_lt hn'), Nat.div_eq_of_lt hn', Nat.add_zero]
      have hmod : (k * w.pool.blockSize + n) % w.pool.blockSize = n := by
        rw [Nat.mul_comm, Nat.mul_add_mod, Nat.mod_eq_of_lt hn']
      have := hl.content _ hlt h (by rw [hdiv]; exact hpub.block)
      rw [hmod] at this
      rw [this, List.prefix_iff_eq_take.mp hp, List.take_take, min_eq_left]
      rw [hpub.length, Nat.add_mul, Nat.one_mul]
      omega
    · rw [hslot j he] at hj ⊢
      exact hw.published j hj n hn
  · have hne : g.id ≠ h.id := hex.rest g (mem_beside.mpr (.inr hg))
    rw [hslot g.id hne]
    exact (hw.apart g hg).1

/-- The pages of other holders. -/
theorem otherAllocate_valued (hw : Consistent H here value w) :
    (∀ h m', PhysicalBlockPool.allocate w.pool = .ok h m' →
      Valued value { w with pool := m', others := h ::ₘ w.others }) ∧
    (∀ err m', PhysicalBlockPool.allocate w.pool = .error err m' → m' = w.pool) := by
  rcases hw.sound.allocate with ⟨h, m₁, hc, hs, ha⟩ | ⟨err, hc⟩
  swap
  · refine ⟨fun h m' he => (by rw [hc] at he; cases he), fun err m' he => ?_⟩
    rw [hc] at he
    cases he
    rfl
  refine ⟨fun h' m' he => ?_, fun err m' he => by rw [hc] at he; cases he⟩
  rw [hc] at he
  cases he
  have hnew : ∀ g ∈ w.held, g.id ≠ h.id := fun g hg he =>
    ha.notMem hw.sound.good (hw.sound.owned.refs_pos hg) (by simp [he])
  refine hw.frame ha.shrinks (fun _ _ => rfl) (fun _ _ => rfl) fun g hg => ?_
  rcases Multiset.mem_cons.mp hg with rfl | hg
  · exact ⟨(ha.fresh g List.mem_cons_self).1, fun g' hg' =>
      hnew g' (Multiset.mem_add.mpr (.inl hg'))⟩
  · exact ⟨ha.shrinks.uncached (hw.apart g hg).1, (hw.apart g hg).2⟩

theorem otherFree_valued (hw : Consistent H here value w) (hh : h ∈ w.others) :
    ∃ m', PhysicalBlockPool.free h w.pool = .ok () m' ∧
      Valued value { w with pool := m', others := w.others.erase h } := by
  obtain ⟨hc, -, hshrink⟩ := hw.sound.free (Multiset.mem_add.mpr (.inr hh))
  refine ⟨_, hc, hw.frame hshrink (fun _ _ => rfl) (fun _ _ => rfl) fun g hg => ?_⟩
  have hg' := Multiset.mem_of_mem_erase hg
  exact ⟨hshrink.uncached (hw.apart g hg').1, (hw.apart g hg').2⟩

theorem otherWrite_valued (hw : Valued value w) (hh : h ∈ w.others) (page : ℕ → V) :
    Valued value { w with store := setPage w.store h.id page } := by
  refine hw.frame (.refl w.pool) (fun g hg => ?_) (fun i hc => ?_) hw.apart
  · exact Function.update_of_ne ((hw.apart h hh).2 g hg) _ _
  · refine Function.update_of_ne (fun he => ?_) _ _
    rw [he, (hw.apart h hh).1] at hc
    cases hc

/-- The calls that append to sequence `i`. -/
def Action.AppendsTo {V : Type} (i : ℕ) : Action V → Prop
  | .appendTokens j _ _ | .appendToken j _ _ | .appendTokenWithCopy j _ _ _ => j = i
  | _ => False

/-- What an append to sequence `i` makes of it: its new positions are exclusive. -/
def Extends (w w' : World V) (i : ℕ) : Prop :=
  ∀ r, w.requests[i]? = some r → ∃ r', w'.requests[i]? = some r' ∧ Fresh w i r w'.pool r'.sequence ∧
    w'.requests.eraseIdx i = w.requests.eraseIdx i

/-- An append that throws gives out nothing. -/
theorem extends_thrown (hi : w.requests[i]? = some r) (hs : s = r.sequence) :
    Extends w ⟨m', w.requests.set i ⟨s, r.tokens⟩, w.others, store'⟩ i := by
  intro r₀ hr₀
  obtain rfl : r = r₀ := Option.some.inj (hi.symm.trans hr₀)
  subst hs
  rw [set_same hi]
  exact ⟨r, hi, fun t h₁ h₂ => absurd h₁ (by omega), rfl⟩

theorem extends_changed (hi : w.requests[i]? = some r) (hf : Fresh w i r m' s) :
    Extends w ⟨m', w.requests.set i ⟨s, tokens⟩, w.others, store'⟩ i := by
  intro r₀ hr₀
  obtain rfl : r = r₀ := Option.some.inj (hi.symm.trans hr₀)
  have hlt := (List.getElem?_eq_some_iff.mp hi).1
  exact ⟨_, List.getElem?_set_self hlt, hf, List.eraseIdx_set_eq⟩

/-- `append_tokens` in a run. -/
theorem appended_tokens (hw : Consistent H here value w) (hi : w.requests[i]? = some r)
    (grow : ℕ → Option Exn) :
    Valued value (appended value w i r tokens w.store
      (SequenceState.appendTokens grow tokens.length (w.pool, r.sequence))) ∧
    Extends w (appended value w i r tokens w.store
      (SequenceState.appendTokens grow tokens.length (w.pool, r.sequence))) i := by
  rcases SequenceState.appendTokens_cases (hw.view hi) grow tokens.length with ⟨new, m', hc, -⟩ |
    ⟨err, m', hc, -, hshrink⟩
  · obtain ⟨hchange, hfresh⟩ := changes_appendTokens hw hi hc
    rw [hc]
    exact ⟨hw.change hi hchange, extends_changed hi hfresh⟩
  · rw [hc]
    refine ⟨?_, extends_thrown hi rfl⟩
    show Valued value ⟨m', w.requests.set i ⟨r.sequence, r.tokens⟩, w.others, w.store⟩
    rw [set_same hi]
    exact hw.thrown hshrink

/-- `append_token` in a run. -/
theorem appended_token (hw : Consistent H here value w) (hi : w.requests[i]? = some r) {token : Token}
    (grow : ℕ → Option Exn) :
    Valued value (appended value w i r [token] w.store
      (SequenceState.appendToken grow (w.pool, r.sequence))) ∧
    Extends w (appended value w i r [token] w.store
      (SequenceState.appendToken grow (w.pool, r.sequence))) i := by
  rcases SequenceState.appendToken_cases (hw.view hi) (hw.pos hi) (hw.proper hi).covered grow with
    ⟨new, m', loc, hc, hc', -⟩ | ⟨err, m', hc, -, hshrink⟩
  · obtain ⟨hchange, hfresh⟩ := @changes_appendTokens H V value here w m' r _ i [token] hw hi _ hc'
    rw [hc]
    exact ⟨hw.change hi hchange, extends_changed hi hfresh⟩
  · rw [hc]
    refine ⟨?_, extends_thrown hi rfl⟩
    show Valued value ⟨m', w.requests.set i ⟨r.sequence, r.tokens⟩, w.others, w.store⟩
    rw [set_same hi]
    exact hw.thrown hshrink

theorem step_withCopy_eq (hi : w.requests[i]? = some r) (token : Token) (grow : ℕ → Option Exn)
    (copy : Option (Copying V)) : step value here (.appendTokenWithCopy i token grow copy) w =
      match SequenceState.appendTokenWithCopy grow (copy.map Copying.copier)
        ((w.pool, r.sequence), w.store) with
      | .ok loc (st, store) => some (appended value w i r [token] store (.ok loc st))
      | .error err (st, store) =>
        some (appended (α := Unit) value w i r [token] store (.error err st)) := by
  simp only [step, hi]
  rfl

/-- `append_token_with_copy` in a run. -/
theorem step_withCopy (hw : Consistent H here value w) (hi : w.requests[i]? = some r) {token : Token}
    {grow : ℕ → Option Exn} {copy : Option (Copying V)}
    (h : step value here (.appendTokenWithCopy i token grow copy) w = some w') :
    Valued value w' ∧ Extends w w' i := by
  have hs₀ := hw.view hi
  have hcov := (hw.proper hi).covered
  have hsame : ⟨w.pool, w.requests.set i ⟨r.sequence, r.tokens⟩, w.others, w.store⟩ = w := by
    rw [set_same hi]
  rw [step_withCopy_eq hi] at h
  by_cases hmax : r.sequence.numTokens = sizeMax
  · rw [SequenceState.appendTokenWithCopy_limit hmax] at h
    cases h
    exact ⟨by simpa only [appended, hsame] using hw.toValued, extends_thrown hi rfl⟩
  by_cases hplain : r.sequence.numTokens % r.sequence.blockSize = 0 ∨
      r.sequence.blockTable.refCount w.pool (r.sequence.blockTable.size - 1) = .ok 1
  · rw [SequenceState.appendTokenWithCopy_inPlace hmax hplain, onFst_apply] at h
    obtain ⟨h₁, h₂⟩ := @appended_token H V value here w r i hw hi token grow
    cases hc : SequenceState.appendToken grow (w.pool, r.sequence) with
    | ok loc st =>
      rw [hc] at h h₁ h₂
      cases h
      exact ⟨h₁, h₂⟩
    | error err st =>
      rw [hc] at h h₁ h₂
      cases h
      exact ⟨h₁, h₂⟩
  obtain ⟨hp, hrefs⟩ := not_or.mp hplain
  obtain ⟨blocks, old, hb⟩ := hcov.concat hp
  have hr : (w.pool.slots old.id).refs ≠ 1 := fun he => hrefs (by
    rw [(SequenceState.refCount_last hs₀ hb).1, he])
  rcases SequenceState.appendTokenWithCopy_shared hs₀ grow (copy.map Copying.copier) w.store hmax
    hp hb hr with
    ⟨f, new, m₁, x', hf, ha, hcopy, hc, hs, hshrink⟩ | ⟨err, m', x', hc, hs, hshrink, hx⟩
  · rw [hc] at h
    cases h
    obtain ⟨c, -, rfl⟩ := Option.map_eq_some_iff.mp hf
    cases c with
    | throws err page => cases hcopy
    | copies =>
      cases hcopy
      have hold : old ∈ w.held := by
        rw [held_eq hi]
        exact Multiset.mem_add.mpr (.inl (by rw [Request.blocks, hb]; simp))
      have hne : new.id ≠ old.id := fun he =>
        ha.notMem hw.sound.good (hw.sound.owned.refs_pos hold) (by simp [he])
      have hrel : ((m₁.released old.id).slots new.id).refs = 1 := by
        rw [released_slots, if_neg hne]
        exact (ha.fresh new List.mem_cons_self).2
      obtain ⟨hchange, hfresh⟩ := changes_copied hw hi token hp hb ha
        (ha.shrinks.trans hshrink) hshrink hs hrel
      exact ⟨hw.change hi hchange, extends_changed hi hfresh⟩
  · rw [hc] at h
    cases h
    refine ⟨?_, extends_thrown hi rfl⟩
    show Valued value ⟨m', w.requests.set i ⟨r.sequence, r.tokens⟩, w.others, x'⟩
    rw [set_same hi]
    rcases hx with rfl | ⟨f, new, m₁, hf, ha, hshrink₁, hcopy⟩
    · exact hw.thrown hshrink
    · -- the copier left anything on the page that was taken for the copy
      obtain ⟨c, -, rfl⟩ := Option.map_eq_some_iff.mp hf
      cases c with
      | copies => cases hcopy
      | throws err' page =>
        cases hcopy
        refine hw.frame hshrink (fun g hg => ?_) (fun k hk => ?_)
          (hw.apart.frame hshrink fun _ hg => .inl hg)
        · refine Function.update_of_ne (fun he => ?_) _ _
          exact ha.notMem hw.sound.good (hw.sound.owned.refs_pos
            (Multiset.mem_add.mpr (.inl hg))) (by simp [he])
        · refine Function.update_of_ne (fun he => ?_) _ _
          rw [he, hshrink₁.uncached (ha.fresh new List.mem_cons_self).1] at hk
          cases hk

/-! ## Runs -/

theorem consistent_start (hs : Start H w) : Consistent H here value w := by
  refine ⟨⟨?_, ?_, ?_⟩, intact_start hs⟩ <;>
  obtain ⟨⟨capacity, blockSize, hasher, -, hnew⟩, hreq, hoth⟩ := hs
  · intro r hr
    rw [hreq] at hr
    cases hr
  · intro i hi
    have hinit : w.pool = BlockManager.init capacity blockSize := by
      unfold PhysicalBlockPool.new BlockManager.new at hnew
      split_ifs at hnew
      exact (Except.ok.inj hnew).symm
    rw [hinit] at hi
    cases hi
  · intro h hh
    rw [hoth] at hh
    cases hh

/-- What a step does to the values, and what an append gives out. -/
theorem step_valued (hw : Consistent H here value w) {a : Action V} (ha : Allowed H w a)
    (h : step value here a w = some w') :
    Valued value w' ∧ ∀ i, a.AppendsTo i → Extends w w' i := by
  have hno : ∀ {P : ℕ → Prop}, (∀ i, ¬ a.AppendsTo i) → ∀ i, a.AppendsTo i → P i :=
    fun hn i hi => absurd hi (hn i)
  cases a with
  | create requestId =>
    cases h
    refine ⟨hw.regroup (.refl w.pool) fun r hr => ?_, hno fun i => id⟩
    rcases List.mem_append.mp hr with hr | hr
    · exact hw.same hr
    · exact List.mem_singleton.mp hr ▸ local_empty rfl rfl
  | appendTokens i tokens grow =>
    obtain ⟨r, hi, h⟩ := Option.bind_eq_some_iff.mp h
    cases h
    obtain ⟨h₁, h₂⟩ := @appended_tokens H V value here w r i tokens hw hi grow
    exact ⟨h₁, fun j hj => hj ▸ h₂⟩
  | appendToken i token grow =>
    obtain ⟨r, hi, h⟩ := Option.bind_eq_some_iff.mp h
    cases h
    obtain ⟨h₁, h₂⟩ := @appended_token H V value here w r i hw hi token grow
    exact ⟨h₁, fun j hj => hj ▸ h₂⟩
  | appendTokenWithCopy i token grow copy =>
    obtain ⟨r, hi, -⟩ := Option.bind_eq_some_iff.mp h
    obtain ⟨h₁, h₂⟩ := step_withCopy hw hi h
    exact ⟨h₁, fun j hj => hj ▸ h₂⟩
  | forkShared i requestId grow =>
    obtain ⟨r, hi, h⟩ := Option.bind_eq_some_iff.mp h
    obtain ⟨hok, herr⟩ := fork_valued hw hi grow requestId
    cases hc : SequenceState.forkShared grow requestId r.sequence w.pool with
    | ok s m' =>
      rw [hc] at h
      cases h
      exact ⟨hok s m' hc, hno fun i => id⟩
    | error err m' =>
      rw [hc] at h
      cases h
      exact ⟨herr err m' hc, hno fun i => id⟩
  | moveConstruct i =>
    obtain ⟨r, hi, h⟩ := Option.bind_eq_some_iff.mp h
    cases h
    exact ⟨moveConstruct_valued hw.toValued hi, hno fun i => id⟩
  | moveAssign target source =>
    obtain ⟨t, hj, h⟩ := Option.bind_eq_some_iff.mp h
    obtain ⟨r, hi, h⟩ := Option.bind_eq_some_iff.mp h
    split_ifs at h with he
    · cases h
      exact ⟨hw.toValued, hno fun i => id⟩
    · obtain ⟨m', hc, hw'⟩ := moveAssign_valued hw hj hi
      rw [hc] at h
      cases h
      exact ⟨hw', hno fun i => id⟩
  | destroy i =>
    obtain ⟨r, hi, h⟩ := Option.bind_eq_some_iff.mp h
    obtain ⟨m', t, hc, hw'⟩ := destroy_valued hw hi
    rw [hc] at h
    cases h
    exact ⟨hw', hno fun i => id⟩
  | attachCachedPrefix i hasher reserve grow tokens =>
    obtain ⟨r, hi, h⟩ := Option.bind_eq_some_iff.mp h
    obtain ⟨hok, herr⟩ := attach_valued hw hi ha ⟨here⟩ reserve grow tokens
    cases hc : PrefixCache.attachCachedPrefix ⟨here⟩ hasher reserve grow tokens
        (w.pool, r.sequence) with
    | ok n st =>
      rw [hc] at h
      cases h
      exact ⟨hok _ _ _ hc, hno fun i => id⟩
    | error err st =>
      rw [hc] at h
      cases h
      exact ⟨herr _ _ _ hc, hno fun i => id⟩
  | publishComputedBlock i hasher k p =>
    obtain ⟨r, hi, h⟩ := Option.bind_eq_some_iff.mp h
    obtain ⟨hok, herr⟩ := publish_valued hw hi ha.1 ⟨here⟩ k (ha.2 r hi)
    cases hc : PrefixCache.publishComputedBlock ⟨here⟩ hasher k p (w.pool, r.sequence) with
    | ok n st =>
      rw [hc] at h
      cases h
      exact ⟨hok _ _ hc, hno fun i => id⟩
    | error err st =>
      rw [hc] at h
      cases h
      exact ⟨herr _ _ _ hc, hno fun i => id⟩
  | otherAllocate =>
    obtain ⟨hok, herr⟩ := otherAllocate_valued hw
    simp only [step] at h
    cases hc : PhysicalBlockPool.allocate w.pool with
    | ok g m' =>
      rw [hc] at h
      cases h
      exact ⟨hok _ _ hc, hno fun i => id⟩
    | error err m' =>
      rw [hc] at h
      cases h
      rw [herr _ _ hc]
      exact ⟨hw.toValued, hno fun i => id⟩
  | otherFree g =>
    simp only [step] at h
    split_ifs at h with hg
    obtain ⟨m', hc, hw'⟩ := otherFree_valued hw hg
    rw [hc] at h
    cases h
    exact ⟨hw', hno fun i => id⟩
  | otherWrite g page =>
    simp only [step] at h
    split_ifs at h with hg
    cases h
    exact ⟨otherWrite_valued hw.toValued hg page, hno fun i => id⟩

/-- **Every step keeps the invariant.** -/
theorem step_consistent (hw : Consistent H here value w) {a : Action V} (ha : Allowed H w a)
    (h : step value here a w = some w') : Consistent H here value w' :=
  ⟨(step_valued hw ha h).1, intact_step hw.intact ha h⟩

/-- **The run lemma.** -/
theorem consistent_of_reachable
    (hr : Transition.Reachable (step value here) (Start H) (Allowed H) w) :
    Consistent H here value w :=
  hr.invariant (fun _ => consistent_start) fun _ _ _ _ hs ha h => step_consistent hs ha h

/-- What the caller finds at the location of a token. -/
def World.read (w : World V) (r : Request) (t : ℕ) : Except Exn V :=
  (r.sequence.tokenLocation w.pool t).map fun loc => w.store loc.physicalBlock loc.offsetInBlock

theorem Consistent.read (hw : Consistent H here value w) (hr : r ∈ w.requests) :
    r.sequence.numTokens = r.tokens.length ∧
      ∀ t < r.sequence.numTokens, w.read r t = .ok (value (r.tokens.take (t + 1))) := by
  obtain ⟨i, hi⟩ := List.getElem?_of_mem hr
  have hl := hw.local_ r hr
  obtain ⟨hbs, hcov, -⟩ := hw.proper hi
  refine ⟨hl.length, fun t ht => ?_⟩
  obtain ⟨h, hh⟩ := hcov.block (hw.pos hi) ht
  have hcontent := hl.content t ht h (by rw [← hbs]; exact hh)
  rw [World.read, SequenceState.tokenLocation_eq (hw.view hi) ht hh]
  show Except.ok (w.store h.id (t % r.sequence.blockSize)) = _
  rw [hbs, hcontent]

/-- **Main result.** After every run each sequence reads back the values of its own tokens; an
append gives out positions on pages that are neither published nor mapped by another sequence. -/
theorem independent_arrays
    (hr : Transition.Reachable (step value here) (Start H) (Allowed H) w) :
    (∀ r ∈ w.requests, r.sequence.numTokens = r.tokens.length ∧
      ∀ t < r.sequence.numTokens, w.read r t = .ok (value (r.tokens.take (t + 1)))) ∧
    ∀ a w' i, Allowed H w a → a.AppendsTo i → step value here a w = some w' →
      ∀ r, w.requests[i]? = some r → ∃ r', w'.requests[i]? = some r' ∧
        ∀ t, r.sequence.numTokens ≤ t → t < r'.sequence.numTokens →
          ∃ loc, r'.sequence.tokenLocation w'.pool t = .ok loc ∧
            (w'.pool.slots loc.physicalBlock).cached = false ∧
            ∀ j r'', j ≠ i → w'.requests[j]? = some r'' →
              ∀ h ∈ r''.blocks, h.id ≠ loc.physicalBlock := by
  have hw := consistent_of_reachable hr
  refine ⟨fun r hr => hw.read hr, fun a w' i ha hi h r hri => ?_⟩
  have hw' := step_consistent hw ha h
  obtain ⟨r', hri', hfresh, herase⟩ := (step_valued hw ha h).2 i hi r hri
  refine ⟨r', hri', fun t h₁ h₂ => ?_⟩
  obtain ⟨g, hg⟩ := hfresh t h₁ h₂
  refine ⟨_, SequenceState.tokenLocation_eq (hw'.view hri') h₂ hg.block, hg.cached,
    fun j r'' hj hrj h hh => ?_⟩
  refine hg.rest h (mem_beside.mpr (.inl (mem_owners (r := r'') ?_ hh)))
  rw [← herase]
  exact List.mem_eraseIdx_iff_getElem?.mpr ⟨j, hj, hrj⟩

/-- Two requests go on from a shared partial page, and one of them is done. -/
def forkedRun : List (Action Tokens) :=
  [.create 1, .appendTokens 0 [1, 2, 3] fun _ => none, .forkShared 0 2 fun _ => none,
    .appendTokenWithCopy 0 4 (fun _ => none) (some .copies),
    .appendTokenWithCopy 1 5 (fun _ => none) none, .moveConstruct 0, .destroy 0]

theorem independent_arrays_forked : ∃ w : World Tokens,
    Transition.run (step id 0) forkedRun ⟨init 4 2, [], 0, fun _ _ => []⟩ = some w ∧
      w.requests.map Request.tokens = [[1, 2, 3, 5], [1, 2, 3, 4]] ∧
      ∀ r ∈ w.requests, ∀ t < r.sequence.numTokens, w.read r t = .ok (r.tokens.take (t + 1)) := by
  have hstart : Start (fun _ => 0) (⟨init 4 2, [], 0, fun _ _ => []⟩ : World Tokens) :=
    ⟨⟨4, 2, fun _ => .ok 0, fun _ _ h => (Except.ok.inj h).symm, rfl⟩, rfl, rfl⟩
  have hrun : Transition.run (step id 0) forkedRun ⟨init 4 2, [], 0, fun _ _ => []⟩ =
      some ((Transition.run (step id 0) forkedRun ⟨init 4 2, [], 0, fun _ _ => []⟩).get
        (by decide +kernel)) := (Option.some_get _).symm
  refine ⟨_, hrun, by decide +kernel, ?_⟩
  have hnew : Transition.Reachable (step (id : Tokens → Tokens) 0) (Start fun _ => 0)
      (Allowed fun _ => 0) ⟨init 4 2, [], 0, fun _ _ => []⟩ := .start hstart
  have hreach := hnew.run (fun a ha s => ?_) hrun
  · exact fun r hr => ((independent_arrays hreach).1 r hr).2
  · fin_cases ha <;> exact trivial

end KVFlux.V2
