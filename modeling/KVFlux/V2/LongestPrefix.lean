import KVFlux.BlockManager.Publications
import KVFlux.V2.PrefixCache

/-!
# The longest cached prefix

* `BlockManager.ledger`: every state of a pool has a list of owners.
* `Hindered`: a fault on the way to the first block that is not cached.
* `attachLoop_returns`: without such a fault the loop returns.
* **`attach_longest_prefix`**: in every state of the pool an empty sequence gets all leading cached
  blocks, each page one owner more; a throw leaves no trace, and there is one only when a call on
  the way has a fault.
-/

namespace KVFlux.BlockManager

variable {H : Tokens → UInt64} {m : BlockManager}

/-- An owner for every reference. -/
def ledger (m : BlockManager) : Multiset BlockHandle :=
  (Multiset.range m.capacity).bind fun i =>
    Multiset.replicate (m.slots i).refs ⟨i, (m.slots i).generation⟩

theorem ledger_owned (hg : Good H m) : Owned m m.ledger := by
  obtain ⟨free, idle, hi⟩ := hg
  refine ⟨fun h hh => ?_, fun i => ?_⟩
  · obtain ⟨i, hlt, hm⟩ := Multiset.mem_bind.mp hh
    obtain ⟨hr, rfl⟩ := Multiset.mem_replicate.mp hm
    refine ⟨Multiset.mem_range.mp hlt, ?_, rfl⟩
    cases hf : (m.slots i).free with
    | false => rfl
    | true => exact absurd ((hi.slot i).free_refs hf) hr
  · have hcount : ∀ j, ((Multiset.replicate (m.slots j).refs
        (⟨j, (m.slots j).generation⟩ : BlockHandle)).map BlockHandle.id).count i =
        if j = i then (m.slots i).refs else 0 := by
      intro j
      rw [Multiset.map_replicate, Multiset.count_replicate]
      split_ifs with hj
      · rw [show j = i from hj]
      · rfl
    rw [ledger, Multiset.map_bind, Multiset.count_bind]
    simp only [hcount]
    show _ = ∑ j ∈ Finset.range m.capacity, if j = i then (m.slots i).refs else 0
    rw [Finset.sum_ite_eq']
    split_ifs with hlt
    · rfl
    · have hfree : (m.slots i).free = true := by
        by_contra hf
        exact hlt (Finset.mem_range.mpr (hi.lt_capacity (Bool.eq_false_iff.mpr hf)))
      exact (hi.slot i).free_refs hfree

/-- Every state of a pool keeps the invariant. -/
theorem pool_run_good {m₀ : PhysicalBlockPool} {capacity blockSize : ℕ} {hasher : Option Hasher}
    (hn : PhysicalBlockPool.new capacity blockSize hasher = .ok m₀)
    (ops : List (Hasher × PhysicalBlockPool.Op)) (ha : ∀ c ∈ ops, Agrees H c.1) :
    Good H (PhysicalBlockPool.run m₀ ops) := by
  rw [pool_run]
  refine run_inv _ (good_of_new hn) fun c hc => ?_
  obtain ⟨d, hd, rfl⟩ := List.mem_map.mp hc
  exact ha d hd

end KVFlux.BlockManager

namespace KVFlux.V2.PrefixCache

open Fallible BlockManager

variable {H : Tokens → UInt64} {hasher : Hasher} {m m' : PhysicalBlockPool}
  {rest : Multiset BlockHandle} {h : BlockHandle} {s : SequenceState} {grow : ℕ → Option Exn}
  {reserve : Option Exn} {tokens : Tokens} {k : ℕ}

/-- A page holds block `i` of the tokens. -/
def HoldsBlock (m : PhysicalBlockPool) (tokens : Tokens) (i page : ℕ) : Prop :=
  (m.slots page).cached = true ∧ (m.slots page).prefixTokens = blockPrefix m.blockSize tokens i

/-- What makes the round of block `i` throw. -/
def HinderedAt (hasher : Hasher) (grow : ℕ → Option Exn) (m : PhysicalBlockPool) (tokens : Tokens)
    (i : ℕ) : Prop :=
  (∃ err, hasher (blockPrefix m.blockSize tokens i) = .error err) ∨
  (∃ page, HoldsBlock m tokens i page ∧ ((∃ err, grow i = some err) ∨
    sizeMax ≤ (m.slots page).refs + 1)) ∨
  sizeMax < (i + 1) * m.blockSize

/-- No round from block `k` up to the first miss throws. -/
def Unhindered (hasher : Hasher) (grow : ℕ → Option Exn) (m : PhysicalBlockPool) (tokens : Tokens)
    (k : ℕ) : Prop :=
  ∀ i, k ≤ i → (∀ j, k ≤ j → j < i → Cached m tokens j) → (i + 1) * m.blockSize ≤ tokens.length →
    ¬ HinderedAt hasher grow m tokens i

/-- What makes the call throw. -/
def Hindered (hasher : Hasher) (reserve : Option Exn) (grow : ℕ → Option Exn)
    (m : PhysicalBlockPool) (tokens : Tokens) : Prop :=
  (∃ err, reserve = some err) ∨ ∃ i, (∀ j < i, Cached m tokens j) ∧
    (i + 1) * m.blockSize ≤ tokens.length ∧ HinderedAt hasher grow m tokens i

/-! ## Calls without faults -/

theorem length_blockPrefix {n i : ℕ} (h : (i + 1) * n ≤ tokens.length) :
    (blockPrefix n tokens i).length = (i + 1) * n := by
  rw [blockPrefix, List.length_take]
  exact min_eq_left h

/-- Different blocks lie on different pages. -/
theorem HoldsBlock.inj {i j page : ℕ} (hn : 0 < m.blockSize)
    (hi : (i + 1) * m.blockSize ≤ tokens.length) (hj : (j + 1) * m.blockSize ≤ tokens.length)
    (h : HoldsBlock m tokens i page) (h' : HoldsBlock m tokens j page) : i = j := by
  have he := congrArg List.length (h.2.symm.trans h'.2)
  rw [length_blockPrefix hi, length_blockPrefix hj] at he
  exact Nat.succ.inj (Nat.eq_of_mul_eq_mul_right hn he)

theorem appendExisting_returns {t : BlockTable} (hs : Sound H m (t.blocks + rest))
    (hh : h ∈ (t.blocks : Multiset BlockHandle) + rest) (hp : t.pool.isSome = true)
    (hr : (m.slots h.id).refs ≠ sizeMax) : BlockTable.appendExisting none h (m, t) =
      .ok () (m.retained h.id, { t with blocks := t.blocks ++ [h] }) := by
  rcases hs.owned.retain hh with ⟨ha, -⟩ | ⟨hmax, -⟩
  · have ha' : PhysicalBlockPool.retain h m = .ok () (m.retained h.id) := ha
    simp only [BlockTable.appendExisting, bind_apply, get_apply, ensure_apply hp, onFst_apply, ha',
      onError, BlockTable.push]
  · exact absurd hmax hr

/-- A lookup throws only when the hasher does, or at the maximal count. -/
theorem lookup_returns {p : Tokens} {held : Multiset BlockHandle} (hs : Sound H m held)
    (ha : Agrees H hasher) (hp : p ≠ []) (hmod : p.length % m.blockSize = 0)
    (hh : ∀ err, hasher p ≠ .error err)
    (hr : ∀ i, (m.slots i).cached = true ∧ (m.slots i).prefixTokens = p →
      (m.slots i).refs ≠ sizeMax) (err : Exn) :
    PhysicalBlockPool.lookup hasher p m ≠ .error err m := by
  obtain ⟨free, idle, hi⟩ := hs.good
  unfold PhysicalBlockPool.lookup
  rcases lookup_cases hi ha p with ⟨hbad, -⟩ | ⟨-, ⟨err', he, -⟩ | ⟨-, ⟨-, hc⟩ |
    ⟨i, hcd, hpi, hmax, -⟩ | ⟨i, -, -, -, hc⟩⟩⟩
  · exact absurd hbad (by simp [hp, hmod])
  · exact absurd he (hh err')
  · rw [hc]
    exact nofun
  · exact absurd hmax (hr i ⟨hcd, hpi⟩)
  · rw [hc]
    exact nofun

/-- **A hit returns** when the table can grow and the page can have two owners more. -/
theorem attachHit_returns (hs : Sound H m (s.blockTable.blocks + rest))
    (hfree : (m.slots h.id).free = false)
    (hs' : Sound H (m.retained h.id) (h ::ₘ (s.blockTable.blocks + rest)))
    (hp : s.blockTable.pool.isSome = true) (hr : (m.slots h.id).refs + 1 < sizeMax)
    (hmod : s.numTokens % s.blockSize = 0) (hmax : s.blockSize ≤ sizeMax - s.numTokens) :
    attachHit none h (m.retained h.id, s) =
      .ok () (m.retained h.id, extended s s.blockSize [h]) := by
  rcases attachHit_cases hs hfree (by omega) hs' none with ⟨hc, -⟩ | ⟨err, m', hc, -⟩
  · exact hc
  exfalso
  have hs₁ : Sound H (m.retained h.id) (s.blockTable.blocks + (h ::ₘ rest)) := by
    rwa [Multiset.add_cons]
  have hmem : h ∈ (s.blockTable.blocks : Multiset BlockHandle) + (h ::ₘ rest) := by simp
  have hr₁ : ((m.retained h.id).slots h.id).refs = (m.slots h.id).refs + 1 := by
    rw [retained_slots, if_pos rfl]
  have happ := appendExisting_returns hs₁ hmem hp (by omega)
  have hgo : ¬ (s.numTokens % s.blockSize ≠ 0 ∨ s.blockSize > sizeMax - s.numTokens) := by omega
  have hfull : ∃ st, SequenceState.appendCachedFullBlock none h (m.retained h.id, s) =
      .ok () st := by
    simp only [SequenceState.appendCachedFullBlock, bind_apply, get_apply, ensure_apply hgo,
      SequenceState.onTable_ok happ, modify_apply]
    exact ⟨_, rfl⟩
  rcases appendCachedFullBlock_cases hs₁ none hmem with ⟨hok, hs₂⟩ | ⟨err', m₂, herr, -⟩
  · rw [Multiset.add_cons] at hs₂
    obtain ⟨hf, -⟩ := hs₂.free (Multiset.mem_cons_self h _)
    rw [attachHit, bind_of_ok (onError_ok.mpr hok), onFst_apply, hf] at hc
    cases hc
  · obtain ⟨st, hst⟩ := hfull
    rw [hst] at herr
    cases herr

/-- One more owner of the page of block `k` hinders no later block. -/
theorem Unhindered.next (hu : Unhindered hasher grow m tokens k) (hn : 0 < m.blockSize)
    (hk : (k + 1) * m.blockSize ≤ tokens.length) (hh : HoldsBlock m tokens k h.id) :
    Unhindered hasher grow (m.retained h.id) tokens (k + 1) := by
  have hbs : (m.retained h.id).blockSize = m.blockSize := retained_blockSize
  have hholds : ∀ {i page}, HoldsBlock (m.retained h.id) tokens i page ↔
      HoldsBlock m tokens i page := by
    intro i page
    unfold HoldsBlock
    rw [hbs, retained_slots]
    split_ifs with he
    · rw [he]
    · rfl
  have hcached : ∀ {i}, Cached (m.retained h.id) tokens i → Cached m tokens i := by
    rintro i ⟨hl, page, hp⟩
    exact ⟨hbs ▸ hl, page, hholds.mp hp⟩
  intro i hi hall hlen
  rw [hbs] at hlen
  have hnot := hu i (by omega) (fun j hj hji => ?_) hlen
  swap
  · rcases hj.eq_or_lt with rfl | hj
    · exact ⟨hk, h.id, hh⟩
    · exact hcached (hall j hj hji)
  refine fun hbad => hnot ?_
  rcases hbad with hbad | ⟨page, hp, hbad⟩ | hbad
  · exact .inl (hbs ▸ hbad)
  · have hp' := hholds.mp hp
    refine .inr (.inl ⟨page, hp', hbad.imp_right fun hr => ?_⟩)
    have hne : page ≠ h.id := by
      rintro rfl
      have := HoldsBlock.inj hn hlen hk hp' hh
      omega
    rwa [retained_slots, if_neg hne] at hr
  · exact .inr (.inr (hbs ▸ hbad))

/-- A round of the loop on a full block. -/
theorem attachLoop_step {fuel : ℕ} {p todo : Tokens} (h : ¬ todo.length < m.blockSize) :
    attachLoop hasher grow (fuel + 1) p todo (m, s) =
      (onFst (PhysicalBlockPool.lookup hasher (p ++ todo.take m.blockSize)) >>= fun hit =>
        (match hit with
        | none => pure ()
        | some handle => attachHit (grow s.blockTable.size) handle >>= fun _ =>
          attachLoop hasher grow fuel (p ++ todo.take m.blockSize) (todo.drop m.blockSize) :
            SequenceCall Unit)) (m, s) := by
  rw [attachLoop, bind_of_ok (get_apply _)]
  exact congrFun (if_neg h) (m, s)

/-- **Without faults the loop returns.** By induction on the rounds left. -/
theorem attachLoop_returns (ha : Agrees H hasher) (fuel : ℕ) :
    ∀ {m : PhysicalBlockPool} {s : SequenceState} {k : ℕ},
    Sound H m (s.blockTable.blocks + rest) → s.blockSize = m.blockSize →
    s.blockTable.pool.isSome = true → s.numTokens = k * m.blockSize → s.blockTable.size = k →
    Unhindered hasher grow m tokens k → ∃ st, attachLoop hasher grow fuel
      (tokens.take (k * m.blockSize)) (tokens.drop (k * m.blockSize)) (m, s) = .ok () st := by
  induction fuel with
  | zero => exact fun _ _ _ _ _ _ => ⟨_, rfl⟩
  | succ fuel ih =>
    intro m s k hs hbs hp hnum hsize hu
    have hn := hs.blockSize_pos
    have hnext : (k + 1) * m.blockSize = k * m.blockSize + m.blockSize := by
      rw [Nat.add_mul, Nat.one_mul]
    have hrest : (tokens.drop (k * m.blockSize)).length = tokens.length - k * m.blockSize :=
      List.length_drop
    by_cases hshort : (tokens.drop (k * m.blockSize)).length < m.blockSize
    · simp only [attachLoop, bind_apply, get_apply, if_pos hshort, pure_apply]
      exact ⟨_, rfl⟩
    have hle : (k + 1) * m.blockSize ≤ tokens.length := by omega
    have hgo := hu k le_rfl (fun j h₁ h₂ => by omega) hle
    have hpre : tokens.take (k * m.blockSize) ++
        (tokens.drop (k * m.blockSize)).take m.blockSize = blockPrefix m.blockSize tokens k := by
      rw [blockPrefix, hnext, List.take_add]
    have hdrop : (tokens.drop (k * m.blockSize)).drop m.blockSize =
        tokens.drop ((k + 1) * m.blockSize) := by rw [hnext, List.drop_drop]
    have hpos : 0 < (k + 1) * m.blockSize := Nat.mul_pos (Nat.succ_pos k) hn
    rw [attachLoop_step hshort, hpre, hdrop]
    have hlen := length_blockPrefix hle
    have hpne : blockPrefix m.blockSize tokens k ≠ [] := List.ne_nil_of_length_pos (by omega)
    have hpmod : (blockPrefix m.blockSize tokens k).length % m.blockSize = 0 := by
      rw [hlen, Nat.mul_mod_left]
    rcases hs.lookup ha hpne hpmod with ⟨h, hcd, hpi, hfree, -, hc, hs'⟩ | ⟨-, hc⟩ | ⟨err, hc⟩
    · -- a hit: the rest of the loop runs on the extended sequence
      have hhit : HoldsBlock m tokens k h.id := ⟨hcd, hpi⟩
      have hgrow : grow k = none := by
        cases hg : grow k with
        | none => rfl
        | some err => exact absurd (.inr (.inl ⟨h.id, hhit, .inl ⟨err, hg⟩⟩)) hgo
      have hr : (m.slots h.id).refs + 1 < sizeMax := by
        by_contra hr
        exact hgo (.inr (.inl ⟨h.id, hhit, .inr (by omega)⟩))
      have hmax : (k + 1) * m.blockSize ≤ sizeMax := by
        by_contra hmax
        exact hgo (.inr (.inr (by omega)))
      have hc' : (onFst (PhysicalBlockPool.lookup hasher (blockPrefix m.blockSize tokens k)) :
          SequenceCall (Option BlockHandle)) (m, s) = .ok (some h) (m.retained h.id, s) := by
        rw [onFst_apply, hc]
      have hret := attachHit_returns hs hfree hs' hp hr (by rw [hnum, hbs, Nat.mul_mod_left])
        (by omega)
      rw [bind_of_ok hc']
      simp only
      rw [hsize, hgrow, bind_of_ok hret]
      have hbs₁ : (m.retained h.id).blockSize = m.blockSize := retained_blockSize
      have hih := @ih (m.retained h.id) (extended s s.blockSize [h]) (k + 1) ?_ (hbs.trans hbs₁.symm)
        hp ?_ ?_ (hu.next hn hle hhit)
      · rwa [hbs₁] at hih
      · rcases attachHit_cases hs hfree (by omega) hs' none with ⟨-, hs₁, -⟩ | ⟨err, m', herr, -⟩
        · exact hs₁
        · rw [hret] at herr
          cases herr
      · rw [extended, hnum, hbs₁, hbs, List.length_singleton, hnext, Nat.one_mul]
      · show (s.blockTable.blocks ++ [h]).length = k + 1
        rw [List.length_append, List.length_singleton, ← hsize, BlockTable.size]
    · have hc' : (onFst (PhysicalBlockPool.lookup hasher (blockPrefix m.blockSize tokens k)) :
          SequenceCall (Option BlockHandle)) (m, s) = .ok none (m, s) := by
        rw [onFst_apply, hc]
      rw [bind_of_ok hc']
      exact ⟨_, rfl⟩
    · exact absurd hc (lookup_returns hs ha hpne hpmod (fun err he => hgo (.inl ⟨err, he⟩))
        (fun i hi hr => hgo (.inr (.inl ⟨i, hi, .inr (by omega)⟩))) err)

/-! ## The call -/

/-- **Main result.** In every state of the pool an empty sequence gets all leading cached blocks,
each page one owner more. A call that throws leaves the sequence and all counts alone, and it
throws only when the reservation, a hash, a growth or a count on the way fails. -/
theorem attach_longest_prefix {capacity blockSize : ℕ} {hasher₀ : Option Hasher}
    {m₀ : PhysicalBlockPool} (hn : PhysicalBlockPool.new capacity blockSize hasher₀ = .ok m₀)
    (ops : List (Hasher × PhysicalBlockPool.Op)) (hops : ∀ c ∈ ops, Agrees H c.1)
    (ha : Agrees H hasher) (requestId here : ℕ) (reserve : Option Exn) (grow : ℕ → Option Exn)
    (tokens : Tokens) :
    let m := PhysicalBlockPool.run m₀ ops
    let s := SequenceState.new requestId here m
    (∃ k new m', IsGreatest {k | ∀ i < k, Cached m tokens i} k ∧
      attachCachedPrefix ⟨here⟩ hasher reserve grow tokens (m, s) =
        .ok (m.blockSize * k) (m', extended s m.blockSize new) ∧
      new.length = k ∧ (new.map BlockHandle.id).Nodup ∧
      (∀ i < k, ∃ page, (extended s m.blockSize new).physicalBlockId m' i = .ok page ∧
        HoldsBlock m tokens i page) ∧
      ∀ page, (m'.slots page).refs = (m.slots page).refs +
        if page ∈ new.map BlockHandle.id then 1 else 0) ∨
    (∃ err m', attachCachedPrefix ⟨here⟩ hasher reserve grow tokens (m, s) = .error err (m', s) ∧
      (∀ page, (m'.slots page).refs = (m.slots page).refs) ∧
      Hindered hasher reserve grow m tokens) := by
  intro m s
  have hg : Good H m := pool_run_good hn ops hops
  have hs : Sound H m (s.blockTable.blocks + m.ledger) :=
    ⟨hg, by simpa [s, SequenceState.new] using ledger_owned hg⟩
  have hpos := hs.blockSize_pos
  have hcov : s.Covered := by
    simp [s, SequenceState.Covered, SequenceState.new, SequenceState.neededBlocks, BlockTable.size]
  rcases attachCachedPrefix_cases hs ha rfl hcov ⟨here⟩ reserve grow tokens with
    ⟨new, m', hc, -, -, -, hs', -, hholds, hstop⟩ | ⟨err, m', hc, hs', -⟩
  · left
    have hlt : ∀ i < new.length, ∃ h, new[i]? = some h ∧ Cached m tokens i ∧
        HoldsBlock m tokens i h.id := by
      intro i hi
      obtain ⟨hl, hcd, hpre⟩ := hholds i new[i] (List.getElem?_eq_getElem hi)
      rw [Nat.zero_add] at hl hpre
      exact ⟨new[i], List.getElem?_eq_getElem hi, ⟨hl, _, hcd, hpre⟩, hcd, hpre⟩
    have hnd : (new.map BlockHandle.id).Nodup := by
      refine List.nodup_iff_getElem?_ne_getElem?.mpr fun i j hij hj he => ?_
      rw [List.length_map] at hj
      obtain ⟨h₁, e₁, c₁, p₁⟩ := hlt i (hij.trans hj)
      obtain ⟨h₂, e₂, c₂, p₂⟩ := hlt j hj
      rw [List.getElem?_map, List.getElem?_map, e₁, e₂, Option.map_some, Option.map_some,
        Option.some.injEq] at he
      rw [he] at p₁
      exact absurd (HoldsBlock.inj hpos c₁.1 c₂.1 p₁ p₂) (Nat.ne_of_lt hij)
    refine ⟨new.length, new, m', ⟨fun i hi => ?_, fun k hk => ?_⟩, ?_, rfl, hnd, fun i hi => ?_,
      fun page => ?_⟩
    · obtain ⟨h, -, hcd, -⟩ := hlt i hi
      exact hcd
    · by_contra hgt
      exact hstop (hk _ (by omega))
    · rw [hc, Nat.mul_comm]
    · obtain ⟨h, he, -, hp⟩ := hlt i hi
      refine ⟨h.id, ?_, hp⟩
      have hmem : h ∈ (new : Multiset BlockHandle) + m.ledger :=
        Multiset.mem_add.mpr (.inl (List.mem_of_getElem? he))
      have hat : (extended s m.blockSize new).blockTable.blocks[i]? = some h := he
      rw [SequenceState.physicalBlockId, BlockTable.physicalId, hat]
      exact hs'.id_eq hmem
    · have hcount : ((new : Multiset BlockHandle).map BlockHandle.id).count page =
          if page ∈ new.map BlockHandle.id then 1 else 0 := by
        rw [Multiset.map_coe, Multiset.coe_count]
        exact hnd.count
      rw [hs'.owned.refs_eq, Multiset.map_add, Multiset.count_add, hcount,
        ← (ledger_owned hg).refs_eq, Nat.add_comm]
  · right
    refine ⟨err, m', hc, fun page => (hs'.owned.refs_eq page).trans (hs.owned.refs_eq page).symm, ?_⟩
    by_contra hno
    rw [Hindered, not_or, not_exists, not_exists] at hno
    obtain ⟨hres, hrounds⟩ := hno
    have hreserve : reserve = none := Option.eq_none_iff_forall_ne_some.mpr hres
    have hu : Unhindered hasher grow m tokens 0 := fun i _ hall hlen hbad =>
      hrounds i ⟨fun j hj => hall j (Nat.zero_le j) hj, hlen, hbad⟩
    obtain ⟨st, hrun⟩ := attachLoop_returns ha tokens.length hs rfl rfl (Nat.zero_mul _).symm rfl hu
    rw [Nat.zero_mul, List.take_zero, List.drop_zero] at hrun
    have hok : attachCachedPrefix ⟨here⟩ hasher reserve grow tokens (m, s) =
        .ok st.2.numTokens st := by
      have hpool : s.blockTable.pool = some here := rfl
      have hzero : s.numTokens = 0 := rfl
      simp only [attachCachedPrefix, bind_apply, get_apply, ensure_apply hpool, ensure_apply hzero,
        hreserve, check_ok, onError_ok.mpr hrun, pure_apply]
    rw [hok] at hc
    cases hc

/-- One block of two is cached. -/
theorem attach_longest_prefix_hit :
    let m := PhysicalBlockPool.run (BlockManager.init 2 1) [(fun _ => .ok 0, .allocate),
      (fun _ => .ok 0, .publish ⟨0, 1⟩ [5]), (fun _ => .ok 0, .free ⟨0, 1⟩)]
    IsGreatest {k | ∀ i < k, Cached m [5, 6] i} 1 := by
  intro m
  have hrun : (match attachCachedPrefix ⟨7⟩ (fun _ => .ok 0) none (fun _ => none) [5, 6]
      (m, SequenceState.new 1 7 m) with
    | .ok n _ => n == 1
    | .error _ _ => false) = true := by decide +kernel
  have ha : Agrees (fun _ => 0) (fun _ => .ok 0) := by simp [Agrees]
  have hpool : PhysicalBlockPool.new 2 1 (some fun _ => .ok 0) = .ok (BlockManager.init 2 1) := rfl
  have hattach := attach_longest_prefix hpool [(fun _ => .ok 0, .allocate),
    (fun _ => .ok 0, .publish ⟨0, 1⟩ [5]), (fun _ => .ok 0, .free ⟨0, 1⟩)] (by simp [ha]) ha 1 7
    none (fun _ => none) [5, 6]
  change (∃ k new m', IsGreatest {k | ∀ i < k, Cached m [5, 6] i} k ∧ attachCachedPrefix ⟨7⟩
    (fun _ => .ok 0) none (fun _ => none) [5, 6] (m, SequenceState.new 1 7 m) = _ ∧ _) ∨
    (∃ err m', attachCachedPrefix ⟨7⟩ (fun _ => .ok 0) none (fun _ => none) [5, 6]
      (m, SequenceState.new 1 7 m) = .error err (m', _) ∧ _) at hattach
  rcases hattach with ⟨k, new, m', hk, hc, -⟩ | ⟨err, m', hc, -⟩
  · rw [hc] at hrun
    have hbs : m.blockSize = 1 := by decide +kernel
    have hone : m.blockSize * k = 1 := by simpa using hrun
    rw [hbs, Nat.one_mul] at hone
    rwa [hone] at hk
  · rw [hc] at hrun
    cases hrun

end KVFlux.V2.PrefixCache
