import KVFlux.V2.Family

/-!
# Requests over one pool

Sequences that share the pages of one pool, beside other holders of pages, and the store of the
values.

* `Request`: a sequence object and the tokens it stands for. `World`: the pool, the live objects,
  the pages of other holders, and the value of every position of every page.
* `Action`, `step`: the calls on sequences, each with its faults, and what callers write: after a
  successful append, the value of each new token at its location.
* `World.family`, `Action.call`: without tokens and values, a `Family` and its calls.
* **`step_family`**: the calls do to the sequences what they do in a family, so **`intact_step`** is
  the step lemma of families.
-/

namespace KVFlux.V2

open Fallible BlockManager

/-- A sequence object; `tokens` is what the caller means by it. -/
structure Request where
  sequence : SequenceState
  tokens : Tokens

structure World (V : Type) where
  pool : PhysicalBlockPool
  requests : List Request
  others : Multiset BlockHandle
  store : ℕ → ℕ → V

/-- How a copier behaves: it copies the whole page, or it throws and leaves anything there. -/
inductive Copying (V : Type)
  | copies
  | throws (err : Exn) (page : ℕ → V)

inductive Action (V : Type)
  | create (requestId : ℕ)
  | appendTokens (i : ℕ) (tokens : Tokens) (grow : ℕ → Option Exn)
  | appendToken (i : ℕ) (token : Token) (grow : ℕ → Option Exn)
  | appendTokenWithCopy (i : ℕ) (token : Token) (grow : ℕ → Option Exn) (copy : Option (Copying V))
  | forkShared (i : ℕ) (requestId : ℕ) (grow : ℕ → Option Exn)
  | moveConstruct (i : ℕ)
  | moveAssign (target source : ℕ)
  | destroy (i : ℕ)
  | attachCachedPrefix (i : ℕ) (hasher : Hasher) (reserve : Option Exn) (grow : ℕ → Option Exn)
      (tokens : Tokens)
  | publishComputedBlock (i : ℕ) (hasher : Hasher) (logicalBlock : ℕ) (p : Tokens)
  | otherAllocate
  | otherFree (h : BlockHandle)
  | otherWrite (h : BlockHandle) (page : ℕ → V)

section Step

variable {V : Type} (value : Tokens → V) (here : ℕ)

/-- A page of the store with another content. -/
def setPage (store : ℕ → ℕ → V) (id : ℕ) (page : ℕ → V) : ℕ → ℕ → V :=
  Function.update store id page

def setValue (store : ℕ → ℕ → V) (loc : TokenLocation) (v : V) : ℕ → ℕ → V :=
  setPage store loc.physicalBlock
    (Function.update (store loc.physicalBlock) loc.offsetInBlock v)

/-- The copier on the store. -/
def Copying.copier : Copying V → SequenceState.BlockCopier (ℕ → ℕ → V)
  | .copies => fun _ source destination store =>
    .ok () (setPage store destination.id (store source.id))
  | .throws err page => fun _ _ destination store => .error err (setPage store destination.id page)

/-- The caller writes the values of the tokens `n`, …, `n + count - 1`. -/
def writeTokens (pool : PhysicalBlockPool) (s : SequenceState) (tokens : Tokens) (n : ℕ)
    (store : ℕ → ℕ → V) : ℕ → ℕ → ℕ → V
  | 0 => store
  | count + 1 =>
    match s.tokenLocation pool (n + count) with
    | .ok loc => setValue (writeTokens pool s tokens n store count) loc
        (value (tokens.take (n + count + 1)))
    | .error _ => writeTokens pool s tokens n store count

/-- After an append: the caller writes what is new, or leaves everything alone. -/
def appended {α : Type} (w : World V) (i : ℕ) (r : Request) (tokens : Tokens) (store : ℕ → ℕ → V) :
    EStateM.Result Exn (PhysicalBlockPool × SequenceState) α → World V
  | .ok _ (pool, s) => { w with
      pool := pool
      requests := w.requests.set i ⟨s, r.tokens ++ tokens⟩
      store := writeTokens value pool s (r.tokens ++ tokens) r.sequence.numTokens store
        tokens.length }
  | .error _ (pool, s) => { w with
      pool := pool, requests := w.requests.set i ⟨s, r.tokens⟩, store := store }

/-- The state after a call; a call on an object that does not exist is not a step. -/
def step : Action V → World V → Option (World V)
  | .create requestId, w =>
    some { w with requests := w.requests ++ [⟨.new requestId here w.pool, []⟩] }
  | .appendTokens i tokens grow, w => do
    let r ← w.requests[i]?
    some (appended value w i r tokens w.store
      (SequenceState.appendTokens grow tokens.length (w.pool, r.sequence)))
  | .appendToken i token grow, w => do
    let r ← w.requests[i]?
    some (appended value w i r [token] w.store
      (SequenceState.appendToken grow (w.pool, r.sequence)))
  | .appendTokenWithCopy i token grow copy, w => do
    let r ← w.requests[i]?
    match SequenceState.appendTokenWithCopy grow (copy.map Copying.copier)
        ((w.pool, r.sequence), w.store) with
    | .ok loc (st, store) => some (appended value w i r [token] store (.ok loc st))
    | .error err (st, store) =>
      some (appended (α := Unit) value w i r [token] store (.error err st))
  | .forkShared i requestId grow, w => do
    let r ← w.requests[i]?
    match SequenceState.forkShared grow requestId r.sequence w.pool with
    | .ok s pool => some { w with pool := pool, requests := w.requests ++ [⟨s, r.tokens⟩] }
    | .error _ pool => some { w with pool := pool }
  | .moveConstruct i, w => do
    let r ← w.requests[i]?
    some { w with requests := w.requests.set i ⟨r.sequence.movedFrom, []⟩ ++ [r] }
  | .moveAssign target source, w => do
    let t ← w.requests[target]?
    let r ← w.requests[source]?
    if target = source then some w
    else
      match SequenceState.moveAssign r.sequence (w.pool, t.sequence) with
      | .ok _ (pool, s) | .error _ (pool, s) => some { w with
          pool := pool
          requests := (w.requests.set target ⟨s, r.tokens⟩).set source ⟨r.sequence.movedFrom, []⟩ }
  | .destroy i, w => do
    let r ← w.requests[i]?
    match BlockTable.clear (w.pool, r.sequence.blockTable) with
    | .ok _ (pool, _) | .error _ (pool, _) =>
      some { w with pool := pool, requests := w.requests.eraseIdx i }
  | .attachCachedPrefix i hasher reserve grow tokens, w => do
    let r ← w.requests[i]?
    match PrefixCache.attachCachedPrefix ⟨here⟩ hasher reserve grow tokens (w.pool, r.sequence) with
    | .ok reused (pool, s) => some { w with
        pool := pool, requests := w.requests.set i ⟨s, tokens.take reused⟩ }
    | .error _ (pool, s) => some { w with
        pool := pool, requests := w.requests.set i ⟨s, r.tokens⟩ }
  | .publishComputedBlock i hasher logicalBlock p, w => do
    let r ← w.requests[i]?
    match PrefixCache.publishComputedBlock ⟨here⟩ hasher logicalBlock p (w.pool, r.sequence) with
    | .ok _ (pool, s) | .error _ (pool, s) => some { w with
        pool := pool, requests := w.requests.set i ⟨s, r.tokens⟩ }
  | .otherAllocate, w =>
    match PhysicalBlockPool.allocate w.pool with
    | .ok h pool => some { w with pool := pool, others := h ::ₘ w.others }
    | .error _ pool => some { w with pool := pool }
  | .otherFree h, w =>
    if h ∈ w.others then
      match PhysicalBlockPool.free h w.pool with
      | .ok _ pool => some { w with pool := pool, others := w.others.erase h }
      | .error _ pool => some { w with pool := pool }
    else none
  | .otherWrite h page, w =>
    if h ∈ w.others then some { w with store := setPage w.store h.id page } else none

/-- A new pool without holders. -/
def Start (H : Tokens → UInt64) (w : World V) : Prop :=
  (∃ capacity blockSize, ∃ hasher : Hasher, Agrees H hasher ∧
    PhysicalBlockPool.new capacity blockSize (some hasher) = .ok w.pool) ∧
  w.requests = [] ∧ w.others = 0

/-- The hasher of the pool may throw; a block is published under the prefix of its own tokens. -/
def Allowed (H : Tokens → UInt64) (w : World V) : Action V → Prop
  | .attachCachedPrefix _ hasher _ _ _ => Agrees H hasher
  | .publishComputedBlock i hasher _ p => Agrees H hasher ∧
    ∀ r, w.requests[i]? = some r → p <+: r.tokens
  | _ => True

end Step

/-! ## The family of the sequences -/

section Projection

variable {V : Type} {H : Tokens → UInt64} {value : Tokens → V} {here : ℕ} {w w' : World V}
  {r : Request} {a : Action V} {i : ℕ}

/-- The world without tokens and values. -/
def World.family (w : World V) : Family := ⟨w.pool, w.requests.map Request.sequence, w.others⟩

/-- The copier without the store. -/
def Copying.silent : Copying V → SequenceState.BlockCopier Unit
  | .copies => fun _ _ _ => pure ()
  | .throws err _ => fun _ _ _ => throw err

/-- The call of a family; a write to a page is none. Hashers only matter to lookups and publishes. -/
def Action.call : Action V → Option Family.Action
  | .create requestId => some (.create requestId)
  | .appendTokens i tokens grow => some (.appendTokens i tokens.length grow)
  | .appendToken i _ grow => some (.appendToken i grow)
  | .appendTokenWithCopy i _ grow copy =>
    some (.appendTokenWithCopy i grow (copy.map Copying.silent))
  | .forkShared i requestId grow => some (.forkShared i requestId grow)
  | .moveConstruct i => some (.moveConstruct i)
  | .moveAssign target source => some (.moveAssign target source)
  | .destroy i => some (.destroy i)
  | .attachCachedPrefix i hasher reserve grow tokens =>
    some (.attachCachedPrefix i hasher reserve grow tokens)
  | .publishComputedBlock i hasher logicalBlock p =>
    some (.publishComputedBlock i hasher logicalBlock p)
  | .otherAllocate => some (.other (fun _ => .error .capacityError) .allocate)
  | .otherFree h => some (.other (fun _ => .error .capacityError) (.free h))
  | .otherWrite _ _ => none

theorem family_at (hi : w.requests[i]? = some r) : w.family.sequences[i]? = some r.sequence := by
  rw [World.family, List.getElem?_map, hi]
  rfl

theorem family_appended {α : Type} (tokens : Tokens) (store : ℕ → ℕ → V)
    (res : EStateM.Result Exn (PhysicalBlockPool × SequenceState) α) :
    (appended value w i r tokens store res).family = w.family.set i res := by
  cases res <;> simp only [appended, World.family, Family.set, List.map_set]

/-- The copying append takes and leaves the same pages, whatever happens to the store. -/
theorem withCopy_silent (s : SequenceState) (grow : ℕ → Option Exn) (copy : Option (Copying V)) :
    mapState Prod.fst (SequenceState.appendTokenWithCopy grow (copy.map Copying.copier)
      ((w.pool, s), w.store)) =
    mapState Prod.fst (SequenceState.appendTokenWithCopy grow (copy.map Copying.silent)
      ((w.pool, s), ())) := by
  have h := SequenceState.appendTokenWithCopy_projects (π := fun _ : ℕ → ℕ → V => ()) grow copy
    (f := Copying.copier) (g := Copying.silent) (fun c _ _ _ _ => by cases c <;> rfl)
    ((w.pool, s), w.store)
  rw [show ((w.pool, s), ()) = Prod.map id (fun _ : ℕ → ℕ → V => ()) ((w.pool, s), w.store) from rfl,
    ← h]
  cases SequenceState.appendTokenWithCopy grow (copy.map Copying.copier) ((w.pool, s), w.store) <;>
    rfl

theorem withCopy_family {token : Token} {grow : ℕ → Option Exn} {copy : Option (Copying V)}
    (hi : w.requests[i]? = some r)
    (h : step value here (.appendTokenWithCopy i token grow copy) w = some w') :
    w'.family = w.family.set i (mapState Prod.fst (SequenceState.appendTokenWithCopy grow
      (copy.map Copying.copier) ((w.pool, r.sequence), w.store))) := by
  obtain ⟨r', hi', h⟩ := Option.bind_eq_some_iff.mp h
  obtain rfl : r = r' := Option.some.inj (hi.symm.trans hi')
  cases hc : SequenceState.appendTokenWithCopy grow (copy.map Copying.copier)
      ((w.pool, r.sequence), w.store) <;>
    rw [hc] at h <;> cases h <;> exact family_appended _ _ _

/-- **The calls of a world are the calls of a family.** -/
theorem step_family (h : step value here a w = some w') :
    (a.call.elim some (Family.step here)) w.family = some w'.family := by
  cases a with
  | create requestId =>
    cases h
    simp only [Action.call, Option.elim, Family.step, World.family, List.map_append, List.map_cons,
      List.map_nil]
  | appendTokens i tokens grow =>
    obtain ⟨r, hi, h⟩ := Option.bind_eq_some_iff.mp h
    cases h
    exact Option.bind_eq_some_iff.mpr ⟨_, family_at hi, by rw [family_appended]; rfl⟩
  | appendToken i token grow =>
    obtain ⟨r, hi, h⟩ := Option.bind_eq_some_iff.mp h
    cases h
    exact Option.bind_eq_some_iff.mpr ⟨_, family_at hi, by rw [family_appended]; rfl⟩
  | appendTokenWithCopy i token grow copy =>
    obtain ⟨r, hi, -⟩ := Option.bind_eq_some_iff.mp h
    refine Option.bind_eq_some_iff.mpr ⟨_, family_at hi, ?_⟩
    rw [withCopy_family hi h, withCopy_silent]
    cases hc : SequenceState.appendTokenWithCopy grow (copy.map Copying.silent)
        ((w.pool, r.sequence), ()) <;>
      simp [World.family, Family.set, mapState, hc]
  | forkShared i requestId grow =>
    obtain ⟨r, hi, h⟩ := Option.bind_eq_some_iff.mp h
    refine Option.bind_eq_some_iff.mpr ⟨_, family_at hi, ?_⟩
    cases hc : SequenceState.forkShared grow requestId r.sequence w.pool <;>
      rw [hc] at h <;> cases h <;> simp [World.family, hc]
  | moveConstruct i =>
    obtain ⟨r, hi, h⟩ := Option.bind_eq_some_iff.mp h
    cases h
    exact Option.bind_eq_some_iff.mpr ⟨_, family_at hi, by simp [World.family, List.map_set]⟩
  | moveAssign target source =>
    obtain ⟨t, hj, h⟩ := Option.bind_eq_some_iff.mp h
    obtain ⟨r, hi, h⟩ := Option.bind_eq_some_iff.mp h
    refine Option.bind_eq_some_iff.mpr ⟨_, family_at hj,
      Option.bind_eq_some_iff.mpr ⟨_, family_at hi, ?_⟩⟩
    split_ifs at h ⊢ with he
    · cases h
      rfl
    · cases hc : SequenceState.moveAssign r.sequence (w.pool, t.sequence) <;>
        rw [hc] at h <;> cases h <;> simp [World.family, hc, List.map_set]
  | destroy i =>
    obtain ⟨r, hi, h⟩ := Option.bind_eq_some_iff.mp h
    refine Option.bind_eq_some_iff.mpr ⟨_, family_at hi, ?_⟩
    cases hc : BlockTable.clear (w.pool, r.sequence.blockTable) <;>
      rw [hc] at h <;> cases h <;> simp [World.family, hc, List.eraseIdx_map]
  | attachCachedPrefix i hasher reserve grow tokens =>
    obtain ⟨r, hi, h⟩ := Option.bind_eq_some_iff.mp h
    refine Option.bind_eq_some_iff.mpr ⟨_, family_at hi, ?_⟩
    cases hc : PrefixCache.attachCachedPrefix ⟨here⟩ hasher reserve grow tokens
        (w.pool, r.sequence) <;>
      rw [hc] at h <;> cases h <;> simp [World.family, Family.set, hc, List.map_set]
  | publishComputedBlock i hasher k p =>
    obtain ⟨r, hi, h⟩ := Option.bind_eq_some_iff.mp h
    refine Option.bind_eq_some_iff.mpr ⟨_, family_at hi, ?_⟩
    cases hc : PrefixCache.publishComputedBlock ⟨here⟩ hasher k p (w.pool, r.sequence) <;>
      rw [hc] at h <;> cases h <;> simp [World.family, Family.set, hc, List.map_set]
  | otherAllocate =>
    simp only [step] at h
    cases hc : PhysicalBlockPool.allocate w.pool <;>
      rw [hc] at h <;> cases h <;> simp [Action.call, Family.step, Family.other, World.family, hc]
  | otherFree g =>
    simp only [step] at h
    split_ifs at h with hg
    cases hc : PhysicalBlockPool.free g w.pool <;>
      rw [hc] at h <;> cases h <;> simp [Action.call, Family.step, Family.other, World.family, hc, hg]
  | otherWrite g page =>
    simp only [step] at h
    split_ifs at h
    cases h
    rfl

theorem allowed_call (ha : Allowed H w a) : ∀ b ∈ a.call, Family.Allowed H w.family b := by
  intro b hb
  cases a <;> cases hb
  case attachCachedPrefix => exact ha
  case publishComputedBlock => exact ha.1
  case otherAllocate | otherFree => exact fun _ _ h => nomatch h
  all_goals exact trivial

/-- **The ledger and the tables in a step.** -/
theorem intact_step (hw : Family.Intact H here 0 w.family) (ha : Allowed H w a)
    (h : step value here a w = some w') : Family.Intact H here 0 w'.family := by
  have hf := step_family h
  cases hb : a.call with
  | none =>
    rw [hb] at hf
    exact Option.some.inj hf ▸ hw
  | some b =>
    rw [hb] at hf
    exact Family.step_intact hw (allowed_call ha b hb) hf

theorem intact_start (hs : Start H w) : Family.Intact H here 0 w.family :=
  Family.start_intact ⟨hs.1, by rw [World.family, hs.2.1]; rfl, hs.2.2⟩

end Projection

end KVFlux.V2
