import KVFlux.V2.SequenceLifecycle

/-!
# Requests beside other holders

* `Family.cons`, **`Family.step_cons`**: the calls of a family do not see a sequence in front.
* `Serving`, `Action`, `step`: a request, the calls on it and the calls of the other holders of pages
  of its pool, who may fork its sequence.
* `Inv`: the ledger of the pool lists the references of the request and of the others.
* **`request_whole`**: in every reachable state a call on the request does all of its work, nothing,
  or ends the request. `request_whole_served`: a request with all three.
-/

namespace KVFlux.V2

open Fallible BlockManager

/-! ## One more sequence in a family -/

namespace Family

/-- The family with one more sequence in front. -/
def cons (s : SequenceState) (f : Family) : Family := { f with sequences := s :: f.sequences }

/-- The same call behind one more sequence. -/
def Action.behind : Action → Action
  | .create requestId => .create requestId
  | .appendTokens i count grow => .appendTokens (i + 1) count grow
  | .appendToken i grow => .appendToken (i + 1) grow
  | .appendTokenWithCopy i grow copy => .appendTokenWithCopy (i + 1) grow copy
  | .forkShared i requestId grow => .forkShared (i + 1) requestId grow
  | .moveConstruct i => .moveConstruct (i + 1)
  | .moveAssign target source => .moveAssign (target + 1) (source + 1)
  | .destroy i => .destroy (i + 1)
  | .attachCachedPrefix i hasher reserve grow tokens =>
    .attachCachedPrefix (i + 1) hasher reserve grow tokens
  | .publishComputedBlock i hasher logicalBlock p =>
    .publishComputedBlock (i + 1) hasher logicalBlock p
  | .other hasher op => .other hasher op

variable {f : Family} {a : Action} {H : Tokens → UInt64}

theorem Allowed.behind (ha : Allowed H f a) (f' : Family) : Allowed H f' a.behind := by
  cases a <;> exact ha

theorem cons_set {α : Type} (s : SequenceState) (f : Family) (i : ℕ)
    (r : EStateM.Result Exn (PhysicalBlockPool × SequenceState) α) :
    (f.cons s).set (i + 1) r = (f.set i r).cons s := by
  cases r <;> rfl

/-- **A call does not see a sequence in front.** -/
theorem step_cons (here : ℕ) (s : SequenceState) (a : Action) (f : Family) :
    step here a.behind (f.cons s) = (step here a f).map (cons s) := by
  have hat : ∀ i, (f.cons s).sequences[i + 1]? = f.sequences[i]? := fun _ => rfl
  have hpool : (f.cons s).pool = f.pool := rfl
  cases a with
  | create requestId => rfl
  | appendTokens i count grow =>
    simp only [step, Action.behind, hat, hpool, Option.bind_eq_bind, cons_set]
    cases f.sequences[i]? <;> rfl
  | appendToken i grow =>
    simp only [step, Action.behind, hat, hpool, Option.bind_eq_bind, cons_set]
    cases f.sequences[i]? <;> rfl
  | appendTokenWithCopy i grow copy =>
    simp only [step, Action.behind, hat, hpool, Option.bind_eq_bind, cons_set]
    cases f.sequences[i]? with
    | none => rfl
    | some t =>
      simp only [Option.bind_some]
      cases SequenceState.appendTokenWithCopy grow copy ((f.pool, t), ()) <;> rfl
  | forkShared i requestId grow =>
    simp only [step, Action.behind, hat, hpool, Option.bind_eq_bind]
    cases f.sequences[i]? with
    | none => rfl
    | some t =>
      simp only [Option.bind_some]
      cases SequenceState.forkShared grow requestId t f.pool <;> rfl
  | moveConstruct i =>
    simp only [step, Action.behind, hat, Option.bind_eq_bind]
    cases f.sequences[i]? <;> rfl
  | moveAssign target source =>
    simp only [step, Action.behind, hat, hpool, Option.bind_eq_bind, Nat.add_right_cancel_iff]
    cases f.sequences[target]? with
    | none => rfl
    | some t =>
      cases f.sequences[source]? with
      | none => rfl
      | some t' =>
        simp only [Option.bind_some]
        by_cases he : target = source
        · rw [if_pos he, if_pos he]
          rfl
        · rw [if_neg he, if_neg he]
          cases SequenceState.moveAssign t' (f.pool, t) <;> rfl
  | destroy i =>
    simp only [step, Action.behind, hat, hpool, Option.bind_eq_bind]
    cases f.sequences[i]? with
    | none => rfl
    | some t =>
      simp only [Option.bind_some]
      cases BlockTable.clear (f.pool, t.blockTable) <;> rfl
  | attachCachedPrefix i hasher reserve grow tokens =>
    simp only [step, Action.behind, hat, hpool, Option.bind_eq_bind, cons_set]
    cases f.sequences[i]? <;> rfl
  | publishComputedBlock i hasher logicalBlock p =>
    simp only [step, Action.behind, hat, hpool, Option.bind_eq_bind, cons_set]
    cases f.sequences[i]? <;> rfl
  | other hasher op =>
    simp only [step, Action.behind, cons]
    cases op with
    | allocate =>
      simp only [other]
      cases PhysicalBlockPool.allocate f.pool <;> rfl
    | retain g =>
      simp only [other]
      split_ifs
      · cases PhysicalBlockPool.retain g f.pool <;> rfl
      · rfl
    | free g =>
      simp only [other]
      split_ifs
      · cases PhysicalBlockPool.free g f.pool <;> rfl
      · rfl
    | publish g p =>
      simp only [other]
      split_ifs <;> rfl
    | lookup p =>
      simp only [other]
      cases PhysicalBlockPool.lookup hasher p f.pool with
      | ok found pool => cases found <;> rfl
      | error e pool => rfl

end Family

/-! ## Beside other holders -/

/-- A request, the other holders of pages of its pool, and the memory of the device. -/
structure Serving (E F : Type) where
  family : Family
  lifecycle : SequenceLifecycle
  memory : DeviceMemory E F

namespace Serving

variable {E F D : Type}

/-- The calls on the request and on the other holders, who may write anywhere. -/
inductive Action (E F : Type)
  | prefill (faults : RequestFaults E) (tokenCount : ℕ) (buffers : RequestBuffers)
  | decode (faults : RequestFaults E) (buffers : RequestBuffers)
  | finish
  | fork (requestId : ℕ) (grow : ℕ → Option Exn)
  | other (action : Family.Action)
  | write (memory : DeviceMemory E F)

/-- The state after a call on the request. -/
def after {α : Type} (w : Serving E F) :
    EStateM.Result Exn ((PhysicalBlockPool × SequenceLifecycle) × DeviceMemory E F) α →
    Serving E F
  | .ok _ ((pool, l), memory) | .error _ ((pool, l), memory) =>
    { family := { w.family with pool := pool }, lifecycle := l, memory := memory }

/-- The state after another holder has forked the sequence of the request. -/
def forked (w : Serving E F) : EStateM.Result Exn PhysicalBlockPool SequenceState → Serving E F
  | .ok s pool => { w with
      family := { w.family with pool := pool, sequences := w.family.sequences ++ [s] } }
  | .error _ pool => { w with family := { w.family with pool := pool } }

/-- One call. -/
def step (ops : Arithmetic E F D) (storage : PagedKVStorage) (here : ℕ) :
    Action E F → Serving E F → Option (Serving E F)
  | .prefill faults tokenCount buffers, w =>
    some (w.after (SequenceLifecycle.prefill ops storage faults tokenCount buffers
      ((w.family.pool, w.lifecycle), w.memory)))
  | .decode faults buffers, w =>
    some (w.after (SequenceLifecycle.decode ops storage faults buffers
      ((w.family.pool, w.lifecycle), w.memory)))
  | .finish, w =>
    some (w.after (onFst SequenceLifecycle.finish ((w.family.pool, w.lifecycle), w.memory)))
  | .fork requestId grow, w =>
    match w.lifecycle.sequenceRef with
    | .error _ => some w
    | .ok s => some (w.forked (SequenceState.forkShared grow requestId s w.family.pool))
  | .other action, w => (Family.step here action w.family).map fun f => { w with family := f }
  | .write memory, w => some { w with memory := memory }

/-- A new request on a pool in use. -/
def Start (H : Tokens → UInt64) (storage : PagedKVStorage) (here : ℕ) (w : Serving E F) : Prop :=
  Transition.Reachable (Family.step here) (Family.Start H) (Family.Allowed H) w.family ∧
  ∃ requestId queryHeads, SequenceLifecycle.make requestId here w.family.pool storage queryHeads =
    .ok w.lifecycle

def Allowed (H : Tokens → UInt64) (w : Serving E F) : Action E F → Prop
  | .other action => Family.Allowed H w.family action
  | _ => True

/-- The references of the other holders. -/
def beside (w : Serving E F) : Multiset BlockHandle :=
  Family.tables w.family.sequences + w.family.others

variable {H : Tokens → UInt64} {here : ℕ} {w w' : Serving E F} {storage : PagedKVStorage}
  {ops : Arithmetic E F D} {a : Action E F} {s : SequenceState}

/-- **The invariant.** -/
structure Inv (H : Tokens → UInt64) (here : ℕ) (w : Serving E F) : Prop where
  intact : Family.Intact H here w.lifecycle.owned w.family
  proper : ∀ s, w.lifecycle.sequence = some s → Family.Proper here w.family.pool s

theorem Inv.whole (hi : Inv H here w) :
    w.lifecycle.Whole H here w.beside w.family.pool where
  sound := add_comm w.beside _ ▸ hi.intact.sound
  proper := hi.proper

/-- The sequence of the request as a member of the family. -/
theorem Inv.cons (hi : Inv H here w) (hl : w.lifecycle.sequence = some s) :
    Family.Intact H here 0 (w.family.cons s) where
  sound := by
    have hs := hi.whole.view hl
    have htables : Family.tables (s :: w.family.sequences) =
        s.blockTable.blocks + Family.tables w.family.sequences := by
      unfold Family.tables
      rw [List.map_cons, List.sum_cons]
    show Sound H w.family.pool (Family.tables (s :: w.family.sequences) + w.family.others + 0)
    rw [htables, add_zero, add_assoc]
    exact hs
  proper r hr := by
    rcases List.mem_cons.mp hr with rfl | hr
    · exact hi.proper r hl
    · exact hi.intact.proper r hr

/-- The request and the pool change, and the other holders keep their references. -/
theorem Inv.replace {pool : PhysicalBlockPool} {l : SequenceLifecycle}
    {memory : DeviceMemory E F} (hi : Inv H here w) (hs : Sound H pool (l.owned + w.beside))
    (hshrink : Shrinks w.family.pool pool)
    (hp : ∀ s, l.sequence = some s → Family.Proper here pool s) :
    Inv H here ⟨{ w.family with pool := pool }, l, memory⟩ where
  intact := ⟨add_comm l.owned _ ▸ hs, fun s hs => (hi.intact.proper s hs).onPool hshrink.blockSize⟩
  proper := hp

/-- A call with an outcome keeps the invariant. -/
theorem Inv.after {α : Type} {count : ℕ} (hi : Inv H here w)
    {r : EStateM.Result Exn ((PhysicalBlockPool × SequenceLifecycle) × DeviceMemory E F) α}
    (hr : SequenceLifecycle.Outcome H w.beside w.family.pool w.lifecycle w.memory count r) :
    Inv H here (w.after r) := by
  cases r with
  | ok b st =>
    obtain ⟨⟨pool, l⟩, memory⟩ := st
    obtain ⟨s, s', hl, hl', hgrown⟩ := hr
    obtain rfl : l = { w.lifecycle with sequence := some s', prefilled := true } := hl'
    refine hi.replace hgrown.sound hgrown.shrinks fun s'' hs'' => ?_
    obtain rfl := Option.some.inj hs''
    have hold := hi.proper s hl
    exact ⟨hgrown.blockSize.trans (hold.blockSize.trans hgrown.shrinks.blockSize.symm),
      hgrown.covered, fun b hb => hold.pool b (hgrown.pool ▸ hb)⟩
  | error e st =>
    obtain ⟨⟨pool, l⟩, memory⟩ := st
    rcases hr with ⟨hst, -⟩ | hended
    · cases hst
      exact hi
    · have hnone : l.owned = 0 := SequenceLifecycle.owned_none hended.finished
      refine hi.replace (by rw [hnone, zero_add]; exact hended.sound) hended.shrinks
        fun s hs => ?_
      rw [Option.isNone_iff_eq_none.mp hended.finished] at hs
      cases hs

/-- A fork of the sequence of the request. -/
theorem Inv.forked (hi : Inv H here w) (hl : w.lifecycle.sequence = some s) (requestId : ℕ)
    (grow : ℕ → Option Exn) :
    Inv H here (w.forked (SequenceState.forkShared grow requestId s w.family.pool)) := by
  have hold := hi.proper s hl
  have howned := SequenceLifecycle.owned_eq hl
  rcases SequenceState.forkShared_cases (hi.whole.view hl) grow requestId with
    ⟨a, pool, hpool, hrun, hs, hshrink⟩ | ⟨err, pool, hrun, hs, hshrink⟩
  · rw [hrun]
    refine ⟨⟨?_, fun r hr => ?_⟩, fun r hr => (hi.proper r hr).onPool hshrink.blockSize⟩
    · show Sound H pool (Family.tables (w.family.sequences ++ [_]) + w.family.others +
        w.lifecycle.owned)
      rw [Family.tables_append, Family.tables_singleton, howned]
      convert hs using 1
      unfold beside
      abel
    · rcases List.mem_append.mp hr with hr | hr
      · exact (hi.intact.proper r hr).onPool hshrink.blockSize
      · obtain rfl := List.mem_singleton.mp hr
        exact ⟨hshrink.blockSize.symm, by
          have hc := hold.covered
          unfold SequenceState.Covered SequenceState.neededBlocks at hc ⊢
          rwa [hold.blockSize] at hc, hold.pool⟩
  · rw [hrun]
    rw [← howned] at hs
    exact hi.replace hs hshrink fun r hr => (hi.proper r hr).onPool hshrink.blockSize

theorem start_inv (h : Start H storage here w) : Inv H here w := by
  obtain ⟨hr, requestId, queryHeads, hmake⟩ := h
  have hintact := Family.intact_of_reachable hr
  have hl := SequenceLifecycle.make_ok hmake
  refine ⟨?_, fun s hs => ?_⟩
  · rw [hl]
    exact hintact
  · rw [hl] at hs
    obtain rfl := Option.some.inj hs
    exact (hintact.create requestId).proper (.new requestId here w.family.pool)
      (List.mem_append_right _ (List.mem_singleton_self _))

/-- **The step lemma.** -/
theorem step_inv (hi : Inv H here w) (ha : Allowed H w a)
    (h : step ops storage here a w = some w') : Inv H here w' := by
  cases a with
  | prefill faults tokenCount buffers =>
    cases h
    exact hi.after (hi.whole.prefill_outcome ops storage faults tokenCount buffers w.memory)
  | decode faults buffers =>
    cases h
    exact hi.after (hi.whole.decode_outcome ops storage faults buffers w.memory)
  | finish =>
    cases h
    obtain ⟨pool, l, hrun, hended⟩ := SequenceLifecycle.finish_ended hi.whole.sound (.refl _)
    have hnone : l.owned = 0 := SequenceLifecycle.owned_none hended.finished
    rw [onFst_apply, hrun]
    refine hi.replace (by rw [hnone, zero_add]; exact hended.sound) hended.shrinks fun s hs => ?_
    rw [Option.isNone_iff_eq_none.mp hended.finished] at hs
    cases hs
  | fork requestId grow =>
    simp only [step] at h
    cases hl : w.lifecycle.sequence with
    | none =>
      rw [SequenceLifecycle.sequenceRef_none hl] at h
      cases h
      exact hi
    | some s =>
      rw [SequenceLifecycle.sequenceRef_some hl] at h
      cases h
      exact hi.forked hl requestId grow
  | other action =>
    obtain ⟨f, hf, rfl⟩ := Option.map_eq_some_iff.mp h
    refine ⟨Family.step_intact hi.intact ha hf, fun s hs => ?_⟩
    -- the sequence of the request is one more member of the family
    have hbehind := (Family.step_cons here s action w.family).trans
      (congrArg (Option.map (Family.cons s)) hf)
    have hall := Family.step_intact (hi.cons hs) (Family.Allowed.behind (f := w.family) ha _)
      hbehind
    exact hall.proper s List.mem_cons_self
  | write memory =>
    cases h
    exact ⟨hi.intact, hi.proper⟩

theorem inv_of_reachable
    (hr : Transition.Reachable (step ops storage here) (Start H storage here) (Allowed H) w) :
    Inv H here w :=
  hr.invariant (fun _ h => start_inv h) fun _ _ _ _ hi ha h => step_inv hi ha h

/-- **A request is whole or ended** in every reachable state: a `prefill` or `decode` has appended
exactly its tokens, or was refused and has changed nothing, or has ended the request and given all
its references back; `finish` ends it; and then every call throws. The other holders have their
references throughout. -/
theorem request_whole
    (hr : Transition.Reachable (step ops storage here) (Start H storage here) (Allowed H) w) :
    (∀ faults tokenCount buffers, SequenceLifecycle.Outcome H w.beside w.family.pool w.lifecycle
      w.memory tokenCount (SequenceLifecycle.prefill ops storage faults tokenCount buffers
        ((w.family.pool, w.lifecycle), w.memory))) ∧
    (∀ faults buffers, SequenceLifecycle.Outcome H w.beside w.family.pool w.lifecycle w.memory 1
      (SequenceLifecycle.decode ops storage faults buffers
        ((w.family.pool, w.lifecycle), w.memory))) ∧
    (∃ pool l, SequenceLifecycle.finish (w.family.pool, w.lifecycle) = .ok () (pool, l) ∧
      SequenceLifecycle.Ended H w.beside w.family.pool pool l) ∧
    (w.lifecycle.finished = true → ∀ faults tokenCount buffers,
      SequenceLifecycle.prefill ops storage faults tokenCount buffers
        ((w.family.pool, w.lifecycle), w.memory) = .error
          (.logicError "request cannot prefill again") ((w.family.pool, w.lifecycle), w.memory) ∧
      SequenceLifecycle.decode ops storage faults buffers
        ((w.family.pool, w.lifecycle), w.memory) = .error
          (.logicError "request must prefill before decode")
          ((w.family.pool, w.lifecycle), w.memory) ∧
      w.lifecycle.sequenceRef = .error (.logicError "request has finished")) := by
  have hi := inv_of_reachable hr
  refine ⟨fun faults tokenCount buffers => ?_, fun faults buffers => ?_, ?_,
    fun hl faults tokenCount buffers => ?_⟩
  · exact hi.whole.prefill_outcome ops storage faults tokenCount buffers w.memory
  · exact hi.whole.decode_outcome ops storage faults buffers w.memory
  · exact SequenceLifecycle.finish_ended hi.whole.sound (.refl _)
  · exact SequenceLifecycle.refused_of_finished hl ops storage faults tokenCount buffers w.memory

/-! ## What a call has done -/

section Outcome

variable {α : Type} {count : ℕ}
  {r : EStateM.Result Exn ((PhysicalBlockPool × SequenceLifecycle) × DeviceMemory E F) α}
  (ho : SequenceLifecycle.Outcome H w.beside w.family.pool w.lifecycle w.memory count r)

include ho

theorem grown_of_returned (hr : (returned r).isSome = true) : ∃ s s',
    w.lifecycle.sequence = some s ∧ (w.after r).lifecycle.sequence = some s' ∧
    SequenceLifecycle.Grown H w.beside w.family.pool s count (w.after r).family.pool s' := by
  cases r with
  | error e st => cases hr
  | ok b st =>
    obtain ⟨⟨pool, l⟩, memory⟩ := st
    obtain ⟨s, s', hl, hl', hgrown⟩ := ho
    exact ⟨s, s', hl, congrArg SequenceLifecycle.sequence hl', hgrown⟩

theorem ended_of_finished (hl : w.lifecycle.finished = false)
    (hl' : (w.after r).lifecycle.finished = true) :
    SequenceLifecycle.Ended H w.beside w.family.pool (w.after r).family.pool
      (w.after r).lifecycle := by
  cases r with
  | ok b st =>
    obtain ⟨⟨pool, l⟩, memory⟩ := st
    obtain ⟨s, s', -, hgrows, -⟩ := ho
    rw [show (w.after (.ok b ((pool, l), memory))).lifecycle = _ from hgrows] at hl'
    cases hl'
  | error e st =>
    obtain ⟨⟨pool, l⟩, memory⟩ := st
    rcases ho with ⟨hst, -⟩ | hended
    · cases hst
      rw [show w.lifecycle.finished = true from hl'] at hl
      cases hl
    · exact hended

end Outcome

/-! ## A short request -/

/-- Whole numbers. -/
def whole : Arithmetic ℕ ℕ ℕ where
  toFloat n := n
  widen n := n
  narrow n := n
  add := (· + ·)
  sub := (· - ·)
  mul := (· * ·)
  div := (· / ·)
  exp n := 2 ^ n
  sqrt := Nat.sqrt
  greater a b := decide (b < a)
  negativeInfinity := 0
  zero := 0
  one := 1
  ofSize n := n
  isFinite _ := true

/-- A cache of three pages of two tokens. -/
def threePages : PagedKVStorage :=
  ⟨7, ⟨3, 1, 2, 1, .Float32, 4, 8, 24, 48, 6⟩,
    ⟨BlockManager.init 6 2, 8, 48, 4096, fun _ => false, fun _ => false⟩⟩

/-- A new request on it. -/
def newRequest : Serving ℕ ℕ where
  family := ⟨BlockManager.init 3 2, [], 0⟩
  lifecycle := ⟨some (.new 1 7 (BlockManager.init 3 2)), 1, false⟩
  memory a := match a with
    | .element _ | .float _ | .word _ _ => (0 : ℕ)

def fourBuffers : RequestBuffers := ⟨some 0, some 100, some 200, some 300⟩

/-- What is seen of a request, and the references of the three pages. -/
structure Seen where
  finished : Bool
  tokens : ℕ
  pages : List ℕ
  refs : List ℕ
deriving DecidableEq

def seen (w : Serving ℕ ℕ) : Seen where
  finished := w.lifecycle.finished
  tokens := w.lifecycle.sequence.elim 0 SequenceState.numTokens
  pages := w.lifecycle.sequence.elim [] fun s => s.blockTable.blocks.map BlockHandle.id
  refs := (List.range 3).map fun i => (w.family.pool.slots i).refs

/-- Whether the next `prefill` and the next `decode` would return. -/
def returns (w : Serving ℕ ℕ) : List Bool :=
  [(returned (SequenceLifecycle.prefill whole threePages {} 3 fourBuffers
      ((w.family.pool, w.lifecycle), w.memory))).isSome,
    (returned (SequenceLifecycle.decode whole threePages {} fourBuffers
      ((w.family.pool, w.lifecycle), w.memory))).isSome]

theorem newRequest_start : Start (fun _ => 0) threePages 7 newRequest :=
  ⟨Family.reachable_init (by decide) (by decide), 1, 1, rfl⟩

/-- A request prefills, another holder forks its sequence, a `decode` copies the shared last page,
and the next one finds no free page and ends the request. -/
theorem request_whole_served : ∃ w₁ w₂ w₃ w₄ : Serving ℕ ℕ,
    step whole threePages 7 (.prefill {} 3 fourBuffers) newRequest = some w₁ ∧
    step whole threePages 7 (.fork 2 fun _ => none) w₁ = some w₂ ∧
    step whole threePages 7 (.decode {} fourBuffers) w₂ = some w₃ ∧
    step whole threePages 7 (.decode {} fourBuffers) w₃ = some w₄ ∧
    [w₁, w₂, w₃, w₄].map seen = [⟨false, 3, [0, 1], [1, 1, 0]⟩, ⟨false, 3, [0, 1], [2, 2, 0]⟩,
      ⟨false, 4, [0, 2], [2, 1, 1]⟩, ⟨true, 0, [], [1, 1, 0]⟩] ∧
    (∃ s s', newRequest.lifecycle.sequence = some s ∧ w₁.lifecycle.sequence = some s' ∧
      SequenceLifecycle.Grown (fun _ => 0) newRequest.beside newRequest.family.pool s 3
        w₁.family.pool s') ∧
    (∃ s s', w₂.lifecycle.sequence = some s ∧ w₃.lifecycle.sequence = some s' ∧
      SequenceLifecycle.Grown (fun _ => 0) w₂.beside w₂.family.pool s 1 w₃.family.pool s') ∧
    SequenceLifecycle.Ended (fun _ => 0) w₃.beside w₃.family.pool w₄.family.pool w₄.lifecycle ∧
    w₄.lifecycle.sequenceRef = .error (.logicError "request has finished") := by
  have hstate : ((step whole threePages 7 (.prefill {} 3 fourBuffers) newRequest).bind fun w₁ =>
      (step whole threePages 7 (.fork 2 fun _ => none) w₁).bind fun w₂ =>
      (step whole threePages 7 (.decode {} fourBuffers) w₂).bind fun w₃ =>
      (step whole threePages 7 (.decode {} fourBuffers) w₃).map fun w₄ =>
        ([w₁, w₂, w₃, w₄].map seen, [newRequest, w₂].map returns)) =
      some ([⟨false, 3, [0, 1], [1, 1, 0]⟩, ⟨false, 3, [0, 1], [2, 2, 0]⟩,
        ⟨false, 4, [0, 2], [2, 1, 1]⟩, ⟨true, 0, [], [1, 1, 0]⟩],
        [[true, false], [false, true]]) := by
    decide +kernel
  obtain ⟨w₁, h₁, hstate⟩ := Option.bind_eq_some_iff.mp hstate
  obtain ⟨w₂, h₂, hstate⟩ := Option.bind_eq_some_iff.mp hstate
  obtain ⟨w₃, h₃, hstate⟩ := Option.bind_eq_some_iff.mp hstate
  obtain ⟨w₄, h₄, hstate⟩ := Option.map_eq_some_iff.mp hstate
  obtain ⟨hseen, hreturns⟩ := Prod.mk.inj hstate
  obtain ⟨hprefill, hdecode⟩ := List.cons.inj hreturns
  have hprefill := (List.cons.inj hprefill).1
  have hdecode := (List.cons.inj (List.cons.inj (List.cons.inj hdecode).1).2).1
  obtain ⟨-, -, hseen₃, hseen₄⟩ : seen w₁ = _ ∧ seen w₂ = _ ∧ seen w₃ = _ ∧ seen w₄ = _ := by
    simpa only [List.map_cons, List.map_nil, List.cons.injEq, and_true] using hseen
  have hr₀ : Transition.Reachable (step whole threePages 7) (Start (fun _ => 0) threePages 7)
      (Allowed fun _ => 0) newRequest := .start newRequest_start
  have hr₂ := (hr₀.step (by exact trivial) h₁).step (by exact trivial) h₂
  have hr₃ := hr₂.step (by exact trivial) h₃
  have hr₄ := hr₃.step (by exact trivial) h₄
  refine ⟨w₁, w₂, w₃, w₄, h₁, h₂, h₃, h₄, hseen, ?_, ?_, ?_, ?_⟩
  · obtain rfl := Option.some.inj h₁
    exact grown_of_returned ((request_whole hr₀).1 {} 3 fourBuffers) hprefill
  · obtain rfl := Option.some.inj h₃
    exact grown_of_returned ((request_whole hr₂).2.1 {} fourBuffers) hdecode
  · obtain rfl := Option.some.inj h₄
    exact ended_of_finished ((request_whole hr₃).2.1 {} fourBuffers) (congrArg Seen.finished hseen₃)
      (congrArg Seen.finished hseen₄)
  · exact ((request_whole hr₄).2.2.2 (congrArg Seen.finished hseen₄) {} 3 fourBuffers).2.2

end Serving

end KVFlux.V2
