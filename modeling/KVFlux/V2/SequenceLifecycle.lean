import KVFlux.Lib.Postcondition
import KVFlux.V2.Family
import KVFlux.V2.PagedAttention

/-!
# The life of one request

A request owns a sequence until it finishes: `prefill` once, then `decode` for each token.

* `SequenceLifecycle`, `make`, `prefill`, `decode`, `finish`, `sequenceRef`: the calls.
  `RequestFaults` is what goes wrong in one call.
* `copyBlock`, `appendTokenCow`: a shared tail page is copied before it is written.
* `Outcome`: a call has grown the sequence, was refused, or has ended the request.
* **`Whole.prefill_outcome`**, **`Whole.decode_outcome`**, **`finish_ended`**: what the calls do.
-/

namespace KVFlux.V2

open Fallible BlockManager

/-! ## Copying a page -/

/-- What fails in `copy_block`; a failed wait leaves anything on the page. -/
structure PageCopy (E : Type) where
  guard : Option GuardFault := none
  key : Option String := none
  value : Option String := none
  wait : Option (String × (ℕ → E)) := none

/-- The elements of a page get the values `f`, by their distance from its start. -/
def fillPage {E F : Type} (start bytes : ℕ) (f : ℕ → E) (memory : DeviceMemory E F) :
    DeviceMemory E F
  | .element a => if start ≤ a ∧ a < start + bytes then f (a - start) else memory (.element a)
  | .float a => memory (.float a)
  | .word array i => memory (.word array i)

/-- A copy from device to device. -/
def copyPage {E F : Type} (source destination bytes : ℕ) (memory : DeviceMemory E F) :
    DeviceMemory E F :=
  fillPage destination bytes (fun i => memory (.element (source + i))) memory

namespace PagedKVStorage

instance (storage : PagedKVStorage) (table : BlockTable) : Decidable (storage.usesPool table) :=
  inferInstanceAs (Decidable (_ = _))

/-- `copy_block(source, destination)`. -/
def copyBlock {E F : Type} (storage : PagedKVStorage) (copy : PageCopy E) :
    SequenceState.BlockCopier (DeviceMemory E F) := fun pool source destination => do
  let sourceId ← check (pool.id source)
  let destinationId ← check (pool.id destination)
  let refs ← check (pool.refCount destination)
  let published ← check (pool.isPublished destination)
  ensure (¬ (sourceId = destinationId ∨ refs ≠ 1 ∨ published = true))
    (.invalidArgument "copy destination must be a private, unpublished page")
  check (deviceGuard copy.guard)
  let bytes := storage.layout.pageBytes
  let keyTo ← check (storage.pageAddress pool .Key destination)
  let keyFrom ← check (storage.pageAddress pool .Key source)
  check (cudaCheck "copy K page" copy.key)
  modify (copyPage keyFrom keyTo bytes)
  let valueTo ← check (storage.pageAddress pool .Value destination)
  let valueFrom ← check (storage.pageAddress pool .Value source)
  check (cudaCheck "copy V page" copy.value)
  modify (copyPage valueFrom valueTo bytes)
  match copy.wait with
  | none => pure ()
  | some (message, garbage) => do
    modify fun memory => fillPage valueTo bytes garbage (fillPage keyTo bytes garbage memory)
    throw (cudaError "synchronize KV page copy" message)

end PagedKVStorage

/-- `append_token_cow(storage, sequence)`. -/
def appendTokenCow {σ : Type} (storage : PagedKVStorage) (grow : ℕ → Option Exn)
    (copier : SequenceState.BlockCopier σ) :
    Call ((PhysicalBlockPool × SequenceState) × σ) TokenLocation := do
  let ((_, s), _) ← get
  ensure (storage.usesPool s.blockTable ∧ storage.layout.blockSize = s.blockSize)
    (.invalidArgument "sequence and KV storage must use one physical pool")
  SequenceState.appendTokenWithCopy grow (some copier)

/-! ## The request -/

/-- `sequence` is absent once the request has finished. -/
structure SequenceLifecycle where
  sequence : Option SequenceState
  queryHeads : ℕ
  prefilled : Bool := false

/-- The device buffers of a call; a null pointer is `none`. -/
structure RequestBuffers where
  key : Option ℕ
  value : Option ℕ
  query : Option ℕ
  output : Option ℕ

/-- What goes wrong in one call: the growth of the table and of the list of writes, the copy of a
page, the write kernel and the attention kernel. -/
structure RequestFaults (E : Type) where
  grow : ℕ → Option Exn := fun _ => none
  reserve : Option Exn := none
  copy : PageCopy E := {}
  write : Cuda := {}
  attention : Cuda := {}

namespace SequenceLifecycle

variable {E F D σ α : Type}

/-- The constructor; `here` is the address of the pool. -/
def make (requestId here : ℕ) (pool : PhysicalBlockPool) (storage : PagedKVStorage)
    (queryHeads : ℕ) : Except Exn SequenceLifecycle := do
  let s := SequenceState.new requestId here pool
  if ¬ storage.usesPool s.blockTable ∨ queryHeads = 0 ∨
      queryHeads % storage.layout.numKvHeads ≠ 0 then
    throw (.invalidArgument "invalid sequence lifecycle pool or query head count")
  return { sequence := some s, queryHeads := queryHeads }

/-- `finished()`. -/
def finished (l : SequenceLifecycle) : Bool := l.sequence.isNone

/-- `sequence()`. -/
def sequenceRef (l : SequenceLifecycle) : Except Exn SequenceState :=
  match l.sequence with
  | none => .error (.logicError "request has finished")
  | some s => .ok s

/-- `finish()`: the destructor of the table gives every reference back. -/
def finish : Call (PhysicalBlockPool × SequenceLifecycle) Unit := fun (pool, l) =>
  match l.sequence with
  | none => .ok () (pool, { l with prefilled := false })
  | some s =>
    match BlockTable.clear (pool, s.blockTable) with
    | .ok _ (pool, _) | .error _ (pool, _) =>
      .ok () (pool, { l with sequence := none, prefilled := false })

/-- A call on the sequence of the request, which is there. -/
def onSequence (x : Call ((PhysicalBlockPool × SequenceState) × σ) α) :
    Call ((PhysicalBlockPool × SequenceLifecycle) × σ) α := fun ((pool, l), d) =>
  match l.sequence with
  | none => .error (.logicError "request has finished") ((pool, l), d)
  | some s =>
    match x ((pool, s), d) with
    | .ok a ((pool, s), d) => .ok a ((pool, { l with sequence := some s }), d)
    | .error e ((pool, s), d) => .error e ((pool, { l with sequence := some s }), d)

/-- The new tokens are written to their slots, and then the attention is computed. -/
def writeAndAttend (ops : Arithmetic E F D) (storage : PagedKVStorage) (faults : RequestFaults E)
    (buffers : RequestBuffers) (positions : List ℕ) (queryHeads : ℕ) :
    Call ((PhysicalBlockPool × SequenceState) × DeviceMemory E F) Unit := do
  let ((pool, s), _) ← get
  let slots ← check (buildSlotMapping pool (positions.map fun token => ⟨some s, token⟩))
  onSnd (writePagedKv storage pool faults.write buffers.key buffers.value slots)
  onSnd (pagedAttention ops storage pool faults.attention s buffers.query buffers.output
    positions.length queryHeads)

/-- `prefill`. A failure waits for the device, which is idle between calls, and finishes. -/
def prefill (ops : Arithmetic E F D) (storage : PagedKVStorage) (faults : RequestFaults E)
    (tokenCount : ℕ) (buffers : RequestBuffers) :
    Call ((PhysicalBlockPool × SequenceLifecycle) × DeviceMemory E F) Unit := do
  let ((_, l), _) ← get
  ensure (¬ (l.finished = true ∨ l.prefilled = true))
    (.logicError "request cannot prefill again")
  ensure (¬ (tokenCount = 0 ∨ buffers.key = none ∨ buffers.value = none ∨ buffers.query = none ∨
      buffers.output = none))
    (.invalidArgument "prefill requires tokens and device buffers")
  onError (do
    onSequence (do
      onFst (SequenceState.appendTokens faults.grow tokenCount)
      check (faults.reserve.elim (.ok ()) .error)
      writeAndAttend ops storage faults buffers (List.range tokenCount) l.queryHeads)
    modify fun st => ((st.1.1, { st.1.2 with prefilled := true }), st.2)) (onFst finish)

/-- `decode`. -/
def decode (ops : Arithmetic E F D) (storage : PagedKVStorage) (faults : RequestFaults E)
    (buffers : RequestBuffers) :
    Call ((PhysicalBlockPool × SequenceLifecycle) × DeviceMemory E F) TokenLocation := do
  let ((_, l), _) ← get
  ensure (¬ (l.finished = true ∨ l.prefilled = false))
    (.logicError "request must prefill before decode")
  ensure (¬ (buffers.key = none ∨ buffers.value = none ∨ buffers.query = none ∨
      buffers.output = none)) (.invalidArgument "decode requires device buffers")
  onError (onSequence (do
    let ((_, s), _) ← get
    let location ← appendTokenCow storage faults.grow (storage.copyBlock faults.copy)
    writeAndAttend ops storage faults buffers [s.numTokens] l.queryHeads
    return location)) (onFst finish)

/-! ## What a request owns -/

/-- The references of a request. -/
def owned (l : SequenceLifecycle) : Multiset BlockHandle :=
  l.sequence.elim 0 fun s => s.blockTable.blocks

variable {H : Tokens → UInt64} {here count : ℕ} {m m' : PhysicalBlockPool} {s s' : SequenceState}
  {l l' : SequenceLifecycle} {rest : Multiset BlockHandle} {d d' : DeviceMemory E F}
  {x : Call ((PhysicalBlockPool × SequenceState) × σ) α}

/-- The sequence `s'` has `count` tokens more than `s`, and the ledger is right. -/
structure Grown (H : Tokens → UInt64) (rest : Multiset BlockHandle) (m : PhysicalBlockPool)
    (s : SequenceState) (count : ℕ) (m' : PhysicalBlockPool) (s' : SequenceState) : Prop where
  sound : Sound H m' (s'.blockTable.blocks + rest)
  shrinks : Shrinks m m'
  covered : s'.Covered
  numTokens : s'.numTokens = s.numTokens + count
  blockSize : s'.blockSize = s.blockSize
  pool : s'.blockTable.pool = s.blockTable.pool

/-- The ledger is right. -/
structure Kept (H : Tokens → UInt64) (rest : Multiset BlockHandle) (m m' : PhysicalBlockPool)
    (s' : SequenceState) : Prop where
  sound : Sound H m' (s'.blockTable.blocks + rest)
  shrinks : Shrinks m m'

theorem Grown.kept (h : Grown H rest m s count m' s') : Kept H rest m m' s' := ⟨h.sound, h.shrinks⟩

/-- A call on the device leaves the pool and the sequence alone. -/
theorem onSnd_post {τ : Type} {Q : τ → Prop} (y : Call σ α) {t : τ} {x : σ} (h : Q t) :
    Post (fun _ st => Q st.1) (fun _ st => Q st.1) (onSnd y (t, x)) := by
  rw [onSnd_apply]
  cases y x with
  | ok a x' => exact h
  | error e x' => exact h

theorem writeAndAttend_post (ops : Arithmetic E F D) (storage : PagedKVStorage)
    (faults : RequestFaults E) (buffers : RequestBuffers) (positions : List ℕ) (queryHeads : ℕ)
    {st : (PhysicalBlockPool × SequenceState) × DeviceMemory E F}
    (h : Grown H rest m s count st.1.1 st.1.2) :
    Post (fun _ st => Grown H rest m s count st.1.1 st.1.2)
      (fun _ st => Kept H rest m st.1.1 st.1.2)
      (writeAndAttend ops storage faults buffers positions queryHeads st) := by
  have hdevice : ∀ (y : Call (DeviceMemory E F) Unit)
      {st : (PhysicalBlockPool × SequenceState) × DeviceMemory E F},
      Grown H rest m s count st.1.1 st.1.2 →
      Post (fun _ st => Grown H rest m s count st.1.1 st.1.2)
        (fun _ st => Kept H rest m st.1.1 st.1.2) (onSnd y st) := fun y st h => by
    refine (onSnd_post (Q := fun t : PhysicalBlockPool × SequenceState =>
      Grown H rest m s count t.1 t.2) y h).mono (fun _ _ h => h) fun _ _ h => h.kept
  unfold writeAndAttend
  rw [bind_of_ok (get_apply _)]
  refine Post.check (fun slots _ => ?_) fun _ _ => h.kept
  exact (hdevice _ h).bind fun _ st h => hdevice _ h

/-- `append_tokens` of a request. -/
theorem appendTokens_post (hs : Sound H m (s.blockTable.blocks + rest)) (hc : s.Covered)
    (h0 : count ≠ 0) (grow : ℕ → Option Exn) (x : σ) :
    Post (fun _ st => Grown H rest m s count st.1.1 st.1.2)
      (fun _ st => Kept H rest m st.1.1 st.1.2)
      (onFst (SequenceState.appendTokens grow count) ((m, s), x)) := by
  rw [onFst_apply]
  rcases SequenceState.appendTokens_cases hs grow count with
    ⟨new, m', hrun, hs', halloc, -, hn⟩ | ⟨err, m', hrun, hs', hshrink⟩
  · rw [hrun]
    exact ⟨hs', halloc.shrinks, hc.grown (hn h0).2, rfl, rfl, rfl⟩
  · rw [hrun]
    exact ⟨hs', hshrink⟩

/-- `append_token_cow` of a request. -/
theorem appendTokenCow_post (hs : Sound H m (s.blockTable.blocks + rest)) (hc : s.Covered)
    (storage : PagedKVStorage) (grow : ℕ → Option Exn) (copier : SequenceState.BlockCopier σ)
    (hb : 0 < s.blockSize) (x : σ) :
    Post (fun _ st => Grown H rest m s 1 st.1.1 st.1.2) (fun _ st => Kept H rest m st.1.1 st.1.2)
      (appendTokenCow storage grow copier ((m, s), x)) := by
  unfold appendTokenCow
  rw [bind_of_ok (get_apply _)]
  refine Post.ensure (fun _ => ?_) fun _ => ⟨hs, .refl m⟩
  rcases SequenceState.appendTokenWithCopy_cases hs hb hc grow (some copier) x with
    ⟨loc, m', s', x', hrun, hs', hshrink, hc', hn, hbs, hp⟩ | ⟨err, m', x', hrun, hs', hshrink⟩
  · rw [hrun]
    exact ⟨hs', hshrink, hc', hn, hbs, hp⟩
  · rw [hrun]
    exact ⟨hs', hshrink⟩

theorem onSequence_post (rest : Multiset BlockHandle) (count : ℕ)
    {x : Call ((PhysicalBlockPool × SequenceState) × σ) α} {y : σ} (hl : l.sequence = some s)
    (h : Post (fun _ st => Grown H rest m s count st.1.1 st.1.2)
      (fun _ st => Kept H rest m st.1.1 st.1.2) (x ((m, s), y))) :
    Post (fun _ st => ∃ s', st.1.2 = { l with sequence := some s' } ∧
        Grown H rest m s count st.1.1 s')
      (fun _ st => ∃ s', st.1.2 = { l with sequence := some s' } ∧ Kept H rest m st.1.1 s')
      (onSequence x ((m, l), y)) := by
  unfold onSequence
  simp only [hl]
  cases hx : x ((m, s), y) with
  | ok a st => exact ⟨st.1.2, rfl, h.of_ok hx⟩
  | error e st => exact ⟨st.1.2, rfl, h.of_error hx⟩

/-! ## The outcomes of a call -/

/-- The request has finished, and every reference is back. -/
structure Ended (H : Tokens → UInt64) (rest : Multiset BlockHandle) (m m' : PhysicalBlockPool)
    (l' : SequenceLifecycle) : Prop where
  finished : l'.finished = true
  prefilled : l'.prefilled = false
  sound : Sound H m' rest
  shrinks : Shrinks m m'

/-- **The outcomes of a call** that adds `count` tokens: it has done so, was refused, or has ended
the request. `rest` are the references of all other holders. -/
def Outcome (H : Tokens → UInt64) (rest : Multiset BlockHandle) (m : PhysicalBlockPool)
    (l : SequenceLifecycle) (d : σ) (count : ℕ) :
    EStateM.Result Exn ((PhysicalBlockPool × SequenceLifecycle) × σ) α → Prop :=
  Post (fun _ st => ∃ s s', l.sequence = some s ∧
      st.1.2 = { l with sequence := some s', prefilled := true } ∧
      Grown H rest m s count st.1.1 s')
    (fun e st => (st = ((m, l), d) ∧ ((∃ t, e = .logicError t) ∨ ∃ t, e = .invalidArgument t)) ∨
      Ended H rest m st.1.1 st.1.2)

/-- What a request is between two calls. -/
structure Whole (H : Tokens → UInt64) (here : ℕ) (rest : Multiset BlockHandle)
    (m : PhysicalBlockPool) (l : SequenceLifecycle) : Prop where
  sound : Sound H m (l.owned + rest)
  proper : ∀ s, l.sequence = some s → Family.Proper here m s

theorem make_ok {requestId queryHeads : ℕ} {storage : PagedKVStorage}
    (h : make requestId here m storage queryHeads = .ok l) :
    l = ⟨some (.new requestId here m), queryHeads, false⟩ := by
  by_cases hbad : ¬ storage.usesPool (SequenceState.new requestId here m).blockTable ∨
      queryHeads = 0 ∨ queryHeads % storage.layout.numKvHeads ≠ 0
  · simp only [make, if_pos hbad] at h
    cases h
  · simp only [make, if_neg hbad] at h
    exact (Except.ok.inj h).symm

theorem sequenceRef_none (hl : l.sequence = none) :
    l.sequenceRef = .error (.logicError "request has finished") := by
  unfold sequenceRef
  rw [hl]

theorem sequenceRef_some (hl : l.sequence = some s) : l.sequenceRef = .ok s := by
  unfold sequenceRef
  rw [hl]

theorem owned_eq (hl : l.sequence = some s) : l.owned = s.blockTable.blocks := by
  unfold owned
  rw [hl]
  rfl

theorem owned_none (hl : l.finished = true) : l.owned = 0 := by
  unfold owned
  rw [Option.isNone_iff_eq_none.mp hl]
  rfl

namespace Whole

theorem view (hw : Whole H here rest m l) (hl : l.sequence = some s) :
    Sound H m (s.blockTable.blocks + rest) := owned_eq hl ▸ hw.sound

theorem blockSize_pos (hw : Whole H here rest m l) (hl : l.sequence = some s) :
    0 < s.blockSize := (hw.proper s hl).blockSize ▸ hw.sound.blockSize_pos

end Whole

/-- **`finish`** gives every reference back. -/
theorem finish_ended (hs : Sound H m' (l.owned + rest)) (hshrink : Shrinks m m') :
    ∃ m'' l', finish (m', l) = .ok () (m'', l') ∧ Ended H rest m m'' l' := by
  obtain ⟨sequence, queryHeads, prefilled⟩ := l
  cases sequence with
  | none =>
    exact ⟨m', ⟨none, queryHeads, false⟩, rfl, rfl, rfl, zero_add rest ▸ hs, hshrink⟩
  | some s =>
    obtain ⟨m'', hclear, hs'', hshrink'⟩ := BlockTable.clear_ok (t := s.blockTable) hs
    refine ⟨m'', ⟨none, queryHeads, false⟩, ?_, rfl, rfl, hs'', hshrink.trans hshrink'⟩
    unfold finish
    simp only [hclear]

/-- The clean-up of a failed call. -/
theorem finish_post {st : (PhysicalBlockPool × SequenceLifecycle) × σ}
    (h : ∃ s', st.1.2 = { l with sequence := some s' } ∧ Kept H rest m st.1.1 s') :
    ∃ st', onFst finish st = .ok () st' ∧ Ended H rest m st'.1.1 st'.1.2 := by
  obtain ⟨⟨m', l'⟩, y⟩ := st
  obtain ⟨s', hl, hkept⟩ := h
  obtain rfl : l' = { l with sequence := some s' } := hl
  obtain ⟨m'', l'', hrun, hended⟩ := finish_ended (l := { l with sequence := some s' })
    hkept.sound hkept.shrinks
  refine ⟨((m'', l''), y), ?_, hended⟩
  rw [onFst_apply, hrun]

/-- **`prefill`** has an outcome. -/
theorem Whole.prefill_outcome (hw : Whole H here rest m l) (ops : Arithmetic E F D)
    (storage : PagedKVStorage) (faults : RequestFaults E) (tokenCount : ℕ)
    (buffers : RequestBuffers) (d : DeviceMemory E F) : Outcome H rest m l d tokenCount
      (prefill ops storage faults tokenCount buffers ((m, l), d)) := by
  unfold Outcome prefill
  rw [bind_of_ok (get_apply _)]
  refine Post.ensure (fun hopen => ?_) fun _ => .inl ⟨rfl, .inl ⟨_, rfl⟩⟩
  refine Post.ensure (fun hargs => ?_) fun _ => .inl ⟨rfl, .inr ⟨_, rfl⟩⟩
  obtain ⟨s, hl⟩ := Option.ne_none_iff_exists'.mp fun hnone =>
    (not_or.mp hopen).1 (Option.isNone_iff_eq_none.mpr hnone)
  refine Post.onError (C := fun _ st => ∃ s', st.1.2 = { l with sequence := some s' } ∧
    Kept H rest m st.1.1 s') ?_ fun e st h => ?_
  · refine (onSequence_post rest tokenCount hl ?_).bind fun _ st h => ?_
    · refine (appendTokens_post (hw.view hl) (hw.proper s hl).covered (not_or.mp hargs).1
        faults.grow d).bind fun _ st h => ?_
      exact Post.check (fun _ _ => writeAndAttend_post ops storage faults buffers _ _ h)
        fun _ _ => h.kept
    · obtain ⟨s', hst, hgrown⟩ := h
      refine ⟨s, s', hl, ?_, hgrown⟩
      show { st.1.2 with prefilled := true } = _
      rw [hst]
  · obtain ⟨st', hrun, hended⟩ := finish_post h
    rw [hrun]
    exact .inr hended

/-- **`decode`** has an outcome. -/
theorem Whole.decode_outcome (hw : Whole H here rest m l) (ops : Arithmetic E F D)
    (storage : PagedKVStorage) (faults : RequestFaults E) (buffers : RequestBuffers)
    (d : DeviceMemory E F) : Outcome H rest m l d 1
      (decode ops storage faults buffers ((m, l), d)) := by
  unfold Outcome decode
  rw [bind_of_ok (get_apply _)]
  refine Post.ensure (fun hopen => ?_) fun _ => .inl ⟨rfl, .inl ⟨_, rfl⟩⟩
  refine Post.ensure (fun _ => ?_) fun _ => .inl ⟨rfl, .inr ⟨_, rfl⟩⟩
  obtain ⟨hfinished, hprefilled⟩ := not_or.mp hopen
  obtain ⟨s, hl⟩ := Option.ne_none_iff_exists'.mp fun hnone =>
    hfinished (Option.isNone_iff_eq_none.mpr hnone)
  refine Post.onError (C := fun _ st => ∃ s', st.1.2 = { l with sequence := some s' } ∧
    Kept H rest m st.1.1 s') ?_ fun e st h => ?_
  · refine (onSequence_post rest 1 hl ?_).mono (fun _ st h => ?_) fun _ _ h => h
    · rw [bind_of_ok (get_apply _)]
      refine (appendTokenCow_post (hw.view hl) (hw.proper s hl).covered storage faults.grow _
        (hw.blockSize_pos hl) d).bind fun _ st h => ?_
      exact (writeAndAttend_post ops storage faults buffers _ _ h).bind fun _ _ h => h
    · obtain ⟨s', hst, hgrown⟩ := h
      refine ⟨s, s', hl, ?_, hgrown⟩
      rw [hst, ← Bool.eq_true_of_not_eq_false hprefilled]
  · obtain ⟨st', hrun, hended⟩ := finish_post h
    rw [hrun]
    exact .inr hended

/-- **After the end** every call throws. -/
theorem refused_of_finished (hl : l.finished = true) (ops : Arithmetic E F D)
    (storage : PagedKVStorage) (faults : RequestFaults E) (tokenCount : ℕ)
    (buffers : RequestBuffers) (d : DeviceMemory E F) :
    prefill ops storage faults tokenCount buffers ((m, l), d) =
      .error (.logicError "request cannot prefill again") ((m, l), d) ∧
    decode ops storage faults buffers ((m, l), d) =
      .error (.logicError "request must prefill before decode") ((m, l), d) ∧
    l.sequenceRef = .error (.logicError "request has finished") := by
  refine ⟨?_, ?_, ?_⟩
  · unfold prefill
    rw [bind_of_ok (get_apply _)]
    exact bind_of_error (if_neg (not_not.mpr (.inl hl)))
  · unfold decode
    rw [bind_of_ok (get_apply _)]
    exact bind_of_error (if_neg (not_not.mpr (.inl hl)))
  · exact sequenceRef_none (Option.isNone_iff_eq_none.mp hl)

end SequenceLifecycle

end KVFlux.V2
