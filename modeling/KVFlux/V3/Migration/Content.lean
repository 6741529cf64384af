import KVFlux.V3.Migration.Exclusive
import KVFlux.V3.Migration.Frame

/-!
# The content of the replicas

The client writes a chunk once, into the replica that it has placed. Copies, files and reused slots
carry these bytes from tier to tier.

* `Origin`, `Departs`: where a READY replica and a move come from in a step.
* `Client`: the engine with what the client has written.
* `Disciplined`: the client places a chunk that has no replica, and writes it once, before a second
  replica exists.
* **`content_coherent`**: every READY replica and every source of a move holds what the client wrote.
-/

namespace KVFlux.V3

open Fallible ChunkRecord Transition

/-- A move that begins makes nothing READY. -/
theorem Begins.ready {d d' : CacheDirectory} {m : Move} {r r' : ChunkRecord} {tier : StorageTier}
    {l : TierLocation} (hb : Begins d d' m r r')
    (h : r'.replica tier = some ⟨l, .READY⟩) : r.replica tier = some ⟨l, .READY⟩ := by
  have hs : tier ≠ m.source := fun ht => hb.source'.not_ready (ht ▸ h)
  have hd : tier ≠ m.destination := fun ht => hb.destination'.not_ready (ht ▸ h)
  rwa [hb.other tier hs hd] at h

/-- The call that a step makes. -/
def Action.client : Action → Option ClientCall
  | .call c => some c
  | _ => none

namespace Engine

variable {H : Tokens → UInt64} {e e' : Engine} {a : Action} {c : Option ClientCall} {w : ℕ}
  {key : CacheKey} {r r' : ChunkRecord} {tier : StorageTier} {l : TierLocation} {o : CopyOwner}
  {m : Move}

/-! ## Where replicas and moves come from -/

/-- Where a READY replica comes from in a call. -/
inductive Origin (e e' : Engine) (c : Option ClientCall) (key : CacheKey) (tier : StorageTier)
    (l : TierLocation) : Prop
  | ready {r : ChunkRecord} (hr : e.directory.record key = some r)
      (hs : r.replica tier = some ⟨l, .READY⟩)
  | placed (hc : c = some (.directory (.place key tier .READY)))
  | provided {validTokens : UInt64} {bytes : Bytes} {fault : WriteFault}
      (hc : c = some (.provide key tier validTokens bytes fault))
  | source {o : CopyOwner} {m : Move} (hm : e.move o = some m) (hk : m.key = key)
      (hs : m.source = tier) (hl : m.sourceLoc = l)
      (hcell : e'.cell tier l.slot = e.cell tier l.slot)
  | arrived {o : CopyOwner} {m : Move} (hm : e.move o = some m) (hk : m.key = key)
      (hd : m.destination = tier) (hl : m.destinationLoc = l) (harr : Arrived e o)
      (hcell : e'.cell tier l.slot = e.cell tier l.slot)
  | file {r : ChunkRecord} {source : StorageTier} {ls : TierLocation}
      (hr : e.directory.record key = some r) (hs : r.replica source = some ⟨ls, .READY⟩)
      (himage : ∀ bytes, bytes.length = e.chunkBytes →
        Image e.chunkBytes key source bytes (e.cell source ls.slot) →
        Image e.chunkBytes key tier bytes (e'.cell tier l.slot))

/-- A READY replica after a move that arrived was one before, or is one of the two of the move. -/
theorem completed_ready (h : (r.completed m).replica tier = some ⟨l, .READY⟩) :
    r.replica tier = some ⟨l, .READY⟩ ∨ (m.source = tier ∧ m.sourceLoc = l) ∨
      (m.destination = tier ∧ m.destinationLoc = l) := by
  by_cases hs : tier = m.source
  · subst hs
    right; left
    simp only [completed, replica_setPins, replica_setReplica_self] at h
    cases h
    exact ⟨rfl, rfl⟩
  · by_cases hd : tier = m.destination
    · subst hd
      right; right
      simp only [completed, replica_setPins, replica_setReplica_of_ne hs,
        replica_setReplica_self] at h
      cases h
      exact ⟨rfl, rfl⟩
    · left
      simpa [completed, hs, hd] using h

/-- A READY replica after a move that was given up was one before, or is the source. -/
theorem discarded_ready (h : (r.discarded m).replica tier = some ⟨l, .READY⟩) :
    r.replica tier = some ⟨l, .READY⟩ ∨ (m.source = tier ∧ m.sourceLoc = l) := by
  by_cases hs : tier = m.source
  · subst hs
    right
    simp only [discarded, replica_setPins, replica_setReplica_self] at h
    cases h
    exact ⟨rfl, rfl⟩
  · left
    by_cases hd : tier = m.destination
    · subst hd
      simp [discarded, hs] at h
    · simpa [discarded, hs, hd] using h

/-- The replicas of a move. -/
theorem move_replicas (hl : e.Inv H) (hm : e.move o = some m) : ∃ r s d,
    e.directory.record m.key = some r ∧ r.replica m.source = some ⟨m.sourceLoc, s⟩ ∧
      r.replica m.destination = some ⟨m.destinationLoc, d⟩ := by
  obtain ⟨r, hr, ⟨s, hs, -⟩, ⟨d, hd, -⟩, -⟩ := hl.locks.held o m hm
  exact ⟨r, s, d, hr, hs, hd⟩

/-- **Where a READY replica comes from** in a call of the owner. -/
theorem Effect.origin (hl : e.Inv H) (he : Effect H c e e') (hr' : e'.directory.record key = some r')
    (hs' : r'.replica tier = some ⟨l, .READY⟩) : Origin e e' c key tier l := by
  -- one record has changed
  have hother : ∀ {k : CacheKey} {s s' : ChunkRecord}, e.directory.record k = some s →
      e'.directory.record = Function.update e.directory.record k (some s') →
      (k = key → s' = r' → s'.replica tier = some ⟨l, .READY⟩ → Origin e e' c key tier l) →
      Origin e e' c key tier l := by
    intro k s s' hs hrec h
    by_cases hk : key = k
    · subst hk
      rw [hrec, Function.update_self] at hr'
      exact h rfl (Option.some.inj hr') (Option.some.inj hr' ▸ hs')
    · rw [hrec, Function.update_of_ne hk] at hr'
      exact .ready hr' hs'
  -- a replica of a move that has become READY
  have hsource : ∀ {o m}, e.move o = some m → m.key = key → m.source = tier → m.sourceLoc = l →
      Origin e e' c key tier l := by
    intro o m hm hk ht hloc
    subst hk ht hloc
    obtain ⟨s, st, d, hs, hsrc, -⟩ := move_replicas hl hm
    exact .source hm rfl rfl rfl (he.cell hl hs hsrc hr' hs' rfl)
  have harrived : ∀ {o m}, e.move o = some m → m.key = key → Arrived e o → m.destination = tier →
      m.destinationLoc = l → Origin e e' c key tier l := by
    intro o m hm hk harr ht hloc
    subst hk ht hloc
    obtain ⟨s, st, d, hs, -, hdst⟩ := move_replicas hl hm
    exact .arrived hm rfl rfl rfl harr (he.cell hl hs hdst hr' hs' rfl)
  cases he with
  | @quiet d n gpu cpu store hi hrec =>
    have hr' : d.record key = some r' := hr'
    rw [hrec] at hr'
    exact .ready hr' hs'
  | @client d pins op hop hi hc =>
    generalize hrec : d.record = record at hc
    cases hc with
    | @change k s s' n hs hheld hbound hpin hnew =>
      refine hother hs hrec fun hk _ hready => ?_
      subst hk
      rcases hnew tier _ hready with h | h
      · exact .ready hs h
      · exact .placed (hop.trans (by rw [h]))
    | @create k hnone =>
      by_cases hk : key = k
      · subst hk
        have hr' : d.record key = some r' := hr'
        rw [hrec, Function.update_self] at hr'
        cases hr'
        cases tier <;> cases hs'
      · have hr' : d.record key = some r' := hr'
        rw [hrec, Function.update_of_ne hk] at hr'
        exact .ready hr' hs'
    | @destroy k s hs hnone =>
      have hr' : d.record key = some r' := hr'
      by_cases hk : key = k
      · rw [hrec, hk, Function.update_self] at hr'
        cases hr'
      · rw [hrec, Function.update_of_ne hk] at hr'
        exact .ready hr' hs'
  | @provide d gpu cpu store k t validTokens bytes fault s loc hcall hi hrec hnone hrec' =>
    refine hother hrec hrec' fun hk _ hready => ?_
    subst hk
    by_cases ht : tier = t
    · subst ht
      exact .provided hcall
    · rw [replica_setReplica_of_ne ht] at hready
      exact .ready hrec hready
  | @abandon d n orphans k s s' source destination loc hi hn hrec hready hnone hne hrec' hpin horphan
      hnew =>
    refine hother hrec hrec' fun hk _ hready => ?_
    subst hk
    exact .ready hrec (hnew tier l hready)
  | submit hi hb =>
    exact hother hb.record hb.record' fun hk _ hready => .ready (hk ▸ hb.record) (hb.ready hready)
  | beginTransfer hi hb =>
    exact hother hb.record hb.record' fun hk _ hready => .ready (hk ▸ hb.record) (hb.ready hready)
  | @complete d t s ht hrun hend harr hi hrec hrec' =>
    refine hother hrec hrec' fun hk _ hready => ?_
    have hm := move_task ht (by rw [hrun]; rfl)
    rcases completed_ready hready with h | ⟨h₁, h₂⟩ | ⟨h₁, h₂⟩
    · exact .ready (hk ▸ hrec) h
    · exact hsource hm hk h₁ h₂
    · exact harrived hm hk ⟨t, ht, fun h => .inr (harr.2.1 h), fun h =>
        ⟨harr.1, .inl (harr.2.2 h)⟩⟩ h₁ h₂
  | @discard d store t state error s ht hstate hend hi hrec hd =>
    refine hother hrec hd.record' fun hk _ hready => ?_
    have hn : t.state.terminal = false := by
      rcases hend with ⟨h, -⟩ | ⟨h, -⟩ <;> rw [h] <;> rfl
    rcases discarded_ready hready with h | ⟨h₁, h₂⟩
    · exact .ready (hk ▸ hrec) h
    · exact hsource (move_task ht hn) hk h₁ h₂
  | @finishTransfer d k p s s' hp hcopy hi hrec hrec' hpin hnew =>
    refine hother hrec hrec' fun hk _ hready => ?_
    subst hk
    have hm : e.move (.transfer k) = some (p.move k) := by simp [move, hp]
    rcases completed_ready (hnew tier _ hready) with h | ⟨h₁, h₂⟩ | ⟨h₁, h₂⟩
    · exact .ready hrec h
    · exact hsource hm rfl h₁ h₂
    · exact harrived hm rfl ⟨p, hp, .inr hcopy⟩ h₁ h₂
  | @nvme d cpu store k s s' source destination ls loc hi hrec hready hnone hrec' hpin hheld hnew hst
      hk himage =>
    refine hother hrec hrec' fun hk _ hs => ?_
    subst hk
    rcases hnew tier _ hs with h | ⟨h₁, h₂⟩
    · exact .ready hrec h
    · cases h₂
      subst h₁
      exact .file hrec hready himage

/-- A move that a call has begun: its source was READY, and no bytes have moved. -/
structure Departs (e e' : Engine) (m : Move) (o : CopyOwner) : Prop where
  source : ∃ r, e.directory.record m.key = some r ∧ r.replica m.source = some ⟨m.sourceLoc, .READY⟩
  cell : ∀ tier i, e'.cell tier i = e.cell tier i
  fresh : ¬ Arrived e' o

/-- A move after a call of the owner is an old one or has just begun. -/
theorem Effect.departs (hl : e.Inv H) (he : Effect H c e e') (hm' : e'.move o = some m) :
    e.move o = some m ∨ Departs e e' m o := by
  -- a task that ends moves no more
  have hend : ∀ {u : Task}, u.state.terminal = true →
      move { e with tasks := Function.update e.tasks u.id (some u) } o = some m →
      e.move o = some m := by
    intro u hu h
    rw [move_end hu] at h
    by_cases ho : o = .task u.id
    · rw [ho, Function.update_self] at h
      cases h
    · rwa [Function.update_of_ne ho] at h
  cases he with
  | quiet | client | provide | abandon | nvme => exact .inl hm'
  | @submit d t r r' validTokens hi hb hid hdirect hmeta hresult hcopy hcancel hstate =>
    have hn : t.state.terminal = false := by
      rw [hstate]
      split_ifs <;> rfl
    have hm' : move { e with tasks := Function.update e.tasks t.id (some t) } o = some m := hm'
    rw [move_submit hn] at hm'
    by_cases ho : o = .task t.id
    · right
      subst ho
      rw [Function.update_self] at hm'
      cases hm'
      refine ⟨⟨_, hb.record, hb.source⟩, fun tier i => by cases tier <;> rfl, ?_⟩
      rintro ⟨u, hu, hcuda, hfile⟩
      have hu : Function.update e.tasks t.id (some t) t.id = some u := hu
      rw [Function.update_self] at hu
      obtain rfl := Option.some.inj hu
      cases hc : t.usesCuda with
      | true =>
        have := hcuda hc
        rw [hcopy] at this
        rcases this with h | h <;> cases h
      | false =>
        rcases (hfile hc).2 with h | ⟨w, n, error, hw, -⟩
        · rw [hresult] at h
          exact absurd h (lt_irrefl _)
        · -- the workers have older tasks
          have hw : e.workers w = .finished t.id n error := hw
          obtain ⟨-, u, hu, -⟩ := hl.queue.taken w t.id (by rw [hw]; rfl)
          have := (hl.queue.task t.id u hu).2.1
          omega
    · rw [Function.update_of_ne ho] at hm'
      exact .inl hm'
  | @beginTransfer d key p r r' hi hb hnone hcopy =>
    have hm' : move { e with pending := Function.update e.pending key (some p) } o = some m := hm'
    rw [move_pending] at hm'
    by_cases ho : o = .transfer key
    · right
      subst ho
      rw [Function.update_self] at hm'
      cases hm'
      refine ⟨⟨_, hb.record, hb.source⟩, fun tier i => by cases tier <;> rfl, ?_⟩
      rintro ⟨q, hq, hlanded⟩
      have hq : Function.update e.pending key (some p) key = some q := hq
      rw [Function.update_self] at hq
      obtain rfl := Option.some.inj hq
      rw [hcopy] at hlanded
      rcases hlanded with h | h <;> cases h
    · rw [Function.update_of_ne ho] at hm'
      exact .inl hm'
  | @complete d t r ht hrun =>
    exact .inl (hend (u := { t with state := .COMPLETED }) rfl hm')
  | @discard d store t state error r ht hstate =>
    refine .inl (hend (u := { t with state := state, error := error }) ?_ hm')
    rcases hstate with rfl | rfl <;> rfl
  | @finishTransfer d key p r r' hp =>
    left
    have hm' : move { e with pending := Function.update e.pending key none } o = some m := hm'
    rw [move_pending] at hm'
    by_cases ho : o = .transfer key
    · rw [ho, Function.update_self] at hm'
      cases hm'
    · rwa [Function.update_of_ne ho] at hm'

theorem cell_owner (s : OwnerState) (tier : StorageTier) (i : ℕ) :
    cell { e with owner := s } tier i = e.cell tier i := by
  cases tier <;> rfl

/-- **Where a READY replica comes from** in a step. -/
theorem step_origin (hl : e.Inv H) (h : step a e = some e') (hr' : e'.directory.record key = some r')
    (hs' : r'.replica tier = some ⟨l, .READY⟩) : Origin e e' a.client key tier l := by
  have hidle : Inv H { e with owner := .idle } := hl.setOwner nofun
  have hend : Effect H none { e with owner := .idle } e' → Origin e e' none key tier l := by
    intro he
    cases he.origin hidle hr' hs' with
    | ready hr hs => exact .ready hr hs
    | placed hc => cases hc
    | provided hc => cases hc
    | source hm hk hs hl hcell =>
      exact .source hm hk hs hl (hcell.trans (cell_owner _ _ _))
    | arrived hm hk hd hl harr hcell =>
      exact .arrived hm hk hd hl harr (hcell.trans (cell_owner _ _ _))
    | file hr hs himage =>
      refine .file hr hs fun bytes hb hi => himage bytes hb ?_
      rw [cell_owner]
      exact hi
  cases step_cases hl h with
  | call ho he => exact he.origin hl hr' hs'
  | poll ho he => exact hend he
  | finalize ho ht hs he => exact hend he
  | @device o => cases o <;> exact .ready hr' hs'
  | _ => exact .ready hr' hs'

/-- **A move** after a step is an old one or has just begun. -/
theorem step_departs (hl : e.Inv H) (h : step a e = some e') (hm' : e'.move o = some m) :
    e.move o = some m ∨ Departs e e' m o := by
  have hidle : Inv H { e with owner := .idle } := hl.setOwner nofun
  have hend : Effect H none { e with owner := .idle } e' → e.move o = some m ∨ Departs e e' m o := by
    intro he
    rcases he.departs hidle hm' with hm | hd
    · exact .inl hm
    · exact .inr ⟨hd.source, fun tier i => (hd.cell tier i).trans (cell_owner _ _ _), hd.fresh⟩
  cases step_cases hl h with
  | call ho he => exact he.departs hl hm'
  | poll ho he => exact hend he
  | finalize ho ht hs he => exact hend he
  | @flag unlinked t s ho ht =>
    have hsame := @move_setTask e t { t with cancelRequested := true } t.id ht rfl rfl rfl
    exact .inl ((congrFun hsame o).symm.trans hm')
  | @take v t hlt hw hfree hq ht hs =>
    have hsame := @move_setTask e t { t with state := .RUNNING } t.id ht rfl rfl (by rw [hs]; rfl)
    exact .inl ((congrFun hsame o).symm.trans hm')
  | @result v t r error error' hw ht =>
    have hsame := @move_setTask e t { t with ioResult := r, error := error' } t.id ht rfl rfl rfl
    exact .inl ((congrFun hsame o).symm.trans hm')
  | @device o' event m' s s' b =>
    rw [move_setCopy] at hm'
    exact .inl hm'
  | _ => exact .inl hm'

/-! ## The client -/

end Engine

/-- The engine with what the client has written for a chunk since it placed it. -/
structure Client where
  engine : Engine
  content : CacheKey → Option Bytes := fun _ => none

inductive ClientAction
  | engine (a : Action)
  | write (key : CacheKey) (tier : StorageTier) (validTokens : UInt64) (bytes : Bytes)
      (fault : WriteFault)

namespace Client

open Engine

variable {H : Tokens → UInt64} {s s' : Client} {a : ClientAction} {key : CacheKey}
  {r r' : ChunkRecord} {tier : StorageTier} {l : TierLocation} {o : CopyOwner} {m : Move}
  {b : Bytes}

/-- What is written after a step of the engine: a chunk that is placed has to be written. -/
def placing (a : Action) (content : CacheKey → Option Bytes) : CacheKey → Option Bytes :=
  match a with
  | .call (.directory (.place key _ _)) => Function.update content key none
  | _ => content

/-- One step: the engine goes on, or the client writes into the replica of a chunk. -/
def step : ClientAction → Client → Option Client
  | .engine a, s => (Engine.step a s.engine).map fun e =>
    { engine := e, content := placing a s.content }
  | .write key tier validTokens bytes fault, s =>
    if s.engine.owner = .idle then
      ((s.engine.directory.record key).bind fun r => r.replica tier).map fun slot =>
        match Engine.fill key tier slot.location.slot validTokens bytes fault s.engine with
        | .ok _ e => { engine := e, content := Function.update s.content key (some bytes) }
        | .error _ e => { engine := e, content := s.content }
    else none

/-- The client places only chunks without a replica. It writes a chunk once, while the replica it
has placed is the only one. -/
def Disciplined (s : Client) : ClientAction → Prop
  | .engine (.call (.directory (.place key _ _))) =>
    ∀ r, s.engine.directory.record key = some r → ∀ tier, r.replica tier = none
  | .engine (.call (.provide _ _ _ _ _)) => False
  | .engine _ => True
  | .write key tier _ bytes _ => s.content key = none ∧ bytes.length = s.engine.chunkBytes ∧
    ∀ r, s.engine.directory.record key = some r → ∀ t, t ≠ tier → r.replica t = none

structure Start (H : Tokens → UInt64) (s : Client) : Prop where
  engine : s.engine.Start H
  content : ∀ key, s.content key = none

/-- A slot holds what the client wrote for the chunk. -/
def Holds (s : Client) (key : CacheKey) (tier : StorageTier) (l : TierLocation) : Prop :=
  ∀ b, s.content key = some b → Image s.engine.chunkBytes key tier b (s.engine.cell tier l.slot)

/-- READY replicas and the sources of unfinished moves hold what the client wrote. -/
structure Coherent (s : Client) : Prop where
  ready : ∀ key r tier l, s.engine.directory.record key = some r →
    r.replica tier = some ⟨l, .READY⟩ → s.Holds key tier l
  source : ∀ o m, s.engine.move o = some m → s.Holds m.key m.source m.sourceLoc

/-- **The invariant of the content.** -/
structure Inv (H : Tokens → UInt64) (s : Client) : Prop where
  engine : s.engine.Inv H
  writing : s.engine.Writing
  sized : ∀ key b, s.content key = some b → b.length = s.engine.chunkBytes
  coherent : s.Coherent
  arrived : ∀ o m, s.engine.move o = some m → Arrived s.engine o →
    s.Holds m.key m.destination m.destinationLoc

/-! ## Steps of the engine -/

theorem placing_some {a : Action} {content : CacheKey → Option Bytes}
    (h : placing a content key = some b) : content key = some b ∧
      ∀ tier state, a.client ≠ some (.directory (.place key tier state)) := by
  unfold placing at h
  split at h
  · rename_i k t st
    by_cases hk : key = k
    · subst hk
      rw [Function.update_self] at h
      cases h
    · rw [Function.update_of_ne hk] at h
      refine ⟨h, fun tier state hc => ?_⟩
      cases hc
      exact hk rfl
  · rename_i hne
    refine ⟨h, fun tier state hc => ?_⟩
    cases a with
    | call c => cases hc; exact hne _ _ _ rfl
    | _ => cases hc

/-- A slot that keeps its bytes keeps its content. -/
theorem Holds.of_cell {e : Engine} {content : CacheKey → Option Bytes}
    (h : s.Holds key tier l) (hcontent : ∀ b, content key = some b → s.content key = some b)
    (hchunk : e.chunkBytes = s.engine.chunkBytes)
    (hcell : e.cell tier l.slot = s.engine.cell tier l.slot) :
    Holds { engine := e, content := content } key tier l := by
  intro b hb
  show Image e.chunkBytes key tier b (e.cell tier l.slot)
  rw [hchunk, hcell]
  exact h b (hcontent b hb)

theorem Image.memory {n : ℕ} {cell : Option Bytes} (ht : tier ≠ .NVME) :
    Image n key tier b cell ↔ cell = some b := by
  cases tier with
  | GPU => exact Iff.rfl
  | CPU => exact Iff.rfl
  | NVME => exact absurd rfl ht

theorem cell_memory {e : Engine} (ht : tier ≠ .NVME) (i : ℕ) : e.cell tier i = some (e.mem tier i) := by
  cases tier with
  | GPU => rfl
  | CPU => rfl
  | NVME => exact absurd rfl ht

/-- **A move that arrives** puts the content of its source into its destination. -/
theorem lands_image {e e' : Engine} {a : Action} (hl : e.Inv H) (h : Lands e e' a m o)
    (hlen : b.length = e.chunkBytes)
    (hsource : Image e.chunkBytes m.key m.source b (e.cell m.source m.sourceLoc.slot)) :
    Image e.chunkBytes m.key m.destination b (e'.cell m.destination m.destinationLoc.slot) := by
  cases h with
  | copy hs hd hcell =>
    rw [Image.memory hs, cell_memory hs] at hsource
    rw [Image.memory hd, hcell, Option.some.inj hsource, overwrite_eq]
    have hsized : (e.mem m.destination m.destinationLoc.slot).length = e.chunkBytes := by
      cases hm : m.destination with
      | GPU => exact hl.sized.gpu _
      | CPU => exact hl.sized.cpu _
      | NVME => exact absurd hm hd
    rw [hlen, hsized]
  | @read w fault t out ha hw ht hm hs hd hw' hcell himage =>
    subst hm
    obtain ⟨-, -, -, validTokens, hmeta⟩ := hl.queue.task t.id t ht
    rw [hs] at hsource
    rw [hd]
    exact congrArg some (hcell.trans (himage t.key validTokens b hmeta hlen hsource))
  | @write t p ht hm hp hs hd hcell =>
    subst hm
    obtain ⟨-, -, -, validTokens, hmeta⟩ := hl.queue.task t.id t ht
    obtain ⟨sum, hheader⟩ := hp.header
    rw [hs] at hsource
    have hcpu : e.cpu t.move.sourceLoc.slot = b := Option.some.inj hsource
    have hsize : p.payloadSize = b.length := by
      rw [hp.size, hmeta, hlen]
      exact UInt64.toNat_ofNat_of_lt' (by simpa using hl.sized.chunkBytes_lt)
    rw [hd]
    refine ⟨validTokens, sum, ?_⟩
    show e'.store.files.lookup _ = _
    rw [hcell, hcpu, ChunkFileStore.PendingWrite.content, hsize, List.take_length, hheader, hmeta]
    rfl

/-- **A step of the engine** keeps the invariant. -/
theorem engine_inv {a : Action} {e : Engine} (hi : s.Inv H) (ha : Disciplined s (.engine a))
    (h : Engine.step a s.engine = some e) :
    Inv H { engine := e, content := placing a s.content } := by
  have hl := hi.engine
  have hl' := step_inv hl a h
  have hchunk := step_chunkBytes hl h
  have hold : ∀ key b, placing a s.content key = some b → s.content key = some b :=
    fun key b hb => (placing_some hb).1
  refine ⟨hl', step_writing hl h hi.writing, fun key b hb => ?_, ⟨?_, ?_⟩, ?_⟩
  · exact (hi.sized key b (hold key b hb)).trans hchunk.symm
  · intro key r' tier l hr' hs'
    cases step_origin hl h hr' hs' with
    | ready hr hs =>
      exact (hi.coherent.ready key _ tier l hr hs).of_cell (hold key) hchunk
        (ready_cell hl hi.writing h hr hs hr' hs' rfl)
    | placed hc =>
      intro b hb
      exact absurd hc ((placing_some hb).2 tier .READY)
    | provided hc =>
      cases a with
      | call c => cases hc; exact absurd ha id
      | _ => cases hc
    | source hm hk hs hloc hcell =>
      subst hk hs hloc
      exact (hi.coherent.source _ _ hm).of_cell (hold _) hchunk hcell
    | arrived hm hk hd hloc harr hcell =>
      subst hk hd hloc
      exact (hi.arrived _ _ hm harr).of_cell (hold _) hchunk hcell
    | file hr hs himage =>
      intro b hb
      have hb := hold key b hb
      show Image e.chunkBytes key tier b (e.cell tier l.slot)
      rw [hchunk]
      exact himage b (hi.sized key b hb) (hi.coherent.ready key _ _ _ hr hs b hb)
  · intro o m hm'
    rcases step_departs hl h hm' with hm | hd
    · exact (hi.coherent.source o m hm).of_cell (hold _) hchunk
        (move_cell hl hl' hi.writing h hm hm').1
    · obtain ⟨r, hr, hs⟩ := hd.source
      exact (hi.coherent.ready m.key r _ _ hr hs).of_cell (hold _) hchunk (hd.cell _ _)
  · intro o m hm' harr
    rcases step_departs hl h hm' with hm | hd
    · rcases step_arrived hl hl' hi.writing h hm hm' harr with ⟨harr₀, hcell⟩ | hlands
      · exact (hi.arrived o m hm harr₀).of_cell (hold _) hchunk hcell
      · intro b hb
        have hb := hold m.key b hb
        show Image e.chunkBytes m.key m.destination b (e.cell m.destination m.destinationLoc.slot)
        rw [hchunk]
        exact lands_image hl hlands (hi.sized m.key b hb) (hi.coherent.source o m hm b hb)
    · exact absurd harr hd.fresh

/-! ## Writes of the client -/

/-- **A write of the client** changes one slot, to the chunk's bytes. -/
theorem fill_cases {e : Engine} (hl : e.Inv H) (key : CacheKey) (tier : StorageTier) (i : ℕ)
    (validTokens : UInt64) (fault : WriteFault) (hlen : b.length = e.chunkBytes) :
    (∃ err st, fill key tier i validTokens b fault e = .error err { e with store := st } ∧
      st.Same e.store) ∨
    ∃ gpu cpu st, fill key tier i validTokens b fault e =
        .ok () { e with gpu := gpu, cpu := cpu, store := st } ∧
      Sized { e with gpu := gpu, cpu := cpu, store := st } ∧
      (∀ t j, t ≠ tier ∨ j ≠ i → cell { e with gpu := gpu, cpu := cpu, store := st } t j =
        e.cell t j) ∧
      Image e.chunkBytes key tier b (cell { e with gpu := gpu, cpu := cpu, store := st } tier i) := by
  by_cases ht : tier = .NVME
  · subst ht
    rcases ChunkFileStore.write_cases fault i
        (makeFileMeta key validTokens (UInt64.ofNat e.chunkBytes)) b e.store with
      ⟨err, st, hw, hsame⟩ | ⟨w, st, hcheck, hw, hsame⟩
    · exact .inl ⟨err, st, onStore_error hw, hsame⟩
    · have hslot := (ChunkFileStore.writeCheck_ok hcheck).1
      refine .inr ⟨e.gpu, e.cpu, st, onStore_ok hw,
        ⟨hl.sized.chunkBytes_lt, hl.sized.gpu, hl.sized.cpu⟩, fun t j hj => ?_, ?_⟩
      · cases t with
        | GPU => rfl
        | CPU => rfl
        | NVME =>
          show st.files.lookup j = _
          rw [hsame.files]
          exact lookup_writeCommit_of_ne (hslot ▸ hj.resolve_left (absurd rfl))
      · show Image _ _ _ _ (st.files.lookup i)
        rw [hsame.files]
        exact image_writeCommit hl.sized.chunkBytes_lt hlen hcheck
  · rw [fill_memory ht]
    cases e.buffer tier i with
    | error err => exact .inl ⟨err, e.store, rfl, .refl _⟩
    | ok _ =>
      refine .inr ⟨_, _, e.store, rfl, hl.sized.setMem (length_overwrite _ _), fun t j hj =>
        cell_setMem_of_ne hj, ?_⟩
      have hsized : (e.mem tier i).length = e.chunkBytes := by
        cases htier : tier with
        | GPU => exact hl.sized.gpu _
        | CPU => exact hl.sized.cpu _
        | NVME => exact absurd htier ht
      rw [overwrite_eq (hlen.trans hsized.symm), Image.memory ht]
      exact cell_setMem_self ht i b

/-- **A write of the client** keeps the invariant. -/
theorem write_inv {validTokens : UInt64} {fault : WriteFault} (hi : s.Inv H)
    (ha : Disciplined s (.write key tier validTokens b fault))
    (h : step (.write key tier validTokens b fault) s = some s') : s'.Inv H := by
  have hl := hi.engine
  obtain ⟨hnone, hlen, hsole⟩ := ha
  simp only [step] at h
  split_ifs at h
  obtain ⟨slot, hslot, h⟩ := Option.map_eq_some_iff.mp h
  obtain ⟨r, hr, hs⟩ := Option.bind_eq_some_iff.mp hslot
  -- no move has two replicas of the chunk
  have hstill : ∀ o m, s.engine.move o = some m → m.key ≠ key := by
    rintro o m hm rfl
    obtain ⟨r₁, hr₁, ⟨_, hsrc, -⟩, ⟨_, hdst, -⟩, -⟩ := hl.locks.held o m hm
    have hne := hl.locks.tiers_ne o m hm
    by_cases ht : m.source = tier
    · rw [hsole r₁ hr₁ m.destination fun hd => hne (ht.trans hd.symm)] at hdst
      cases hdst
    · rw [hsole r₁ hr₁ m.source ht] at hsrc
      cases hsrc
  rcases fill_cases hl key tier slot.location.slot validTokens fault hlen with
    ⟨err, st, hf, hsame⟩ | ⟨gpu, cpu, st, hf, hsized, hcell, himage⟩
  · simp only [hf] at h
    subst h
    have hkeep : ∀ {key tier l}, s.Holds key tier l →
        Holds { engine := { s.engine with store := st }, content := s.content } key tier l := by
      intro key tier l hh
      refine hh.of_cell (fun _ hb => hb) rfl ?_
      cases tier with
      | GPU => rfl
      | CPU => rfl
      | NVME => exact congrArg (AList.lookup l.slot) hsame.files
    exact ⟨⟨hl.directory, hl.locks, ⟨hl.sized.chunkBytes_lt, hl.sized.gpu, hl.sized.cpu⟩,
        hl.queue.frame rfl rfl rfl rfl rfl le_rfl fun _ h => h⟩, hi.writing, hi.sized,
      ⟨fun key r tier l hr hs => hkeep (hi.coherent.ready key r tier l hr hs),
        fun o m hm => hkeep (hi.coherent.source o m hm)⟩,
      fun o m hm harr => hkeep (hi.arrived o m hm harr)⟩
  · simp only [hf] at h
    subst h
    -- a slot of another chunk
    have hkeep : ∀ {k t l st₁ r₁}, s.engine.directory.record k = some r₁ →
        r₁.replica t = some ⟨l, st₁⟩ → k ≠ key → s.Holds k t l →
        Holds { engine := { s.engine with gpu := gpu, cpu := cpu, store := st },
                content := Function.update s.content key (some b) } k t l := by
      intro k t l st₁ r₁ hr₁ hs₁ hk hh
      refine hh.of_cell (fun c (hc : Function.update s.content key (some b) k = some c) => by
        rwa [Function.update_of_ne hk] at hc) rfl (hcell t l.slot ?_)
      by_contra hne
      rw [not_or, not_not, not_not] at hne
      obtain ⟨rfl, hi⟩ := hne
      exact hk (hl.directory.slot_key hr₁ hr hs₁ hs hi)
    refine ⟨⟨hl.directory, hl.locks, hsized, hl.queue.frame rfl rfl rfl rfl rfl le_rfl fun _ h => h⟩,
      hi.writing,
      fun k c (hc : Function.update s.content key (some b) k = some c) => ?_,
      ⟨fun k r₁ t l hr₁ hs₁ => ?_, fun o m hm => ?_⟩, fun o m hm harr => ?_⟩
    · by_cases hk : k = key
      · rw [hk, Function.update_self] at hc
        cases hc
        exact hlen
      · rw [Function.update_of_ne hk] at hc
        exact hi.sized k c hc
    · by_cases hk : k = key
      · subst hk
        rw [hr] at hr₁
        cases hr₁
        -- the replica that has been written is the only one
        have ht : t = tier := by
          by_contra ht
          rw [hsole r hr t ht] at hs₁
          cases hs₁
        subst ht
        rw [hs] at hs₁
        cases hs₁
        intro c (hc : Function.update s.content k (some b) k = some c)
        rw [Function.update_self] at hc
        cases hc
        exact himage
      · exact hkeep hr₁ hs₁ hk (hi.coherent.ready k r₁ t l hr₁ hs₁)
    · obtain ⟨r₁, st₁, d₁, hr₁, hsrc, -⟩ := move_replicas hl hm
      exact hkeep hr₁ hsrc (hstill o m hm) (hi.coherent.source o m hm)
    · obtain ⟨r₁, st₁, d₁, hr₁, -, hdst⟩ := move_replicas hl hm
      exact hkeep hr₁ hdst (hstill o m hm) (hi.arrived o m hm harr)

/-! ## Runs -/

theorem start_inv (h : s.Start H) : s.Inv H := by
  have hl := Engine.start_inv h.engine
  obtain ⟨htasks, hpending, -, -, -, hworkers, -⟩ := h.engine.fresh
  have hmove : ∀ o m, s.engine.move o ≠ some m := by
    intro o m hm
    cases o with
    | task id => simp [move, htasks] at hm
    | transfer key => simp [move, hpending] at hm
  refine ⟨hl, fun w id p hw => ?_, fun key b hb => ?_, ⟨fun key r tier l hr hs b hb => ?_,
    fun o m hm => absurd hm (hmove o m)⟩, fun o m hm => absurd hm (hmove o m)⟩
  · rw [hworkers] at hw
    cases hw
  · rw [h.content] at hb
    cases hb
  · rw [h.content] at hb
    cases hb

/-- **Every disciplined step keeps the invariant.** -/
theorem step_inv (hi : s.Inv H) (ha : Disciplined s a) (h : step a s = some s') : s'.Inv H := by
  cases a with
  | engine a =>
    obtain ⟨e, he, rfl⟩ := Option.map_eq_some_iff.mp h
    exact engine_inv hi ha he
  | write key tier validTokens bytes fault => exact write_inv hi ha h

/-- **Main result.** In every state that a disciplined client reaches, over every interleaving of
the engines, the workers and the device, READY replicas and the sources of unfinished moves hold
what the client wrote for their chunk. -/
theorem content_coherent (hr : Transition.Reachable step (Start H) Disciplined s) : s.Coherent :=
  (hr.invariant (fun _ => start_inv) fun _ _ _ _ hi ha hs => step_inv hi ha hs).coherent

/-- A chunk is placed and written, and goes to a file. -/
def fileRun : List ClientAction :=
  [.engine (.call (.submit (chunk 1) .NVME 1 0 {})), .engine (.take 0), .engine (.checkCancel 0),
    .engine (.io 0 .none), .engine (.commit 0 .none), .engine (.storeResult 0), .engine (.notify 0),
    .engine (.call (.poll 1 true))]

/-- A run of migrations needs no discipline. -/
theorem fileRun_disciplined : ∀ a ∈ fileRun, ∀ s, Disciplined s a := by
  intro a ha s
  simp only [fileRun, List.mem_cons, List.not_mem_nil, or_false] at ha
  rcases ha with rfl | rfl | rfl | rfl | rfl | rfl | rfl | rfl <;> trivial

theorem content_coherent_file : ∃ s : Client, ∃ r l,
    s.engine.directory.record (chunk 1) = some r ∧ r.nvme = some ⟨l, .READY⟩ ∧
      s.content (chunk 1) = some [1, 2, 3, 4] ∧ s.Coherent := by
  have hstart : Start (fun _ => 0) { engine := small 1000 1 } :=
    ⟨small_start 1000 1 one_ne_zero, fun _ => rfl⟩
  have hcreate := @Reachable.step _ _ step (Start fun _ => 0) Disciplined _ _
    (.engine (.call (.directory (.create (chunk 1))))) (.start hstart) trivial rfl
  have hplace := @Reachable.step _ _ step (Start fun _ => 0) Disciplined _ _
    (.engine (.call (.directory (.place (chunk 1) .CPU .READY)))) hcreate
    (fun r hr tier => by cases hr; cases tier <;> rfl) rfl
  have hwrite := @Reachable.step _ _ step (Start fun _ => 0) Disciplined _ _
    (.write (chunk 1) .CPU 1 [1, 2, 3, 4] .none) hplace
    ⟨rfl, rfl, fun r hr t ht => by cases hr; cases t <;> first | rfl | exact absurd rfl ht⟩ rfl
  have hfile := fun s => @Reachable.run _ _ step (Start fun _ => 0) Disciplined _ s hwrite fileRun
    fileRun_disciplined
  exact ⟨_, _, _, rfl, rfl, rfl, content_coherent (hfile _ rfl)⟩

end Client

end KVFlux.V3
