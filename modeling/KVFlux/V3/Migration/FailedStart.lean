import KVFlux.V3.Migration.Exact
import KVFlux.V3.Migration.Exclusive

/-!
# Starts that fail

A start that throws should leave no trace. It leaves none, unless the stream cannot be synchronized
in its own clean-up: then it throws again before anything is undone.

* `Untouched e e'`: the records, what the tiers have handed out, the queue, the tasks and the
  pending transfers are the same.
* `StartCall`, `StartCall.plan`: the calls that start a move, and what their checks let pass.
* `Plan.Stuck`: behind the checks the start fails. `StartCall.Clean`: then its clean-up works.
* **`start_traceless_iff`**: a start that throws leaves no trace iff it is clean.
-/

namespace KVFlux.V3

open Fallible ChunkRecord

namespace Engine

variable {H : Tokens → UInt64} {e e₁ e' e'' : Engine} {d : CacheDirectory} {key : CacheKey}
  {r r₁ : ChunkRecord} {source destination : StorageTier} {ls l : TierLocation} {ss sd : ChunkState}
  {fault : CopyFault} {others : Multiset BlockHandle} {α : Type} {err : Exn}

/-- The same tasks, transfers and queue. -/
structure SameTasks (e e' : Engine) : Prop where
  ioQueue : e'.ioQueue = e.ioQueue
  tasks : e'.tasks = e.tasks
  pending : e'.pending = e.pending

theorem SameTasks.trans (h : SameTasks e e') (h' : SameTasks e' e'') : SameTasks e e'' :=
  ⟨h'.ioQueue.trans h.ioQueue, h'.tasks.trans h.tasks, h'.pending.trans h.pending⟩

/-- What a start that throws has to leave alone. -/
structure Untouched (e e' : Engine) : Prop extends SameTasks e e' where
  record : e'.directory.record = e.directory.record
  tiers : e.directory.tiers.Same e'.directory.tiers

theorem Untouched.refl (e : Engine) : Untouched e e := ⟨⟨rfl, rfl, rfl⟩, rfl, .refl _⟩

/-- The slots are in range and no device call fails. -/
def CopyStarts (e : Engine) (source : StorageTier) (ls : TierLocation) (destination : StorageTier)
    (l : TierLocation) (fault : CopyFault) : Prop :=
  e.buffer destination l.slot = .ok () ∧ e.buffer source ls.slot = .ok () ∧
    fault.eventCreate = false ∧ fault.memcpy = false ∧ fault.eventRecord = false

/-- What the checks at the beginning of a start let pass. -/
structure Plan where
  key : CacheKey
  record : ChunkRecord
  source : StorageTier
  sourceLoc : TierLocation
  destination : StorageTier

/-- The start fails behind its checks: the destination tier has no slot, or the copy cannot be
submitted. -/
def Plan.Stuck (p : Plan) (e : Engine) (fault : CopyFault) : Prop :=
  match Tiers.allocate p.destination e.directory.tiers with
  | .error _ _ => True
  | .ok l _ => (p.source = .GPU ∨ p.destination = .GPU) ∧
    ¬ e.CopyStarts p.source p.sourceLoc p.destination l fault

/-- The destination tier has a slot. -/
def Plan.Placed (p : Plan) (e : Engine) : Prop :=
  ∃ l t, Tiers.allocate p.destination e.directory.tiers = .ok l t

end Engine

/-- The calls that start a move. -/
inductive StartCall
  | submit (key : CacheKey) (destination : StorageTier) (validTokens : UInt64) (priority : ℤ)
  | transfer (offload : Bool) (key : CacheKey)

namespace StartCall

open Engine

def exec (fault : CopyFault) : StartCall → Call Engine Unit
  | .submit key destination validTokens priority => do
    let _ ← Engine.submit key destination validTokens priority fault
    pure ()
  | .transfer offload key => Engine.beginTransfer offload key fault

/-- The checks of `submit`. -/
def submitPlan (e : Engine) (key : CacheKey) (destination : StorageTier) : Option Plan :=
  match e.directory.record key with
  | none => none
  | some r =>
    match inferSource r destination with
    | .ok (some source) =>
      match r.replica source, r.replica destination with
      | some slot, none => some ⟨key, r, source, slot.location, destination⟩
      | _, _ => none
    | _ => none

/-- The checks of `begin_offload` and `begin_onload`. -/
def transferPlan (e : Engine) (offload : Bool) (key : CacheKey) : Option Plan :=
  let source : StorageTier := if offload then .GPU else .CPU
  let destination : StorageTier := if offload then .CPU else .GPU
  match e.pending key, e.directory.record key with
  | none, some r =>
    match r.replica source, r.replica destination with
    | some ⟨ls, .READY⟩, none => some ⟨key, r, source, ls, destination⟩
    | _, _ => none
  | _, _ => none

def plan (e : Engine) : StartCall → Option Plan
  | .submit key destination _ _ => submitPlan e key destination
  | .transfer offload key => transferPlan e offload key

/-- `submit` pins the chunk when it has a destination; the counter must not wrap around. -/
def PinFits (e : Engine) (p : Plan) : StartCall → Prop
  | .submit _ _ _ _ => p.Placed e → p.record.pinCount + 1 < 2 ^ 64
  | .transfer _ _ => True

/-- Where the start fails behind its checks, the stream can be synchronized, no slot is lost with an
exhausted generation, and the pin of `submit` does not wrap around. -/
def Clean (c : StartCall) (e : Engine) (fault : CopyFault) : Prop :=
  ∀ p, c.plan e = some p → p.Stuck e fault →
    fault.syncOk = true ∧ ¬ e.directory.tiers.Exhausted p.destination ∧ c.PinFits e p

end StartCall

namespace Engine

variable {H : Tokens → UInt64} {e e₁ e' e'' : Engine} {d : CacheDirectory} {key : CacheKey}
  {r r₁ : ChunkRecord} {source destination : StorageTier} {ls l : TierLocation} {ss sd : ChunkState}
  {fault : CopyFault} {others : Multiset BlockHandle} {α : Type} {err : Exn}

/-! ## Attempts -/

theorem submitCopy_starts (he : fault.eventCreate = false) (hm : fault.memcpy = false)
    (hr : fault.eventRecord = false) (tier : StorageTier) (i : ℕ) :
    submitCopy tier i fault e = .ok () e := by
  simp [submitCopy, bind_apply, ensure, he, hm, hr]

theorem submitCopy_ok {tier : StorageTier} {i : ℕ} {u : Unit}
    (h : submitCopy tier i fault e = .ok u e') :
    (fault.eventCreate = false ∧ fault.memcpy = false ∧ fault.eventRecord = false) ∧ e' = e := by
  have hs : fault.eventCreate = false ∧ fault.memcpy = false ∧ fault.eventRecord = false := by
    simp only [submitCopy, bind_apply, ensure, modify_apply] at h
    by_cases h₁ : fault.eventCreate = false
    · by_cases h₂ : fault.memcpy = false
      · by_cases h₃ : fault.eventRecord = false
        · exact ⟨h₁, h₂, h₃⟩
        · simp [h₁, h₂, h₃] at h
      · simp [h₁, h₂] at h
    · simp [h₁] at h
  refine ⟨hs, ?_⟩
  rw [submitCopy_starts hs.1 hs.2.1 hs.2.2] at h
  cases h
  rfl

/-- The ways the attempt behind the checks can end, with `n` pins once the destination is placed. -/
inductive Attempt (e : Engine) (key : CacheKey) (r : ChunkRecord) (source : StorageTier)
    (ls : TierLocation) (destination : StorageTier) (n : ℕ) (fault : CopyFault) :
    EStateM.Result Exn Engine α → Prop
  | full {err : Exn} {t : Tiers} {d : CacheDirectory}
      (ha : Tiers.allocate destination e.directory.tiers = .error err t) (ht : d.tiers = t)
      (hr : d.record = e.directory.record) :
      Attempt e key r source ls destination n fault (.error err { e with directory := d })
  | stuck {l : TierLocation} {t : Tiers} {d : CacheDirectory} {err : Exn} {o : List Orphan}
      (ha : Tiers.allocate destination e.directory.tiers = .ok l t) (ht : d.tiers = t)
      (hr : d.record = Function.update e.directory.record key
        (some ((r.setReplica destination (some ⟨l, taskState destination⟩)).setPins n)))
      (hc : source = .GPU ∨ destination = .GPU)
      (hs : ¬ e.CopyStarts source ls destination l fault) :
      Attempt e key r source ls destination n fault
        (.error err { e with directory := d, orphans := o })
  | started {l : TierLocation} {t : Tiers} {a : α} {e' : Engine}
      (ha : Tiers.allocate destination e.directory.tiers = .ok l t)
      (hr : (e'.directory.record key).isSome)
      (hs : source = .GPU ∨ destination = .GPU → e.CopyStarts source ls destination l fault) :
      Attempt e key r source ls destination n fault (.ok a e')

/-- The copy part of an attempt, behind the placing. -/
theorem attempt_copy {x : Call Engine α} {n : ℕ} {t : Tiers} {a : α}
    (ha : Tiers.allocate destination e.directory.tiers = .ok l t) (ht : d.tiers = t)
    (hr : d.record = Function.update e.directory.record key
      (some ((r.setReplica destination (some ⟨l, taskState destination⟩)).setPins n)))
    (hc : source = .GPU ∨ destination = .GPU)
    (hx : x e = (do
      let e ← get
      check (e.buffer destination l.slot)
      check (e.buffer source ls.slot)
      submitCopy destination l.slot fault
      pure a : Call Engine α) { e with directory := d }) :
    Attempt e key r source ls destination n fault (x e) := by
  rw [hx]
  simp only [bind_apply, get_apply]
  cases hb₁ : buffer { e with directory := d } destination l.slot with
  | error err =>
    refine .stuck (o := e.orphans) ha ht hr hc fun hs => ?_
    have : e.buffer destination l.slot = .error err := hb₁
    rw [hs.1] at this
    cases this
  | ok _ =>
    cases hb₂ : buffer { e with directory := d } source ls.slot with
    | error err =>
      refine .stuck (o := e.orphans) ha ht hr hc fun hs => ?_
      have : e.buffer source ls.slot = .error err := hb₂
      rw [hs.2.1] at this
      cases this
    | ok _ =>
      simp only [check_ok]
      by_cases hs : fault.eventCreate = false ∧ fault.memcpy = false ∧ fault.eventRecord = false
      · rw [submitCopy_starts hs.1 hs.2.1 hs.2.2]
        exact .started ha (by simp [hr]) fun _ => ⟨hb₁, hb₂, hs⟩
      · have hns : ¬ e.CopyStarts source ls destination l fault := fun h => hs h.2.2
        rcases @submitCopy_cases { e with directory := d } destination l.slot fault with
          h | ⟨err, h⟩ | ⟨err, h⟩
        · exact absurd (submitCopy_ok h).1 hs
        · rw [h]
          exact .stuck (o := e.orphans) ha ht hr hc hns
        · rw [h]
          exact .stuck ha ht hr hc hns

/-- The `try` block of `submit`. -/
theorem startTask_attempt {t : Task} (hr : e.directory.record t.key = some r)
    (hn : r.replica t.destination = none) (fault : CopyFault) :
    Attempt e t.key r t.source t.sourceLoc t.destination ((r.pinCount + 1) % 2 ^ 64) fault
      (startTask t fault e) := by
  rcases CacheDirectory.place_exact hr hn (taskState t.destination) with
    ⟨err, t', ha, h₁⟩ | ⟨l, t', d₁, ha, h₁, ht₁, hr₁⟩
  · have hp : onDirectory (CacheDirectory.place t.key t.destination
        (if t.destination = .GPU then .LOADING else .COPYING)) e =
        .error err { e with directory := { e.directory with tiers := t' } } :=
      onDirectory_error h₁
    have hx : startTask t fault e =
        .error err { e with directory := { e.directory with tiers := t' } } := by
      simp only [startTask, bind_apply, hp]
    rw [hx]
    exact .full ha rfl rfl
  have hr₁' : d₁.record t.key =
      some (r.setReplica t.destination (some ⟨l, taskState t.destination⟩)) := by
    rw [hr₁, Function.update_self]
  obtain ⟨d, h₂, ht₂, hr₂⟩ := CacheDirectory.pin_exact hr₁'
  have hp : onDirectory (CacheDirectory.place t.key t.destination
      (if t.destination = .GPU then .LOADING else .COPYING)) e = .ok l { e with directory := d₁ } :=
    onDirectory_ok h₁
  have hpin : onDirectory (CacheDirectory.pin t.key) { e with directory := d₁ } =
      .ok () { e with directory := d } :=
    onDirectory_ok h₂
  have hrec : d.record = Function.update e.directory.record t.key
      (some ((r.setReplica t.destination (some ⟨l, taskState t.destination⟩)).setPins
        ((r.pinCount + 1) % 2 ^ 64))) := by
    rw [hr₂, hr₁, Function.update_idem, setReplica_pinCount]
  by_cases hc : t.source = .GPU ∨ t.destination = .GPU
  · refine attempt_copy (a := { t with destinationLoc := l, state := .RUNNING }) ha (ht₂.trans ht₁)
      hrec hc ?_
    have : (Task.usesCuda { t with destinationLoc := l }) = true := decide_eq_true hc
    simp only [startTask, bind_apply, hp, hpin, this, if_true]
  · have : (Task.usesCuda { t with destinationLoc := l }) = false := decide_eq_false hc
    have hx : startTask t fault e = .ok { t with destinationLoc := l }
        { e with directory := d, ioQueue := e.ioQueue ++ [t.id] } := by
      simp only [startTask, bind_apply, hp, hpin, this, Bool.false_eq_true, if_false, modify_apply,
        pure_apply]
    rw [hx]
    exact .started ha (by simp [hrec]) fun h => absurd h hc

/-- The `try` blocks of `begin_offload` and `begin_onload`. -/
theorem beginCopy_attempt (hr : e.directory.record key = some r)
    (hn : r.replica destination = none) (hc : source = .GPU ∨ destination = .GPU)
    (fault : CopyFault) :
    Attempt e key r source ls destination r.pinCount fault
      (beginCopy key source ls destination fault e) := by
  rcases CacheDirectory.place_exact hr hn (taskState destination) with
    ⟨err, t', ha, h₁⟩ | ⟨l, t', d, ha, h₁, ht, hrec⟩
  · have hp : onDirectory (CacheDirectory.place key destination
        (if destination = .GPU then .LOADING else .COPYING)) e =
        .error err { e with directory := { e.directory with tiers := t' } } :=
      onDirectory_error h₁
    have hx : beginCopy key source ls destination fault e =
        .error err { e with directory := { e.directory with tiers := t' } } := by
      simp only [beginCopy, bind_apply, hp]
    rw [hx]
    exact .full ha rfl rfl
  have hp : onDirectory (CacheDirectory.place key destination
      (if destination = .GPU then .LOADING else .COPYING)) e = .ok l { e with directory := d } :=
    onDirectory_ok h₁
  have hrec' : d.record = Function.update e.directory.record key
      (some ((r.setReplica destination (some ⟨l, taskState destination⟩)).setPins r.pinCount)) := by
    rw [hrec]
    exact congrArg _ (congrArg some (ext_replica (by simp) (by simp) (by simp) (by simp)
      fun t => by simp))
  by_cases hev : fault.eventCreate = false
  · refine attempt_copy (a := l) ha ht hrec' hc ?_
    simp only [beginCopy, bind_apply, hp, ensure, if_pos hev]
  · have hx : beginCopy key source ls destination fault e =
        .error (.runtimeError "cudaEventCreateWithFlags")
          { e with directory := d, orphans := e.orphans } := by
      simp only [beginCopy, bind_apply, hp, ensure, if_neg hev]
    rw [hx]
    exact .stuck ha ht hrec' hc fun hs => hev hs.2.2.1

/-! ## Clean-ups -/

theorem synchronize_fail (h : ¬ fault.syncOk = true) (tier : StorageTier) (slot : Option ℕ) :
    synchronize tier slot fault e = .error (.runtimeError "cudaStreamSynchronize") e := by
  simp only [synchronize, bind_apply, ensure, if_neg h]

/-- The synchronization changes at most the bytes of the destination. -/
theorem synchronize_frame (h : fault.syncOk = true) (tier : StorageTier) (slot : Option ℕ) :
    ∃ e', synchronize tier slot fault e = .ok () e' ∧ e'.directory = e.directory ∧
      SameTasks e e' := by
  simp only [synchronize, bind_apply, ensure, if_pos h]
  cases slot with
  | none => exact ⟨e, rfl, rfl, rfl, rfl, rfl⟩
  | some i =>
    simp only [modify_apply]
    split_ifs
    · exact ⟨_, rfl, rfl, rfl, rfl, rfl⟩
    · exact ⟨_, rfl, rfl, rfl, rfl, rfl⟩

/-- The clean-up calls on a placed destination, up to the pin. -/
theorem discard_exact {t : Tiers} (hr : d.record key = some r)
    (hd : r.replica destination = some ⟨l, sd⟩)
    (hrel : Tiers.release destination l d.tiers = .ok () t) :
    ∃ d₁ d₂, CacheDirectory.setState key destination .ERROR d = .ok () d₁ ∧
      CacheDirectory.remove key destination d₁ = .ok () d₂ ∧ d₂.tiers = t ∧
      d₂.record = Function.update d.record key (some (r.setReplica destination none)) := by
  obtain ⟨d₁, h₁, ht₁, hr₁⟩ := CacheDirectory.setState_exact hr hd .ERROR
  have hr₁' : d₁.record key = some (r.setReplica destination (some ⟨l, .ERROR⟩)) := by
    rw [hr₁, Function.update_self]
  obtain ⟨d₂, h₂, ht₂, hr₂⟩ := CacheDirectory.remove_exact hr₁' (replica_setReplica_self _ _ _)
    (.inr rfl) (ht₁ ▸ hrel)
  refine ⟨d₁, d₂, h₁, h₂, ht₂, ?_⟩
  rw [hr₂, hr₁, Function.update_idem]
  congr 2
  refine ext_replica (by simp) (by simp) (by simp) (by simp) fun t => ?_
  by_cases h : t = destination <;> simp [h]

/-- `rollback_submit` of a placed destination. -/
theorem rollbackSubmit_exact {t : Tiers} (hsync : fault.syncOk = true)
    (hr : e.directory.record key = some r) (hs : r.replica source = some ⟨ls, ss⟩)
    (hd : r.replica destination = some ⟨l, sd⟩) (hne : source ≠ destination)
    (hrel : Tiers.release destination l e.directory.tiers = .ok () t) :
    (r.pinCount = 0 ∧ ∃ err e', rollbackSubmit key source destination fault e = .error err e' ∧
      e'.directory.record = Function.update e.directory.record key
        (some (r.setReplica destination none))) ∨
    (r.pinCount ≠ 0 ∧ ∃ e', rollbackSubmit key source destination fault e = .ok () e' ∧
      SameTasks e e' ∧ e'.directory.tiers = t ∧
      e'.directory.record = Function.update e.directory.record key
        (some (((r.setReplica destination none).setPins (r.pinCount - 1)).setReplica source
          (some ⟨ls, .READY⟩)))) := by
  obtain ⟨e₁, h₁, hdir, hsame⟩ := @synchronize_frame e fault hsync destination (some l.slot)
  obtain ⟨d₁, d₂, h₂, h₃, ht, hrec⟩ := discard_exact hr hd hrel
  have hr₂ : d₂.record key = some (r.setReplica destination none) := by
    rw [hrec, Function.update_self]
  simp only [rollbackSubmit, bind_apply, get_apply, CacheDirectory.lookup_record hr, check_ok, hd,
    Option.map_some, h₁, Option.isSome_some, if_true]
  by_cases hz : r.pinCount = 0
  · left
    have hu := CacheDirectory.unpin_zero hr₂ ((setReplica_pinCount _ _ _).trans hz)
    refine ⟨hz, .logicError "pin count already zero", { e₁ with directory := d₂ }, ?_, hrec⟩
    apply onDirectory_error
    rw [hdir]
    simp only [bind_apply, h₂, h₃, hu]
  · right
    have hpos : (r.setReplica destination none).pinCount ≠ 0 := by
      rwa [setReplica_pinCount]
    obtain ⟨d₃, h₄, ht₃, hr₃⟩ := CacheDirectory.unpin_exact hr₂ hpos
    have hr₃' : d₃.record key =
        some ((r.setReplica destination none).setPins (r.pinCount - 1)) := by
      rw [hr₃, Function.update_self, setReplica_pinCount]
    have hs₃ : ((r.setReplica destination none).setPins (r.pinCount - 1)).replica source =
        some ⟨ls, ss⟩ := by
      rw [replica_setPins, replica_setReplica_of_ne hne, hs]
    obtain ⟨d₄, h₅, ht₄, hr₄⟩ := CacheDirectory.setState_exact hr₃' hs₃ .READY
    refine ⟨hz, { e₁ with directory := d₄ }, ?_, ⟨hsame.ioQueue, hsame.tasks, hsame.pending⟩,
      ht₄.trans (ht₃.trans ht), ?_⟩
    · apply onDirectory_ok
      rw [hdir]
      simp only [bind_apply, h₂, h₃, h₄, h₅]
    · rw [hr₄, hr₃, hrec, Function.update_idem, Function.update_idem]

/-- The clean-up of `begin_offload` and `begin_onload` on a placed destination. -/
theorem rollbackBegin_exact {t : Tiers} (hsync : fault.syncOk = true)
    (hr : e.directory.record key = some r) (hs : r.replica source = some ⟨ls, ss⟩)
    (hd : r.replica destination = some ⟨l, sd⟩) (hne : source ≠ destination)
    (hrel : Tiers.release destination l e.directory.tiers = .ok () t) :
    ∃ e', rollbackBegin key source destination fault e = .ok () e' ∧ SameTasks e e' ∧
      e'.directory.tiers = t ∧
      e'.directory.record = Function.update e.directory.record key
        (some ((r.setReplica destination none).setReplica source (some ⟨ls, .READY⟩))) := by
  obtain ⟨e₁, h₁, hdir, hsame⟩ := @synchronize_frame e fault hsync destination (some l.slot)
  obtain ⟨d₁, d₂, h₂, h₃, ht, hrec⟩ := discard_exact hr hd hrel
  have hr₂ : d₂.record key = some (r.setReplica destination none) := by
    rw [hrec, Function.update_self]
  obtain ⟨d₃, h₄, ht₃, hr₃⟩ := CacheDirectory.setState_exact hr₂
    ((replica_setReplica_of_ne hne).trans hs) .READY
  simp only [rollbackBegin, bind_apply, get_apply, CacheDirectory.lookup_record hr, check_ok, hd,
    Option.map_some, h₁, Option.isSome_some, if_true]
  refine ⟨{ e₁ with directory := d₃ }, ?_, ⟨hsame.ioQueue, hsame.tasks, hsame.pending⟩,
    ht₃.trans ht, ?_⟩
  · apply onDirectory_ok
    rw [hdir]
    simp only [bind_apply, h₂, h₃, h₄]
  · rw [hr₃, hrec, Function.update_idem]

/-- Without a destination the two clean-ups are one. -/
theorem rollback_none_exact (hsync : fault.syncOk = true) (hr : e.directory.record key = some r)
    (hs : r.replica source = some ⟨ls, ss⟩) (hd : r.replica destination = none) :
    ∃ e', rollbackSubmit key source destination fault e = .ok () e' ∧
      rollbackBegin key source destination fault e = .ok () e' ∧ SameTasks e e' ∧
      e'.directory.tiers = e.directory.tiers ∧
      e'.directory.record = Function.update e.directory.record key
        (some (r.setReplica source (some ⟨ls, .READY⟩))) := by
  obtain ⟨e₁, h₁, hdir, hsame⟩ := @synchronize_frame e fault hsync destination none
  obtain ⟨d₁, h₂, ht, hrec⟩ := CacheDirectory.setState_exact hr hs .READY
  have hset : onDirectory (CacheDirectory.setState key source .READY) e₁ =
      .ok () { e₁ with directory := d₁ } :=
    onDirectory_ok (by rw [hdir]; exact h₂)
  refine ⟨{ e₁ with directory := d₁ }, ?_, ?_, ⟨hsame.ioQueue, hsame.tasks, hsame.pending⟩, ht,
    hrec⟩
  · simp only [rollbackSubmit, bind_apply, get_apply, CacheDirectory.lookup_record hr, check_ok, hd,
      Option.map_none, h₁, Option.isSome_none, Bool.false_eq_true, if_false]
    exact hset
  · simp only [rollbackBegin, bind_apply, get_apply, CacheDirectory.lookup_record hr, check_ok, hd,
      Option.map_none, h₁, Option.isSome_none, Bool.false_eq_true, if_false]
    exact hset

/-- A clean-up whose synchronization fails does nothing. -/
theorem rollback_fail (hsync : ¬ fault.syncOk = true) (hr : e.directory.record key = some r) :
    rollbackSubmit key source destination fault e =
        .error (.runtimeError "cudaStreamSynchronize") e ∧
      rollbackBegin key source destination fault e =
        .error (.runtimeError "cudaStreamSynchronize") e := by
  simp only [rollbackSubmit, rollbackBegin, bind_apply, get_apply, CacheDirectory.lookup_record hr,
    check_ok, synchronize_fail hsync, and_self]

/-! ## Failed starts -/

/-- A source that stays in transfer is a trace. -/
theorem touched_of_copying (hr : e.directory.record key = some r)
    (hs : r.replica source = some ⟨ls, .READY⟩) (hr' : e'.directory.record key = some r₁)
    (hs' : r₁.replica source = some ⟨ls, .COPYING⟩) : ¬ Untouched e e' := by
  intro hu
  rw [hu.record, hr] at hr'
  obtain rfl := Option.some.inj hr'
  rw [hs] at hs'
  cases hs'

/-- A record that is put back is no trace iff it is the old one. -/
theorem untouched_iff (hr : e.directory.record key = some r) (hs : SameTasks e e')
    (hrec : e'.directory.record = Function.update e.directory.record key (some r₁)) :
    Untouched e e' ↔ r₁ = r ∧ e.directory.tiers.Same e'.directory.tiers := by
  constructor
  · intro hu
    have h := congrFun hrec key
    rw [hu.record, hr, Function.update_self] at h
    exact ⟨(Option.some.inj h).symm, hu.tiers⟩
  · rintro ⟨rfl, ht⟩
    refine ⟨hs, ?_, ht⟩
    rw [hrec, ← hr, Function.update_eq_self]

/-- The state behind the checks: the source is marked. -/
structure Marked (e e₁ : Engine) (key : CacheKey) (r : ChunkRecord) (source : StorageTier)
    (ls : TierLocation) : Prop where
  same : SameTasks e e₁
  tiers : e₁.directory.tiers = e.directory.tiers
  record : e₁.directory.record = Function.update e.directory.record key
    (some (r.setReplica source (some ⟨ls, .COPYING⟩)))
  buffer : e₁.buffer = e.buffer

theorem Marked.stuck_iff (hm : Marked e e₁ key r source ls) {k : CacheKey} {r' : ChunkRecord} :
    Plan.Stuck ⟨k, r', source, ls, destination⟩ e₁ fault ↔
      Plan.Stuck ⟨k, r', source, ls, destination⟩ e fault := by
  unfold Plan.Stuck CopyStarts
  rw [hm.tiers, hm.buffer]

/-- What a failed attempt and its clean-up leave behind; `n` pins stand after the attempt, and
`undo` is the clean-up. -/
theorem attempt_untouched_iff (hi : e.directory.Inv H others)
    (hr : e.directory.record key = some r) (hs : r.replica source = some ⟨ls, .READY⟩)
    (hn : r.replica destination = none) (hne : source ≠ destination)
    (hm : Marked e e₁ key r source ls) {n : ℕ} {clean : Prop}
    {x : EStateM.Result Exn Engine α} (hx : Attempt e₁ key
      (r.setReplica source (some ⟨ls, .COPYING⟩)) source ls destination n fault x)
    {undo : Call Engine Unit}
    (hfail : ∀ e₂ : Engine, ∀ r₂, e₂.directory.record key = some r₂ → ¬ fault.syncOk = true →
      ∃ err, undo e₂ = .error err e₂)
    (hnone : ∀ e₂ : Engine, ∀ r₂, e₂.directory.record key = some r₂ → fault.syncOk = true →
      r₂.replica source = some ⟨ls, .COPYING⟩ → r₂.replica destination = none →
      ∃ e', undo e₂ = .ok () e' ∧ SameTasks e₂ e' ∧ e'.directory.tiers = e₂.directory.tiers ∧
        e'.directory.record = Function.update e₂.directory.record key
          (some (r₂.setReplica source (some ⟨ls, .READY⟩))))
    (hplaced : ∀ (e₂ : Engine) l t, fault.syncOk = true → SameTasks e e₂ →
      e₂.directory.record = Function.update e.directory.record key (some (((r.setReplica source
        (some ⟨ls, .COPYING⟩)).setReplica destination (some ⟨l, taskState destination⟩)).setPins
          n)) →
      Tiers.release destination l e₂.directory.tiers = .ok () t → e.directory.tiers.Same t →
      (clean ∧ ∃ e', undo e₂ = .ok () e' ∧ Untouched e e') ∨
      (¬ clean ∧ ∃ e', finalState (undo e₂) = e' ∧ ¬ Untouched e e')) :
    (∃ a e', x = .ok a e' ∧ (e'.directory.record key).isSome ∧
      ¬ Plan.Stuck ⟨key, r, source, ls, destination⟩ e fault) ∨
    ∃ err e₂, x = .error err e₂ ∧ Plan.Stuck ⟨key, r, source, ls, destination⟩ e fault ∧
      (Untouched e (finalState (undo e₂)) ↔ fault.syncOk = true ∧
        ¬ e.directory.tiers.Exhausted destination ∧
        (Plan.Placed ⟨key, r, source, ls, destination⟩ e → clean)) := by
  rw [← hm.stuck_iff]
  have hcopy : (r.setReplica source (some ⟨ls, .COPYING⟩)).replica source = some ⟨ls, .COPYING⟩ :=
    replica_setReplica_self _ _ _
  cases hx with
  | full ha ht hrec =>
    rename_i err t d
    right
    refine ⟨_, _, rfl, by unfold Plan.Stuck; simp only [ha], ?_⟩
    rw [hm.tiers] at ha
    have hrec' : d.record = Function.update e.directory.record key
        (some (r.setReplica source (some ⟨ls, .COPYING⟩))) := hrec.trans hm.record
    have hr₂ : d.record key = some (r.setReplica source (some ⟨ls, .COPYING⟩)) := by
      rw [hrec', Function.update_self]
    have hplaced : ¬ Plan.Placed ⟨key, r, source, ls, destination⟩ e := by
      rintro ⟨l, t', h⟩
      have h : Tiers.allocate destination e.directory.tiers = .ok l t' := h
      rw [ha] at h
      cases h
    by_cases hsync : fault.syncOk = true
    · obtain ⟨e', hu, hsame, ht', hr'⟩ := hnone { e₁ with directory := d } _ hr₂ hsync hcopy
        ((replica_setReplica_of_ne hne.symm).trans hn)
      have hback : (r.setReplica source (some ⟨ls, .COPYING⟩)).setReplica source
          (some ⟨ls, .READY⟩) = r := by
        refine ext_replica (by simp) (by simp) (by simp) (by simp) fun t => ?_
        by_cases h : t = source <;> simp [h, hs]
      have hst : SameTasks e e' :=
        hm.same.trans ⟨hsame.ioQueue, hsame.tasks, hsame.pending⟩
      rw [hu, finalState_ok, untouched_iff hr hst (by
        rw [hr', show ({ e₁ with directory := d } : Engine).directory.record = _ from hrec',
          Function.update_idem]), hback, ht']
      show _ ∧ e.directory.tiers.Same d.tiers ↔ _
      rw [ht, hi.allocate_error_same ha]
      simp [hsync, hplaced]
    · obtain ⟨err', hu⟩ := hfail { e₁ with directory := d } _ hr₂ hsync
      rw [hu, finalState_error]
      exact iff_of_false (touched_of_copying hr hs hr₂ hcopy) fun h => hsync h.1
  | stuck ha ht hrec hc hcs =>
    rename_i l t d err o
    right
    refine ⟨_, _, rfl, by unfold Plan.Stuck; simp only [ha]; exact ⟨hc, hcs⟩, ?_⟩
    rw [hm.tiers] at ha
    rw [hm.record, Function.update_idem] at hrec
    have hplaced' : Plan.Placed ⟨key, r, source, ls, destination⟩ e := ⟨l, t, ha⟩
    have hexh : ¬ e.directory.tiers.Exhausted destination := by
      cases destination with
      | GPU => exact id
      | CPU =>
        rintro ⟨id, hh, hg⟩
        unfold Tiers.allocate at ha
        simp only [SlotTier.allocate, hh, if_pos hg] at ha
        cases ha
      | NVME =>
        rintro ⟨id, hh, hg⟩
        unfold Tiers.allocate at ha
        simp only [SlotTier.allocate, hh, if_pos hg] at ha
        cases ha
    by_cases hsync : fault.syncOk = true
    · obtain ⟨t'', hrel, hsame⟩ := hi.allocate_release ha
      rcases hplaced { e₁ with directory := d, orphans := o } l t'' hsync
          (hm.same.trans ⟨rfl, rfl, rfl⟩) hrec (ht ▸ hrel) hsame with
        ⟨hcl, e', hu, hun⟩ | ⟨hcl, e', hu, hun⟩
      · rw [hu, finalState_ok]
        exact iff_of_true hun ⟨hsync, hexh, fun _ => hcl⟩
      · rw [hu]
        exact iff_of_false hun fun h => hcl (h.2.2 hplaced')
    · have hr₂ : d.record key = some (((r.setReplica source (some ⟨ls, .COPYING⟩)).setReplica
          destination (some ⟨l, taskState destination⟩)).setPins n) := by
        rw [hrec, Function.update_self]
      obtain ⟨err', hu⟩ := hfail { e₁ with directory := d, orphans := o } _ hr₂ hsync
      rw [hu, finalState_error]
      refine iff_of_false (touched_of_copying hr hs hr₂ ?_) fun h => hsync h.1
      rw [replica_setPins, replica_setReplica_of_ne hne, hcopy]
  | started ha hrec hcs =>
    left
    refine ⟨_, _, rfl, hrec, ?_⟩
    unfold Plan.Stuck
    simp only [ha]
    exact fun h => h.2 (hcs h.1)

/-- The plan of `submit` has a READY source and no destination. -/
theorem inferSource_slot (hf : inferSource r destination = .ok (some source)) :
    ∃ ls, r.replica source = some ⟨ls, .READY⟩ ∧ source ≠ destination := by
  obtain ⟨hd, hready⟩ := inferSource_ready hf
  obtain ⟨slot, hs, hstate⟩ := Option.map_eq_some_iff.mp hready
  refine ⟨slot.location, ?_, direct_ne hd⟩
  rw [hs, ← hstate]

/-- The undone record is the old one iff the pin did not wrap around. -/
theorem undone_eq (hs : r.replica source = some ⟨ls, .READY⟩) (hn : r.replica destination = none)
    {a b : Option Replica} {n m : ℕ} :
    (((((r.setReplica source a).setReplica destination b).setPins n).setReplica destination
      none).setPins m).setReplica source (some ⟨ls, .READY⟩) = r ↔ m = r.pinCount := by
  constructor
  · intro h
    have := congrArg ChunkRecord.pinCount h
    simpa using this
  · rintro rfl
    refine ext_replica (by simp) (by simp) (by simp) (by simp) fun t => ?_
    by_cases h : t = source
    · simp [h, hs]
    · by_cases h' : t = destination
      · subst h'
        simp [h, hn]
      · simp [h, h']

/-- A clean-up of `submit` whose synchronization works. -/
theorem rollbackSubmit_untouched (hr : e.directory.record key = some r)
    (hs : r.replica source = some ⟨ls, .READY⟩) (hn : r.replica destination = none)
    (hne : source ≠ destination) (hsync : fault.syncOk = true) (hsame : SameTasks e e₁)
    (hrec : e₁.directory.record = Function.update e.directory.record key (some (((r.setReplica source
      (some ⟨ls, .COPYING⟩)).setReplica destination (some ⟨l, taskState destination⟩)).setPins
        ((r.pinCount + 1) % 2 ^ 64)))) {t : Tiers}
    (hrel : Tiers.release destination l e₁.directory.tiers = .ok () t)
    (ht : e.directory.tiers.Same t) :
    (r.pinCount + 1 < 2 ^ 64 ∧ ∃ e', rollbackSubmit key source destination fault e₁ = .ok () e' ∧
      Untouched e e') ∨
    (¬ r.pinCount + 1 < 2 ^ 64 ∧ ∃ e',
      finalState (rollbackSubmit key source destination fault e₁) = e' ∧ ¬ Untouched e e') := by
  have hr₁ : e₁.directory.record key = some (((r.setReplica source
      (some ⟨ls, .COPYING⟩)).setReplica destination (some ⟨l, taskState destination⟩)).setPins
        ((r.pinCount + 1) % 2 ^ 64)) := by
    rw [hrec, Function.update_self]
  have hd₁ : (((r.setReplica source (some ⟨ls, .COPYING⟩)).setReplica destination
      (some ⟨l, taskState destination⟩)).setPins ((r.pinCount + 1) % 2 ^ 64)).replica destination =
        some ⟨l, taskState destination⟩ := by
    rw [replica_setPins, replica_setReplica_self]
  have hs₁ : (((r.setReplica source (some ⟨ls, .COPYING⟩)).setReplica destination
      (some ⟨l, taskState destination⟩)).setPins ((r.pinCount + 1) % 2 ^ 64)).replica source =
        some ⟨ls, .COPYING⟩ := by
    rw [replica_setPins, replica_setReplica_of_ne hne, replica_setReplica_self]
  rcases rollbackSubmit_exact hsync hr₁ hs₁ hd₁ hne hrel with
    ⟨hz, err, e', hu, hr'⟩ | ⟨hz, e', hu, hsame', ht', hr'⟩
  all_goals rw [setPins_pinCount] at hz
  · right
    refine ⟨fun hlt => ?_, e', by rw [hu, finalState_error], ?_⟩
    · rw [Nat.mod_eq_of_lt hlt] at hz
      omega
    · refine touched_of_copying hr hs (by rw [hr', Function.update_self]) ?_
      rw [replica_setReplica_of_ne hne, hs₁]
  · rw [hrec, Function.update_idem] at hr'
    have hiff := untouched_iff hr (hsame.trans hsame') hr'
    rw [undone_eq hs hn, setPins_pinCount, ht'] at hiff
    by_cases hlt : r.pinCount + 1 < 2 ^ 64
    · refine .inl ⟨hlt, e', hu, hiff.mpr ⟨?_, ht⟩⟩
      rw [Nat.mod_eq_of_lt hlt]
      omega
    · refine .inr ⟨hlt, e', by rw [hu, finalState_ok], fun hun => ?_⟩
      have := (hiff.mp hun).1
      have := Nat.mod_lt (r.pinCount + 1) (show 0 < 2 ^ 64 by decide)
      omega

/-- A clean-up of a transfer whose synchronization works. -/
theorem rollbackBegin_untouched (hr : e.directory.record key = some r)
    (hs : r.replica source = some ⟨ls, .READY⟩) (hn : r.replica destination = none)
    (hne : source ≠ destination) (hsync : fault.syncOk = true) (hsame : SameTasks e e₁)
    (hrec : e₁.directory.record = Function.update e.directory.record key (some (((r.setReplica source
      (some ⟨ls, .COPYING⟩)).setReplica destination (some ⟨l, taskState destination⟩)).setPins
        r.pinCount))) {t : Tiers}
    (hrel : Tiers.release destination l e₁.directory.tiers = .ok () t)
    (ht : e.directory.tiers.Same t) :
    ∃ e', rollbackBegin key source destination fault e₁ = .ok () e' ∧ Untouched e e' := by
  have hr₁ : e₁.directory.record key = some (((r.setReplica source
      (some ⟨ls, .COPYING⟩)).setReplica destination (some ⟨l, taskState destination⟩)).setPins
        r.pinCount) := by
    rw [hrec, Function.update_self]
  obtain ⟨e', hu, hsame', ht', hr'⟩ := rollbackBegin_exact hsync hr₁
    (by rw [replica_setPins, replica_setReplica_of_ne hne, replica_setReplica_self])
    (by rw [replica_setPins, replica_setReplica_self]) hne hrel
  rw [hrec, Function.update_idem] at hr'
  refine ⟨e', hu, (untouched_iff hr (hsame.trans hsame') hr').mpr ⟨?_, by rw [ht']; exact ht⟩⟩
  refine ext_replica (by simp) (by simp) (by simp) (by simp) fun t => ?_
  by_cases h : t = source
  · simp [h, hs]
  · by_cases h' : t = destination
    · subst h'
      simp [h, hn]
    · simp [h, h']

end Engine

namespace StartCall

open Engine

variable {H : Tokens → UInt64} {e e₁ e' : Engine} {key : CacheKey} {destination : StorageTier}
  {fault : CopyFault} {others : Multiset BlockHandle} {err : Exn} {c : StartCall}

/-- The call leaves no trace when it throws. -/
def Traceless (c : StartCall) (e : Engine) (fault : CopyFault) : Prop :=
  ∀ err e', c.exec fault e = .error err e' → Untouched e e'

/-- The checks of the call throw. -/
theorem traceless_of_early (hc : c.exec fault e = .error err e) (hp : c.plan e = none) :
    c.Traceless e fault ↔ c.Clean e fault := by
  refine iff_of_true (fun err' e' h => ?_) fun p h => ?_
  · rw [hc] at h
    cases h
    exact .refl e
  · rw [hp] at h
    cases h

/-- The checks of the call let the plan `p` pass. -/
theorem traceless_of_plan {p : Plan} (hp : c.plan e = some p)
    (h : (∃ e', c.exec fault e = .ok () e' ∧ ¬ p.Stuck e fault) ∨
      ∃ err e', c.exec fault e = .error err e' ∧ p.Stuck e fault ∧
        (Untouched e e' ↔ fault.syncOk = true ∧ ¬ e.directory.tiers.Exhausted p.destination ∧
          c.PinFits e p)) :
    c.Traceless e fault ↔ c.Clean e fault := by
  rcases h with ⟨e', hc, hstuck⟩ | ⟨err, e', hc, hstuck, hiff⟩
  · refine iff_of_true (fun err e'' hx => ?_) fun p' hp' hs => ?_
    · rw [hc] at hx
      cases hx
    · rw [hp] at hp'
      cases hp'
      exact absurd hs hstuck
  · constructor
    · intro ht p' hp' _
      rw [hp] at hp'
      cases hp'
      exact hiff.mp (ht err e' hc)
    · intro hcl err' e'' hx
      rw [hc] at hx
      cases hx
      exact hiff.mpr (hcl p hp hstuck)

/-- The call behind its checks. -/
theorem exec_submit {d₁ : CacheDirectory} (hr : e.directory.record key = some r)
    (hf : inferSource r destination = .ok (some source)) (hs : r.replica source = some ⟨ls, .READY⟩)
    (hdirect : direct source destination = true) (hn : r.replica destination = none)
    (hset : onDirectory (CacheDirectory.setState key source .COPYING)
      { e with nextId := e.nextId + 1 } = .ok () { e with nextId := e.nextId + 1, directory := d₁ })
    (validTokens : UInt64) (priority : ℤ) :
    (submit key destination validTokens priority).exec fault e =
      match onError (startTask
          { id := e.nextId, key := key, source := source, destination := destination,
            priority := priority, sourceLoc := ls, destinationLoc := ⟨0, 0⟩,
            fileMeta := makeFileMeta key validTokens (UInt64.ofNat e.chunkBytes) } fault)
          (rollbackSubmit key source destination fault)
          { e with nextId := e.nextId + 1, directory := d₁ } with
      | .ok t e' => .ok () (e'.setTask t)
      | .error err e' => .error err e' := by
  simp only [exec, Engine.submit, bind_apply, get_apply, CacheDirectory.lookup_record hr, check_ok, hf,
    Option.bind_some, hs, Option.map_some, ensure, hn, Option.isNone_none, if_true, if_pos hdirect,
    modify_apply, hset]
  cases onError (startTask _ fault) (rollbackSubmit key source destination fault)
    { e with nextId := e.nextId + 1, directory := d₁ } <;> rfl

theorem submit_traceless_iff (hi : e.directory.Inv H others) (validTokens : UInt64) (priority : ℤ) :
    (submit key destination validTokens priority).Traceless e fault ↔
      (submit key destination validTokens priority).Clean e fault := by
  cases hr : e.directory.record key with
  | none =>
    refine @traceless_of_early e fault CacheDirectory.unknownKey _ ?_
      (by simp only [plan, submitPlan, hr])
    simp only [exec, Engine.submit, bind_apply, get_apply, CacheDirectory.lookup_error hr,
      check_error]
  | some r =>
  have hl := CacheDirectory.lookup_record hr
  cases hf : inferSource r destination with
  | error err =>
    refine @traceless_of_early e fault err _ ?_ (by simp only [plan, submitPlan, hr, hf])
    simp only [exec, Engine.submit, bind_apply, get_apply, hl, check_ok, hf, check_error]
  | ok found =>
  cases found with
  | none =>
    refine @traceless_of_early e fault (.logicError "no READY source replica for migration") _ ?_
      (by simp only [plan, submitPlan, hr, hf])
    simp only [exec, Engine.submit, bind_apply, get_apply, hl, check_ok, hf, Option.bind_none,
      throw_apply]
  | some source =>
  obtain ⟨ls, hs, hne⟩ := inferSource_slot hf
  obtain ⟨hdirect, -⟩ := inferSource_ready hf
  cases hn : r.replica destination with
  | some slot =>
    refine @traceless_of_early e fault (.logicError "destination tier already holds a replica") _ ?_
      (by simp only [plan, submitPlan, hr, hf, hs, hn])
    simp only [exec, Engine.submit, bind_apply, get_apply, hl, check_ok, hf, Option.bind_some, hs,
      Option.map_some, ensure, hn, Option.isNone_some, Bool.false_eq_true, if_false]
  | none =>
  -- behind the checks
  have hplan : (submit key destination validTokens priority).plan e =
      some ⟨key, r, source, ls, destination⟩ := by
    simp only [plan, submitPlan, hr, hf, hs, hn]
  obtain ⟨d₁, h₁, ht₁, hr₁⟩ := CacheDirectory.setState_exact hr hs .COPYING
  have hset : onDirectory (CacheDirectory.setState key source .COPYING)
      { e with nextId := e.nextId + 1 } =
      .ok () { e with nextId := e.nextId + 1, directory := d₁ } :=
    onDirectory_ok h₁
  have hm : Marked e { e with nextId := e.nextId + 1, directory := d₁ } key r source ls :=
    ⟨⟨rfl, rfl, rfl⟩, ht₁, hr₁, rfl⟩
  have hr₁' : d₁.record key = some (r.setReplica source (some ⟨ls, .COPYING⟩)) := by
    rw [hr₁, Function.update_self]
  have hx := @startTask_attempt { e with nextId := e.nextId + 1, directory := d₁ } _
    { id := e.nextId, key := key, source := source, destination := destination,
      priority := priority, sourceLoc := ls, destinationLoc := ⟨0, 0⟩,
      fileMeta := makeFileMeta key validTokens (UInt64.ofNat e.chunkBytes) } hr₁'
    ((replica_setReplica_of_ne hne.symm).trans hn) fault
  rw [setReplica_pinCount] at hx
  have hout := @attempt_untouched_iff _ _ _ _ _ _ _ _ fault _ _ hi hr hs hn hne hm _
    (r.pinCount + 1 < 2 ^ 64) _ hx (rollbackSubmit key source destination fault)
    (fun e₂ r₂ h₂ hsync => ⟨_, (rollback_fail hsync h₂).1⟩)
    (fun e₂ r₂ h₂ hsync hs₂ hn₂ => by
      obtain ⟨e', hu, -, hsame, ht, hrec⟩ := rollback_none_exact hsync h₂ hs₂ hn₂
      exact ⟨e', hu, hsame, ht, hrec⟩)
    (fun e₂ l t hsync hsame hrec hrel htiers =>
      rollbackSubmit_untouched hr hs hn hne hsync hsame hrec hrel htiers)
  refine traceless_of_plan hplan ?_
  rw [exec_submit hr hf hs hdirect hn hset]
  rcases hout with ⟨t, e', h, -, hstuck⟩ | ⟨err, e₂, h, hstuck, hiff⟩
  · left
    refine ⟨e'.setTask t, ?_, hstuck⟩
    simp only [onError, h]
  · right
    simp only [onError, h]
    cases hu : rollbackSubmit key source destination fault e₂ with
    | ok u e' =>
      rw [hu, finalState_ok] at hiff
      exact ⟨err, e', rfl, hstuck, hiff⟩
    | error err' e' =>
      rw [hu, finalState_error] at hiff
      exact ⟨err', e', rfl, hstuck, hiff⟩

theorem transfer_traceless_iff (hi : e.directory.Inv H others) (offload : Bool) :
    (transfer offload key).Traceless e fault ↔ (transfer offload key).Clean e fault := by
  have hne : (if offload = true then StorageTier.GPU else .CPU) ≠
      (if offload = true then StorageTier.CPU else .GPU) := by
    cases offload <;> decide
  have hgpu : (if offload = true then StorageTier.GPU else .CPU) = .GPU ∨
      (if offload = true then StorageTier.CPU else .GPU) = .GPU := by
    cases offload <;> decide
  have hplan : (transfer offload key).plan e = transferPlan e offload key := rfl
  have hexec : (transfer offload key).exec fault e = beginTransfer offload key fault e := rfl
  unfold transferPlan at hplan
  simp only [beginTransfer, bind_apply, get_apply] at hexec
  generalize (if offload = true then StorageTier.GPU else .CPU) = source at *
  generalize (if offload = true then StorageTier.CPU else .GPU) = destination at *
  simp only at hplan
  cases hp : e.pending key with
  | some p =>
    rw [hp] at hplan hexec
    exact traceless_of_early hexec hplan
  | none =>
  rw [hp] at hplan hexec
  simp only [Option.isNone_none, ensure, if_true] at hexec
  cases hr : e.directory.record key with
  | none =>
    rw [hr] at hplan
    rw [CacheDirectory.lookup_error hr] at hexec
    exact traceless_of_early hexec hplan
  | some r =>
  rw [hr] at hplan
  rw [CacheDirectory.lookup_record hr] at hexec
  simp only [check_ok] at hexec hplan
  rcases hs : r.replica source with _ | ⟨ls, state⟩
  · rw [hs] at hplan hexec
    exact traceless_of_early hexec hplan
  by_cases hready : state = .READY
  swap
  · rw [hs] at hplan hexec
    cases state <;> first | exact absurd rfl hready | exact traceless_of_early hexec hplan
  subst hready
  cases hn : r.replica destination with
  | some slot =>
    rw [hs, hn] at hplan hexec
    exact traceless_of_early hexec hplan
  | none =>
  -- behind the checks
  rw [hs, hn] at hplan
  rw [hs] at hexec
  simp only [bind_apply, ensure, hn, Option.isNone_none, if_true] at hexec hplan
  obtain ⟨d₁, h₁, ht₁, hr₁⟩ := CacheDirectory.setState_exact hr hs .COPYING
  have hset : onDirectory (CacheDirectory.setState key source .COPYING) e =
      .ok () { e with directory := d₁ } :=
    onDirectory_ok h₁
  have hm : Marked e { e with directory := d₁ } key r source ls :=
    ⟨⟨rfl, rfl, rfl⟩, ht₁, hr₁, rfl⟩
  have hr₁' : d₁.record key = some (r.setReplica source (some ⟨ls, .COPYING⟩)) := by
    rw [hr₁, Function.update_self]
  have hx := @beginCopy_attempt { e with directory := d₁ } key _ source destination ls hr₁'
    ((replica_setReplica_of_ne hne.symm).trans hn) hgpu fault
  rw [setReplica_pinCount] at hx
  have hout := @attempt_untouched_iff _ _ _ _ _ _ _ _ fault _ _ hi hr hs hn hne hm _
    True _ hx (rollbackBegin key source destination fault)
    (fun e₂ r₂ h₂ hsync => ⟨_, (rollback_fail hsync h₂).2⟩)
    (fun e₂ r₂ h₂ hsync hs₂ hn₂ => by
      obtain ⟨e', -, hu, hsame, ht, hrec⟩ := rollback_none_exact hsync h₂ hs₂ hn₂
      exact ⟨e', hu, hsame, ht, hrec⟩)
    (fun e₂ l t hsync hsame hrec hrel htiers =>
      .inl ⟨trivial, rollbackBegin_untouched hr hs hn hne hsync hsame hrec hrel htiers⟩)
  rw [hset] at hexec
  simp only [onError] at hexec
  refine traceless_of_plan hplan ?_
  rw [hexec]
  rcases hout with ⟨l, e', h, hrec, hstuck⟩ | ⟨err, e₂, h, hstuck, hiff⟩
  · left
    obtain ⟨r', hr'⟩ := Option.isSome_iff_exists.mp hrec
    obtain ⟨d₂, h₂, -, -⟩ := CacheDirectory.pin_exact hr'
    have hpin : onDirectory (CacheDirectory.pin key) e' = .ok () { e' with directory := d₂ } :=
      onDirectory_ok h₂
    rw [h]
    simp only [hpin, modify_apply]
    exact ⟨_, rfl, hstuck⟩
  · right
    have hiff : Untouched e (finalState (rollbackBegin key source destination fault e₂)) ↔
        fault.syncOk = true ∧ ¬ e.directory.tiers.Exhausted destination ∧ True := by
      simpa using hiff
    rw [h]
    cases hu : rollbackBegin key source destination fault e₂ with
    | ok u e' =>
      rw [hu, finalState_ok] at hiff
      exact ⟨err, e', by simp only [hu], hstuck, hiff⟩
    | error err' e' =>
      rw [hu, finalState_error] at hiff
      exact ⟨err', e', by simp only [hu], hstuck, hiff⟩

/-- **Main result.** A start that throws leaves no trace iff, where it fails behind its checks, the
stream can be synchronized and no counter is exhausted. -/
theorem start_traceless_iff (hr : Reachable H e.directory others) (c : StartCall)
    (fault : CopyFault) : c.Traceless e fault ↔ c.Clean e fault := by
  cases c with
  | submit key destination validTokens priority =>
    exact submit_traceless_iff hr.inv validTokens priority
  | transfer offload key => exact transfer_traceless_iff hr.inv offload

/-- One chunk on the GPU, in a system whose device does not record events. -/
def loneChunk : CacheDirectory :=
  finalState ((DirOp.place (chunk 1) .GPU .READY).exec (finalState ((DirOp.create (chunk 1)).exec
    (small 1000 1).directory)))

theorem loneChunk_reachable : Reachable (fun _ => 0) loneChunk 0 :=
  .call (.call (small_start 1000 1 one_ne_zero).directory (.create _)) (.place _ .GPU .READY)

/-- The clean-up of a submission works. -/
theorem start_traceless_iff_synced :
    (submit (chunk 1) .CPU 1 0).Traceless { small 1000 1 with directory := loneChunk }
      { eventRecord := true } :=
  (start_traceless_iff (e := { small 1000 1 with directory := loneChunk }) loneChunk_reachable _
    _).mpr fun p hp _ => by
    obtain rfl : p = ⟨chunk 1, { key := chunk 1, gpu := some ⟨⟨0, 1⟩, .READY⟩ }, .GPU, ⟨0, 1⟩, .CPU⟩ :=
      (Option.some.inj hp).symm
    refine ⟨rfl, ?_, fun _ => by decide⟩
    rintro ⟨id, hh, hg⟩
    cases hh
    cases hg

/-- The device error that fails the event also fails the synchronization: the source stays marked. -/
theorem start_leaves_trace :
    Reachable (fun _ => 0) loneChunk 0 ∧
    ¬ (submit (chunk 1) .CPU 1 0).Traceless { small 1000 1 with directory := loneChunk }
      { eventRecord := true, syncOk := false } := by
  refine ⟨loneChunk_reachable, fun h => ?_⟩
  have hrec := congrFun (h _ _ rfl).record (chunk 1)
  have hstate := congrArg (fun r => r.bind fun r => (r.replica .GPU).map Replica.state) hrec
  cases hstate

end StartCall

end KVFlux.V3
