import KVFlux.V3.Migration.Determined
import KVFlux.V3.Migration.FailedStart

/-!
# File transfers are all or nothing

A call of `NvmeTransfer` goes through the directory, a tier, a buffer and the file store, and undoes
what it did where one of them throws.

* `NvmeCall`: the two calls with their failures.
* `Unchanged`, `Transferred`, `AllOrNothing`: nothing happened, or the chunk has arrived.
* `NvmeCall.Clean`: the tier does not lose the slot it is asked for, and an accepted file is whole.
* `reserve_cases`, `rollbackNvme_placed`, `attempt_cases`: the parts the two calls share.
* **`all_or_nothing_iff`**: a call is all or nothing exactly if it is clean.
-/

namespace KVFlux.V3

open Fallible ChunkRecord

/-- A call of `NvmeTransfer` with what fails in it. -/
inductive NvmeCall
  | offload (key : CacheKey) (validTokens : UInt64) (releaseCpu : Bool) (fault : WriteFault)
  | onload (key : CacheKey) (releaseNvme : Bool) (fault : ReadFault) (unlinked : Bool)

/-- The part of a file that a read gets to see. -/
def ReadFault.seen (file : Option Bytes) : ReadFault → Option Bytes
  | .none => file
  | .openFile => Option.none
  | .readFile n => file.map (List.take n)

namespace Engine

/-- What a file transfer that throws leaves alone. -/
structure Unchanged (e e' : Engine) : Prop extends Untouched e e' where
  store : e'.store.Same e.store

end Engine

open Engine

namespace NvmeCall

def exec : NvmeCall → Call Engine Unit
  | .offload key validTokens releaseCpu fault => Engine.offload key validTokens releaseCpu fault
  | .onload key releaseNvme fault unlinked => Engine.onload key releaseNvme fault unlinked

def key : NvmeCall → CacheKey
  | .offload key _ _ _ => key
  | .onload key _ _ _ => key

def source : NvmeCall → StorageTier
  | .offload _ _ _ _ => .CPU
  | .onload _ _ _ _ => .NVME

def destination : NvmeCall → StorageTier
  | .offload _ _ _ _ => .NVME
  | .onload _ _ _ _ => .CPU

def release : NvmeCall → Bool
  | .offload _ _ releaseCpu _ => releaseCpu
  | .onload _ releaseNvme _ _ => releaseNvme

/-- The deletion of the source file at the end of the call fails. -/
def deletionFails : NvmeCall → Bool
  | .offload _ _ _ _ => false
  | .onload _ releaseNvme _ unlinked => releaseNvme && !unlinked

/-- The metadata that a file of the chunk has to have. -/
def expected (c : NvmeCall) (e : Engine) : ChunkFileMeta :=
  makeFileMeta c.key 0 (UInt64.ofNat e.chunkBytes)

/-- The destination has the bytes of the source: the file is written around the buffer, or the buffer
is the payload of the file. -/
def Copies (c : NvmeCall) (e e' : Engine) (i j : ℕ) : Prop :=
  match c with
  | .offload _ _ _ _ => Image e.chunkBytes c.key .NVME (e.cpu i) (e'.store.files.lookup j)
  | .onload _ _ _ _ => ∃ file m, e.store.files.lookup i = some file ∧
    Decodes (c.expected e) e.chunkBytes file m (e'.cpu j)

/-- The directory and the files after the chunk has arrived; its source is READY or `removed`. -/
structure Arrives (c : NvmeCall) (removed : Bool) (e e' : Engine) (r : ChunkRecord)
    (ls ld : TierLocation) : Prop where
  record : e.directory.record c.key = some r
  source : r.replica c.source = some ⟨ls, .READY⟩
  destination : r.replica c.destination = none
  record' : e'.directory.record = Function.update e.directory.record c.key
    (some ((r.setReplica c.destination (some ⟨ld, .READY⟩)).setReplica c.source
      (if removed then none else some ⟨ls, .READY⟩)))
  kept : removed = false → e'.cell c.source ls.slot = e.cell c.source ls.slot
  erased : removed = true → c.source = .NVME → e'.store.files.lookup ls.slot = none
  /-- The other chunks keep their bytes. -/
  others : ∀ key s tier slot, key ≠ c.key → e.directory.record key = some s →
    s.replica tier = some slot → e'.cell tier slot.location.slot = e.cell tier slot.location.slot

/-- The chunk has arrived with its bytes. -/
structure Transferred (c : NvmeCall) (removed : Bool) (e e' : Engine) (r : ChunkRecord)
    (ls ld : TierLocation) : Prop extends Arrives c removed e e' r ls ld where
  copies : c.Copies e e' ls.slot ld.slot

/-- The call returns and the chunk has arrived, or it throws and nothing has changed, except that
the source may be left where only its deletion fails. -/
structure AllOrNothing (c : NvmeCall) (e : Engine) : Prop where
  returns : ∀ e', c.exec e = .ok () e' → ∃ r ls ld, c.Transferred c.release e e' r ls ld
  throws : ∀ err e', c.exec e = .error err e' → Unchanged e e' ∨
    (c.deletionFails = true ∧ e'.store.Same e.store ∧ ∃ r ls ld, c.Transferred false e e' r ls ld)

/-- A file that can be read and is accepted is as large as a chunk. -/
def WholeFile (e : Engine) (ls l : TierLocation) : NvmeCall → Prop
  | .offload _ _ _ _ => True
  | .onload key _ fault _ => e.buffer .CPU l.slot = .ok () →
    ∀ file m payload, fault.seen (e.store.files.lookup ls.slot) = some file →
      Decodes (makeFileMeta key 0 (UInt64.ofNat e.chunkBytes)) e.chunkBytes file m payload →
      payload.length = e.chunkBytes

/-- Behind the checks, the destination tier does not lose the slot at the head of its free list, and
the file is whole. -/
def Clean (c : NvmeCall) (e : Engine) : Prop :=
  ∀ r ls, e.directory.record c.key = some r → r.replica c.source = some ⟨ls, .READY⟩ →
    r.replica c.destination = none →
    match Tiers.allocate c.destination e.directory.tiers with
    | .error _ _ => ¬ e.directory.tiers.Exhausted c.destination
    | .ok l _ => c.WholeFile e ls l

end NvmeCall

variable {H : Tokens → UInt64} {others : Multiset BlockHandle} {e e' : Engine} {d : CacheDirectory}
  {key : CacheKey} {r : ChunkRecord} {source destination : StorageTier} {ls l : TierLocation}
  {ss sd state : ChunkState}

/-! ## The parts the calls share -/

/-- The source is marked and the destination placed, or its tier has no slot. -/
theorem CacheDirectory.reserve_cases (hi : d.Inv H others) (hr : d.record key = some r)
    (hs : r.replica source = some ⟨ls, .READY⟩) (hn : r.replica destination = none)
    (hne : source ≠ destination) (state : ChunkState) :
    ∃ d₁, setState key source .COPYING d = .ok () d₁ ∧
      ((∃ err t d₂, Tiers.allocate destination d.tiers = .error err t ∧
          place key destination state d₁ = .error err d₂ ∧
          d₂.record = Function.update d.record key
            (some (r.setReplica source (some ⟨ls, .COPYING⟩))) ∧
          (d.tiers.Same d₂.tiers ↔ ¬ d.tiers.Exhausted destination)) ∨
       ∃ l t t' d₂, Tiers.allocate destination d.tiers = .ok l t ∧
          place key destination state d₁ = .ok l d₂ ∧ d₂.Inv H others ∧
          d₂.record = Function.update d.record key
            (some ((r.setReplica source (some ⟨ls, .COPYING⟩)).setReplica destination
              (some ⟨l, state⟩))) ∧
          Tiers.release destination l d₂.tiers = .ok () t' ∧ d.tiers.Same t') := by
  obtain ⟨d₁, h₁, hi₁, ht₁, hr₁⟩ := setState_run hi hr hs .COPYING
  have hr₁' : d₁.record key = some (r.setReplica source (some ⟨ls, .COPYING⟩)) := by
    rw [hr₁, Function.update_self]
  have hn₁ : (r.setReplica source (some ⟨ls, .COPYING⟩)).replica destination = none :=
    (replica_setReplica_of_ne hne.symm).trans hn
  refine ⟨d₁, h₁, ?_⟩
  rcases place_exact hr₁' hn₁ state with ⟨err, t, ha, h₂⟩ | ⟨l, t, d₂, ha, h₂, ht₂, hr₂⟩
  · rw [ht₁] at ha
    exact .inl ⟨err, t, _, ha, h₂, hr₁, hi.allocate_error_same ha⟩
  · rw [ht₁] at ha
    obtain ⟨t', hrel, hsame⟩ := hi.allocate_release ha
    have hi₂ : d₂.Inv H others := by
      rcases place_run hi₁ hr₁' hn₁ state with ⟨l', d₃, h₃, hi₃, -⟩ | ⟨err, d₃, h₃, -⟩
      · rw [h₂] at h₃; cases h₃; exact hi₃
      · rw [h₂] at h₃; cases h₃
    refine .inr ⟨l, t, t', d₂, ha, h₂, hi₂, ?_, by rwa [ht₂], hsame⟩
    rw [hr₂, hr₁, Function.update_idem]

namespace Engine

/-- The clean-up of a placed destination. -/
theorem rollbackNvme_placed {t : Tiers} (hr : e.directory.record key = some r)
    (hs : r.replica source = some ⟨ls, ss⟩) (hd : r.replica destination = some ⟨l, sd⟩)
    (hne : source ≠ destination)
    (hrel : Tiers.release destination l e.directory.tiers = .ok () t) :
    ∃ d, rollbackNvme key source destination e = .ok () { e with directory := d } ∧ d.tiers = t ∧
      d.record = Function.update e.directory.record key
        (some ((r.setReplica destination none).setReplica source (some ⟨ls, .READY⟩))) := by
  obtain ⟨d₁, d₂, h₁, h₂, ht, hrec⟩ := discard_exact hr hd hrel
  have hr₂ : d₂.record key = some (r.setReplica destination none) := by
    rw [hrec, Function.update_self]
  obtain ⟨d₃, h₃, ht₃, hr₃⟩ := CacheDirectory.setState_exact hr₂
    ((replica_setReplica_of_ne hne).trans hs) .READY
  refine ⟨d₃, ?_, ht₃.trans ht, by rw [hr₃, hrec, Function.update_idem]⟩
  simp only [rollbackNvme, bind_apply, get_apply, CacheDirectory.lookup_record hr, check_ok, hd,
    Option.isSome_some, if_true]
  apply onDirectory_ok
  simp only [bind_apply, h₁, h₂, h₃]

/-- The clean-up without a destination. -/
theorem rollbackNvme_none (hr : e.directory.record key = some r)
    (hs : r.replica source = some ⟨ls, ss⟩) (hd : r.replica destination = none) :
    ∃ d, rollbackNvme key source destination e = .ok () { e with directory := d } ∧
      d.tiers = e.directory.tiers ∧ d.record = Function.update e.directory.record key
        (some (r.setReplica source (some ⟨ls, .READY⟩))) := by
  obtain ⟨d₁, h₁, ht, hrec⟩ := CacheDirectory.setState_exact hr hs .READY
  refine ⟨d₁, ?_, ht, hrec⟩
  simp only [rollbackNvme, bind_apply, get_apply, CacheDirectory.lookup_record hr, check_ok, hd,
    Option.isSome_none, Bool.false_eq_true, if_false]
  exact onDirectory_ok h₁

/-- **The `try` blocks.** Behind the checks the tier has no slot, or the file operation `body` throws
and all is undone, or it returns. -/
theorem attempt_cases (body : TierLocation → Call Engine Unit) (hi : e.directory.Inv H others)
    (hr : e.directory.record key = some r) (hs : r.replica source = some ⟨ls, .READY⟩)
    (hn : r.replica destination = none) (hne : source ≠ destination) (state : ChunkState)
    (hbody : ∀ l d err e', body l { e with directory := d } = .error err e' → ∃ cpu store,
      e' = { e with directory := d, cpu := cpu, store := store } ∧ store.Same e.store) :
    ∃ d₁, onDirectory (CacheDirectory.setState key source .COPYING) e =
        .ok () { e with directory := d₁ } ∧
      ((∃ err t err' e', Tiers.allocate destination e.directory.tiers = .error err t ∧
          onError (do
            let loc ← onDirectory (CacheDirectory.place key destination state)
            body loc) (rollbackNvme key source destination) { e with directory := d₁ } =
            .error err' e' ∧
          e'.directory.record = e.directory.record ∧
          (Unchanged e e' ↔ ¬ e.directory.tiers.Exhausted destination)) ∨
       ∃ l t d₂, Tiers.allocate destination e.directory.tiers = .ok l t ∧ d₂.Inv H others ∧
          d₂.record = Function.update e.directory.record key
            (some ((r.setReplica source (some ⟨ls, .COPYING⟩)).setReplica destination
              (some ⟨l, state⟩))) ∧
          ((∃ err e₂ err' e', body l { e with directory := d₂ } = .error err e₂ ∧
              onError (do
                let loc ← onDirectory (CacheDirectory.place key destination state)
                body loc) (rollbackNvme key source destination) { e with directory := d₁ } =
                .error err' e' ∧ Unchanged e e') ∨
           ∃ e₂, body l { e with directory := d₂ } = .ok () e₂ ∧
              onError (do
                let loc ← onDirectory (CacheDirectory.place key destination state)
                body loc) (rollbackNvme key source destination) { e with directory := d₁ } =
                .ok () e₂)) := by
  obtain ⟨d₁, h₁, hcases⟩ := CacheDirectory.reserve_cases hi hr hs hn hne state
  refine ⟨d₁, onDirectory_ok h₁, ?_⟩
  simp only [onError, bind_apply]
  rcases hcases with ⟨err, t, d₂, ha, h₂, hr₂, hsame⟩ | ⟨l, t, t', d₂, ha, h₂, hi₂, hr₂, hrel, hsame⟩
  · have hplace : onDirectory (CacheDirectory.place key destination state)
        { e with directory := d₁ } = .error err { e with directory := d₂ } :=
      onDirectory_error h₂
    obtain ⟨d₃, hundo, ht₃, hr₃⟩ := @rollbackNvme_none { e with directory := d₂ } key _ source
      destination ls .COPYING (by show d₂.record key = _; rw [hr₂, Function.update_self])
      (replica_setReplica_self _ _ _) ((replica_setReplica_of_ne hne.symm).trans hn)
    have hback : (r.setReplica source (some ⟨ls, .COPYING⟩)).setReplica source
        (some ⟨ls, .READY⟩) = r := by
      refine ext_replica (by simp) (by simp) (by simp) (by simp) fun t => ?_
      by_cases h : t = source <;> simp [h, hs]
    have hrec : d₃.record = e.directory.record := by
      rw [hr₃]
      show Function.update d₂.record _ _ = _
      rw [hr₂]
      exact update_back hr (congrArg some hback)
    have ht : d₃.tiers = d₂.tiers := ht₃
    refine .inl ⟨err, t, err, { e with directory := d₃ }, ha, by simp only [hplace, hundo], hrec, ?_⟩
    rw [← hsame]
    exact ⟨fun h => ht ▸ h.tiers, fun h => ⟨⟨⟨rfl, rfl, rfl⟩, hrec, ht ▸ h⟩, .refl _⟩⟩
  · have hplace : onDirectory (CacheDirectory.place key destination state)
        { e with directory := d₁ } = .ok l { e with directory := d₂ } :=
      onDirectory_ok h₂
    refine .inr ⟨l, t, d₂, ha, hi₂, hr₂, ?_⟩
    simp only [hplace]
    cases hb : body l { e with directory := d₂ } with
    | ok u e₂ => exact .inr ⟨e₂, rfl, rfl⟩
    | error err e₂ =>
      obtain ⟨cpu, store, rfl, hstore⟩ := hbody l d₂ err e₂ hb
      obtain ⟨d₃, hundo, ht₃, hr₃⟩ := @rollbackNvme_placed
        { e with directory := d₂, cpu := cpu, store := store } key _ source destination ls l
        .COPYING state t' (by show d₂.record key = _; rw [hr₂, Function.update_self])
        ((replica_setReplica_of_ne hne).trans (replica_setReplica_self _ _ _))
        (replica_setReplica_self _ _ _) hne hrel
      refine .inl ⟨err, _, err, { e with directory := d₃, cpu := cpu, store := store }, rfl,
        by simp only [hundo], ⟨⟨⟨rfl, rfl, rfl⟩, ?_, ?_⟩, hstore⟩⟩
      · show d₃.record = _
        rw [hr₃]
        show Function.update d₂.record _ _ = _
        rw [hr₂]
        exact update_back hr (congrArg some (revert_eq hs hn))
      · show e.directory.tiers.Same d₃.tiers
        rw [ht₃]
        exact hsame

end Engine

/-! ## Reading -/

namespace ChunkFileStore

variable {s : ChunkFileStore} {fault : ReadFault} {slot outCapacity : ℕ} {expected m : ChunkFileMeta}
  {out out' file payload : Bytes}

/-- What a read accepts of a file is accepted of the whole file. -/
theorem seen_decodes {whole : Option Bytes} (hf : fault.seen whole = some file)
    (hd : Decodes expected outCapacity file m payload) :
    ∃ file', whole = some file' ∧ Decodes expected outCapacity file' m payload := by
  cases fault with
  | none => exact ⟨file, hf, hd⟩
  | openFile => cases hf
  | readFile n =>
    obtain ⟨file', hw, rfl⟩ := Option.map_eq_some_iff.mp hf
    exact ⟨file', hw, hd.header, hd.length_eq, hd.starts.trans (List.take_prefix n file')⟩

/-- **A read succeeds** exactly if what it sees of the file decodes. -/
theorem read_seen (out : Bytes) : s.read fault slot expected outCapacity out = .ok (some m) out' ↔
    ∃ file payload, fault.seen (s.files.lookup slot) = some file ∧
      Decodes expected outCapacity file m payload ∧ out' = payload ++ out.drop payload.length := by
  have hcontent : ∀ {eof : Exn} {path : String} {file : Bytes},
      readContent eof path expected outCapacity file out = .ok (some m) out' ↔
      ∃ payload, Decodes expected outCapacity file m payload ∧
        out' = payload ++ out.drop payload.length := by
    intro eof path file
    constructor
    · intro h
      obtain ⟨payload, hd⟩ := decodes_of_readContent h
      rw [readContent_of_decodes hd] at h
      exact ⟨payload, hd, (EStateM.Result.ok.inj h).2.symm⟩
    · rintro ⟨payload, hd, rfl⟩
      exact readContent_of_decodes hd
  unfold read
  cases hf : s.files.lookup slot with
  | none => cases fault <;> simp [ReadFault.seen]
  | some file =>
    cases fault with
    | openFile => simp [ReadFault.seen]
    | none => simp only [ReadFault.seen, hcontent, Option.some.injEq, exists_and_left, exists_eq_left']
    | readFile n =>
      simp only [ReadFault.seen, Option.map_some, hcontent, Option.some.injEq, exists_and_left,
        exists_eq_left']

end ChunkFileStore

/-- The outcomes of the read of an `onload`. -/
theorem Engine.readChunk_seen (i j : ℕ) (expected : ChunkFileMeta) (fault : ReadFault) :
    (∃ file m payload, e.buffer .CPU j = .ok () ∧ fault.seen (e.store.files.lookup i) = some file ∧
      Decodes expected e.chunkBytes file m payload ∧ readChunk i expected j fault e = .ok ()
        { e with cpu := Function.update e.cpu j (payload ++ (e.cpu j).drop payload.length) }) ∨
    (∃ err cpu, readChunk i expected j fault e = .error err { e with cpu := cpu } ∧
      (e.buffer .CPU j = .ok () → ∀ file m payload,
        fault.seen (e.store.files.lookup i) = some file →
        ¬ Decodes expected e.chunkBytes file m payload)) := by
  unfold readChunk
  cases hb : e.buffer .CPU j with
  | error err => exact .inr ⟨err, e.cpu, rfl, fun h => by cases h⟩
  | ok u =>
    have hnot : ∀ {x}, e.store.read fault i expected e.chunkBytes (e.cpu j) = x →
        (∀ m out, x ≠ .ok (some m) out) → ∀ file m payload,
        fault.seen (e.store.files.lookup i) = some file →
        ¬ Decodes expected e.chunkBytes file m payload := by
      intro x hx hn file m payload hf hd
      exact hn m _ (hx.symm.trans ((ChunkFileStore.read_seen (e.cpu j)).mpr ⟨file, payload, hf, hd, rfl⟩))
    simp only
    cases hread : e.store.read fault i expected e.chunkBytes (e.cpu j) with
    | error err out =>
      exact .inr ⟨err, Function.update e.cpu j out, rfl,
        fun _ => hnot hread fun m out h => by cases h⟩
    | ok found out =>
      cases found with
      | none =>
        exact .inr ⟨_, Function.update e.cpu j out, rfl, fun _ => hnot hread fun m out h => by cases h⟩
      | some m =>
        obtain ⟨file, payload, hf, hd, rfl⟩ := (ChunkFileStore.read_seen (e.cpu j)).mp hread
        exact .inl ⟨file, m, payload, trivial, hf, hd, rfl⟩

/-! ## The calls -/

namespace NvmeCall

variable {c : NvmeCall} {removed removed' : Bool} {r r' : ChunkRecord} {ls ls' ld ld' : TierLocation}
  {err : Exn}

theorem source_ne (c : NvmeCall) : c.source ≠ c.destination := by
  cases c <;> exact fun h => by cases h

theorem Arrives.placed (h : c.Arrives removed e e' r ls ld) : ∃ s,
    e'.directory.record c.key = some s ∧ s.replica c.destination = some ⟨ld, .READY⟩ := by
  refine ⟨_, by rw [h.record', Function.update_self], ?_⟩
  rw [replica_setReplica_of_ne c.source_ne.symm, replica_setReplica_self]

theorem Arrives.not_unchanged (h : c.Arrives removed e e' r ls ld)
    (hrec : e'.directory.record = e.directory.record) : False := by
  obtain ⟨s, hs, hd⟩ := h.placed
  rw [hrec, h.record] at hs
  cases hs
  rw [h.destination] at hd
  cases hd

/-- Both locations are those of the chunk. -/
theorem Arrives.loc_eq (h : c.Arrives removed e e' r ls ld) (h' : c.Arrives removed' e e' r' ls' ld') :
    ls = ls' ∧ ld = ld' := by
  have hr := h'.record
  rw [h.record] at hr
  cases hr
  have hs := h'.source
  rw [h.source] at hs
  obtain ⟨s, hs₁, hd₁⟩ := h.placed
  obtain ⟨s', hs₂, hd₂⟩ := h'.placed
  rw [hs₁] at hs₂
  cases hs₂
  rw [hd₁] at hd₂
  cases hs
  cases hd₂
  exact ⟨rfl, rfl⟩

/-- A call that throws with the old records. -/
theorem allOrNothing_of_error (hx : c.exec e = .error err e')
    (hrec : e'.directory.record = e.directory.record) : c.AllOrNothing e ↔ Unchanged e e' := by
  constructor
  · intro h
    rcases h.throws err e' hx with hu | ⟨-, -, r, ls, ld, ht⟩
    · exact hu
    · exact (ht.toArrives.not_unchanged hrec).elim
  · intro hu
    refine ⟨fun e₁ h => ?_, fun err₁ e₁ h => ?_⟩
    · rw [hx] at h; cases h
    · rw [hx] at h; cases h; exact .inl hu

/-- A call that returns. -/
theorem allOrNothing_of_ok (hx : c.exec e = .ok () e') (ha : c.Arrives c.release e e' r ls ld) :
    c.AllOrNothing e ↔ c.Copies e e' ls.slot ld.slot := by
  constructor
  · intro h
    obtain ⟨r', ls', ld', ht⟩ := h.returns e' hx
    obtain ⟨rfl, rfl⟩ := ha.loc_eq ht.toArrives
    exact ht.copies
  · intro hc
    refine ⟨fun e₁ h => ?_, fun err₁ e₁ h => ?_⟩
    · rw [hx] at h; cases h; exact ⟨r, ls, ld, ha, hc⟩
    · rw [hx] at h; cases h

/-- A call that could not delete the file at its end. -/
theorem allOrNothing_of_undeleted (hx : c.exec e = .error err e') (hdel : c.deletionFails = true)
    (hstore : e'.store.Same e.store) (ha : c.Arrives false e e' r ls ld) :
    c.AllOrNothing e ↔ c.Copies e e' ls.slot ld.slot := by
  constructor
  · intro h
    rcases h.throws err e' hx with hu | ⟨-, -, r', ls', ld', ht⟩
    · exact (ha.not_unchanged hu.record).elim
    · obtain ⟨rfl, rfl⟩ := ha.loc_eq ht.toArrives
      exact ht.copies
  · intro hc
    refine ⟨fun e₁ h => ?_, fun err₁ e₁ h => ?_⟩
    · rw [hx] at h; cases h
    · rw [hx] at h; cases h; exact .inr ⟨hdel, hstore, r, ls, ld, ha, hc⟩

/-- The checks of the call throw. -/
theorem allOrNothing_of_early (hx : c.exec e = .error err e)
    (hcheck : ∀ r ls, e.directory.record c.key = some r → r.replica c.source = some ⟨ls, .READY⟩ →
      r.replica c.destination ≠ none) : c.AllOrNothing e ↔ c.Clean e := by
  refine iff_of_true ((allOrNothing_of_error hx rfl).mpr ⟨.refl e, .refl _⟩) ?_
  intro r ls hr hs hn
  exact absurd hn (hcheck r ls hr hs)

/-- The checks of the call pass. -/
theorem clean_iff (hr : e.directory.record c.key = some r)
    (hs : r.replica c.source = some ⟨ls, .READY⟩) (hn : r.replica c.destination = none) :
    c.Clean e ↔
      (∀ err t, Tiers.allocate c.destination e.directory.tiers = .error err t →
        ¬ e.directory.tiers.Exhausted c.destination) ∧
      ∀ l t, Tiers.allocate c.destination e.directory.tiers = .ok l t → c.WholeFile e ls l := by
  constructor
  · intro h
    have h := h r ls hr hs hn
    refine ⟨fun err t ha => ?_, fun l t ha => ?_⟩
    · rw [ha] at h; exact h
    · rw [ha] at h; exact h
  · rintro ⟨herror, hok⟩ r' ls' hr' hs' -
    rw [hr] at hr'
    cases hr'
    rw [hs] at hs'
    cases hs'
    cases ha : Tiers.allocate c.destination e.directory.tiers with
    | error err t => exact herror err t ha
    | ok l t => exact hok l t ha

/-- Where a call goes right: both replicas READY, then the source gone if asked for. -/
theorem settle_run (hi : d.Inv H others) (hne : source ≠ destination)
    (hrec : d.record = Function.update e.directory.record key
      (some ((r.setReplica source (some ⟨ls, .COPYING⟩)).setReplica destination
        (some ⟨l, state⟩)))) :
    ∃ d₁ d₂, (do
        CacheDirectory.setState key destination .READY
        CacheDirectory.setState key source .READY : Call CacheDirectory Unit) d = .ok () d₁ ∧
      d₁.record = Function.update e.directory.record key
        (some ((r.setReplica destination (some ⟨l, .READY⟩)).setReplica source
          (some ⟨ls, .READY⟩))) ∧
      CacheDirectory.remove key source d₁ = .ok () d₂ ∧
      d₂.record = Function.update e.directory.record key
        (some ((r.setReplica destination (some ⟨l, .READY⟩)).setReplica source none)) := by
  have hdr : d.record key = some ((r.setReplica source (some ⟨ls, .COPYING⟩)).setReplica destination
      (some ⟨l, state⟩)) := by
    rw [hrec, Function.update_self]
  obtain ⟨d₁, h₁, hi₁, -, hr₁⟩ := CacheDirectory.ready_run hi hdr
    ((replica_setReplica_of_ne hne).trans (replica_setReplica_self _ _ _))
    (replica_setReplica_self _ _ _) hne
  have hdr₁ : d₁.record key = some ((((r.setReplica source (some ⟨ls, .COPYING⟩)).setReplica
      destination (some ⟨l, state⟩)).setReplica destination (some ⟨l, .READY⟩)).setReplica source
        (some ⟨ls, .READY⟩)) := by
    rw [hr₁, Function.update_self]
  obtain ⟨d₂, h₂, -, -, hr₂⟩ := CacheDirectory.remove_run hi₁ hdr₁ (replica_setReplica_self _ _ _)
    (.inl rfl)
  refine ⟨d₁, d₂, h₁, ?_, h₂, ?_⟩
  · rw [hr₁, hrec, Function.update_idem]
    congr 2
    refine ext_replica (by simp) (by simp) (by simp) (by simp) fun t => ?_
    by_cases h : t = source
    · simp [h]
    · by_cases h' : t = destination <;> simp [h, h']
  · rw [hr₂, hr₁, hrec, Function.update_idem, Function.update_idem]
    congr 2
    refine ext_replica (by simp) (by simp) (by simp) (by simp) fun t => ?_
    by_cases h : t = source
    · simp [h]
    · by_cases h' : t = destination
      · subst h'; simp [h]
      · simp [h, h']

/-- The outcomes of the write of an `offload`. -/
theorem write_body (e : Engine) (key : CacheKey) (i j : ℕ) (validTokens : UInt64) (fault : WriteFault) (d : CacheDirectory) :
    (∃ err s, (do
        let e ← get
        check (e.buffer .CPU i)
        onStore (ChunkFileStore.write fault j
          (makeFileMeta key validTokens (UInt64.ofNat e.chunkBytes)) (e.cpu i)) : Call Engine Unit)
        { e with directory := d } = .error err { e with directory := d, store := s } ∧
      s.Same e.store) ∨
    (∃ w s, (do
        let e ← get
        check (e.buffer .CPU i)
        onStore (ChunkFileStore.write fault j
          (makeFileMeta key validTokens (UInt64.ofNat e.chunkBytes)) (e.cpu i)) : Call Engine Unit)
        { e with directory := d } = .ok () { e with directory := d, store := s } ∧
      e.store.writeCheck j (makeFileMeta key validTokens (UInt64.ofNat e.chunkBytes)) (e.cpu i) =
        .ok w ∧ s.Same (e.store.writeCommit w (e.cpu i))) := by
  simp only [bind_apply, get_apply]
  cases hb : buffer { e with directory := d } .CPU i with
  | error err => exact .inl ⟨err, e.store, rfl, .refl _⟩
  | ok u =>
    simp only [check_ok]
    rcases ChunkFileStore.write_cases fault j
        (makeFileMeta key validTokens (UInt64.ofNat e.chunkBytes)) (e.cpu i) e.store with
      ⟨err, s, hw, hsame⟩ | ⟨w, s, hcheck, hw, hsame⟩
    · exact .inl ⟨err, s, onStore_error hw, hsame⟩
    · exact .inr ⟨w, s, onStore_ok hw, hcheck, hsame⟩

/-- The checks of an `offload` throw, or they pass. -/
theorem offload_checks (key : CacheKey) (validTokens : UInt64) (releaseCpu : Bool)
    (fault : WriteFault) :
    (∃ err, (offload key validTokens releaseCpu fault).exec e = .error err e ∧
      ∀ r ls, e.directory.record key = some r → r.cpu = some ⟨ls, .READY⟩ → r.nvme ≠ none) ∨
    ∃ r ls, e.directory.record key = some r ∧ r.cpu = some ⟨ls, .READY⟩ ∧ r.nvme = none ∧
      (offload key validTokens releaseCpu fault).exec e = (do
        onDirectory (CacheDirectory.setState key .CPU .COPYING)
        onError
          (do
            let loc ← onDirectory (CacheDirectory.place key .NVME .COPYING)
            let e ← get
            check (e.buffer .CPU ls.slot)
            onStore (ChunkFileStore.write fault loc.slot
              (makeFileMeta key validTokens (UInt64.ofNat e.chunkBytes)) (e.cpu ls.slot)))
          (rollbackNvme key .CPU .NVME)
        onDirectory do
          CacheDirectory.setState key .NVME .READY
          CacheDirectory.setState key .CPU .READY
        if releaseCpu then onDirectory (CacheDirectory.remove key .CPU) else pure () :
          Call Engine Unit) e := by
  have hexec : (offload key validTokens releaseCpu fault).exec e =
      Engine.offload key validTokens releaseCpu fault e := rfl
  simp only [Engine.offload, bind_apply, get_apply] at hexec
  cases hr : e.directory.record key with
  | none =>
    rw [CacheDirectory.lookup_error hr] at hexec
    exact .inl ⟨_, hexec, fun r ls h => by cases h⟩
  | some r =>
  rw [CacheDirectory.lookup_record hr] at hexec
  simp only [check_ok] at hexec
  rcases hs : r.cpu with _ | ⟨ls, state⟩
  · rw [hs] at hexec
    refine .inl ⟨_, hexec, fun r' ls h h' => ?_⟩
    cases h
    rw [hs] at h'
    cases h'
  by_cases hready : state = .READY
  swap
  · rw [hs] at hexec
    refine .inl ⟨.logicError "nvme offload requires a READY cpu replica", ?_, fun r' ls' h h' => ?_⟩
    · rw [hexec]
      cases state <;> first | exact absurd rfl hready | rfl
    · cases h
      rw [hs] at h'
      cases h'
      exact absurd rfl hready
  subst hready
  rw [hs] at hexec
  simp only [bind_apply] at hexec
  cases hn : r.nvme with
  | some slot =>
    rw [hn] at hexec
    refine .inl ⟨_, hexec, fun r' ls' h _ h' => ?_⟩
    cases h
    rw [hn] at h'
    cases h'
  | none =>
    rw [hn] at hexec
    simp only [ensure, Option.isNone_none, if_true] at hexec
    refine .inr ⟨r, ls, rfl, hs, hn, ?_⟩
    simp only [bind_apply]
    exact hexec

theorem offload_iff (hi : e.directory.Inv H others) (hsized : e.Sized) (validTokens : UInt64)
    (releaseCpu : Bool) (fault : WriteFault) :
    (offload key validTokens releaseCpu fault).AllOrNothing e ↔
      (offload key validTokens releaseCpu fault).Clean e := by
  rcases @offload_checks e key validTokens releaseCpu fault with
    ⟨err, hexec, hcheck⟩ | ⟨r, ls, hr, hs, hn, hexec⟩
  · exact allOrNothing_of_early hexec hcheck
  have hs : r.replica .CPU = some ⟨ls, .READY⟩ := hs
  have hn : r.replica .NVME = none := hn
  have hne : StorageTier.CPU ≠ .NVME := by decide
  have hclean := clean_iff (c := offload key validTokens releaseCpu fault) hr hs hn
  obtain ⟨d₁, hset, hcases⟩ := attempt_cases (fun loc => do
      let e ← get
      check (e.buffer .CPU ls.slot)
      onStore (ChunkFileStore.write fault loc.slot
        (makeFileMeta key validTokens (UInt64.ofNat e.chunkBytes)) (e.cpu ls.slot)))
    hi hr hs hn hne .COPYING fun l d err e' hx => by
      rcases write_body e key ls.slot l.slot validTokens fault d with
        ⟨err', s, hy, hsame⟩ | ⟨w, s, hy, -⟩
      · have := hy.symm.trans hx
        cases this
        exact ⟨e.cpu, s, rfl, hsame⟩
      · have := hy.symm.trans hx
        cases this
  simp only [bind_apply, hset] at hexec
  rcases hcases with ⟨err, t, err', e', ha, hx, hrec, hiff⟩ | ⟨l, t, d₂, ha, hi₂, hr₂, hcases⟩
  · -- the tier has no slot
    rw [hx] at hexec
    rw [allOrNothing_of_error hexec hrec, hiff, hclean]
    refine ⟨fun h => ⟨fun _ _ _ => h, fun l t ha' => trivial⟩, fun h => h.1 err t ha⟩
  have hcl : (offload key validTokens releaseCpu fault).Clean e := by
    refine hclean.mpr ⟨fun err t' ha' => ?_, fun _ _ _ => trivial⟩
    have ha' := ha.symm.trans ha'
    cases ha'
  rcases hcases with ⟨err, e₂, err', e', -, hx, hu⟩ | ⟨e₂, hb, hx⟩
  · rw [hx] at hexec
    exact iff_of_true ((allOrNothing_of_error hexec hu.record).mpr hu) hcl
  rw [hx] at hexec
  simp only at hexec
  rcases write_body e key ls.slot l.slot validTokens fault d₂ with
    ⟨err', s, hy, -⟩ | ⟨w, s, hy, hcheck, hsame⟩
  · have := hy.symm.trans hb
    cases this
  obtain rfl : { e with directory := d₂, store := s } = e₂ := by
    have := hy.symm.trans hb
    cases this
    rfl
  obtain ⟨d₃, d₄, h₃, hr₃, h₄, hr₄⟩ := settle_run hi₂ hne hr₂
  rw [show onDirectory (do
        CacheDirectory.setState key .NVME .READY
        CacheDirectory.setState key .CPU .READY) { e with directory := d₂, store := s } =
      .ok () { e with directory := d₃, store := s } from onDirectory_ok h₃] at hexec
  simp only at hexec
  obtain ⟨hslot, -⟩ := ChunkFileStore.writeCheck_ok hcheck
  have hfresh : e.Fresh .NVME l.slot := by
    exact fresh_of_place hi₂ hr hn hr₂ (replica_setReplica_self _ _ _)
  have hothers : ∀ (d : CacheDirectory) k s' tier slot, k ≠ key →
      e.directory.record k = some s' → s'.replica tier = some slot →
      cell { e with directory := d, store := s } tier slot.location.slot =
        e.cell tier slot.location.slot := by
    intro d k s' tier slot _ hk hslot'
    cases tier with
    | GPU => rfl
    | CPU => rfl
    | NVME =>
      show s.files.lookup _ = e.store.files.lookup _
      rw [hsame.files]
      refine lookup_writeCommit_of_ne ?_
      rw [hslot]
      exact hfresh k s' slot hk hslot'
  have hcopies : ∀ d : CacheDirectory, (offload key validTokens releaseCpu fault).Copies e
      { e with directory := d, store := s } ls.slot l.slot := by
    intro d
    show Image e.chunkBytes key .NVME (e.cpu ls.slot) (s.files.lookup l.slot)
    rw [hsame.files]
    exact image_writeCommit hsized.chunkBytes_lt (hsized.cpu _) hcheck
  cases releaseCpu with
  | false =>
    have ha : Arrives (offload key validTokens false fault) false e
        { e with directory := d₃, store := s } r ls l :=
      ⟨hr, hs, hn, hr₃, fun _ => rfl, fun h => (by cases h), hothers d₃⟩
    exact iff_of_true ((allOrNothing_of_ok hexec ha).mpr (hcopies d₃)) hcl
  | true =>
    rw [if_pos rfl, show onDirectory (CacheDirectory.remove key .CPU)
        { e with directory := d₃, store := s } = .ok () { e with directory := d₄, store := s } from
      onDirectory_ok h₄] at hexec
    have ha : Arrives (offload key validTokens true fault) true e
        { e with directory := d₄, store := s } r ls l :=
      ⟨hr, hs, hn, hr₄, fun h => (by cases h), fun _ h => (by cases h), hothers d₄⟩
    exact iff_of_true ((allOrNothing_of_ok hexec ha).mpr (hcopies d₄)) hcl

/-- The checks of an `onload` throw, or they pass. -/
theorem onload_checks (key : CacheKey) (releaseNvme : Bool) (fault : ReadFault) (unlinked : Bool) :
    (∃ err, (onload key releaseNvme fault unlinked).exec e = .error err e ∧
      ∀ r ls, e.directory.record key = some r → r.nvme = some ⟨ls, .READY⟩ → r.cpu ≠ none) ∨
    ∃ r ls, e.directory.record key = some r ∧ r.nvme = some ⟨ls, .READY⟩ ∧ r.cpu = none ∧
      (onload key releaseNvme fault unlinked).exec e = (do
        onDirectory (CacheDirectory.setState key .NVME .COPYING)
        onError
          (do
            let loc ← onDirectory (CacheDirectory.place key .CPU .LOADING)
            readChunk ls.slot (makeFileMeta key 0 (UInt64.ofNat e.chunkBytes)) loc.slot fault)
          (rollbackNvme key .NVME .CPU)
        onDirectory do
          CacheDirectory.setState key .CPU .READY
          CacheDirectory.setState key .NVME .READY
        if releaseNvme then do
          onStore (ChunkFileStore.erase unlinked ls.slot)
          onDirectory (CacheDirectory.remove key .NVME)
        else pure () : Call Engine Unit) e := by
  have hexec : (onload key releaseNvme fault unlinked).exec e =
      Engine.onload key releaseNvme fault unlinked e := rfl
  simp only [Engine.onload, bind_apply, get_apply] at hexec
  cases hr : e.directory.record key with
  | none =>
    rw [CacheDirectory.lookup_error hr] at hexec
    exact .inl ⟨_, hexec, fun r ls h => by cases h⟩
  | some r =>
  rw [CacheDirectory.lookup_record hr] at hexec
  simp only [check_ok] at hexec
  rcases hs : r.nvme with _ | ⟨ls, state⟩
  · rw [hs] at hexec
    refine .inl ⟨_, hexec, fun r' ls h h' => ?_⟩
    cases h
    rw [hs] at h'
    cases h'
  by_cases hready : state = .READY
  swap
  · rw [hs] at hexec
    refine .inl ⟨.logicError "nvme onload requires a READY nvme replica", ?_, fun r' ls' h h' => ?_⟩
    · rw [hexec]
      cases state <;> first | exact absurd rfl hready | rfl
    · cases h
      rw [hs] at h'
      cases h'
      exact absurd rfl hready
  subst hready
  rw [hs] at hexec
  simp only [bind_apply] at hexec
  cases hn : r.cpu with
  | some slot =>
    rw [hn] at hexec
    refine .inl ⟨_, hexec, fun r' ls' h _ h' => ?_⟩
    cases h
    rw [hn] at h'
    cases h'
  | none =>
    rw [hn] at hexec
    simp only [ensure, Option.isNone_none, if_true] at hexec
    refine .inr ⟨r, ls, rfl, hs, hn, ?_⟩
    simp only [bind_apply]
    exact hexec

/-- The buffer after a read is the payload exactly if the payload is as large as a chunk. -/
theorem copies_iff {releaseNvme unlinked : Bool} {fault : ReadFault} {file payload : Bytes}
    {m : ChunkFileMeta} (hsized : e.Sized) (hf : e.store.files.lookup ls.slot = some file)
    (hd : Decodes (makeFileMeta key 0 (UInt64.ofNat e.chunkBytes)) e.chunkBytes file m payload)
    (hcpu : e'.cpu l.slot = payload ++ (e.cpu l.slot).drop payload.length) :
    (onload key releaseNvme fault unlinked).Copies e e' ls.slot l.slot ↔
      payload.length = e.chunkBytes := by
  have hle : payload.length ≤ e.chunkBytes := hd.length_eq ▸ hd.header.payloadSize_le
  have hlen : (payload ++ (e.cpu l.slot).drop payload.length).length = e.chunkBytes := by
    rw [List.length_append, List.length_drop, hsized.cpu]
    omega
  constructor
  · rintro ⟨file', m', hf', hd'⟩
    rw [hf] at hf'
    cases hf'
    obtain ⟨-, hpayload⟩ := ChunkFileStore.decodes_unique hd hd'
    rw [hpayload, hcpu, hlen]
  · intro h
    have hfull : e'.cpu l.slot = payload := by
      rw [hcpu, h, ← hsized.cpu l.slot, List.drop_length, List.append_nil]
    exact ⟨file, m, hf, by rw [hfull]; exact hd⟩

/-- Where the file can be read, the call is clean exactly if the payload is as large as a chunk. -/
theorem wholeFile_iff {releaseNvme unlinked : Bool} {fault : ReadFault} {file payload : Bytes}
    {m : ChunkFileMeta} (hb : e.buffer .CPU l.slot = .ok ())
    (hf : fault.seen (e.store.files.lookup ls.slot) = some file)
    (hd : Decodes (makeFileMeta key 0 (UInt64.ofNat e.chunkBytes)) e.chunkBytes file m payload) :
    (onload key releaseNvme fault unlinked).WholeFile e ls l ↔ payload.length = e.chunkBytes := by
  constructor
  · intro h
    exact h hb file m payload hf hd
  · intro h _ file' m' payload' hf' hd'
    rw [hf] at hf'
    cases hf'
    obtain ⟨-, rfl⟩ := ChunkFileStore.decodes_unique hd hd'
    exact h

theorem onload_iff (hi : e.directory.Inv H others) (hsized : e.Sized) (releaseNvme : Bool)
    (fault : ReadFault) (unlinked : Bool) :
    (onload key releaseNvme fault unlinked).AllOrNothing e ↔
      (onload key releaseNvme fault unlinked).Clean e := by
  rcases @onload_checks e key releaseNvme fault unlinked with
    ⟨err, hexec, hcheck⟩ | ⟨r, ls, hr, hs, hn, hexec⟩
  · exact allOrNothing_of_early hexec hcheck
  have hs : r.replica .NVME = some ⟨ls, .READY⟩ := hs
  have hn : r.replica .CPU = none := hn
  have hne : StorageTier.NVME ≠ .CPU := by decide
  have hclean := clean_iff (c := onload key releaseNvme fault unlinked) hr hs hn
  obtain ⟨d₁, hset, hcases⟩ := attempt_cases (fun loc =>
      readChunk ls.slot (makeFileMeta key 0 (UInt64.ofNat e.chunkBytes)) loc.slot fault)
    hi hr hs hn hne .LOADING fun l d err e' hx => by
      rcases @readChunk_seen { e with directory := d } ls.slot l.slot
        (makeFileMeta key 0 (UInt64.ofNat e.chunkBytes)) fault with
        ⟨_, _, _, _, _, _, hy⟩ | ⟨err', cpu, hy, -⟩
      · have := hy.symm.trans hx
        cases this
      · have := hy.symm.trans hx
        cases this
        exact ⟨cpu, e.store, rfl, .refl _⟩
  simp only [bind_apply, hset] at hexec
  rcases hcases with ⟨err, t, err', e', ha, hx, hrec, hiff⟩ | ⟨l, t, d₂, ha, hi₂, hr₂, hcases⟩
  · -- the tier has no slot
    rw [hx] at hexec
    rw [allOrNothing_of_error hexec hrec, hiff, hclean]
    refine ⟨fun h => ⟨fun _ _ _ => h, fun l t ha' => ?_⟩, fun h => h.1 err t ha⟩
    have ha' := ha.symm.trans ha'
    cases ha'
  have hcl : (onload key releaseNvme fault unlinked).Clean e ↔
      (onload key releaseNvme fault unlinked).WholeFile e ls l := by
    rw [hclean]
    refine ⟨fun h => h.2 l t ha, fun h => ⟨fun err t' ha' => ?_, fun l' t' ha' => ?_⟩⟩
    · have ha' := ha.symm.trans ha'
      cases ha'
    · have ha' := ha.symm.trans ha'
      cases ha'
      exact h
  rcases @readChunk_seen { e with directory := d₂ } ls.slot l.slot
    (makeFileMeta key 0 (UInt64.ofNat e.chunkBytes)) fault with
    ⟨file, m, payload, hb, hf, hd, hy⟩ | ⟨err', cpu, hy, hnot⟩
  swap
  · -- the read throws
    rcases hcases with ⟨err, e₂, err', e', -, hx, hu⟩ | ⟨e₂, hb, -⟩
    · rw [hx] at hexec
      refine iff_of_true ((allOrNothing_of_error hexec hu.record).mpr hu) (hcl.mpr ?_)
      intro hb file m payload hf hd
      exact absurd hd (hnot hb file m payload hf)
    · have := hy.symm.trans hb
      cases this
  rcases hcases with ⟨err, e₂, err', e', hx, -⟩ | ⟨e₂, hx, hattempt⟩
  · have := hy.symm.trans hx
    cases this
  obtain rfl := (EStateM.Result.ok.inj (hy.symm.trans hx)).2
  rw [hattempt] at hexec
  simp only at hexec
  obtain ⟨d₃, d₄, h₃, hr₃, h₄, hr₄⟩ := settle_run hi₂ hne hr₂
  have hb : e.buffer .CPU l.slot = .ok () := hb
  have hf : fault.seen (e.store.files.lookup ls.slot) = some file := hf
  have hd : Decodes (makeFileMeta key 0 (UInt64.ofNat e.chunkBytes)) e.chunkBytes file m payload := hd
  rw [hcl, wholeFile_iff hb hf hd]
  obtain ⟨whole, hwhole, hdec⟩ := ChunkFileStore.seen_decodes hf hd
  obtain ⟨cpu, hcpu⟩ : ∃ cpu, cpu = Function.update e.cpu l.slot
    (payload ++ (e.cpu l.slot).drop payload.length) := ⟨_, rfl⟩
  have hslot : cpu l.slot = payload ++ (e.cpu l.slot).drop payload.length := by
    rw [hcpu, Function.update_self]
  have hfresh : e.Fresh .CPU l.slot := fresh_of_place hi₂ hr hn hr₂ (replica_setReplica_self _ _ _)
  have hothers : ∀ (d : CacheDirectory) (store : ChunkFileStore),
      (∀ i, i ≠ ls.slot → store.files.lookup i = e.store.files.lookup i) →
      ∀ k s' tier slot, k ≠ key → e.directory.record k = some s' → s'.replica tier = some slot →
      cell { e with directory := d, cpu := cpu, store := store } tier slot.location.slot =
        e.cell tier slot.location.slot := by
    intro d store hstore k s' tier slot hk hrk hslot'
    cases tier with
    | GPU => rfl
    | CPU =>
      show some (cpu slot.location.slot) = some (e.cpu slot.location.slot)
      rw [hcpu, Function.update_of_ne (hfresh k s' slot hrk hslot')]
    | NVME =>
      refine hstore _ fun heq => hk ?_
      exact hi.slot_key hrk hr hslot' hs heq
  have hready : onDirectory (do
        CacheDirectory.setState key .CPU .READY
        CacheDirectory.setState key .NVME .READY) { e with directory := d₂, cpu := cpu } =
      .ok () { e with directory := d₃, cpu := cpu } :=
    onDirectory_ok h₃
  rw [← hcpu, hready] at hexec
  simp only at hexec
  have hboth : Arrives (onload key releaseNvme fault unlinked) false e
      { e with directory := d₃, cpu := cpu } r ls l :=
    ⟨hr, hs, hn, hr₃, fun _ => rfl, fun h => (by cases h), hothers d₃ e.store fun _ _ => rfl⟩
  cases releaseNvme with
  | false =>
    rw [allOrNothing_of_ok hexec hboth, copies_iff hsized hwhole hdec hslot]
  | true =>
    simp only [if_true, bind_apply] at hexec
    cases unlinked with
    | false =>
      have herase : onStore (ChunkFileStore.erase false ls.slot) { e with directory := d₃, cpu := cpu } =
          .error (.chunkStoreError "unlink" (e.store.pathFor ls.slot))
            { e with directory := d₃, cpu := cpu } := by
        simp [onStore, ChunkFileStore.erase, hwhole]
      rw [herase] at hexec
      rw [allOrNothing_of_undeleted hexec rfl (.refl _) hboth, copies_iff hsized hwhole hdec hslot]
    | true =>
      have herase : onStore (ChunkFileStore.erase true ls.slot) { e with directory := d₃, cpu := cpu } =
          .ok () { e with
            directory := d₃
            cpu := cpu
            store := { e.store with
              files := e.store.files.erase ls.slot
              storedBytes := e.store.storedBytes - ChunkFileStore.size whole } } := by
        simp [onStore, ChunkFileStore.erase, hwhole]
      have hremove : onDirectory (CacheDirectory.remove key .NVME) { e with
            directory := d₃
            cpu := cpu
            store := { e.store with
              files := e.store.files.erase ls.slot
              storedBytes := e.store.storedBytes - ChunkFileStore.size whole } } =
          .ok () { e with
            directory := d₄
            cpu := cpu
            store := { e.store with
              files := e.store.files.erase ls.slot
              storedBytes := e.store.storedBytes - ChunkFileStore.size whole } } :=
        onDirectory_ok h₄
      rw [herase] at hexec
      simp only [hremove] at hexec
      have hgone : Arrives (onload key true fault true) true e { e with
          directory := d₄
          cpu := cpu
          store := { e.store with
            files := e.store.files.erase ls.slot
            storedBytes := e.store.storedBytes - ChunkFileStore.size whole } } r ls l :=
        ⟨hr, hs, hn, hr₄, fun h => (by cases h), fun _ _ => AList.lookup_erase _ _,
          hothers d₄ _ fun i hi => AList.lookup_erase_ne hi⟩
      rw [allOrNothing_of_ok hexec hgone, copies_iff hsized hwhole hdec hslot]

/-- **Main result.** For every directory, tier and store, a file transfer is all or nothing exactly
if the tier does not lose the slot it is asked for and an accepted file is as large as a chunk. -/
theorem all_or_nothing_iff (hr : Reachable H e.directory others) (hsized : e.Sized) (c : NvmeCall) :
    c.AllOrNothing e ↔ c.Clean e := by
  cases c with
  | offload key validTokens releaseCpu fault => exact offload_iff hr.inv hsized _ _ _
  | onload key releaseNvme fault unlinked => exact onload_iff hr.inv hsized _ _ _

/-- One chunk in a tier of the small engine. -/
def oneChunk (tier : StorageTier) : CacheDirectory :=
  finalState ((DirOp.place (chunk 1) tier .READY).exec (finalState ((DirOp.create (chunk 1)).exec
    (small 1000 1).directory)))

theorem oneChunk_reachable (tier : StorageTier) : Reachable (fun _ => 0) (oneChunk tier) 0 :=
  .call (.call (small_start 1000 1 one_ne_zero).directory (.create _)) (.place _ tier .READY)

/-- A chunk goes from the CPU to a file, and the write fails. -/
theorem all_or_nothing_iff_failed :
    (offload (chunk 1) 1 true (.writeTemp 3 true)).AllOrNothing
      { small 1000 1 with directory := oneChunk .CPU } :=
  (all_or_nothing_iff (e := { small 1000 1 with directory := oneChunk .CPU }) (oneChunk_reachable .CPU)
    ⟨(small_start 1000 1 one_ne_zero).chunkBytes_lt, fun _ => rfl, fun _ => rfl⟩ _).mpr
    fun _ _ _ _ _ => trivial

/-- A file whose payload is shorter than a chunk is loaded as the chunk. -/
theorem onload_short : Reachable (fun _ => 0) (oneChunk .NVME) 0 ∧
    ¬ (onload (chunk 1) false .none true).AllOrNothing
      { withFile 9 with directory := oneChunk .NVME } := by
  have hsized : Sized { withFile 9 with directory := oneChunk .NVME } :=
    ⟨(small_start 1000 1 one_ne_zero).chunkBytes_lt, fun _ => rfl, fun _ => rfl⟩
  refine ⟨oneChunk_reachable .NVME, fun h => ?_⟩
  have hclean := (onload_iff (e := { withFile 9 with directory := oneChunk .NVME })
    (oneChunk_reachable .NVME).inv hsized _ _ _).mp h
  have hdecodes : Decodes (makeFileMeta (chunk 1) 0 4) 4 (encode (makeFileMeta (chunk 1) 1 2) [7, 8])
      (makeFileMeta (chunk 1) 1 2) [7, 8] :=
    ⟨⟨by decide, by decide, ⟨rfl, rfl, rfl, rfl, rfl, rfl, rfl⟩, by decide⟩, rfl, List.prefix_rfl⟩
  have hwhole := hclean _ ⟨0, 1⟩ rfl rfl rfl rfl _ _ [7, 8] rfl hdecodes
  cases hwhole

end NvmeCall

end KVFlux.V3
