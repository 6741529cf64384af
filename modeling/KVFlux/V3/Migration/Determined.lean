import KVFlux.V3.ChunkFormat
import KVFlux.V3.Migration.Frame

/-!
# What a chunk from a file is made of

A transfer from NVMe to the CPU copies the payload of the file over the front of the slot. The
reader accepts files whose payload is smaller than a chunk; the rest of the slot is then what it
held before.

* `Whole`: an accepted file at the slot fills a chunk.
* `read_again`, `io_again`, `onload_again`: what a successful read does over any old content.
* `Loaded`, `step_loaded`: a task that has read its file keeps what it has read.
* **`determined_iff_whole`**: the slot is determined by the file exactly if the file is whole.
* `acceptsWhole`: whether a file is whole, computed; `determined_whole`: an `onload` that returns and a
  task that completes.
* `stale`: two transfers from one file that end differently.
-/

namespace KVFlux.V3

open Fallible ChunkRecord Transition

namespace ChunkFileStore

variable {s : ChunkFileStore} {fault : ReadFault} {slot outCapacity : ℕ}
  {expected m : ChunkFileMeta} {out out' : Bytes}

/-- **A successful read** finds a file that decodes, and does the same over any buffer. -/
theorem read_again (h : s.read fault slot expected outCapacity out = .ok (some m) out') :
    ∃ file payload, s.files.lookup slot = some file ∧
      Decodes expected outCapacity file m payload ∧
      ∀ b, s.read fault slot expected outCapacity b =
        .ok (some m) (payload ++ b.drop payload.length) := by
  unfold read at h ⊢
  cases hf : s.files.lookup slot with
  | none => cases fault <;> simp [hf] at h
  | some file =>
    cases fault with
    | openFile => simp at h
    | none =>
      simp only [hf] at h ⊢
      obtain ⟨payload, hd⟩ := decodes_of_readContent h
      exact ⟨file, payload, rfl, hd, fun b => readContent_of_decodes hd⟩
    | readFile n =>
      simp only [hf] at h ⊢
      obtain ⟨payload, hd⟩ := decodes_of_readContent h
      exact ⟨file, payload, rfl,
        ⟨hd.header, hd.length_eq, hd.starts.trans (List.take_prefix n file)⟩,
        fun b => readContent_of_decodes hd⟩

end ChunkFileStore

namespace Engine

variable {H : Tokens → UInt64} {e e' e₁ : Engine} {a : Action} {key : CacheKey} {id w i j : ℕ}
  {t t' : Task} {expected : ChunkFileMeta} {fault : ReadFault}

/-- An accepted file at the slot fills a chunk. -/
def Whole (e : Engine) (slot : ℕ) (expected : ChunkFileMeta) : Prop :=
  ∀ file m payload, e.store.files.lookup slot = some file →
    Decodes expected e.chunkBytes file m payload → m.payloadSize.toNat = e.chunkBytes

theorem readChunk_again (h : readChunk i expected j fault e = .ok () e₁) :
    ∃ file m payload, e.store.files.lookup i = some file ∧
      Decodes expected e.chunkBytes file m payload ∧
      ∀ (d : CacheDirectory) (c : ℕ → Bytes),
        readChunk i expected j fault { e with directory := d, cpu := c } =
          .ok () { e with
            directory := d
            cpu := Function.update c j (payload ++ (c j).drop payload.length) } := by
  unfold readChunk at h
  cases hb : e.buffer .CPU j with
  | error err => rw [hb] at h; cases h
  | ok u =>
    rw [hb] at h
    simp only at h
    cases hread : e.store.read fault i expected e.chunkBytes (e.cpu j) with
    | error err out => rw [hread] at h; cases h
    | ok found out =>
      rw [hread] at h
      cases found with
      | none => cases h
      | some m =>
        obtain ⟨file, payload, hf, hd, hagain⟩ := ChunkFileStore.read_again hread
        refine ⟨file, m, payload, hf, hd, fun d c => ?_⟩
        unfold readChunk
        have hb' : buffer { e with directory := d, cpu := c } .CPU j = .ok u := hb
        rw [hb']
        simp only [hagain (c j)]
        rfl

/-- A payload over the front of a buffer leaves nothing of the old content exactly if it is as long
as the buffer. -/
theorem front_determined {payload b₀ : Bytes} {n : ℕ} (hle : payload.length ≤ n)
    (h₀ : b₀.length = n) : (∀ b : Bytes, b.length = n →
      payload ++ b.drop payload.length = payload ++ b₀.drop payload.length) ↔
        payload.length = n := by
  constructor
  · intro h
    have hrep : ∀ x : UInt8, List.replicate (n - payload.length) x = b₀.drop payload.length := by
      intro x
      have := List.append_cancel_left (h (List.replicate n x) (List.length_replicate))
      rwa [List.drop_replicate] at this
    have hzero : n - payload.length = 0 := by
      by_contra hne
      have h01 := (hrep 0).trans (hrep 1).symm
      have := (List.replicate_right_inj hne).mp h01
      exact absurd this (by decide)
    omega
  · intro hn b hb
    rw [List.drop_eq_nil_of_le (by omega), List.drop_eq_nil_of_le (by omega)]

theorem io_again (h : e.io w fault = some e₁) (hw : e.workers w = .started id)
    (ht : e.tasks id = some t) (hd : t.destination ≠ .NVME)
    (hw₁ : e₁.workers w = .finished id 1 "") :
    ∃ file m payload, e.store.files.lookup t.sourceLoc.slot = some file ∧
      Decodes t.fileMeta e.chunkBytes file m payload ∧
      ∀ c : ℕ → Bytes, io { e with cpu := c } w fault =
        some (setWorker { e with
          cpu := Function.update c t.destinationLoc.slot
            (payload ++ (c t.destinationLoc.slot).drop payload.length) } w (.finished id 1 "")) := by
  unfold io at h
  simp only [hw, ht, Option.map_some, if_neg hd] at h
  cases hread : readChunk t.sourceLoc.slot t.fileMeta t.destinationLoc.slot fault e with
  | error err e₂ =>
    rw [hread] at h
    cases h
    have hw₁ : Function.update e₂.workers w (.finished id (-1) err.what) w = .finished id 1 "" := hw₁
    rw [Function.update_self] at hw₁
    cases hw₁
  | ok u e₂ =>
    obtain ⟨file, m, payload, hf, hdec, hagain⟩ := readChunk_again hread
    refine ⟨file, m, payload, hf, hdec, fun c => ?_⟩
    unfold io
    have hc := hagain e.directory c
    simp only [hw, ht, Option.map_some, if_neg hd]
    rw [show ({ e with cpu := c } : Engine) = { e with directory := e.directory, cpu := c } from rfl,
      hc]

theorem onDirectory_cpu {α : Type} {x : Call CacheDirectory α} {r : α}
    (h : onDirectory x e = .ok r e') (c : ℕ → Bytes) :
    onDirectory x { e with cpu := c } = .ok r { e' with cpu := c } := by
  unfold onDirectory at h ⊢
  simp only at h ⊢
  cases hx : x e.directory with
  | ok r₁ d => rw [hx] at h; cases h; rfl
  | error err d => rw [hx] at h; cases h

theorem onStore_cpu {α : Type} {x : Call ChunkFileStore α} {r : α}
    (h : onStore x e = .ok r e') (c : ℕ → Bytes) :
    onStore x { e with cpu := c } = .ok r { e' with cpu := c } := by
  unfold onStore at h ⊢
  simp only at h ⊢
  cases hx : x e.store with
  | ok r₁ s => rw [hx] at h; cases h; rfl
  | error err s => rw [hx] at h; cases h

theorem onStore_directory {α : Type} {x : Call ChunkFileStore α} {r : α}
    (h : onStore x e = .ok r e') : e'.directory = e.directory := by
  unfold onStore at h
  cases hx : x e.store with
  | ok r₁ s => rw [hx] at h; cases h; rfl
  | error err s => rw [hx] at h; cases h

/-- **A successful `onload`** does the same over any memory. -/
theorem onload_again (hl : e.Inv H) {releaseNvme unlinked : Bool}
    (h : onload key releaseNvme fault unlinked e = .ok () e₁) :
    ∃ r source loc file m payload, e.directory.record key = some r ∧
      r.nvme = some ⟨source, .READY⟩ ∧ e.store.files.lookup source.slot = some file ∧
      Decodes (makeFileMeta key 0 (UInt64.ofNat e.chunkBytes)) e.chunkBytes file m payload ∧
      (∃ r₁, e₁.directory.record key = some r₁ ∧ r₁.cpu = some ⟨loc, .READY⟩) ∧
      ∀ c : ℕ → Bytes, onload key releaseNvme fault unlinked { e with cpu := c } =
        .ok () { e₁ with
          cpu := Function.update c loc.slot (payload ++ (c loc.slot).drop payload.length) } := by
  unfold onload at h
  obtain ⟨_, _, hget, h⟩ := bind_ok h
  cases hget
  obtain ⟨r, _, hr, h⟩ := bind_ok h
  cases hrec : e.directory.record key with
  | none => rw [CacheDirectory.lookup_error hrec] at hr; cases hr
  | some r₀ =>
  rw [CacheDirectory.lookup_record hrec] at hr
  cases hr
  rcases hs : r.nvme with _ | ⟨source, state⟩
  · simp only [hs] at h
    cases h
  obtain rfl : state = .READY := by
    simp only [hs] at h
    cases state <;> first | rfl | cases h
  simp only [hs] at h
  obtain ⟨_, e₂, hn, h⟩ := bind_ok h
  obtain ⟨hnone, he⟩ := ensure_ok hn
  rw [he] at h
  have hsource : r.replica .NVME = some ⟨source, .READY⟩ := hs
  have hne : StorageTier.NVME ≠ .CPU := by decide
  -- the directory does not look at the memory
  obtain ⟨d₁, h₁, hi₁, -, hr₁⟩ := CacheDirectory.setState_run hl.directory hrec hsource .COPYING
  obtain ⟨_, _, hset, h⟩ := bind_ok h
  have hset₁ := (onDirectory_ok h₁).symm.trans hset
  obtain rfl := (EStateM.Result.ok.inj hset₁).2
  obtain ⟨_, e₃, hload, h⟩ := bind_ok h
  obtain ⟨_, _, hplace, hread⟩ := bind_ok (onError_ok.mp hload)
  have hcpu : r.replica .CPU = none := Option.isNone_iff_eq_none.mp hnone
  have hr₁' : d₁.record key = some (r.setReplica .NVME (some ⟨source, .COPYING⟩)) := by
    rw [hr₁, Function.update_self]
  rcases CacheDirectory.place_run hi₁ hr₁' ((replica_setReplica_of_ne hne.symm).trans hcpu)
    .LOADING with ⟨loc, d₂, h₂, hi₂, hr₂⟩ | ⟨err, d₂, h₂, -⟩
  swap
  · rw [onDirectory_error h₂] at hplace
    cases hplace
  have hplace₂ := (onDirectory_ok h₂).symm.trans hplace
  obtain ⟨rfl, rfl⟩ := EStateM.Result.ok.inj hplace₂
  obtain ⟨file, m, payload, hf, hdec, hagain⟩ := readChunk_again hread
  have hr₂' : d₂.record key = some ((r.setReplica .NVME (some ⟨source, .COPYING⟩)).setReplica .CPU
      (some ⟨loc, .LOADING⟩)) := by
    rw [hr₂, Function.update_self]
  have hcopying : ((r.setReplica .NVME (some ⟨source, .COPYING⟩)).setReplica .CPU
      (some ⟨loc, .LOADING⟩)).replica .NVME = some ⟨source, .COPYING⟩ :=
    (replica_setReplica_of_ne hne).trans (replica_setReplica_self _ _ _)
  obtain ⟨d₃, h₃, hi₃, -, hr₃⟩ :=
    CacheDirectory.ready_run hi₂ hr₂' hcopying (replica_setReplica_self _ _ _) hne
  have he₃ := hagain d₂ e.cpu
  have hread₃ := hread.symm.trans he₃
  obtain rfl := (EStateM.Result.ok.inj hread₃).2
  obtain ⟨_, _, hready, h⟩ := bind_ok h
  have hready₃ := (onDirectory_ok h₃).symm.trans hready
  obtain rfl := (EStateM.Result.ok.inj hready₃).2
  have hpre : ∀ c : ℕ → Bytes, onload key releaseNvme fault unlinked { e with cpu := c } =
      (if releaseNvme = true then do
          onStore (ChunkFileStore.erase unlinked source.slot)
          onDirectory (CacheDirectory.remove key .NVME)
        else pure () : Call Engine Unit)
        { e with
          directory := d₃
          cpu := Function.update c loc.slot (payload ++ (c loc.slot).drop payload.length) } := by
    intro c
    unfold onload
    refine (bind_of_ok rfl).trans ?_
    refine (bind_of_ok (congrArg (check · _) (CacheDirectory.lookup_record hrec))).trans ?_
    simp only [hs]
    refine (bind_of_ok (ensure_apply hnone)).trans ?_
    refine (bind_of_ok (onDirectory_cpu hset c)).trans ?_
    refine (bind_of_ok (onError_ok.mpr
      ((bind_of_ok (onDirectory_cpu hplace c)).trans (hagain d₂ c)))).trans ?_
    exact bind_of_ok (onDirectory_cpu hready _)
  have hr₃' : d₃.record key = some (((r.setReplica .NVME (some ⟨source, .COPYING⟩)).setReplica .CPU
      (some ⟨loc, .LOADING⟩)).setReplica .CPU (some ⟨loc, .READY⟩) |>.setReplica .NVME
      (some ⟨source, .READY⟩)) := by
    rw [hr₃, Function.update_self]
  refine ⟨r, source, loc, file, m, payload, rfl, hs, hf, hdec, ?_, fun c => ?_⟩
  · cases releaseNvme with
    | false =>
      cases h
      exact ⟨_, hr₃', by simp [setReplica]⟩
    | true =>
      obtain ⟨_, e₄, herase, hremove⟩ := bind_ok h
      have he₄ : e₄.directory = d₃ := onStore_directory herase
      obtain ⟨d₄, h₄, -, -, hr₄⟩ := CacheDirectory.remove_run hi₃ hr₃' (replica_setReplica_self _ _ _)
        (.inl rfl)
      have hremove₄ := (onDirectory_ok (by rw [he₄]; exact h₄)).symm.trans hremove
      obtain rfl := (EStateM.Result.ok.inj hremove₄).2
      exact ⟨_, by rw [hr₄, Function.update_self], by simp [setReplica]⟩
  · rw [hpre c]
    cases releaseNvme with
    | false => cases h; rfl
    | true =>
      obtain ⟨_, e₄, herase, hremove⟩ := bind_ok h
      exact (bind_of_ok (onStore_cpu herase _)).trans (onDirectory_cpu hremove _)

/-! ## Runs -/

/-- The task has read its file into the front of its slot. -/
def Loaded (e : Engine) (t : Task) : Prop :=
  ∃ file m payload, e.store.files.lookup t.sourceLoc.slot = some file ∧
    Decodes t.fileMeta e.chunkBytes file m payload ∧ payload <+: e.cpu t.destinationLoc.slot

/-- An unfinished task whose read has succeeded keeps what it has read. -/
def Reading (e : Engine) : Prop :=
  ∀ t, e.tasks t.id = some t → t.state.terminal = false → t.source = .NVME →
    Arrived e (.task t.id) → e.Loaded t

theorem step_loaded (hl : e.Inv H) (hwrite : e.Writing) (h : step a e = some e') (hi : e.Reading) :
    e'.Reading := by
  intro t' ht' hn' hsrc harr
  have hl' := step_inv hl a h
  cases ht : e.tasks t'.id with
  | none => exact absurd harr ((step_created hl h ht ht').2.not_arrived hl' ht')
  | some t =>
    obtain ⟨u, hu, hstep⟩ := step_task hl h ht
    obtain rfl : t' = u := Option.some.inj (ht'.symm.trans hu)
    have hid := hstep.same_id
    have hmove := hstep.move
    have hn := hstep.unfinished hn'
    rw [hid] at ht harr ht'
    have hm := move_task ht hn
    have hm' : e'.move (.task t.id) = some t.move := by
      rw [← hmove, ← hid]
      exact move_task (by rw [hid]; exact ht') hn'
    have hsource : t.source = .NVME := (congrArg Move.source hmove).symm.trans hsrc
    have hmeta := hstep.fileMeta
    have hloc : t'.sourceLoc = t.sourceLoc := congrArg Move.sourceLoc hmove
    have hdloc : t'.destinationLoc = t.destinationLoc := congrArg Move.destinationLoc hmove
    have hfile : e'.store.files.lookup t.sourceLoc.slot = e.store.files.lookup t.sourceLoc.slot := by
      have := (move_cell hl hl' hwrite h hm hm').1
      rwa [show t.move.source = .NVME from hsource] at this
    have hdest : t.destination = .CPU := by
      obtain ⟨-, -, hdirect, -⟩ := hl.queue.task t.id t ht
      rw [hsource] at hdirect
      cases hd : t.destination <;> simp_all [direct]
    unfold Loaded
    rw [hmeta, hloc, hdloc, hfile, step_chunkBytes hl h]
    rcases step_arrived hl hl' hwrite h hm hm' harr with ⟨harr₀, hcell⟩ | hlands
    · rw [show t.move.destination = .CPU from hdest] at hcell
      obtain ⟨file, m, payload, hf, hdec, hpre⟩ := hi t ht hn hsource harr₀
      refine ⟨file, m, payload, hf, hdec, ?_⟩
      rw [show e'.cpu t.destinationLoc.slot = e.cpu t.destinationLoc.slot from
        Option.some.inj hcell]
      exact hpre
    · generalize ho : CopyOwner.task t.id = o at hlands
      cases hlands with
      | copy hs => exact absurd hsource hs
      | @read w fault u out ha hw hu hm₁ hs hd hw' hcell himage =>
        obtain rfl : t = u := Option.some.inj
          (ht.symm.trans (by rw [CopyOwner.task.inj ho]; exact hu))
        subst ha
        obtain ⟨file, m, payload, hf, hdec, hagain⟩ := io_again h hw ht (by rw [hdest]; decide) hw'
        have he' := hagain e.cpu
        rw [show io { e with cpu := e.cpu } w fault = some e' from h] at he'
        cases he'
        refine ⟨file, m, payload, hf, hdec, ?_⟩
        show payload <+: Function.update e.cpu t.destinationLoc.slot _ t.destinationLoc.slot
        rw [Function.update_self]
        exact List.prefix_append _ _
      | write hu hm₁ hp hs =>
        rw [show t.move.source = .NVME from hsource] at hs
        cases hs

/-! ## The result -/

/-- How far the file determines the slot of a transfer from NVMe to the CPU that succeeds. -/
structure Determined (e : Engine) : Prop where
  /-- Over any content of the slot, `onload` returns and leaves the same bytes there exactly if the
  file is whole. -/
  onload : ∀ key releaseNvme fault unlinked e₁,
    Engine.onload key releaseNvme fault unlinked e = .ok () e₁ →
    ∃ r source r₁ loc, e.directory.record key = some r ∧ r.nvme = some ⟨source, .READY⟩ ∧
      e₁.directory.record key = some r₁ ∧ r₁.cpu = some ⟨loc, .READY⟩ ∧
      ((∀ b : Bytes, b.length = e.chunkBytes → ∃ e₂, Engine.onload key releaseNvme fault unlinked
          { e with cpu := Function.update e.cpu loc.slot b } = .ok () e₂ ∧
          e₂.cpu loc.slot = e₁.cpu loc.slot) ↔
        e.Whole source.slot (makeFileMeta key 0 (UInt64.ofNat e.chunkBytes)))
  /-- The same for the read of a task. -/
  io : ∀ w fault t e₁, step (.io w fault) e = some e₁ → e.workers w = .started t.id →
    e.tasks t.id = some t → t.source = .NVME → e₁.workers w = .finished t.id 1 "" →
    ((∀ b : Bytes, b.length = e.chunkBytes → ∃ e₂, step (.io w fault)
        { e with cpu := Function.update e.cpu t.destinationLoc.slot b } = some e₂ ∧
        e₂.workers w = .finished t.id 1 "" ∧
        e₂.cpu t.destinationLoc.slot = e₁.cpu t.destinationLoc.slot) ↔
      e.Whole t.sourceLoc.slot t.fileMeta)
  /-- A task that completes leaves the payload of a whole file in the slot. -/
  completed : ∀ a e' t t', step a e = some e' → e.tasks t.id = some t →
    t.state.terminal = false → e'.tasks t.id = some t' → t'.state = .COMPLETED →
    t.source = .NVME → e'.Whole t.sourceLoc.slot t.fileMeta →
    ∃ file m, e'.store.files.lookup t.sourceLoc.slot = some file ∧
      Decodes t.fileMeta e'.chunkBytes file m (e'.cpu t.destinationLoc.slot)

/-- The file that has been read is whole or not. -/
theorem whole_iff {slot : ℕ} {file payload : Bytes} {m : ChunkFileMeta}
    (hf : e.store.files.lookup slot = some file)
    (hdec : Decodes expected e.chunkBytes file m payload) :
    e.Whole slot expected ↔ payload.length = e.chunkBytes := by
  constructor
  · intro h
    rw [hdec.length_eq]
    exact h file m payload hf hdec
  · intro h file' m' payload' hf' hdec'
    rw [hf] at hf'
    cases hf'
    obtain ⟨rfl, rfl⟩ := ChunkFileStore.decodes_unique hdec hdec'
    rw [← hdec.length_eq]
    exact h

/-- **Main result.** In every reachable state the slot of a successful transfer from NVMe to the
CPU is determined by the file exactly if the payload of the file is as large as a chunk. -/
theorem determined_iff_whole {allowed : Engine → Action → Prop}
    (hr : Transition.Reachable step (Start H) allowed e) : e.Determined := by
  have hl := reachable_inv hr
  have hread : e.Reading := by
    refine hr.invariant (fun e h => ?_) fun _ _ _ hr hi _ hs =>
      step_loaded (reachable_inv hr) (reachable_writing hr) hs hi
    obtain ⟨htasks, -⟩ := h.fresh
    intro t ht
    rw [htasks] at ht
    cases ht
  refine ⟨?_, ?_, ?_⟩
  · intro key releaseNvme fault unlinked e₁ h
    obtain ⟨r, source, loc, file, m, payload, hrec, hs, hf, hdec, ⟨r₁, hr₁, hcpu⟩, hagain⟩ :=
      onload_again hl h
    refine ⟨r, source, r₁, loc, hrec, hs, hr₁, hcpu, ?_⟩
    rw [whole_iff hf hdec]
    have he₁ : e₁.cpu loc.slot = payload ++ (e.cpu loc.slot).drop payload.length := by
      have hown := hagain e.cpu
      rw [show Engine.onload key releaseNvme fault unlinked { e with cpu := e.cpu } = .ok () e₁
        from h] at hown
      rw [(EStateM.Result.ok.inj hown).2]
      exact Function.update_self _ _ _
    have hle : payload.length ≤ e.chunkBytes := hdec.length_eq ▸ hdec.header.payloadSize_le
    rw [← front_determined hle (hl.sized.cpu loc.slot), he₁]
    refine forall₂_congr fun b _ => ?_
    rw [hagain]
    constructor
    · rintro ⟨e₂, he₂, hcell⟩
      rw [← hcell, ← (EStateM.Result.ok.inj he₂).2]
      simp
    · intro hb
      exact ⟨_, rfl, by simpa using hb⟩
  · intro w fault t e₁ h hw ht hsrc hw₁
    have hd : t.destination ≠ .NVME := by
      obtain ⟨-, -, hdirect, -⟩ := hl.queue.task t.id t ht
      intro hd
      rw [hsrc, hd] at hdirect
      cases hdirect
    obtain ⟨file, m, payload, hf, hdec, hagain⟩ := io_again h hw ht hd hw₁
    rw [whole_iff hf hdec]
    have he₁ : e₁.cpu t.destinationLoc.slot =
        payload ++ (e.cpu t.destinationLoc.slot).drop payload.length := by
      have hown := hagain e.cpu
      rw [show Engine.io { e with cpu := e.cpu } w fault = some e₁ from h] at hown
      rw [Option.some.inj hown]
      exact Function.update_self _ _ _
    have hle : payload.length ≤ e.chunkBytes := hdec.length_eq ▸ hdec.header.payloadSize_le
    rw [← front_determined hle (hl.sized.cpu t.destinationLoc.slot), he₁]
    refine forall₂_congr fun b _ => ?_
    have hb : step (.io w fault) { e with cpu := Function.update e.cpu t.destinationLoc.slot b } =
        some (setWorker { e with
          cpu := Function.update (Function.update e.cpu t.destinationLoc.slot b)
            t.destinationLoc.slot (payload ++ b.drop payload.length) } w (.finished t.id 1 "")) := by
      have := hagain (Function.update e.cpu t.destinationLoc.slot b)
      rwa [Function.update_self t.destinationLoc.slot b e.cpu] at this
    constructor
    · rintro ⟨e₂, he₂, -, hcell⟩
      obtain rfl := Option.some.inj (he₂.symm.trans hb)
      have hnew : ∀ c : ℕ → Bytes, (setWorker { e with
          cpu := Function.update c t.destinationLoc.slot (payload ++ b.drop payload.length) } w
            (.finished t.id 1 "")).cpu t.destinationLoc.slot =
          payload ++ b.drop payload.length := fun _ => Function.update_self _ _ _
      exact (hnew _).symm.trans hcell
    · intro hcell
      exact ⟨_, hb, Function.update_self _ _ _, (Function.update_self _ _ _).trans hcell⟩
  · intro a e' t t' h ht hn ht' hc hsrc hwhole
    obtain ⟨harr, hcell⟩ := step_completed hl h ht ht' hn hc
    obtain ⟨file, m, payload, hf, hdec, hpre⟩ := hread t ht hn hsrc harr
    have hstore : e'.store.files.lookup t.sourceLoc.slot = some file := by
      rw [← hf]
      exact hcell .NVME t.sourceLoc.slot
    have hcpu : e'.cpu t.destinationLoc.slot = e.cpu t.destinationLoc.slot :=
      Option.some.inj (hcell .CPU t.destinationLoc.slot)
    have hchunk := step_chunkBytes hl h
    rw [← hchunk] at hdec
    have hlen := (whole_iff hstore hdec).mp hwhole
    refine ⟨file, m, hstore, ?_⟩
    rw [hcpu, ← List.IsPrefix.eq_of_length hpre (by rw [hlen, hchunk, hl.sized.cpu])]
    exact hdec

/-! ## Whole and short files -/

/-- The reader accepts the file at the slot, and its payload fills a chunk. -/
def acceptsWhole (e : Engine) (slot : ℕ) (expected : ChunkFileMeta) : Bool :=
  match e.store.read .none slot expected e.chunkBytes [] with
  | .ok (some m) _ => m.payloadSize.toNat = e.chunkBytes
  | _ => false

theorem whole_of_acceptsWhole {slot : ℕ} {expected : ChunkFileMeta}
    (h : e.acceptsWhole slot expected = true) : e.Whole slot expected := by
  unfold acceptsWhole at h
  split at h
  · rename_i m out hread
    obtain ⟨file, payload, hf, hdec, -⟩ := ChunkFileStore.read_again hread
    exact (whole_iff hf hdec).mpr (hdec.length_eq.trans (of_decide_eq_true h))
  · cases h

/-- The file of the chunk's NVMe replica is whole. -/
def fileWhole (e : Engine) (key : CacheKey) : Bool :=
  ((e.directory.record key).bind ChunkRecord.nvme).any fun slot =>
    e.acceptsWhole slot.location.slot (makeFileMeta key 0 (UInt64.ofNat e.chunkBytes))

/-- The slot of the CPU replica of a chunk, when READY, after `onload`. -/
def onloaded (key : CacheKey) (e : Engine) : Option Bytes :=
  match onload key false .none true e with
  | .ok _ e₁ => (e₁.directory.record key).bind fun r =>
    match r.cpu with
    | some ⟨loc, .READY⟩ => some (e₁.cpu loc.slot)
    | _ => none
  | .error _ _ => none

theorem onload_of_onloaded {b : Bytes} (h : onloaded key e = some b) :
    ∃ e₁, onload key false .none true e = .ok () e₁ := by
  unfold onloaded at h
  cases hx : onload key false .none true e with
  | ok _ e₁ => exact ⟨e₁, rfl⟩
  | error err e₁ => rw [hx] at h; cases h

/-- A task that reads a file, and its worker: whether the file is whole. -/
structure TaskRead where
  state : MigrationState
  source : StorageTier
  slot : ℕ
  destinationSlot : ℕ
  whole : Bool
  worker : WorkerState
deriving DecidableEq

def taskRead (e : Engine) (id w : ℕ) : Option TaskRead :=
  (e.tasks id).map fun t => ⟨t.state, t.source, t.sourceLoc.slot, t.destinationLoc.slot,
    e.acceptsWhole t.sourceLoc.slot t.fileMeta, e.workers w⟩

/-- Two chunks in whole files, the second one on its way to the CPU. -/
def readRun : List Action :=
  [.call (.directory (.create (chunk 1))), .call (.provide (chunk 1) .NVME 1 [1, 2, 3, 4] .none),
    .call (.directory (.create (chunk 2))), .call (.provide (chunk 2) .NVME 1 [5, 6, 7, 8] .none),
    .call (.submit (chunk 2) .CPU 1 0 {}), .take 0, .checkCancel 0]

/-- One chunk is loaded by `onload`, the other one by a task that completes. -/
theorem determined_whole : ∃ e₀ e₁ e₂ e₃,
    run step readRun (small 1000 1) = some e₀ ∧ step (.io 0 .none) e₀ = some e₁ ∧
    run step [.storeResult 0, .notify 0] e₁ = some e₂ ∧ step (.call (.poll 1 true)) e₂ = some e₃ ∧
    (∃ loc e', onload (chunk 1) false .none true e₀ = .ok () e' ∧
      ∀ b : Bytes, b.length = e₀.chunkBytes → ∃ e, onload (chunk 1) false .none true
        { e₀ with cpu := Function.update e₀.cpu loc b } = .ok () e ∧ e.cpu loc = e'.cpu loc) ∧
    (∀ b : Bytes, b.length = e₀.chunkBytes → ∃ e, step (.io 0 .none)
      { e₀ with cpu := Function.update e₀.cpu 0 b } = some e ∧ e.cpu 0 = e₁.cpu 0) ∧
    e₃.cpu 0 = [5, 6, 7, 8] ∧ ∃ t file m, e₃.tasks 1 = some t ∧ t.state = .COMPLETED ∧
      e₃.store.files.lookup 1 = some file ∧ Decodes t.fileMeta e₃.chunkBytes file m (e₃.cpu 0) := by
  have hstate : ((run step readRun (small 1000 1)).bind fun e₀ => (step (.io 0 .none) e₀).bind
      fun e₁ => (run step [.storeResult 0, .notify 0] e₁).bind fun e₂ =>
      (step (.call (.poll 1 true)) e₂).map fun e₃ =>
        ((onloaded (chunk 1) e₀, e₀.fileWhole (chunk 1)), e₃.cpu 0,
          [e₀, e₁, e₂, e₃].map fun e => e.taskRead 1 0)) =
      some ((some [1, 2, 3, 4], true), [5, 6, 7, 8],
        [some ⟨.RUNNING, .NVME, 1, 0, true, .started 1⟩,
          some ⟨.RUNNING, .NVME, 1, 0, true, .finished 1 1 ""⟩,
          some ⟨.RUNNING, .NVME, 1, 0, true, .idle⟩,
          some ⟨.COMPLETED, .NVME, 1, 0, true, .idle⟩]) := by
    decide +kernel
  obtain ⟨e₀, h₀, hstate⟩ := Option.bind_eq_some_iff.mp hstate
  obtain ⟨e₁, h₁, hstate⟩ := Option.bind_eq_some_iff.mp hstate
  obtain ⟨e₂, h₂, hstate⟩ := Option.bind_eq_some_iff.mp hstate
  obtain ⟨e₃, h₃, hstate⟩ := Option.map_eq_some_iff.mp hstate
  obtain ⟨honload, hstate⟩ := Prod.mk.inj hstate
  obtain ⟨hcpu, htasks⟩ := Prod.mk.inj hstate
  obtain ⟨htask₀, htasks⟩ := List.cons.inj htasks
  obtain ⟨htask₁, htasks⟩ := List.cons.inj htasks
  obtain ⟨htask₂, htasks⟩ := List.cons.inj htasks
  obtain ⟨htask₃, -⟩ := List.cons.inj htasks
  have hr₀ := reachable_small one_ne_zero h₀
  have hr₂ := Transition.Reachable.run (hr₀.step trivial h₁) (fun _ _ _ => trivial) h₂
  refine ⟨e₀, e₁, e₂, e₃, h₀, h₁, h₂, h₃, ?_, ?_, hcpu, ?_⟩
  · obtain ⟨hloaded, hfile⟩ := Prod.mk.inj honload
    obtain ⟨e', he'⟩ := onload_of_onloaded hloaded
    obtain ⟨r, source, r₁, loc, hr, hs, -, -, hiff⟩ :=
      (determined_iff_whole hr₀).onload (chunk 1) false .none true e' he'
    refine ⟨loc.slot, e', he', hiff.mpr (whole_of_acceptsWhole ?_)⟩
    rw [fileWhole, hr, Option.bind_some, hs] at hfile
    exact hfile
  · obtain ⟨t, ht, hread⟩ := Option.map_eq_some_iff.mp htask₀
    injection hread with _ hsource _ hslot hwhole hw₀
    obtain ⟨_, -, hread₁⟩ := Option.map_eq_some_iff.mp htask₁
    injection hread₁ with _ _ _ _ _ hw₁
    obtain ⟨hid, -⟩ := (reachable_inv hr₀).queue.task 1 t ht
    intro b hb
    have hdetermined := ((determined_iff_whole hr₀).io 0 .none t e₁ h₁ (by rw [hw₀, hid])
      (by rw [hid, ht]) hsource (by rw [hw₁, hid])).mpr (whole_of_acceptsWhole hwhole)
    rw [hslot] at hdetermined
    obtain ⟨e, he, -, hcell⟩ := hdetermined b hb
    exact ⟨e, he, hcell⟩
  · obtain ⟨t, ht, hread⟩ := Option.map_eq_some_iff.mp htask₂
    injection hread with hstate hsource hslot hslot'
    obtain ⟨t₃, ht₃, hread₃⟩ := Option.map_eq_some_iff.mp htask₃
    injection hread₃ with hstate₃ _ hslot₃ _ hwhole₃
    obtain ⟨hid, -⟩ := (reachable_inv hr₂).queue.task 1 t ht
    obtain ⟨t', ht', hstep⟩ := step_task (reachable_inv hr₂) h₃ ht
    obtain rfl : t₃ = t' := Option.some.inj (ht₃.symm.trans ht')
    have hwhole : e₃.Whole t.sourceLoc.slot t.fileMeta := by
      rw [hslot, ← hslot₃, ← hstep.fileMeta]
      exact whole_of_acceptsWhole hwhole₃
    obtain ⟨file, m, hf, hdec⟩ := (determined_iff_whole hr₂).completed _ e₃ t t₃ h₃
      (by rw [hid, ht]) (by rw [hstate]; rfl) (by rw [hid, ht₃]) hstate₃ hsource hwhole
    rw [hslot] at hf
    rw [hslot', ← hstep.fileMeta] at hdec
    exact ⟨t₃, file, m, ht₃, hstate₃, hf, hdec⟩

/-- A chunk is registered in the NVMe slot 0. -/
def registerRun : List Action :=
  [.call (.directory (.create (chunk 1))), .call (.directory (.place (chunk 1) .NVME .READY))]

/-- The small engine over a directory with the file of a two byte chunk in slot 0. -/
def withFile (fill : UInt8) : Engine :=
  { small 1000 1 with
    store := .new "" 1000 (AList.insert 0 (encode (makeFileMeta (chunk 1) 1 2) [7, 8]) ∅) ∅
    cpu := fun _ => List.replicate 4 fill }

theorem withFile_start (fill : UInt8) : Start (fun _ => 0) (withFile fill) where
  directory := (small_start 1000 1 one_ne_zero).directory
  records := rfl
  engine := ⟨2, 2, 1, rfl⟩
  chunkBytes_lt := (small_start 1000 1 one_ne_zero).chunkBytes_lt
  gpu_length _ := rfl
  cpu_length _ := rfl

/-- The file is shorter than the chunk: two runs that differ in the memory alone succeed with
different chunks. -/
theorem stale : ∃ e e', Start (fun _ => 0) (withFile 0) ∧ Start (fun _ => 0) (withFile 9) ∧
    run step registerRun (withFile 0) = some e ∧ run step registerRun (withFile 9) = some e' ∧
    onloaded (chunk 1) e = some [7, 8, 0, 0] ∧ onloaded (chunk 1) e' = some [7, 8, 9, 9] := by
  have h : (run step registerRun (withFile 0)).bind (onloaded (chunk 1)) = some [7, 8, 0, 0] := by
    decide +kernel
  have h' : (run step registerRun (withFile 9)).bind (onloaded (chunk 1)) = some [7, 8, 9, 9] := by
    decide +kernel
  obtain ⟨e, he, hcell⟩ := Option.bind_eq_some_iff.mp h
  obtain ⟨e', he', hcell'⟩ := Option.bind_eq_some_iff.mp h'
  exact ⟨e, e', withFile_start 0, withFile_start 9, he, he', hcell, hcell'⟩

end Engine

end KVFlux.V3
