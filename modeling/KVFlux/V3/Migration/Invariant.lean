import KVFlux.V3.Migration.Calls

/-!
# The invariant of the engine

* `start_inv`: a new engine satisfies the invariant.
* `effect_inv`: the calls of the owner keep it.
* `ownerStep_inv`, `take_inv`, `checkCancel_inv`, `io_inv`, `commit_inv`, `storeResult_inv`,
  `notify_inv`, `device_inv`, `scribble_inv`: the other steps keep it.
* **`step_inv`**, **`reachable_inv`**: every reachable state satisfies it.
-/

namespace KVFlux.V3

open Fallible ChunkRecord Transition

namespace Engine

variable {H : Tokens → UInt64} {e e' : Engine} {c : Option ClientCall} {key : CacheKey}
  {t t' : Task} {id w : ℕ} {o : CopyOwner} {m : Move}

/-! ## Moves after an update -/

theorem move_submit (hn : t.state.terminal = false) :
    move { e with tasks := Function.update e.tasks t.id (some t) } =
      Function.update e.move (.task t.id) (some t.move) := by
  funext o
  cases o with
  | transfer key => rfl
  | task id =>
    by_cases h : id = t.id
    · subst h
      simp [move, hn]
    · have hne : CopyOwner.task id ≠ .task t.id := fun h' => h (by cases h'; rfl)
      rw [Function.update_of_ne hne]
      simp [move, h]

theorem move_end (hn : t.state.terminal = true) :
    move { e with tasks := Function.update e.tasks t.id (some t) } =
      Function.update e.move (.task t.id) none := by
  funext o
  cases o with
  | transfer key => rfl
  | task id =>
    by_cases h : id = t.id
    · subst h
      simp [move, hn]
    · have hne : CopyOwner.task id ≠ .task t.id := fun h' => h (by cases h'; rfl)
      rw [Function.update_of_ne hne]
      simp [move, h]

theorem move_pending (p : Option Pending) :
    move { e with pending := Function.update e.pending key p } =
      Function.update e.move (.transfer key) (p.map (Pending.move key)) := by
  funext o
  cases o with
  | task id => rfl
  | transfer k =>
    by_cases h : k = key
    · subst h
      simp [move]
    · have hne : CopyOwner.transfer k ≠ .transfer key := fun h' => h (by cases h'; rfl)
      rw [Function.update_of_ne hne]
      simp [move, h]

/-- A task that goes on between the same replicas. -/
theorem move_setTask (ht : e.tasks id = some t) (hid : t'.id = id) (hmove : t'.move = t.move)
    (hn : t'.state.terminal = t.state.terminal) : (e.setTask t').move = e.move := by
  funext o
  cases o with
  | transfer key => rfl
  | task i =>
    by_cases h : i = id
    · subst h
      simp [move, setTask, hid, ht, hn, hmove]
    · simp [move, setTask, hid, h]

theorem move_setCopy (o : CopyOwner) (s : CopyState) : (e.setCopy o s).move = e.move := by
  funext o'
  cases o with
  | task id =>
    cases o' with
    | transfer key => rfl
    | task id' =>
      by_cases h : id' = id
      · subst h
        cases ht : e.tasks id' with
        | none => simp [move, setCopy, ht]
        | some t => simp only [move, setCopy, ht, Function.update_self, Option.map_some]; rfl
      · simp [move, setCopy, h]
  | transfer key =>
    cases o' with
    | task id' => rfl
    | transfer key' =>
      by_cases h : key' = key
      · subst h
        cases hp : e.pending key' with
        | none => simp [move, setCopy, hp]
        | some p => simp only [move, setCopy, hp, Function.update_self, Option.map_some]; rfl
      · simp [move, setCopy, h]

/-! ## The parts of the invariant -/

theorem Sized.of_kept (h : e.Sized) (hk : Kept e e') (hc : e'.chunkBytes = e.chunkBytes) :
    e'.Sized :=
  ⟨hc ▸ h.chunkBytes_lt, fun i => (hk.gpu i).trans ((h.gpu i).trans hc.symm),
    fun i => (hk.cpu i).trans ((h.cpu i).trans hc.symm)⟩

theorem Sized.setMem (h : e.Sized) {tier : StorageTier} {i : ℕ} {b : Bytes}
    (hb : b.length = (e.mem tier i).length) : (e.setMem tier i b).Sized :=
  ⟨h.chunkBytes_lt, fun j => (setMem_gpu_length hb j).trans (h.gpu j),
    fun j => (setMem_cpu_length hb j).trans (h.cpu j)⟩

/-- Tasks, queue and workers as they were. -/
theorem Queue.frame (h : e.Queue) (htasks : e'.tasks = e.tasks) (hqueue : e'.ioQueue = e.ioQueue)
    (hworkers : e'.workers = e.workers) (hthreads : e'.ioThreads = e.ioThreads)
    (hchunk : e'.chunkBytes = e.chunkBytes) (hid : e.nextId ≤ e'.nextId)
    (howner : ∀ id, e'.owner = .cancelFinalize id → e.owner = .cancelFinalize id) : e'.Queue := by
  refine ⟨?_, ?_, ?_, ?_, ?_, fun id ho => ?_, ?_⟩
  · rw [htasks, hchunk]
    intro id t ht
    obtain ⟨h₁, h₂, h₃⟩ := h.task id t ht
    exact ⟨h₁, h₂.trans_le hid, h₃⟩
  · rw [htasks, hqueue]; exact h.queued
  · rw [hqueue]; exact h.nodup
  · rw [htasks, hworkers, hthreads]; exact h.taken
  · rw [hworkers]; exact h.taken_once
  · rw [htasks, hqueue]; exact h.cancelling id (howner id ho)
  · rw [htasks]; exact h.ended

/-- A new task, which waits in the queue or is copied by the device. -/
theorem Queue.submit (h : e.Queue) {d : CacheDirectory} (hid : t.id = e.nextId)
    (hdirect : direct t.source t.destination = true)
    (hmeta : ∃ validTokens, t.fileMeta =
      makeFileMeta t.key validTokens (UInt64.ofNat e.chunkBytes)) (hresult : t.ioResult = 0)
    (hterm : t.state.terminal = false) (hstate : t.state = if t.usesCuda then .RUNNING else .QUEUED)
    (hidle : ∀ id, e.owner ≠ .cancelFinalize id) :
    Queue { e with
      directory := d, nextId := e.nextId + 1
      ioQueue := if t.usesCuda then e.ioQueue else e.ioQueue ++ [t.id]
      tasks := Function.update e.tasks t.id (some t) } := by
  have hne : ∀ {id s}, e.tasks id = some s → id ≠ t.id := by
    intro id s hs
    have := (h.task id s hs).2.1
    omega
  have hkeep : ∀ {id s}, e.tasks id = some s →
      Function.update e.tasks t.id (some t) id = some s := by
    intro id s hs
    rw [Function.update_of_ne (hne hs)]
    exact hs
  refine ⟨fun id s hs => ?_, fun id hq => ?_, ?_, fun w id hw => ?_, h.taken_once,
    fun id ho => absurd ho (hidle id), fun id s hs hend hc => ?_⟩
  · by_cases hi : id = t.id
    · subst hi
      have hs : Function.update e.tasks t.id (some t) t.id = some s := hs
      rw [Function.update_self] at hs
      cases hs
      exact ⟨rfl, by rw [hid]; exact Nat.lt_succ_self _, hdirect, hmeta⟩
    · have hs : Function.update e.tasks t.id (some t) id = some s := hs
      rw [Function.update_of_ne hi] at hs
      obtain ⟨h₁, h₂, h₃⟩ := h.task id s hs
      exact ⟨h₁, Nat.lt_succ_of_lt h₂, h₃⟩
  · have hold : id ∈ e.ioQueue → ∃ s, Function.update e.tasks t.id (some t) id = some s ∧
        s.state = .QUEUED ∧ s.usesCuda = false ∧ s.ioResult = 0 := by
      intro hq
      obtain ⟨s, hs, hrest⟩ := h.queued id hq
      exact ⟨s, hkeep hs, hrest⟩
    have hq : id ∈ if t.usesCuda then e.ioQueue else e.ioQueue ++ [t.id] := hq
    cases hc : t.usesCuda with
    | true => rw [hc] at hq; exact hold hq
    | false =>
      rw [hc] at hq
      rcases List.mem_append.mp hq with hq | hq
      · exact hold hq
      · obtain rfl := List.mem_singleton.mp hq
        refine ⟨t, Function.update_self _ _ _, ?_, hc, hresult⟩
        rw [hstate, hc]
        rfl
  · show (if t.usesCuda then e.ioQueue else e.ioQueue ++ [t.id]).Nodup
    split
    · exact h.nodup
    · refine List.Nodup.append h.nodup (List.nodup_singleton _) ?_
      rintro i hi hi'
      obtain rfl := List.mem_singleton.mp hi'
      obtain ⟨s, hs, -⟩ := h.queued _ hi
      exact hne hs rfl
  · obtain ⟨hlt, s, hs, hrest⟩ := h.taken w id hw
    exact ⟨hlt, s, hkeep hs, hrest⟩
  · by_cases hi : id = t.id
    · subst hi
      have hs : Function.update e.tasks t.id (some t) t.id = some s := hs
      rw [Function.update_self] at hs
      cases hs
      rw [hterm] at hend
      cases hend
    · have hs : Function.update e.tasks t.id (some t) id = some s := hs
      rw [Function.update_of_ne hi] at hs
      exact h.ended id s hs hend hc

/-- A task that ends leaves the queue and the workers alone. -/
theorem Queue.endTask (h : e.Queue) (t' : Task) (ht : e.tasks t.id = some t) (hid : t'.id = t.id)
    (hmove : t'.move = t.move) (hmeta : t'.fileMeta = t.fileMeta) (hcopy : t'.copy = t.copy)
    (hend : (t.state = .RUNNING ∧ t.Ended) ∨
      (t.state = .QUEUED ∧ t.usesCuda = false ∧ t.id ∉ e.ioQueue))
    (hidle : ∀ id, e.owner ≠ .cancelFinalize id)
    (htasks : e'.tasks = Function.update e.tasks t.id (some t')) (hqueue : e'.ioQueue = e.ioQueue)
    (hworkers : e'.workers = e.workers) (hthreads : e'.ioThreads = e.ioThreads)
    (hchunk : e'.chunkBytes = e.chunkBytes) (hnext : e'.nextId = e.nextId)
    (howner : e'.owner = e.owner) : e'.Queue := by
  have hcuda : t'.usesCuda = t.usesCuda := by
    unfold Task.usesCuda
    have hs : t'.source = t.source := congrArg Move.source hmove
    have hd : t'.destination = t.destination := congrArg Move.destination hmove
    rw [hs, hd]
  have hother : ∀ id s, id ≠ t.id → e'.tasks id = some s → e.tasks id = some s := by
    intro id s hne hs
    rwa [htasks, Function.update_of_ne hne] at hs
  refine ⟨fun id s hs => ?_, fun id hq => ?_, by rw [hqueue]; exact h.nodup, fun w id hw => ?_,
    by rw [hworkers]; exact h.taken_once, fun id ho => absurd (howner ▸ ho) (hidle id),
    fun id s hs hterm hc => ?_⟩
  · by_cases hne : id = t.id
    · subst hne
      rw [htasks, Function.update_self] at hs
      cases hs
      obtain ⟨h₁, h₂, h₃, h₄⟩ := h.task _ _ ht
      refine ⟨hid, hnext ▸ h₂, ?_, ?_⟩
      · have hs : t'.source = t.source := congrArg Move.source hmove
        have hd : t'.destination = t.destination := congrArg Move.destination hmove
        rw [hs, hd]; exact h₃
      · have hk : t'.key = t.key := congrArg Move.key hmove
        rw [hmeta, hk, hchunk]; exact h₄
    · rw [hnext, hchunk]
      exact h.task id s (hother id s hne hs)
  · rw [hqueue] at hq
    obtain ⟨s, hs, hstate, hrest⟩ := h.queued id hq
    have hne : id ≠ t.id := by
      rintro rfl
      obtain rfl : t = s := Option.some.inj (ht.symm.trans hs)
      rcases hend with ⟨hrun, -⟩ | ⟨-, -, hnot⟩
      · rw [hrun] at hstate; cases hstate
      · exact hnot hq
    exact ⟨s, by rwa [htasks, Function.update_of_ne hne], hstate, hrest⟩
  · rw [hworkers] at hw
    obtain ⟨hlt, s, hs, hstate, hc, hres⟩ := h.taken w id hw
    have hne : id ≠ t.id := by
      rintro rfl
      obtain rfl : t = s := Option.some.inj (ht.symm.trans hs)
      rcases hend with ⟨-, hended⟩ | ⟨hq, -⟩
      · exact hended.2 hc hres
      · rw [hq] at hstate; cases hstate
    exact ⟨hthreads ▸ hlt, s, by rwa [htasks, Function.update_of_ne hne], hstate, hc, hres⟩
  · by_cases hne : id = t.id
    · subst hne
      rw [htasks, Function.update_self] at hs
      cases hs
      rw [hcopy]
      rw [hcuda] at hc
      rcases hend with ⟨-, hended⟩ | ⟨-, hnc, -⟩
      · exact hended.1 hc
      · rw [hnc] at hc; cases hc
    · exact h.ended id s (hother id s hne hs) hterm hc

/-! ## The calls of the owner -/

/-- **The calls of the owner keep the invariant.** -/
theorem effect_inv (hl : e.Inv H) (hidle : ∀ id, e.owner ≠ .cancelFinalize id)
    (he : Effect H c e e') : e'.Inv H := by
  cases he with
  | quiet hi hr hn hs hk =>
    refine ⟨hi, ?_, hl.sized.of_kept hk rfl, hl.queue.frame rfl rfl rfl rfl rfl hn fun _ h => h⟩
    rw [hr]
    exact hl.locks
  | @client d pins op hop hi hc =>
    refine ⟨hi, ?_, ⟨hl.sized.chunkBytes_lt, hl.sized.gpu, hl.sized.cpu⟩,
      hl.queue.frame rfl rfl rfl rfl rfl le_rfl fun _ h => h⟩
    show Locks d.record _ e.move e.orphans
    generalize d.record = record at hc
    cases hc with
    | change hr hheld hbound hpin hnew => exact hl.locks.change hr hheld hbound hpin
    | create hr => exact hl.locks.create hr rfl
    | destroy hr hnone hpin => exact hl.locks.destroy hr hnone hpin
  | provide hcall hi hr hnone hr' hfresh hs hk himage =>
    refine ⟨hi, ?_, ⟨hl.sized.chunkBytes_lt, fun i => (hk.gpu i).trans (hl.sized.gpu i),
      fun i => (hk.cpu i).trans (hl.sized.cpu i)⟩,
      hl.queue.frame rfl rfl rfl rfl rfl le_rfl fun _ h => h⟩
    rw [hr']
    refine hl.locks.change_replicas hr (fun t l hh => hh.congr ?_) (setReplica_pinCount _ _ _)
    refine replica_setReplica_of_ne ?_
    rintro rfl
    exact hh.isSome hnone
  | abandon hi hn hr hready hnone hne hr' hpin horphan hnew =>
    refine ⟨hi, ?_, ⟨hl.sized.chunkBytes_lt, hl.sized.gpu, hl.sized.cpu⟩,
      hl.queue.frame rfl rfl rfl rfl rfl hn fun _ h => h⟩
    rw [hr']
    exact hl.locks.abandon hr (two_held_ready hready hnone hne) hpin horphan
  | @submit d t r r' validTokens hi hb hid hdirect hmeta hresult hcopy hcancel hstate =>
    have hnew : e.tasks t.id = none := by
      cases ht : e.tasks t.id with
      | none => rfl
      | some s =>
        have := (hl.queue.task _ _ ht).2.1
        omega
    have hmove : e.move (.task t.id) = none := by
      show (e.tasks t.id).bind _ = none
      rw [hnew]
      rfl
    have hterm : t.state.terminal = false := by
      rw [hstate]
      split <;> rfl
    refine ⟨hi, ?_, ⟨hl.sized.chunkBytes_lt, hl.sized.gpu, hl.sized.cpu⟩, ?_⟩
    · show Locks d.record e.clientPins
        (move { e with tasks := Function.update e.tasks t.id (some t) }) e.orphans
      rw [move_submit hterm, hb.record']
      exact hl.locks.acquire hb.record (two_held_ready hb.source hb.destination hb.tiers_ne) hmove
        hb.tiers_ne hb.source' hb.destination' hb.pinCount
    · exact hl.queue.submit hid hdirect ⟨_, hmeta⟩ hresult hterm hstate hidle
  | @beginTransfer d key p r r' hi hb hnone hcopy =>
    refine ⟨hi, ?_, ⟨hl.sized.chunkBytes_lt, hl.sized.gpu, hl.sized.cpu⟩,
      hl.queue.frame rfl rfl rfl rfl rfl le_rfl fun _ h => h⟩
    have hmove : e.move (.transfer key) = none := by
      show (e.pending key).map _ = none
      rw [hnone]
      rfl
    show Locks d.record e.clientPins (move { e with pending := Function.update e.pending key _ })
      e.orphans
    rw [move_pending, hb.record']
    exact hl.locks.acquire hb.record (two_held_ready hb.source hb.destination hb.tiers_ne) hmove
      hb.tiers_ne hb.source' hb.destination' hb.pinCount
  | @complete d t r ht hrun hend harrived hi hr hr' =>
    have hm := move_task ht (by rw [hrun]; rfl)
    refine ⟨hi, ?_, ⟨hl.sized.chunkBytes_lt, hl.sized.gpu, hl.sized.cpu⟩,
      hl.queue.endTask { t with state := .COMPLETED } ht rfl rfl rfl rfl (.inl ⟨hrun, hend⟩)
        hidle rfl rfl rfl rfl rfl rfl rfl⟩
    obtain ⟨r₁, hr₁, -, -, hpin⟩ := hl.locks.held _ _ hm
    obtain rfl : r = r₁ := Option.some.inj (hr.symm.trans hr₁)
    have hmove := @move_end e { t with state := .COMPLETED } rfl
    show Locks d.record e.clientPins (move { e with
      tasks := Function.update e.tasks t.id (some { t with state := .COMPLETED }) }) e.orphans
    rw [hmove, hr']
    refine hl.locks.finish hm hr ?_
    show r.pinCount - 1 + 1 = r.pinCount
    omega
  | @discard d store t state error r ht hstate hend hi hr hd hs hwhy =>
    have hn : t.state.terminal = false := by
      rcases hend with ⟨h, -⟩ | ⟨h, -⟩ <;> rw [h] <;> rfl
    have hm := move_task ht hn
    have hterm : state.terminal = true := by rcases hstate with rfl | rfl <;> rfl
    refine ⟨hi, ?_, ⟨hl.sized.chunkBytes_lt, hl.sized.gpu, hl.sized.cpu⟩,
      hl.queue.endTask { t with state := state, error := error } ht rfl rfl rfl rfl hend
        hidle rfl rfl rfl rfl rfl rfl rfl⟩
    obtain ⟨r₁, hr₁, -, -, hpin⟩ := hl.locks.held _ _ hm
    obtain rfl : r = r₁ := Option.some.inj (hr.symm.trans hr₁)
    have hmove := @move_end e { t with state := state, error := error } hterm
    show Locks d.record e.clientPins (move { e with
      tasks := Function.update e.tasks t.id (some { t with state := state, error := error }) }) e.orphans
    rw [hmove, hd.record']
    refine hl.locks.finish hm hr ?_
    show r.pinCount - 1 + 1 = r.pinCount
    omega
  | @finishTransfer d key p r r' hp hcopy hi hr hr' hpin hnew =>
    refine ⟨hi, ?_, ⟨hl.sized.chunkBytes_lt, hl.sized.gpu, hl.sized.cpu⟩,
      hl.queue.frame rfl rfl rfl rfl rfl le_rfl fun _ h => h⟩
    have hm : e.move (.transfer key) = some (p.move key) := by
      show (e.pending key).map _ = _
      rw [hp]
      rfl
    show Locks d.record e.clientPins (move { e with pending := Function.update e.pending key none })
      e.orphans
    rw [move_pending, hr']
    exact hl.locks.finish hm hr hpin
  | nvme loc hi hr hready hnone hr' hpin hheld hnew hs hk himage =>
    refine ⟨hi, ?_, ⟨hl.sized.chunkBytes_lt, fun i => (hk.gpu i).trans (hl.sized.gpu i),
      fun i => (hk.cpu i).trans (hl.sized.cpu i)⟩,
      hl.queue.frame rfl rfl rfl rfl rfl le_rfl fun _ h => h⟩
    rw [hr']
    exact hl.locks.change_replicas hr hheld hpin

/-! ## The steps of wait and cancel -/

theorem Inv.setOwner (hl : e.Inv H) {s : OwnerState} (hs : ∀ id, s ≠ .cancelFinalize id) :
    Inv H { e with owner := s } :=
  ⟨hl.directory, hl.locks, ⟨hl.sized.chunkBytes_lt, hl.sized.gpu, hl.sized.cpu⟩,
    hl.queue.frame rfl rfl rfl rfl rfl le_rfl fun id h => absurd h (hs id)⟩

theorem usesCuda_of_move (h : t'.move = t.move) : t'.usesCuda = t.usesCuda := by
  have hs : t'.source = t.source := congrArg Move.source h
  have hd : t'.destination = t.destination := congrArg Move.destination h
  unfold Task.usesCuda
  rw [hs, hd]

/-- A task with another flag or copy. -/
theorem Inv.updateTask (hl : e.Inv H) (t' : Task) (ht : e.tasks id = some t) (hid : t'.id = id)
    (hmove : t'.move = t.move) (hmeta : t'.fileMeta = t.fileMeta) (hstate : t'.state = t.state)
    (hresult : t'.ioResult = t.ioResult) (hcopy : t.state.terminal = true → t'.copy = t.copy) :
    (e.setTask t').Inv H := by
  subst hid
  have hcuda := usesCuda_of_move hmove
  have hself : (e.setTask t').tasks t'.id = some t' := Function.update_self _ _ _
  have hother : ∀ {i}, i ≠ t'.id → (e.setTask t').tasks i = e.tasks i :=
    fun h => Function.update_of_ne h _ _
  refine ⟨hl.directory, ?_, ⟨hl.sized.chunkBytes_lt, hl.sized.gpu, hl.sized.cpu⟩,
    fun i s hs => ?_, fun i hq => ?_, hl.queue.nodup, fun w i hw => ?_, hl.queue.taken_once,
    fun i ho => ?_, fun i s hs hend hc => ?_⟩
  · rw [move_setTask ht rfl hmove (by rw [hstate])]
    exact hl.locks
  · by_cases h : i = t'.id
    · subst h
      rw [hself] at hs
      cases hs
      obtain ⟨-, h₂, h₃, h₄⟩ := hl.queue.task _ _ ht
      have hsrc : t'.source = t.source := congrArg Move.source hmove
      have hdst : t'.destination = t.destination := congrArg Move.destination hmove
      have hkey : t'.key = t.key := congrArg Move.key hmove
      refine ⟨rfl, h₂, by rw [hsrc, hdst]; exact h₃, ?_⟩
      rw [hmeta, hkey]
      exact h₄
    · rw [hother h] at hs
      exact hl.queue.task i s hs
  · obtain ⟨s, hs, h₁, h₂, h₃⟩ := hl.queue.queued i hq
    by_cases h : i = t'.id
    · subst h
      obtain rfl : t = s := Option.some.inj (ht.symm.trans hs)
      exact ⟨t', hself, hstate.trans h₁, hcuda.trans h₂, hresult.trans h₃⟩
    · exact ⟨s, by rwa [hother h], h₁, h₂, h₃⟩
  · obtain ⟨hlt, s, hs, h₁, h₂, h₃⟩ := hl.queue.taken w i hw
    by_cases h : i = t'.id
    · subst h
      obtain rfl : t = s := Option.some.inj (ht.symm.trans hs)
      exact ⟨hlt, t', hself, hstate.trans h₁, hcuda.trans h₂, hresult.trans h₃⟩
    · exact ⟨hlt, s, by rwa [hother h], h₁, h₂, h₃⟩
  · obtain ⟨hn, s, hs, h₁, h₂⟩ := hl.queue.cancelling i ho
    by_cases h : i = t'.id
    · subst h
      obtain rfl : t = s := Option.some.inj (ht.symm.trans hs)
      exact ⟨hn, t', hself, hstate.trans h₁, hcuda.trans h₂⟩
    · exact ⟨hn, s, by rwa [hother h], h₁, h₂⟩
  · by_cases h : i = t'.id
    · subst h
      rw [hself] at hs
      cases hs
      rw [hstate] at hend
      rw [hcopy hend]
      exact hl.queue.ended _ t ht hend (hcuda ▸ hc)
    · rw [hother h] at hs
      exact hl.queue.ended i s hs hend hc

/-- What a step of the owner inside `wait` or `cancel` can do. -/
theorem ownerStep_cases {unlinked : Bool} (h : e.ownerStep unlinked = some e') :
    (∃ s, (∀ id, s ≠ .cancelFinalize id) ∧ e' = { e with owner := s }) ∨
    (∃ id, e.owner = .waitPoll id ∧ e' = finalState (poll id unlinked { e with owner := .idle })) ∨
    (∃ id t s, e.tasks id = some t ∧ (∀ id, s ≠ .cancelFinalize id) ∧
      e' = { e.setTask { t with cancelRequested := true } with owner := s }) ∨
    (∃ id ∈ e.ioQueue, e' = { e with ioQueue := e.ioQueue.erase id, owner := .cancelFinalize id }) ∨
    (∃ id t, e.owner = .cancelFinalize id ∧ e.tasks id = some t ∧
      e' = finalState (finalizeCancelled t unlinked { e with owner := .idle })) := by
  unfold ownerStep at h
  split at h
  · cases h
  · cases h
  · obtain ⟨t, ht, rfl⟩ := Option.map_eq_some_iff.mp h
    left
    refine ⟨_, fun id => ?_, rfl⟩
    split_ifs <;> nofun
  · cases h
    exact .inl ⟨_, by nofun, rfl⟩
  · obtain ⟨t, ht, rfl⟩ := Option.map_eq_some_iff.mp h
    left
    refine ⟨_, fun id => ?_, rfl⟩
    split_ifs <;> nofun
  · cases h
    exact .inl ⟨_, by nofun, rfl⟩
  · obtain ⟨t, ht, h⟩ := Option.bind_eq_some_iff.mp h
    left
    split at h
    · cases h
    · cases h
    · cases h; exact ⟨_, by nofun, rfl⟩
    · cases h; exact ⟨_, by nofun, rfl⟩
  · cases h
    exact .inr (.inl ⟨_, ‹_›, rfl⟩)
  · obtain ⟨t, ht, rfl⟩ := Option.map_eq_some_iff.mp h
    left
    refine ⟨_, fun id => ?_, rfl⟩
    split_ifs <;> nofun
  · obtain ⟨t, ht, rfl⟩ := Option.map_eq_some_iff.mp h
    refine .inr (.inr (.inl ⟨_, t, _, ht, fun id => ?_, rfl⟩))
    split_ifs <;> nofun
  · cases h
    split_ifs with hq
    · exact .inr (.inr (.inr (.inl ⟨_, hq, rfl⟩)))
    · exact .inl ⟨_, by nofun, rfl⟩
  · obtain ⟨t, ht, rfl⟩ := Option.map_eq_some_iff.mp h
    exact .inr (.inr (.inr (.inr ⟨_, t, ‹_›, ht, rfl⟩)))

theorem ownerStep_inv (hl : e.Inv H) {unlinked : Bool} (h : e.ownerStep unlinked = some e') :
    e'.Inv H := by
  have hidle : Inv H { e with owner := .idle } := hl.setOwner nofun
  rcases ownerStep_cases h with ⟨s, hs, rfl⟩ | ⟨id, -, rfl⟩ | ⟨id, t, s, ht, hs, rfl⟩ |
    ⟨id, hq, rfl⟩ | ⟨id, t, ho, ht, rfl⟩
  · exact hl.setOwner hs
  · exact effect_inv (c := none) hidle nofun (poll_effect hidle id unlinked)
  · obtain ⟨rfl, -⟩ := hl.queue.task id t ht
    exact (hl.updateTask { t with cancelRequested := true } ht rfl rfl rfl rfl rfl
      fun _ => rfl).setOwner hs
  · -- the task leaves the queue before it is cancelled
    obtain ⟨t, ht, hstate, hc, -⟩ := hl.queue.queued id hq
    refine ⟨hl.directory, hl.locks, ⟨hl.sized.chunkBytes_lt, hl.sized.gpu, hl.sized.cpu⟩,
      hl.queue.task, fun i hi => hl.queue.queued i (List.mem_of_mem_erase hi),
      hl.queue.nodup.erase id, hl.queue.taken, hl.queue.taken_once, fun i hi => ?_, hl.queue.ended⟩
    cases hi
    exact ⟨hl.queue.nodup.not_mem_erase, t, ht, hstate, hc⟩
  · obtain ⟨hn, s, hs, hstate, hc⟩ := hl.queue.cancelling id ho
    obtain rfl : t = s := Option.some.inj (ht.symm.trans hs)
    obtain ⟨rfl, -⟩ := hl.queue.task id t ht
    exact effect_inv (c := none) hidle nofun (finalizeCancelled_effect hidle ht
      (by rw [hstate]; rfl) (.inr ⟨hstate, hc, hn⟩) unlinked)

/-! ## The workers -/

theorem best_mem (h : e.best = some id) : id ∈ e.ioQueue := by
  unfold best at h
  split at h
  · cases h
  · rename_i i is heq
    rw [heq]
    cases h
    have hfold : ∀ (l : List ℕ) (b : ℕ),
        l.foldl (fun best it => if e.before it best then it else best) b ∈ b :: l := by
      intro l
      induction l with
      | nil => intro b; exact List.mem_singleton.mpr rfl
      | cons x xs ih =>
        intro b
        rw [List.foldl_cons]
        rcases List.mem_cons.mp (ih (if e.before x b then x else b)) with h | h
        · rw [h]
          split
          · exact List.mem_cons_of_mem _ List.mem_cons_self
          · exact List.mem_cons_self
        · exact List.mem_cons_of_mem _ (List.mem_cons_of_mem _ h)
    exact hfold is i

theorem take_cases (h : e.take w = some e') : ∃ id t, id ∈ e.ioQueue ∧ e.tasks id = some t ∧
    w < e.ioThreads ∧ e.workers w = .idle ∧ e.ownerLocks = false ∧
    e' = ({ e with ioQueue := e.ioQueue.erase id }.setTask { t with state := .RUNNING }).setWorker w
      (.taken id) := by
  unfold take at h
  split_ifs at h with hw
  obtain ⟨id, hb, h⟩ := Option.bind_eq_some_iff.mp h
  obtain ⟨t, ht, rfl⟩ := Option.map_eq_some_iff.mp h
  exact ⟨id, t, best_mem hb, ht, hw.1, hw.2.1, Bool.eq_false_iff.mpr hw.2.2, rfl⟩

theorem take_inv (hl : e.Inv H) (h : e.take w = some e') : e'.Inv H := by
  obtain ⟨id, t, hq, ht, hlt, hw, -, rfl⟩ := take_cases h
  obtain ⟨t₁, ht₁, hstate, hc, hres⟩ := hl.queue.queued id hq
  obtain rfl : t = t₁ := Option.some.inj (ht.symm.trans ht₁)
  obtain ⟨rfl, hid⟩ := hl.queue.task id t ht
  have hself : Function.update e.tasks t.id (some { t with state := .RUNNING }) t.id =
      some { t with state := .RUNNING } := Function.update_self _ _ _
  have hkeep : ∀ {i s}, i ≠ t.id → e.tasks i = some s →
      Function.update e.tasks t.id (some { t with state := .RUNNING }) i = some s := by
    intro i s hi hs
    rw [Function.update_of_ne hi]
    exact hs
  -- a worker that holds the task would contradict the queue
  have hfree : ∀ w' i, w' ≠ w → (Function.update e.workers w (.taken t.id) w').task = some i →
      (e.workers w').task = some i ∧ i ≠ t.id := by
    intro w' i hne hi
    rw [Function.update_of_ne hne] at hi
    refine ⟨hi, ?_⟩
    rintro rfl
    obtain ⟨-, s, hs, hrun, -⟩ := hl.queue.taken w' _ hi
    obtain rfl : t = s := Option.some.inj (ht.symm.trans hs)
    rw [hstate] at hrun
    cases hrun
  refine ⟨hl.directory, ?_, ⟨hl.sized.chunkBytes_lt, hl.sized.gpu, hl.sized.cpu⟩, fun i s hs => ?_,
    fun i hi => ?_, hl.queue.nodup.erase _, fun w' i hi => ?_, fun w₁ w₂ i h₁ h₂ => ?_,
    fun i ho => ?_, fun i s hs hend hcu => ?_⟩
  · have hmove := @move_setTask e t { t with state := .RUNNING } t.id ht rfl rfl (by rw [hstate]; rfl)
    show Locks e.directory.record e.clientPins (e.setTask { t with state := .RUNNING }).move e.orphans
    rw [hmove]
    exact hl.locks
  · have hs : Function.update e.tasks t.id (some { t with state := .RUNNING }) i = some s := hs
    by_cases hi : i = t.id
    · rw [hi, hself] at hs
      cases hs
      obtain ⟨-, h₂, h₃, h₄⟩ := hl.queue.task _ _ ht
      exact ⟨hi.symm, hi ▸ h₂, h₃, h₄⟩
    · rw [Function.update_of_ne hi] at hs
      exact hl.queue.task i s hs
  · obtain ⟨s, hs, hrest⟩ := hl.queue.queued i (List.mem_of_mem_erase hi)
    have hne : i ≠ t.id := by
      rintro rfl
      exact hl.queue.nodup.not_mem_erase hi
    exact ⟨s, hkeep hne hs, hrest⟩
  · have hi : (Function.update e.workers w (.taken t.id) w').task = some i := hi
    by_cases hww : w' = w
    · rw [hww, Function.update_self] at hi
      cases hi
      exact ⟨hww ▸ hlt, _, hself, rfl, hc, hres⟩
    · obtain ⟨hi, hne⟩ := hfree w' i hww hi
      obtain ⟨hlt', s, hs, hrest⟩ := hl.queue.taken w' i hi
      exact ⟨hlt', s, hkeep hne hs, hrest⟩
  · have h₁ : (Function.update e.workers w (.taken t.id) w₁).task = some i := h₁
    have h₂ : (Function.update e.workers w (.taken t.id) w₂).task = some i := h₂
    by_cases e₁ : w₁ = w <;> by_cases e₂ : w₂ = w
    · rw [e₁, e₂]
    · rw [e₁, Function.update_self] at h₁
      cases h₁
      exact absurd rfl (hfree w₂ _ e₂ h₂).2
    · rw [e₂, Function.update_self] at h₂
      cases h₂
      exact absurd rfl (hfree w₁ _ e₁ h₁).2
    · exact hl.queue.taken_once w₁ w₂ i (hfree w₁ _ e₁ h₁).1 (hfree w₂ _ e₂ h₂).1
  · obtain ⟨hn, s, hs, hrest⟩ := hl.queue.cancelling i ho
    have hne : i ≠ t.id := by
      rintro rfl
      exact hn hq
    exact ⟨fun hi => hn (List.mem_of_mem_erase hi), s, hkeep hne hs, hrest⟩
  · have hs : Function.update e.tasks t.id (some { t with state := .RUNNING }) i = some s := hs
    by_cases hi : i = t.id
    · rw [hi, hself] at hs
      cases hs
      cases hend
    · rw [Function.update_of_ne hi] at hs
      exact hl.queue.ended i s hs hend hcu

/-- A worker moves on with its task, or is done with it. -/
theorem Queue.setWorker (h : e.Queue) {s : WorkerState}
    (hs : s.task = (e.workers w).task ∨ s.task = none) (htasks : e'.tasks = e.tasks)
    (hqueue : e'.ioQueue = e.ioQueue) (hworkers : e'.workers = Function.update e.workers w s)
    (hthreads : e'.ioThreads = e.ioThreads) (hchunk : e'.chunkBytes = e.chunkBytes)
    (hid : e'.nextId = e.nextId)
    (howner : ∀ id, e'.owner = .cancelFinalize id → e.owner = .cancelFinalize id) : e'.Queue := by
  have hold : ∀ w' id, (e'.workers w').task = some id → (e.workers w').task = some id := by
    intro w' id hw
    rw [hworkers] at hw
    by_cases hww : w' = w
    · rw [hww, Function.update_self] at hw
      rw [hww]
      rcases hs with hs | hs
      · rwa [← hs]
      · rw [hs] at hw; cases hw
    · rwa [Function.update_of_ne hww] at hw
  refine ⟨?_, ?_, by rw [hqueue]; exact h.nodup, fun w' id hw => ?_,
    fun w₁ w₂ id h₁ h₂ => h.taken_once w₁ w₂ id (hold w₁ id h₁) (hold w₂ id h₂), fun id ho => ?_, ?_⟩
  · rw [htasks, hchunk, hid]; exact h.task
  · rw [htasks, hqueue]; exact h.queued
  · rw [htasks, hthreads]; exact h.taken w' id (hold w' id hw)
  · rw [htasks, hqueue]; exact h.cancelling id (howner id ho)
  · rw [htasks]; exact h.ended

/-- A step of a worker that only touches the memory and the files. -/
theorem Inv.setWorker (hl : e.Inv H) {s : WorkerState} {cpu : ℕ → Bytes} {store : ChunkFileStore}
    (hs : s.task = (e.workers w).task ∨ s.task = none)
    (hcpu : ∀ i, (cpu i).length = (e.cpu i).length) :
    Inv H { e with cpu := cpu, store := store, workers := Function.update e.workers w s } :=
  ⟨hl.directory, hl.locks, ⟨hl.sized.chunkBytes_lt, hl.sized.gpu, fun i =>
    (hcpu i).trans (hl.sized.cpu i)⟩,
    hl.queue.setWorker hs rfl rfl rfl rfl rfl rfl fun _ h => h⟩

theorem checkCancel_inv (hl : e.Inv H) (h : e.checkCancel w = some e') : e'.Inv H := by
  unfold checkCancel at h
  split at h
  · rename_i id hw
    obtain ⟨t, ht, rfl⟩ := Option.map_eq_some_iff.mp h
    refine hl.setWorker (.inl ?_) fun _ => rfl
    rw [hw]
    split <;> rfl
  · cases h

/-- The outcomes of `io`. -/
theorem io_cases (hsized : e.Sized) {fault : ReadFault} (h : e.io w fault = some e') :
    ∃ id t, e.workers w = .started id ∧ e.tasks id = some t ∧
      ((t.destination = .NVME ∧ ((∃ err, e' = e.setWorker w (.finished id (-1) err)) ∨
          (∃ p, e.store.writeCheck t.destinationLoc.slot t.fileMeta (e.cpu t.sourceLoc.slot) = .ok p ∧
            e' = e.setWorker w (.writing id p)))) ∨
        (t.destination ≠ .NVME ∧ ∃ out, out.length = e.chunkBytes ∧
          ((∃ err, e' = (e.setMem .CPU t.destinationLoc.slot out).setWorker w
              (.finished id (-1) err)) ∨
           (e' = (e.setMem .CPU t.destinationLoc.slot out).setWorker w (.finished id 1 "") ∧
            ∀ key validTokens bytes,
              t.fileMeta = makeFileMeta key validTokens (UInt64.ofNat e.chunkBytes) →
              bytes.length = e.chunkBytes →
              Image e.chunkBytes key .NVME bytes (e.store.files.lookup t.sourceLoc.slot) →
              out = bytes)))) := by
  unfold io at h
  split at h
  · rename_i id hw
    obtain ⟨t, ht, h⟩ := Option.map_eq_some_iff.mp h
    refine ⟨id, t, hw, ht, ?_⟩
    by_cases hd : t.destination = .NVME
    · left
      refine ⟨hd, ?_⟩
      rw [if_pos hd] at h
      cases hb : e.buffer .CPU t.sourceLoc.slot with
      | error err => rw [hb] at h; exact .inl ⟨_, h.symm⟩
      | ok u =>
        rw [hb] at h
        cases hc : e.store.writeCheck t.destinationLoc.slot t.fileMeta (e.cpu t.sourceLoc.slot) with
        | error err => rw [hc] at h; exact .inl ⟨_, h.symm⟩
        | ok p => rw [hc] at h; exact .inr ⟨p, rfl, h.symm⟩
    · right
      refine ⟨hd, ?_⟩
      rw [if_neg hd] at h
      obtain ⟨out, hlen, ⟨err, hr⟩ | ⟨hr, himage⟩⟩ := readChunk_cases hsized t.sourceLoc.slot
        t.destinationLoc.slot t.fileMeta fault
      · rw [hr] at h
        exact ⟨out, hlen, .inl ⟨_, h.symm⟩⟩
      · rw [hr] at h
        exact ⟨out, hlen, .inr ⟨h.symm, himage⟩⟩
  · cases h

theorem io_inv (hl : e.Inv H) {fault : ReadFault} (h : e.io w fault = some e') : e'.Inv H := by
  obtain ⟨id, t, hw, ht, ⟨-, ⟨err, rfl⟩ | ⟨p, -, rfl⟩⟩ | ⟨-, out, hlen, hout⟩⟩ :=
    io_cases hl.sized h
  · exact hl.setWorker (.inl (by rw [hw]; rfl)) fun _ => rfl
  · exact hl.setWorker (.inl (by rw [hw]; rfl)) fun _ => rfl
  · have hcpu := @setMem_cpu_length e .CPU t.destinationLoc.slot out
      (hlen.trans (hl.sized.cpu _).symm)
    rcases hout with ⟨err, rfl⟩ | ⟨rfl, -⟩
    · exact hl.setWorker (.inl (by rw [hw]; rfl)) hcpu
    · exact hl.setWorker (.inl (by rw [hw]; rfl)) hcpu

/-- The outcomes of `commit`. -/
theorem commit_cases {fault : WriteFault} (h : e.commit w fault = some e') :
    ∃ id p t s, e.workers w = .writing id p ∧ e.tasks id = some t ∧
      (((∃ err, e' = { e with store := s }.setWorker w (.finished id (-1) err)) ∧ s.Same e.store) ∨
       (e' = { e with store := s }.setWorker w (.finished id 1 "") ∧
        s.Same (e.store.writeCommit p (e.cpu t.sourceLoc.slot)))) := by
  unfold commit at h
  split at h
  · rename_i id p hw
    obtain ⟨t, ht, h⟩ := Option.map_eq_some_iff.mp h
    have hsame := ChunkFileStore.writeTemp_same fault p (e.cpu t.sourceLoc.slot) e.store
    cases hr : ChunkFileStore.writeTemp fault p (e.cpu t.sourceLoc.slot) e.store with
    | error err s =>
      rw [hr] at h hsame
      exact ⟨id, p, t, s, hw, ht, .inl ⟨⟨_, h.symm⟩, hsame⟩⟩
    | ok u s =>
      rw [hr] at h hsame
      rw [finalState_ok] at hsame
      refine ⟨id, p, t, _, hw, ht, .inr ⟨h.symm, ?_, hsame.quotaBytes, ?_⟩⟩
      · show s.files.insert _ _ = e.store.files.insert _ _
        rw [hsame.files]
      · show s.storedBytes - _ + _ = e.store.storedBytes - _ + _
        rw [hsame.storedBytes]
  · cases h

theorem commit_inv (hl : e.Inv H) {fault : WriteFault} (h : e.commit w fault = some e') :
    e'.Inv H := by
  obtain ⟨id, p, t, s, hw, -, ⟨⟨err, rfl⟩, -⟩ | ⟨rfl, -⟩⟩ := commit_cases h
  · exact hl.setWorker (.inl (by rw [hw]; rfl)) fun _ => rfl
  · exact hl.setWorker (.inl (by rw [hw]; rfl)) fun _ => rfl

theorem storeResult_cases (h : e.storeResult w = some e') : ∃ id t result error s,
    e.workers w = .finished id result error ∧ e.tasks id = some t ∧
    e' = (e.setTask { t with ioResult := result, error := s }).setWorker w .notifying := by
  unfold storeResult at h
  split at h
  · rename_i id result error hw
    obtain ⟨t, ht, rfl⟩ := Option.map_eq_some_iff.mp h
    exact ⟨id, t, result, error, _, hw, ht, rfl⟩
  · cases h

theorem storeResult_inv (hl : e.Inv H) (h : e.storeResult w = some e') : e'.Inv H := by
  obtain ⟨id, t, result, error, err, hw, ht, rfl⟩ := storeResult_cases h
  obtain ⟨rfl, -⟩ := hl.queue.task id t ht
  have hwt : (e.workers w).task = some t.id := by rw [hw]; rfl
  obtain ⟨hlt, t₁, ht₁, hrun, hc, -⟩ := hl.queue.taken w _ hwt
  obtain rfl : t = t₁ := Option.some.inj (ht.symm.trans ht₁)
  have hself : Function.update e.tasks t.id (some { t with ioResult := result, error := err }) t.id =
      some { t with ioResult := result, error := err } := Function.update_self _ _ _
  have hkeep : ∀ {i s}, i ≠ t.id → e.tasks i = some s →
      Function.update e.tasks t.id (some { t with ioResult := result, error := err }) i =
        some s := by
    intro i s hi hs
    rw [Function.update_of_ne hi]
    exact hs
  have hold : ∀ w' i, (Function.update e.workers w .notifying w').task = some i →
      (e.workers w').task = some i ∧ i ≠ t.id := by
    intro w' i hi
    by_cases hww : w' = w
    · rw [hww, Function.update_self] at hi
      cases hi
    · rw [Function.update_of_ne hww] at hi
      refine ⟨hi, ?_⟩
      rintro rfl
      exact hww (hl.queue.taken_once w' w _ hi hwt)
  refine ⟨hl.directory, ?_, ⟨hl.sized.chunkBytes_lt, hl.sized.gpu, hl.sized.cpu⟩, fun i s hs => ?_,
    fun i hi => ?_, hl.queue.nodup, fun w' i hi => ?_, fun w₁ w₂ i h₁ h₂ => ?_, fun i ho => ?_,
    fun i s hs hend hcu => ?_⟩
  · have hmove := @move_setTask e t { t with ioResult := result, error := err } t.id ht rfl rfl rfl
    show Locks e.directory.record e.clientPins
      (e.setTask { t with ioResult := result, error := err }).move e.orphans
    rw [hmove]
    exact hl.locks
  · have hs : Function.update e.tasks t.id (some { t with ioResult := result, error := err }) i =
        some s := hs
    by_cases hi : i = t.id
    · rw [hi, hself] at hs
      cases hs
      obtain ⟨-, h₂, h₃, h₄⟩ := hl.queue.task _ _ ht
      exact ⟨hi.symm, hi ▸ h₂, h₃, h₄⟩
    · rw [Function.update_of_ne hi] at hs
      exact hl.queue.task i s hs
  · obtain ⟨s, hs, hstate, hrest⟩ := hl.queue.queued i hi
    have hne : i ≠ t.id := by
      rintro rfl
      obtain rfl : t = s := Option.some.inj (ht.symm.trans hs)
      rw [hrun] at hstate
      cases hstate
    exact ⟨s, hkeep hne hs, hstate, hrest⟩
  · obtain ⟨hi, hne⟩ := hold w' i hi
    obtain ⟨hlt', s, hs, hrest⟩ := hl.queue.taken w' i hi
    exact ⟨hlt', s, hkeep hne hs, hrest⟩
  · exact hl.queue.taken_once w₁ w₂ i (hold w₁ i h₁).1 (hold w₂ i h₂).1
  · obtain ⟨hn, s, hs, hstate, hrest⟩ := hl.queue.cancelling i ho
    have hne : i ≠ t.id := by
      rintro rfl
      obtain rfl : t = s := Option.some.inj (ht.symm.trans hs)
      rw [hrun] at hstate
      cases hstate
    exact ⟨hn, s, hkeep hne hs, hstate, hrest⟩
  · have hs : Function.update e.tasks t.id (some { t with ioResult := result, error := err }) i =
        some s := hs
    by_cases hi : i = t.id
    · rw [hi, hself] at hs
      cases hs
      have hend : t.state.terminal = true := hend
      rw [hrun] at hend
      cases hend
    · rw [Function.update_of_ne hi] at hs
      exact hl.queue.ended i s hs hend hcu

theorem notify_cases (h : e.notify w = some e') : e.workers w = .notifying ∧
    ∃ s, (∀ id, s = .cancelFinalize id → e.owner = .cancelFinalize id) ∧
      e' = { e.setWorker w .idle with owner := s } := by
  unfold notify at h
  split at h
  · rename_i hw
    cases h
    refine ⟨hw, _, fun id hs => ?_, rfl⟩
    split at hs
    · cases hs
    · exact hs
  · cases h

theorem notify_inv (hl : e.Inv H) (h : e.notify w = some e') : e'.Inv H := by
  obtain ⟨hw, s, hs, rfl⟩ := notify_cases h
  exact ⟨hl.directory, hl.locks, ⟨hl.sized.chunkBytes_lt, hl.sized.gpu, hl.sized.cpu⟩,
    hl.queue.setWorker (s := .idle) (.inr rfl) rfl rfl rfl rfl rfl rfl hs⟩

/-! ## The device -/

theorem copyState_task {s : CopyState} (h : e.copyState (.task id) = some s) :
    ∃ t, e.tasks id = some t ∧ t.state.terminal = false ∧ t.usesCuda = true ∧ t.copy = s := by
  obtain ⟨t, ht, h⟩ := Option.bind_eq_some_iff.mp h
  split_ifs at h with hc
  cases h
  rw [not_or, not_not, Bool.not_eq_true] at hc
  exact ⟨t, ht, hc.1, hc.2, rfl⟩

theorem land_transfer {p : Pending} (hp : e.pending key = some p) (hrun : p.copy = .running)
    (hm : p.move key = m) : e.deviceStep (.transfer key) .land = some
      ((e.setMem m.destination m.destinationLoc.slot
        (overwrite (e.mem m.destination m.destinationLoc.slot)
          (e.mem m.source m.sourceLoc.slot))).setCopy (.transfer key) .landed) := by
  have hmove : e.move (.transfer key) = some m := by simp only [move, hp, Option.map_some, hm]
  have hcopy : e.copyState (.transfer key) = some .running := by
    simp only [copyState, hp, Option.map_some, hrun]
  simp only [deviceStep, hmove, hcopy]

theorem reach_transfer {p : Pending} (hp : e.pending key = some p) (hlanded : p.copy = .landed) :
    e.deviceStep (.transfer key) .reach = some (e.setCopy (.transfer key) .done) := by
  have hmove : e.move (.transfer key) = some (p.move key) := by
    simp only [move, hp, Option.map_some]
  have hcopy : e.copyState (.transfer key) = some .landed := by
    simp only [copyState, hp, Option.map_some, hlanded]
  simp only [deviceStep, hmove, hcopy]

theorem setCopy_transfer {p : Pending} (hp : e.pending key = some p) (c : CopyState) :
    (e.setCopy (.transfer key) c).pending key = some { p with copy := c } := by
  show Function.update e.pending key _ key = _
  rw [Function.update_self, hp, Option.map_some]

/-- What the device can do to a copy. -/
theorem deviceStep_cases {event : DeviceEvent} (h : e.deviceStep o event = some e') :
    ∃ m s s' b, e.move o = some m ∧ e.copyState o = some s ∧
      b.length = (e.mem m.destination m.destinationLoc.slot).length ∧
      e' = (e.setMem m.destination m.destinationLoc.slot b).setCopy o s' ∧
      ((s = .running ∧ s' = .landed ∧ b = overwrite (e.mem m.destination m.destinationLoc.slot)
          (e.mem m.source m.sourceLoc.slot)) ∨
        (s = .landed ∧ s' = .done ∧ b = e.mem m.destination m.destinationLoc.slot) ∨
        s' = .failed) := by
  unfold deviceStep at h
  split at h
  · rename_i m hm hs
    cases h
    exact ⟨m, _, _, _, hm, hs, length_overwrite _ _, rfl, .inl ⟨rfl, rfl, rfl⟩⟩
  · rename_i m hm hs
    cases h
    exact ⟨m, _, .done, _, hm, hs, rfl, by rw [setMem_self], .inr (.inl ⟨rfl, rfl, rfl⟩)⟩
  · rename_i m s garbage hm hs
    cases h
    exact ⟨m, _, _, _, hm, hs, length_overwrite _ _, rfl, .inr (.inr rfl)⟩
  · cases h

theorem Inv.setMem (hl : e.Inv H) {tier : StorageTier} {i : ℕ} {b : Bytes}
    (hb : b.length = (e.mem tier i).length) : (e.setMem tier i b).Inv H :=
  ⟨hl.directory, hl.locks, hl.sized.setMem hb,
    hl.queue.frame rfl rfl rfl rfl rfl le_rfl fun _ h => h⟩

theorem Inv.setCopy (hl : e.Inv H) {s s' : CopyState} (hs : e.copyState o = some s) :
    (e.setCopy o s').Inv H := by
  cases o with
  | task id =>
    obtain ⟨t, ht, hterm, -⟩ := copyState_task hs
    obtain ⟨rfl, -⟩ := hl.queue.task id t ht
    have hset : e.setCopy (.task t.id) s' = e.setTask { t with copy := s' } := by
      simp only [Engine.setCopy, setTask, ht, Option.map_some]
    rw [hset]
    refine hl.updateTask { t with copy := s' } ht rfl rfl rfl rfl rfl fun h => ?_
    rw [hterm] at h
    cases h
  | transfer key =>
    have hmove := @move_setCopy e (.transfer key) s'
    refine ⟨hl.directory, ?_, ⟨hl.sized.chunkBytes_lt, hl.sized.gpu, hl.sized.cpu⟩,
      hl.queue.frame rfl rfl rfl rfl rfl le_rfl fun _ h => h⟩
    rw [hmove]
    exact hl.locks

theorem device_inv (hl : e.Inv H) {event : DeviceEvent} (h : e.deviceStep o event = some e') :
    e'.Inv H := by
  obtain ⟨m, s, s', b, hm, hs, hb, rfl, -⟩ := deviceStep_cases h
  exact (hl.setMem hb).setCopy (s := s) hs

theorem scribble_inv (hl : e.Inv H) {b : Orphan} {garbage : Bytes}
    (h : e.scribble b garbage = some e') : e'.Inv H := by
  unfold scribble at h
  split_ifs at h with hb
  cases h
  exact hl.setMem (length_overwrite _ _)

/-! ## Runs -/

theorem enter_inv (hl : e.Inv H) {s : OwnerState} (hs : ∀ id, s ≠ .cancelFinalize id) :
    (e.enter id s).Inv H := by
  unfold enter
  split_ifs
  · exact hl.setOwner hs
  · exact hl

/-- **Every step keeps the invariant.** -/
theorem step_inv (hl : e.Inv H) (a : Action) (h : step a e = some e') : e'.Inv H := by
  cases a with
  | call c =>
    simp only [step] at h
    split_ifs at h with hc
    obtain ⟨res, hres, rfl⟩ := Option.map_eq_some_iff.mp h
    exact effect_inv hl (fun id ho => by rw [hc.1] at ho; cases ho) (call_effect hl c hc.2 hres)
  | wait id =>
    simp only [step] at h
    split_ifs at h
    cases h
    exact enter_inv hl nofun
  | cancel id =>
    simp only [step] at h
    split_ifs at h
    cases h
    exact enter_inv hl nofun
  | owner unlinked => exact ownerStep_inv hl h
  | take w => exact take_inv hl h
  | checkCancel w => exact checkCancel_inv hl h
  | io w fault => exact io_inv hl h
  | commit w fault => exact commit_inv hl h
  | storeResult w => exact storeResult_inv hl h
  | notify w => exact notify_inv hl h
  | device o event => exact device_inv hl h
  | scribble o garbage => exact scribble_inv hl h

/-- A new engine has no tasks and no work. -/
theorem Start.fresh (h : Start H e) : e.tasks = (fun _ => none) ∧ e.pending = (fun _ => none) ∧
    e.clientPins = (fun _ => 0) ∧ e.orphans = [] ∧ e.ioQueue = [] ∧
    e.workers = (fun _ => .idle) ∧ e.owner = .idle := by
  obtain ⟨gpuSlots, cpuSlots, ioThreads, hnew⟩ := h.engine
  unfold new at hnew
  split_ifs at hnew
  rw [← Except.ok.inj hnew]
  exact ⟨rfl, rfl, rfl, rfl, rfl, rfl, rfl⟩

theorem start_inv (h : Start H e) : e.Inv H := by
  obtain ⟨htasks, hpending, hpins, horphans, hqueue, hworkers, howner⟩ := h.fresh
  have hrecord : e.directory.record = fun _ => none := by
    funext key
    show e.directory.records.lookup key = none
    rw [h.records]
    rfl
  have hmove : e.move = fun _ => none := by
    funext o
    cases o with
    | task id => show (e.tasks id).bind _ = none; rw [htasks]; rfl
    | transfer key => show (e.pending key).map _ = none; rw [hpending]; rfl
  refine ⟨h.directory.inv, ?_, ⟨h.chunkBytes_lt, h.gpu_length, h.cpu_length⟩, ?_⟩
  · rw [hrecord, hmove, hpins, horphans]
    exact Locks.empty
  · constructor
    case task => rw [htasks]; intro _ _ h; cases h
    case queued => rw [hqueue]; intro _ h; cases h
    case nodup => rw [hqueue]; exact List.nodup_nil
    case taken => rw [hworkers]; intro _ _ h; cases h
    case taken_once => rw [hworkers]; intro _ _ _ h; cases h
    case cancelling => rw [howner]; intro _ h; cases h
    case ended => rw [htasks]; intro _ _ h; cases h

/-- **Every reachable state satisfies the invariant.** -/
theorem reachable_inv {allowed : Engine → Action → Prop}
    (hr : Transition.Reachable step (Start H) allowed e) : e.Inv H :=
  hr.invariant (fun _ => start_inv) fun _ a _ _ hl _ h => step_inv hl a h

end Engine

end KVFlux.V3
