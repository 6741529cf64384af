import KVFlux.V3.Migration.Lifecycle

/-!
# The quota of the file store under the workers

A worker compares with the quota before it writes and publishes afterwards, without a lock.

* `growths`: the bytes that the writes between their two steps will add.
* `Fits`: a check that passes leaves room for these bytes too.
* `Accounted`, `step_accounted`: the invariant of runs whose checks all do.
* **`quota_kept`**: in such runs the quota holds and the counter is exact.
* `quota_exceeded`: two overlapping writes exceed it.
-/

namespace KVFlux.V3

open Fallible Transition

namespace PendingWrite

/-- The size of the file. -/
def length (p : PendingWrite) : ℕ := p.header.length + p.payloadSize

/-- What the file takes beyond the one it replaces. -/
def growth (p : PendingWrite) : ℕ := p.length - p.replacedBytes.toNat

end PendingWrite

def WorkerState.growth : WorkerState → ℕ
  | .writing _ p => p.growth
  | _ => 0

namespace Engine

/-- The bytes that the writes between their two steps will add. -/
def growths (e : Engine) : ℕ := ∑ w ∈ Finset.range e.ioThreads, (e.workers w).growth

/-- A check of the quota that passes also passes with the pending writes counted. The synchronous
transfers to files are not used. -/
def Fits (e : Engine) : Action → Prop
  | .io w _ => ∀ id t p, e.workers w = .started id → e.tasks id = some t → t.destination = .NVME →
    e.store.writeCheck t.destinationLoc.slot t.fileMeta (e.cpu t.sourceLoc.slot) = .ok p →
    e.store.total + e.growths + p.growth ≤ e.store.quotaBytes.toNat
  | .call (.offload _ _ _ _) => False
  | .call (.provide _ tier _ _ _) => tier ≠ .NVME
  | _ => True

/-- A new engine over a store within its quota. -/
structure StartStore (H : Tokens → UInt64) (e : Engine) : Prop where
  start : Start H e
  booked : e.store.Booked
  quota : e.store.total ≤ e.store.quotaBytes.toNat

/-- A worker's write belongs to its task, and what its check has seen still holds. -/
structure Writes (e : Engine) (id : ℕ) (p : PendingWrite) : Prop where
  task : ∃ t, e.tasks id = some t ∧ t.destination = .NVME ∧ p.slot = t.destinationLoc.slot
  size : p.payloadSize = e.chunkBytes
  pending : e.store.PendingOk p

structure Accounted (e : Engine) : Prop where
  booked : e.store.Booked
  writes : ∀ w id p, e.workers w = .writing id p → e.Writes id p
  fits : e.store.total + e.growths ≤ e.store.quotaBytes.toNat

variable {H : Tokens → UInt64} {e e' : Engine} {a : Action} {id w : ℕ} {t t' : Task}
  {p : PendingWrite} {s : WorkerState}

theorem growths_setWorker (hw : w < e.ioThreads) (hworkers : e'.workers = Function.update e.workers w s)
    (hthreads : e'.ioThreads = e.ioThreads) :
    e'.growths + (e.workers w).growth = e.growths + s.growth := by
  have hmem := Finset.mem_range.mpr hw
  unfold growths
  rw [hthreads, hworkers, ← Finset.add_sum_erase _ _ hmem, ← Finset.add_sum_erase _ _ hmem,
    Function.update_self]
  have hrest : ∑ v ∈ (Finset.range e.ioThreads).erase w, (Function.update e.workers w s v).growth =
      ∑ v ∈ (Finset.range e.ioThreads).erase w, (e.workers v).growth := by
    refine Finset.sum_congr rfl fun v hv => ?_
    rw [Function.update_of_ne (Finset.ne_of_mem_erase hv)]
  rw [hrest]
  omega

/-- The same files. -/
theorem total_same {s s' : ChunkFileStore} (h : s.Same s') : s.total = s'.total := by
  unfold ChunkFileStore.total
  rw [h.files]

theorem booked_same {s s' : ChunkFileStore} (h : s.Same s') (hb : s'.Booked) : s.Booked := by
  unfold ChunkFileStore.Booked
  rw [h.storedBytes, total_same h]
  exact hb

theorem pendingOk_of_lookup {s s' : ChunkFileStore} (h : s.PendingOk p)
    (hl : s'.files.lookup p.slot = s.files.lookup p.slot) : s'.PendingOk p := by
  refine ⟨?_, h.fileBytes⟩
  rw [h.replaced]
  unfold ChunkFileStore.fileLength
  rw [hl]

/-- Fewer bytes are pending after a worker is done with its write. -/
theorem growths_le (hs : s.growth = 0) (hworkers : e'.workers = Function.update e.workers w s)
    (hthreads : e'.ioThreads = e.ioThreads) : e'.growths ≤ e.growths := by
  unfold growths
  rw [hthreads, hworkers]
  refine Finset.sum_le_sum fun v _ => ?_
  by_cases hv : v = w
  · rw [hv, Function.update_self, hs]
    exact Nat.zero_le _
  · rw [Function.update_of_ne hv]

/-! ## Slots of writers -/

/-- The worker's task and its destination. -/
theorem writer_guarded (hl : e.Inv H) (hw : (e.workers w).task = some id) (ht : e.tasks id = some t) :
    t.state = .RUNNING ∧ t.ioResult = 0 ∧ t.usesCuda = false ∧ e.Guarded t := by
  obtain ⟨-, u, hu, hrun, hc, hres⟩ := hl.queue.taken w id hw
  obtain rfl : t = u := Option.some.inj (ht.symm.trans hu)
  exact ⟨hrun, hres, hc, hl.guarded ht (by rw [hrun]; rfl)⟩

/-- Two unfinished tasks go to different slots. -/
theorem writer_slot_ne (hl : e.Inv H) {i j : ℕ} {u : Task} (ht : e.tasks i = some t)
    (hu : e.tasks j = some u) (hn : t.state.terminal = false) (hn' : u.state.terminal = false)
    (hd : u.destination = t.destination) (hne : i ≠ j) :
    u.destinationLoc.slot ≠ t.destinationLoc.slot := by
  intro he
  obtain ⟨r, hr, -, ⟨s, hs, -⟩, -⟩ := (hl.guarded hu hn').registered
  rw [hd] at hs
  have hkey := (hl.guarded ht hn).destination_private u.key r _ hr hs he
  obtain ⟨rfl, -⟩ := hl.queue.task i t ht
  obtain ⟨rfl, -⟩ := hl.queue.task j u hu
  have := hl.locks.unique _ _ _ _ (move_task ht hn) (move_task hu hn') hkey.symm
  exact hne (CopyOwner.task.inj this)

/-- What a call of the owner without synchronous writes does to the store: nothing, or it erases a
file that no worker is about to write. -/
theorem Effect.store {c : Option ClientCall} (hl : e.Inv H) (he : Effect H c e e')
    (hc : ∀ call, c = some call → Fits e (.call call)) :
    e'.store.Same e.store ∨ ∃ slot file, e.store.files.lookup slot = some file ∧
      e'.store = { e.store with
        files := e.store.files.erase slot
        storedBytes := e.store.storedBytes - ChunkFileStore.size file } ∧
      ∀ w id t, (e.workers w).task = some id → e.tasks id = some t → t.destination = .NVME →
        t.destinationLoc.slot ≠ slot := by
  cases he with
  | quiet hi hr hn hs hk => exact .inl hs
  | client | abandon | submit | beginTransfer | complete | finishTransfer =>
    exact .inl (.refl _)
  | provide hcall hi hr hnone hr' hfresh hs hk himage =>
    rcases hs with hs | ⟨rfl, -⟩
    · exact .inl hs
    · exact absurd rfl (hc _ hcall)
  | @discard d store u state error r hu hstate hend hi hr hd hs hwhy =>
    rcases hs with rfl | ⟨hnv, file, hf, rfl⟩
    · exact .inl (.refl _)
    · refine .inr ⟨_, file, hf, rfl, fun w id t hw ht hdest he => ?_⟩
      obtain ⟨hrun, hres, hcuda, -⟩ := writer_guarded hl hw ht
      refine writer_slot_ne hl (i := u.id) (j := id) hu ht ?_ (by rw [hrun]; rfl) (hdest.trans hnv.symm)
        ?_ he
      · rcases hend with ⟨h, -⟩ | ⟨h, -⟩ <;> rw [h] <;> rfl
      · rintro rfl
        rw [hu] at ht
        cases ht
        rcases hend with ⟨-, h⟩ | ⟨h, -⟩
        · exact h.2 hcuda hres
        · rw [h] at hrun; cases hrun
  | @nvme d cpu store key r r' source destination l loc hi hr hready hnone hr' hpin hheld hnew hs hk
      himage =>
    rcases hs with hs | ⟨-, ⟨_, _, _, hoff⟩, -⟩ | ⟨rfl, file, hf, rfl⟩
    · exact .inl hs
    · exact absurd (hc _ hoff) id
    · refine .inr ⟨_, file, hf, rfl, fun w id t hw ht hdest he => ?_⟩
      obtain ⟨hrun, -, -, hg⟩ := writer_guarded hl hw ht
      obtain ⟨r₁, hr₁, -, ⟨s, hs, hne⟩, -⟩ := hg.registered
      rw [hdest] at hs
      -- the READY replica at that slot would be the held one
      have hkey := hl.directory.slot_key hr hr₁ hready hs he.symm
      rw [← hkey, hr] at hr₁
      cases hr₁
      rw [hready] at hs
      cases hs
      exact hne rfl

/-! ## The invariant -/

theorem Writes.keep (hl : e.Inv H) (h : step a e = some e') (hw : e.Writes id p)
    (hchunk : e'.chunkBytes = e.chunkBytes)
    (hlookup : e'.store.files.lookup p.slot = e.store.files.lookup p.slot) : e'.Writes id p := by
  obtain ⟨t, ht, hd, hslot⟩ := hw.task
  obtain ⟨t', ht', hstep⟩ := step_task hl h ht
  have hmove := hstep.move
  refine ⟨⟨t', ht', (congrArg Move.destination hmove).trans hd, ?_⟩, hw.size.trans hchunk.symm,
    pendingOk_of_lookup hw.pending hlookup⟩
  exact hslot.trans (congrArg (fun m => m.destinationLoc.slot) hmove).symm

/-- A step that leaves the store alone and starts no write. -/
theorem Accounted.same (hl : e.Inv H) (hacc : e.Accounted) (h : step a e = some e')
    (hs : e'.store.Same e.store) (hchunk : e'.chunkBytes = e.chunkBytes)
    (hworkers : ∀ w id p, e'.workers w = .writing id p → e.workers w = .writing id p)
    (hgrowths : e'.growths ≤ e.growths) : e'.Accounted := by
  refine ⟨booked_same hs hacc.booked, fun w id p hw => ?_, ?_⟩
  · exact (hacc.writes w id p (hworkers w id p hw)).keep hl h hchunk (by rw [hs.files])
  · have := hacc.fits
    rw [total_same hs, hs.quotaBytes]
    omega

/-- A step of a worker that leaves the store alone and starts no write. -/
theorem Accounted.setWorker (hl : e.Inv H) (hacc : e.Accounted) (h : step a e = some e')
    (hs : e'.store.Same e.store) (hchunk : e'.chunkBytes = e.chunkBytes)
    (hworkers : e'.workers = Function.update e.workers w s) (hthreads : e'.ioThreads = e.ioThreads)
    (hgrowth : s.growth = 0) (hnot : ∀ id p, s ≠ .writing id p) : e'.Accounted := by
  refine hacc.same hl h hs hchunk (fun v id p hv => ?_) (growths_le hgrowth hworkers hthreads)
  rw [hworkers] at hv
  by_cases hvw : v = w
  · rw [hvw, Function.update_self] at hv
    exact absurd hv (hnot id p)
  · rwa [Function.update_of_ne hvw] at hv

/-- A call of the owner. -/
theorem Accounted.effect {c : Option ClientCall} {o : OwnerState} (hl : e.Inv H)
    (hacc : e.Accounted) (h : step a e = some e') (he : Effect H c { e with owner := o } e')
    (hli : Inv H { e with owner := o })
    (hc : ∀ call, c = some call → Fits { e with owner := o } (.call call)) : e'.Accounted := by
  have hgrowths : e'.growths = e.growths := by
    unfold growths
    rw [he.threads.2.1, he.threads.2.2]
  have hworkers : ∀ w id p, e'.workers w = .writing id p → e.workers w = .writing id p := by
    intro w id p hw
    rwa [he.threads.2.1] at hw
  have hchunk : e'.chunkBytes = e.chunkBytes := by cases he <;> rfl
  rcases he.store hli hc with hs | ⟨slot, file, hf, hs, hother⟩
  · exact hacc.same hl h hs hchunk hworkers hgrowths.le
  · obtain ⟨hb, ht⟩ := hacc.booked.erase hf
    refine ⟨hs ▸ hb, fun w id p hw => ?_, ?_⟩
    · have hw := hworkers w id p hw
      have hwr := hacc.writes w id p hw
      obtain ⟨t, ht, hd, hslot⟩ := hwr.task
      refine hwr.keep hl h hchunk ?_
      have hne : p.slot ≠ slot := hslot ▸ hother w id t (by rw [hw]; rfl) ht hd
      rw [hs]
      exact AList.lookup_erase_ne hne
    · have hfits := hacc.fits
      have htotal : e'.store.total = e.store.others slot := by rw [hs]; rfl
      have hquota : e'.store.quotaBytes = e.store.quotaBytes := by rw [hs]
      rw [htotal, hgrowths, hquota]
      omega

/-- A check that passes with the pending writes counted. -/
theorem Accounted.accept (hl : e.Inv H) (hacc : e.Accounted) (hw : e.workers w = .started t.id)
    (ht : e.tasks t.id = some t) (hd : t.destination = .NVME)
    (hp : e.store.writeCheck t.destinationLoc.slot t.fileMeta (e.cpu t.sourceLoc.slot) = .ok p)
    (hfit : e.store.total + e.growths + p.growth ≤ e.store.quotaBytes.toNat) :
    (e.setWorker w (.writing t.id p)).Accounted := by
  obtain ⟨hlt, -⟩ := hl.queue.taken w t.id (by rw [hw]; rfl)
  obtain ⟨hslot, hsize, -, hreplaced, hbytes⟩ := ChunkFileStore.writeCheck_ok hp
  have hgrowths := @growths_setWorker e (e.setWorker w (.writing t.id p)) w (.writing t.id p) hlt rfl rfl
  have hold : (e.workers w).growth = 0 := by rw [hw]; rfl
  have hnew : (WorkerState.writing t.id p).growth = p.growth := rfl
  rw [hold, hnew] at hgrowths
  obtain ⟨-, -, -, validTokens, hmeta⟩ := hl.queue.task t.id t ht
  have hpayload : t.fileMeta.payloadSize.toNat = e.chunkBytes := by
    rw [hmeta]
    exact UInt64.toNat_ofNat_of_lt' hl.sized.chunkBytes_lt
  have hquota := e.store.quotaBytes.toNat_lt
  have htotal := e.store.total_eq p.slot
  have hrep : p.replacedBytes.toNat = e.store.fileLength p.slot := by
    rw [hreplaced, hslot]
    have hbooked := hacc.booked
    have hlt := e.store.storedBytes.toNat_lt
    unfold ChunkFileStore.Booked at hbooked
    rw [hslot] at htotal
    unfold ChunkFileStore.fileLength at htotal ⊢
    cases hf : e.store.files.lookup t.destinationLoc.slot with
    | none => rfl
    | some file =>
      rw [hf] at htotal
      simp only [Option.map_some, Option.getD_some] at htotal ⊢
      exact UInt64.toNat_ofNat_of_lt' (show file.length < 2 ^ 64 by omega)
  have hlength : p.length < 2 ^ 64 := by
    unfold PendingWrite.growth at hfit
    omega
  have hok : e.store.PendingOk p := by
    refine ⟨hrep, ?_⟩
    unfold PendingWrite.length at hlength
    rw [hsize] at hlength ⊢
    rw [hbytes, UInt64.toNat_add, UInt64.toNat_ofNat_of_lt' (show p.header.length < 2 ^ 64 by omega),
      Nat.mod_eq_of_lt hlength]
  refine ⟨hacc.booked, fun v id q hv => ?_, ?_⟩
  · have hv : Function.update e.workers w (.writing t.id p) v = .writing id q := hv
    by_cases hvw : v = w
    · rw [hvw, Function.update_self] at hv
      cases hv
      exact ⟨⟨t, ht, hd, hslot⟩, hsize.trans hpayload, hok⟩
    · rw [Function.update_of_ne hvw] at hv
      obtain ⟨htask, hsz, hpend⟩ := hacc.writes v id q hv
      exact ⟨htask, hsz, hpend⟩
  · show e.store.total + _ ≤ e.store.quotaBytes.toNat
    omega

/-- A file is published. -/
theorem Accounted.commit (hl : e.Inv H) (hacc : e.Accounted) {fault : WriteFault}
    {store : ChunkFileStore}
    (h : step (.commit w fault) e = some ({ e with store := store }.setWorker w (.finished t.id 1 "")))
    (hw : e.workers w = .writing t.id p) (ht : e.tasks t.id = some t)
    (hs : store.Same (e.store.writeCommit p (e.cpu t.sourceLoc.slot))) :
    ({ e with store := store }.setWorker w (.finished t.id 1 "")).Accounted := by
  have hwr := hacc.writes w t.id p hw
  have hlen : p.payloadSize ≤ (e.cpu t.sourceLoc.slot).length := by
    rw [hl.sized.cpu, hwr.size]
  obtain ⟨hlt, -⟩ := hl.queue.taken w t.id (by rw [hw]; rfl)
  have htotal := ChunkFileStore.total_writeCommit hwr.pending hlen
  have hbefore := e.store.total_eq p.slot
  have hfits := hacc.fits
  have hquota := e.store.quotaBytes.toNat_lt
  have hgrowths := @growths_setWorker e ({ e with store := store }.setWorker w (.finished t.id 1 "")) w
    (.finished t.id 1 "") hlt rfl rfl
  have hold : (e.workers w).growth = p.growth := by rw [hw]; rfl
  have hnew : (WorkerState.finished t.id 1 "").growth = 0 := rfl
  rw [hold, hnew] at hgrowths
  unfold PendingWrite.growth PendingWrite.length at hgrowths
  rw [← hwr.pending.fileBytes, hwr.pending.replaced] at hgrowths
  refine ⟨booked_same hs (hacc.booked.writeCommit hwr.pending hlen (by omega)), fun v id q hv => ?_, ?_⟩
  · have hv' : Function.update e.workers w (.finished t.id 1 "") v = .writing id q := hv
    have hvw : v ≠ w := by
      rintro rfl
      rw [Function.update_self] at hv'
      cases hv'
    rw [Function.update_of_ne hvw] at hv'
    have hwv := hacc.writes v id q hv'
    refine hwv.keep hl h rfl ?_
    -- the other writer has another slot
    obtain ⟨u, hu, hd', hslot'⟩ := hwv.task
    obtain ⟨t₁, ht₁, hd, hslot⟩ := hwr.task
    obtain rfl : t = t₁ := Option.some.inj (ht.symm.trans ht₁)
    have hid : t.id ≠ id := fun he => hvw (hl.queue.taken_once v w id (by rw [hv']; rfl)
      (by rw [hw, he]; rfl))
    obtain ⟨hrun, -⟩ := writer_guarded (w := w) hl (by rw [hw]; rfl) ht
    obtain ⟨hrun', -⟩ := writer_guarded (w := v) hl (by rw [hv']; rfl) hu
    have hne := writer_slot_ne hl ht hu (by rw [hrun]; rfl) (by rw [hrun']; rfl) (hd'.trans hd.symm) hid
    show store.files.lookup q.slot = _
    rw [hs.files]
    exact lookup_writeCommit_of_ne (by rw [hslot', hslot]; exact hne)
  · show store.total + _ ≤ store.quotaBytes.toNat
    rw [total_same hs, hs.quotaBytes]
    show (e.store.writeCommit p _).total + _ ≤ e.store.quotaBytes.toNat
    omega

/-- **A step whose check leaves room keeps the books.** -/
theorem step_accounted (hl : e.Inv H) (hacc : e.Accounted) (ha : Fits e a)
    (h : step a e = some e') : e'.Accounted := by
  have hidle : Inv H { e with owner := .idle } := hl.setOwner nofun
  cases step_cases hl h with
  | call ho he => exact hacc.effect (o := e.owner) hl h he hl fun _ hc => by cases hc; exact ha
  | poll ho he => exact hacc.effect hl h he hidle nofun
  | finalize ho ht hs he => exact hacc.effect hl h he hidle nofun
  | take => exact hacc.setWorker hl h (.refl _) rfl rfl rfl rfl nofun
  | skip => exact hacc.setWorker hl h (.refl _) rfl rfl rfl rfl nofun
  | start => exact hacc.setWorker hl h (.refl _) rfl rfl rfl rfl nofun
  | refuse => exact hacc.setWorker hl h (.refl _) rfl rfl rfl rfl nofun
  | readError => exact hacc.setWorker hl h (.refl _) rfl rfl rfl rfl nofun
  | read => exact hacc.setWorker hl h (.refl _) rfl rfl rfl rfl nofun
  | result => exact hacc.setWorker hl h (.refl _) rfl rfl rfl rfl nofun
  | notify => exact hacc.setWorker hl h (.refl _) rfl rfl rfl rfl nofun
  | abort hw ht hs => exact hacc.setWorker hl h hs rfl rfl rfl rfl nofun
  | accept hw ht hd hp => exact hacc.accept hl hw ht hd hp (ha _ _ _ hw ht hd hp)
  | commit hw ht hs => exact hacc.commit hl h hw ht hs
  | @device o => cases o <;> exact hacc.same hl h (.refl _) rfl (fun _ _ _ h => h) le_rfl
  | _ => exact hacc.same hl h (.refl _) rfl (fun _ _ _ h => h) le_rfl

/-- **Main result.** In runs whose checks leave room for the pending writes, the published files never
exceed the quota and the counter is their size, in every state. -/
theorem quota_kept (hr : Transition.Reachable step (StartStore H) Fits e) :
    e.store.total ≤ e.store.quotaBytes.toNat ∧ e.store.storedBytes.toNat = e.store.total := by
  have hboth : e.Inv H ∧ e.Accounted := by
    refine Reachable.invariant (I := fun e => e.Inv H ∧ e.Accounted) hr (fun e h => ?_)
      fun _ a _ _ hi ha h => ⟨step_inv hi.1 a h, step_accounted hi.1 hi.2 ha h⟩
    obtain ⟨-, -, -, -, -, hw, -⟩ := h.start.fresh
    refine ⟨start_inv h.start, h.booked, fun w id p hw' => ?_, ?_⟩
    · rw [hw] at hw'; cases hw'
    · have hgrowths : e.growths = 0 := by
        unfold growths
        rw [hw]
        exact Finset.sum_eq_zero fun _ _ => rfl
      rw [hgrowths]
      exact h.quota
  exact ⟨by have := hboth.2.fits; omega, hboth.2.booked⟩

theorem small_startStore (quota : UInt64) (ioThreads : ℕ) (h : ioThreads ≠ 0) :
    StartStore (fun _ => 0) (small quota ioThreads) :=
  ⟨small_start quota ioThreads h, rfl, Nat.zero_le _⟩

/-- Two workers take two tasks and look at their flags. -/
def twoTasks : List Action :=
  [.call (.directory (.create (chunk 1))), .call (.provide (chunk 1) .CPU 1 [1, 2, 3, 4] .none),
    .call (.directory (.create (chunk 2))), .call (.provide (chunk 2) .CPU 1 [5, 6, 7, 8] .none),
    .call (.submit (chunk 1) .NVME 1 0 {}), .call (.submit (chunk 2) .NVME 1 0 {}),
    .take 0, .checkCancel 0, .take 1, .checkCancel 1]

/-- One of the two writes in a store for one file. -/
theorem quota_kept_one : ∃ e e' e'', run step twoTasks (small 130 2) = some e ∧
    step (.io 0 .none) e = some e' ∧ step (.commit 0 .none) e' = some e'' ∧ e''.store.total = 85 ∧
    e''.store.total ≤ e''.store.quotaBytes.toNat ∧ e''.store.storedBytes.toNat = e''.store.total := by
  have htotal : (run step twoTasks (small 130 2)).bind (fun e => (step (.io 0 .none) e).bind fun e' =>
      (step (.commit 0 .none) e').map fun e => e.store.total) = some 85 := rfl
  -- the task that worker 0 checks leaves room
  have hfits : (run step twoTasks (small 130 2)).map (fun e => (e.workers 0, (e.tasks 1).bind fun t =>
      (e.store.writeCheck t.destinationLoc.slot t.fileMeta (e.cpu t.sourceLoc.slot)).toOption.map
        fun p => decide (e.store.total + e.growths + p.growth ≤ e.store.quotaBytes.toNat))) =
      some (.started 1, some true) := rfl
  obtain ⟨e, he, hfits⟩ := Option.map_eq_some_iff.mp hfits
  obtain ⟨hw, hfits⟩ := Prod.mk.inj hfits
  rw [he, Option.bind_some] at htotal
  obtain ⟨e', hs, htotal⟩ := Option.bind_eq_some_iff.mp htotal
  obtain ⟨e'', hs', htotal⟩ := Option.map_eq_some_iff.mp htotal
  refine ⟨e, e', e'', he, hs, hs', htotal, quota_kept (H := fun _ => 0) (.step (.step (.run
    (.start (small_startStore 130 2 two_ne_zero)) (fun a ha e => ?_) he) ?_ hs)
    (show Fits e' (.commit 0 .none) from trivial) hs')⟩
  · simp only [twoTasks, List.mem_cons, List.not_mem_nil, or_false] at ha
    rcases ha with rfl | rfl | rfl | rfl | rfl | rfl | rfl | rfl | rfl | rfl
    case inr.inl => exact nofun
    case inr.inr.inr.inl => exact nofun
    all_goals exact trivial
  · intro id t p hw' ht hd hp
    rw [hw] at hw'
    cases hw'
    rw [ht, Option.bind_some, hp] at hfits
    exact of_decide_eq_true (Option.some.inj hfits)

/-- Two writes that overlap, in a store for one file. -/
theorem quota_exceeded : ∃ e, Transition.Reachable step (StartStore fun _ => 0) Any e ∧
    e.store.quotaBytes.toNat < e.store.total := by
  have htotal : (run step (twoTasks ++ [.io 0 .none, .io 1 .none, .commit 0 .none, .commit 1 .none])
      (small 130 2)).map (fun e => (e.store.quotaBytes.toNat, e.store.total)) = some (130, 170) := rfl
  obtain ⟨e, he, ht⟩ := Option.map_eq_some_iff.mp htotal
  obtain ⟨hq, ht⟩ := Prod.mk.inj ht
  refine ⟨e, .run (.start (small_startStore 130 2 two_ne_zero)) (fun _ _ _ => trivial) he, ?_⟩
  rw [hq, ht]
  decide

end Engine

end KVFlux.V3
