import KVFlux.V3.Migration.Lifecycle

/-!
# What a step leaves alone

A slot that stays registered keeps its bytes, except where the copy or the I/O of its own move
writes them.

* `Writing`: every worker writes the file of its task. `reachable_writing`.
* `Carries`: the step works on the move.
* **`step_cell`**: the slots that a step changes. `ready_cell`, `move_cell`: a READY replica and
  the source of a move are not among them.
* `Arrived`, `Lands`, **`step_arrived`**: when the chunk of a move gets into the destination.
-/

namespace KVFlux.V3

open Fallible ChunkRecord Transition

namespace Engine

variable {H : Tokens → UInt64} {e e' : Engine} {a : Action} {c : Option ClientCall} {id w : ℕ}
  {t t' : Task} {p : PendingWrite} {key : CacheKey} {r r' : ChunkRecord} {tier : StorageTier}
  {slot slot' : Replica} {l : TierLocation} {o : CopyOwner} {m : Move}

/-! ## Pending writes -/

/-- The write of a worker is that of its task. -/
structure WriteOf (t : Task) (p : PendingWrite) : Prop where
  destination : t.destination = .NVME
  slot : p.slot = t.destinationLoc.slot
  size : p.payloadSize = t.fileMeta.payloadSize.toNat
  header : ∃ sum, p.header = encodeHeader t.fileMeta sum

/-- Every worker writes for its task. -/
def Writing (e : Engine) : Prop :=
  ∀ w id p, e.workers w = .writing id p → ∃ t, e.tasks id = some t ∧ WriteOf t p

theorem TaskStep.fileMeta (h : TaskStep e e' t t') : t'.fileMeta = t.fileMeta := by
  cases h <;> rfl

theorem TaskStep.unfinished (h : TaskStep e e' t t') (hn : t'.state.terminal = false) :
    t.state.terminal = false := by
  cases h with
  | same => exact hn
  | flag => exact hn
  | take hq hs => rw [hs]; rfl
  | copy s hs => exact hs
  | result r hs => rw [hs]; rfl
  | finish hn₁ => exact hn₁

theorem WriteOf.step (h : WriteOf t p) (ht : TaskStep e e' t t') : WriteOf t' p := by
  have hm := ht.move
  have hdest : t'.destination = t.destination := congrArg Move.destination hm
  have hloc : t'.destinationLoc = t.destinationLoc := congrArg Move.destinationLoc hm
  refine ⟨hdest.trans h.destination, ?_, ?_, ?_⟩
  · rw [hloc]; exact h.slot
  · rw [ht.fileMeta]; exact h.size
  · rw [ht.fileMeta]; exact h.header

theorem step_writing (hl : e.Inv H) (h : step a e = some e') (hw : e.Writing) : e'.Writing := by
  intro v id p hv
  have hkeep : e.workers v = .writing id p → ∃ t, e'.tasks id = some t ∧ WriteOf t p := by
    intro hold
    obtain ⟨t, ht, hp⟩ := hw v id p hold
    obtain ⟨t', ht', hstep⟩ := step_task hl h ht
    exact ⟨t', ht', hp.step hstep⟩
  have hother : ∀ {u : ℕ} {s : WorkerState}, Function.update e.workers u s v = .writing id p →
      s ≠ .writing id p → ∃ t, e'.tasks id = some t ∧ WriteOf t p := by
    intro u s hu hs
    by_cases huv : v = u
    · rw [huv, Function.update_self] at hu
      exact absurd hu hs
    · rw [Function.update_of_ne huv] at hu
      exact hkeep hu
  cases step_cases hl h with
  | call ho he => rw [he.threads.2.1] at hv; exact hkeep hv
  | poll ho he => rw [he.threads.2.1] at hv; exact hkeep hv
  | finalize ho ht hstate he => rw [he.threads.2.1] at hv; exact hkeep hv
  | take | skip | start | refuse | readError | read | abort | commit | result | notify =>
    exact hother hv nofun
  | @accept u fault t q hu ht hd hq =>
    have hv : Function.update e.workers u (.writing t.id q) v = .writing id p := hv
    by_cases huv : v = u
    · rw [huv, Function.update_self] at hv
      cases hv
      obtain ⟨hslot, hsize, hheader, -⟩ := ChunkFileStore.writeCheck_ok hq
      exact ⟨t, ht, hd, hslot, hsize, _, hheader⟩
    · rw [Function.update_of_ne huv] at hv
      exact hkeep hv
  | @device o => cases o <;> exact hkeep hv
  | _ => exact hkeep hv

theorem reachable_writing {allowed : Engine → Action → Prop}
    (hr : Transition.Reachable step (Start H) allowed e) : e.Writing := by
  refine hr.invariant (fun e h => ?_) fun _ _ _ hr hi _ hs => step_writing (reachable_inv hr) hs hi
  obtain ⟨-, -, -, -, -, hw, -⟩ := h.fresh
  intro w id p h
  rw [hw] at h
  cases h

/-! ## Cells -/

/-- The step works on the move. -/
def Carries (e : Engine) (a : Action) (o : CopyOwner) : Prop :=
  (∃ event, a = .device o event) ∨
  ∃ w id, o = .task id ∧ ((∃ fault, a = .io w fault ∧ e.workers w = .started id) ∨
    ∃ fault p, a = .commit w fault ∧ e.workers w = .writing id p)

/-- A replica in the slot of a move's destination is that destination. -/
theorem destination_of_slot (hl : e.Inv H) (hm : e.move o = some m)
    (hr : e.directory.record key = some r) (hs : r.replica m.destination = some slot)
    (he : slot.location.slot = m.destinationLoc.slot) :
    m.key = key ∧ slot.location = m.destinationLoc ∧ slot.state ≠ .READY := by
  obtain ⟨r₁, hr₁, -, ⟨state, hd, hne, -⟩, -⟩ := hl.locks.held o m hm
  have hk := hl.directory.slot_key hr₁ hr hd hs he.symm
  subst hk
  rw [hr₁] at hr
  cases hr
  rw [hd] at hs
  cases hs
  exact ⟨rfl, rfl, hne⟩

/-- **A call of the owner** keeps the bytes of the replicas that stay. -/
theorem Effect.cell (hl : e.Inv H) (he : Effect H c e e') (hr : e.directory.record key = some r)
    (hs : r.replica tier = some slot) (hr' : e'.directory.record key = some r')
    (hs' : r'.replica tier = some slot') (hloc : slot'.location = slot.location) :
    e'.cell tier slot.location.slot = e.cell tier slot.location.slot := by
  cases he with
  | quiet hi hrec hn hst hk => exact hk.cell key r r' tier slot slot' hr hs hr' hs' hloc
  | provide hcall hi hrec hnone hrec' hfresh hst hk => exact hk.cell key r r' tier slot slot' hr hs hr' hs' hloc
  | nvme loc hi hrec hready hnone hrec' hpin hheld hnew hst hk =>
    exact hk.cell key r r' tier slot slot' hr hs hr' hs' hloc
  | client | abandon | submit | beginTransfer | complete | finishTransfer => cases tier <;> rfl
  | @discard d store u state error r₁ hu hstate hend hi hr₁ hd hst hwhy =>
    cases tier with
    | GPU => rfl
    | CPU => rfl
    | NVME =>
      rcases hst with rfl | ⟨hnv, file, hf, rfl⟩
      · rfl
      · show (e.store.files.erase _).lookup _ = e.store.files.lookup _
        rw [Assoc.lookup_erase, if_neg]
        intro hslot
        have hn : u.state.terminal = false := by
          rcases hend with ⟨h, -⟩ | ⟨h, -⟩ <;> rw [h] <;> rfl
        have hmove := move_task hu hn
        obtain ⟨hkey, -⟩ := destination_of_slot hl hmove hr
          (show r.replica u.move.destination = some slot by rw [show u.move.destination = .NVME from hnv]; exact hs) hslot
        subst hkey
        -- the destination has left the record
        have hr' : d.record u.move.key = some r' := hr'
        rw [hd.record', Function.update_self] at hr'
        cases hr'
        have : (r₁.discarded u.move).replica .NVME = none := by
          rw [← show u.move.destination = .NVME from hnv]
          have hne := hl.locks.tiers_ne _ _ hmove
          simp [ChunkRecord.discarded, Ne.symm hne]
        rw [this] at hs'
        cases hs'

theorem cell_setWorker (s : WorkerState) (tier : StorageTier) (i : ℕ) :
    (e.setWorker w s).cell tier i = e.cell tier i := by
  cases tier <;> rfl

theorem cell_setCopy (o : CopyOwner) (s : CopyState) (tier : StorageTier) (i : ℕ) :
    (e.setCopy o s).cell tier i = e.cell tier i := by
  cases o <;> cases tier <;> rfl

/-- A step that writes to the destination of a move. -/
theorem setMem_cell (hl : e.Inv H) (hm : e.move o = some m) (hr : e.directory.record key = some r)
    (hs : r.replica tier = some slot) (b : Bytes) :
    (e.setMem m.destination m.destinationLoc.slot b).cell tier slot.location.slot =
        e.cell tier slot.location.slot ∨
      (m.key = key ∧ m.destination = tier ∧ m.destinationLoc = slot.location ∧
        slot.state ≠ .READY) := by
  by_cases hc : tier ≠ m.destination ∨ slot.location.slot ≠ m.destinationLoc.slot
  · exact .inl (cell_setMem_of_ne hc)
  · right
    rw [not_or, not_not, not_not] at hc
    obtain ⟨ht, hi⟩ := hc
    subst ht
    obtain ⟨hk, hloc, hne⟩ := destination_of_slot hl hm hr hs hi
    exact ⟨hk, rfl, hloc.symm, hne⟩

/-- The file task in the hands of a worker is a move. -/
theorem taken_move (hl : e.Inv H) (hw : (e.workers w).task = some t.id) (ht : e.tasks t.id = some t) :
    e.move (.task t.id) = some t.move ∧ t.usesCuda = false := by
  obtain ⟨-, u, hu, hrun, hc, -⟩ := hl.queue.taken w t.id hw
  obtain rfl : t = u := Option.some.inj (ht.symm.trans hu)
  exact ⟨move_task ht (by rw [hrun]; rfl), hc⟩

/-- A file task that does not write a file reads one. -/
theorem reads_of_ne (hc : t.usesCuda = false) (hd : t.destination ≠ .NVME)
    (hdirect : direct t.source t.destination = true) :
    t.source = .NVME ∧ t.destination = .CPU := by
  unfold Task.usesCuda at hc
  cases hs : t.source <;> cases hd' : t.destination <;> simp_all [direct]

theorem writes_of_eq (hc : t.usesCuda = false) (hd : t.destination = .NVME)
    (hdirect : direct t.source t.destination = true) : t.source = .CPU := by
  unfold Task.usesCuda at hc
  cases hs : t.source <;> simp_all [direct]

/-- **The slots that a step changes** are destinations: of the move that it works on, or of a copy
whose end nobody has observed. -/
theorem step_cell (hl : e.Inv H) (hwrite : e.Writing) (h : step a e = some e')
    (hr : e.directory.record key = some r) (hs : r.replica tier = some slot)
    (hr' : e'.directory.record key = some r') (hs' : r'.replica tier = some slot')
    (hloc : slot'.location = slot.location) :
    e'.cell tier slot.location.slot = e.cell tier slot.location.slot ∨
      (slot.state ≠ .READY ∧ ∃ o m, e.move o = some m ∧ m.key = key ∧ m.destination = tier ∧
        m.destinationLoc = slot.location ∧ Carries e a o) ∨
      (slot.state ≠ .READY ∧ ∀ o m, e.move o = some m → m.key ≠ key) := by
  have hidle : Inv H { e with owner := .idle } := hl.setOwner nofun
  have hend : Effect H none { e with owner := .idle } e' →
      e'.cell tier slot.location.slot = e.cell tier slot.location.slot := by
    intro he
    rw [he.cell hidle hr hs hr' hs' hloc]
    cases tier <;> rfl
  have hread : ∀ {v : ℕ} {fault : ReadFault} {t : Task} {out : Bytes} {s : WorkerState},
      e.workers v = .started t.id → e.tasks t.id = some t → t.destination ≠ .NVME →
      ((e.setMem .CPU t.destinationLoc.slot out).setWorker v s).cell tier slot.location.slot =
        e.cell tier slot.location.slot ∨
      (slot.state ≠ .READY ∧ ∃ o m, e.move o = some m ∧ m.key = key ∧ m.destination = tier ∧
        m.destinationLoc = slot.location ∧ Carries e (.io v fault) o) := by
    intro v fault t out s hv ht hd
    obtain ⟨hm, hc⟩ := taken_move hl (by rw [hv]; rfl) ht
    obtain ⟨-, -, hdirect, -⟩ := hl.queue.task t.id t ht
    have hcpu := (reads_of_ne hc hd hdirect).2
    rw [cell_setWorker, ← hcpu]
    rcases setMem_cell hl hm hr hs out with h | ⟨hk, hdest, hl', hne⟩
    · exact .inl h
    · exact .inr ⟨hne, _, _, hm, hk, hdest, hl',
        .inr ⟨v, t.id, rfl, .inl ⟨fault, rfl, hv⟩⟩⟩
  cases step_cases hl h with
  | call ho he => exact .inl (he.cell hl hr hs hr' hs' hloc)
  | poll ho he => exact .inl (hend he)
  | finalize ho ht hstate he => exact .inl (hend he)
  | readError hv ht hd hlen => exact (hread hv ht hd).imp_right .inl
  | read hv ht hd hlen himage => exact (hread hv ht hd).imp_right .inl
  | abort hv ht hst =>
    left
    cases tier with
    | NVME => exact congrArg (fun files => AList.lookup _ files) hst.files
    | GPU | CPU => rfl
  | @commit v fault t q st hv ht hst =>
    cases tier with
    | GPU => exact .inl rfl
    | CPU => exact .inl rfl
    | NVME =>
      obtain ⟨u, hu, hwu⟩ := hwrite v t.id q hv
      obtain rfl : t = u := Option.some.inj (ht.symm.trans hu)
      obtain ⟨hm, -⟩ := taken_move hl (by rw [hv]; rfl) ht
      have hlookup : (st.files).lookup slot.location.slot =
          (e.store.files.insert q.slot (ChunkFileStore.PendingWrite.content q
            (e.cpu t.sourceLoc.slot))).lookup slot.location.slot :=
        congrArg (fun files => AList.lookup _ files) hst.files
      by_cases hslot : slot.location.slot = t.destinationLoc.slot
      · have hs : r.replica t.move.destination = some slot := by
          rw [show t.move.destination = .NVME from hwu.destination]
          exact hs
        obtain ⟨hk, hl', hne⟩ := destination_of_slot hl hm hr hs hslot
        exact .inr (.inl ⟨hne, _, _, hm, hk, hwu.destination, hl'.symm,
          .inr ⟨v, t.id, rfl, .inr ⟨fault, q, rfl, hv⟩⟩⟩)
      · left
        show st.files.lookup _ = e.store.files.lookup _
        rw [hlookup, AList.lookup_insert_ne (by rw [hwu.slot]; exact hslot)]
  | @device o event m s s' b hm hcopy hb hev =>
    rw [cell_setCopy]
    rcases setMem_cell hl hm hr hs b with h | ⟨hk, hdest, hl', hne⟩
    · exact .inl h
    · exact .inr (.inl ⟨hne, _, _, hm, hk, hdest, hl', .inl ⟨event, rfl⟩⟩)
  | @scribble b garbage hb =>
    by_cases hc : tier ≠ b.tier ∨ slot.location.slot ≠ b.slot
    · exact .inl (cell_setMem_of_ne hc)
    · right; right
      rw [not_or, not_not, not_not] at hc
      obtain ⟨rfl, hi⟩ := hc
      obtain ⟨k, r₁, l, hr₁, ⟨state, hs₁, hne, -⟩, hslot, -, hmoves⟩ := hl.locks.orphan b hb
      have hk := hl.directory.slot_key hr₁ hr hs₁ hs (hslot.trans hi.symm)
      subst hk
      rw [hr₁] at hr
      cases hr
      rw [hs₁] at hs
      cases hs
      exact ⟨hne, hmoves⟩
  | _ => exact .inl (by cases tier <;> rfl)

/-- **A READY replica** that stays keeps its bytes. -/
theorem ready_cell (hl : e.Inv H) (hwrite : e.Writing) (h : step a e = some e')
    (hr : e.directory.record key = some r) (hs : r.replica tier = some ⟨l, .READY⟩)
    (hr' : e'.directory.record key = some r') (hs' : r'.replica tier = some slot')
    (hloc : slot'.location = l) : e'.cell tier l.slot = e.cell tier l.slot := by
  rcases step_cell hl hwrite h hr hs hr' hs' hloc with hc | ⟨hne, -⟩ | ⟨hne, -⟩
  · exact hc
  · exact absurd rfl hne
  · exact absurd rfl hne

/-- **The replicas of a move** keep their bytes as long as it does not end, but for the destination
where the step works on it. -/
theorem move_cell (hl : e.Inv H) (hl' : e'.Inv H) (hwrite : e.Writing) (h : step a e = some e')
    (hm : e.move o = some m) (hm' : e'.move o = some m) :
    e'.cell m.source m.sourceLoc.slot = e.cell m.source m.sourceLoc.slot ∧
      (e'.cell m.destination m.destinationLoc.slot = e.cell m.destination m.destinationLoc.slot ∨
        Carries e a o) := by
  obtain ⟨r, hr, ⟨s, hs, -⟩, ⟨d, hd, -⟩, -⟩ := hl.locks.held o m hm
  obtain ⟨r', hr', ⟨s', hs', -⟩, ⟨d', hd', -⟩, -⟩ := hl'.locks.held o m hm'
  constructor
  · rcases step_cell hl hwrite h hr hs hr' hs' rfl with hc | ⟨-, o', m', hm₁, hk, hdest, -⟩ | ⟨-, hc⟩
    · exact hc
    · obtain rfl := hl.locks.unique _ _ _ _ hm₁ hm hk
      rw [hm] at hm₁
      cases hm₁
      exact absurd hdest.symm (hl.locks.tiers_ne _ _ hm)
    · exact absurd rfl (hc o m hm)
  · rcases step_cell hl hwrite h hr hd hr' hd' rfl with hc | ⟨-, o', m', hm₁, hk, -, -, hcar⟩ |
      ⟨-, hc⟩
    · exact .inl hc
    · obtain rfl := hl.locks.unique _ _ _ _ hm₁ hm hk
      exact .inr hcar
    · exact absurd rfl (hc o m hm)

/-! ## Arrivals -/

/-- The copy or the I/O of the move has put the chunk into its destination. -/
def Arrived (e : Engine) : CopyOwner → Prop
  | .task id => ∃ t, e.tasks id = some t ∧
      (t.usesCuda = true → t.copy = .landed ∨ t.copy = .done) ∧
      (t.usesCuda = false → t.cancelRequested = false ∧
        (0 < t.ioResult ∨ ∃ w r error, e.workers w = .finished id r error ∧ 0 < r))
  | .transfer key => ∃ p, e.pending key = some p ∧ (p.copy = .landed ∨ p.copy = .done)

/-- The step puts the chunk of a move into its destination. -/
inductive Lands (e e' : Engine) (a : Action) (m : Move) : CopyOwner → Prop
  | copy {o : CopyOwner} (hs : m.source ≠ .NVME) (hd : m.destination ≠ .NVME)
      (hcell : e'.cell m.destination m.destinationLoc.slot = some
        (overwrite (e.mem m.destination m.destinationLoc.slot) (e.mem m.source m.sourceLoc.slot))) :
      Lands e e' a m o
  | read {w : ℕ} {fault : ReadFault} {t : Task} {out : Bytes} (ha : a = .io w fault)
      (hw : e.workers w = .started t.id) (ht : e.tasks t.id = some t) (hm : t.move = m)
      (hs : m.source = .NVME) (hd : m.destination = .CPU)
      (hw' : e'.workers w = .finished t.id 1 "")
      (hcell : e'.cpu m.destinationLoc.slot = out)
      (himage : ∀ key validTokens bytes,
        t.fileMeta = makeFileMeta key validTokens (UInt64.ofNat e.chunkBytes) →
        bytes.length = e.chunkBytes →
        Image e.chunkBytes key .NVME bytes (e.store.files.lookup t.sourceLoc.slot) → out = bytes) :
      Lands e e' a m (.task t.id)
  | write {t : Task} {p : PendingWrite} (ht : e.tasks t.id = some t) (hm : t.move = m)
      (hp : WriteOf t p) (hs : m.source = .CPU) (hd : m.destination = .NVME)
      (hcell : e'.store.files.lookup m.destinationLoc.slot =
        some (ChunkFileStore.PendingWrite.content p (e.cpu m.sourceLoc.slot))) :
      Lands e e' a m (.task t.id)

/-- What an arrival is read off has not changed. -/
theorem Arrived.frame (h : Arrived e' o)
    (htasks : ∀ id t', o = .task id → e'.tasks id = some t' → ∃ t, e.tasks id = some t ∧
      t.usesCuda = t'.usesCuda ∧ t.copy = t'.copy ∧
      (t'.cancelRequested = false → t.cancelRequested = false) ∧
      (0 < t'.ioResult → 0 < t.ioResult ∨ ∃ w r error, e.workers w = .finished id r error ∧ 0 < r))
    (hworkers : ∀ id w r error, o = .task id → e'.workers w = .finished id r error → 0 < r →
      e.workers w = .finished id r error)
    (hpending : ∀ key, o = .transfer key → e'.pending key = e.pending key) : Arrived e o := by
  cases o with
  | task id =>
    obtain ⟨t', ht', hcuda, hfile⟩ := h
    obtain ⟨t, ht, hc, hcopy, hcancel, hres⟩ := htasks id t' rfl ht'
    refine ⟨t, ht, fun h => ?_, fun h => ?_⟩
    · rw [hcopy]
      exact hcuda (hc ▸ h)
    · obtain ⟨hn, hr⟩ := hfile (hc ▸ h)
      refine ⟨hcancel hn, ?_⟩
      rcases hr with hr | ⟨w, r, error, hw, hr⟩
      · exact hres hr
      · exact .inr ⟨w, r, error, hworkers id w r error rfl hw hr, hr⟩
  | transfer key =>
    obtain ⟨p, hp, hcopy⟩ := h
    exact ⟨p, (hpending key rfl).symm.trans hp, hcopy⟩

/-- The end of a move. -/
theorem move_terminal (ht : e.tasks id = some t) (hn : t.state.terminal = true) :
    e.move (.task id) = none := by
  simp [move, ht, hn]

/-- **A call of the owner** makes nothing arrive. -/
theorem Effect.arrived (hl : e.Inv H) (he : Effect H c e e') (hm : e.move o = some m)
    (hm' : e'.move o = some m) (h : Arrived e' o) : Arrived e o := by
  have hsame : ∀ {s s' : Task}, e.tasks s.id = some s →
      e'.tasks = Function.update e.tasks s.id (some s') → s'.state.terminal = true →
      ∀ id t', o = .task id → e'.tasks id = some t' → e.tasks id = some t' := by
    intro s s' hs hu hterm id t' ho ht'
    by_cases hi : id = s.id
    · subst hi
      subst ho
      rw [move_terminal (by rw [hu, Function.update_self]) hterm] at hm'
      cases hm'
    · rw [hu, Function.update_of_ne hi] at ht'
      exact ht'
  have hstay : (∀ id t', o = .task id → e'.tasks id = some t' → e.tasks id = some t') →
      e'.workers = e.workers → (∀ key, o = .transfer key → e'.pending key = e.pending key) →
      Arrived e o := by
    intro htasks hworkers hpending
    refine h.frame (fun id t' ho ht' => ⟨t', htasks id t' ho ht', rfl, rfl, fun h => h, .inl⟩)
      (fun id w r error _ hw _ => by rwa [hworkers] at hw) hpending
  cases he with
  | quiet | client | provide | abandon | nvme =>
    exact hstay (fun _ _ _ h => h) rfl fun _ _ => rfl
  | @submit d s r r' validTokens hi hb hid =>
    refine hstay (fun id t' ho ht' => ?_) rfl fun _ _ => rfl
    have hne : id ≠ s.id := by
      rintro rfl
      subst ho
      obtain ⟨t, ht, -⟩ := Option.bind_eq_some_iff.mp hm
      have := (hl.queue.task s.id t ht).2.1
      omega
    have ht' : Function.update e.tasks s.id (some s) id = some t' := ht'
    rwa [Function.update_of_ne hne] at ht'
  | @beginTransfer d key p r r' hi hb hnone =>
    refine hstay (fun _ _ _ h => h) rfl fun k hk => ?_
    subst hk
    have hne : k ≠ key := by
      rintro rfl
      obtain ⟨q, hq, -⟩ := Option.map_eq_some_iff.mp hm
      rw [hnone] at hq
      cases hq
    exact Function.update_of_ne hne _ _
  | @complete d s r hs =>
    exact hstay (hsame hs rfl rfl) rfl fun _ _ => rfl
  | @discard d store s state error r hs hstate =>
    refine hstay (hsame hs rfl ?_) rfl fun _ _ => rfl
    rcases hstate with rfl | rfl <;> rfl
  | @finishTransfer d key p r r' hp =>
    refine hstay (fun _ _ _ h => h) rfl fun k hk => ?_
    subst hk
    have hne : k ≠ key := by
      rintro rfl
      obtain ⟨q, hq, -⟩ := Option.map_eq_some_iff.mp hm'
      have hq : Function.update e.pending k none k = some q := hq
      rw [Function.update_self] at hq
      cases hq
    exact Function.update_of_ne hne _ _

/-- A move whose I/O is under way has not arrived. -/
theorem not_arrived (hl : e.Inv H) (hw : (e.workers w).task = some id)
    (hn : ∀ r error, e.workers w ≠ .finished id r error) : ¬ Arrived e (.task id) := by
  rintro ⟨t, ht, -, hfile⟩
  obtain ⟨-, u, hu, -, hc, hres⟩ := hl.queue.taken w id hw
  obtain rfl : t = u := Option.some.inj (ht.symm.trans hu)
  rcases (hfile hc).2 with hr | ⟨v, r, error, hv, -⟩
  · rw [hres] at hr
    exact absurd hr (lt_irrefl _)
  · have hvw := hl.queue.taken_once v w id (by rw [hv]; rfl) hw
    subst hvw
    exact hn r error hv

theorem not_carries (hl : e.Inv H) (harr : Arrived e o) (hdev : ∀ event, a ≠ .device o event) :
    ¬ Carries e a o := by
  rintro (⟨event, rfl⟩ | ⟨w, id, rfl, ⟨fault, -, hw⟩ | ⟨fault, p, -, hw⟩⟩)
  · exact hdev event rfl
  · exact not_arrived hl (by rw [hw]; rfl) (fun r error h => by rw [hw] at h; cases h) harr
  · exact not_arrived hl (by rw [hw]; rfl) (fun r error h => by rw [hw] at h; cases h) harr

/-- The copies of the device go between memories. -/
theorem copyState_tiers (hl : e.Inv H) (hm : e.move o = some m) {s : CopyState}
    (hs : e.copyState o = some s) : m.source ≠ .NVME ∧ m.destination ≠ .NVME := by
  cases o with
  | task id =>
    obtain ⟨t, ht, hn, hc, -⟩ := copyState_task hs
    obtain ⟨rfl, -, hdirect, -⟩ := hl.queue.task id t ht
    rw [move_task ht hn] at hm
    cases hm
    show t.source ≠ .NVME ∧ t.destination ≠ .NVME
    unfold Task.usesCuda at hc
    cases hs : t.source <;> cases hd : t.destination <;> simp_all [direct]
  | transfer key =>
    obtain ⟨p, -, rfl⟩ := Option.map_eq_some_iff.mp hm
    cases hp : p.offload <;> simp [Pending.move, hp]

/-- The state of the copy after a step of the device. -/
theorem setCopy_arrived (hm : e.move o = some m) {s s' : CopyState} (hs : e.copyState o = some s)
    (ha : Arrived (e.setCopy o s') o) : s' = .landed ∨ s' = .done := by
  cases o with
  | task id =>
    obtain ⟨t, ht, hn, hc, -⟩ := copyState_task hs
    obtain ⟨t', ht', hcuda, -⟩ := ha
    simp only [setCopy, ht, Function.update_self, Option.map_some] at ht'
    cases ht'
    exact hcuda hc
  | transfer key =>
    obtain ⟨p, hp, -⟩ := Option.map_eq_some_iff.mp hm
    obtain ⟨p', hp', hcopy⟩ := ha
    simp only [setCopy, hp, Function.update_self, Option.map_some] at hp'
    cases hp'
    exact hcopy

theorem setCopy_frame {o' : CopyOwner} (hne : o ≠ o') {s : CopyState}
    (ha : Arrived (e.setCopy o' s) o) : Arrived e o := by
  refine ha.frame (fun id t' ho ht' => ?_) (fun id w r error _ hw _ => ?_) fun key hk => ?_
  · refine ⟨t', ?_, rfl, rfl, fun h => h, .inl⟩
    cases o' with
    | transfer key => exact ht'
    | task i =>
      have hi : id ≠ i := fun h => hne (ho.trans (congrArg _ h))
      exact (Function.update_of_ne hi _ _).symm.trans ht'
  · cases o' <;> exact hw
  · cases o' with
    | task i => rfl
    | transfer k =>
      have hi : key ≠ k := fun h => hne (hk.trans (congrArg _ h))
      exact Function.update_of_ne hi _ _

/-- A copy that has landed has arrived. -/
theorem copyState_arrived (hm : e.move o = some m) (hs : e.copyState o = some .landed) :
    Arrived e o := by
  cases o with
  | task id =>
    obtain ⟨t, ht, -, hc, hcopy⟩ := copyState_task hs
    exact ⟨t, ht, fun _ => .inl hcopy, fun h => by rw [hc] at h; cases h⟩
  | transfer key =>
    obtain ⟨p, hp, hcopy⟩ := Option.map_eq_some_iff.mp hs
    exact ⟨p, hp, .inl hcopy⟩

theorem cell_setMem_self (hd : tier ≠ .NVME) (i : ℕ) (b : Bytes) :
    (e.setMem tier i b).cell tier i = some b := by
  cases tier with
  | GPU => simp [cell, setMem]
  | CPU => simp [cell, setMem]
  | NVME => exact absurd rfl hd

/-- The device lands a copy, or leaves the destination as it is. -/
theorem device_arrived (hl : e.Inv H) (hm : e.move o = some m) {s s' : CopyState}
    {event : DeviceEvent} {b : Bytes} (hs : e.copyState o = some s)
    (hev : (s = .running ∧ s' = .landed ∧ b = overwrite (e.mem m.destination m.destinationLoc.slot)
          (e.mem m.source m.sourceLoc.slot)) ∨
        (s = .landed ∧ s' = .done ∧ b = e.mem m.destination m.destinationLoc.slot) ∨
        s' = .failed)
    (ha : Arrived ((e.setMem m.destination m.destinationLoc.slot b).setCopy o s') o) :
    (Arrived e o ∧
      ((e.setMem m.destination m.destinationLoc.slot b).setCopy o s').cell m.destination
        m.destinationLoc.slot = e.cell m.destination m.destinationLoc.slot) ∨
    Lands e ((e.setMem m.destination m.destinationLoc.slot b).setCopy o s') (.device o event) m o := by
  rcases hev with ⟨-, -, rfl⟩ | ⟨rfl, -, rfl⟩ | rfl
  · right
    obtain ⟨hsrc, hdst⟩ := copyState_tiers hl hm hs
    refine .copy hsrc hdst ?_
    rw [cell_setCopy]
    exact cell_setMem_self hdst _ _
  · left
    rw [cell_setCopy, setMem_self]
    exact ⟨copyState_arrived hm hs, rfl⟩
  · have hm₂ : move (e.setMem m.destination m.destinationLoc.slot b) o = some m := hm
    have hs₂ : copyState (e.setMem m.destination m.destinationLoc.slot b) o = some s := hs
    rcases setCopy_arrived hm₂ hs₂ ha with h | h <;> cases h

/-- **A move arrives** by a step that puts its chunk into the destination; afterwards the
destination stays as it is. -/
theorem step_arrived (hl : e.Inv H) (hl' : e'.Inv H) (hwrite : e.Writing) (h : step a e = some e')
    (hm : e.move o = some m) (hm' : e'.move o = some m) (ha : Arrived e' o) :
    (Arrived e o ∧
      e'.cell m.destination m.destinationLoc.slot = e.cell m.destination m.destinationLoc.slot) ∨
    Lands e e' a m o := by
  have hcell := (move_cell hl hl' hwrite h hm hm').2
  have hidle : Inv H { e with owner := .idle } := hl.setOwner nofun
  have hquiet : (∀ event, a ≠ .device o event) → Arrived e o → (Arrived e o ∧
      e'.cell m.destination m.destinationLoc.slot = e.cell m.destination m.destinationLoc.slot) ∨
      Lands e e' a m o :=
    fun hdev harr => .inl ⟨harr, hcell.resolve_right (not_carries hl harr hdev)⟩
  have hcall : ∀ {c}, Effect H c { e with owner := .idle } e' → Arrived e o := fun he =>
    (he.arrived hidle hm hm' ha).frame
      (fun _ t' _ ht' => ⟨t', ht', rfl, rfl, fun h => h, .inl⟩) (fun _ _ _ _ _ hw _ => hw)
      fun _ _ => rfl
  -- one task goes on
  have htask : ∀ {t u : Task}, e.tasks t.id = some t → u.usesCuda = t.usesCuda → u.copy = t.copy →
      (u.cancelRequested = false → t.cancelRequested = false) →
      (0 < u.ioResult → 0 < t.ioResult ∨
        ∃ w r error, e.workers w = .finished t.id r error ∧ 0 < r) →
      ∀ id t', Function.update e.tasks t.id (some u) id = some t' → ∃ t, e.tasks id = some t ∧
        t.usesCuda = t'.usesCuda ∧ t.copy = t'.copy ∧
        (t'.cancelRequested = false → t.cancelRequested = false) ∧
        (0 < t'.ioResult → 0 < t.ioResult ∨
          ∃ w r error, e.workers w = .finished id r error ∧ 0 < r) := by
    intro t u ht hc hcopy hcancel hres id t' hu
    by_cases hi : id = t.id
    · subst hi
      rw [Function.update_self] at hu
      cases hu
      exact ⟨t, ht, hc.symm, hcopy.symm, hcancel, hres⟩
    · rw [Function.update_of_ne hi] at hu
      exact ⟨t', hu, rfl, rfl, fun h => h, .inl⟩
  have hkeep : ∀ id t', e.tasks id = some t' → ∃ t, e.tasks id = some t ∧
      t.usesCuda = t'.usesCuda ∧ t.copy = t'.copy ∧
      (t'.cancelRequested = false → t.cancelRequested = false) ∧
      (0 < t'.ioResult → 0 < t.ioResult ∨
        ∃ w r error, e.workers w = .finished id r error ∧ 0 < r) :=
    fun id t' ht' => ⟨t', ht', rfl, rfl, fun h => h, .inl⟩
  -- one worker goes on, not with a success of this move
  have hworker : ∀ {v : ℕ} {s : WorkerState},
      (∀ id r error, o = .task id → s = .finished id r error → ¬ 0 < r) →
      ∀ id w r error, o = .task id → Function.update e.workers v s w = .finished id r error →
        0 < r → e.workers w = .finished id r error := by
    intro v s hs id w r error ho hw hr
    by_cases hv : w = v
    · rw [hv, Function.update_self] at hw
      exact absurd hr (hs id r error ho hw)
    · rwa [Function.update_of_ne hv] at hw
  cases step_cases hl h with
  | call ho he => exact hquiet nofun (he.arrived hl hm hm' ha)
  | poll ho he => exact hquiet nofun (hcall he)
  | finalize ho ht hs he => exact hquiet nofun (hcall he)
  | enter ho ht hs =>
    refine hquiet ?_ (ha.frame (fun id t' _ => hkeep id t') (fun _ _ _ _ _ hw _ => hw) fun _ _ => rfl)
    rcases hs with ⟨rfl, -⟩ | ⟨rfl, -⟩ <;> exact nofun
  | unknown ho ht hs => exact hquiet (by rcases hs with rfl | rfl <;> exact nofun) ha
  | owner hs | dequeue ho hq | scribble hb =>
    exact hquiet nofun
      (ha.frame (fun id t' _ => hkeep id t') (fun _ _ _ _ _ hw _ => hw) fun _ _ => rfl)
  | @flag unlinked t s ho ht =>
    exact hquiet nofun (ha.frame
      (fun id t' _ => @htask t { t with cancelRequested := true } ht rfl rfl nofun .inl id t')
      (fun _ _ _ _ _ hw _ => hw) fun _ _ => rfl)
  | @take v t hlt hw hfree hq ht hs hc =>
    exact hquiet nofun (ha.frame
      (fun id t' _ => @htask t { t with state := .RUNNING } ht rfl rfl (fun h => h) .inl id t')
      (hworker fun _ _ _ _ h => by cases h) fun _ _ => rfl)
  | @skip v t hw ht hc =>
    refine hquiet nofun (ha.frame (fun id t' _ => hkeep id t') (hworker ?_) fun _ _ => rfl)
    rintro id r error rfl hs
    cases hs
    -- a cancelled task does not arrive
    obtain ⟨u, hu, -, hfile⟩ := ha
    obtain rfl : t = u := Option.some.inj (ht.symm.trans hu)
    have := (hfile (taken_move hl (by rw [hw]; rfl) ht).2).1
    rw [hc] at this
    cases this
  | start | accept | notify =>
    exact hquiet nofun (ha.frame (fun id t' _ => hkeep id t')
      (hworker fun _ _ _ _ h => by cases h) fun _ _ => rfl)
  | refuse | readError | abort =>
    exact hquiet nofun (ha.frame (fun id t' _ => hkeep id t')
      (hworker fun _ _ _ _ h => by cases h; decide) fun _ _ => rfl)
  | @read v fault t out hw ht hd hlen himage =>
    obtain ⟨hmt, hc⟩ := taken_move hl (by rw [hw]; rfl) ht
    by_cases ho : o = .task t.id
    · subst ho
      rw [hmt] at hm
      cases hm
      obtain ⟨-, -, hdirect, -⟩ := hl.queue.task t.id t ht
      obtain ⟨hsrc, hdst⟩ := reads_of_ne hc hd hdirect
      exact .inr (.read rfl hw ht rfl hsrc hdst (Function.update_self _ _ _)
        (Function.update_self _ _ _) himage)
    · refine hquiet nofun (ha.frame (fun id t' _ => hkeep id t') (hworker ?_) fun _ _ => rfl)
      rintro id r error rfl hs
      cases hs
      exact absurd rfl ho
  | @commit v fault t q st hw ht hst =>
    obtain ⟨hmt, hc⟩ := taken_move hl (by rw [hw]; rfl) ht
    by_cases ho : o = .task t.id
    · subst ho
      rw [hmt] at hm
      cases hm
      obtain ⟨u, hu, hp⟩ := hwrite v t.id q hw
      obtain rfl : t = u := Option.some.inj (ht.symm.trans hu)
      obtain ⟨-, -, hdirect, -⟩ := hl.queue.task t.id t ht
      refine .inr (.write ht rfl hp (writes_of_eq hc hp.destination hdirect) hp.destination ?_)
      show st.files.lookup t.destinationLoc.slot = _
      rw [hst.files, ← hp.slot]
      exact AList.lookup_insert _
    · refine hquiet nofun (ha.frame (fun id t' _ => hkeep id t') (hworker ?_) fun _ _ => rfl)
      rintro id r error rfl hs
      cases hs
      exact absurd rfl ho
  | @result v t r error error' hw ht =>
    exact hquiet nofun (ha.frame
      (fun id t' _ => @htask t { t with ioResult := r, error := error' } ht rfl rfl (fun h => h)
        (fun hr => .inr ⟨v, r, error, hw, hr⟩) id t')
      (hworker fun _ _ _ _ h => by cases h) fun _ _ => rfl)
  | @device o' event m' s s' b hm₁ hs hb hev =>
    by_cases ho : o = o'
    · subst ho
      rw [hm] at hm₁
      cases hm₁
      exact device_arrived hl hm hs hev ha
    · have hne : ∀ event', Action.device o' event ≠ .device o event' := by
        rintro event' h
        cases h
        exact ho rfl
      exact hquiet hne ((setCopy_frame ho ha).frame
        (fun id t' _ => hkeep id t') (fun _ _ _ _ _ hw _ => hw) fun _ _ => rfl)

/-- A new task has not arrived. -/
theorem Created.not_arrived (hl' : e'.Inv H) (hcr : Created e e' t) (ht : e'.tasks t.id = some t) :
    ¬ Arrived e' (.task t.id) := by
  rintro ⟨u, hu, hcuda, hfile⟩
  obtain rfl : t = u := Option.some.inj (ht.symm.trans hu)
  cases hc : t.usesCuda with
  | true =>
    have := hcuda hc
    rw [hcr.copy] at this
    rcases this with h | h <;> cases h
  | false =>
    rcases (hfile hc).2 with hr | ⟨w, r, error, hw, -⟩
    · rw [hcr.result] at hr
      exact absurd hr (lt_irrefl _)
    · -- a worker only holds running tasks
      obtain ⟨-, u, hu, hrun, -⟩ := hl'.queue.taken w t.id (by rw [hw]; rfl)
      obtain rfl : t = u := Option.some.inj (ht.symm.trans hu)
      have hq := hcr.state
      rw [hc, if_neg (by decide), hrun] at hq
      cases hq

theorem step_chunkBytes (hl : e.Inv H) (h : step a e = some e') : e'.chunkBytes = e.chunkBytes := by
  cases step_cases hl h with
  | call ho he => cases he <;> rfl
  | poll ho he => cases he <;> rfl
  | finalize ho ht hs he =>
    have hend : ∀ {e₁ : Engine}, Effect H none { e with owner := .idle } e₁ →
        e₁.chunkBytes = e.chunkBytes := fun he => by cases he <;> rfl
    exact hend he
  | @device o => cases o <;> rfl
  | _ => rfl

/-! ## Completion -/

theorem Effect.completed (hl : e.Inv H) (he : Effect H c e e') (ht : e.tasks id = some t)
    (ht' : e'.tasks id = some t') (hn : t.state.terminal = false) (hc : t'.state = .COMPLETED) :
    Arrived e (.task id) ∧ ∀ tier i, e'.cell tier i = e.cell tier i := by
  have hsame : ∀ {p : Prop}, e.tasks id = some t' → p := by
    intro p h
    obtain rfl : t = t' := Option.some.inj (ht.symm.trans h)
    rw [hc] at hn
    cases hn
  cases he with
  | quiet | client | provide | abandon | beginTransfer | finishTransfer | nvme => exact hsame ht'
  | @submit d s r r' validTokens hi hb hid =>
    have hne : id ≠ s.id := by
      have := (hl.queue.task id t ht).2.1
      omega
    exact hsame ((Function.update_of_ne hne _ _).symm.trans ht')
  | @complete d s r hs hrun hend harrived =>
    by_cases hi : id = s.id
    · subst hi
      refine ⟨⟨s, hs, fun h => .inr (harrived.2.1 h), fun h =>
        ⟨harrived.1, .inl (harrived.2.2 h)⟩⟩, fun tier i => ?_⟩
      cases tier <;> rfl
    · exact hsame ((Function.update_of_ne hi _ _).symm.trans ht')
  | @discard d store s state error r hs hstate =>
    by_cases hi : id = s.id
    · subst hi
      have ht' : Function.update e.tasks s.id (some { s with state := state, error := error }) s.id =
        some t' := ht'
      rw [Function.update_self] at ht'
      cases ht'
      rcases hstate with h | h <;> rw [show state = .COMPLETED from hc] at h <;> cases h
    · exact hsame ((Function.update_of_ne hi _ _).symm.trans ht')

/-- **A task completes** when its chunk has arrived, and the step moves no bytes. -/
theorem step_completed (hl : e.Inv H) (h : step a e = some e') (ht : e.tasks id = some t)
    (ht' : e'.tasks id = some t') (hn : t.state.terminal = false) (hc : t'.state = .COMPLETED) :
    Arrived e (.task id) ∧ ∀ tier i, e'.cell tier i = e.cell tier i := by
  have hidle : Inv H { e with owner := .idle } := hl.setOwner nofun
  have hcall : Effect H none { e with owner := .idle } e' →
      Arrived e (.task id) ∧ ∀ tier i, e'.cell tier i = e.cell tier i := by
    intro he
    obtain ⟨harr, hcell⟩ := he.completed hidle ht ht' hn hc
    exact ⟨harr, fun tier i => (hcell tier i).trans (by cases tier <;> rfl)⟩
  have hsame : ∀ {p : Prop}, e.tasks id = some t' → p := by
    intro p h
    obtain rfl : t = t' := Option.some.inj (ht.symm.trans h)
    rw [hc] at hn
    cases hn
  have hkeep : ∀ {s s' : Task}, e.tasks s.id = some s →
      Function.update e.tasks s.id (some s') id = some t' →
      (s'.state = .COMPLETED → s.state = .COMPLETED) → ∀ {p : Prop}, p := by
    intro s s' hs hu hstate p
    by_cases hi : id = s.id
    · subst hi
      rw [Function.update_self] at hu
      cases hu
      rw [hs] at ht
      cases ht
      rw [hstate hc] at hn
      cases hn
    · rw [Function.update_of_ne hi] at hu
      exact hsame hu
  cases step_cases hl h with
  | call ho he => exact he.completed hl ht ht' hn hc
  | poll ho he => exact hcall he
  | finalize ho hs hstate he => exact hcall he
  | flag ho hs => exact hkeep hs ht' fun h => h
  | take hlt hw hfree hq hs => exact hkeep hs ht' fun h => by cases h
  | result hw hs => exact hkeep hs ht' fun h => h
  | @device o event m s s' b hm hs =>
    cases o with
    | transfer key => exact hsame ht'
    | task i =>
      obtain ⟨u, hu, -⟩ := copyState_task hs
      obtain ⟨rfl, -⟩ := hl.queue.task i u hu
      have hu' : (e.setMem m.destination m.destinationLoc.slot b).tasks u.id = some u := hu
      have ht' : Function.update e.tasks u.id
        (((e.setMem m.destination m.destinationLoc.slot b).tasks u.id).map
          fun t => { t with copy := s' }) id = some t' := ht'
      rw [hu', Option.map_some] at ht'
      exact hkeep hu ht' fun h => h
  | _ => exact hsame ht'

end Engine

end KVFlux.V3
