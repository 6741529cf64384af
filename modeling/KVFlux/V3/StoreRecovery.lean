import KVFlux.V3.StoreCrash

/-!
# Crash safety of the chunk store

Runs of the chunk store between system calls.

* `Doing`, `call_refines`: a call that no crash interrupts does what `ChunkFileStore.write` and
  `ChunkFileStore.erase` say.
* `Within`, `run_within`: the published bytes stay within the quota.
* **`crash_safe`**: the published files, the counter, failing calls and the quota over all runs.
-/

namespace KVFlux.V3

open Fallible

namespace StoreCrash

variable {capacity : UInt64} {s s' s₁ s₂ : State} {p p' : Process} {w : Write}
  {v v₀ now : ChunkFileStore} {slot : ℕ} {m : ChunkFileMeta} {payload : Bytes} {c : Event}

/-! ## Calls -/

/-- The outcome of a call in the big steps. -/
def Outcome (r : EStateM.Result Exn ChunkFileStore Unit) (now : ChunkFileStore) (threw : Bool) :
    Prop :=
  match r with
  | .ok _ v => threw = false ∧ now.Same v
  | .error _ v => threw = true ∧ now.Same v

/-- A call of the store. -/
def Event.isCall : Event → Bool
  | .write _ _ _ | .erase _ => true
  | _ => false

/-- A new store on the directory. -/
def Event.isLaunch : Event → Bool
  | .launch _ _ => true
  | _ => false

/-- The call may end this way. -/
def Ends (v₀ : ChunkFileStore) (c : Event) (now : ChunkFileStore) (threw : Bool) : Prop :=
  match c with
  | .write slot m payload => ∃ fault, Outcome (ChunkFileStore.write fault slot m payload v₀) now threw
  | .erase slot => ∃ unlinked, Outcome (ChunkFileStore.erase unlinked slot v₀) now threw
  | _ => False

/-- How far a call has come since the store was `v₀`. -/
def Doing (v₀ : ChunkFileStore) (c : Event) (now : ChunkFileStore) : Progress → Prop
  | .idle threw => Ends v₀ c now threw
  | .closingDir => Ends v₀ c now false
  | .opening w | .filling w _ _ | .abandoning w | .unlinking w | .closing w | .publishing w =>
    c = .write w.pending.slot w.m w.payload ∧ w.Admitted v₀ ∧ now.Same v₀
  | .openingDir w | .syncingDir w =>
    c = .write w.pending.slot w.m w.payload ∧ w.Admitted v₀ ∧
      ChunkFileStore.Same { now with
        storedBytes := now.storedBytes - w.pending.replacedBytes + w.pending.fileBytes }
      (v₀.writeCommit w.pending w.payload)
  | .erasing slot fileSize =>
    c = .erase slot ∧
      (∃ file, v₀.files.lookup slot = some file ∧ fileSize = ChunkFileStore.size file) ∧
      now.Same v₀

/-- A system call of the write has failed. -/
theorem ends_failed (ha : w.Admitted v₀) (hs : now.Same v₀) :
    Ends v₀ (.write w.pending.slot w.m w.payload) now true := by
  refine ⟨.openTemp, ?_⟩
  simp only [ChunkFileStore.write, bind_apply, get_apply, ha.checked, check_ok]
  exact ⟨rfl, hs⟩

/-- The write has returned. -/
theorem ends_written (ha : w.Admitted v₀)
    (hs : now.Same (v₀.writeCommit w.pending w.payload)) :
    Ends v₀ (.write w.pending.slot w.m w.payload) now false := by
  refine ⟨.none, ?_⟩
  simp only [ChunkFileStore.write, bind_apply, get_apply, ha.checked, check_ok]
  exact ⟨rfl, hs.files, hs.quotaBytes, hs.storedBytes⟩

theorem ends_erase {file : Bytes} (hl : v₀.files.lookup slot = some file) (unlinked : Bool)
    (hs : now.Same (if unlinked then
      { v₀ with
        files := v₀.files.erase slot
        storedBytes := v₀.storedBytes - ChunkFileStore.size file }
      else v₀)) : Ends v₀ (.erase slot) now (!unlinked) := by
  refine ⟨unlinked, ?_⟩
  unfold ChunkFileStore.erase
  simp only [hl]
  cases unlinked with
  | false => exact ⟨rfl, hs⟩
  | true => exact ⟨rfl, hs⟩

/-- **One system call of a call.** -/
theorem syscall_doing {g : Progress} {r : Option ℕ} (hd : Doing v₀ c (store p s.published) g)
    (h : syscall capacity s p g r = some s') :
    ∃ p', s'.process = some p' ∧ Doing v₀ c (store p' s'.published) p'.progress := by
  cases g with
  | idle threw => cases h
  | opening w =>
    obtain ⟨rfl, ha, hs⟩ := hd
    cases r with
    | none => cases h; exact ⟨_, rfl, ends_failed ha hs⟩
    | some n => cases h; exact ⟨_, rfl, rfl, ha, hs⟩
  | filling w header payload =>
    have hfill : ∀ bytes n g, s.fill capacity p w bytes n g = some s' →
        s'.process = some { p with progress := g } ∧ s'.published = s.published := by
      intro bytes n g hf
      unfold State.fill at hf
      simp only at hf
      split_ifs at hf
      cases hf
      exact ⟨rfl, rfl⟩
    cases r with
    | none => cases h; exact ⟨_, rfl, hd⟩
    | some n =>
      cases header with
      | cons b header =>
        obtain ⟨hp, hpub⟩ := hfill _ _ _ h
        exact ⟨_, hp, by rw [hpub]; exact hd⟩
      | nil =>
        cases payload with
        | cons b payload =>
          obtain ⟨hp, hpub⟩ := hfill _ _ _ h
          exact ⟨_, hp, by rw [hpub]; exact hd⟩
        | nil => cases h; exact ⟨_, rfl, hd⟩
  | abandoning w => cases h; exact ⟨_, rfl, hd⟩
  | unlinking w =>
    obtain ⟨rfl, ha, hs⟩ := hd
    cases r <;> cases h <;> exact ⟨_, rfl, ends_failed ha hs⟩
  | closing w =>
    obtain ⟨rfl, ha, hs⟩ := hd
    cases r with
    | none => cases h; exact ⟨_, rfl, ends_failed ha hs⟩
    | some n => cases h; exact ⟨_, rfl, rfl, ha, hs⟩
  | publishing w =>
    obtain ⟨rfl, ha, hs⟩ := hd
    cases r with
    | none => cases h; exact ⟨_, rfl, ends_failed ha hs⟩
    | some n =>
      cases h
      refine ⟨_, rfl, rfl, ha, ?_, hs.quotaBytes, ?_⟩
      · show s.published.insert _ _ = v₀.files.insert _ _
        rw [← ha.content, ← show s.published = v₀.files from hs.files]
      · show p.storedBytes - _ + _ = v₀.storedBytes - _ + _
        rw [← show p.storedBytes = v₀.storedBytes from hs.storedBytes]
  | openingDir w =>
    obtain ⟨rfl, ha, hs⟩ := hd
    cases r with
    | none => cases h; exact ⟨_, rfl, ends_written ha hs⟩
    | some n => cases h; exact ⟨_, rfl, rfl, ha, hs⟩
  | syncingDir w =>
    obtain ⟨rfl, ha, hs⟩ := hd
    cases h
    exact ⟨_, rfl, ends_written ha hs⟩
  | closingDir => cases h; exact ⟨_, rfl, hd⟩
  | erasing slot fileSize =>
    obtain ⟨rfl, ⟨file, hl, rfl⟩, hs⟩ := hd
    cases r with
    | none => cases h; exact ⟨_, rfl, ends_erase hl false hs⟩
    | some n =>
      cases h
      refine ⟨_, rfl, ends_erase hl true ⟨?_, hs.quotaBytes, ?_⟩⟩
      · show s.published.erase _ = v₀.files.erase _
        rw [← show s.published = v₀.files from hs.files]
      · show p.storedBytes - _ = v₀.storedBytes - _
        rw [← show p.storedBytes = v₀.storedBytes from hs.storedBytes]

/-- **The start of a call.** -/
theorem start_doing (hi : Inv capacity s) (hp : s.process = some p) {threw : Bool}
    (hidle : p.progress = .idle threw) (hcall : c.isCall) (h : start s p c = some s') :
    ∃ p', s'.process = some p' ∧
      Doing (store p s.published) c (store p' s'.published) p'.progress := by
  have hb : (store p s.published).Booked := by
    have := hi.progress p hp
    rwa [hidle] at this
  cases c with
  | write slot m payload =>
    unfold start at h
    simp only [hi.stored.lookup_bytes slot] at h
    split_ifs at h with hlen
    cases hc : (store p s.published).writeCheck slot m payload with
    | error err =>
      have hend : Ends (store p s.published) (.write slot m payload) (store p s.published) true := by
        refine ⟨.none, ?_⟩
        simp only [ChunkFileStore.write, bind_apply, get_apply, hc]
        exact ⟨rfl, .refl _⟩
      rw [writeCheck_eq] at hc
      simp only [store] at hc
      rw [hc] at h
      cases h
      exact ⟨_, rfl, hend⟩
    | ok w =>
      obtain ⟨hslot, -⟩ := ChunkFileStore.writeCheck_ok hc
      have ha : Write.Admitted ⟨m, payload, w⟩ (store p s.published) := by
        refine ⟨hb, hlen, ?_⟩
        rw [hslot]
        exact hc
      rw [writeCheck_eq] at hc
      simp only [store] at hc
      rw [hc] at h
      cases h
      exact ⟨_, rfl, by rw [hslot], ha, .refl _⟩
  | erase slot =>
    unfold start at h
    have hf := hi.stored.files slot
    cases hl : s.published.lookup slot with
    | none =>
      rw [hl] at hf
      simp only [hf, Option.map_none] at h
      cases h
      refine ⟨_, rfl, false, ?_⟩
      unfold ChunkFileStore.erase
      rw [show (store p s.published).files.lookup slot = none from hl]
      exact ⟨rfl, .refl _⟩
    | some file =>
      rw [hl] at hf
      simp only [hf, Option.map_some] at h
      cases h
      exact ⟨_, rfl, rfl, ⟨file, hl, rfl⟩, .refl _⟩
  | _ => cases hcall

theorem run_doing (hp : s.process = some p)
    (hd : Doing v₀ c (store p s.published) p.progress) {rs : List (Option ℕ)}
    (h : Transition.run (step capacity) (rs.map .syscall) s = some s') :
    ∃ p', s'.process = some p' ∧ Doing v₀ c (store p' s'.published) p'.progress := by
  induction rs generalizing s p with
  | nil => cases h; exact ⟨p, hp, hd⟩
  | cons r rs ih =>
    obtain ⟨s₁, hs, h⟩ := Option.bind_eq_some_iff.mp h
    obtain ⟨q, hq, hs⟩ := Option.bind_eq_some_iff.mp hs
    rw [hp] at hq
    cases hq
    obtain ⟨p₁, hp₁, hd₁⟩ := syscall_doing hd hs
    exact ih hp₁ hd₁ h

/-- A call starts in an idle process. -/
theorem step_of_isCall (hcall : c.isCall) : step capacity c s = s.process.bind fun p =>
    match p.progress with
    | .idle _ => start s p c
    | _ => none := by
  cases c with
  | write slot m payload => rfl
  | erase slot => rfl
  | _ => cases hcall

theorem step_call (hcall : c.isCall) (hp : s.process = some p) {threw : Bool}
    (hidle : p.progress = .idle threw) (h : step capacity c s = some s') :
    start s p c = some s' := by
  rw [step_of_isCall hcall, hp, Option.bind_some, hidle] at h
  exact h

/-- **A call that no crash interrupts** ends as the big steps say. -/
theorem call_refines (hr : Reachable capacity s) {threw threw' : Bool} {rs : List (Option ℕ)}
    (hp : s.process = some p) (hidle : p.progress = .idle threw) (hcall : c.isCall)
    (hc : step capacity c s = some s₁)
    (h : Transition.run (step capacity) (rs.map .syscall) s₁ = some s₂)
    (hp' : s₂.process = some p') (hidle' : p'.progress = .idle threw') :
    Ends (store p s.published) c (store p' s₂.published) threw' := by
  have hstart := step_call hcall hp hidle hc
  obtain ⟨p₁, hp₁, hd⟩ := start_doing (reachable_inv hr) hp hidle hcall hstart
  obtain ⟨q, hq, hd'⟩ := run_doing hp₁ hd h
  rw [hp'] at hq
  cases hq
  rwa [hidle'] at hd'

/-- **A call that throws** has changed neither a file nor the counter. -/
theorem ends_threw (h : Ends v₀ c now true) : now.Same v₀ := by
  cases c with
  | write slot m payload =>
    obtain ⟨fault, h⟩ := h
    rcases ChunkFileStore.write_cases fault slot m payload v₀ with ⟨err, v, hw, hs⟩ | ⟨w, v, -, hw, -⟩
    · rw [hw] at h
      obtain ⟨-, hn⟩ := h
      exact ⟨hn.files.trans hs.files, hn.quotaBytes.trans hs.quotaBytes,
        hn.storedBytes.trans hs.storedBytes⟩
    · rw [hw] at h
      cases h.1
  | erase slot =>
    obtain ⟨unlinked, h⟩ := h
    unfold ChunkFileStore.erase at h
    cases hl : v₀.files.lookup slot with
    | none => rw [hl] at h; exact h.2
    | some file =>
      rw [hl] at h
      cases unlinked with
      | false => exact h.2
      | true => cases h.1
  | _ => exact h.elim

/-! ## The quota -/

/-- The store was opened with this quota, and the published bytes are within it. -/
structure Within (quotaBytes : UInt64) (s : State) : Prop where
  quota : ∀ p, s.process = some p → p.quotaBytes = quotaBytes
  total_le : total s.published ≤ quotaBytes.toNat

variable {quotaBytes : UInt64}

theorem syscall_within (hs : Stored capacity s.disk s.published) {g : Progress} {r : Option ℕ}
    (ho : g.Ok s.disk (store p s.published)) (h : syscall capacity s p g r = some s') :
    (∃ p', s'.process = some p' ∧ p'.quotaBytes = p.quotaBytes) ∧
      (total s'.published ≤ total s.published ∨ total s'.published ≤ p.quotaBytes.toNat) := by
  cases g with
  | idle threw => cases h
  | filling w header payload =>
    have hfill : ∀ bytes n g, s.fill capacity p w bytes n g = some s' →
        (∃ p', s'.process = some p' ∧ p'.quotaBytes = p.quotaBytes) ∧
          s'.published = s.published := by
      intro bytes n g hf
      unfold State.fill at hf
      simp only at hf
      split_ifs at hf
      cases hf
      exact ⟨⟨_, rfl, rfl⟩, rfl⟩
    cases r with
    | none => cases h; exact ⟨⟨_, rfl, rfl⟩, .inl le_rfl⟩
    | some n =>
      cases header with
      | cons b header =>
        obtain ⟨hp, hpub⟩ := hfill _ _ _ h
        exact ⟨hp, .inl (by rw [hpub])⟩
      | nil =>
        cases payload with
        | cons b payload =>
          obtain ⟨hp, hpub⟩ := hfill _ _ _ h
          exact ⟨hp, .inl (by rw [hpub])⟩
        | nil => cases h; exact ⟨⟨_, rfl, rfl⟩, .inl le_rfl⟩
  | publishing w =>
    obtain ⟨ha, hl⟩ := ho
    cases r with
    | none => cases h; exact ⟨⟨_, rfl, rfl⟩, .inl le_rfl⟩
    | some n =>
      have hq := (ha.commit (hs.temp_fits hl)).2
      rw [ChunkFileStore.writeCommit, ha.content] at hq
      cases h
      exact ⟨⟨_, rfl, rfl⟩, .inr hq⟩
  | erasing slot fileSize =>
    cases r with
    | none => cases h; exact ⟨⟨_, rfl, rfl⟩, .inl le_rfl⟩
    | some n =>
      cases h
      refine ⟨⟨_, rfl, rfl⟩, .inl ?_⟩
      have := (store p s.published).total_eq slot
      show (store p s.published).others slot ≤ (store p s.published).total
      omega
  | _ => cases r <;> cases h <;> exact ⟨⟨_, rfl, rfl⟩, .inl le_rfl⟩

theorem start_within {e : Event} (h : start s p e = some s') :
    (∀ p', s'.process = some p' → p'.quotaBytes = p.quotaBytes) ∧ s'.published = s.published := by
  cases e with
  | launch => cases h
  | syscall => cases h
  | crash => cases h
  | close => cases h; exact ⟨nofun, rfl⟩
  | write slot m payload =>
    unfold start at h
    simp only at h
    split_ifs at h
    split at h <;> cases h <;> exact ⟨fun q hq => by cases hq; rfl, rfl⟩
  | erase slot =>
    unfold start at h
    simp only at h
    split at h <;> cases h <;> exact ⟨fun q hq => by cases hq; rfl, rfl⟩

/-- **A step within the quota.** -/
theorem step_within (hi : Inv capacity s) (hw : Within quotaBytes s) {e : Event}
    (he : e.isLaunch = false) (h : step capacity e s = some s') : Within quotaBytes s' := by
  rcases step_cases h with ⟨left, rfl, -, rfl⟩ | ⟨q, rfl, -⟩ | ⟨q, rfl, -⟩ |
    ⟨r, p, rfl, hp, hs⟩ | ⟨p, threw, hp, -, hs⟩
  · exact ⟨nofun, hw.total_le⟩
  · cases he
  · cases he
  · have hq := hw.quota p hp
    obtain ⟨⟨p', hp', hq'⟩, ht⟩ := syscall_within hi.stored (hi.progress p hp) hs
    refine ⟨fun q hq₁ => ?_, ?_⟩
    · rw [hp'] at hq₁
      cases hq₁
      exact hq'.trans hq
    · rcases ht with ht | ht
      · exact ht.trans hw.total_le
      · rwa [hq] at ht
  · obtain ⟨hq', hpub⟩ := start_within hs
    exact ⟨fun q hq => (hq' q hq).trans (hw.quota p hp), by rw [hpub]; exact hw.total_le⟩

theorem run_within (hi : Inv capacity s) (hw : Within quotaBytes s) {es : List Event}
    (he : ∀ e ∈ es, e.isLaunch = false) (h : Transition.run (step capacity) es s = some s') :
    Within quotaBytes s' := by
  induction es generalizing s with
  | nil => cases h; exact hw
  | cons e es ih =>
    obtain ⟨s₁, hs, h⟩ := Option.bind_eq_some_iff.mp h
    exact ih (step_inv hi hs) (step_within hi hw (he e List.mem_cons_self) hs)
      (fun e' h' => he e' (List.mem_cons_of_mem _ h')) h

/-! ## All runs -/

/-- **Main result.** In every state of every run each slot's file is what the renames and unlinks
that took place have left there; between calls the counter is the number of published bytes; a call
that throws has changed neither; and the published bytes stay within a quota that they did not
exceed when the store was opened. -/
theorem crash_safe (hr : Reachable capacity s) :
    (∀ slot, s.disk.lookup (fileName slot) = (s.published.lookup slot).map (⟨·, true⟩)) ∧
    (∀ p threw, s.process = some p → p.progress = .idle threw →
      p.storedBytes.toNat = total s.published) ∧
    (∀ p threw c s₁ (rs : List (Option ℕ)) s₂ p', s.process = some p → p.progress = .idle threw → c.isCall →
      step capacity c s = some s₁ →
      Transition.run (step capacity) (rs.map .syscall) s₁ = some s₂ → s₂.process = some p' →
      p'.progress = .idle true →
      (∀ slot, s₂.disk.lookup (fileName slot) = s.disk.lookup (fileName slot)) ∧
        p'.storedBytes = p.storedBytes) ∧
    ∀ quotaBytes s₁ es s₂, step capacity (.launch quotaBytes true) s = some s₁ →
      total s₁.published ≤ quotaBytes.toNat → (∀ e ∈ es, e.isLaunch = false) →
      Transition.run (step capacity) es s₁ = some s₂ → total s₂.published ≤ quotaBytes.toNat := by
  have hi := reachable_inv hr
  refine ⟨hi.stored.files, ?_, ?_, ?_⟩
  · intro p threw hp hidle
    have hb := hi.progress p hp
    rw [hidle] at hb
    exact hb
  · intro p threw c s₁ rs s₂ p' hp hidle hcall hc h hp' hidle'
    have hsame := ends_threw (call_refines hr hp hidle hcall hc h hp' hidle')
    have hr₂ : Reachable capacity s₂ :=
      (Transition.Reachable.step hr trivial hc).run (fun _ _ _ => trivial) h
    have hpub : s₂.published = s.published := hsame.files
    refine ⟨fun slot => ?_, hsame.storedBytes⟩
    rw [(reachable_inv hr₂).stored.files, hi.stored.files, hpub]
  · intro quotaBytes s₁ es s₂ hs htotal he h
    have hw : Within quotaBytes s₁ := by
      refine ⟨fun p hp => ?_, htotal⟩
      rcases step_cases hs with ⟨_, hne, -⟩ | ⟨q, hq, rfl⟩ | ⟨q, hq, -⟩ | ⟨_, _, hne, -⟩ |
        ⟨p₀, _, -, -, hstart⟩
      · cases hne
      · cases hq
        cases hp
        rfl
      · cases hq
      · cases hne
      · cases hstart
    exact (run_within (step_inv hi hs) hw he h).total_le

/-- A crash in the middle of a write of one byte, the write again, and a store opened again. -/
def interrupted : List Event :=
  let m : ChunkFileMeta := { modelId := [], prefixTokens := [], payloadSize := 1 }
  [.launch 4096 true, .write 3 m [7], .syscall (some 0), .syscall (some 5),
    .crash fun _ => some [1, 2], .launch 4096 true, .write 3 m [7], .syscall (some 0),
    .syscall (some 76), .syscall (some 1), .syscall (some 0), .syscall (some 0), .syscall (some 0),
    .syscall none, .close, .launch 4096 true]

/-- Between calls, how the last one ended. -/
def Progress.outcome : Progress → Option Bool
  | .idle threw => some threw
  | _ => none

/-- One byte and its header are published and counted. -/
theorem crash_safe_interrupted : ∃ s p,
    Transition.run (step 4096) interrupted {} = some s ∧ s.process = some p ∧
      p.storedBytes.toNat = total s.published ∧ p.storedBytes = 77 := by
  have hrun : ((Transition.run (step 4096) interrupted {}).map fun s =>
      s.process.map fun p => (p.storedBytes, p.progress.outcome)) = some (some (77, some false)) := by
    decide +kernel
  obtain ⟨s, hs, ho⟩ := Option.map_eq_some_iff.mp hrun
  obtain ⟨p, hp, ho⟩ := Option.map_eq_some_iff.mp ho
  obtain ⟨hstored, hidle⟩ := Prod.mk.inj ho
  have h0 : Reachable 4096 {} := .start rfl
  have hr : Reachable 4096 s := h0.run (fun _ _ _ => trivial) hs
  cases hg : p.progress with
  | idle t => exact ⟨s, p, hs, hp, (crash_safe hr).2.1 p t hp hg, hstored⟩
  | _ => rw [hg] at hidle; cases hidle

end StoreCrash

end KVFlux.V3
