import KVFlux.V3.ChunkFiles
import KVFlux.V3.ChunkFormat
import KVFlux.Lib.Transition

/-!
# The chunk store between system calls

`ChunkFileStore.write` and `erase` one system call after the other, on the directory, with every
call failing and a crash at any time.

* `Progress`: where a call of the store stands, `step`: its next system call, a new call, a new
  store on the directory, a crash.
* `published`: what the renames and unlinks that took place have left at each slot.
* `Stored`: what holds of the directory at any time; `Stored.rename`, `Stored.erase`,
  `Stored.crashed`.
* `Inv`: the invariant, with what a call relies on between two system calls; **`step_inv`**.
-/

namespace KVFlux.V3

open Fallible

namespace StoreCrash

/-! ## The machine -/

/-- A `write` that has passed the quota check. -/
structure Write where
  m : ChunkFileMeta
  payload : Bytes
  pending : PendingWrite

/-- The temporary file of the write. -/
def Write.temp (w : Write) : String := tempName w.pending.slot

/-- The bytes of the file that the write is to publish. -/
@[irreducible] def Write.content (w : Write) : Bytes := encode w.m w.payload

/-- The system call that is next. -/
inductive Progress
  /-- None; `threw` says how the last call ended. -/
  | idle (threw : Bool)
  /-- `open` of the temporary file. -/
  | opening (w : Write)
  /-- `write` of what is left, or `fsync`. -/
  | filling (w : Write) (header payload : Bytes)
  /-- `close` and `unlink` of the temporary file, in the handler of a failure. -/
  | abandoning (w : Write)
  | unlinking (w : Write)
  /-- `close` of the temporary file. -/
  | closing (w : Write)
  /-- `rename` to the file of the slot. -/
  | publishing (w : Write)
  /-- `open` and `fsync` of the directory. -/
  | openingDir (w : Write)
  | syncingDir (w : Write)
  | closingDir
  /-- `unlink` of the file of a slot, with the size that `stat` has found. -/
  | erasing (slot : ℕ) (fileSize : UInt64)

/-- A store object. -/
structure Process where
  quotaBytes : UInt64
  storedBytes : UInt64
  progress : Progress

structure State where
  disk : Directory := ∅
  process : Option Process := none
  /-- What the renames and unlinks so far have left at each slot. -/
  published : AList fun _ : ℕ => Bytes := ∅

inductive Event
  /-- The constructor, and whether its `mkdir` and `opendir` succeed. -/
  | launch (quotaBytes : UInt64) (opened : Bool)
  | close
  | write (slot : ℕ) (m : ChunkFileMeta) (payload : Bytes)
  | erase (slot : ℕ)
  /-- The next system call; `none` is a failure, and a `write` returns a number of bytes. -/
  | syscall (result : Option ℕ)
  | crash (left : String → Option Bytes)

/-- `write` up to the quota check; `old` is the file that `stat` finds. -/
def admitted (quotaBytes storedBytes : UInt64) (old : Option Bytes) (slot : ℕ) (m : ChunkFileMeta)
    (payload : Bytes) : Except Exn PendingWrite :=
  let header := encodeHeader m (chunkChecksum (payload.take m.payloadSize.toNat))
  let fileBytes := UInt64.ofNat header.length + m.payloadSize
  let replacedBytes := (old.map ChunkFileStore.size).getD 0
  if fileBytes > quotaBytes ∨ storedBytes - replacedBytes + fileBytes > quotaBytes then
    .error (.chunkQuotaError "chunk store quota exceeded")
  else .ok ⟨slot, header, m.payloadSize.toNat, replacedBytes, fileBytes⟩

def State.at (s : State) (p : Process) (progress : Progress) : State :=
  { s with process := some { p with progress } }

/-- The next `write` takes `n` of these bytes; a full device takes none. -/
def State.fill (capacity : UInt64) (s : State) (p : Process) (w : Write) (bytes : Bytes) (n : ℕ)
    (progress : Progress) : Option State :=
  let disk := s.disk.append w.temp (bytes.take n)
  if n ≤ bytes.length ∧ disk.diskBytes ≤ capacity.toNat then
    some { s.at p progress with disk }
  else none

/-- The assignment of `stored_bytes_` at the end of `write`. -/
def Process.commit (p : Process) (w : Write) : Process :=
  { p with storedBytes := p.storedBytes - w.pending.replacedBytes + w.pending.fileBytes }

/-- The system call that is next, and the code up to the one after. -/
def syscall (capacity : UInt64) (s : State) (p : Process) : Progress → Option ℕ → Option State
  | .idle _, _ => none
  | .opening _, none => s.at p (.idle true)
  | .opening w, some _ =>
    some { s.at p (.filling w w.pending.header w.payload) with
      disk := s.disk.insert w.temp ⟨[], false⟩ }
  | .filling w _ _, none => s.at p (.abandoning w)
  | .filling w (b :: header) payload, some n =>
    s.fill capacity p w (b :: header) n (.filling w ((b :: header).drop n) payload)
  | .filling w [] (b :: payload), some n =>
    s.fill capacity p w (b :: payload) n (.filling w [] ((b :: payload).drop n))
  | .filling w [] [], some _ => some { s.at p (.closing w) with disk := s.disk.sync w.temp }
  | .abandoning w, _ => s.at p (.unlinking w)
  | .unlinking _, none => s.at p (.idle true)
  | .unlinking w, some _ => some { s.at p (.idle true) with disk := s.disk.erase w.temp }
  | .closing _, none => s.at p (.idle true)
  | .closing w, some _ => s.at p (.publishing w)
  | .publishing _, none => s.at p (.idle true)
  | .publishing w, some _ =>
    some { s.at p (.openingDir w) with
      disk := s.disk.rename w.temp (fileName w.pending.slot)
      published := s.published.insert w.pending.slot w.content }
  | .openingDir w, none => s.at (p.commit w) (.idle false)
  | .openingDir w, some _ => s.at p (.syncingDir w)
  | .syncingDir w, _ => s.at (p.commit w) .closingDir
  | .closingDir, _ => s.at p (.idle false)
  | .erasing _ _, none => s.at p (.idle true)
  | .erasing slot fileSize, some _ =>
    some { s.at { p with storedBytes := p.storedBytes - fileSize } (.idle false) with
      disk := s.disk.erase (fileName slot)
      published := s.published.erase slot }

/-- A call of an idle store, up to its first system call that changes something. -/
def start (s : State) (p : Process) : Event → Option State
  | .close => some { s with process := none }
  | .write slot m payload =>
    if payload.length = m.payloadSize.toNat then
      match admitted p.quotaBytes p.storedBytes ((s.disk.lookup (fileName slot)).map File.bytes) slot
          m payload with
      | .error _ => s.at p (.idle true)
      | .ok w => s.at p (.opening ⟨m, payload, w⟩)
    else none
  | .erase slot =>
    match s.disk.lookup (fileName slot) with
    | none => s.at p (.idle true)
    | some f => s.at p (.erasing slot (ChunkFileStore.size f.bytes))
  | _ => none

/-- The system, on a device of `capacity` bytes. -/
def step (capacity : UInt64) : Event → State → Option State
  | .crash left, s =>
    let disk := s.disk.crashed left
    if disk.diskBytes ≤ capacity.toNat then some { s with disk, process := none } else none
  | .launch quotaBytes opened, s =>
    match s.process with
    | none =>
      if opened then
        some { s with process := some ⟨quotaBytes, s.disk.recover, .idle false⟩ }
      else some s
    | some _ => none
  | .syscall result, s => s.process.bind fun p => syscall capacity s p p.progress result
  | e, s =>
    s.process.bind fun p =>
      match p.progress with
      | .idle _ => start s p e
      | _ => none

/-- An empty directory and no store. -/
def Initial (s : State) : Prop := s = {}

/-- The states of all runs. -/
def Reachable (capacity : UInt64) : State → Prop :=
  Transition.Reachable (step capacity) Initial Transition.Any

/-! ## The directory -/

/-- The bytes of the published files. -/
def total (published : AList fun _ : ℕ => Bytes) : ℕ :=
  (Assoc.collect (fun b : Bytes => some b.length) published).sum

/-- What holds of the directory at any time. -/
structure Stored (capacity : UInt64) (disk : Directory) (published : AList fun _ : ℕ => Bytes) :
    Prop where
  files : ∀ slot, disk.lookup (fileName slot) = (published.lookup slot).map (⟨·, true⟩)
  synced : ∀ name f, isChunkName name → disk.lookup name = some f → f.synced = true
  chunks : disk.chunkBytes = total published
  fits : disk.diskBytes ≤ capacity.toNat

namespace Stored

variable {capacity : UInt64} {disk : Directory} {published : AList fun _ : ℕ => Bytes}
  {slot : ℕ} {f : File} {bytes content : Bytes}

theorem start : Stored capacity ∅ ∅ := ⟨fun _ => rfl, nofun, rfl, Nat.zero_le _⟩

theorem insert_temp (h : Stored capacity disk published)
    (hfit : Directory.diskBytes (disk.insert (tempName slot) f) ≤ capacity.toNat) :
    Stored capacity (disk.insert (tempName slot) f) published where
  files i := by
    rw [AList.lookup_insert_ne (fileName_ne_tempName i slot)]
    exact h.files i
  synced name f' hc hl := by
    have hne : name ≠ tempName slot := fun he => by
      rw [he, isChunkName_tempName] at hc
      cases hc
    rw [AList.lookup_insert_ne hne] at hl
    exact h.synced name f' hc hl
  chunks := Directory.chunkBytes_insert_temp.trans h.chunks
  fits := hfit

theorem erase_temp (h : Stored capacity disk published) (slot : ℕ) :
    Stored capacity (disk.erase (tempName slot)) published where
  files i := by
    rw [AList.lookup_erase_ne (fileName_ne_tempName i slot)]
    exact h.files i
  synced name f hc hl := by
    rw [Assoc.lookup_erase] at hl
    split_ifs at hl
    exact h.synced name f hc hl
  chunks := Directory.chunkBytes_erase_temp.trans h.chunks
  fits := (Directory.diskBytes_erase_le disk _).trans h.fits

/-- An empty temporary file takes no space. -/
theorem open_temp (h : Stored capacity disk published) (slot : ℕ) :
    Stored capacity (disk.insert (tempName slot) ⟨[], false⟩) published := by
  apply h.insert_temp
  have hins : Directory.diskBytes (disk.insert (tempName slot) ⟨[], false⟩) =
      0 + Directory.diskBytes (disk.erase (tempName slot)) := Assoc.weight_insert _ _ _ _
  have := Directory.diskBytes_erase_le disk (tempName slot)
  have := h.fits
  omega

theorem sync_temp (h : Stored capacity disk published)
    (hl : disk.lookup (tempName slot) = some f) :
    Stored capacity (disk.insert (tempName slot) { f with synced := true }) published := by
  apply h.insert_temp
  have hins : Directory.diskBytes (disk.insert (tempName slot) { f with synced := true }) =
      f.bytes.length + Directory.diskBytes (disk.erase (tempName slot)) :=
    Assoc.weight_insert _ _ _ _
  have hdisk : disk.diskBytes =
      f.bytes.length + Directory.diskBytes (disk.erase (tempName slot)) := Assoc.weight_lookup hl
  have := h.fits
  omega

/-- The files at the other slots. -/
theorem others (h : Stored capacity disk published) (slot : ℕ) :
    Directory.chunkBytes (disk.erase (fileName slot)) = total (published.erase slot) := by
  have hf := h.files slot
  cases hp : published.lookup slot with
  | none =>
    rw [hp] at hf
    have ht : total (published.erase slot) = total published := by
      unfold total
      rw [Assoc.collect_erase_of_notMem (AList.lookup_eq_none.mp hp)]
    rw [ht, ← h.chunks]
    exact Assoc.weight_erase_of_notMem (AList.lookup_eq_none.mp hf)
  | some b =>
    rw [hp] at hf
    have hd := Directory.chunkBytes_lookup hf
    have ht : total published = b.length + total (published.erase slot) := by
      unfold total
      rw [Assoc.collect_lookup hp]
      simp
    have := h.chunks
    simp only at hd
    omega

/-- **`unlink` of a published file.** -/
theorem erase (h : Stored capacity disk published) (slot : ℕ) :
    Stored capacity (disk.erase (fileName slot)) (published.erase slot) where
  files i := by
    rw [Assoc.lookup_erase, Assoc.lookup_erase]
    by_cases hi : i = slot
    · rw [if_pos hi, if_pos (congrArg fileName hi)]
      rfl
    · rw [if_neg hi, if_neg fun he => hi (fileName_inj he)]
      exact h.files i
  synced name f hc hl := by
    rw [Assoc.lookup_erase] at hl
    split_ifs at hl
    exact h.synced name f hc hl
  chunks := h.others slot
  fits := (Directory.diskBytes_erase_le disk _).trans h.fits

/-- **`rename` of a synced temporary file.** -/
theorem rename (h : Stored capacity disk published)
    (hl : disk.lookup (tempName slot) = some ⟨content, true⟩) :
    Stored capacity (disk.rename (tempName slot) (fileName slot))
      (published.insert slot content) := by
  have hd : disk.rename (tempName slot) (fileName slot) =
      (disk.erase (tempName slot)).insert (fileName slot) ⟨content, true⟩ := by
    unfold Directory.rename
    rw [hl]
  have hfit := (Directory.diskBytes_rename_le disk (tempName slot) (fileName slot)).trans h.fits
  rw [hd] at hfit ⊢
  have ht := h.erase_temp slot
  refine ⟨fun i => ?_, fun name f hc hl => ?_, ?_, hfit⟩
  · rw [Assoc.lookup_insert, Assoc.lookup_insert]
    by_cases hi : i = slot
    · rw [if_pos hi, if_pos (congrArg fileName hi)]
      rfl
    · rw [if_neg hi, if_neg fun he => hi (fileName_inj he)]
      exact ht.files i
  · rw [Assoc.lookup_insert] at hl
    split_ifs at hl
    · cases hl
      rfl
    · exact ht.synced name f hc hl
  · rw [Directory.chunkBytes_insert, ht.others slot]
    unfold total
    rw [Assoc.collect_insert]
    simp

/-- **A crash.** -/
theorem crashed (h : Stored capacity disk published) {left : String → Option Bytes}
    (hfit : (disk.crashed left).diskBytes ≤ capacity.toNat) :
    Stored capacity (disk.crashed left) published where
  files i := by
    rw [Directory.lookup_crashed left fun f hl => h.synced _ f (isChunkName_fileName i) hl]
    exact h.files i
  synced name f hc hl := by
    rw [Directory.lookup_crashed left fun f hl => h.synced _ f hc hl] at hl
    exact h.synced name f hc hl
  chunks := (Directory.chunkBytes_crashed left h.synced).trans h.chunks
  fits := hfit

theorem lookup_bytes (h : Stored capacity disk published) (slot : ℕ) :
    (disk.lookup (fileName slot)).map File.bytes = published.lookup slot := by
  rw [h.files slot]
  cases published.lookup slot <;> rfl

/-- **The constructor counts the published files.** -/
theorem recovered (h : Stored capacity disk published) :
    disk.recover.toNat = total published := by
  have hle : disk.chunkBytes ≤ disk.diskBytes := by
    unfold Directory.chunkBytes Directory.diskBytes
    refine Assoc.weight_le fun name f => ?_
    split_ifs
    · exact le_rfl
    · exact Nat.zero_le _
  have := h.fits
  have := capacity.toNat_lt
  rw [disk.recover_eq, UInt64.toNat_ofNat_of_lt' (show _ < 2 ^ 64 by omega), h.chunks]

/-- A temporary file and the published files fit on the device. -/
theorem temp_fits (h : Stored capacity disk published)
    (hl : disk.lookup (tempName slot) = some f) :
    f.bytes.length + total published < 2 ^ 64 := by
  have := Directory.temp_add_chunkBytes_le hl
  have := h.chunks
  have := h.fits
  have := capacity.toNat_lt
  omega

end Stored

/-! ## The invariant -/

/-- The store of the big steps: its counters, and the published files. -/
def store (p : Process) (published : AList fun _ : ℕ => Bytes) : ChunkFileStore where
  quotaBytes := p.quotaBytes
  storedBytes := p.storedBytes
  files := published

theorem writeCheck_eq (v : ChunkFileStore) (slot : ℕ) (m : ChunkFileMeta) (payload : Bytes) :
    v.writeCheck slot m payload =
      admitted v.quotaBytes v.storedBytes (v.files.lookup slot) slot m payload := rfl

/-- The quota check of the write on these files. -/
structure Write.Admitted (w : Write) (v : ChunkFileStore) : Prop where
  booked : v.Booked
  length_eq : w.payload.length = w.m.payloadSize.toNat
  checked : v.writeCheck w.pending.slot w.m w.payload = .ok w.pending

/-- What a call relies on between two system calls. -/
def Progress.Ok (disk : Directory) (v : ChunkFileStore) : Progress → Prop
  | .idle _ | .closingDir => v.Booked
  | .opening w | .abandoning w | .unlinking w => w.Admitted v
  | .filling w header payload =>
    w.Admitted v ∧ ∃ bytes synced, disk.lookup w.temp = some ⟨bytes, synced⟩ ∧
      bytes ++ (header ++ payload) = w.content
  | .closing w | .publishing w => w.Admitted v ∧ disk.lookup w.temp = some ⟨w.content, true⟩
  | .openingDir w | .syncingDir w =>
    ChunkFileStore.Booked { v with
      storedBytes := v.storedBytes - w.pending.replacedBytes + w.pending.fileBytes }
  | .erasing slot fileSize =>
    v.Booked ∧ ∃ file, v.files.lookup slot = some file ∧ fileSize = ChunkFileStore.size file

structure Inv (capacity : UInt64) (s : State) : Prop where
  stored : Stored capacity s.disk s.published
  progress : ∀ p, s.process = some p → p.progress.Ok s.disk (store p s.published)

variable {capacity : UInt64} {s s' : State} {p : Process} {w : Write} {v : ChunkFileStore}

namespace Write.Admitted

theorem header (h : w.Admitted v) : w.pending.header ++ w.payload = w.content := by
  obtain ⟨-, -, hheader, -, -⟩ := ChunkFileStore.writeCheck_ok h.checked
  rw [hheader, List.take_of_length_le h.length_eq.le, Write.content, encode]

theorem content (h : w.Admitted v) : ChunkFileStore.PendingWrite.content w.pending w.payload = w.content := by
  obtain ⟨-, hsize, -, -, -⟩ := ChunkFileStore.writeCheck_ok h.checked
  unfold ChunkFileStore.PendingWrite.content
  rw [hsize, List.take_of_length_le h.length_eq.le]
  exact h.header

theorem pendingOk (h : w.Admitted v) (hfit : w.content.length < 2 ^ 64) : v.PendingOk w.pending := by
  obtain ⟨-, hsize, -, hreplaced, hbytes⟩ := ChunkFileStore.writeCheck_ok h.checked
  have hlen : w.pending.header.length + w.m.payloadSize.toNat = w.content.length := by
    rw [← h.header, List.length_append, h.length_eq]
  refine ⟨?_, ?_⟩
  · rw [hreplaced]
    have hle := v.total_eq w.pending.slot
    have hb := h.booked
    have := v.storedBytes.toNat_lt
    unfold ChunkFileStore.Booked at hb
    unfold ChunkFileStore.fileLength at hle ⊢
    cases hl : v.files.lookup w.pending.slot with
    | none => rfl
    | some file =>
      rw [hl] at hle
      exact UInt64.toNat_ofNat_of_lt' (show file.length < 2 ^ 64 by simp at hle; omega)
  · rw [hbytes, UInt64.toNat_add, UInt64.toNat_ofNat_of_lt' (show _ < 2 ^ 64 by omega), hsize]
    exact Nat.mod_eq_of_lt (by omega)

/-- **The commit** books the new file, within the quota. -/
theorem commit (h : w.Admitted v) (hfit : w.content.length + v.total < 2 ^ 64) :
    (v.writeCommit w.pending w.payload).Booked ∧
      (v.writeCommit w.pending w.payload).total ≤ v.quotaBytes.toNat := by
  have hok := h.pendingOk (by omega)
  have hle : w.pending.payloadSize ≤ w.payload.length := by
    obtain ⟨-, hsize, -⟩ := ChunkFileStore.writeCheck_ok h.checked
    rw [hsize, h.length_eq]
  have hlen : w.pending.fileBytes.toNat = w.content.length := by
    rw [hok.fileBytes, ← h.content]
    unfold ChunkFileStore.PendingWrite.content
    rw [List.length_append, List.length_take, Nat.min_eq_left hle]
  have htotal := v.total_eq w.pending.slot
  have hbooked := h.booked.writeCommit hok hle (by omega)
  refine ⟨hbooked, ?_⟩
  rw [← show _ = (v.writeCommit w.pending w.payload).total from hbooked]
  have hc := h.checked
  unfold ChunkFileStore.writeCheck at hc
  simp only at hc
  split_ifs at hc with hq
  rw [← Except.ok.inj hc]
  exact UInt64.not_lt.mp fun hgt => hq (.inr hgt)

end Write.Admitted

theorem Inv.at {disk : Directory} {published : AList fun _ : ℕ => Bytes} {g : Progress}
    (hs : Stored capacity disk published) (hg : g.Ok disk (store p published)) :
    Inv capacity ⟨disk, some { p with progress := g }, published⟩ :=
  ⟨hs, fun q hq => by cases hq; exact hg⟩

/-- A `write` to the temporary file. -/
theorem fill_inv (hs : Stored capacity s.disk s.published) {old rest bytes : Bytes} {synced : Bool}
    {n : ℕ} {g : Progress} (hl : s.disk.lookup w.temp = some ⟨old, synced⟩)
    (hc : old ++ (bytes ++ rest) = w.content)
    (h : s.fill capacity p w bytes n g = some s')
    (hg : ∀ disk : Directory, (∃ new synced', disk.lookup w.temp = some ⟨new, synced'⟩ ∧
      new ++ (bytes.drop n ++ rest) = w.content) → g.Ok disk (store p s.published)) :
    Inv capacity s' := by
  unfold State.fill at h
  simp only at h
  split_ifs at h with hfit
  cases h
  have hd : s.disk.append w.temp (bytes.take n) =
      s.disk.insert w.temp ⟨old ++ bytes.take n, false⟩ := by
    unfold Directory.append
    rw [hl]
  rw [hd] at hfit ⊢
  refine Inv.at (hs.insert_temp hfit.2) (hg _ ⟨_, false, AList.lookup_insert _, ?_⟩)
  rw [← hc, List.append_assoc, ← List.append_assoc (bytes.take n), List.take_append_drop]

theorem syscall_inv (hs : Stored capacity s.disk s.published) {g : Progress} {r : Option ℕ}
    (ho : g.Ok s.disk (store p s.published)) (h : syscall capacity s p g r = some s') :
    Inv capacity s' := by
  cases g with
  | idle threw => cases h
  | opening w =>
    have ha : w.Admitted (store p s.published) := ho
    cases r with
    | none => cases h; exact .at hs ha.booked
    | some n =>
      cases h
      exact .at (hs.open_temp _) ⟨ha, [], false, AList.lookup_insert _, ha.header⟩
  | filling w header payload =>
    obtain ⟨ha, old, synced, hl, hc⟩ := ho
    cases r with
    | none => cases h; exact .at hs ha
    | some n =>
      cases header with
      | cons b header => exact fill_inv hs hl hc h fun _ hd => ⟨ha, hd⟩
      | nil =>
        rw [List.nil_append] at hc
        cases payload with
        | cons b payload =>
          have hc' : old ++ ((b :: payload) ++ []) = w.content := by rwa [List.append_nil]
          refine fill_inv hs hl hc' h fun _ hd => ⟨ha, ?_⟩
          simpa only [List.append_nil, List.nil_append] using hd
        | nil =>
          rw [List.append_nil] at hc
          rw [hc] at hl
          have hd : s.disk.sync w.temp = s.disk.insert w.temp ⟨w.content, true⟩ := by
            unfold Directory.sync
            rw [hl]
          simp only [syscall, hd, Option.some.injEq] at h
          subst h
          exact .at (hs.sync_temp hl) ⟨ha, AList.lookup_insert _⟩
  | abandoning w => cases h; exact .at hs ho
  | unlinking w =>
    have ha : w.Admitted (store p s.published) := ho
    cases r with
    | none => cases h; exact .at hs ha.booked
    | some n => cases h; exact .at (hs.erase_temp _) ha.booked
  | closing w =>
    cases r with
    | none => cases h; exact .at hs ho.1.booked
    | some n => cases h; exact .at hs ho
  | publishing w =>
    obtain ⟨ha, hl⟩ := ho
    cases r with
    | none => cases h; exact .at hs ha.booked
    | some n =>
      have hb := (ha.commit (hs.temp_fits hl)).1
      rw [ChunkFileStore.writeCommit, ha.content] at hb
      cases h
      exact .at (hs.rename hl) hb
  | openingDir w => cases r <;> cases h <;> exact .at hs ho
  | syncingDir w => cases h; exact .at hs ho
  | closingDir => cases h; exact .at hs ho
  | erasing slot fileSize =>
    obtain ⟨hb, file, hl, rfl⟩ := ho
    cases r with
    | none => cases h; exact .at hs hb
    | some n => cases h; exact .at (hs.erase _) (hb.erase hl).1

theorem start_inv (hi : Inv capacity s) (hp : s.process = some p) {threw : Bool}
    (hidle : p.progress = .idle threw) {e : Event} (h : start s p e = some s') :
    Inv capacity s' := by
  have hb : (store p s.published).Booked := by
    have := hi.progress p hp
    rwa [hidle] at this
  cases e with
  | launch => cases h
  | syscall => cases h
  | crash => cases h
  | close => cases h; exact ⟨hi.stored, nofun⟩
  | write slot m payload =>
    unfold start at h
    simp only [hi.stored.lookup_bytes slot] at h
    split_ifs at h with hlen
    cases hc : (store p s.published).writeCheck slot m payload with
    | error err =>
      rw [writeCheck_eq] at hc
      simp only [store] at hc
      rw [hc] at h
      cases h
      exact .at hi.stored hb
    | ok w =>
      have ha : Write.Admitted ⟨m, payload, w⟩ (store p s.published) := by
        obtain ⟨hslot, -⟩ := ChunkFileStore.writeCheck_ok hc
        refine ⟨hb, hlen, ?_⟩
        rw [hslot]
        exact hc
      rw [writeCheck_eq] at hc
      simp only [store] at hc
      rw [hc] at h
      cases h
      exact .at hi.stored ha
  | erase slot =>
    unfold start at h
    have hf := hi.stored.files slot
    cases hl : s.published.lookup slot with
    | none =>
      rw [hl] at hf
      simp only [hf, Option.map_none] at h
      cases h
      exact .at hi.stored hb
    | some file =>
      rw [hl] at hf
      simp only [hf, Option.map_some] at h
      cases h
      exact .at hi.stored ⟨hb, file, hl, rfl⟩

/-- **What a step can be.** -/
theorem step_cases {e : Event} (h : step capacity e s = some s') :
    (∃ left, e = .crash left ∧ (s.disk.crashed left).diskBytes ≤ capacity.toNat ∧
      s' = { s with disk := s.disk.crashed left, process := none }) ∨
    (∃ quotaBytes, e = .launch quotaBytes true ∧
      s' = { s with process := some ⟨quotaBytes, s.disk.recover, .idle false⟩ }) ∨
    (∃ quotaBytes, e = .launch quotaBytes false ∧ s' = s) ∨
    (∃ r p, e = .syscall r ∧ s.process = some p ∧ syscall capacity s p p.progress r = some s') ∨
    ∃ p threw, s.process = some p ∧ p.progress = .idle threw ∧ start s p e = some s' := by
  have hcall : (s.process.bind fun p =>
      match p.progress with
      | .idle _ => start s p e
      | _ => none) = some s' →
      ∃ p threw, s.process = some p ∧ p.progress = .idle threw ∧ start s p e = some s' := by
    intro hb
    obtain ⟨p, hp, hs⟩ := Option.bind_eq_some_iff.mp hb
    cases hg : p.progress with
    | idle threw => rw [hg] at hs; exact ⟨p, threw, hp, hg, hs⟩
    | _ => rw [hg] at hs; cases hs
  cases e with
  | crash left =>
    unfold step at h
    simp only at h
    split_ifs at h with hfit
    exact .inl ⟨left, rfl, hfit, (Option.some.inj h).symm⟩
  | launch quotaBytes opened =>
    simp only [step] at h
    cases hp : s.process with
    | some p => rw [hp] at h; cases h
    | none =>
      rw [hp] at h
      cases opened with
      | true => exact .inr (.inl ⟨quotaBytes, rfl, (Option.some.inj h).symm⟩)
      | false => exact .inr (.inr (.inl ⟨quotaBytes, rfl, (Option.some.inj h).symm⟩))
  | syscall r =>
    obtain ⟨p, hp, hs⟩ := Option.bind_eq_some_iff.mp h
    exact .inr (.inr (.inr (.inl ⟨r, p, rfl, hp, hs⟩)))
  | close => exact .inr (.inr (.inr (.inr (hcall h))))
  | write slot m payload => exact .inr (.inr (.inr (.inr (hcall h))))
  | erase slot => exact .inr (.inr (.inr (.inr (hcall h))))

/-- **Every step keeps the invariant.** -/
theorem step_inv (hi : Inv capacity s) {e : Event} (h : step capacity e s = some s') :
    Inv capacity s' := by
  rcases step_cases h with ⟨left, rfl, hfit, rfl⟩ | ⟨quotaBytes, rfl, rfl⟩ | ⟨quotaBytes, rfl, rfl⟩ |
    ⟨r, p, rfl, hp, hs⟩ | ⟨p, threw, hp, hidle, hs⟩
  · exact ⟨hi.stored.crashed hfit, nofun⟩
  · refine ⟨hi.stored, fun q hq => ?_⟩
    cases hq
    exact hi.stored.recovered
  · exact hi
  · exact syscall_inv hi.stored (hi.progress p hp) hs
  · exact start_inv hi hp hidle hs

theorem reachable_inv (hr : Reachable capacity s) : Inv capacity s :=
  hr.invariant (fun s h => by cases h; exact ⟨.start, nofun⟩) fun _ _ _ _ hi _ h => step_inv hi h

end StoreCrash

end KVFlux.V3
