import KVFlux.V3.ChunkCodec

/-!
# The chunk file store

One file a slot under a root directory, published by renaming a temporary file, with a quota on the
bytes of the published files.

* `ChunkFileStore`: the published and temporary files and the two counters.
* `writeCheck`, `writeTemp`, `writeCommit`: the steps of `write`; the first compares with the quota,
  the last publishes. `write` runs all three.
* `read`, `existsAt`, `erase`.

The faults say which system call of a call fails.
-/

namespace KVFlux.V3

open Fallible

structure ChunkFileStore where
  rootDir : String := ""
  quotaBytes : UInt64
  files : AList (fun _ : ℕ => Bytes) := ∅
  temps : AList (fun _ : ℕ => Bytes) := ∅
  storedBytes : UInt64 := 0

/-- The system call of `write` that fails; `written` bytes of the file went out before. -/
inductive WriteFault
  | none
  | openTemp
  | writeTemp (written : ℕ) (unlinked : Bool)
  | close
  | rename
deriving DecidableEq, Repr

/-- The system call of `read` that fails; `bytes` bytes of the file came in before. -/
inductive ReadFault
  | none
  | openFile
  | readFile (bytes : ℕ)
deriving DecidableEq, Repr

/-- A `write` that has passed the quota check. -/
structure PendingWrite where
  slot : ℕ
  header : Bytes
  payloadSize : ℕ
  replacedBytes : UInt64
  fileBytes : UInt64
deriving DecidableEq

namespace ChunkFileStore

/-- `path_for(slot)`. -/
def pathFor (s : ChunkFileStore) (slot : ℕ) : String :=
  let digits := toString slot
  s.rootDir ++ "/chunks/chunk_" ++ "".pushn '0' (6 - digits.length) ++ digits ++ ".bin"

/-- The size that `stat` reports. -/
def size (bytes : Bytes) : UInt64 := UInt64.ofNat bytes.length

/-- The constructor on a directory with these files: only published files count. -/
def new (rootDir : String) (quotaBytes : UInt64) (files temps : AList (fun _ : ℕ => Bytes)) :
    ChunkFileStore where
  rootDir := rootDir
  quotaBytes := quotaBytes
  files := files
  temps := temps
  storedBytes := files.entries.foldl (fun n e => n + size e.2) 0

/-- `write` up to the quota check. -/
def writeCheck (s : ChunkFileStore) (slot : ℕ) (m : ChunkFileMeta) (payload : Bytes) :
    Except Exn PendingWrite :=
  let header := encodeHeader m (chunkChecksum (payload.take m.payloadSize.toNat))
  let fileBytes := UInt64.ofNat header.length + m.payloadSize
  let replacedBytes := ((s.files.lookup slot).map size).getD 0
  if fileBytes > s.quotaBytes ∨ s.storedBytes - replacedBytes + fileBytes > s.quotaBytes then
    .error (.chunkQuotaError "chunk store quota exceeded")
  else .ok ⟨slot, header, m.payloadSize.toNat, replacedBytes, fileBytes⟩

/-- The bytes of the temporary file. -/
def PendingWrite.content (w : PendingWrite) (payload : Bytes) : Bytes :=
  w.header ++ payload.take w.payloadSize

def setTemp (s : ChunkFileStore) (slot : ℕ) (bytes : Bytes) : ChunkFileStore :=
  { s with temps := s.temps.insert slot bytes }

/-- `write` from the temporary file to its `close`, or to a failing `rename`. -/
def writeTemp (fault : WriteFault) (w : PendingWrite) (payload : Bytes) :
    Call ChunkFileStore Unit := fun s =>
  let path := s.pathFor w.slot
  let content := PendingWrite.content w payload
  match fault with
  | .openTemp => .error (.chunkStoreError "open" (path ++ ".tmp")) s
  | .writeTemp written unlinked =>
    .error (.chunkStoreError (if written < content.length then "write" else "fsync") (path ++ ".tmp"))
      (if unlinked then { s with temps := s.temps.erase w.slot }
       else s.setTemp w.slot (content.take written))
  | .close => .error (.chunkStoreError "close" (path ++ ".tmp")) (s.setTemp w.slot content)
  | .rename => .error (.chunkStoreError "rename" path) (s.setTemp w.slot content)
  | .none => .ok () (s.setTemp w.slot content)

/-- `write` from the `rename` on. -/
def writeCommit (s : ChunkFileStore) (w : PendingWrite) (payload : Bytes) : ChunkFileStore :=
  { s with
    files := s.files.insert w.slot (PendingWrite.content w payload)
    temps := s.temps.erase w.slot
    storedBytes := s.storedBytes - w.replacedBytes + w.fileBytes }

/-- `write(slot, meta, payload)`. -/
def write (fault : WriteFault) (slot : ℕ) (m : ChunkFileMeta) (payload : Bytes) :
    Call ChunkFileStore Unit := do
  let s ← get
  let w ← check (s.writeCheck slot m payload)
  writeTemp fault w payload
  modify fun s => s.writeCommit w payload

/-- `read` on the content of an open file; `eof` is thrown where it ends. -/
def readContent (eof : Exn) (path : String) (expected : ChunkFileMeta) (outCapacity : ℕ)
    (file : Bytes) : Call Bytes (Option ChunkFileMeta) := fun out =>
  match readHeader eof path expected outCapacity file with
  | .error e _ => .error e out
  | .ok (m, payloadSum) rest =>
    let n := m.payloadSize.toNat
    let out := rest.take n ++ out.drop (min n rest.length)
    if rest.length < n then .error eof out
    else if chunkChecksum (out.take n) ≠ payloadSum then
      .error (.chunkCorruptError ("chunk payload checksum mismatch: " ++ path)) out
    else .ok (some m) out

/-- `read(slot, expected, out, out_capacity, file_meta)`; the state is the memory behind `out`, and
`none` stands for `false`. -/
def read (s : ChunkFileStore) (fault : ReadFault) (slot : ℕ) (expected : ChunkFileMeta)
    (outCapacity : ℕ) : Call Bytes (Option ChunkFileMeta) :=
  let path := s.pathFor slot
  match fault, s.files.lookup slot with
  | .openFile, _ => throw (.chunkStoreError "open" path)
  | _, none => pure none
  | .none, some file =>
    readContent (.chunkCorruptError ("truncated chunk file: " ++ path)) path expected outCapacity
      file
  | .readFile bytes, some file =>
    readContent (.chunkStoreError "read" path) path expected outCapacity (file.take bytes)

/-- `exists(slot)`. -/
def existsAt (s : ChunkFileStore) (slot : ℕ) : Bool := (s.files.lookup slot).isSome

/-- `erase(slot)`; `unlinked` says whether `unlink` succeeds. -/
def erase (unlinked : Bool) (slot : ℕ) : Call ChunkFileStore Unit := fun s =>
  match s.files.lookup slot with
  | none => .error (.chunkMissError ("chunk file does not exist: " ++ s.pathFor slot)) s
  | some file =>
    if unlinked then
      .ok () { s with files := s.files.erase slot, storedBytes := s.storedBytes - size file }
    else .error (.chunkStoreError "unlink" (s.pathFor slot)) s

/-! ## Reading back -/

variable {s s' : ChunkFileStore} {slot : ℕ} {m m' expected : ChunkFileMeta} {w : PendingWrite}
  {payload : Bytes}

theorem readContent_encode {eof : Exn} {path : String} {outCapacity k : ℕ} {out out' : Bytes}
    {sum : UInt64} (hm : m.modelId = expected.modelId) (hp : m.prefixTokens = expected.prefixTokens)
    (hn : m.payloadSize.toNat = payload.length)
    (h : readContent eof path expected outCapacity ((encodeHeader m sum ++ payload).take k) out =
      .ok (some m') out') : out' = payload ++ out.drop payload.length := by
  unfold readContent at h
  cases hr : readHeader eof path expected outCapacity ((encodeHeader m sum ++ payload).take k) with
  | error e rest => rw [hr] at h; cases h
  | ok r rest =>
    obtain ⟨m₁, sum₁⟩ := r
    rw [hr] at h
    obtain ⟨hps, -, -, more, rfl⟩ := readHeader_encode hm hp hr
    have hlen : m₁.payloadSize.toNat = rest.length + more.length := by
      rw [hps, hn, List.length_append]
    simp only at h
    split_ifs at h with hlt
    cases h
    have hmore : more = [] := List.eq_nil_of_length_eq_zero (by omega)
    subst hmore
    rw [List.append_nil, hlen]
    simp

/-- **A file that was written for the chunk**, when it is accepted, puts its payload in front of the
buffer. -/
theorem read_encode {fault : ReadFault} {outCapacity : ℕ} {out out' : Bytes} {sum : UInt64}
    (hfile : s.files.lookup slot = some (encodeHeader m sum ++ payload))
    (hm : m.modelId = expected.modelId) (hp : m.prefixTokens = expected.prefixTokens)
    (hn : m.payloadSize.toNat = payload.length)
    (h : s.read fault slot expected outCapacity out = .ok (some m') out') :
    out' = payload ++ out.drop payload.length := by
  unfold read at h
  simp only [hfile] at h
  cases fault with
  | openFile => cases h
  | none =>
    rw [← List.take_length (l := encodeHeader m sum ++ payload)] at h
    exact readContent_encode hm hp hn h
  | readFile bytes => exact readContent_encode hm hp hn h

/-- Reading keeps the size of a buffer as large as its stated capacity. -/
theorem readContent_length {eof : Exn} {path : String} {file out : Bytes} :
    (finalState (readContent eof path expected out.length file out)).length = out.length := by
  unfold readContent
  cases hr : readHeader eof path expected out.length file with
  | error e rest => rfl
  | ok r rest =>
    obtain ⟨m₁, sum⟩ := r
    obtain ⟨-, -, -, -, -, -, -, -, -, -, -, -, -, -, -, -, hcap⟩ := readHeader_ok hr
    simp only
    split_ifs <;> simp only [finalState_ok, finalState_error, List.length_append, List.length_take,
      List.length_drop] <;> omega

theorem read_length {fault : ReadFault} {out : Bytes} :
    (finalState (s.read fault slot expected out.length out)).length = out.length := by
  unfold read
  cases fault with
  | openFile => rfl
  | none =>
    cases s.files.lookup slot with
    | none => rfl
    | some file => exact readContent_length
  | readFile bytes =>
    cases s.files.lookup slot with
    | none => rfl
    | some file => exact readContent_length

/-! ## Writing -/

/-- The same files and counters. -/
structure Same (s s' : ChunkFileStore) : Prop where
  files : s.files = s'.files
  quotaBytes : s.quotaBytes = s'.quotaBytes
  storedBytes : s.storedBytes = s'.storedBytes

theorem Same.refl (s : ChunkFileStore) : s.Same s := ⟨rfl, rfl, rfl⟩

/-- A temporary file is not published. -/
theorem writeTemp_same (fault : WriteFault) (w : PendingWrite) (payload : Bytes)
    (s : ChunkFileStore) : (finalState (writeTemp fault w payload s)).Same s := by
  cases fault with
  | writeTemp written unlinked => cases unlinked <;> exact ⟨rfl, rfl, rfl⟩
  | _ => exact ⟨rfl, rfl, rfl⟩

theorem writeCheck_ok (h : s.writeCheck slot m payload = .ok w) :
    w.slot = slot ∧ w.payloadSize = m.payloadSize.toNat ∧
      w.header = encodeHeader m (chunkChecksum (payload.take m.payloadSize.toNat)) ∧
      w.replacedBytes = ((s.files.lookup slot).map size).getD 0 ∧
      w.fileBytes = UInt64.ofNat w.header.length + m.payloadSize := by
  unfold writeCheck at h
  simp only at h
  split_ifs at h
  cases h
  exact ⟨rfl, rfl, rfl, rfl, rfl⟩

/-- **The outcomes of `write`.** -/
theorem write_cases (fault : WriteFault) (slot : ℕ) (m : ChunkFileMeta) (payload : Bytes)
    (s : ChunkFileStore) :
    (∃ err s', write fault slot m payload s = .error err s' ∧ s'.Same s) ∨
    (∃ w s', s.writeCheck slot m payload = .ok w ∧ write fault slot m payload s = .ok () s' ∧
      s'.Same (s.writeCommit w payload)) := by
  simp only [write, bind_apply, get_apply]
  cases hc : s.writeCheck slot m payload with
  | error err => exact .inl ⟨err, s, rfl, .refl s⟩
  | ok w =>
    simp only [check_ok]
    have hsame := writeTemp_same fault w payload s
    cases ht : writeTemp fault w payload s with
    | error err s' => rw [ht] at hsame; exact .inl ⟨err, s', rfl, hsame⟩
    | ok u s' =>
      rw [ht, finalState_ok] at hsame
      refine .inr ⟨w, _, rfl, rfl, ?_, hsame.quotaBytes, ?_⟩
      · show s'.files.insert _ _ = s.files.insert _ _
        rw [hsame.files]
      · show s'.storedBytes - _ + _ = s.storedBytes - _ + _
        rw [hsame.storedBytes]

/-! ## Accounting -/

/-- The bytes of the published files. -/
def total (s : ChunkFileStore) : ℕ :=
  (Assoc.collect (fun b : Bytes => some b.length) s.files).sum

/-- The length of the published file at a slot. -/
def fileLength (s : ChunkFileStore) (slot : ℕ) : ℕ :=
  ((s.files.lookup slot).map List.length).getD 0

/-- The published bytes at the other slots. -/
def others (s : ChunkFileStore) (slot : ℕ) : ℕ :=
  (Assoc.collect (fun b : Bytes => some b.length) (s.files.erase slot)).sum

theorem total_eq (s : ChunkFileStore) (slot : ℕ) :
    s.total = s.fileLength slot + s.others slot := by
  unfold total fileLength others
  cases hl : s.files.lookup slot with
  | none =>
    rw [Assoc.collect_erase_of_notMem (AList.lookup_eq_none.mp hl)]
    simp
  | some b =>
    rw [Assoc.collect_lookup hl]
    simp

theorem total_insert (s : ChunkFileStore) (slot : ℕ) (b : Bytes) :
    (Assoc.collect (fun b : Bytes => some b.length) (s.files.insert slot b)).sum =
      b.length + s.others slot := by
  unfold others
  rw [Assoc.collect_insert]
  simp

/-- The counter is the number of published bytes. -/
def Booked (s : ChunkFileStore) : Prop := s.storedBytes.toNat = s.total

/-- What the quota check has seen still holds when the file is renamed. -/
structure PendingOk (s : ChunkFileStore) (w : PendingWrite) : Prop where
  replaced : w.replacedBytes.toNat = s.fileLength w.slot
  fileBytes : w.fileBytes.toNat = w.header.length + w.payloadSize

theorem total_writeCommit (hw : s.PendingOk w) (hp : w.payloadSize ≤ payload.length) :
    (s.writeCommit w payload).total = w.fileBytes.toNat + s.others w.slot := by
  unfold total writeCommit
  simp only
  rw [total_insert, hw.fileBytes]
  unfold PendingWrite.content
  rw [List.length_append, List.length_take, Nat.min_eq_left hp]

/-- **The commit of a write keeps the books**, if the new total fits the counter. -/
theorem Booked.writeCommit (hb : s.Booked) (hw : s.PendingOk w)
    (hp : w.payloadSize ≤ payload.length) (hfit : w.fileBytes.toNat + s.others w.slot < 2 ^ 64) :
    (s.writeCommit w payload).Booked := by
  unfold Booked
  rw [total_writeCommit hw hp]
  have ht := s.total_eq w.slot
  rw [← hw.replaced] at ht
  unfold Booked at hb
  show (s.storedBytes - w.replacedBytes + w.fileBytes).toNat = _
  have hle : w.replacedBytes ≤ s.storedBytes := by rw [UInt64.le_iff_toNat_le]; omega
  rw [UInt64.toNat_add, UInt64.toNat_sub_of_le _ _ hle]
  omega

/-- **Erasing a file keeps the books.** -/
theorem Booked.erase (hb : s.Booked) {file : Bytes} (hl : s.files.lookup slot = some file) :
    ({ s with files := s.files.erase slot, storedBytes := s.storedBytes - size file } :
      ChunkFileStore).Booked ∧ s.total = file.length + s.others slot := by
  have ht := s.total_eq slot
  have hf : s.fileLength slot = file.length := by simp [fileLength, hl]
  rw [hf] at ht
  refine ⟨?_, ht⟩
  unfold Booked at hb ⊢
  have hlt := s.storedBytes.toNat_lt
  have hsize : (size file).toNat = file.length := by
    unfold size
    have hmax : UInt64.size = 2 ^ 64 := rfl
    rw [UInt64.toNat_ofNat_of_lt' (by omega)]
  show (s.storedBytes - size file).toNat = s.others slot
  have hle : size file ≤ s.storedBytes := by rw [UInt64.le_iff_toNat_le]; omega
  rw [UInt64.toNat_sub_of_le _ _ hle]
  omega

end ChunkFileStore

end KVFlux.V3
