import KVFlux.V3.ChunkFileStore

/-!
# The directory of the chunk files

A slot has two names in the `chunks` directory: its file, and the temporary file that a write
renames to it. The constructor of the store tells them apart by the suffix `.bin`.

* `fileName_inj`, `isChunkName_fileName`, `isChunkName_tempName`.
* `chunkBytes`, `diskBytes`: the bytes under chunk names, and under all names.
* **`recover_eq`**: the constructor counts the bytes under chunk names.
* **`diskBytes_rename_le`**: a rename takes no space.
* **`lookup_crashed`**, `chunkBytes_crashed`: a crash spares the files that were synced.
-/

namespace KVFlux.V3

/-- The name of `path_for(slot)` in the directory. -/
def fileName (slot : ℕ) : String :=
  let digits := toString slot
  "chunk_" ++ "".pushn '0' (6 - digits.length) ++ digits ++ ".bin"

/-- The temporary file of a write to the slot. -/
def tempName (slot : ℕ) : String := fileName slot ++ ".tmp"

/-- The names that the constructor counts. -/
def isChunkName (name : String) : Bool :=
  4 ≤ name.length ∧ name.toList.drop (name.length - 4) = ['.', 'b', 'i', 'n']

/-! ## Names -/

theorem toList_pushn (s : String) (c : Char) (n : ℕ) :
    (s.pushn c n).toList = s.toList ++ List.replicate n c := by
  rw [String.pushn_eq_repeat_push]
  induction n with
  | zero => simp [Nat.repeat]
  | succ n ih =>
    rw [Nat.repeat, String.toList_push, ih, List.replicate_succ', List.append_assoc]

theorem toList_fileName (slot : ℕ) : ∃ k, (fileName slot).toList =
    "chunk_".toList ++ ((List.replicate k '0' ++ Nat.toDigits 10 slot) ++ ".bin".toList) := by
  refine ⟨6 - (toString slot).length, ?_⟩
  have hd : (toString slot).toList = Nat.toDigits 10 slot := by
    rw [Nat.toString_eq_ofList_toDigits, String.toList_ofList]
  unfold fileName
  simp only [String.toList_append, toList_pushn, List.append_assoc]
  rw [hd]
  rfl

/-- The padded digits spell the slot. -/
theorem fileName_inj {i j : ℕ} (h : fileName i = fileName j) : i = j := by
  obtain ⟨k, hi⟩ := toList_fileName i
  obtain ⟨l, hj⟩ := toList_fileName j
  have hd : List.replicate k '0' ++ Nat.toDigits 10 i = List.replicate l '0' ++ Nat.toDigits 10 j :=
    List.append_cancel_right (List.append_cancel_left (hi.symm.trans (h ▸ hj)))
  have hv := congrArg (fun cs => Nat.ofDigitChars 10 cs 0) hd
  simpa [Nat.ofDigitChars_append, Nat.ofDigitChars_toDigits] using hv

theorem isChunkName_append {name suffix : String} (hs : suffix.toList.length = 4) :
    isChunkName (name ++ suffix) = decide (suffix.toList = ['.', 'b', 'i', 'n']) := by
  have hlen : (name ++ suffix).length = name.toList.length + 4 := by
    rw [← String.length_toList, String.toList_append, List.length_append, hs]
  unfold isChunkName
  rw [hlen, String.toList_append, Nat.add_sub_cancel, List.drop_left]
  simp

@[simp] theorem isChunkName_fileName (slot : ℕ) : isChunkName (fileName slot) = true :=
  (isChunkName_append (by decide)).trans (by decide)

@[simp] theorem isChunkName_tempName (slot : ℕ) : isChunkName (tempName slot) = false :=
  (isChunkName_append (by decide)).trans (by decide)

theorem fileName_ne_tempName (i j : ℕ) : fileName i ≠ tempName j := fun h => by
  have := isChunkName_tempName j
  rw [← h, isChunkName_fileName] at this
  cases this

/-! ## Files -/

/-- A file; `synced` says that its content is on the medium. -/
structure File where
  bytes : Bytes
  synced : Bool
deriving DecidableEq, Repr

abbrev Directory := AList fun _ : String => File

namespace Directory

/-- The bytes under the names that the constructor counts. -/
def chunkBytes (disk : Directory) : ℕ :=
  Assoc.weight (fun name f => if isChunkName name then f.bytes.length else 0) disk

/-- The bytes of all files. -/
def diskBytes (disk : Directory) : ℕ := Assoc.weight (fun _ f => f.bytes.length) disk

/-- The loop of the constructor over the directory. -/
def recover (disk : Directory) : UInt64 :=
  disk.entries.foldl
    (fun n e => if isChunkName e.1 then n + ChunkFileStore.size e.2.bytes else n) 0

/-- `write` to the open file. -/
def append (disk : Directory) (name : String) (bytes : Bytes) : Directory :=
  match disk.lookup name with
  | none => disk
  | some f => disk.insert name ⟨f.bytes ++ bytes, false⟩

/-- `fsync` of the open file. -/
def sync (disk : Directory) (name : String) : Directory :=
  match disk.lookup name with
  | none => disk
  | some f => disk.insert name { f with synced := true }

/-- `rename(source, target)`. -/
def rename (disk : Directory) (source target : String) : Directory :=
  match disk.lookup source with
  | none => disk
  | some f => (disk.erase source).insert target f

/-- A crash keeps what is on the medium, and leaves anything or nothing of the rest. -/
def crashed (disk : Directory) (left : String → Option Bytes) : Directory :=
  Assoc.sieve (fun name f => if f.synced then some f else (left name).map (⟨·, true⟩)) disk

variable {disk : Directory} {slot : ℕ} {f : File}

/-- **The constructor counts the published bytes.** -/
theorem recover_eq (disk : Directory) : disk.recover = UInt64.ofNat disk.chunkBytes := by
  have hfold : ∀ (es : List (Sigma fun _ : String => File)) (n : ℕ),
      es.foldl (fun n e => if isChunkName e.1 then n + ChunkFileStore.size e.2.bytes else n)
        (UInt64.ofNat n) =
      UInt64.ofNat
        (n + (es.map fun e => if isChunkName e.1 then e.2.bytes.length else 0).sum) := by
    intro es
    induction es with
    | nil => exact fun n => rfl
    | cons e es ih =>
      intro n
      rw [List.foldl_cons, List.map_cons, List.sum_cons, ← Nat.add_assoc]
      by_cases hc : isChunkName e.1
      · rw [if_pos hc, if_pos hc, ChunkFileStore.size, ← UInt64.ofNat_add]
        exact ih _
      · rw [if_neg hc, if_neg hc]
        exact ih _
  have := hfold disk.entries 0
  rwa [Nat.zero_add] at this

@[simp] theorem chunkBytes_insert_temp : chunkBytes (disk.insert (tempName slot) f) =
    disk.chunkBytes := by
  unfold chunkBytes
  rw [Assoc.weight_insert, Assoc.weight_erase_of_zero (by simp)]
  simp

@[simp] theorem chunkBytes_erase_temp : chunkBytes (disk.erase (tempName slot)) =
    disk.chunkBytes :=
  Assoc.weight_erase_of_zero (by simp)

theorem chunkBytes_insert : chunkBytes (disk.insert (fileName slot) f) =
    f.bytes.length + chunkBytes (disk.erase (fileName slot)) := by
  unfold chunkBytes
  rw [Assoc.weight_insert, if_pos (isChunkName_fileName slot)]

theorem chunkBytes_lookup (h : disk.lookup (fileName slot) = some f) :
    disk.chunkBytes = f.bytes.length + chunkBytes (disk.erase (fileName slot)) := by
  unfold chunkBytes
  rw [Assoc.weight_lookup h, if_pos (isChunkName_fileName slot)]

/-- A temporary file and the published files take their space side by side. -/
theorem temp_add_chunkBytes_le (h : disk.lookup (tempName slot) = some f) :
    f.bytes.length + disk.chunkBytes ≤ disk.diskBytes := by
  rw [← @chunkBytes_erase_temp disk slot]
  unfold diskBytes chunkBytes
  rw [Assoc.weight_lookup h]
  refine Nat.add_le_add_left (Assoc.weight_le fun name f => ?_) _
  split_ifs
  · exact le_rfl
  · exact Nat.zero_le _

theorem diskBytes_erase_le (disk : Directory) (name : String) :
    diskBytes (disk.erase name) ≤ disk.diskBytes := by
  unfold diskBytes
  cases h : disk.lookup name with
  | none => rw [Assoc.weight_erase_of_notMem (AList.lookup_eq_none.mp h)]
  | some f => rw [Assoc.weight_lookup h]; exact Nat.le_add_left _ _

/-- **A rename takes no space.** -/
theorem diskBytes_rename_le (disk : Directory) (source target : String) :
    (disk.rename source target).diskBytes ≤ disk.diskBytes := by
  unfold rename
  cases h : disk.lookup source with
  | none => exact le_rfl
  | some f =>
    have hins : diskBytes ((disk.erase source).insert target f) =
        f.bytes.length + diskBytes ((disk.erase source).erase target) :=
      Assoc.weight_insert _ _ _ _
    have hsrc : disk.diskBytes = f.bytes.length + diskBytes (disk.erase source) :=
      Assoc.weight_lookup h
    have := diskBytes_erase_le (disk.erase source) target
    show diskBytes ((disk.erase source).insert target f) ≤ _
    omega

/-- **A crash spares what was synced.** -/
theorem lookup_crashed {name : String} (left : String → Option Bytes)
    (h : ∀ f, disk.lookup name = some f → f.synced = true) :
    (disk.crashed left).lookup name = disk.lookup name := by
  unfold crashed
  rw [Assoc.lookup_sieve]
  cases hl : disk.lookup name with
  | none => rfl
  | some f => exact if_pos (h f hl)

theorem chunkBytes_crashed (left : String → Option Bytes)
    (h : ∀ name f, isChunkName name → disk.lookup name = some f → f.synced = true) :
    (disk.crashed left).chunkBytes = disk.chunkBytes := by
  refine Assoc.weight_sieve fun name f hl => ?_
  by_cases hc : isChunkName name
  · rw [if_pos (h name f hc hl)]
    rfl
  · rw [if_neg hc]
    cases f.synced with
    | true => exact if_neg hc
    | false =>
      cases left name with
      | none => rfl
      | some bytes => exact if_neg hc

end Directory

end KVFlux.V3
