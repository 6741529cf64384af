import KVFlux.Lib.LittleEndian
import KVFlux.V3.CacheDirectory

/-!
# The chunk file format

A chunk file is a header with the identity of the chunk, a checksum of the payload and a checksum of
the header, followed by the payload.

* `ChunkFileMeta`, `makeFileMeta`, `serializeHeader`, `chunkChecksum`, `encodeHeader`.
* `readHeader`: the header part of `ChunkFileStore::read`.
* **`readHeader_encode`**: reading an encoded header, when it succeeds with the identity it was
  encoded with, returns the metadata and leaves the payload.
-/

namespace KVFlux.V3

open Fallible

/-- The metadata in the header of a chunk file. -/
structure ChunkFileMeta where
  modelId : Bytes
  layoutVersion : UInt32 := 0
  dtype : DType := .Float16
  firstLayer : UInt32 := 0
  lastLayer : UInt32 := 0
  prefixHash : UInt64 := 0
  prefixTokens : Tokens
  validTokenCount : UInt64 := 0
  payloadSize : UInt64 := 0
deriving DecidableEq

/-- `make_file_meta`. -/
def makeFileMeta (key : CacheKey) (validTokens payloadSize : UInt64) : ChunkFileMeta where
  modelId := key.modelId
  layoutVersion := key.layoutVersion
  dtype := key.dtype
  firstLayer := key.firstLayer
  lastLayer := key.lastLayer
  prefixHash := key.prefixHash
  prefixTokens := key.prefixTokens
  validTokenCount := validTokens
  payloadSize := payloadSize

/-- `chunk_checksum`: FNV-1a, with a basis of its own. -/
def chunkChecksum (data : Bytes) : UInt64 :=
  data.foldl (fun h b => (h ^^^ b.toUInt64) * 1099511628211) 1469598103934665603

def magic : Bytes := [75, 86, 70, 88]

def formatVersion : UInt32 := 1

def putU32 (v : UInt32) : Bytes := LittleEndian.bytes 4 v.toNat
def putU64 (v : UInt64) : Bytes := LittleEndian.bytes 8 v.toNat
def takeU32 (bs : Bytes) : UInt32 := UInt32.ofNat (LittleEndian.value (bs.take 4))
def takeU64 (bs : Bytes) : UInt64 := UInt64.ofNat (LittleEndian.value (bs.take 8))

/-- The value of the enumerator. -/
def DType.toU32 : DType → UInt32
  | .Float16 => 0
  | .BFloat16 => 1
  | .Float32 => 2

/-- `static_cast<DType>`; the values above 2 are rejected first. -/
def DType.ofU32 (v : UInt32) : DType :=
  if v = 0 then .Float16 else if v = 1 then .BFloat16 else .Float32

/-- `serialize_header`; the last eight bytes wait for the payload checksum. -/
def serializeHeader (m : ChunkFileMeta) : Bytes :=
  magic ++ putU32 formatVersion ++ putU32 (UInt32.ofNat m.modelId.length) ++ m.modelId ++
    putU32 m.layoutVersion ++ putU32 (DType.toU32 m.dtype) ++ putU32 m.firstLayer ++ putU32 m.lastLayer ++
    putU64 m.prefixHash ++ putU64 (UInt64.ofNat m.prefixTokens.length) ++
    m.prefixTokens.flatMap (fun token => putU32 token.toUInt32) ++
    putU64 m.validTokenCount ++ putU64 m.payloadSize ++ putU64 0

/-- Fill in the payload checksum. -/
def patchChecksum (header : Bytes) (payloadSum : UInt64) : Bytes :=
  header.take (header.length - 8) ++ putU64 payloadSum

/-- The header as `write` puts it in the file. -/
def encodeHeader (m : ChunkFileMeta) (payloadSum : UInt64) : Bytes :=
  let header := patchChecksum (serializeHeader m) payloadSum
  header ++ putU64 (chunkChecksum header)

/-- `read_all` on the bytes that are left; `eof` is thrown where they end. -/
def readAll (eof : Exn) (n : ℕ) : Call Bytes Bytes := fun rest =>
  if n ≤ rest.length then .ok (rest.take n) (rest.drop n) else .error eof []

/-- The tokens of a byte string. -/
def takeTokens : ℕ → Bytes → Tokens
  | 0, _ => []
  | n + 1, bs => (takeU32 bs).toInt32 :: takeTokens n (bs.drop 4)

/-- The loop and the checks of `read` up to the payload: the metadata and the payload checksum. -/
def readHeader (eof : Exn) (path : String) (expected : ChunkFileMeta) (outCapacity : ℕ) :
    Call Bytes (ChunkFileMeta × UInt64) := do
  let lead ← readAll eof 12
  ensure (lead.take 4 = magic) (.chunkCorruptError ("bad chunk file magic: " ++ path))
  ensure (takeU32 (lead.drop 4) = formatVersion)
    (.chunkCorruptError ("unsupported chunk file version: " ++ path))
  let modelLen := takeU32 (lead.drop 8)
  ensure (modelLen ≤ 4096) (.chunkCorruptError ("implausible model id length: " ++ path))
  let modelId ← readAll eof modelLen.toNat
  let fixed ← readAll eof 32
  let dtype := takeU32 (fixed.drop 4)
  ensure (dtype ≤ 2) (.chunkCorruptError ("unknown dtype in chunk file: " ++ path))
  let prefixLen := takeU64 (fixed.drop 24)
  ensure (prefixLen ≤ 4194304) (.chunkCorruptError ("implausible prefix length: " ++ path))
  let tokenBytes ← readAll eof (prefixLen.toNat * 4)
  let tail ← readAll eof 24
  let sumBytes ← readAll eof 8
  let m : ChunkFileMeta :=
    { modelId := modelId, layoutVersion := takeU32 fixed, dtype := DType.ofU32 dtype,
      firstLayer := takeU32 (fixed.drop 8), lastLayer := takeU32 (fixed.drop 12),
      prefixHash := takeU64 (fixed.drop 16), prefixTokens := takeTokens prefixLen.toNat tokenBytes,
      validTokenCount := takeU64 tail, payloadSize := takeU64 (tail.drop 8) }
  let payloadSum := takeU64 (tail.drop 16)
  ensure (chunkChecksum (patchChecksum (serializeHeader m) payloadSum) = takeU64 sumBytes)
    (.chunkCorruptError ("chunk header checksum mismatch: " ++ path))
  ensure (m.modelId = expected.modelId ∧ m.layoutVersion = expected.layoutVersion ∧
      m.dtype = expected.dtype ∧ m.firstLayer = expected.firstLayer ∧
      m.lastLayer = expected.lastLayer ∧ m.prefixHash = expected.prefixHash ∧
      m.prefixTokens = expected.prefixTokens)
    (.chunkCorruptError ("chunk file identity mismatch: " ++ path))
  ensure (m.payloadSize.toNat ≤ outCapacity)
    (.chunkCorruptError ("chunk payload exceeds destination capacity: " ++ path))
  return (m, payloadSum)

/-! ## Words and lengths -/

variable {eof : Exn} {path : String} {m m' expected : ChunkFileMeta} {bs rest a b : Bytes}
  {n outCapacity : ℕ} {sum sum' : UInt64}

@[simp] theorem length_putU32 (v : UInt32) : (putU32 v).length = 4 := LittleEndian.length_bytes 4 _
@[simp] theorem length_putU64 (v : UInt64) : (putU64 v).length = 8 := LittleEndian.length_bytes 8 _
@[simp] theorem length_magic : magic.length = 4 := rfl

@[simp] theorem takeU32_putU32 (v : UInt32) (rest : Bytes) : takeU32 (putU32 v ++ rest) = v := by
  unfold takeU32
  rw [List.take_left' (length_putU32 v)]
  unfold putU32
  rw [LittleEndian.value_bytes_of_lt v.toNat_lt]
  exact UInt32.ofNat_toNat

@[simp] theorem takeU64_putU64 (v : UInt64) (rest : Bytes) : takeU64 (putU64 v ++ rest) = v := by
  unfold takeU64
  rw [List.take_left' (length_putU64 v)]
  unfold putU64
  rw [LittleEndian.value_bytes_of_lt v.toNat_lt]
  exact UInt64.ofNat_toNat

@[simp] theorem length_takeTokens (n : ℕ) (bs : Bytes) : (takeTokens n bs).length = n := by
  induction n generalizing bs with
  | zero => rfl
  | succ n ih => simp [takeTokens, ih]

theorem length_tokenBytes (p : Tokens) :
    (p.flatMap fun token => putU32 token.toUInt32).length = p.length * 4 := by
  induction p with
  | nil => rfl
  | cons t p ih => rw [List.flatMap_cons, List.length_append, ih, length_putU32, List.length_cons]; omega

/-! ## The header in its parts -/

/-- The first twelve bytes. -/
def leadBytes (m : ChunkFileMeta) : Bytes :=
  magic ++ (putU32 formatVersion ++ putU32 (UInt32.ofNat m.modelId.length))

/-- The 32 bytes after the model id. -/
def fixedBytes (m : ChunkFileMeta) : Bytes :=
  putU32 m.layoutVersion ++ (putU32 (DType.toU32 m.dtype) ++ (putU32 m.firstLayer ++
    (putU32 m.lastLayer ++ (putU64 m.prefixHash ++ putU64 (UInt64.ofNat m.prefixTokens.length)))))

/-- The 24 bytes after the tokens. -/
def tailBytes (m : ChunkFileMeta) (sum : UInt64) : Bytes :=
  putU64 m.validTokenCount ++ (putU64 m.payloadSize ++ putU64 sum)

@[simp] theorem length_leadBytes (m : ChunkFileMeta) : (leadBytes m).length = 12 := by
  simp [leadBytes]

@[simp] theorem length_fixedBytes (m : ChunkFileMeta) : (fixedBytes m).length = 32 := by
  simp [fixedBytes]

@[simp] theorem length_tailBytes (m : ChunkFileMeta) (sum : UInt64) :
    (tailBytes m sum).length = 24 := by
  simp [tailBytes]

theorem patchChecksum_serializeHeader (m : ChunkFileMeta) (sum : UInt64) :
    patchChecksum (serializeHeader m) sum = leadBytes m ++ (m.modelId ++ (fixedBytes m ++
      ((m.prefixTokens.flatMap fun token => putU32 token.toUInt32) ++ tailBytes m sum))) := by
  have hsplit : serializeHeader m = (leadBytes m ++ (m.modelId ++ (fixedBytes m ++
      ((m.prefixTokens.flatMap fun token => putU32 token.toUInt32) ++
        (putU64 m.validTokenCount ++ putU64 m.payloadSize))))) ++ putU64 0 := by
    simp only [serializeHeader, leadBytes, fixedBytes, List.append_assoc]
  unfold patchChecksum
  rw [hsplit, List.length_append, length_putU64, Nat.add_sub_cancel, List.take_left]
  simp only [tailBytes, List.append_assoc]

theorem encodeHeader_eq (m : ChunkFileMeta) (sum : UInt64) : ∃ headerSum,
    encodeHeader m sum = leadBytes m ++ (m.modelId ++ (fixedBytes m ++
      ((m.prefixTokens.flatMap fun token => putU32 token.toUInt32) ++
        (tailBytes m sum ++ putU64 headerSum)))) := by
  refine ⟨chunkChecksum (patchChecksum (serializeHeader m) sum), ?_⟩
  unfold encodeHeader
  simp only
  rw [patchChecksum_serializeHeader]
  simp only [List.append_assoc]

/-! ## Reading -/

theorem readAll_ok (h : readAll eof n bs = .ok a rest) : bs = a ++ rest ∧ a.length = n := by
  unfold readAll at h
  split_ifs at h with hn
  cases h
  exact ⟨(List.take_append_drop n bs).symm, by rw [List.length_take]; omega⟩

/-- The stages of a read header. -/
theorem readHeader_ok (h : readHeader eof path expected outCapacity bs = .ok (m, sum) rest) :
    ∃ lead fixed tokenBytes tail sumBytes,
      bs = lead ++ (m.modelId ++ (fixed ++ (tokenBytes ++ (tail ++ (sumBytes ++ rest))))) ∧
      lead.length = 12 ∧ m.modelId.length = (takeU32 (lead.drop 8)).toNat ∧ fixed.length = 32 ∧
      tokenBytes.length = m.prefixTokens.length * 4 ∧ tail.length = 24 ∧ sumBytes.length = 8 ∧
      m.payloadSize = takeU64 (tail.drop 8) ∧ sum = takeU64 (tail.drop 16) ∧
      m.modelId = expected.modelId ∧ m.prefixTokens = expected.prefixTokens ∧
      m.payloadSize.toNat ≤ outCapacity := by
  unfold readHeader at h
  obtain ⟨lead, s₁, h₁, h⟩ := bind_ok h
  obtain ⟨_, s₂, h₂, h⟩ := bind_ok h
  obtain ⟨_, s₃, h₃, h⟩ := bind_ok h
  obtain ⟨_, s₄, h₄, h⟩ := bind_ok h
  obtain ⟨modelId, s₅, h₅, h⟩ := bind_ok h
  obtain ⟨fixed, s₆, h₆, h⟩ := bind_ok h
  obtain ⟨_, s₇, h₇, h⟩ := bind_ok h
  obtain ⟨_, s₈, h₈, h⟩ := bind_ok h
  obtain ⟨tokenBytes, s₉, h₉, h⟩ := bind_ok h
  obtain ⟨tail, s₁₀, h₁₀, h⟩ := bind_ok h
  obtain ⟨sumBytes, s₁₁, h₁₁, h⟩ := bind_ok h
  obtain ⟨_, s₁₂, h₁₂, h⟩ := bind_ok h
  obtain ⟨_, s₁₃, h₁₃, h⟩ := bind_ok h
  obtain ⟨_, s₁₄, h₁₄, h⟩ := bind_ok h
  cases h
  obtain ⟨rfl, hl₁⟩ := readAll_ok h₁
  obtain ⟨-, rfl⟩ := ensure_ok h₂
  obtain ⟨-, rfl⟩ := ensure_ok h₃
  obtain ⟨-, rfl⟩ := ensure_ok h₄
  obtain ⟨rfl, hl₅⟩ := readAll_ok h₅
  obtain ⟨rfl, hl₆⟩ := readAll_ok h₆
  obtain ⟨-, rfl⟩ := ensure_ok h₇
  obtain ⟨-, rfl⟩ := ensure_ok h₈
  obtain ⟨rfl, hl₉⟩ := readAll_ok h₉
  obtain ⟨rfl, hl₁₀⟩ := readAll_ok h₁₀
  obtain ⟨rfl, hl₁₁⟩ := readAll_ok h₁₁
  obtain ⟨-, rfl⟩ := ensure_ok h₁₂
  obtain ⟨hid, rfl⟩ := ensure_ok h₁₃
  obtain ⟨hcap, rfl⟩ := ensure_ok h₁₄
  exact ⟨lead, fixed, tokenBytes, tail, sumBytes, rfl, hl₁, hl₅, hl₆, by simpa using hl₉, hl₁₀,
    hl₁₁, rfl, rfl, hid.1, hid.2.2.2.2.2.2, hcap⟩

/-- **A header that was encoded** and is accepted for the same identity yields its payload size, its
payload checksum and leaves the payload, even if the file is cut short. -/
theorem readHeader_encode {payload : Bytes} {k : ℕ} (hm : m.modelId = expected.modelId)
    (hp : m.prefixTokens = expected.prefixTokens)
    (h : readHeader eof path expected outCapacity ((encodeHeader m sum ++ payload).take k) =
      .ok (m', sum') rest) :
    m'.payloadSize = m.payloadSize ∧ sum' = sum ∧ m'.payloadSize.toNat ≤ outCapacity ∧
      ∃ more, payload = rest ++ more := by
  obtain ⟨lead, fixed, tokenBytes, tail, sumBytes, hbs, hl, hmod, hf, ht, hta, hsb, hps, hsum,
    hid, hid', hcap⟩ := readHeader_ok h
  obtain ⟨headerSum, he⟩ := encodeHeader_eq m sum
  have hall : lead ++ (m'.modelId ++ (fixed ++ (tokenBytes ++ (tail ++ (sumBytes ++
      (rest ++ (encodeHeader m sum ++ payload).drop k)))))) =
      leadBytes m ++ (m.modelId ++ (fixedBytes m ++
        ((m.prefixTokens.flatMap fun token => putU32 token.toUInt32) ++
          (tailBytes m sum ++ (putU64 headerSum ++ payload))))) := by
    have := List.take_append_drop k (encodeHeader m sum ++ payload)
    rw [hbs] at this
    simp only [List.append_assoc] at this
    rw [this, he]
    simp only [List.append_assoc]
  obtain ⟨-, hall⟩ := List.append_inj hall (by rw [hl, length_leadBytes])
  rw [hid, ← hm] at hall
  obtain ⟨-, hall⟩ := List.append_inj hall rfl
  obtain ⟨-, hall⟩ := List.append_inj hall (by rw [hf, length_fixedBytes])
  obtain ⟨-, hall⟩ := List.append_inj hall (by rw [ht, hid', ← hp, length_tokenBytes])
  obtain ⟨htail, hall⟩ := List.append_inj hall (by rw [hta, length_tailBytes])
  obtain ⟨-, hrest⟩ := List.append_inj hall (by rw [hsb, length_putU64])
  refine ⟨?_, ?_, hcap, _, hrest.symm⟩
  · rw [hps, htail]
    unfold tailBytes
    rw [List.drop_left' (length_putU64 _), takeU64_putU64]
  · rw [hsum, htail]
    unfold tailBytes
    rw [← List.append_assoc, List.drop_left' (by simp)]
    have := takeU64_putU64 sum []
    rwa [List.append_nil] at this

end KVFlux.V3
