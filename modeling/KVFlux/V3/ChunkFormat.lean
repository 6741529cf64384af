import KVFlux.V3.ChunkFileStore

/-!
# The chunk file format is exact

What `read` accepts is what `write` puts in a file, within the bounds that `read` imposes.

* `putU32_takeU32`, `putU64_takeU64`, `tokenBytes_takeTokens`: words read back byte for byte.
* `SameIdentity`, **`readHeader_iff`**: an accepted header is the encoding of what was read.
* `encode`, `write_content`: the bytes of a written file.
* `Decodes`, **`codec_exact`**: `read` succeeds exactly on files that start with an encoding.
* **`readable_iff`**: a chunk that was written can be read back unless its key is too long.
-/

namespace KVFlux.V3

open Fallible

variable {eof : Exn} {path : String} {m m' expected : ChunkFileMeta} {bs rest a b : Bytes}
  {n outCapacity : ℕ} {sum sum' : UInt64} {v : UInt32}

/-! ## Words byte for byte -/

theorem putU32_takeU32 (h : bs.length = 4) : putU32 (takeU32 bs) = bs := by
  have hlt : LittleEndian.value bs < 2 ^ 32 := by
    have := LittleEndian.value_lt bs
    rwa [h] at this
  unfold putU32 takeU32
  rw [List.take_of_length_le h.le, UInt32.toNat_ofNat_of_lt' hlt, ← h]
  exact LittleEndian.bytes_value bs

theorem putU64_takeU64 (h : bs.length = 8) : putU64 (takeU64 bs) = bs := by
  have hlt : LittleEndian.value bs < 2 ^ 64 := by
    have := LittleEndian.value_lt bs
    rwa [h] at this
  unfold putU64 takeU64
  rw [List.take_of_length_le h.le, UInt64.toNat_ofNat_of_lt' hlt, ← h]
  exact LittleEndian.bytes_value bs

theorem takeU32_take (bs : Bytes) : takeU32 (bs.take 4) = takeU32 bs := by
  simp [takeU32, List.take_take]

theorem takeU64_take (bs : Bytes) : takeU64 (bs.take 8) = takeU64 bs := by
  simp [takeU64, List.take_take]

/-- A word in front of the rest. -/
theorem putU32_append (h : 4 ≤ bs.length) : putU32 (takeU32 bs) ++ bs.drop 4 = bs := by
  rw [← takeU32_take, putU32_takeU32 (by simpa using h), List.take_append_drop]

theorem putU64_append (h : 8 ≤ bs.length) : putU64 (takeU64 bs) ++ bs.drop 8 = bs := by
  rw [← takeU64_take, putU64_takeU64 (by simpa using h), List.take_append_drop]

theorem tokenBytes_takeTokens (n : ℕ) : ∀ bs : Bytes, bs.length = n * 4 →
    ((takeTokens n bs).flatMap fun token => putU32 token.toUInt32) = bs := by
  induction n with
  | zero => intro bs h; exact (List.eq_nil_of_length_eq_zero (by omega)).symm
  | succ n ih =>
    intro bs h
    rw [takeTokens, List.flatMap_cons, UInt32.toUInt32_toInt32, ih (bs.drop 4)
      (by rw [List.length_drop]; omega)]
    exact putU32_append (by omega)

theorem takeTokens_tokenBytes (p : Tokens) (rest : Bytes) :
    takeTokens p.length ((p.flatMap fun token => putU32 token.toUInt32) ++ rest) = p := by
  induction p with
  | nil => rfl
  | cons t p ih =>
    rw [List.flatMap_cons, List.length_cons, takeTokens, List.append_assoc, takeU32_putU32,
      List.drop_left' (length_putU32 _), ih]
    rfl

theorem ofU32_toU32 (d : DType) : DType.ofU32 (DType.toU32 d) = d := by cases d <;> rfl

theorem toU32_le (d : DType) : DType.toU32 d ≤ 2 := by cases d <;> decide

theorem toU32_ofU32 (h : v ≤ 2) : DType.toU32 (DType.ofU32 v) = v := by
  unfold DType.ofU32
  split_ifs with h0 h1
  · rw [h0]; rfl
  · rw [h1]; rfl
  · have hle := UInt32.le_iff_toNat_le.mp h
    have hn0 : v.toNat ≠ 0 := fun he => h0 (UInt32.toNat_inj.mp he)
    have hn1 : v.toNat ≠ 1 := fun he => h1 (UInt32.toNat_inj.mp he)
    refine UInt32.toNat_inj.mp ?_
    show 2 = v.toNat
    change v.toNat ≤ 2 at hle
    omega

/-! ## The fields of the parts -/

theorem leadBytes_magic (m : ChunkFileMeta) : (leadBytes m).take 4 = magic :=
  List.take_left' length_magic

theorem leadBytes_version (m : ChunkFileMeta) : takeU32 ((leadBytes m).drop 4) = formatVersion := by
  rw [leadBytes, List.drop_left' length_magic, takeU32_putU32]

theorem leadBytes_modelLen (m : ChunkFileMeta) :
    takeU32 ((leadBytes m).drop 8) = UInt32.ofNat m.modelId.length := by
  rw [leadBytes, ← List.append_assoc, List.drop_left' (by simp)]
  have := takeU32_putU32 (UInt32.ofNat m.modelId.length) []
  rwa [List.append_nil] at this

theorem fixedBytes_layoutVersion (m : ChunkFileMeta) : takeU32 (fixedBytes m) = m.layoutVersion :=
  takeU32_putU32 _ _

theorem fixedBytes_dtype (m : ChunkFileMeta) : takeU32 ((fixedBytes m).drop 4) =
    DType.toU32 m.dtype := by
  rw [fixedBytes, List.drop_left' (length_putU32 _), takeU32_putU32]

theorem fixedBytes_firstLayer (m : ChunkFileMeta) :
    takeU32 ((fixedBytes m).drop 8) = m.firstLayer := by
  rw [fixedBytes, ← List.append_assoc, List.drop_left' (by simp), takeU32_putU32]

theorem fixedBytes_lastLayer (m : ChunkFileMeta) :
    takeU32 ((fixedBytes m).drop 12) = m.lastLayer := by
  rw [fixedBytes, ← List.append_assoc, ← List.append_assoc, List.drop_left' (by simp),
    takeU32_putU32]

theorem fixedBytes_prefixHash (m : ChunkFileMeta) :
    takeU64 ((fixedBytes m).drop 16) = m.prefixHash := by
  rw [fixedBytes, ← List.append_assoc, ← List.append_assoc, ← List.append_assoc,
    List.drop_left' (by simp), takeU64_putU64]

theorem fixedBytes_prefixLen (m : ChunkFileMeta) :
    takeU64 ((fixedBytes m).drop 24) = UInt64.ofNat m.prefixTokens.length := by
  rw [fixedBytes, ← List.append_assoc, ← List.append_assoc, ← List.append_assoc,
    ← List.append_assoc, List.drop_left' (by simp)]
  have := takeU64_putU64 (UInt64.ofNat m.prefixTokens.length) []
  rwa [List.append_nil] at this

theorem tailBytes_validTokenCount (m : ChunkFileMeta) (sum : UInt64) :
    takeU64 (tailBytes m sum) = m.validTokenCount :=
  takeU64_putU64 _ _

theorem tailBytes_payloadSize (m : ChunkFileMeta) (sum : UInt64) :
    takeU64 ((tailBytes m sum).drop 8) = m.payloadSize := by
  rw [tailBytes, List.drop_left' (length_putU64 _), takeU64_putU64]

theorem tailBytes_payloadSum (m : ChunkFileMeta) (sum : UInt64) :
    takeU64 ((tailBytes m sum).drop 16) = sum := by
  rw [tailBytes, ← List.append_assoc, List.drop_left' (by simp)]
  have := takeU64_putU64 sum []
  rwa [List.append_nil] at this

/-! ## Headers -/

/-- The identity fields, which `read` compares. -/
abbrev SameIdentity (m expected : ChunkFileMeta) : Prop :=
  m.modelId = expected.modelId ∧ m.layoutVersion = expected.layoutVersion ∧
    m.dtype = expected.dtype ∧ m.firstLayer = expected.firstLayer ∧
    m.lastLayer = expected.lastLayer ∧ m.prefixHash = expected.prefixHash ∧
    m.prefixTokens = expected.prefixTokens

/-- What `read` accepts of a header. -/
structure Plausible (m expected : ChunkFileMeta) (outCapacity : ℕ) : Prop where
  modelId_le : m.modelId.length ≤ 4096
  prefixTokens_le : m.prefixTokens.length ≤ 2 ^ 22
  identity : SameIdentity m expected
  payloadSize_le : m.payloadSize.toNat ≤ outCapacity

theorem encodeHeader_parts (m : ChunkFileMeta) (sum : UInt64) : encodeHeader m sum =
    leadBytes m ++ (m.modelId ++ (fixedBytes m ++
      ((m.prefixTokens.flatMap fun token => putU32 token.toUInt32) ++ (tailBytes m sum ++
        putU64 (chunkChecksum (patchChecksum (serializeHeader m) sum)))))) := by
  unfold encodeHeader
  simp only
  rw [patchChecksum_serializeHeader]
  simp only [List.append_assoc]

theorem readAll_append (h : a.length = n) : readAll eof n (a ++ rest) = .ok a rest := by
  unfold readAll
  rw [if_pos (by rw [List.length_append]; omega), List.take_left' h, List.drop_left' h]

/-- **An encoded header is accepted.** -/
theorem readHeader_complete (h : Plausible m expected outCapacity) :
    readHeader eof path expected outCapacity (encodeHeader m sum ++ rest) =
      .ok (m, sum) rest := by
  have hmodel : (UInt32.ofNat m.modelId.length).toNat = m.modelId.length :=
    UInt32.toNat_ofNat_of_lt' (by have := h.modelId_le; show _ < 2 ^ 32; omega)
  have hpre : (UInt64.ofNat m.prefixTokens.length).toNat = m.prefixTokens.length :=
    UInt64.toNat_ofNat_of_lt' (by have := h.prefixTokens_le; show _ < 2 ^ 64; omega)
  have hmodel_le : takeU32 ((leadBytes m).drop 8) ≤ 4096 := by
    rw [leadBytes_modelLen, UInt32.le_iff_toNat_le, hmodel]; exact h.modelId_le
  have hdtype_le : takeU32 ((fixedBytes m).drop 4) ≤ 2 := by
    rw [fixedBytes_dtype]; exact toU32_le m.dtype
  have hpre_le : takeU64 ((fixedBytes m).drop 24) ≤ 4194304 := by
    rw [fixedBytes_prefixLen, UInt64.le_iff_toNat_le, hpre]; exact h.prefixTokens_le
  have htokens : takeTokens m.prefixTokens.length
      (m.prefixTokens.flatMap fun token => putU32 token.toUInt32) = m.prefixTokens := by
    have := takeTokens_tokenBytes m.prefixTokens []
    rwa [List.append_nil] at this
  have hsum : ∀ w : UInt64, takeU64 (putU64 w) = w := fun w => by
    have := takeU64_putU64 w []
    rwa [List.append_nil] at this
  have hread : (⟨m.modelId, takeU32 (fixedBytes m), DType.ofU32 (takeU32 ((fixedBytes m).drop 4)),
      takeU32 ((fixedBytes m).drop 8), takeU32 ((fixedBytes m).drop 12),
      takeU64 ((fixedBytes m).drop 16),
      takeTokens (takeU64 ((fixedBytes m).drop 24)).toNat
        (m.prefixTokens.flatMap fun token => putU32 token.toUInt32),
      takeU64 (tailBytes m sum), takeU64 ((tailBytes m sum).drop 8)⟩ : ChunkFileMeta) = m := by
    rw [fixedBytes_layoutVersion, fixedBytes_dtype, ofU32_toU32, fixedBytes_firstLayer,
      fixedBytes_lastLayer, fixedBytes_prefixHash, fixedBytes_prefixLen, hpre, htokens,
      tailBytes_validTokenCount, tailBytes_payloadSize]
  rw [encodeHeader_parts]
  simp only [List.append_assoc]
  unfold readHeader
  refine (bind_of_ok (readAll_append (length_leadBytes m))).trans ?_
  refine (bind_of_ok (ensure_apply (leadBytes_magic m))).trans ?_
  refine (bind_of_ok (ensure_apply (leadBytes_version m))).trans ?_
  refine (bind_of_ok (ensure_apply hmodel_le)).trans ?_
  refine (bind_of_ok (readAll_append (by rw [leadBytes_modelLen, hmodel]))).trans ?_
  refine (bind_of_ok (readAll_append (length_fixedBytes m))).trans ?_
  refine (bind_of_ok (ensure_apply hdtype_le)).trans ?_
  refine (bind_of_ok (ensure_apply hpre_le)).trans ?_
  refine (bind_of_ok (readAll_append
    (by rw [length_tokenBytes, fixedBytes_prefixLen, hpre]))).trans ?_
  refine (bind_of_ok (readAll_append (length_tailBytes m sum))).trans ?_
  refine (bind_of_ok (readAll_append (length_putU64 _))).trans ?_
  rw [hread, tailBytes_payloadSum]
  refine (bind_of_ok (ensure_apply (hsum _).symm)).trans ?_
  refine (bind_of_ok (ensure_apply h.identity)).trans ?_
  exact bind_of_ok (ensure_apply h.payloadSize_le)

theorem lead_parts (h : bs.length = 12) :
    bs.take 4 ++ (putU32 (takeU32 (bs.drop 4)) ++ putU32 (takeU32 (bs.drop 8))) = bs := by
  have h8 : bs.drop 8 = (bs.drop 4).drop 4 := by rw [List.drop_drop]
  rw [putU32_takeU32 (show (bs.drop 8).length = 4 by rw [List.length_drop]; omega), h8,
    putU32_append (by rw [List.length_drop]; omega), List.take_append_drop]

theorem fixed_parts (h : bs.length = 32) :
    putU32 (takeU32 bs) ++ (putU32 (takeU32 (bs.drop 4)) ++ (putU32 (takeU32 (bs.drop 8)) ++
      (putU32 (takeU32 (bs.drop 12)) ++ (putU64 (takeU64 (bs.drop 16)) ++
        putU64 (takeU64 (bs.drop 24)))))) = bs := by
  have h24 : bs.drop 24 = (bs.drop 16).drop 8 := by rw [List.drop_drop]
  have h16 : bs.drop 16 = (bs.drop 12).drop 4 := by rw [List.drop_drop]
  have h12 : bs.drop 12 = (bs.drop 8).drop 4 := by rw [List.drop_drop]
  have h8 : bs.drop 8 = (bs.drop 4).drop 4 := by rw [List.drop_drop]
  rw [putU64_takeU64 (show (bs.drop 24).length = 8 by rw [List.length_drop]; omega), h24,
    putU64_append (by rw [List.length_drop]; omega), h16,
    putU32_append (by rw [List.length_drop]; omega), h12,
    putU32_append (by rw [List.length_drop]; omega), h8,
    putU32_append (by rw [List.length_drop]; omega), putU32_append (by omega)]

theorem tail_parts (h : bs.length = 24) :
    putU64 (takeU64 bs) ++ (putU64 (takeU64 (bs.drop 8)) ++ putU64 (takeU64 (bs.drop 16))) =
      bs := by
  have h16 : bs.drop 16 = (bs.drop 8).drop 8 := by rw [List.drop_drop]
  rw [putU64_takeU64 (show (bs.drop 16).length = 8 by rw [List.length_drop]; omega), h16,
    putU64_append (by rw [List.length_drop]; omega), putU64_append (by omega)]

/-- The parts of an accepted header spell the fields that were read. -/
theorem readHeader_sound (h : readHeader eof path expected outCapacity bs = .ok (m, sum) rest) :
    bs = encodeHeader m sum ++ rest ∧ Plausible m expected outCapacity := by
  unfold readHeader at h
  obtain ⟨lead, s₁, h₁, h⟩ := bind_ok h
  obtain ⟨_, s₂, h₂, h⟩ := bind_ok h
  obtain ⟨_, s₃, h₃, h⟩ := bind_ok h
  obtain ⟨_, s₄, h₄, h⟩ := bind_ok h
  obtain ⟨modelId, s₅, h₅, h⟩ := bind_ok h
  obtain ⟨fixed, s₆, h₆, h⟩ := bind_ok h
  obtain ⟨_, s₇, h₇, h⟩ := bind_ok h
  obtain ⟨_, s₈, h₈, h⟩ := bind_ok h
  obtain ⟨tokenBytes, s₉, h₉, h⟩ := bind_ok h
  obtain ⟨tail, s₁₀, h₁₀, h⟩ := bind_ok h
  obtain ⟨sumBytes, s₁₁, h₁₁, h⟩ := bind_ok h
  obtain ⟨_, s₁₂, h₁₂, h⟩ := bind_ok h
  obtain ⟨_, s₁₃, h₁₃, h⟩ := bind_ok h
  obtain ⟨_, s₁₄, h₁₄, h⟩ := bind_ok h
  cases h
  obtain ⟨rfl, hl₁⟩ := readAll_ok h₁
  obtain ⟨hmagic, rfl⟩ := ensure_ok h₂
  obtain ⟨hversion, rfl⟩ := ensure_ok h₃
  obtain ⟨hmodel, rfl⟩ := ensure_ok h₄
  obtain ⟨rfl, hl₅⟩ := readAll_ok h₅
  obtain ⟨rfl, hl₆⟩ := readAll_ok h₆
  obtain ⟨hdtype, rfl⟩ := ensure_ok h₇
  obtain ⟨hpre, rfl⟩ := ensure_ok h₈
  obtain ⟨rfl, hl₉⟩ := readAll_ok h₉
  obtain ⟨rfl, hl₁₀⟩ := readAll_ok h₁₀
  obtain ⟨rfl, hl₁₁⟩ := readAll_ok h₁₁
  obtain ⟨hsum, rfl⟩ := ensure_ok h₁₂
  obtain ⟨hid, rfl⟩ := ensure_ok h₁₃
  obtain ⟨hcap, rfl⟩ := ensure_ok h₁₄
  have hm : modelId.length ≤ 4096 := by
    rw [hl₅]; exact UInt32.le_iff_toNat_le.mp hmodel
  have hp : (takeU64 (fixed.drop 24)).toNat ≤ 2 ^ 22 := UInt64.le_iff_toNat_le.mp hpre
  refine ⟨?_, hm, by simpa using hp, hid, hcap⟩
  rw [encodeHeader_parts, hsum]
  generalize hmeta : (⟨modelId, takeU32 fixed, DType.ofU32 (takeU32 (fixed.drop 4)),
      takeU32 (fixed.drop 8), takeU32 (fixed.drop 12), takeU64 (fixed.drop 16),
      takeTokens (takeU64 (fixed.drop 24)).toNat tokenBytes, takeU64 tail,
      takeU64 (tail.drop 8)⟩ : ChunkFileMeta) = m
  have hlead : lead = leadBytes m := by
    rw [← hmeta, leadBytes, hl₅, UInt32.ofNat_toNat, ← hmagic, ← hversion]
    exact (lead_parts hl₁).symm
  have hfixed : fixed = fixedBytes m := by
    rw [← hmeta, fixedBytes, toU32_ofU32 hdtype, length_takeTokens, UInt64.ofNat_toNat]
    exact (fixed_parts hl₆).symm
  have htokens : tokenBytes = m.prefixTokens.flatMap fun token => putU32 token.toUInt32 := by
    rw [← hmeta]
    exact (tokenBytes_takeTokens _ _ hl₉).symm
  have htail : tail = tailBytes m (takeU64 (tail.drop 16)) := by
    rw [← hmeta, tailBytes]
    exact (tail_parts hl₁₀).symm
  have hmodelId : modelId = m.modelId := by rw [← hmeta]
  rw [putU64_takeU64 hl₁₁, ← hlead, ← hfixed, ← htokens, ← htail, ← hmodelId]
  simp only [List.append_assoc]

/-- **What `read` accepts as a header** is the encoding of the metadata it returns. -/
theorem readHeader_iff : readHeader eof path expected outCapacity bs = .ok (m, sum) rest ↔
    bs = encodeHeader m sum ++ rest ∧ Plausible m expected outCapacity :=
  ⟨readHeader_sound, fun ⟨hbs, h⟩ => hbs ▸ readHeader_complete h⟩

/-! ## Errors of the reader -/

/-- Whatever the call throws is a corruption error. -/
def Corrupts {σ α : Type} (x : Call σ α) : Prop :=
  ∀ s e s', x s = .error e s' → ∃ what, e = .chunkCorruptError what

namespace Corrupts

variable {σ α β : Type}

theorem pure (c : α) : Corrupts (Pure.pure c : Call σ α) := fun _ _ _ => nofun

theorem ensure {p : Prop} [Decidable p] {what : String} :
    Corrupts (Fallible.ensure p (.chunkCorruptError what) : Call σ PUnit) := by
  intro s e s' h
  unfold Fallible.ensure at h
  split_ifs at h
  cases h
  exact ⟨what, rfl⟩

theorem readAll {what : String} : Corrupts (V3.readAll (.chunkCorruptError what) n) := by
  intro s e s' h
  unfold V3.readAll at h
  split_ifs at h
  cases h
  exact ⟨what, rfl⟩

theorem bind {x : Call σ α} {f : α → Call σ β} (hx : Corrupts x) (hf : ∀ c, Corrupts (f c)) :
    Corrupts (x >>= f) := by
  intro s e s' h
  rw [bind_apply] at h
  cases hc : x s with
  | ok c s₁ => rw [hc] at h; exact hf c _ _ _ h
  | error e₁ s₁ => rw [hc] at h; cases h; exact hx _ _ _ hc

end Corrupts

theorem readHeader_corrupts {what : String} :
    Corrupts (readHeader (.chunkCorruptError what) path expected outCapacity) := by
  unfold readHeader
  refine .bind .readAll fun _ => .bind .ensure fun _ => .bind .ensure fun _ => .bind .ensure
    fun _ => .bind .readAll fun _ => .bind .readAll fun _ => .bind .ensure fun _ => .bind .ensure
    fun _ => .bind .readAll fun _ => .bind .readAll fun _ => .bind .readAll fun _ => ?_
  exact .bind .ensure fun _ => .bind .ensure fun _ => .bind .ensure fun _ => .pure _

/-! ## Whole files -/

/-- The bytes of a chunk file, as `write` puts them there (`write_content`). -/
def encode (m : ChunkFileMeta) (payload : Bytes) : Bytes :=
  encodeHeader m (chunkChecksum payload) ++ payload

/-- The file starts with the encoding of metadata and payload that `read` may return. -/
structure Decodes (expected : ChunkFileMeta) (outCapacity : ℕ) (file : Bytes) (m : ChunkFileMeta)
    (payload : Bytes) : Prop where
  header : Plausible m expected outCapacity
  length_eq : payload.length = m.payloadSize.toNat
  starts : encode m payload <+: file

namespace ChunkFileStore

variable {s s' : ChunkFileStore} {slot : ℕ} {file payload payload' out out' : Bytes}

theorem readContent_of_decodes (h : Decodes expected outCapacity file m payload) :
    readContent eof path expected outCapacity file out =
      .ok (some m) (payload ++ out.drop payload.length) := by
  obtain ⟨more, rfl⟩ := h.starts
  have hr : readHeader eof path expected outCapacity (encode m payload ++ more) =
      .ok (m, chunkChecksum payload) (payload ++ more) :=
    readHeader_iff.mpr ⟨by rw [encode, List.append_assoc], h.header⟩
  have htake : (payload ++ more).take m.payloadSize.toNat = payload :=
    List.take_left' h.length_eq
  have hmin : min m.payloadSize.toNat (payload ++ more).length = payload.length := by
    rw [List.length_append, ← h.length_eq]; omega
  unfold readContent
  rw [hr]
  simp only [htake, hmin]
  rw [if_neg (by rw [List.length_append, ← h.length_eq]; omega),
    if_neg (by rw [← h.length_eq, List.take_left]; exact not_not.mpr rfl)]

theorem decodes_of_readContent
    (h : readContent eof path expected outCapacity file out = .ok (some m) out') :
    ∃ payload, Decodes expected outCapacity file m payload := by
  unfold readContent at h
  cases hr : readHeader eof path expected outCapacity file with
  | error e rest => rw [hr] at h; cases h
  | ok r rest =>
    obtain ⟨m₁, sum₁⟩ := r
    rw [hr] at h
    simp only at h
    split_ifs at h with hlt hsum
    cases h
    obtain ⟨hfile, hp⟩ := readHeader_iff.mp hr
    have hlen : (rest.take m.payloadSize.toNat).length = m.payloadSize.toNat := by
      rw [List.length_take]; omega
    rw [List.take_left' hlen, not_not] at hsum
    refine ⟨rest.take m.payloadSize.toNat, hp, hlen, rest.drop m.payloadSize.toNat, ?_⟩
    rw [encode, hsum, List.append_assoc, List.take_append_drop, hfile]

theorem readContent_ne_none :
    readContent eof path expected outCapacity file out ≠ .ok none out' := by
  unfold readContent
  cases readHeader eof path expected outCapacity file with
  | error e rest => exact nofun
  | ok r rest =>
    simp only
    split_ifs <;> exact nofun

theorem readContent_corrupts {what : String} :
    Corrupts (readContent (.chunkCorruptError what) path expected outCapacity file) := by
  intro out e out' h
  unfold readContent at h
  cases hr : readHeader (.chunkCorruptError what) path expected outCapacity file with
  | error e₁ rest =>
    rw [hr] at h
    cases h
    exact readHeader_corrupts _ _ _ hr
  | ok r rest =>
    rw [hr] at h
    simp only at h
    split_ifs at h
    · cases h; exact ⟨_, rfl⟩
    · cases h; exact ⟨_, rfl⟩

/-- Reading only overwrites the front of the buffer, up to the capacity. -/
theorem readContent_written (out : Bytes) : ∃ written, written.length ≤ outCapacity ∧
    finalState (readContent eof path expected outCapacity file out) =
      written ++ out.drop written.length := by
  unfold readContent
  cases hr : readHeader eof path expected outCapacity file with
  | error e rest => exact ⟨[], Nat.zero_le _, rfl⟩
  | ok r rest =>
    obtain ⟨m₁, sum⟩ := r
    have hcap := (readHeader_iff.mp hr).2.payloadSize_le
    have hlen : (rest.take m₁.payloadSize.toNat).length =
        min m₁.payloadSize.toNat rest.length := List.length_take
    refine ⟨rest.take m₁.payloadSize.toNat, by omega, ?_⟩
    rw [hlen]
    simp only
    split_ifs <;> rfl

/-- What decodes decodes in one way. -/
theorem decodes_unique (h : Decodes expected outCapacity file m payload)
    (h' : Decodes expected outCapacity file m' payload') : m = m' ∧ payload = payload' := by
  have hr : readContent .capacityError "" expected outCapacity file [] = _ :=
    readContent_of_decodes h
  have hr' : readContent .capacityError "" expected outCapacity file [] = _ :=
    readContent_of_decodes h'
  obtain ⟨hm, hp⟩ := EStateM.Result.ok.inj (hr.symm.trans hr')
  rw [List.drop_nil, List.drop_nil, List.append_nil, List.append_nil] at hp
  exact ⟨Option.some.inj hm, hp⟩

/-- **The bytes of a written file.** -/
theorem write_content {fault : WriteFault} (hp : payload.length = m.payloadSize.toNat)
    (h : write fault slot m payload s = .ok () s') :
    s'.files.lookup slot = some (encode m payload) := by
  rcases write_cases fault slot m payload s with ⟨err, s₁, hc, -⟩ | ⟨w, s₁, hw, hc, hsame⟩
  · rw [hc] at h; cases h
  · rw [hc] at h
    cases h
    obtain ⟨rfl, hsize, hheader, -, -⟩ := writeCheck_ok hw
    rw [hsame.files]
    show (s.files.insert _ _).lookup _ = _
    rw [AList.lookup_insert, PendingWrite.content, hheader, hsize,
      List.take_of_length_le hp.le]
    rfl

/-- **Main result.** `read` of an existing file succeeds exactly when the file starts with the
encoding of metadata and payload within its bounds; these are unique and are what it returns. On
any other file it throws a corruption error, and it never writes beyond the capacity. -/
theorem codec_exact (hf : s.files.lookup slot = some file) (expected : ChunkFileMeta)
    (outCapacity : ℕ) (out : Bytes) :
    ((∃ m out', s.read .none slot expected outCapacity out = .ok (some m) out') ↔
      ∃ m payload, Decodes expected outCapacity file m payload) ∧
    (∀ m payload m' payload', Decodes expected outCapacity file m payload →
      Decodes expected outCapacity file m' payload' → m = m' ∧ payload = payload') ∧
    (∀ m payload, Decodes expected outCapacity file m payload →
      s.read .none slot expected outCapacity out =
        .ok (some m) (payload ++ out.drop payload.length)) ∧
    ((¬ ∃ m payload, Decodes expected outCapacity file m payload) →
      ∃ what out', s.read .none slot expected outCapacity out =
        .error (.chunkCorruptError what) out') ∧
    ∃ written, written.length ≤ outCapacity ∧
      finalState (s.read .none slot expected outCapacity out) =
        written ++ out.drop written.length := by
  have hread : s.read .none slot expected outCapacity out =
      readContent (.chunkCorruptError ("truncated chunk file: " ++ s.pathFor slot))
        (s.pathFor slot) expected outCapacity file out := by
    unfold read
    simp only [hf]
  rw [hread]
  refine ⟨⟨?_, ?_⟩, fun _ _ _ _ => decodes_unique, fun m payload => readContent_of_decodes,
    fun hn => ?_, readContent_written out⟩
  · rintro ⟨m, out', h⟩
    exact ⟨m, decodes_of_readContent h⟩
  · rintro ⟨m, payload, h⟩
    exact ⟨m, _, readContent_of_decodes h⟩
  · cases hc : readContent (.chunkCorruptError ("truncated chunk file: " ++ s.pathFor slot))
        (s.pathFor slot) expected outCapacity file out with
    | ok r out' =>
      cases r with
      | none => exact absurd hc readContent_ne_none
      | some m => exact absurd ⟨m, decodes_of_readContent hc⟩ hn
    | error e out' =>
      obtain ⟨what, rfl⟩ := readContent_corrupts _ _ _ hc
      exact ⟨what, out', rfl⟩

/-- Reading back a chunk of one byte. -/
theorem codec_exact_chunk :
    let m : ChunkFileMeta := { modelId := [], prefixTokens := [1], payloadSize := 1 }
    let files : AList fun _ : ℕ => Bytes := AList.insert 0 (encode m [7] ++ [9]) ∅
    let s : ChunkFileStore := { quotaBytes := 0, files := files }
    s.read .none 0 m 2 [0, 5] = .ok (some m) [7, 5] :=
  (codec_exact (AList.lookup_insert _) _ 2 [0, 5]).2.2.1 _ [7]
    ⟨⟨by decide, by decide, ⟨rfl, rfl, rfl, rfl, rfl, rfl, rfl⟩, by decide⟩, rfl,
      ⟨[9], rfl⟩⟩

/-! ## Reading back what was written -/

/-- A call on the store with the system call that fails, or a new store on the same directory. -/
inductive Op
  | write (fault : WriteFault) (slot : ℕ) (m : ChunkFileMeta) (payload : Bytes)
  | erase (unlinked : Bool) (slot : ℕ)
  | reopen (quotaBytes : UInt64)

/-- The store after a call, also after one that throws. -/
def Op.exec (s : ChunkFileStore) : Op → ChunkFileStore
  | .write fault slot m payload => finalState (ChunkFileStore.write fault slot m payload s)
  | .erase unlinked slot => finalState (ChunkFileStore.erase unlinked slot s)
  | .reopen quotaBytes => new s.rootDir quotaBytes s.files s.temps

/-- The slot that a call writes or erases. -/
def Op.touched : Op → Option ℕ
  | .write _ slot _ _ => some slot
  | .erase _ slot => some slot
  | .reopen _ => none

theorem exec_lookup {op : Op} (h : op.touched ≠ some slot) :
    (op.exec s).files.lookup slot = s.files.lookup slot := by
  cases op with
  | write fault slot' m payload =>
    have hne : slot ≠ slot' := fun he => h (congrArg some he.symm)
    show (finalState (ChunkFileStore.write fault slot' m payload s)).files.lookup slot = _
    rcases write_cases fault slot' m payload s with ⟨err, s₁, hc, hsame⟩ | ⟨w, s₁, hw, hc, hsame⟩
    · rw [hc, finalState_error, hsame.files]
    · obtain ⟨rfl, -⟩ := writeCheck_ok hw
      rw [hc, finalState_ok, hsame.files]
      exact AList.lookup_insert_ne hne
  | erase unlinked slot' =>
    have hne : slot ≠ slot' := fun he => h (congrArg some he.symm)
    show (finalState (ChunkFileStore.erase unlinked slot' s)).files.lookup slot = _
    unfold erase
    cases s.files.lookup slot' with
    | none => rfl
    | some file =>
      cases unlinked with
      | false => rfl
      | true => exact AList.lookup_erase_ne hne
  | reopen quotaBytes => rfl

theorem execs_lookup (ops : List Op) (h : ∀ op ∈ ops, op.touched ≠ some slot) :
    (ops.foldl Op.exec s).files.lookup slot = s.files.lookup slot := by
  induction ops generalizing s with
  | nil => rfl
  | cons op ops ih =>
    rw [List.foldl_cons, ih fun o ho => h o (List.mem_cons_of_mem _ ho)]
    exact exec_lookup (h op List.mem_cons_self)

/-- A file of the chunk is readable exactly within the bounds that the reader puts on its key. -/
theorem read_back_iff {key : CacheKey} {validTokens size : UInt64}
    (hf : s.files.lookup slot = some (encode (makeFileMeta key validTokens size) payload))
    (hn : payload.length = size.toNat) (hout : out.length = size.toNat) :
    (∃ m, s.read .none slot (makeFileMeta key 0 size) size.toNat out = .ok (some m) payload) ↔
      key.modelId.length ≤ 4096 ∧ key.prefixTokens.length ≤ 2 ^ 22 := by
  have hread : s.read .none slot (makeFileMeta key 0 size) size.toNat out =
      readContent (.chunkCorruptError ("truncated chunk file: " ++ s.pathFor slot))
        (s.pathFor slot) (makeFileMeta key 0 size) size.toNat
        (encode (makeFileMeta key validTokens size) payload) out := by
    unfold read
    simp only [hf]
  rw [hread]
  constructor
  · rintro ⟨m, h⟩
    obtain ⟨_, hd⟩ := decodes_of_readContent h
    have hid := hd.header.identity
    have hm : m.modelId = key.modelId := hid.1
    have hp : m.prefixTokens = key.prefixTokens := hid.2.2.2.2.2.2
    rw [← hm, ← hp]
    exact ⟨hd.header.modelId_le, hd.header.prefixTokens_le⟩
  · rintro ⟨hm, hp⟩
    have hd : Decodes (makeFileMeta key 0 size) size.toNat
        (encode (makeFileMeta key validTokens size) payload)
        (makeFileMeta key validTokens size) payload :=
      ⟨⟨hm, hp, ⟨rfl, rfl, rfl, rfl, rfl, rfl, rfl⟩, le_rfl⟩, hn, List.prefix_refl _⟩
    refine ⟨makeFileMeta key validTokens size, ?_⟩
    rw [readContent_of_decodes hd, hn, ← hout, List.drop_length, List.append_nil]

/-- **Main result.** After a `write` that returned, and any calls on other slots, the chunk reads
back exactly if its model id has at most 4096 bytes and its prefix at most `2 ^ 22` tokens. -/
theorem readable_iff {fault : WriteFault} {key : CacheKey} {validTokens size : UInt64}
    (hn : payload.length = size.toNat)
    (hw : write fault slot (makeFileMeta key validTokens size) payload s = .ok () s')
    {ops : List Op} (hops : ∀ op ∈ ops, op.touched ≠ some slot) (hout : out.length = size.toNat) :
    (∃ m, (ops.foldl Op.exec s').read .none slot (makeFileMeta key 0 size) size.toNat out =
        .ok (some m) payload) ↔
      key.modelId.length ≤ 4096 ∧ key.prefixTokens.length ≤ 2 ^ 22 :=
  read_back_iff (by rw [execs_lookup ops hops]; exact write_content hn hw) hn hout

/-- With the largest quota no write is refused. -/
theorem write_of_max (hq : s.quotaBytes = UInt64.ofNat u64Max) (slot : ℕ) (m : ChunkFileMeta)
    (payload : Bytes) : ∃ s', write .none slot m payload s = .ok () s' := by
  have hle : ∀ n : UInt64, ¬ n > s.quotaBytes := fun n hc => by
    rw [hq] at hc
    have := UInt64.lt_iff_toNat_lt.mp hc
    have hmax : (UInt64.ofNat u64Max).toNat = 2 ^ 64 - 1 := by decide
    have := n.toNat_lt
    omega
  simp only [write, bind_apply, get_apply, writeCheck]
  rw [if_neg (fun hc => hc.elim (hle _) (hle _))]
  exact ⟨_, rfl⟩

/-- An empty store of the largest quota. -/
def roomy : ChunkFileStore := { quotaBytes := UInt64.ofNat u64Max }

/-- A short key reads back. -/
theorem readable_iff_short : ∃ s' m,
    write .none 0 (makeFileMeta ⟨[], 0, .Float16, 0, 1, 0, [1]⟩ 1 1) [7] roomy = .ok () s' ∧
      s'.read .none 0 (makeFileMeta ⟨[], 0, .Float16, 0, 1, 0, [1]⟩ 0 1) 1 [0] =
        .ok (some m) [7] := by
  obtain ⟨s', hw⟩ := write_of_max (s := roomy) rfl 0
    (makeFileMeta ⟨[], 0, .Float16, 0, 1, 0, [1]⟩ 1 1) [7]
  have hops : ∀ op ∈ ([] : List Op), op.touched ≠ some 0 := nofun
  have hout : ([0] : Bytes).length = (1 : UInt64).toNat := rfl
  obtain ⟨m, hm⟩ := (readable_iff rfl hw hops hout).mpr ⟨by decide, by decide⟩
  exact ⟨s', m, hw, hm⟩

/-- A key with a model id of 4097 bytes is accepted and written, and cannot be read back. -/
theorem unreadable : ∃ key s',
    makeCacheKey (List.replicate 4097 0) 0 .Float16 0 1 [1] = .ok key ∧
      write .none 0 (makeFileMeta key 1 1) [7] roomy = .ok () s' ∧
      ¬ ∃ m, s'.read .none 0 (makeFileMeta key 0 1) 1 [0] = .ok (some m) [7] := by
  refine ⟨⟨List.replicate 4097 0, 0, .Float16, 0, 1, BlockManager.prefixHash [1], [1]⟩, ?_⟩
  obtain ⟨s', hw⟩ := write_of_max (s := roomy) rfl 0
    (makeFileMeta ⟨List.replicate 4097 0, 0, .Float16, 0, 1, BlockManager.prefixHash [1], [1]⟩ 1 1)
    [7]
  refine ⟨s', rfl, hw, fun hr => ?_⟩
  have := ((read_back_iff (write_content rfl hw) rfl rfl).mp hr).1
  rw [List.length_replicate] at this
  omega

end ChunkFileStore

end KVFlux.V3
