import KVFlux.V2.PagedRoundTrip

/-!
# The contiguous reference for attention

`softmax(QKᵀ / sqrt(head_size) + causal_mask) V` on host vectors, head by head.

* `AttentionShape`, `referenceScores`, `referenceWeights`, `referenceElement`, `referenceAttention`.
* **`referenceAttention_returns`**: for a valid shape every element of the output is set.
-/

namespace KVFlux.V2

structure AttentionShape where
  queryTokens : ℕ
  kvTokens : ℕ
  queryHeads : ℕ
  kvHeads : ℕ
  headSize : ℕ
deriving DecidableEq, Repr

variable {E F D : Type} (ops : Arithmetic E F D)

/-- `0.0f`. -/
def Arithmetic.zeroFloat : F := ops.narrow ops.zero

/-- `QKᵀ`, scaled, for one query head and one position. -/
def referenceScore (query key : List F) (shape : AttentionShape) (kvHead qOffset kvToken : ℕ) : D :=
  let kOffset := (kvToken * shape.kvHeads + kvHead) * shape.headSize
  let dot := (List.range shape.headSize).foldl (fun dot dim =>
    ops.add dot (ops.mul (ops.widen (query.getD (qOffset + dim) ops.zeroFloat))
      (ops.widen (key.getD (kOffset + dim) ops.zeroFloat)))) ops.zero
  ops.mul dot (ops.scale shape.headSize)

namespace AttentionShape

variable (shape : AttentionShape)

/-- The last token that a query token sees: the query is a suffix of the sequence. -/
def lastVisible (qToken : ℕ) : ℕ := shape.kvTokens - shape.queryTokens + qToken

/-- The key-value head of a query head. -/
def kvHead (qHead : ℕ) : ℕ := qHead / (shape.queryHeads / shape.kvHeads)

/-- `q_offset`. -/
def qOffset (qToken qHead : ℕ) : ℕ := (qToken * shape.queryHeads + qHead) * shape.headSize

end AttentionShape

/-- The scores of the visible tokens for one query head. -/
def referenceScores (query key : List F) (shape : AttentionShape) (qToken qHead : ℕ) : List D :=
  (List.range (shape.lastVisible qToken + 1)).map
    (referenceScore ops query key shape (shape.kvHead qHead) (shape.qOffset qToken qHead))

/-- `maximum`. -/
def referenceMaximum (scores : List D) : D :=
  scores.foldl (fun maximum score => ops.larger score maximum) ops.negativeInfinity

/-- The weights of the visible tokens. -/
def referenceWeights (scores : List D) : List D :=
  scores.map fun score => ops.exp (ops.sub score (referenceMaximum ops scores))

/-- `denominator`. -/
def referenceDenominator (weights : List D) : D := weights.foldl ops.add ops.zero

/-- The output of one dimension. -/
def referenceElement (value : List F) (shape : AttentionShape) (weights : List D)
    (qToken qHead dim : ℕ) : F :=
  ops.narrow ((List.range (shape.lastVisible qToken + 1)).foldl (fun result kvToken =>
    let vOffset := (kvToken * shape.kvHeads + shape.kvHead qHead) * shape.headSize
    ops.add result (ops.mul (ops.div (weights.getD kvToken ops.zero)
      (referenceDenominator ops weights)) (ops.widen (value.getD (vOffset + dim) ops.zeroFloat))))
    ops.zero)

/-- `reference_attention`. -/
def referenceAttention (query key value : List F) (shape : AttentionShape) :
    Except Exn (List F) := do
  if shape.queryHeads = 0 ∨ shape.kvHeads = 0 ∨ shape.headSize = 0 ∨
      shape.queryHeads % shape.kvHeads ≠ 0 ∨ shape.queryTokens > shape.kvTokens then
    throw (.invalidArgument "invalid reference attention shape")
  let multiply := checkedMultiply "reference attention tensor size overflow"
  let queryRows ← multiply shape.queryTokens shape.queryHeads
  let queryElements ← multiply queryRows shape.headSize
  let kvRows ← multiply shape.kvTokens shape.kvHeads
  let kvElements ← multiply kvRows shape.headSize
  if query.length ≠ queryElements ∨ key.length ≠ kvElements ∨ value.length ≠ kvElements then
    throw (.invalidArgument "reference attention tensor size does not match shape")
  if (query ++ key ++ value).any fun x => !ops.isFinite x then
    throw (.invalidArgument "reference attention inputs must be finite")
  let output := (List.range shape.queryTokens).foldl (fun output qToken =>
    (List.range shape.queryHeads).foldl (fun output qHead =>
      let weights := referenceWeights ops (referenceScores ops query key shape qToken qHead)
      (List.range shape.headSize).foldl (fun output dim =>
        output.set (shape.qOffset qToken qHead + dim)
          (referenceElement ops value shape weights qToken qHead dim))
        output) output) (List.replicate queryElements ops.zeroFloat)
  return output

/-! ## The output of the reference -/

section Output

/-- Elements are set one after the other; every write to `i` is the value `v`. -/
theorem foldl_set {α : Type} {cells : List (ℕ × α)} {out : List α} {i : ℕ} {v : α}
    (hall : ∀ c ∈ cells, c.1 = i → c.2 = v) (hi : i < out.length)
    (h : (i, v) ∈ cells ∨ out[i]? = some v) :
    (cells.foldl (fun out c => out.set c.1 c.2) out)[i]? = some v := by
  induction cells generalizing out with
  | nil => exact h.resolve_left List.not_mem_nil
  | cons c cells ih =>
    rw [List.foldl_cons]
    apply ih (fun c' hc' => hall c' (List.mem_cons_of_mem _ hc')) (by rwa [List.length_set])
    rw [List.mem_cons] at h
    by_cases heq : c.1 = i
    · right
      rw [heq, List.getElem?_set_self hi, hall c List.mem_cons_self heq]
    · rw [List.getElem?_set_ne heq]
      exact h.imp_left fun h => h.resolve_left fun h => heq (by rw [← h])

theorem length_foldl_set {α : Type} (cells : List (ℕ × α)) (out : List α) :
    (cells.foldl (fun out c => out.set c.1 c.2) out).length = out.length := by
  induction cells generalizing out with
  | nil => rfl
  | cons c cells ih => rw [List.foldl_cons, ih, List.length_set]

variable {query key value : List F} {shape : AttentionShape}

/-- The elements of the output in the order in which they are written. -/
def referenceCells (query key value : List F) (shape : AttentionShape) : List (ℕ × F) :=
  (List.range shape.queryTokens).flatMap fun qToken =>
    (List.range shape.queryHeads).flatMap fun qHead =>
      (List.range shape.headSize).map fun dim =>
        (flatIndex shape.queryHeads shape.headSize qToken qHead dim,
          referenceElement ops value shape (referenceWeights ops
            (referenceScores ops query key shape qToken qHead)) qToken qHead dim)

theorem mem_referenceCells {c : ℕ × F} : c ∈ referenceCells ops query key value shape ↔
    ∃ qToken < shape.queryTokens, ∃ qHead < shape.queryHeads, ∃ dim < shape.headSize,
      c = (flatIndex shape.queryHeads shape.headSize qToken qHead dim,
        referenceElement ops value shape (referenceWeights ops
          (referenceScores ops query key shape qToken qHead)) qToken qHead dim) := by
  simp only [referenceCells, List.mem_flatMap, List.mem_map, List.mem_range, eq_comm]

/-- **The reference returns** for a valid shape and finite tensors of its size, and sets every
element of the output. -/
theorem referenceAttention_returns
    (hheads : 0 < shape.queryHeads) (hkv : 0 < shape.kvHeads) (hhead : 0 < shape.headSize)
    (hdvd : shape.queryHeads % shape.kvHeads = 0) (hle : shape.queryTokens ≤ shape.kvTokens)
    (hquery : query.length = shape.queryTokens * shape.queryHeads * shape.headSize)
    (hkey : key.length = shape.kvTokens * shape.kvHeads * shape.headSize)
    (hvalue : value.length = shape.kvTokens * shape.kvHeads * shape.headSize)
    (hquerySize : shape.queryTokens * shape.queryHeads * shape.headSize ≤ sizeMax)
    (hkvSize : shape.kvTokens * shape.kvHeads * shape.headSize ≤ sizeMax)
    (hfinite : ∀ x, ops.isFinite x = true) :
    ∃ out, referenceAttention ops query key value shape = .ok out ∧
      out.length = shape.queryTokens * shape.queryHeads * shape.headSize ∧
      ∀ qToken < shape.queryTokens, ∀ qHead < shape.queryHeads, ∀ dim < shape.headSize,
        out[flatIndex shape.queryHeads shape.headSize qToken qHead dim]? =
          some (referenceElement ops value shape (referenceWeights ops
            (referenceScores ops query key shape qToken qHead)) qToken qHead dim) := by
  refine ⟨(referenceCells ops query key value shape).foldl (fun out c => out.set c.1 c.2)
    (List.replicate (shape.queryTokens * shape.queryHeads * shape.headSize) ops.zeroFloat), ?_, ?_, ?_⟩
  · have hshape : ¬ (shape.queryHeads = 0 ∨ shape.kvHeads = 0 ∨ shape.headSize = 0 ∨
        shape.queryHeads % shape.kvHeads ≠ 0 ∨ shape.queryTokens > shape.kvTokens) := by omega
    have hrows : shape.queryTokens * shape.queryHeads ≤ sizeMax :=
      (Nat.le_mul_of_pos_right _ hhead).trans hquerySize
    have hkvRows : shape.kvTokens * shape.kvHeads ≤ sizeMax :=
      (Nat.le_mul_of_pos_right _ hhead).trans hkvSize
    have hany : ((query ++ key ++ value).any fun x => !ops.isFinite x) = false := by
      simp [hfinite]
    unfold referenceAttention
    simp only [if_neg hshape, checkedMultiply_of_le hrows, checkedMultiply_of_le hquerySize,
      checkedMultiply_of_le hkvRows, checkedMultiply_of_le hkvSize, bind, Except.bind, hquery, hkey,
      hvalue, hany, ne_eq, not_true_eq_false, or_self, if_false, Bool.false_eq_true]
    simp only [referenceCells, List.foldl_flatMap, List.foldl_map]
    rfl
  · rw [length_foldl_set, List.length_replicate]
  · intro qToken hqToken qHead hqHead dim hdim
    apply foldl_set
    · intro c hc heq
      obtain ⟨qToken', -, qHead', hqHead', dim', hdim', rfl⟩ := (mem_referenceCells ops).mp hc
      obtain ⟨rfl, rfl, rfl⟩ := flatIndex_inj hqHead' hdim' hqHead hdim heq
      rfl
    · rw [List.length_replicate]
      exact flatIndex_lt hqToken hqHead hdim
    · exact .inl ((mem_referenceCells ops).mpr ⟨qToken, hqToken, qHead, hqHead, dim, hdim, rfl⟩)

end Output

end KVFlux.V2
