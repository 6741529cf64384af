import KVFlux.Basic
import KVFlux.Lib.RowMajor
import KVFlux.Lib.SizeArith

/-!
# The layout of a block of keys and values

`[K/V][layer][kv_head][token][head_dim]`, without padding. The constructor checks the product of all
extents; later addressing is unchecked machine arithmetic. An enumerator outside its enumeration
cannot be written here, so the two checks against one never fire.

* `DType`, `KVKind`, `ModelConfig`, `CapacityPlan`, `KVBlockLayout`.
* `make`, `byteOffset`, `capacityFor`.
* `make_ok`: what an accepted configuration satisfies.
* **`sizing_exact`**: addressing is a bijection onto the elements of the block, no intermediate
  result overflows, and a capacity plan is the largest that fits its budget.
-/

namespace KVFlux

open SizeArith

inductive DType
  | Float16
  | BFloat16
  | Float32
deriving DecidableEq, Repr

inductive KVKind
  | Key
  | Value
deriving DecidableEq, Repr

/-- `kind == KVKind::Key ? 0 : 1`. -/
def KVKind.toNat : KVKind → ℕ
  | .Key => 0
  | .Value => 1

@[simp] theorem KVKind.toNat_key : KVKind.Key.toNat = 0 := rfl

@[simp] theorem KVKind.toNat_value : KVKind.Value.toNat = 1 := rfl

theorem KVKind.toNat_lt (kind : KVKind) : kind.toNat < 2 := by cases kind <;> decide

theorem KVKind.toNat_injective : Function.Injective KVKind.toNat := by
  intro a b h
  cases a <;> cases b <;> first | rfl | cases h

theorem KVKind.exists_toNat {n : ℕ} (h : n < 2) : ∃ kind : KVKind, kind.toNat = n := by
  interval_cases n
  · exact ⟨.Key, rfl⟩
  · exact ⟨.Value, rfl⟩

structure ModelConfig where
  numLayers : ℕ
  numHeads : ℕ
  headDim : ℕ
  blockSize : ℕ
  dtype : DType := .Float16
deriving DecidableEq, Repr

structure CapacityPlan where
  blockBytes : ℕ
  totalBlocks : ℕ
  allocatedBytes : ℕ
  unusedBytes : ℕ
  tokenCapacity : ℕ
deriving DecidableEq, Repr

structure KVBlockLayout where
  config : ModelConfig
  elementBytes : ℕ
  blockBytes : ℕ
deriving DecidableEq, Repr

/-- The size of a machine word: `size_t` counts modulo it. -/
abbrev wordSize : ℕ := sizeMax + 1

/-- `multiply(a, b)` with the text of its overflow error. -/
def checkedMultiply (overflow : String) (a b : ℕ) : Except Exn ℕ :=
  if b ≠ 0 ∧ a > sizeMax / b then .error (.overflowError overflow) else .ok (a * b)

theorem checkedMultiply_ok {overflow : String} {a b n : ℕ}
    (h : checkedMultiply overflow a b = .ok n) (hb : 0 < b) : n = a * b ∧ a * b ≤ sizeMax := by
  unfold checkedMultiply at h
  split_ifs at h with hover
  cases h
  have hle : a ≤ sizeMax / b := by
    by_contra hlt
    exact hover ⟨hb.ne', by omega⟩
  exact ⟨rfl, (Nat.le_div_iff_mul_le hb).mp hle⟩

theorem checkedMultiply_of_le {overflow : String} {a b : ℕ} (h : a * b ≤ sizeMax) :
    checkedMultiply overflow a b = .ok (a * b) := by
  unfold checkedMultiply
  rw [if_neg]
  rintro ⟨hb, hlt⟩
  have := (Nat.le_div_iff_mul_le (Nat.pos_of_ne_zero hb)).mpr h
  omega

/-- Products checked one after the other. -/
theorem foldlM_checkedMultiply_ok {overflow : String} {sizes : List ℕ} (hpos : ∀ n ∈ sizes, 0 < n)
    {a n : ℕ} (ha : a ≤ sizeMax) (h : sizes.foldlM (checkedMultiply overflow) a = .ok n) :
    n = a * sizes.prod ∧ n ≤ sizeMax := by
  induction sizes generalizing a with
  | nil =>
    obtain rfl : a = n := Except.ok.inj h
    exact ⟨by simp, ha⟩
  | cons b sizes ih =>
    rw [List.foldlM_cons] at h
    obtain ⟨c, hab, h⟩ := Fallible.returns_bind.mp h
    obtain ⟨rfl, hle⟩ := checkedMultiply_ok hab (hpos b (List.mem_cons_self ..))
    rw [List.prod_cons, ← mul_assoc]
    exact ih (fun n hn => hpos n (List.mem_cons_of_mem _ hn)) hle h

/-- `dtype_bytes`. -/
def DType.bytes : DType → ℕ
  | .Float16 | .BFloat16 => 2
  | .Float32 => 4

theorem DType.bytes_pos (dtype : DType) : 0 < dtype.bytes := by cases dtype <;> decide

namespace KVBlockLayout

/-- The constructor. -/
def make (config : ModelConfig) : Except Exn KVBlockLayout := do
  let elementBytes := config.dtype.bytes
  if config.numLayers = 0 ∨ config.numHeads = 0 ∨ config.headDim = 0 ∨ config.blockSize = 0 then
    throw (.invalidArgument "all KV dimensions must be positive")
  let blockBytes ← [config.numLayers, config.numHeads, config.blockSize, config.headDim,
    elementBytes].foldlM (checkedMultiply "KV layout size overflow") 2
  return ⟨config, elementBytes, blockBytes⟩

variable (layout : KVBlockLayout)

/-- `value_offset()`. -/
def valueOffset : ℕ := layout.blockBytes / 2

/-- The arithmetic of `byte_offset`. -/
def offsetExpr (kind : KVKind) (layer head token dimension : ℕ) : Expr :=
  let offset : Expr := kind.toNat
  let offset := offset * layout.config.numLayers + layer
  let offset := offset * layout.config.numHeads + head
  let offset := offset * layout.config.blockSize + token
  let offset := offset * layout.config.headDim + dimension
  offset * layout.elementBytes

/-- `byte_offset`. -/
def byteOffset (kind : KVKind) (layer head token dimension : ℕ) : Except Exn ℕ :=
  if layer ≥ layout.config.numLayers ∨ head ≥ layout.config.numHeads ∨
      token ≥ layout.config.blockSize ∨ dimension ≥ layout.config.headDim then
    .error (.outOfRange "KV coordinate out of range")
  else .ok ((layout.offsetExpr kind layer head token dimension).wrapped wordSize)

/-- `capacity_for`. -/
def capacityFor (budgetBytes : ℕ) : Except Exn CapacityPlan := do
  let blocks := budgetBytes / layout.blockBytes
  let allocated := ((blocks : Expr) * layout.blockBytes).wrapped wordSize
  let tokens ← checkedMultiply "KV layout size overflow" blocks layout.config.blockSize
  return ⟨layout.blockBytes, blocks, allocated,
    ((budgetBytes : Expr) - allocated).wrapped wordSize, tokens⟩

/-- The coordinate of an element of a block. -/
structure Coordinate where
  kind : KVKind
  layer : ℕ
  head : ℕ
  token : ℕ
  dimension : ℕ
deriving DecidableEq, Repr

/-- The coordinate is in range. -/
structure InRange (c : Coordinate) : Prop where
  layer : c.layer < layout.config.numLayers
  head : c.head < layout.config.numHeads
  token : c.token < layout.config.blockSize
  dimension : c.dimension < layout.config.headDim

/-- What the constructor has checked. -/
structure Valid : Prop where
  layers_pos : 0 < layout.config.numLayers
  heads_pos : 0 < layout.config.numHeads
  dim_pos : 0 < layout.config.headDim
  block_pos : 0 < layout.config.blockSize
  element : layout.elementBytes = layout.config.dtype.bytes
  bytes : layout.blockBytes = 2 * layout.config.numLayers * layout.config.numHeads *
    layout.config.blockSize * layout.config.headDim * layout.elementBytes
  bytes_le : layout.blockBytes ≤ sizeMax

variable {layout}

theorem make_ok {config : ModelConfig} (h : make config = .ok layout) :
    layout.Valid ∧ layout.config = config := by
  unfold make at h
  simp only [bind, Except.bind] at h
  split_ifs at h with hzero
  push Not at hzero
  obtain ⟨hl, hh, hd, hb⟩ := hzero
  cases hfold : [config.numLayers, config.numHeads, config.blockSize, config.headDim,
    config.dtype.bytes].foldlM (checkedMultiply "KV layout size overflow") 2 with
  | error e => rw [hfold] at h; cases h
  | ok bytes =>
    rw [hfold] at h
    obtain rfl := Except.ok.inj h
    have hpos : ∀ n ∈ [config.numLayers, config.numHeads, config.blockSize, config.headDim,
        config.dtype.bytes], 0 < n := by
      have := config.dtype.bytes_pos
      simp only [List.mem_cons, List.not_mem_nil, or_false]
      omega
    obtain ⟨hbytes, hle⟩ := foldlM_checkedMultiply_ok hpos (by decide) hfold
    refine ⟨⟨Nat.pos_of_ne_zero hl, Nat.pos_of_ne_zero hh, Nat.pos_of_ne_zero hd,
      Nat.pos_of_ne_zero hb, rfl, ?_, hle⟩, rfl⟩
    simp only [hbytes, List.prod_cons, List.prod_nil]
    ring

section Addressing

/-- The extents of the axes. -/
def shape (layout : KVBlockLayout) : List ℕ :=
  [2, layout.config.numLayers, layout.config.numHeads, layout.config.blockSize,
    layout.config.headDim]

/-- The coordinate along the axes. -/
def Coordinate.digits (c : Coordinate) : List ℕ :=
  [c.kind.toNat, c.layer, c.head, c.token, c.dimension]

theorem bijOn_digits : Set.BijOn Coordinate.digits {c | layout.InRange c}
    {ds | RowMajor.Within layout.shape ds} := by
  refine ⟨?_, ?_, ?_⟩
  · intro c hc
    exact .cons c.kind.toNat_lt (.cons hc.layer (.cons hc.head (.cons hc.token
      (.cons hc.dimension .nil))))
  · intro c _ c' _ heq
    simp only [Coordinate.digits, List.cons.injEq, and_true] at heq
    obtain ⟨hkind, hlayer, hhead, htoken, hdim⟩ := heq
    have hkind := KVKind.toNat_injective hkind
    cases c
    cases c'
    simp_all
  · intro ds hds
    obtain _ | ⟨hkind, _ | ⟨hlayer, _ | ⟨hhead, _ | ⟨htoken, _ | ⟨hdim, _ | _⟩⟩⟩⟩⟩ := hds
    obtain ⟨kind, rfl⟩ := KVKind.exists_toNat hkind
    exact ⟨⟨kind, _, _, _, _⟩, ⟨hlayer, hhead, htoken, hdim⟩, rfl⟩

variable (valid : layout.Valid) {c : Coordinate} (hc : layout.InRange c)
include valid

theorem blockBytes_eq : layout.blockBytes = layout.shape.prod * layout.elementBytes := by
  rw [valid.bytes]
  simp only [shape, List.prod_cons, List.prod_nil]
  ring

theorem element_pos : 0 < layout.elementBytes := by
  rw [valid.element]
  exact layout.config.dtype.bytes_pos

include hc

/-- No intermediate result of `byte_offset` overflows. -/
theorem offsetExpr_fits :
    (layout.offsetExpr c.kind c.layer c.head c.token c.dimension).Fits wordSize := by
  have hbytes := valid.bytes
  have hle := valid.bytes_le
  have hel := element_pos valid
  -- each prefix of the checked product is at most the whole product
  have h5 : 2 * layout.config.numLayers * layout.config.numHeads * layout.config.blockSize *
      layout.config.headDim ≤ sizeMax :=
    (Nat.le_mul_of_pos_right _ hel).trans (hbytes ▸ hle)
  have h4 := (Nat.le_mul_of_pos_right _ valid.dim_pos).trans h5
  have h3 := (Nat.le_mul_of_pos_right _ valid.block_pos).trans h4
  have h2 := (Nat.le_mul_of_pos_right _ valid.heads_pos).trans h3
  have hkind : (c.kind.toNat : Expr).Fits wordSize :=
    c.kind.toNat_lt.trans (by decide)
  obtain ⟨f1, v1⟩ := Expr.fits_horner hkind c.kind.toNat_lt hc.layer (Nat.lt_succ_of_le h2)
  obtain ⟨f2, v2⟩ := Expr.fits_horner f1 v1 hc.head (Nat.lt_succ_of_le h3)
  obtain ⟨f3, v3⟩ := Expr.fits_horner f2 v2 hc.token (Nat.lt_succ_of_le h4)
  obtain ⟨f4, v4⟩ := Expr.fits_horner f3 v3 hc.dimension (Nat.lt_succ_of_le h5)
  have hel_lt : layout.elementBytes < wordSize := by
    rw [valid.element]
    cases layout.config.dtype <;> decide
  refine ⟨f4, hel_lt, ?_⟩
  have := Nat.mul_lt_mul_of_pos_right v4 hel
  exact Nat.lt_succ_of_lt (this.trans_le (hbytes ▸ hle))

/-- `byte_offset` is the row-major index in units of an element. -/
theorem byteOffset_eq : layout.byteOffset c.kind c.layer c.head c.token c.dimension =
    .ok (RowMajor.index 0 layout.shape c.digits * layout.elementBytes) := by
  have hrange : ¬ (c.layer ≥ layout.config.numLayers ∨ c.head ≥ layout.config.numHeads ∨
      c.token ≥ layout.config.blockSize ∨ c.dimension ≥ layout.config.headDim) := by
    have := hc.layer
    have := hc.head
    have := hc.token
    have := hc.dimension
    omega
  unfold byteOffset
  rw [if_neg hrange, Expr.wrapped_eq (offsetExpr_fits valid hc)]
  simp [offsetExpr, RowMajor.index, shape, Coordinate.digits]

/-- Keys lie exactly below the value offset. -/
theorem key_iff_below :
    c.kind = .Key ↔
      RowMajor.index 0 layout.shape c.digits * layout.elementBytes < layout.valueOffset := by
  have hel := element_pos valid
  have hwithin : RowMajor.Within layout.shape.tail c.digits.tail :=
    .cons hc.layer (.cons hc.head (.cons hc.token (.cons hc.dimension .nil)))
  have hindex : RowMajor.index 0 layout.shape c.digits =
      RowMajor.index c.kind.toNat layout.shape.tail c.digits.tail := by
    simp [RowMajor.index, shape, Coordinate.digits]
  have hvalue : layout.valueOffset = layout.shape.tail.prod * layout.elementBytes := by
    have hhalf : layout.blockBytes = 2 * (layout.shape.tail.prod * layout.elementBytes) := by
      rw [blockBytes_eq valid, ← mul_assoc]
      rfl
    unfold valueOffset
    omega
  rw [hindex, hvalue, Nat.mul_lt_mul_right hel]
  cases hkind : c.kind with
  | Key => simpa using RowMajor.index_lt hwithin Nat.one_pos
  | Value => simpa using RowMajor.le_index hwithin 1

end Addressing

/-- A capacity plan: the most blocks that fit the budget, and what they leave. -/
structure CapacityPlan.Exact (layout : KVBlockLayout) (budget : ℕ) (plan : CapacityPlan) :
    Prop where
  block_bytes : plan.blockBytes = layout.blockBytes
  greatest : IsGreatest {n | n * layout.blockBytes ≤ budget} plan.totalBlocks
  allocated : plan.allocatedBytes = plan.totalBlocks * layout.blockBytes
  budget_eq : plan.allocatedBytes + plan.unusedBytes = budget
  unused_lt : plan.unusedBytes < layout.blockBytes
  tokens : plan.tokenCapacity = plan.totalBlocks * layout.config.blockSize

/-- A block is at least as large in bytes as in tokens. -/
theorem blockSize_le (valid : layout.Valid) : layout.config.blockSize ≤ layout.blockBytes := by
  have hel := element_pos valid
  have := valid.layers_pos
  have := valid.heads_pos
  have := valid.dim_pos
  have hfactor : layout.blockBytes = layout.config.blockSize *
      (2 * layout.config.numLayers * layout.config.numHeads * layout.config.headDim *
        layout.elementBytes) := by
    rw [valid.bytes]
    ring
  rw [hfactor]
  exact Nat.le_mul_of_pos_right _ (by positivity)

/-- The overflow check on the token capacity never fires. -/
theorem capacityFor_exact (valid : layout.Valid) {budget : ℕ} (hbudget : budget ≤ sizeMax) :
    ∃ plan, layout.capacityFor budget = .ok plan ∧ CapacityPlan.Exact layout budget plan := by
  have hpos : 0 < layout.blockBytes := by
    have := blockSize_le valid
    have := valid.block_pos
    omega
  have hallocated : budget / layout.blockBytes * layout.blockBytes ≤ budget :=
    Nat.div_mul_le_self _ _
  have htokens : budget / layout.blockBytes * layout.config.blockSize ≤ sizeMax :=
    (Nat.mul_le_mul_left _ (blockSize_le valid)).trans (hallocated.trans hbudget)
  have hblocks : budget / layout.blockBytes ≤ budget := Nat.div_le_self _ _
  have hproduct : ((budget / layout.blockBytes : ℕ) * layout.blockBytes : Expr).wrapped wordSize =
      budget / layout.blockBytes * layout.blockBytes := by
    apply Expr.wrapped_eq
    exact ⟨Nat.lt_succ_of_le (hblocks.trans hbudget), Nat.lt_succ_of_le valid.bytes_le,
      Nat.lt_succ_of_le (hallocated.trans hbudget)⟩
  have hunused : ((budget : Expr) - (budget / layout.blockBytes * layout.blockBytes : ℕ)).wrapped
      wordSize = budget - budget / layout.blockBytes * layout.blockBytes := by
    apply Expr.wrapped_eq
    exact ⟨Nat.lt_succ_of_le hbudget, Nat.lt_succ_of_le (hallocated.trans hbudget), hallocated⟩
  refine ⟨⟨layout.blockBytes, budget / layout.blockBytes,
    budget / layout.blockBytes * layout.blockBytes,
    budget - budget / layout.blockBytes * layout.blockBytes,
    budget / layout.blockBytes * layout.config.blockSize⟩, ?_, ?_⟩
  · unfold capacityFor
    simp only [hproduct, hunused, checkedMultiply_of_le htokens]
    rfl
  · refine ⟨rfl, ⟨hallocated, ?_⟩, rfl, Nat.add_sub_of_le hallocated, ?_, rfl⟩
    · intro n hn
      exact (Nat.le_div_iff_mul_le hpos).mpr hn
    · have := Nat.div_add_mod' budget layout.blockBytes
      have := Nat.mod_lt budget hpos
      show budget - budget / layout.blockBytes * layout.blockBytes < layout.blockBytes
      omega

/-- Addressing and sizing are exact. -/
structure SizingExact (layout : KVBlockLayout) : Prop where
  bijective : Set.BijOn
    (fun c : Coordinate => layout.byteOffset c.kind c.layer c.head c.token c.dimension)
    {c | layout.InRange c} (Except.ok '' {n | n < layout.blockBytes ∧ layout.elementBytes ∣ n})
  key_below : ∀ c, layout.InRange c → ∀ n,
    layout.byteOffset c.kind c.layer c.head c.token c.dimension = .ok n →
      (c.kind = .Key ↔ n < layout.valueOffset)
  fits : ∀ c, layout.InRange c →
    (layout.offsetExpr c.kind c.layer c.head c.token c.dimension).Fits wordSize
  capacity : ∀ budget ≤ sizeMax, ∃ plan,
    layout.capacityFor budget = .ok plan ∧ CapacityPlan.Exact layout budget plan

/-- **Main result.** For every accepted configuration, offsets number the elements of the block,
keys first, without overflow, and every capacity plan is exact. -/
theorem sizing_exact {config : ModelConfig} {layout : KVBlockLayout}
    (h : make config = .ok layout) : SizingExact layout := by
  have valid := (make_ok h).1
  refine ⟨?_, ?_, ?_, ?_⟩
  · have hoffset := (RowMajor.bijOn_scaled layout.shape (element_pos valid)).comp bijOn_digits
    rw [← blockBytes_eq valid] at hoffset
    have hinj : Function.Injective (Except.ok : ℕ → Except Exn ℕ) := fun _ _ h => Except.ok.inj h
    have hok := hinj.injOn.bijOn_image.comp hoffset
    exact hok.congr fun c hc => (byteOffset_eq valid hc).symm
  · intro c hc n hn
    rw [byteOffset_eq valid hc] at hn
    obtain rfl := Except.ok.inj hn
    exact key_iff_below valid hc
  · intro c hc
    exact offsetExpr_fits valid hc
  · intro budget hbudget
    exact capacityFor_exact valid hbudget

/-- Two layers of three heads, five dimensions, four tokens, in 16-bit elements. -/
theorem sizing_exact_small : ∃ layout,
    make ⟨2, 3, 5, 4, .Float16⟩ = .ok layout ∧ SizingExact layout :=
  have h : make ⟨2, 3, 5, 4, .Float16⟩ = .ok ⟨⟨2, 3, 5, 4, .Float16⟩, 2, 480⟩ := by decide
  ⟨_, h, sizing_exact h⟩

end KVBlockLayout

end KVFlux
