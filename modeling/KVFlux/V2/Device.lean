import KVFlux.GpuMemoryPool
import KVFlux.Lib.Grid

/-!
# Kernels on the device

Device memory has typed cells: elements of the cache and of buffers of the same type, floats, and the
words of the metadata arrays that a call uploads. An array of elements or floats starts at a byte
address; the cells of one array are a multiple of the element size apart.

* `Address`, `Cell`, `DeviceMemory`, `upload`.
* `Cuda`: what the device does during a call; `cudaCheck`, `validateDevicePointer`, `overlaps`.
* `gridStride`, `runKernel`: a launch and the wait for it.
* **`runKernel_ok`**: what a kernel that has finished leaves; `runKernel_unchanged`: a launch never
  touches a cell that none of its threads writes.
-/

namespace KVFlux.V2

open Fallible Threads

/-- `word array index` is entry `index` of the uploaded array number `array`. -/
inductive Address
  | element (address : ℕ)
  | float (address : ℕ)
  | word (array index : ℕ)
deriving DecidableEq, Repr

/-- The type of a cell, for elements of type `E` and floats of type `F`. -/
@[reducible] def Cell (E F : Type) : Address → Type
  | .element _ => E
  | .float _ => F
  | .word _ _ => ℕ

abbrev DeviceMemory (E F : Type) := (a : Address) → Cell E F a

abbrev KernelCode (E F : Type) (α : Type) := Code Address (Cell E F) α

variable {E F : Type}

/-- A metadata array after `cudaMemcpyAsync` from the host. -/
def upload (array : ℕ) (words : List ℕ) (memory : DeviceMemory E F) : DeviceMemory E F
  | .element n => memory (.element n)
  | .float n => memory (.float n)
  | .word k i => if k = array then words.getD i 0 else memory (.word k i)

@[simp] theorem upload_element (array : ℕ) (words : List ℕ) (memory : DeviceMemory E F) (n : ℕ) :
    upload array words memory (.element n) = memory (.element n) := rfl

@[simp] theorem upload_float (array : ℕ) (words : List ℕ) (memory : DeviceMemory E F) (n : ℕ) :
    upload array words memory (.float n) = memory (.float n) := rfl

@[simp] theorem upload_word (array : ℕ) (words : List ℕ) (memory : DeviceMemory E F) (i : ℕ) :
    upload array words memory (.word array i) = words.getD i 0 := if_pos rfl

theorem upload_word_of_ne {array k : ℕ} (h : k ≠ array) (words : List ℕ)
    (memory : DeviceMemory E F) (i : ℕ) :
    upload array words memory (.word k i) = memory (.word k i) := if_neg h

/-- What the device does during a call: the messages of the CUDA calls that fail (some calls make a
second allocation and upload), whether the two pointers are memory of the GPU, and the order in which
the threads take their instructions. -/
structure Cuda where
  guard : Option GuardFault := none
  firstPointer : Bool := true
  secondPointer : Bool := true
  allocate : Option String := none
  allocateSecond : Option String := none
  upload : Option String := none
  uploadSecond : Option String := none
  launch : Option String := none
  order : List ℕ := []
  synchronize : Option String := none

/-- `cuda_check(result, operation)`. -/
def cudaCheck (operation : String) : Option String → Except Exn Unit
  | none => .ok ()
  | some message => .error (cudaError operation message)

/-- `validate_device_pointer`. -/
def validateDevicePointer (valid : Bool) (name : String) : Except Exn Unit :=
  if valid = true then .ok ()
  else .error (.invalidArgument (name ++ " must be device memory on storage GPU"))

/-- `overlaps`. -/
def overlaps (first firstBytes second secondBytes : ℕ) : Prop :=
  if first ≤ second then second - first < firstBytes else first - second < secondBytes

instance (first firstBytes second secondBytes : ℕ) :
    Decidable (overlaps first firstBytes second secondBytes) := by
  unfold overlaps; infer_instance

/-- Arrays that do not overlap have no address in common. -/
theorem ne_of_not_overlaps {a b n k i j : ℕ} (h : ¬ overlaps a n b k) (hi : i < n) (hj : j < k) :
    a + i ≠ b + j := by
  unfold overlaps at h
  split_ifs at h <;> omega

/-- `threads * min(blocks_needed, 1024)`. -/
def gridStride (totalElements : ℕ) : ℕ :=
  256 * min (totalElements / 256 + if totalElements % 256 ≠ 0 then 1 else 0) 1024

theorem gridStride_pos {total : ℕ} (h : 0 < total) : 0 < gridStride total := by
  unfold gridStride
  split_ifs <;> omega

/-- The loop counter of a kernel does not wrap around. -/
theorem gridStride_fits {total : ℕ} (h : total * 2 ≤ sizeMax) :
    total + gridStride total ≤ wordSize := by
  have hmax : sizeMax = 18446744073709551615 := by decide
  unfold gridStride wordSize
  omega

/-- A kernel is launched and waited for. When the wait fails it may have stopped anywhere. -/
def runKernel (cuda : Cuda) (launchText waitText : String) (totalElements : ℕ)
    (body : ℕ → KernelCode E F Unit) : Call (DeviceMemory E F) Unit := fun memory =>
  let threads := Grid.kernel wordSize totalElements (gridStride totalElements) body
  match cuda.launch with
  | some message => .error (cudaError launchText message) memory
  | none =>
    match cuda.synchronize with
    | some message => .error (cudaError waitText message) (run ⟨threads, memory⟩ cuda.order).memory
    | none => .ok () (launch ⟨threads, memory⟩ (gridStride totalElements) cuda.order)

variable {cuda : Cuda} {launchText waitText : String} {total : ℕ} {body : ℕ → KernelCode E F Unit}
  {memory memory' : DeviceMemory E F}

/-- **A finished kernel** has written what the bodies write, and nothing else. -/
theorem runKernel_ok (hpos : 0 < total) (hfits : total * 2 ≤ sizeMax)
    (happart : Grid.Apart total body memory)
    (h : runKernel cuda launchText waitText total body memory = .ok () memory') :
    (∀ i < total, ∀ a v, ⟨a, v⟩ ∈ (body i).stores memory → memory' a = v) ∧
      ∀ a, (∀ i < total, a ∉ (body i).targets memory) → memory' a = memory a := by
  have hm := gridStride_fits hfits
  unfold runKernel at h
  split at h
  · cases h
  split at h
  · cases h
  cases h
  exact ⟨fun i hi a v ha =>
      Grid.launch_stored hm (gridStride_pos hpos) happart cuda.order hi ha,
    fun a ha => Grid.launch_other hm happart cuda.order ha⟩

/-- **A kernel leaves alone what its bodies do not write**, also when it fails. -/
theorem runKernel_unchanged (hfits : total * 2 ≤ sizeMax) (happart : Grid.Apart total body memory)
    {a : Address} (ha : ∀ i < total, a ∉ (body i).targets memory) :
    finalState (runKernel cuda launchText waitText total body memory) a = memory a := by
  have hm := gridStride_fits hfits
  unfold runKernel
  split
  · rfl
  split
  · simp only [finalState_error]
    rcases Grid.run_stored hm happart cuda.order a with h | ⟨i, hi, h⟩
    · exact h
    · exact absurd (Code.mem_targets _ h) (ha i hi)
  · simp only [finalState_ok]
    exact Grid.launch_other hm happart cuda.order ha

end KVFlux.V2
