import Mathlib

/-!
# Threads on a shared memory

Code loads from and stores to a shared memory whose cells `a` hold values of type `V a`. Threads run
their codes in any order, instruction by instruction.

* `Code`: the instructions with their continuations; it is a monad. `forEach`: a loop.
* `eval`, `loads`, `stores`: what code returns, reads and writes on a memory that nobody else changes.
* `step`, `run`: one instruction of one thread; a list of thread numbers is an order of instructions.
* `RaceFree`: no cell is written twice, and no cell that is written is read.
* `Inv`, `step_inv`, `run_inv`: every store is done with the value of the initial memory or is still
  to come.
* `launch`: any instructions, then all threads to their ends. **`launch_stored`**,
  **`launch_other`**: the result does not depend on the order; **`run_stored`**: what a stopped run
  leaves.
-/

namespace Threads

variable {A : Type} {V : A → Type} {α β ι : Type}

/-- Code with result `α`. -/
inductive Code (A : Type) (V : A → Type) (α : Type)
  | ret (r : α)
  | load (a : A) (next : V a → Code A V α)
  | store (a : A) (v : V a) (next : Code A V α)

namespace Code

/-- Code after code. -/
protected def bind : Code A V α → (α → Code A V β) → Code A V β
  | ret r, f => f r
  | load a next, f => load a fun v => (next v).bind f
  | store a v next, f => store a v (next.bind f)

instance : Monad (Code A V) where
  pure := ret
  bind := Code.bind

/-- A loop. -/
def forEach (f : ι → Code A V Unit) : List ι → Code A V Unit
  | [] => pure ()
  | i :: is => do f i; forEach f is

/-- `*a`. -/
def read (a : A) : Code A V (V a) := load a ret

/-- `*a = v`. -/
def write (a : A) (v : V a) : Code A V Unit := store a v (ret ())

variable (m : (a : A) → V a)

/-- The result. -/
def eval : Code A V α → α
  | ret r => r
  | load a next => (next (m a)).eval
  | store _ _ next => next.eval

/-- The cells that are read, in order. -/
def loads : Code A V α → List A
  | ret _ => []
  | load a next => a :: (next (m a)).loads
  | store _ _ next => next.loads

/-- The cells that are written, with their values, in order. -/
def stores : Code A V α → List (Σ a, V a)
  | ret _ => []
  | load a next => (next (m a)).stores
  | store a v next => ⟨a, v⟩ :: next.stores

/-- The number of instructions. -/
def length : Code A V α → ℕ
  | ret _ => 0
  | load a next => (next (m a)).length + 1
  | store _ _ next => next.length + 1

section Pure

variable (r : α) (a : A) (v : V a)

@[simp] theorem eval_pure : (pure r : Code A V α).eval m = r := rfl

@[simp] theorem loads_pure : (pure r : Code A V α).loads m = [] := rfl

@[simp] theorem stores_pure : (pure r : Code A V α).stores m = [] := rfl

@[simp] theorem eval_read : (read a : Code A V _).eval m = m a := rfl

@[simp] theorem loads_read : (read a : Code A V _).loads m = [a] := rfl

@[simp] theorem stores_read : (read a : Code A V _).stores m = [] := rfl

@[simp] theorem loads_write : (write a v : Code A V _).loads m = [] := rfl

@[simp] theorem stores_write : (write a v : Code A V _).stores m = [⟨a, v⟩] := rfl

end Pure

variable (x : Code A V α) (f : α → Code A V β)

@[simp] theorem eval_bind : (x >>= f).eval m = (f (x.eval m)).eval m := by
  induction x with
  | ret r => rfl
  | load a next ih => exact ih (m a)
  | store a v next ih => exact ih

@[simp] theorem loads_bind :
    (x >>= f).loads m = x.loads m ++ (f (x.eval m)).loads m := by
  induction x with
  | ret r => rfl
  | load a next ih => exact congrArg (a :: ·) (ih (m a))
  | store a v next ih => exact ih

@[simp] theorem stores_bind :
    (x >>= f).stores m = x.stores m ++ (f (x.eval m)).stores m := by
  induction x with
  | ret r => rfl
  | load a next ih => exact ih (m a)
  | store a v next ih => exact congrArg (⟨a, v⟩ :: ·) ih

/-- A loop with an accumulator. -/
theorem eval_foldlM (f : β → ι → Code A V β) (is : List ι) (b : β) :
    (is.foldlM f b).eval m = is.foldl (fun b i => (f b i).eval m) b := by
  induction is generalizing b with
  | nil => rfl
  | cons i is ih => rw [List.foldlM_cons, eval_bind, ih, List.foldl_cons]

theorem stores_foldlM (f : β → ι → Code A V β) (hf : ∀ b i, (f b i).stores m = []) (is : List ι)
    (b : β) : (is.foldlM f b).stores m = [] := by
  induction is generalizing b with
  | nil => rfl
  | cons i is ih => rw [List.foldlM_cons, stores_bind, hf, ih, List.append_nil]

/-- What a loop reads when its rounds read the same whatever they have accumulated. -/
theorem loads_foldlM (f : β → ι → Code A V β) (l : ι → List A) (hf : ∀ b i, (f b i).loads m = l i)
    (is : List ι) (b : β) : (is.foldlM f b).loads m = is.flatMap l := by
  induction is generalizing b with
  | nil => rfl
  | cons i is ih => rw [List.foldlM_cons, loads_bind, hf, ih, List.flatMap_cons]

theorem loads_forEach (f : ι → Code A V Unit) (is : List ι) :
    (forEach f is).loads m = is.flatMap fun i => (f i).loads m := by
  induction is with
  | nil => rfl
  | cons i is ih =>
    unfold forEach
    rw [loads_bind, ih, List.flatMap_cons]

theorem stores_forEach (f : ι → Code A V Unit) (is : List ι) :
    (forEach f is).stores m = is.flatMap fun i => (f i).stores m := by
  induction is with
  | nil => rfl
  | cons i is ih =>
    unfold forEach
    rw [stores_bind, ih, List.flatMap_cons]

/-- The cells that are written. -/
def targets (c : Code A V α) : List A := (c.stores m).map Sigma.fst

theorem mem_targets {c : Code A V α} {a : A} {v : V a} (h : ⟨a, v⟩ ∈ c.stores m) :
    a ∈ c.targets m := List.mem_map_of_mem (f := Sigma.fst) h

end Code

/-! ## Threads -/

/-- The codes of the threads and the memory. -/
structure State (A : Type) (V : A → Type) where
  threads : ℕ → Code A V Unit
  memory : (a : A) → V a

variable [DecidableEq A]

/-- The next instruction of thread `t`. -/
def step (s : State A V) (t : ℕ) : State A V :=
  match s.threads t with
  | .ret _ => s
  | .load a next => { s with threads := Function.update s.threads t (next (s.memory a)) }
  | .store a v next =>
    ⟨Function.update s.threads t next, Function.update s.memory a v⟩

def run (s : State A V) (order : List ℕ) : State A V := order.foldl step s

/-- Instructions that finish the threads below `n`. -/
def drain (s : State A V) (n : ℕ) : List ℕ :=
  (List.range n).flatMap fun t => List.replicate ((s.threads t).length s.memory) t

/-- The memory after the threads below `n` have run to their ends, the first instructions in the
given order. -/
def launch (s : State A V) (n : ℕ) (order : List ℕ) : (a : A) → V a :=
  (run s (order ++ drain s n)).memory

/-- No cell is written twice, and no cell that is written is read. -/
structure RaceFree (s : State A V) : Prop where
  nodup : ∀ t, ((s.threads t).targets s.memory).Nodup
  disjoint : ∀ t t' a, a ∈ (s.threads t).targets s.memory → a ∈ (s.threads t').targets s.memory →
    t = t'
  source : ∀ t t' a, a ∈ (s.threads t).targets s.memory → a ∉ (s.threads t').loads s.memory

/-! ## The invariant -/

/-- Thread `t` on the way from `s₀`: the stores `done` are behind it, `code` is ahead. -/
structure Progress (s₀ : State A V) (t : ℕ) (code : Code A V Unit) (memory : (a : A) → V a)
    (done : List (Σ a, V a)) : Prop where
  split : (s₀.threads t).stores s₀.memory = done ++ code.stores s₀.memory
  loads : ∀ a ∈ code.loads s₀.memory, a ∈ (s₀.threads t).loads s₀.memory
  stored : ∀ a v, ⟨a, v⟩ ∈ done → memory a = v
  waiting : ∀ a ∈ code.targets s₀.memory, memory a = s₀.memory a

/-- **The invariant of a run** from `s₀`. -/
structure Inv (s₀ s : State A V) : Prop where
  thread : ∀ t, ∃ done, Progress s₀ t (s.threads t) s.memory done
  other : ∀ a, (∀ t, a ∉ (s₀.threads t).targets s₀.memory) → s.memory a = s₀.memory a

variable {s₀ s : State A V}

omit [DecidableEq A] in
theorem Inv.refl (s : State A V) : Inv s s where
  thread t :=
    ⟨[], ⟨rfl, fun _ h => h, fun _ _ h => (by cases h), fun _ _ => rfl⟩⟩
  other _ _ := rfl

omit [DecidableEq A] in
theorem Progress.target {t : ℕ} {code : Code A V Unit} {memory : (a : A) → V a}
    {done : List (Σ a, V a)} (hp : Progress s₀ t code memory done) {a : A}
    (ha : a ∈ code.targets s₀.memory) : a ∈ (s₀.threads t).targets s₀.memory := by
  unfold Code.targets at ha ⊢
  rw [hp.split, List.map_append]
  exact List.mem_append_right _ ha

omit [DecidableEq A] in
/-- A load reads the initial value: nobody writes the cell. -/
theorem Inv.load (hr : RaceFree s₀) (hs : Inv s₀ s) {t : ℕ} {a : A} {next : V a → Code A V Unit}
    (ht : s.threads t = .load a next) : s.memory a = s₀.memory a ∧
      Inv s₀ { s with threads := Function.update s.threads t (next (s.memory a)) } := by
  obtain ⟨done, hp⟩ := hs.thread t
  rw [ht] at hp
  have hvalue : s.memory a = s₀.memory a :=
    hs.other a fun t' h => hr.source t' t a h (hp.loads a (List.mem_cons_self ..))
  refine ⟨hvalue, fun u => ?_, hs.other⟩
  show ∃ done, Progress s₀ u (Function.update s.threads t (next (s.memory a)) u) s.memory done
  by_cases hu : u = t
  · subst hu
    rw [Function.update_self, hvalue]
    exact ⟨done, hp.split, fun b hb => hp.loads b (List.mem_cons_of_mem _ hb), hp.stored, hp.waiting⟩
  · rw [Function.update_of_ne hu]
    exact hs.thread u

/-- A store: no other store has this cell. -/
theorem Inv.store (hr : RaceFree s₀) (hs : Inv s₀ s) {t : ℕ} {a : A} {v : V a}
    {next : Code A V Unit} (ht : s.threads t = .store a v next) :
    Inv s₀ ⟨Function.update s.threads t next, Function.update s.memory a v⟩ := by
  obtain ⟨done, hp⟩ := hs.thread t
  rw [ht] at hp
  have htarget := hp.target (List.mem_cons_self ..)
  refine ⟨fun u => ?_, fun b hb => ?_⟩
  · show ∃ done, Progress s₀ u (Function.update s.threads t next u)
      (Function.update s.memory a v) done
    by_cases hu : u = t
    · subst hu
      rw [Function.update_self]
      have hnodup := hr.nodup u
      rw [Code.targets, hp.split, List.map_append] at hnodup
      obtain ⟨-, hnext, hcross⟩ := List.nodup_append.mp hnodup
      refine ⟨done ++ [⟨a, v⟩], ?_, hp.loads, ?_, ?_⟩
      · rw [List.append_assoc]
        exact hp.split
      · intro b w hw
        rcases List.mem_append.mp hw with hw | hw
        · have hne : b ≠ a :=
            hcross b (List.mem_map_of_mem (f := Sigma.fst) hw) a (List.mem_cons_self ..)
          rw [Function.update_of_ne hne]
          exact hp.stored b w hw
        · have h := List.mem_singleton.mp hw
          cases h
          exact Function.update_self ..
      · intro b hb
        have hne : b ≠ a := by
          rintro rfl
          exact (List.nodup_cons.mp hnext).1 hb
        rw [Function.update_of_ne hne]
        exact hp.waiting b (List.mem_cons_of_mem _ hb)
    · rw [Function.update_of_ne hu]
      obtain ⟨done', hp'⟩ := hs.thread u
      have hne : ∀ b ∈ (s₀.threads u).targets s₀.memory, b ≠ a := by
        rintro b hb rfl
        exact hu (hr.disjoint u t b hb htarget)
      refine ⟨done', hp'.split, hp'.loads, ?_, ?_⟩
      · intro b w hw
        have hb : b ∈ (s₀.threads u).targets s₀.memory := by
          apply Code.mem_targets (v := w)
          rw [hp'.split]
          exact List.mem_append_left _ hw
        rw [Function.update_of_ne (hne b hb)]
        exact hp'.stored b w hw
      · intro b hb
        rw [Function.update_of_ne (hne b (hp'.target hb))]
        exact hp'.waiting b hb
  · have hne : b ≠ a := by
      rintro rfl
      exact hb t htarget
    show Function.update s.memory a v b = s₀.memory b
    rw [Function.update_of_ne hne]
    exact hs.other b hb

theorem step_inv (hr : RaceFree s₀) (hs : Inv s₀ s) (t : ℕ) : Inv s₀ (step s t) := by
  unfold step
  split
  · exact hs
  · next a next ht => exact (hs.load hr ht).2
  · next a v next ht => exact hs.store hr ht

theorem run_inv (hr : RaceFree s₀) (hs : Inv s₀ s) (order : List ℕ) : Inv s₀ (run s order) := by
  induction order generalizing s with
  | nil => exact hs
  | cons t order ih => exact ih (step_inv hr hs t)

/-! ## Finishing -/

/-- The instructions thread `t` has left. -/
def left (s₀ s : State A V) (t : ℕ) : ℕ := (s.threads t).length s₀.memory

theorem step_left (hr : RaceFree s₀) (hs : Inv s₀ s) (t : ℕ) :
    left s₀ (step s t) t = left s₀ s t - 1 := by
  unfold left step
  split
  · next r ht => simp [ht, Code.length]
  · next a next ht => simp [ht, Code.length, (hs.load hr ht).1]
  · next a v next ht => simp [ht, Code.length]

/-- An instruction of `t` leaves the other threads alone. -/
theorem step_of_ne {t u : ℕ} (h : u ≠ t) : (step s t).threads u = s.threads u := by
  unfold step
  split
  · rfl
  · exact Function.update_of_ne h ..
  · exact Function.update_of_ne h ..

theorem run_left (hr : RaceFree s₀) (hs : Inv s₀ s) (order : List ℕ) (u : ℕ) :
    left s₀ (run s order) u = left s₀ s u - order.count u := by
  induction order generalizing s with
  | nil => simp [run]
  | cons t order ih =>
    have hrun : run s (t :: order) = run (step s t) order := rfl
    rw [hrun, ih (step_inv hr hs t)]
    by_cases h : t = u
    · subst h
      rw [step_left hr hs, List.count_cons_self]
      omega
    · have hsame : left s₀ (step s t) u = left s₀ s u := by
        unfold left
        rw [step_of_ne (Ne.symm h)]
      rw [hsame, List.count_cons_of_ne h]

omit [DecidableEq A] in
theorem le_count_drain {n t : ℕ} (ht : t < n) : left s s t ≤ (drain s n).count t := by
  induction n with
  | zero => omega
  | succ n ih =>
    have hsucc : drain s (n + 1) =
        drain s n ++ List.replicate ((s.threads n).length s.memory) n := by
      unfold drain
      rw [List.range_succ, List.flatMap_append]
      simp
    rw [hsucc, List.count_append]
    rcases Nat.lt_succ_iff_lt_or_eq.mp ht with h | rfl
    · have := ih h
      omega
    · rw [List.count_replicate_self]
      unfold left
      omega

/-- The threads below `n` have nothing left after a launch. -/
theorem launch_done (hr : RaceFree s) {n t : ℕ} (ht : t < n) (order : List ℕ) :
    ((run s (order ++ drain s n)).threads t).stores s.memory = [] := by
  have hleft := run_left hr (Inv.refl s) (order ++ drain s n) t
  have hdrain := le_count_drain (s := s) ht
  rw [List.count_append] at hleft
  have hzero : left s (run s (order ++ drain s n)) t = 0 := by omega
  unfold left at hzero
  cases hc : (run s (order ++ drain s n)).threads t with
  | ret r => rfl
  | load a next => simp [hc, Code.length] at hzero
  | store a v next => simp [hc, Code.length] at hzero

/-- **Every cell that is written holds its value**, in whatever order the threads ran. -/
theorem launch_stored (hr : RaceFree s) {n t : ℕ} (ht : t < n) (order : List ℕ) {a : A} {v : V a}
    (ha : ⟨a, v⟩ ∈ (s.threads t).stores s.memory) : launch s n order a = v := by
  obtain ⟨done, hp⟩ := (run_inv hr (Inv.refl s) (order ++ drain s n)).thread t
  have hsplit := hp.split
  rw [launch_done hr ht, List.append_nil] at hsplit
  exact hp.stored a v (hsplit ▸ ha)

/-- **Every other cell keeps its value.** -/
theorem launch_other (hr : RaceFree s) (n : ℕ) (order : List ℕ) {a : A}
    (ha : ∀ t, a ∉ (s.threads t).targets s.memory) : launch s n order a = s.memory a :=
  (run_inv hr (Inv.refl s) _).other a ha

/-- **A stopped run** has written a cell or left it alone. -/
theorem run_stored (hr : RaceFree s) (order : List ℕ) (a : A) :
    (run s order).memory a = s.memory a ∨
      ∃ t, ⟨a, (run s order).memory a⟩ ∈ (s.threads t).stores s.memory := by
  have hinv := run_inv hr (Inv.refl s) order
  by_cases ha : ∀ t, a ∉ (s.threads t).targets s.memory
  · exact .inl (hinv.other a ha)
  · push Not at ha
    obtain ⟨t, ha⟩ := ha
    obtain ⟨done, hp⟩ := hinv.thread t
    obtain ⟨⟨b, v⟩, hb, rfl⟩ := List.mem_map.mp ha
    rw [hp.split] at hb
    rcases List.mem_append.mp hb with h | h
    · refine .inr ⟨t, ?_⟩
      rw [hp.stored b v h, hp.split]
      exact List.mem_append_left _ h
    · exact .inl (hp.waiting b (Code.mem_targets _ h))

end Threads
