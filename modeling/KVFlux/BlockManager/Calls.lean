import KVFlux.BlockManager.Run

/-!
# Calls over a richer state

The calls on tables go through the calls on single blocks. `Calls` are calls on single blocks over
any state with a manager in it, for example with a log beside it; the calls on tables are defined
over them as they are over the manager.

* `Calls.acquire`, …, `Calls.run`: the calls on tables and histories of calls.
* `Calls.Keep`, **`Calls.run_keep`**: what the calls on single blocks keep, every history keeps.
* `Calls.Faithful`, **`Calls.run_manager`**: if the calls on single blocks do to the manager what
  they should, so does every history.
-/

namespace KVFlux.BlockManager

open Fallible

/-- The calls on single blocks. -/
structure Calls (σ : Type) where
  manager : σ → BlockManager
  allocate : Call σ BlockHandle
  retain : BlockHandle → Call σ Unit
  release : BlockHandle → Call σ Unit
  publish : Hasher → BlockHandle → Tokens → Call σ Unit
  lookup : Hasher → Tokens → Call σ (Option BlockHandle)

namespace Calls

variable {σ : Type}

/-! ## Calls on tables -/

def releaseAll (C : Calls σ) : List BlockHandle → Call σ Unit
  | [] => pure ()
  | h :: hs => do C.release h; C.releaseAll hs

def acquireBlock (C : Calls σ) (hasher : Hasher) (p : Tokens) (full : Bool) :
    Call (σ × List BlockHandle) Unit := do
  let hit ← (if full then onFst (C.lookup hasher p) else pure none :
    Call (σ × List BlockHandle) (Option BlockHandle))
  match hit with
  | some h => modify (Prod.map id fun blocks => blocks ++ [h])
  | none => do
    let h ← onFst C.allocate
    modify (Prod.map id fun blocks => blocks ++ [h])
    if full then onFst (C.publish hasher h p) else pure ()

def acquireLoop (C : Calls σ) (hasher : Hasher) (blockSize : ℕ) :
    ℕ → Tokens → Tokens → Call (σ × List BlockHandle) Unit
  | 0, _, _ => pure ()
  | fuel + 1, p, rest =>
    if rest = [] then pure ()
    else do
      let count := min blockSize rest.length
      let p := p ++ rest.take count
      C.acquireBlock hasher p (count = blockSize)
      C.acquireLoop hasher blockSize fuel p (rest.drop count)

def acquire (C : Calls σ) (hasher : Hasher) (tokens : Tokens) : Call σ BlockTable := fun s =>
  match C.acquireLoop hasher (C.manager s).blockSize tokens.length [] tokens (s, []) with
  | .ok _ (s, blocks) => .ok ⟨blocks, tokens.length⟩ s
  | .error e (s, blocks) =>
    match C.releaseAll blocks s with
    | .ok _ s => .error e s
    | .error e' s => .error e' s

def retainAll (C : Calls σ) : List BlockHandle → List BlockHandle → Call σ Unit
  | _, [] => pure ()
  | done, h :: hs => do
    onError (C.retain h) (C.releaseAll done)
    C.retainAll (done ++ [h]) hs

def share (C : Calls σ) (table : BlockTable) : Call σ BlockTable := do
  let s ← get
  check ((C.manager s).validate table)
  C.retainAll [] table.blocks
  return table

def releaseTable (C : Calls σ) (table : BlockTable) : Call σ BlockTable := do
  let s ← get
  check ((C.manager s).validate table)
  C.releaseAll table.blocks
  return {}

/-- The state after a call, also after one that throws. -/
def exec (C : Calls σ) (hasher : Hasher) (s : σ) : Op → σ
  | .allocate => finalState (C.allocate s)
  | .retain h => finalState (C.retain h s)
  | .release h => finalState (C.release h s)
  | .publish h p => finalState (C.publish hasher h p s)
  | .lookup p => finalState (C.lookup hasher p s)
  | .acquire tokens => finalState (C.acquire hasher tokens s)
  | .share table => finalState (C.share table s)
  | .releaseTable table => finalState (C.releaseTable table s)

def run (C : Calls σ) (s : σ) (ops : List (Hasher × Op)) : σ :=
  ops.foldl (fun s c => C.exec c.1 s c.2) s

/-! ## Invariants -/

variable {C : Calls σ} {I : σ → Prop} {hasher : Hasher}

/-- The calls on single blocks keep `I`. -/
structure Keep (C : Calls σ) (I : σ → Prop) (hasher : Hasher) : Prop where
  allocate : Keeps I C.allocate
  retain : ∀ h, Keeps I (C.retain h)
  release : ∀ h, Keeps I (C.release h)
  publish : ∀ h p, Keeps I (C.publish hasher h p)
  lookup : ∀ p, Keeps I (C.lookup hasher p)

namespace Keep

theorem releaseAll (hk : C.Keep I hasher) (hs : List BlockHandle) : Keeps I (C.releaseAll hs) := by
  induction hs with
  | nil => exact .pure ()
  | cons h hs ih => exact .bind (hk.release h) fun _ => ih

theorem acquireBlock (hk : C.Keep I hasher) (p : Tokens) (full : Bool) :
    Keeps (fun s => I s.1) (C.acquireBlock hasher p full) := by
  unfold Calls.acquireBlock
  refine .bind ?_ fun hit => ?_
  · split_ifs
    · exact .onFst (hk.lookup p)
    · exact .pure none
  cases hit with
  | some h => exact .modify fun _ hs => hs
  | none =>
    refine .bind (.onFst hk.allocate) fun h => .bind (.modify fun _ hs => hs) fun _ => ?_
    split_ifs
    · exact .onFst (hk.publish h p)
    · exact .pure ()

theorem acquireLoop (hk : C.Keep I hasher) (blockSize fuel : ℕ) : ∀ p rest,
    Keeps (fun s => I s.1) (C.acquireLoop hasher blockSize fuel p rest) := by
  induction fuel with
  | zero => intro p rest; exact .pure ()
  | succ fuel ih =>
    intro p rest
    unfold Calls.acquireLoop
    split_ifs
    · exact .pure ()
    · exact .bind (hk.acquireBlock _ _) fun _ => ih _ _

theorem acquire (hk : C.Keep I hasher) (tokens : Tokens) : Keeps I (C.acquire hasher tokens) := by
  intro s hs
  have hl := hk.acquireLoop (C.manager s).blockSize tokens.length [] tokens (s, []) hs
  unfold Calls.acquire
  cases hc : C.acquireLoop hasher (C.manager s).blockSize tokens.length [] tokens (s, []) with
  | ok u st => rw [hc] at hl; exact hl
  | error e st =>
    rw [hc] at hl
    have hr := hk.releaseAll st.2 st.1 hl
    simp only
    cases he : C.releaseAll st.2 st.1 with
    | ok u s' => rw [he] at hr; exact hr
    | error e' s' => rw [he] at hr; exact hr

theorem retainAll (hk : C.Keep I hasher) (hs : List BlockHandle) :
    ∀ done, Keeps I (C.retainAll done hs) := by
  induction hs with
  | nil => intro done; exact .pure ()
  | cons h hs ih =>
    intro done
    exact .bind (.onError (hk.retain h) (hk.releaseAll done)) fun _ => ih _

theorem exec (hk : C.Keep I hasher) (op : Op) {s : σ} (hs : I s) : I (C.exec hasher s op) := by
  cases op with
  | allocate => exact hk.allocate s hs
  | retain h => exact hk.retain h s hs
  | release h => exact hk.release h s hs
  | publish h p => exact hk.publish h p s hs
  | lookup p => exact hk.lookup p s hs
  | acquire tokens => exact hk.acquire tokens s hs
  | share table =>
    have hx : Keeps I (C.share table) :=
      .bind .get fun _ => .bind (.check _) fun _ => .bind (hk.retainAll _ _) fun _ => .pure _
    exact hx s hs
  | releaseTable table =>
    have hx : Keeps I (C.releaseTable table) :=
      .bind .get fun _ => .bind (.check _) fun _ => .bind (hk.releaseAll _) fun _ => .pure _
    exact hx s hs

end Keep

/-- **What the calls on single blocks keep, every history keeps.** -/
theorem run_keep (ops : List (Hasher × Op)) : ∀ {s : σ}, (∀ c ∈ ops, C.Keep I c.1) → I s →
    I (C.run s ops) := by
  induction ops with
  | nil => intro s _ hs; exact hs
  | cons c ops ih =>
    intro s hk hs
    exact ih (fun d hd => hk d (List.mem_cons_of_mem _ hd)) ((hk c List.mem_cons_self).exec c.2 hs)

/-! ## The manager in the state -/

/-- The calls on single blocks do to the manager what they should. -/
structure Faithful (C : Calls σ) : Prop where
  allocate : Projects C.manager C.allocate BlockManager.allocate
  retain : ∀ h, Projects C.manager (C.retain h) (BlockManager.retain h)
  release : ∀ h, Projects C.manager (C.release h) (BlockManager.release h)
  publish : ∀ hasher h p,
    Projects C.manager (C.publish hasher h p) (BlockManager.publish hasher h p)
  lookup : ∀ hasher p, Projects C.manager (C.lookup hasher p) (BlockManager.lookup hasher p)

namespace Faithful

theorem releaseAll (hf : C.Faithful) (hs : List BlockHandle) :
    Projects C.manager (C.releaseAll hs) (BlockManager.releaseAll hs) := by
  induction hs with
  | nil => exact .pure ()
  | cons h hs ih => exact .bind (hf.release h) fun _ => ih

theorem acquireBlock (hf : C.Faithful) (hasher : Hasher) (p : Tokens) (full : Bool) :
    Projects (Prod.map C.manager id) (C.acquireBlock hasher p full)
      (BlockManager.acquireBlock hasher p full) := by
  unfold Calls.acquireBlock BlockManager.acquireBlock
  refine .bind ?_ fun hit => ?_
  · split_ifs
    · exact .onFst (hf.lookup hasher p)
    · exact .pure none
  cases hit with
  | some h => exact .modify fun _ => rfl
  | none =>
    refine .bind (.onFst hf.allocate) fun h => .bind (.modify fun _ => rfl) fun _ => ?_
    split_ifs
    · exact .onFst (hf.publish hasher h p)
    · exact .pure ()

theorem acquireLoop (hf : C.Faithful) (hasher : Hasher) (blockSize fuel : ℕ) : ∀ p rest,
    Projects (Prod.map C.manager id) (C.acquireLoop hasher blockSize fuel p rest)
      (BlockManager.acquireLoop hasher blockSize fuel p rest) := by
  induction fuel with
  | zero => intro p rest; exact .pure ()
  | succ fuel ih =>
    intro p rest
    unfold Calls.acquireLoop BlockManager.acquireLoop
    split_ifs
    · exact .pure ()
    · exact .bind (hf.acquireBlock _ _ _) fun _ => ih _ _

theorem acquire (hf : C.Faithful) (hasher : Hasher) (tokens : Tokens) :
    Projects C.manager (C.acquire hasher tokens) (BlockManager.acquire hasher tokens) := by
  intro s
  have hl := hf.acquireLoop hasher (C.manager s).blockSize tokens.length [] tokens (s, [])
  have hl : _ = BlockManager.acquireLoop hasher (C.manager s).blockSize tokens.length [] tokens
    (C.manager s, []) := hl
  unfold Calls.acquire BlockManager.acquire
  rw [← hl]
  cases C.acquireLoop hasher (C.manager s).blockSize tokens.length [] tokens (s, []) with
  | ok u st => rfl
  | error e st =>
    have hr : _ = BlockManager.releaseAll st.2 (C.manager st.1) := hf.releaseAll st.2 st.1
    simp only [mapState, Prod.map, id]
    rw [← hr]
    cases C.releaseAll st.2 st.1 <;> rfl

theorem retainAll (hf : C.Faithful) (hs : List BlockHandle) :
    ∀ done, Projects C.manager (C.retainAll done hs) (BlockManager.retainAll done hs) := by
  induction hs with
  | nil => intro done; exact .pure ()
  | cons h hs ih =>
    intro done
    exact .bind (.onError (hf.retain h) (hf.releaseAll done)) fun _ => ih _

theorem share (hf : C.Faithful) (table : BlockTable) :
    Projects C.manager (C.share table) (BlockManager.share table) := by
  unfold Calls.share BlockManager.share
  refine Projects.read (f := fun m : BlockManager => check (m.validate table) >>= fun _ =>
    C.retainAll [] table.blocks >>= fun _ => pure table) fun m => ?_
  exact .bind (.check _) fun _ => .bind (hf.retainAll _ _) fun _ => .pure _

theorem releaseTable (hf : C.Faithful) (table : BlockTable) :
    Projects C.manager (C.releaseTable table) (BlockManager.releaseTable table) := by
  unfold Calls.releaseTable BlockManager.releaseTable
  refine Projects.read (f := fun m : BlockManager => check (m.validate table) >>= fun _ =>
    C.releaseAll table.blocks >>= fun _ => pure ({} : BlockTable)) fun m => ?_
  exact .bind (.check _) fun _ => .bind (hf.releaseAll _) fun _ => .pure _

theorem exec (hf : C.Faithful) (hasher : Hasher) (s : σ) (op : Op) :
    C.manager (C.exec hasher s op) = op.exec hasher (C.manager s) := by
  cases op with
  | allocate => exact hf.allocate.finalState s
  | retain h => exact (hf.retain h).finalState s
  | release h => exact (hf.release h).finalState s
  | publish h p => exact (hf.publish hasher h p).finalState s
  | lookup p => exact (hf.lookup hasher p).finalState s
  | acquire tokens => exact (hf.acquire hasher tokens).finalState s
  | share table => exact (hf.share table).finalState s
  | releaseTable table => exact (hf.releaseTable table).finalState s

end Faithful

/-- **The manager in the state of a history** is that of the history. -/
theorem run_manager (hf : C.Faithful) (ops : List (Hasher × Op)) :
    ∀ s : σ, C.manager (C.run s ops) = BlockManager.run (C.manager s) ops := by
  induction ops with
  | nil => intro s; rfl
  | cons c ops ih =>
    intro s
    have hstep : C.manager (C.run s (c :: ops)) =
        BlockManager.run (C.manager (C.exec c.1 s c.2)) ops := ih _
    rw [hstep, hf.exec]
    rfl

end Calls

end KVFlux.BlockManager
