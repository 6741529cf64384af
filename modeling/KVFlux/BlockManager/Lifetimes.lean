import KVFlux.BlockManager.SlotLog

/-!
# Handles name lifetimes

* `Lives log h`: `h` was returned by the last allocation of its slot, and the slot has not gone back
  to the free list since.
* `Guarded m log`: the manager accepts exactly the living handles.
* **`handles_guarded`**: after every history no handle was returned twice, and the manager accepts
  exactly the living handles; with any other handle a call throws and changes nothing.
-/

namespace KVFlux.BlockManager

open Fallible

variable {m m₀ : BlockManager} {log : List SlotEvent} {h : BlockHandle} {capacity : ℕ}

/-- The handle was returned by the last allocation of its slot, and the slot was not freed since. -/
def Lives (log : List SlotEvent) (h : BlockHandle) : Prop :=
  ∃ log₁ log₂, log = log₁ ++ .allocated h :: log₂ ∧
    ∀ e ∈ log₂, e ≠ .freed h.id ∧ ∀ k, e = .allocated k → k.id ≠ h.id

/-- The event neither frees the slot nor hands it out. -/
def SlotEvent.Spares (e : SlotEvent) (id : ℕ) : Prop :=
  e ≠ .freed id ∧ ∀ k, e = .allocated k → k.id ≠ id

theorem lives_append {e : SlotEvent} :
    Lives (log ++ [e]) h ↔ e = .allocated h ∨ Lives log h ∧ e.Spares h.id := by
  constructor
  · rintro ⟨log₁, log₂, hl, hother⟩
    rcases List.eq_nil_or_concat log₂ with rfl | ⟨log₃, a, rfl⟩
    · left
      exact (List.cons.inj (List.append_inj' hl rfl).2).1
    · right
      rw [List.concat_eq_append] at hl hother
      rw [← List.cons_append, ← List.append_assoc] at hl
      obtain ⟨h₁, h₂⟩ := List.append_inj' hl rfl
      obtain rfl : e = a := (List.cons.inj h₂).1
      exact ⟨⟨log₁, log₃, h₁, fun e he => hother e (List.mem_append_left _ he)⟩,
        hother e (by simp)⟩
  · rintro (rfl | ⟨⟨log₁, log₂, rfl, hother⟩, he⟩)
    · exact ⟨log, [], rfl, nofun⟩
    · refine ⟨log₁, log₂ ++ [e], by simp, fun a ha => ?_⟩
      rcases List.mem_append.mp ha with ha | ha
      · exact hother a ha
      · rw [List.mem_singleton.mp ha]
        exact he

theorem apply_eq_some {handle : ℕ → Option BlockHandle} {e : SlotEvent} :
    e.apply handle h.id = some h ↔ e = .allocated h ∨ handle h.id = some h ∧ e.Spares h.id := by
  cases e with
  | allocated k =>
    show Function.update handle k.id (some k) h.id = some h ↔ _
    by_cases hk : h.id = k.id
    · rw [hk, Function.update_self]
      simp [SlotEvent.Spares]
    · rw [Function.update_of_ne hk]
      have : k ≠ h := fun he => hk (by rw [he])
      simp [SlotEvent.Spares, this, Ne.symm hk]
  | freed i =>
    show Function.update handle i none h.id = some h ↔ _
    by_cases hi : h.id = i
    · rw [hi, Function.update_self]
      simp [SlotEvent.Spares]
    · rw [Function.update_of_ne hi]
      simp [SlotEvent.Spares, Ne.symm hi]
  | revived i => simp [SlotEvent.apply, SlotEvent.Spares]
  | idled i => simp [SlotEvent.apply, SlotEvent.Spares]

/-- **A handle lives** if it is the current one of its slot. -/
theorem lives_iff : Lives log h ↔ current log h.id = some h := by
  induction log using List.reverseRecOn with
  | nil =>
    refine iff_of_false ?_ nofun
    rintro ⟨log₁, log₂, hl, -⟩
    cases log₁ <;> cases hl
  | append_singleton log e ih =>
    rw [lives_append, current_append, apply_eq_some, ih]

/-- How the manager answers to handles after the history `log`. -/
structure Guarded (m : BlockManager) (log : List SlotEvent) : Prop where
  /-- No handle is returned twice. -/
  nodup : (handles log).Nodup
  retain_iff : ∀ h, (∃ m', retain h m = .ok () m') ↔ Lives log h ∧ (m.slots h.id).refs ≠ sizeMax
  release_iff : ∀ h, (∃ m', release h m = .ok () m') ↔ Lives log h ∧ (m.slots h.id).refs ≠ 0
  refCount_iff : ∀ h, (∃ n, m.refCount h = .ok n) ↔ Lives log h
  isPublished_iff : ∀ h, (∃ b, m.isPublished h = .ok b) ↔ Lives log h
  /-- A call with any other handle throws and changes nothing. -/
  foreign : ∀ h, ¬ Lives log h → retain h m = .error staleHandle m ∧
    release h m = .error staleHandle m ∧ m.refCount h = .error staleHandle ∧
    m.isPublished h = .error staleHandle ∧
    ∀ hasher p, publish hasher h p m = .error staleHandle m
  /-- So does a call with a table that has such a handle. -/
  tables : ∀ (table : BlockTable) h, h ∈ table.blocks → ¬ Lives log h →
    (∃ e, share table m = .error e m) ∧ ∃ e, releaseTable table m = .error e m
  /-- A call that throws changes nothing. -/
  unchanged : ∀ h e m', retain h m = .error e m' ∨ release h m = .error e m' → m' = m

theorem Slots.valid_iff (hs : Slots capacity (m, log)) : m.Valid h ↔ Lives log h := by
  rw [lives_iff, hs.current_eq]
  unfold Valid
  have hlt := @Shape.lt_capacity m _ _ h.id hs.shape
  show _ ↔ (if (m.slots h.id).free then none else some ⟨h.id, (m.slots h.id).generation⟩) = some h
  cases hf : (m.slots h.id).free with
  | true => simp
  | false =>
    simp only [hlt hf, true_and, Bool.false_eq_true, if_false, Option.some.injEq]
    exact ⟨fun hg => by rw [hg], fun hg => congrArg BlockHandle.generation hg⟩

theorem Slots.guarded (hs : Slots capacity (m, log)) : Guarded m log where
  nodup := hs.nodup
  retain_iff h := by
    rw [← hs.valid_iff]
    rcases retain_cases h m with ⟨hv, hc⟩ | ⟨hv, hr, hc⟩ | ⟨hv, hr, hc⟩
    · exact iff_of_false (by rw [hc]; nofun) fun hx => hv hx.1
    · exact iff_of_false (by rw [hc]; nofun) fun hx => hx.2 hr
    · exact iff_of_true ⟨_, hc⟩ ⟨hv, hr⟩
  release_iff h := by
    rw [← hs.valid_iff]
    rcases release_cases h m with ⟨hv, hc⟩ | ⟨hv, hr, hc⟩ | ⟨hv, hr, hc⟩
    · exact iff_of_false (by rw [hc]; nofun) fun hx => hv hx.1
    · exact iff_of_false (by rw [hc]; nofun) fun hx => hx.2 hr
    · exact iff_of_true ⟨_, hc⟩ ⟨hv, hr⟩
  refCount_iff h := by
    rw [← hs.valid_iff, refCount]
    by_cases hv : m.Valid h
    · rw [checked_ok h hv]
      exact iff_of_true ⟨_, rfl⟩ hv
    · rw [checked_error h hv]
      exact iff_of_false nofun hv
  isPublished_iff h := by
    rw [← hs.valid_iff, isPublished]
    by_cases hv : m.Valid h
    · rw [checked_ok h hv]
      exact iff_of_true ⟨_, rfl⟩ hv
    · rw [checked_error h hv]
      exact iff_of_false nofun hv
  foreign h hl := by
    rw [← hs.valid_iff] at hl
    have hc := checked_error h hl
    refine ⟨?_, ?_, ?_, ?_, fun hasher p => ?_⟩
    · rw [retain, hc]
    · rw [release, hc]
    · rw [refCount, hc]; rfl
    · rw [isPublished, hc]; rfl
    · rw [publish, hc]
  tables table h hm hl := by
    rw [← hs.valid_iff] at hl
    constructor
    · rcases share_cases table m with ⟨ho, -⟩ | hc
      · exact absurd (ho.valid h hm) hl
      · exact hc
    · rcases releaseTable_cases table m with ⟨ho, -⟩ | hc
      · exact absurd (ho.valid h hm) hl
      · exact hc
  unchanged h e m' hx := by
    rcases hx with hx | hx
    · rcases retain_cases h m with ⟨-, hc⟩ | ⟨-, -, hc⟩ | ⟨-, -, hc⟩ <;> rw [hc] at hx <;> cases hx <;>
        rfl
    · rcases release_cases h m with ⟨-, hc⟩ | ⟨-, -, hc⟩ | ⟨-, -, hc⟩ <;> rw [hc] at hx <;>
        cases hx <;> rfl

/-- **Main result.** After every history of calls no handle has been returned twice, by `allocate`
or inside `acquire`, and the manager accepts exactly the handles that name the current lifetime of
their slot; every call with another handle throws and changes nothing. -/
theorem handles_guarded {blockSize : ℕ} {hasher : Option Hasher}
    (hn : new capacity blockSize hasher = .ok m₀) (ops : List (Hasher × Op)) :
    Guarded (run m₀ ops) (slotHistory m₀ ops).2 := by
  have hs := slotHistory_slots hn ops
  have hfst := slotHistory_fst m₀ ops
  rw [← hfst]
  exact hs.guarded

/-- A published block that is released keeps its lifetime; the eviction by the next allocation ends
it. -/
theorem handles_guarded_evicted :
    let ops : List (Hasher × Op) := [(fun _ => .ok 0, .acquire [1]), (fun _ => .ok 0, .release ⟨0, 1⟩)]
    (∃ n, (run (init 1 1) ops).refCount ⟨0, 1⟩ = .ok n) ∧
      retain ⟨0, 1⟩ (run (init 1 1) (ops ++ [(fun _ => .ok 0, .allocate)])) =
        .error staleHandle (run (init 1 1) (ops ++ [(fun _ => .ok 0, .allocate)])) := by
  intro ops
  have hn : new 1 1 (some fun _ => .ok 0) = .ok (init 1 1) := rfl
  refine ⟨((handles_guarded hn ops).refCount_iff ⟨0, 1⟩).mpr (lives_iff.mpr (by decide +kernel)),
    ((handles_guarded hn _).foreign ⟨0, 1⟩ fun hl => ?_).1⟩
  exact absurd (lives_iff.mp hl) (by decide +kernel)

end KVFlux.BlockManager
