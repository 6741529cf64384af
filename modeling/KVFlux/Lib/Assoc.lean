import Mathlib

/-!
# What an association list holds

`collect f s` is the multiset of the values `f b` over the entries of the association list `s`, for
a partial `f`: the slots that a table of records occupies, say. Updating one entry changes it by
what that entry contributes.

* `mem_collect`, `card_collect`.
* **`collect_lookup`**, **`collect_insert`**: an entry split off, and put back with another value.

`weight w s` is the sum of a weight of the entries, with the same two laws, and `sieve g s` keeps
or drops every entry by its key and value.
-/

namespace Assoc

variable {α β γ : Type} {f : β → Option γ} {s : AList fun _ : α => β} {a a' : α}
  {b b' : β}

/-- The multiset of an option. -/
def ofOption : Option γ → Multiset γ
  | none => 0
  | some c => {c}

@[simp] theorem ofOption_none : ofOption (none : Option γ) = 0 := rfl
@[simp] theorem ofOption_some (c : γ) : ofOption (some c) = {c} := rfl

/-- The values of the entries of `s`. -/
def collect (f : β → Option γ) (s : AList fun _ : α => β) : Multiset γ :=
  (s.entries.filterMap fun e => f e.2 : List γ)

@[simp] theorem collect_empty : collect f (∅ : AList fun _ : α => β) = 0 := rfl

/-- The loop that counts the entries with a value. -/
theorem card_collect : (collect f s).card = s.entries.countP fun e => (f e.2).isSome := by
  unfold collect
  rw [Multiset.coe_card]
  induction s.entries with
  | nil => rfl
  | cons e es ih =>
    cases hf : f e.2 with
    | none => simp [hf, ih]
    | some c => simp [hf, ih]

/-- The sum of the weights of the entries. -/
def weight (w : α → β → ℕ) (s : AList fun _ : α => β) : ℕ :=
  (s.entries.map fun e => w e.1 e.2).sum

@[simp] theorem weight_empty (w : α → β → ℕ) : weight w (∅ : AList fun _ : α => β) = 0 := rfl

variable {w w' : α → β → ℕ}

theorem weight_le (h : ∀ a b, w a b ≤ w' a b) : weight w s ≤ weight w' s :=
  List.sum_le_sum fun e _ => h e.1 e.2

/-- Every entry with another value, or dropped. -/
def sieve (g : α → β → Option β) (s : AList fun _ : α => β) : AList fun _ : α => β where
  entries := s.entries.filterMap fun e => (g e.1 e.2).map fun b => (⟨e.1, b⟩ : Sigma fun _ : α => β)
  nodupKeys := by
    have hsub : (s.entries.filterMap fun e =>
        (g e.1 e.2).map fun b => (⟨e.1, b⟩ : Sigma fun _ : α => β)).keys.Sublist s.entries.keys := by
      induction s.entries with
      | nil => exact List.Sublist.refl _
      | cons e es ih =>
        cases hg : g e.1 e.2 with
        | none => simpa [hg] using ih.cons _
        | some b => simpa [hg] using ih.cons_cons e.1
    exact hsub.nodup s.nodupKeys

variable [DecidableEq α]

theorem mem_collect {c : γ} : c ∈ collect f s ↔ ∃ a b, s.lookup a = some b ∧ f b = some c := by
  unfold collect
  rw [Multiset.mem_coe, List.mem_filterMap]
  constructor
  · rintro ⟨⟨a, b⟩, hm, hf⟩
    exact ⟨a, b, AList.mem_lookup_iff.mpr hm, hf⟩
  · rintro ⟨a, b, hl, hf⟩
    exact ⟨⟨a, b⟩, AList.mem_lookup_iff.mp hl, hf⟩

/-- **An entry with a new value.** -/
theorem collect_insert (f : β → Option γ) (s : AList fun _ : α => β) (a : α) (b : β) :
    collect f (s.insert a b) = ofOption (f b) + collect f (s.erase a) := by
  unfold collect
  rw [AList.entries_insert, List.filterMap_cons]
  cases f b <;> rfl

/-- The entries, one of them in front. -/
theorem entries_perm (hl : s.lookup a = some b) :
    s.entries.Perm (⟨a, b⟩ :: (s.erase a).entries) := by
  have hmem : a ∈ s.entries.keys := AList.mem_keys.mp (AList.lookup_isSome.mp (by simp [hl]))
  obtain ⟨b₁, l₁, l₂, hn, he, hk⟩ := List.exists_of_kerase hmem
  obtain rfl : b₁ = b := by
    have : (⟨a, b₁⟩ : Sigma fun _ => β) ∈ s.entries := by rw [he]; simp
    have := AList.mem_lookup_iff.mpr this
    rw [hl] at this
    exact (Option.some.inj this).symm
  show s.entries.Perm (⟨a, b₁⟩ :: s.entries.kerase a)
  rw [hk, he]
  exact List.perm_middle

/-- **An entry split off.** -/
theorem collect_lookup (hl : s.lookup a = some b) :
    collect f s = ofOption (f b) + collect f (s.erase a) := by
  rw [← collect_insert]
  unfold collect
  rw [Multiset.coe_eq_coe]
  exact List.Perm.filterMap _ (entries_perm hl)

theorem collect_erase_of_notMem (ha : a ∉ s) : collect f (s.erase a) = collect f s := by
  unfold collect
  have : (s.erase a).entries = s.entries := List.kerase_of_notMem_keys ha
  rw [this]

theorem collect_insert_of_notMem (ha : a ∉ s) :
    collect f (s.insert a b) = ofOption (f b) + collect f s := by
  rw [collect_insert, collect_erase_of_notMem ha]

theorem lookup_insert (s : AList fun _ : α => β) (a a' : α) (b : β) :
    (s.insert a b).lookup a' = if a' = a then some b else s.lookup a' := by
  split_ifs with h
  · rw [h, AList.lookup_insert]
  · exact AList.lookup_insert_ne h

theorem lookup_erase (s : AList fun _ : α => β) (a a' : α) :
    (s.erase a).lookup a' = if a' = a then none else s.lookup a' := by
  split_ifs with h
  · rw [h, AList.lookup_erase]
  · exact AList.lookup_erase_ne h

/-! ## Weights -/

theorem weight_insert (w : α → β → ℕ) (s : AList fun _ : α => β) (a : α) (b : β) :
    weight w (s.insert a b) = w a b + weight w (s.erase a) := by
  unfold weight
  rw [AList.entries_insert]
  rfl

theorem weight_lookup (hl : s.lookup a = some b) : weight w s = w a b + weight w (s.erase a) := by
  unfold weight
  exact ((entries_perm hl).map _).sum_eq

theorem weight_erase_of_notMem (ha : a ∉ s) : weight w (s.erase a) = weight w s := by
  unfold weight
  have : (s.erase a).entries = s.entries := List.kerase_of_notMem_keys ha
  rw [this]

theorem weight_erase_of_zero (h : ∀ b, w a b = 0) : weight w (s.erase a) = weight w s := by
  cases hl : s.lookup a with
  | none => exact weight_erase_of_notMem (AList.lookup_eq_none.mp hl)
  | some b => rw [weight_lookup hl, h, Nat.zero_add]

/-! ## Sieves -/

theorem lookup_sieve (g : α → β → Option β) (s : AList fun _ : α => β) (a : α) :
    (sieve g s).lookup a = (s.lookup a).bind (g a) := by
  ext b
  rw [← Option.mem_def, AList.mem_lookup_iff]
  simp only [sieve, List.mem_filterMap, Option.map_eq_some_iff]
  constructor
  · rintro ⟨⟨a', b'⟩, hm, c, hg, he⟩
    cases he
    exact Option.bind_eq_some_iff.mpr ⟨b', AList.mem_lookup_iff.mpr hm, hg⟩
  · intro h
    obtain ⟨b', hl, hg⟩ := Option.bind_eq_some_iff.mp h
    exact ⟨⟨a, b'⟩, AList.mem_lookup_iff.mp hl, b, hg, rfl⟩

/-- A sieve keeps the weight if it keeps every entry that has one. -/
theorem weight_sieve {g : α → β → Option β}
    (h : ∀ a b, s.lookup a = some b → (g a b).elim 0 (w a) = w a b) :
    weight w (sieve g s) = weight w s := by
  have hsum : ∀ es : List (Sigma fun _ : α => β),
      (∀ e ∈ es, (g e.1 e.2).elim 0 (w e.1) = w e.1 e.2) →
      ((es.filterMap fun e => (g e.1 e.2).map fun b => (⟨e.1, b⟩ : Sigma fun _ : α => β)).map
        fun e => w e.1 e.2).sum = (es.map fun e => w e.1 e.2).sum := by
    intro es hmem
    induction es with
    | nil => rfl
    | cons e es ih =>
      have he := hmem e List.mem_cons_self
      have hes := ih fun e' h' => hmem e' (List.mem_cons_of_mem _ h')
      rw [List.map_cons, List.sum_cons, ← he, ← hes]
      cases hg : g e.1 e.2 with
      | none => simp [hg]
      | some b => simp [hg]
  exact hsum s.entries fun e he => h _ _ (AList.mem_lookup_iff.mpr he)

end Assoc
