import KVFlux.IndexLru

/-!
# Runs of the index-linked list

* `IndexLru.Op`: a call of `touch` or `erase`; `apply` on the links, `onList` on the list.
* `IndexLru.Shows l xs`: what a user of the links can see of the list `xs`.
* **`refines_list`**: after any calls the links show the list that the same calls leave.
-/

namespace KVFlux

open Threaded

namespace IndexLru

/-- A call with its id. -/
inductive Op
  | touch (id : ℕ)
  | erase (id : ℕ)
deriving DecidableEq

namespace Op

def id : Op → ℕ
  | touch id | erase id => id

/-- The call. -/
def apply (l : IndexLru) : Op → IndexLru
  | touch id => l.touch id
  | erase id => l.erase id

/-- What the call means. -/
def onList (xs : List ℕ) : Op → List ℕ
  | touch id => xs.erase id ++ [id]
  | erase id => xs.erase id

end Op

/-- **The list as its users see it.** -/
structure Shows (l : IndexLru) (xs : List ℕ) : Prop where
  nodup : xs.Nodup
  oldest_eq : l.oldest = xs.head?
  newest_eq : l.newest = xs.getLast?
  /-- `k` steps from the oldest entry lead to entry `k`, and to none after the last -/
  follow : ∀ k, (fun o : Option ℕ => o.bind l.next)^[k] l.oldest = xs[k]?
  mirror : ∀ i j, l.next i = some j ↔ (l.nodes j).prev = some i
  first : ∀ i, l.oldest = some i → (l.nodes i).prev = none
  present : ∀ i, (l.nodes i).present = true ↔ i ∈ xs
  absent : ∀ i, i ∉ xs → l.nodes i = {}
  erase_absent : ∀ i, i ∉ xs → l.erase i = l

variable {l : IndexLru} {xs : List ℕ} {i j : ℕ}

/-- The entry after `i` has `i` before it. -/
theorem Repr.prev_of_next (h : Repr l xs) (hn : l.next i = some j) : (l.nodes j).prev = some i := by
  have hi : i ∈ xs := by
    by_contra hi
    rw [next, h.absent i hi] at hn
    cases hn
  obtain ⟨a, b, rfl⟩ := List.append_of_mem hi
  have hb : b.head? = some j := h.links.2.symm.trans hn
  obtain ⟨b, rfl⟩ := List.head?_eq_some_iff.mp hb
  have hsplit : Repr l ((a ++ [i]) ++ j :: b) := by
    rw [List.append_assoc]
    exact h
  rw [hsplit.links.1]
  exact List.getLast?_concat ..

/-- The entry before `j` has `j` after it. -/
theorem Repr.next_of_prev (h : Repr l xs) (hp : (l.nodes j).prev = some i) : l.next i = some j := by
  have hj : j ∈ xs := by
    by_contra hj
    rw [h.absent j hj] at hp
    cases hp
  obtain ⟨a, b, rfl⟩ := List.append_of_mem hj
  have ha : a.getLast? = some i := h.links.1.symm.trans hp
  obtain ⟨a, rfl⟩ := List.getLast?_eq_some_iff.mp ha
  have hsplit : Repr l (a ++ i :: j :: b) := by
    rw [List.append_assoc] at h
    exact h
  exact hsplit.links.2

theorem Repr.shows (h : Repr l xs) : Shows l xs where
  nodup := h.nodup
  oldest_eq := h.oldest_eq
  newest_eq := h.newest_eq
  follow k := by
    rw [h.oldest_eq]
    exact h.seg.chain.iterate_eq k
  mirror _ _ := ⟨h.prev_of_next, h.next_of_prev⟩
  first i hi := by
    rw [h.oldest_eq] at hi
    obtain ⟨b, rfl⟩ := List.head?_eq_some_iff.mp hi
    exact (Repr.links (a := []) h).1
  present _ := h.present_iff
  absent := h.absent
  erase_absent _ := h.erase_of_not_mem

/-- One call. -/
theorem Repr.apply (h : Repr l xs) (op : Op) : Repr (op.apply l) (op.onList xs) := by
  cases op with
  | touch id => exact h.touch id
  | erase id => exact h.erase id

/-- Any calls. -/
theorem Repr.run (h : Repr l xs) (ops : List Op) :
    Repr (ops.foldl Op.apply l) (ops.foldl Op.onList xs) := by
  induction ops generalizing l xs with
  | nil => exact h
  | cons op ops ih => exact ih (h.apply op)

/-- The list has only ids of calls. -/
theorem mem_onList {op : Op} (h : i ∈ op.onList xs) : i ∈ xs ∨ i = op.id := by
  cases op with
  | touch id =>
    rcases List.mem_append.mp h with h | h
    · exact .inl (List.mem_of_mem_erase h)
    · exact .inr (List.mem_singleton.mp h)
  | erase id => exact .inl (List.mem_of_mem_erase h)

theorem mem_run {ops : List Op} (h : i ∈ ops.foldl Op.onList xs) :
    i ∈ xs ∨ ∃ op ∈ ops, i = op.id := by
  induction ops generalizing xs with
  | nil => exact .inl h
  | cons op ops ih =>
    rcases ih h with h | ⟨op', hop, rfl⟩
    · rcases mem_onList h with h | rfl
      · exact .inl h
      · exact .inr ⟨op, List.mem_cons_self .., rfl⟩
    · exact .inr ⟨op', List.mem_cons_of_mem _ hop, rfl⟩

/-- **Main result.** After any calls of `touch` and `erase`, with any repeats, the links show the list
that the calls leave, and every entry is an id of a call: below the capacity if the ids are. -/
theorem refines_list (ops : List Op) :
    Shows (ops.foldl Op.apply {}) (ops.foldl Op.onList []) ∧
      ∀ capacity, (∀ op ∈ ops, op.id < capacity) → ∀ i ∈ ops.foldl Op.onList [], i < capacity := by
  refine ⟨(repr_empty.run ops).shows, fun capacity hops i hi => ?_⟩
  rcases mem_run hi with h | ⟨op, hop, rfl⟩
  · cases h
  · exact hops op hop

/-- First, middle, last and only element, an absent one, and one that is touched again. -/
example : [Op.touch 0, .touch 1, .touch 2, .touch 3, .erase 1, .erase 5, .touch 0, .erase 2].foldl
    Op.onList [] = [3, 0] := by decide

end IndexLru

end KVFlux
