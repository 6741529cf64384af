import Mathlib

/-!
# Lists threaded through an index table

Linked lists whose nodes are the entries of a table: a link is an index, the end is `none`.

* `Chain next h xs`: following `next` from `h` visits exactly `xs` and stops.
  `Chain.push`, `Chain.congr`, `Chain.iterate_eq`.
* `walk next n h`: the first `n` entries that following `next` from `h` visits; `Chain.walk_eq`.
* `DSeg prev next p xs q`: a doubly linked segment between the neighbours `p` and `q`.
  `DSeg.append_iff` cuts a segment in two, `DSeg.set_succ` and `DSeg.set_pred` re-link its ends.
-/

namespace Threaded

variable {ι : Type*}

/-! ## Singly linked -/

/-- Following `next` from `h` visits exactly `xs`, then stops. -/
def Chain (next : ι → Option ι) : Option ι → List ι → Prop
  | h, [] => h = none
  | h, x :: xs => h = some x ∧ Chain next (next x) xs

variable {next next' : ι → Option ι} {h : Option ι} {x : ι} {xs ys : List ι}

@[simp] theorem chain_nil : Chain next h [] ↔ h = none := Iff.rfl

@[simp] theorem chain_cons : Chain next h (x :: xs) ↔ h = some x ∧ Chain next (next x) xs := Iff.rfl

theorem Chain.head_eq (hc : Chain next h xs) : h = xs.head? := by
  cases xs with
  | nil => exact hc
  | cons x xs => exact hc.1

/-- A chain only depends on the links of the entries it visits. -/
theorem Chain.congr (hc : Chain next h xs) (he : ∀ x ∈ xs, next' x = next x) :
    Chain next' h xs := by
  induction xs generalizing h with
  | nil => exact hc
  | cons x xs ih =>
    refine ⟨hc.1, ?_⟩
    rw [he x List.mem_cons_self]
    exact ih hc.2 fun y hy => he y (List.mem_cons_of_mem _ hy)

/-- **A new entry goes in front.** -/
theorem Chain.push (hc : Chain next h xs) (hx : next' x = h)
    (he : ∀ y ∈ xs, next' y = next y) : Chain next' (some x) (x :: xs) :=
  ⟨rfl, by rw [hx]; exact hc.congr he⟩

/-- **Following the links** `k` times leads to entry `k`, and to none after the last. -/
theorem Chain.iterate_eq (hc : Chain next h xs) (k : ℕ) :
    (fun o : Option ι => o.bind next)^[k] h = xs[k]? := by
  induction xs generalizing h k with
  | nil =>
    rw [chain_nil.mp hc, List.getElem?_nil]
    exact Function.iterate_fixed rfl k
  | cons x xs ih =>
    rw [hc.1]
    cases k with
    | zero => rfl
    | succ k =>
      rw [Function.iterate_succ_apply, List.getElem?_cons_succ]
      exact ih hc.2 k

/-- The first `n` entries on the way from `h`. -/
def walk (next : ι → Option ι) : ℕ → Option ι → List ι
  | 0, _ => []
  | _ + 1, none => []
  | n + 1, some x => x :: walk next n (next x)

theorem Chain.walk_eq (hc : Chain next h xs) {n : ℕ} (hn : xs.length ≤ n) : walk next n h = xs := by
  induction xs generalizing h n with
  | nil =>
    rw [chain_nil.mp hc]
    cases n <;> rfl
  | cons x xs ih =>
    obtain ⟨k, rfl⟩ : ∃ k, n = k + 1 := ⟨n - 1, by rw [List.length_cons] at hn; omega⟩
    rw [hc.1, walk, ih hc.2 (by rw [List.length_cons] at hn; omega)]

/-! ## Doubly linked -/

/-- The entries `xs` are linked in order, with predecessor `p` and successor `q` at the ends. -/
def DSeg (prev next : ι → Option ι) : Option ι → List ι → Option ι → Prop
  | _, [], _ => True
  | p, x :: xs, q => prev x = p ∧ next x = xs.head?.or q ∧ DSeg prev next (some x) xs q

variable {prev prev' : ι → Option ι} {p p' q q' : Option ι} {l r : List ι}

@[simp] theorem dseg_nil : DSeg prev next p [] q := trivial

@[simp] theorem dseg_cons : DSeg prev next p (x :: xs) q ↔
    prev x = p ∧ next x = xs.head?.or q ∧ DSeg prev next (some x) xs q := Iff.rfl

/-- **Cutting a segment.** -/
theorem DSeg.append_iff : DSeg prev next p (l ++ r) q ↔
    DSeg prev next p l (r.head?.or q) ∧ DSeg prev next (l.getLast?.or p) r q := by
  induction l generalizing p with
  | nil => simp
  | cons x l ih =>
    have hl : (x :: l).getLast?.or p = l.getLast?.or (some x) := by
      rw [List.getLast?_cons]
      cases l.getLast? <;> rfl
    have hh : (l ++ r).head?.or q = l.head?.or (r.head?.or q) := by
      cases l <;> simp
    rw [List.cons_append, dseg_cons, dseg_cons, ih, hl, hh]
    tauto

theorem DSeg.congr (hs : DSeg prev next p xs q) (hp : ∀ x ∈ xs, prev' x = prev x)
    (hn : ∀ x ∈ xs, next' x = next x) : DSeg prev' next' p xs q := by
  induction xs generalizing p with
  | nil => trivial
  | cons x xs ih =>
    refine ⟨?_, ?_, ih hs.2.2 (fun y hy => hp y (List.mem_cons_of_mem _ hy))
      (fun y hy => hn y (List.mem_cons_of_mem _ hy))⟩
    · rw [hp x List.mem_cons_self]; exact hs.1
    · rw [hn x List.mem_cons_self]; exact hs.2.1

/-- The links of a whole list, read forwards. -/
theorem DSeg.chain (hs : DSeg prev next p xs none) : Chain next xs.head? xs := by
  induction xs generalizing p with
  | nil => rfl
  | cons x xs ih =>
    refine ⟨rfl, ?_⟩
    rw [hs.2.1, Option.or_none]
    exact ih hs.2.2

/-- **The last entry gets a new successor.** -/
theorem DSeg.set_succ (hs : DSeg prev next p xs q) (hnd : xs.Nodup)
    (hp : ∀ x ∈ xs, prev' x = prev x)
    (hn : ∀ x ∈ xs, next' x = q' ∧ xs.getLast? = some x ∨
      next' x = next x ∧ xs.getLast? ≠ some x) : DSeg prev' next' p xs q' := by
  induction xs generalizing p with
  | nil => trivial
  | cons x xs ih =>
    obtain ⟨hxn, hnd'⟩ := List.nodup_cons.mp hnd
    have hlast : ∀ y, xs ≠ [] → ((x :: xs).getLast? = some y ↔ xs.getLast? = some y) := by
      intro y hne
      rw [List.getLast?_cons_of_ne_nil hne]
    refine ⟨by rw [hp x List.mem_cons_self]; exact hs.1, ?_, ?_⟩
    · cases xs with
      | nil =>
        rcases hn x List.mem_cons_self with ⟨he, -⟩ | ⟨-, he⟩
        · simpa using he
        · simp at he
      | cons y ys =>
        rcases hn x List.mem_cons_self with ⟨-, he⟩ | ⟨he, -⟩
        · rw [hlast x (by simp)] at he
          exact absurd (List.mem_of_getLast? he) hxn
        · rw [he, hs.2.1]; simp
    · refine ih hs.2.2 hnd' (fun y hy => hp y (List.mem_cons_of_mem _ hy)) fun y hy => ?_
      have := hn y (List.mem_cons_of_mem _ hy)
      rwa [ne_eq, hlast y (List.ne_nil_of_mem hy)] at this

/-- **The first entry gets a new predecessor.** -/
theorem DSeg.set_pred (hs : DSeg prev next p xs q) (hnd : xs.Nodup)
    (hn : ∀ x ∈ xs, next' x = next x)
    (hp : ∀ x ∈ xs, prev' x = p' ∧ xs.head? = some x ∨ prev' x = prev x ∧ xs.head? ≠ some x) :
    DSeg prev' next' p' xs q := by
  cases xs with
  | nil => trivial
  | cons x xs =>
    obtain ⟨hxn, -⟩ := List.nodup_cons.mp hnd
    refine ⟨?_, by rw [hn x List.mem_cons_self]; exact hs.2.1, ?_⟩
    · rcases hp x List.mem_cons_self with ⟨he, -⟩ | ⟨-, he⟩
      · exact he
      · simp at he
    · refine hs.2.2.congr (fun y hy => ?_) fun y hy => hn y (List.mem_cons_of_mem _ hy)
      rcases hp y (List.mem_cons_of_mem _ hy) with ⟨-, he⟩ | ⟨he, -⟩
      · obtain rfl : x = y := by simpa using he
        exact absurd hy hxn
      · exact he

end Threaded
