import KVFlux.Lib.Chain

/-!
# The index-linked LRU list

`IndexLru` is a doubly linked list threaded through a table of nodes, oldest entry first. It holds
the idle cached blocks of a block manager and the resident blocks of the tiered manager.

* `IndexLru.erase`, `IndexLru.touch`: the two updates.
* `IndexLru.Repr l xs`: the links of `l` spell the duplicate-free list `xs`.
* **`Repr.erase`**, **`Repr.touch`**: the updates are `xs.erase id` and `xs.erase id ++ [id]`.
-/

namespace KVFlux

open Threaded

/-- One node; the index `none` of the source is `Option.none`. -/
structure IndexLru.Node where
  prev : Option ℕ := none
  next : Option ℕ := none
  present : Bool := false
deriving DecidableEq, Repr

/-- The list. Callers only pass ids below the capacity, so the table is total. -/
structure IndexLru where
  nodes : ℕ → IndexLru.Node := fun _ => {}
  oldest : Option ℕ := none
  newest : Option ℕ := none

namespace IndexLru

def setNode (l : IndexLru) (id : ℕ) (n : Node) : IndexLru :=
  { l with nodes := Function.update l.nodes id n }

/-- `next(id)`. -/
def next (l : IndexLru) (id : ℕ) : Option ℕ := (l.nodes id).next

/-- `erase(id)`: a node that is not present is left alone. -/
def erase (l : IndexLru) (id : ℕ) : IndexLru :=
  let n := l.nodes id
  if n.present then
    let l := match n.prev with
      | none => { l with oldest := n.next }
      | some p => l.setNode p { l.nodes p with next := n.next }
    let l := match n.next with
      | none => { l with newest := n.prev }
      | some q => l.setNode q { l.nodes q with prev := n.prev }
    l.setNode id {}
  else l

/-- `touch(id)`: move or add `id` at the newest end. -/
def touch (l : IndexLru) (id : ℕ) : IndexLru :=
  let l := l.erase id
  let l := l.setNode id { l.nodes id with present := true, prev := l.newest }
  let l := match l.newest with
    | none => { l with oldest := some id }
    | some m => l.setNode m { l.nodes m with next := some id }
  { l with newest := some id }

/-- The links of `l` spell `xs`, oldest first; all other nodes are blank. -/
structure Repr (l : IndexLru) (xs : List ℕ) : Prop where
  nodup : xs.Nodup
  oldest_eq : l.oldest = xs.head?
  newest_eq : l.newest = xs.getLast?
  seg : DSeg (fun i => (l.nodes i).prev) (fun i => (l.nodes i).next) none xs none
  present : ∀ i ∈ xs, (l.nodes i).present = true
  absent : ∀ i, i ∉ xs → l.nodes i = {}

variable {l : IndexLru} {xs : List ℕ} {id : ℕ}

theorem repr_empty : Repr {} [] where
  nodup := List.nodup_nil
  oldest_eq := rfl
  newest_eq := rfl
  seg := trivial
  present := nofun
  absent _ _ := rfl

theorem Repr.present_iff (h : Repr l xs) : (l.nodes id).present = true ↔ id ∈ xs := by
  refine ⟨fun hp => ?_, h.present id⟩
  by_contra hx
  rw [h.absent id hx] at hp
  cases hp

theorem Repr.erase_of_not_mem (h : Repr l xs) (hx : id ∉ xs) : l.erase id = l := by
  simp [IndexLru.erase, h.absent id hx]

/-- The two neighbours of a present node, read off the list around it. -/
theorem Repr.links {a b : List ℕ} (h : Repr l (a ++ id :: b)) :
    (l.nodes id).prev = a.getLast? ∧ (l.nodes id).next = b.head? := by
  have hs := (DSeg.append_iff.mp h.seg).2
  exact ⟨by simpa using hs.1, by simpa using hs.2.1⟩

theorem erase_nodes (l : IndexLru) (hp : (l.nodes id).present = true)
    (hne : (l.nodes id).prev = (l.nodes id).next → (l.nodes id).prev = none) (i : ℕ) :
    (l.erase id).nodes i =
      if i = id then {}
      else if (l.nodes id).next = some i then ⟨(l.nodes id).prev, (l.nodes i).next, (l.nodes i).present⟩
      else if (l.nodes id).prev = some i then ⟨(l.nodes i).prev, (l.nodes id).next, (l.nodes i).present⟩
      else l.nodes i := by
  by_cases hi : i = id
  · subst hi
    simp [erase, hp, setNode]
  cases hprev : (l.nodes id).prev with
  | none =>
    cases hnext : (l.nodes id).next with
    | none => simp [IndexLru.erase, hp, hprev, hnext, setNode, Function.update_apply]
    | some q =>
      by_cases hq : i = q <;>
        simp [erase, hp, hprev, hnext, setNode, Function.update_apply, hi, hq, eq_comm]
  | some p =>
    cases hnext : (l.nodes id).next with
    | none =>
      by_cases hq : i = p <;>
        simp [erase, hp, hprev, hnext, setNode, Function.update_apply, hi, hq, eq_comm]
    | some q =>
      have hpq : p ≠ q := by
        rintro rfl
        simpa [hprev] using hne (hprev.trans hnext.symm)
      by_cases hq : i = q
      · subst hq
        simp [erase, hp, hprev, hnext, setNode, hi, hpq.symm]
      · by_cases hq' : i = p
        · subst hq'
          simp [erase, hp, hprev, hnext, setNode, hi, hq, Ne.symm hq]
        · simp [erase, hp, hprev, hnext, setNode, hi, hq, hq', Ne.symm hq, Ne.symm hq']

theorem erase_oldest (l : IndexLru) (hp : (l.nodes id).present = true) :
    (l.erase id).oldest =
      if (l.nodes id).prev = none then (l.nodes id).next else l.oldest := by
  cases hprev : (l.nodes id).prev <;> cases hnext : (l.nodes id).next <;>
    simp [IndexLru.erase, hp, hprev, hnext, setNode]

theorem erase_newest (l : IndexLru) (hp : (l.nodes id).present = true) :
    (l.erase id).newest =
      if (l.nodes id).next = none then (l.nodes id).prev else l.newest := by
  cases hprev : (l.nodes id).prev <;> cases hnext : (l.nodes id).next <;>
    simp [IndexLru.erase, hp, hprev, hnext, setNode]

/-- **`erase` removes one element**, wherever it stands. -/
theorem Repr.erase (h : Repr l xs) (id : ℕ) : Repr (l.erase id) (xs.erase id) := by
  by_cases hx : id ∈ xs
  swap
  · rw [h.erase_of_not_mem hx, List.erase_of_not_mem hx]; exact h
  obtain ⟨a, b, rfl⟩ := List.append_of_mem hx
  obtain ⟨hprev, hnext⟩ := h.links
  have hp := h.present id hx
  have hnd := h.nodup
  have hia : id ∉ a := fun hm => (List.nodup_append.mp hnd).2.2 _ hm _ List.mem_cons_self rfl
  have hib : id ∉ b := (List.nodup_cons.mp (List.nodup_append.mp hnd).2.1).1
  have hdis : ∀ i ∈ a, i ∉ b := fun i hi hj =>
    (List.nodup_append.mp hnd).2.2 _ hi _ (List.mem_cons_of_mem _ hj) rfl
  have hne : (l.nodes id).prev = (l.nodes id).next → (l.nodes id).prev = none := by
    rw [hprev, hnext]
    intro he
    cases ha : a.getLast? with
    | none => rfl
    | some i =>
      exact absurd (List.mem_of_mem_head? (he ▸ ha)) (hdis i (List.mem_of_getLast? ha))
  have hnodes := erase_nodes l hp hne
  rw [hprev, hnext] at hnodes
  rw [List.erase_append_right _ hia, List.erase_cons_head]
  have hsub : (a ++ b).Sublist (a ++ id :: b) := by simp
  refine ⟨hnd.sublist hsub, ?_, ?_, ?_, ?_, ?_⟩
  · rw [erase_oldest l hp, hprev, hnext, h.oldest_eq]
    cases a <;> simp
  · rw [erase_newest l hp, hprev, hnext, h.newest_eq]
    cases b <;> simp [List.getLast?_append, List.getLast?_cons]
  · -- the halves before and after `id` keep their links, except at the cut
    obtain ⟨hsa, hsb⟩ := DSeg.append_iff.mp h.seg
    have hmb : ∀ i ∈ a, b.head? ≠ some i := fun i hi he =>
      hdis i hi (List.mem_of_mem_head? he)
    have hma : ∀ i ∈ b, a.getLast? ≠ some i := fun i hi he =>
      hdis i (List.mem_of_getLast? he) hi
    refine DSeg.append_iff.mpr ⟨?_, ?_⟩
    · refine hsa.set_succ (List.nodup_append.mp hnd).1 (fun i hi => ?_) fun i hi => ?_
      · have : i ≠ id := fun e => hia (e ▸ hi)
        simp only [hnodes, if_neg this, if_neg (hmb i hi)]
        split_ifs <;> rfl
      · have : i ≠ id := fun e => hia (e ▸ hi)
        simp only [hnodes, if_neg this, if_neg (hmb i hi)]
        by_cases he : a.getLast? = some i
        · left; simp [he]
        · right; simp [he]
    · refine hsb.2.2.set_pred (List.nodup_cons.mp (List.nodup_append.mp hnd).2.1).2
        (fun i hi => ?_) fun i hi => ?_
      · have : i ≠ id := fun e => hib (e ▸ hi)
        simp only [hnodes, if_neg this, if_neg (hma i hi)]
        split_ifs <;> rfl
      · have : i ≠ id := fun e => hib (e ▸ hi)
        simp only [hnodes, if_neg this, if_neg (hma i hi)]
        by_cases he : b.head? = some i
        · left; simp [he]
        · right; simp [he]
  · intro i hi
    have hid : i ≠ id := by rintro rfl; simp_all
    have hi' := h.present i (hsub.subset hi)
    rw [hnodes, if_neg hid]
    split_ifs <;> exact hi'
  · intro i hi
    rw [hnodes]
    split_ifs with h1 h2 h3
    · rfl
    · exact absurd (List.mem_append_right a (List.mem_of_mem_head? h2)) hi
    · exact absurd (List.mem_append_left b (List.mem_of_getLast? h3)) hi
    · exact h.absent i (by simp_all)

/-- Adding an absent id at the newest end. -/
theorem Repr.touch_of_not_mem (h : Repr l xs) (hx : id ∉ xs) :
    Repr (l.touch id) (xs ++ [id]) := by
  have hblank := h.absent id hx
  have hnodes : ∀ i, (l.touch id).nodes i =
      if i = id then ⟨xs.getLast?, none, true⟩
      else if xs.getLast? = some i then ⟨(l.nodes i).prev, some id, (l.nodes i).present⟩
      else l.nodes i := by
    intro i
    have hlast : xs.getLast? ≠ some id := fun he => hx (List.mem_of_getLast? he)
    simp only [IndexLru.touch, h.erase_of_not_mem hx, setNode, h.newest_eq, hblank]
    cases hm : xs.getLast? with
    | none => simp [Function.update_apply]
    | some m =>
      have hmi : m ≠ id := fun e => hlast (e ▸ hm)
      by_cases hi : i = id
      · subst hi; simp [hmi.symm]
      · by_cases hq : i = m
        · subst hq; simp [hi]
        · simp [hi, hq, Ne.symm hq]
  have hold : (l.touch id).oldest = (xs ++ [id]).head? := by
    simp only [IndexLru.touch, h.erase_of_not_mem hx, setNode, h.newest_eq]
    cases hm : xs.getLast? with
    | none => simp [List.getLast?_eq_none_iff.mp hm]
    | some m =>
      have : xs ≠ [] := by rintro rfl; cases hm
      rw [List.head?_append_of_ne_nil _ this]
      exact h.oldest_eq
  refine ⟨?_, hold, by simp [IndexLru.touch], ?_, ?_, ?_⟩
  · exact List.nodup_append.mpr ⟨h.nodup, List.nodup_singleton id, fun a ha b hb => by
      rw [List.mem_singleton.mp hb]; rintro rfl; exact hx ha⟩
  · refine DSeg.append_iff.mpr ⟨?_, ?_⟩
    · refine h.seg.set_succ h.nodup (fun i hi => ?_) fun i hi => ?_
      · have : i ≠ id := fun e => hx (e ▸ hi)
        simp only [hnodes, if_neg this]
        split_ifs <;> rfl
      · have : i ≠ id := fun e => hx (e ▸ hi)
        simp only [hnodes, if_neg this]
        by_cases he : xs.getLast? = some i
        · left; simp [he]
        · right; simp [he]
    · simp [hnodes]
  · intro i hi
    rw [hnodes]
    split_ifs with h1 h2
    · rfl
    · exact h.present i (List.mem_of_getLast? h2)
    · exact h.present i (by simp_all)
  · intro i hi
    rw [hnodes]
    split_ifs with h1 h2
    · simp [h1] at hi
    · exact absurd (List.mem_append_left [id] (List.mem_of_getLast? h2)) hi
    · exact h.absent i (fun hm => hi (List.mem_append_left _ hm))

theorem touch_erase (h : Repr l xs) : (l.erase id).touch id = l.touch id := by
  have hx : id ∉ xs.erase id := h.nodup.not_mem_erase
  have he := (h.erase id).erase_of_not_mem hx
  simp only [IndexLru.touch, he]

/-- **`touch` moves or adds an element at the newest end.** -/
theorem Repr.touch (h : Repr l xs) (id : ℕ) : Repr (l.touch id) (xs.erase id ++ [id]) := by
  rw [← touch_erase h]
  exact (h.erase id).touch_of_not_mem h.nodup.not_mem_erase

end IndexLru

end KVFlux
