import KVFlux.V3.Records
import KVFlux.V3.Migration.Step

/-!
# Who holds a replica

A replica that is neither READY nor ERROR stays in the directory until somebody changes its state.
`Locks` says who does: every move holds the two replicas it goes between and one pin, a chunk has
one move at most, and a chunk whose transfer was abandoned keeps its replicas for ever.

* `Held`, `TwoHeld`, `Locks`.
* `two_held_ready`: a chunk with a READY source and an empty destination has no other held pair.
* **`Locks.change`**, **`Locks.acquire`**, **`Locks.abandon`**, **`Locks.finish`**,
  `Locks.create`, `Locks.destroy`: the ways the records change.
-/

namespace KVFlux.V3

/-- The directory keeps the replica. -/
def ChunkRecord.Held (r : ChunkRecord) (tier : StorageTier) (l : TierLocation) : Prop :=
  ∃ state, r.replica tier = some ⟨l, state⟩ ∧ state ≠ .READY ∧ state ≠ .ERROR

/-- Two replicas are held. -/
def ChunkRecord.TwoHeld (r : ChunkRecord) : Prop :=
  ∃ t t' l l', t ≠ t' ∧ r.Held t l ∧ r.Held t' l'

/-- The moves that have not ended, beside the records, the pins of the client and the copies nobody
watches. -/
structure Locks (record : CacheKey → Option ChunkRecord) (pins : CacheKey → ℕ)
    (move : CopyOwner → Option Move) (orphans : List Orphan) : Prop where
  tiers_ne : ∀ o m, move o = some m → m.source ≠ m.destination
  held : ∀ o m, move o = some m → ∃ r, record m.key = some r ∧ r.Held m.source m.sourceLoc ∧
    r.Held m.destination m.destinationLoc ∧ r.pinCount = pins m.key + 1
  unique : ∀ o o' m m', move o = some m → move o' = some m' → m.key = m'.key → o = o'
  counted : ∀ key r, record key = some r → r.pinCount = pins key ∨
    (r.pinCount = pins key + 1 ∧ r.TwoHeld)
  absent : ∀ key, record key = none → pins key = 0
  bound : ∀ key, pins key + 1 < 2 ^ 64
  orphan : ∀ o ∈ orphans, ∃ key r l, record key = some r ∧ r.Held o.tier l ∧ l.slot = o.slot ∧
    r.TwoHeld ∧ ∀ o' m, move o' = some m → m.key ≠ key

variable {record : CacheKey → Option ChunkRecord} {pins : CacheKey → ℕ}
  {move : CopyOwner → Option Move} {orphans orphans' : List Orphan} {key : CacheKey}
  {r r' : ChunkRecord} {tier source destination : StorageTier} {l ls : TierLocation} {m : Move}
  {o : CopyOwner} {n : ℕ}

namespace ChunkRecord

theorem Held.not_ready (h : r.Held tier l) : r.replica tier ≠ some ⟨ls, .READY⟩ := by
  obtain ⟨state, hs, hne, -⟩ := h
  intro he
  rw [hs] at he
  cases he
  exact hne rfl

theorem Held.isSome (h : r.Held tier l) : r.replica tier ≠ none := by
  obtain ⟨state, hs, -⟩ := h
  rw [hs]
  nofun

/-- A change of the replicas of other tiers. -/
theorem Held.congr (h : r.Held tier l) (hr : r'.replica tier = r.replica tier) :
    r'.Held tier l := by
  obtain ⟨state, hs, hne⟩ := h
  exact ⟨state, hr.trans hs, hne⟩

theorem TwoHeld.mono (h : r.TwoHeld) (hr : ∀ tier l, r.Held tier l → r'.Held tier l) :
    r'.TwoHeld := by
  obtain ⟨t, t', l, l', hne, h₁, h₂⟩ := h
  exact ⟨t, t', l, l', hne, hr _ _ h₁, hr _ _ h₂⟩

/-- **There are three tiers**: a READY source and an empty destination leave one. -/
theorem two_held_ready (hs : r.replica source = some ⟨ls, .READY⟩)
    (hd : r.replica destination = none) (hne : source ≠ destination) : ¬ r.TwoHeld := by
  rintro ⟨t, t', l, l', htt, h, h'⟩
  have htiers : ∀ s d t t' : StorageTier, s ≠ d → t ≠ t' → t ≠ s → t ≠ d → t' ≠ s → t' ≠ d →
      False := by
    intro s d t t'
    cases s <;> cases d <;> cases t <;> cases t' <;> simp
  refine htiers source destination t t' hne htt ?_ ?_ ?_ ?_
  · rintro rfl; exact h.not_ready hs
  · rintro rfl; exact h.isSome hd
  · rintro rfl; exact h'.not_ready hs
  · rintro rfl; exact h'.isSome hd

end ChunkRecord

open ChunkRecord

namespace Locks

/-- A new directory and no move. -/
theorem empty : Locks (fun _ => none) (fun _ => 0) (fun _ => none) [] where
  tiers_ne _ _ h := by cases h
  held _ _ h := by cases h
  unique _ _ _ _ h := by cases h
  counted _ _ h := by cases h
  absent _ _ := rfl
  bound _ := Nat.one_lt_two_pow (by decide)
  orphan _ h := absurd h List.not_mem_nil

theorem two_held (h : Locks record pins move orphans) (hm : move o = some m)
    (hr : record m.key = some r) : r.TwoHeld := by
  obtain ⟨r₁, hr₁, hs, hd, -⟩ := h.held o m hm
  obtain rfl : r = r₁ := Option.some.inj (hr.symm.trans hr₁)
  exact ⟨_, _, _, _, h.tiers_ne o m hm, hs, hd⟩

/-- A chunk with a READY source and an empty destination does not move, and all its pins are the
client's. -/
theorem still (h : Locks record pins move orphans) (hr : record key = some r)
    (hn : ¬ r.TwoHeld) : (∀ o m, move o = some m → m.key ≠ key) ∧ r.pinCount = pins key := by
  refine ⟨?_, ?_⟩
  · rintro o m hm rfl
    exact hn (h.two_held hm hr)
  · rcases h.counted key r hr with hp | ⟨-, ht⟩
    · exact hp
    · exact absurd ht hn

/-- **A change of one record** that keeps what is held, with the pins of the client. -/
theorem change (h : Locks record pins move orphans) (hr : record key = some r)
    (hheld : ∀ tier l, r.Held tier l → r'.Held tier l) (hbound : n + 1 < 2 ^ 64)
    (hpin : r'.pinCount + pins key = r.pinCount + n) :
    Locks (Function.update record key (some r')) (Function.update pins key n) move orphans := by
  refine ⟨h.tiers_ne, fun o m hm => ?_, h.unique, fun k s hk => ?_, fun k hk => ?_, fun k => ?_,
    fun o ho => ?_⟩
  · obtain ⟨s, hs, h₁, h₂, hp⟩ := h.held o m hm
    by_cases hk : m.key = key
    · rw [hk] at hs hp ⊢
      obtain rfl : r = s := Option.some.inj (hr.symm.trans hs)
      refine ⟨r', by rw [Function.update_self], hheld _ _ h₁, hheld _ _ h₂, ?_⟩
      rw [Function.update_self]
      omega
    · exact ⟨s, by rwa [Function.update_of_ne hk], h₁, h₂, by rwa [Function.update_of_ne hk]⟩
  · by_cases hkk : k = key
    · subst hkk
      rw [Function.update_self] at hk ⊢
      obtain rfl : r' = s := Option.some.inj hk
      rcases h.counted k r hr with hp | ⟨hp, ht⟩
      · left; omega
      · right; exact ⟨by omega, ht.mono hheld⟩
    · rw [Function.update_of_ne hkk] at hk ⊢
      exact h.counted k s hk
  · by_cases hkk : k = key
    · subst hkk; rw [Function.update_self] at hk; cases hk
    · rw [Function.update_of_ne hkk] at hk ⊢
      exact h.absent k hk
  · by_cases hkk : k = key
    · subst hkk; rwa [Function.update_self]
    · rw [Function.update_of_ne hkk]; exact h.bound k
  · obtain ⟨k, s, l, hk, h₁, hl, ht, hm⟩ := h.orphan o ho
    by_cases hkk : k = key
    · subst hkk
      obtain rfl : r = s := Option.some.inj (hr.symm.trans hk)
      exact ⟨k, r', l, by rw [Function.update_self], hheld _ _ h₁, hl, ht.mono hheld, hm⟩
    · exact ⟨k, s, l, by rwa [Function.update_of_ne hkk], h₁, hl, ht, hm⟩

/-- A change of one record that keeps what is held and the pins. -/
theorem change_replicas (h : Locks record pins move orphans) (hr : record key = some r)
    (hheld : ∀ tier l, r.Held tier l → r'.Held tier l) (hpin : r'.pinCount = r.pinCount) :
    Locks (Function.update record key (some r')) pins move orphans := by
  have := h.change hr hheld (h.bound key) (by rw [hpin])
  rwa [Function.update_eq_self] at this

/-- A new record. -/
theorem create (h : Locks record pins move orphans) (hr : record key = none)
    (hpin : r'.pinCount = 0) :
    Locks (Function.update record key (some r')) pins move orphans := by
  have hne : ∀ {k s}, record k = some s → k ≠ key := by
    rintro k s hk rfl
    rw [hr] at hk
    cases hk
  refine ⟨h.tiers_ne, fun o m hm => ?_, h.unique, fun k s hk => ?_, fun k hk => ?_, h.bound,
    fun o ho => ?_⟩
  · obtain ⟨s, hs, hrest⟩ := h.held o m hm
    exact ⟨s, by rwa [Function.update_of_ne (hne hs)], hrest⟩
  · by_cases hkk : k = key
    · subst hkk
      rw [Function.update_self] at hk
      obtain rfl : r' = s := Option.some.inj hk
      left
      rw [hpin, h.absent k hr]
    · rw [Function.update_of_ne hkk] at hk
      exact h.counted k s hk
  · by_cases hkk : k = key
    · subst hkk; rw [Function.update_self] at hk; cases hk
    · rw [Function.update_of_ne hkk] at hk
      exact h.absent k hk
  · obtain ⟨k, s, l, hk, hrest⟩ := h.orphan o ho
    exact ⟨k, s, l, by rwa [Function.update_of_ne (hne hk)], hrest⟩

/-- A record without replicas and pins goes. -/
theorem destroy (h : Locks record pins move orphans) (hr : record key = some r)
    (hnone : ∀ t, r.replica t = none) (hpin : r.pinCount = 0) :
    Locks (Function.update record key none) pins move orphans := by
  have hne : ∀ {k s tier l}, record k = some s → s.Held tier l → k ≠ key := by
    rintro k s tier l hk hh rfl
    obtain rfl : r = s := Option.some.inj (hr.symm.trans hk)
    exact hh.isSome (hnone _)
  refine ⟨h.tiers_ne, fun o m hm => ?_, h.unique, fun k s hk => ?_, fun k hk => ?_, h.bound,
    fun o ho => ?_⟩
  · obtain ⟨s, hs, hh, hrest⟩ := h.held o m hm
    exact ⟨s, by rwa [Function.update_of_ne (hne hs hh)], hh, hrest⟩
  · by_cases hkk : k = key
    · subst hkk; rw [Function.update_self] at hk; cases hk
    · rw [Function.update_of_ne hkk] at hk
      exact h.counted k s hk
  · by_cases hkk : k = key
    · subst hkk
      rcases h.counted k r hr with hp | ⟨hp, -⟩
      · omega
      · omega
    · rw [Function.update_of_ne hkk] at hk
      exact h.absent k hk
  · obtain ⟨k, s, l, hk, hh, hrest⟩ := h.orphan o ho
    exact ⟨k, s, l, by rwa [Function.update_of_ne (hne hk hh)], hh, hrest⟩

/-- **A move begins.** -/
theorem acquire (h : Locks record pins move orphans) (hr : record m.key = some r)
    (hn : ¬ r.TwoHeld) (ho : move o = none) (hne : m.source ≠ m.destination)
    (hs : r'.Held m.source m.sourceLoc) (hd : r'.Held m.destination m.destinationLoc)
    (hpin : r'.pinCount = r.pinCount + 1) :
    Locks (Function.update record m.key (some r')) pins (Function.update move o (some m))
      orphans := by
  obtain ⟨hstill, hp⟩ := h.still hr hn
  refine ⟨fun o' m' hm => ?_, fun o' m' hm => ?_, fun o₁ o₂ m₁ m₂ h₁ h₂ hk => ?_,
    fun k s hk => ?_, fun k hk => ?_, h.bound, fun b hb => ?_⟩
  · by_cases ho' : o' = o
    · subst ho'; rw [Function.update_self] at hm; cases hm; exact hne
    · rw [Function.update_of_ne ho'] at hm
      exact h.tiers_ne o' m' hm
  · by_cases ho' : o' = o
    · subst ho'
      rw [Function.update_self] at hm
      cases hm
      exact ⟨r', by rw [Function.update_self], hs, hd, by omega⟩
    · rw [Function.update_of_ne ho'] at hm
      rw [Function.update_of_ne (hstill o' m' hm)]
      exact h.held o' m' hm
  · by_cases e₁ : o₁ = o <;> by_cases e₂ : o₂ = o
    · rw [e₁, e₂]
    · subst e₁
      rw [Function.update_self] at h₁
      rw [Function.update_of_ne e₂] at h₂
      cases h₁
      exact absurd hk.symm (hstill o₂ m₂ h₂)
    · subst e₂
      rw [Function.update_self] at h₂
      rw [Function.update_of_ne e₁] at h₁
      cases h₂
      exact absurd hk (hstill o₁ m₁ h₁)
    · rw [Function.update_of_ne e₁] at h₁
      rw [Function.update_of_ne e₂] at h₂
      exact h.unique o₁ o₂ m₁ m₂ h₁ h₂ hk
  · by_cases hkk : k = m.key
    · subst hkk
      rw [Function.update_self] at hk
      obtain rfl : r' = s := Option.some.inj hk
      exact .inr ⟨by omega, _, _, _, _, hne, hs, hd⟩
    · rw [Function.update_of_ne hkk] at hk
      exact h.counted k s hk
  · by_cases hkk : k = m.key
    · subst hkk; rw [Function.update_self] at hk; cases hk
    · rw [Function.update_of_ne hkk] at hk
      exact h.absent k hk
  · obtain ⟨k, s, l, hk, hh, hl, ht, hmv⟩ := h.orphan b hb
    have hkk : k ≠ m.key := by
      rintro rfl
      obtain rfl : r = s := Option.some.inj (hr.symm.trans hk)
      exact hn ht
    refine ⟨k, s, l, by rwa [Function.update_of_ne hkk], hh, hl, ht, fun o' m' hm => ?_⟩
    by_cases ho' : o' = o
    · subst ho'; rw [Function.update_self] at hm; cases hm; exact Ne.symm hkk
    · rw [Function.update_of_ne ho'] at hm
      exact hmv o' m' hm

/-- **A transfer is abandoned**: its replicas stay held and a copy may still be running. -/
theorem abandon (h : Locks record pins move orphans) (hr : record key = some r)
    (hn : ¬ r.TwoHeld) (hpin : r'.pinCount = r.pinCount ∨
      (r'.pinCount = r.pinCount + 1 ∧ r'.TwoHeld))
    (horphan : ∀ b ∈ orphans', b ∈ orphans ∨ (r'.TwoHeld ∧ ∃ l, r'.Held b.tier l ∧ l.slot = b.slot)) :
    Locks (Function.update record key (some r')) pins move orphans' := by
  obtain ⟨hstill, hp⟩ := h.still hr hn
  refine ⟨h.tiers_ne, fun o' m' hm => ?_, h.unique, fun k s hk => ?_, fun k hk => ?_, h.bound,
    fun b hb => ?_⟩
  · rw [Function.update_of_ne (hstill o' m' hm)]
    exact h.held o' m' hm
  · by_cases hkk : k = key
    · subst hkk
      rw [Function.update_self] at hk
      obtain rfl : r' = s := Option.some.inj hk
      rcases hpin with hpin | ⟨hpin, ht⟩
      · left; omega
      · right; exact ⟨by omega, ht⟩
    · rw [Function.update_of_ne hkk] at hk
      exact h.counted k s hk
  · by_cases hkk : k = key
    · subst hkk; rw [Function.update_self] at hk; cases hk
    · rw [Function.update_of_ne hkk] at hk
      exact h.absent k hk
  · rcases horphan b hb with hb | ⟨ht, l, hh, hl⟩
    · obtain ⟨k, s, l, hk, hh, hl, ht, hmv⟩ := h.orphan b hb
      have hkk : k ≠ key := by
        rintro rfl
        obtain rfl : r = s := Option.some.inj (hr.symm.trans hk)
        exact hn ht
      exact ⟨k, s, l, by rwa [Function.update_of_ne hkk], hh, hl, ht, hmv⟩
    · exact ⟨key, r', l, by rw [Function.update_self], hh, hl, ht, hstill⟩

/-- **A move ends** and gives back its pin. -/
theorem finish (h : Locks record pins move orphans) (hm : move o = some m)
    (hr : record m.key = some r) (hpin : r'.pinCount + 1 = r.pinCount) :
    Locks (Function.update record m.key (some r')) pins (Function.update move o none) orphans := by
  have hother : ∀ {o' m'}, Function.update move o none o' = some m' →
      move o' = some m' ∧ m'.key ≠ m.key := by
    intro o' m' hm'
    by_cases ho' : o' = o
    · subst ho'; rw [Function.update_self] at hm'; cases hm'
    · rw [Function.update_of_ne ho'] at hm'
      exact ⟨hm', fun hk => ho' (h.unique o' o m' m hm' hm hk)⟩
  refine ⟨fun o' m' hm' => h.tiers_ne o' m' (hother hm').1, fun o' m' hm' => ?_,
    fun o₁ o₂ m₁ m₂ h₁ h₂ hk => h.unique o₁ o₂ m₁ m₂ (hother h₁).1 (hother h₂).1 hk,
    fun k s hk => ?_, fun k hk => ?_, h.bound, fun b hb => ?_⟩
  · obtain ⟨hm', hk⟩ := hother hm'
    rw [Function.update_of_ne hk]
    exact h.held o' m' hm'
  · by_cases hkk : k = m.key
    · subst hkk
      rw [Function.update_self] at hk
      obtain rfl : r' = s := Option.some.inj hk
      obtain ⟨r₁, hr₁, -, -, hp⟩ := h.held o m hm
      obtain rfl : r = r₁ := Option.some.inj (hr.symm.trans hr₁)
      left; omega
    · rw [Function.update_of_ne hkk] at hk
      exact h.counted k s hk
  · by_cases hkk : k = m.key
    · subst hkk; rw [Function.update_self] at hk; cases hk
    · rw [Function.update_of_ne hkk] at hk
      exact h.absent k hk
  · obtain ⟨k, s, l, hk, hh, hl, ht, hmv⟩ := h.orphan b hb
    have hkk : k ≠ m.key := fun hkk => hmv o m hm hkk.symm
    exact ⟨k, s, l, by rwa [Function.update_of_ne hkk], hh, hl, ht,
      fun o' m' hm' => hmv o' m' (hother hm').1⟩

end Locks

end KVFlux.V3
