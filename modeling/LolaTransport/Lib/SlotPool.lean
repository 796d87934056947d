import Mathlib.Data.List.Basic
import Mathlib.Tactic.Common

/-!
# Pools of reusable slots

A pool hands out its first free slot (`acquire`) and takes it back (`release`).  It counts the
references to it: one of its owner's, and one of each slot in use, so that it outlives its owner
while any of its slots is in use (`Pool.Sound`).
-/

namespace SlotPool

variable {α : Type}

/-- A slot, the pool it points at, and what it holds. -/
structure Slot (α : Type) where
  pool : Option ℕ
  inUse : Bool := false
  content : α

structure Pool (α : Type) where
  id : ℕ
  refs : ℕ := 1
  slots : List (Slot α)

def Pool.new (id capacity : ℕ) (content : α) : Pool α where
  id := id
  slots := List.replicate capacity { pool := some id, content }

/-- The number of slots in use. -/
def Pool.used (p : Pool α) : ℕ := p.slots.countP (·.inUse)

/-- The first slot that is free is put into use, what it holds prepared by `reset`. -/
def Pool.acquire (reset : α → α) (p : Pool α) : Option (ℕ × Pool α) := do
  let i ← p.slots.findIdx? (!·.inUse)
  let slot ← p.slots[i]?
  return (i, { p with
    refs := p.refs + 1
    slots := p.slots.set i { pool := some p.id, inUse := true, content := reset slot.content } })

/-- The slot, if it is this pool's and in use, is cleared and made free. -/
def Pool.release (cleared : α) (i : ℕ) (p : Pool α) : Pool α :=
  match p.slots[i]? with
  | none => p
  | some slot =>
    if slot.pool ≠ some p.id then p
    else if !slot.inUse then p
    else { p with
      refs := p.refs - 1
      slots := p.slots.set i { pool := none, inUse := false, content := cleared } }

/-- What the slot holds is changed in place. -/
def Pool.update (i : ℕ) (f : α → α) (p : Pool α) : Pool α :=
  match p.slots[i]? with
  | none => p
  | some slot => { p with slots := p.slots.set i { slot with content := f slot.content } }

variable {p p' : Pool α} {i j : ℕ} {reset f : α → α} {cleared : α} {slot : Slot α}

/-- Replacing a slot changes the number in use by what the two slots count. -/
theorem used_set (h : p.slots[i]? = some slot) (slot' : Slot α) (refs : ℕ) :
    Pool.used { p with refs, slots := p.slots.set i slot' } + slot.inUse.toNat =
      p.used + slot'.inUse.toNat := by
  obtain ⟨hi, rfl⟩ := List.getElem?_eq_some_iff.1 h
  simp only [Pool.used, List.countP_set hi]
  have hpos (hin : (p.slots[i]).inUse = true) : 0 < p.slots.countP (·.inUse) :=
    List.countP_pos_iff.2 ⟨_, List.getElem_mem hi, hin⟩
  cases hin : (p.slots[i]).inUse with
  | false => cases slot'.inUse <;> simp
  | true =>
    have := hpos hin
    cases slot'.inUse <;> simp <;> omega

theorem used_le : p.used ≤ p.slots.length := List.countP_le_length

section Acquire

theorem acquire_eq_none : p.acquire reset = none ↔ p.used = p.slots.length := by
  rw [Pool.used, List.countP_eq_length]
  cases h : p.slots.findIdx? (!·.inUse) with
  | none =>
    have hall := List.findIdx?_eq_none_iff.1 h
    simp only [Pool.acquire, h, Option.bind_eq_bind, Option.bind_none, true_iff]
    exact fun slot hslot => by simpa using hall slot hslot
  | some i =>
    obtain ⟨hi, hfree, -⟩ := List.findIdx?_eq_some_iff_getElem.1 h
    simp only [Pool.acquire, h, Option.bind_eq_bind, Option.bind_some,
      List.getElem?_eq_getElem hi, Option.pure_def, reduceCtorEq, false_iff]
    intro hall
    have hin := hall _ (List.getElem_mem hi)
    simp [hin] at hfree

theorem acquire_eq_some (h : p.acquire reset = some (i, p')) :
    ∃ slot, p.slots[i]? = some slot ∧ slot.inUse = false ∧ p' = { p with
      refs := p.refs + 1
      slots := p.slots.set i
        { pool := some p.id, inUse := true, content := reset slot.content } } := by
  simp only [Pool.acquire, Option.bind_eq_bind, Option.bind_eq_some_iff] at h
  obtain ⟨k, hk, slot, hslot, h⟩ := h
  obtain ⟨hi, hfree, -⟩ := List.findIdx?_eq_some_iff_getElem.1 hk
  cases h
  rw [List.getElem?_eq_getElem hi] at hslot
  cases hslot
  exact ⟨_, List.getElem?_eq_getElem hi, by simpa using hfree, rfl⟩

/-- The slot handed out is in use, was free, and is the only one that changes. -/
theorem used_acquire (h : p.acquire reset = some (i, p')) : p'.used = p.used + 1 := by
  obtain ⟨slot, hslot, hfree, rfl⟩ := acquire_eq_some h
  have hused := used_set hslot
    { pool := some p.id, inUse := true, content := reset slot.content } (p.refs + 1)
  simpa [hfree] using hused

end Acquire

section Release

/-- A slot in use that points at its pool is given back. -/
theorem release_eq (h : p.slots[i]? = some slot) (hpool : slot.pool = some p.id)
    (hin : slot.inUse = true) : p.release cleared i = { p with
      refs := p.refs - 1
      slots := p.slots.set i { pool := none, inUse := false, content := cleared } } := by
  simp [Pool.release, h, hpool, hin]

theorem used_release (h : p.slots[i]? = some slot) (hpool : slot.pool = some p.id)
    (hin : slot.inUse = true) : (p.release cleared i).used + 1 = p.used := by
  rw [release_eq h hpool hin]
  simpa [hin] using used_set h { pool := none, inUse := false, content := cleared } (p.refs - 1)

theorem used_update : (p.update i f).used = p.used := by
  unfold Pool.update
  split
  · rfl
  · rename_i slot h
    simpa using used_set h { slot with content := f slot.content } p.refs

end Release

section Sound

/-- The slots in use point at the pool, and each of them counts as a reference. -/
structure Pool.Sound (p : Pool α) : Prop where
  pool : ∀ slot ∈ p.slots, slot.inUse = true → slot.pool = some p.id
  refs : p.refs = 1 + p.used

theorem used_new (id capacity : ℕ) (content : α) : (Pool.new id capacity content).used = 0 := by
  simp [Pool.new, Pool.used]

theorem sound_new (id capacity : ℕ) (content : α) : (Pool.new id capacity content).Sound where
  pool slot hslot _ := by rw [List.eq_of_mem_replicate hslot]
                          rfl
  refs := by rw [used_new]; rfl

theorem sound_acquire (hp : p.Sound) (h : p.acquire reset = some (i, p')) : p'.Sound := by
  have hused := used_acquire h
  obtain ⟨slot, hslot, hfree, rfl⟩ := acquire_eq_some h
  refine ⟨fun slot' hslot' hin => ?_, by rw [hused, hp.refs]; rfl⟩
  rcases List.mem_or_eq_of_mem_set hslot' with hmem | rfl
  · exact hp.pool slot' hmem hin
  · rfl

theorem sound_release (hp : p.Sound) : (p.release cleared i).Sound := by
  unfold Pool.release
  split
  · exact hp
  · rename_i slot hslot
    split_ifs with hpool hin
    · exact hp
    · exact hp
    · have hused := used_set hslot { pool := none, inUse := false, content := cleared }
        (p.refs - 1)
      have hrefs := hp.refs
      have hin : slot.inUse = true := by simpa using hin
      simp only [hin, Bool.toNat_true, Bool.toNat_false, Nat.add_zero] at hused
      refine ⟨fun slot' hslot' hin' => ?_, ?_⟩
      · rcases List.mem_or_eq_of_mem_set hslot' with hmem | rfl
        · exact hp.pool slot' hmem hin'
        · cases hin'
      · show p.refs - 1 = _
        omega

theorem sound_update (hp : p.Sound) : (p.update i f).Sound := by
  have hused := used_update (p := p) (i := i) (f := f)
  unfold Pool.update at hused ⊢
  split at hused
  · exact hp
  · rename_i slot hslot
    refine ⟨fun slot' hslot' hin => ?_, by rw [hused]; exact hp.refs⟩
    rcases List.mem_or_eq_of_mem_set hslot' with hmem | rfl
    · exact hp.pool slot' hmem hin
    · exact hp.pool slot (List.mem_of_getElem? hslot) hin

end Sound

section Changes

/-- Only the slot at `i` has changed. -/
structure ChangedAt (i : ℕ) (p p' : Pool α) : Prop where
  id : p'.id = p.id
  length : p'.slots.length = p.slots.length
  sound : p.Sound → p'.Sound
  others : ∀ k, k ≠ i → p'.slots[k]? = p.slots[k]?

theorem ChangedAt.refl (p : Pool α) : ChangedAt i p p := ⟨rfl, rfl, fun hp => hp, fun _ _ => rfl⟩

theorem ChangedAt.trans {p'' : Pool α} (h : ChangedAt i p p') (h' : ChangedAt i p' p'') :
    ChangedAt i p p'' where
  id := h'.id.trans h.id
  length := h'.length.trans h.length
  sound hp := h'.sound (h.sound hp)
  others k hk := (h'.others k hk).trans (h.others k hk)

theorem changedAt_acquire (h : p.acquire reset = some (i, p')) : ChangedAt i p p' := by
  have hsound (hp : p.Sound) : p'.Sound := sound_acquire hp h
  obtain ⟨slot, -, -, rfl⟩ := acquire_eq_some h
  exact ⟨rfl, List.length_set, hsound, fun k hk => List.getElem?_set_ne hk.symm⟩

theorem changedAt_release : ChangedAt i p (p.release cleared i) := by
  refine ⟨?_, ?_, sound_release, fun k hk => ?_⟩
  · unfold Pool.release
    split
    · rfl
    · split_ifs <;> rfl
  · unfold Pool.release
    split
    · rfl
    · split_ifs <;> simp
  · unfold Pool.release
    split
    · rfl
    · split_ifs
      · rfl
      · rfl
      · exact List.getElem?_set_ne hk.symm

theorem changedAt_update : ChangedAt i p (p.update i f) := by
  refine ⟨?_, ?_, sound_update, fun k hk => ?_⟩
  · unfold Pool.update
    split <;> rfl
  · unfold Pool.update
    split <;> simp
  · unfold Pool.update
    split
    · rfl
    · exact List.getElem?_set_ne hk.symm

theorem getElem?_update (h : p.slots[i]? = some slot) :
    (p.update i f).slots[i]? = some { slot with content := f slot.content } := by
  obtain ⟨hi, -⟩ := List.getElem?_eq_some_iff.1 h
  simp only [Pool.update, h]
  exact List.getElem?_set_self hi

theorem getElem?_acquire (h : p.acquire reset = some (i, p')) :
    ∃ slot, p'.slots[i]? = some slot ∧ slot.inUse = true ∧ slot.pool = some p.id := by
  obtain ⟨slot, hslot, -, rfl⟩ := acquire_eq_some h
  obtain ⟨hi, -⟩ := List.getElem?_eq_some_iff.1 hslot
  exact ⟨_, List.getElem?_set_self hi, rfl, rfl⟩

end Changes

section Lending

/-- The slots in use are the same. -/
structure SameInUse (p p' : Pool α) : Prop where
  id : p'.id = p.id
  sound : p.Sound → p'.Sound
  used : p'.used = p.used
  kept : ∀ (k : ℕ) (slot : Slot α), p.slots[k]? = some slot → slot.inUse = true →
    p'.slots[k]? = some slot

/-- The slot at `i` was free and is now in use, and is the only one that has changed. -/
structure Lends (i : ℕ) (p p' : Pool α) : Prop where
  free : ∃ slot, p.slots[i]? = some slot ∧ slot.inUse = false
  lent : ∃ slot, p'.slots[i]? = some slot ∧ slot.inUse = true ∧ slot.pool = some p'.id
  changed : ChangedAt i p p'
  used : p'.used = p.used + 1

theorem SameInUse.refl (p : Pool α) : SameInUse p p := ⟨rfl, fun hp => hp, rfl, fun _ _ h _ => h⟩

theorem lends_acquire (h : p.acquire reset = some (i, p')) : Lends i p p' := by
  obtain ⟨slot, hslot, hfree, -⟩ := acquire_eq_some h
  have hchanged := changedAt_acquire h
  obtain ⟨slot', hslot', hin, hpool⟩ := getElem?_acquire h
  exact ⟨⟨slot, hslot, hfree⟩, ⟨slot', hslot', hin, by rw [hpool, hchanged.id]⟩, hchanged,
    used_acquire h⟩

theorem Lends.update (h : Lends i p p') (f : α → α) : Lends i p (p'.update i f) := by
  obtain ⟨slot, hslot, hin, hpool⟩ := h.lent
  refine ⟨h.free, ⟨_, getElem?_update hslot, hin, ?_⟩, h.changed.trans changedAt_update,
    used_update.trans h.used⟩
  rw [(changedAt_update (p := p') (i := i) (f := f)).id]
  exact hpool

/-- A slot that is lent and given back. -/
theorem Lends.release (h : Lends i p p') (cleared : α) :
    SameInUse p (p'.release cleared i) := by
  obtain ⟨slot, hslot, hin, hpool⟩ := h.lent
  obtain ⟨free, hfree, hnot⟩ := h.free
  have hchanged : ChangedAt i p (p'.release cleared i) := h.changed.trans changedAt_release
  refine ⟨hchanged.id, hchanged.sound, ?_, fun k slot hk hkin => ?_⟩
  · have hused : (p'.release cleared i).used + 1 = p'.used := used_release hslot hpool hin
    rw [h.used] at hused
    omega
  · rw [hchanged.others k ?_, hk]
    rintro rfl
    rw [hk] at hfree
    cases hfree
    rw [hkin] at hnot
    cases hnot

/-- What lends a slot keeps the slots that were in use. -/
theorem Lends.kept (h : Lends i p p') {k : ℕ} {slot : Slot α} (hk : p.slots[k]? = some slot)
    (hin : slot.inUse = true) : k ≠ i ∧ p'.slots[k]? = some slot := by
  obtain ⟨free, hfree, hnot⟩ := h.free
  have hne : k ≠ i := by
    rintro rfl
    rw [hk] at hfree
    cases hfree
    rw [hin] at hnot
    cases hnot
  exact ⟨hne, (h.changed.others k hne).trans hk⟩

end Lending

/-- What a release does to its slot, the reference not yet given back. -/
def Pool.clear (cleared : α) (i : ℕ) (p : Pool α) : Pool α :=
  { p with slots := p.slots.set i { pool := none, inUse := false, content := cleared } }

/-- The pool that the slot at `i` points at. -/
def Pool.pointer (p : Pool α) (i : ℕ) : Option ℕ := p.slots[i]?.bind (·.pool)

def Pool.inUse (p : Pool α) (i : ℕ) : Bool := p.slots[i]?.any (·.inUse)

/-- A release is the clearing of the slot and the giving back of its reference. -/
theorem release_eq_clear (hpool : p.pointer i = some p.id) (hin : p.inUse i = true) :
    p.release cleared i = { p.clear cleared i with refs := p.refs - 1 } := by
  obtain ⟨slot, hslot, hpool⟩ := Option.bind_eq_some_iff.1 hpool
  rw [Pool.inUse, hslot] at hin
  exact release_eq hslot hpool hin

/-- The slots in use point at the pool, and are those at `held`, one each. -/
structure Pool.Lent (p : Pool α) (held : List ℕ) : Prop where
  pool : ∀ slot ∈ p.slots, slot.inUse = true → slot.pool = some p.id
  used : p.used = held.length
  inUse : ∀ i ∈ held, ∃ slot, p.slots[i]? = some slot ∧ slot.inUse = true
  nodup : held.Nodup

section Lent

variable {held held' : List ℕ}

theorem lent_new (id capacity : ℕ) (content : α) : (Pool.new id capacity content).Lent [] where
  pool := (sound_new id capacity content).pool
  used := used_new _ _ _
  inUse := by simp
  nodup := List.nodup_nil

theorem Pool.Lent.perm (h : p.Lent held) (hperm : held.Perm held') : p.Lent held' where
  pool := h.pool
  used := h.used.trans hperm.length_eq
  inUse i hi := h.inUse i (hperm.mem_iff.2 hi)
  nodup := hperm.nodup_iff.1 h.nodup

/-- The count of references is of no matter to what is lent. -/
theorem Pool.Lent.withRefs (h : p.Lent held) (refs : ℕ) : Pool.Lent { p with refs } held :=
  ⟨h.pool, h.used, h.inUse, h.nodup⟩

theorem Pool.Lent.pointing (h : p.Lent held) (hi : i ∈ held) :
    ∃ slot, p.slots[i]? = some slot ∧ slot.inUse = true ∧ slot.pool = some p.id := by
  obtain ⟨slot, hslot, hin⟩ := h.inUse i hi
  exact ⟨slot, hslot, hin, h.pool slot (List.mem_of_getElem? hslot) hin⟩

theorem Pool.Lent.pointer (h : p.Lent held) (hi : i ∈ held) : p.pointer i = some p.id := by
  obtain ⟨slot, hslot, -, hpool⟩ := h.pointing hi
  rw [Pool.pointer, hslot]
  exact hpool

theorem Pool.Lent.inUse_eq (h : p.Lent held) (hi : i ∈ held) : p.inUse i = true := by
  obtain ⟨slot, hslot, hin⟩ := h.inUse i hi
  rw [Pool.inUse, hslot]
  exact hin

theorem Pool.Lent.lends (h : p.Lent held) (hlends : Lends i p p') : p'.Lent (i :: held) where
  pool slot hslot hin := by
    obtain ⟨k, hk⟩ := List.mem_iff_getElem?.1 hslot
    by_cases hki : k = i
    · obtain ⟨lent, hlent, -, hpool⟩ := hlends.lent
      rw [hki, hlent] at hk
      cases hk
      exact hpool
    · rw [hlends.changed.others k hki] at hk
      rw [hlends.changed.id]
      exact h.pool slot (List.mem_of_getElem? hk) hin
  used := by rw [hlends.used, h.used, List.length_cons]
  inUse k hk := by
    rcases List.mem_cons.1 hk with rfl | hk
    · obtain ⟨slot, hslot, hin, -⟩ := hlends.lent
      exact ⟨slot, hslot, hin⟩
    · obtain ⟨slot, hslot, hin⟩ := h.inUse k hk
      exact ⟨slot, (hlends.kept hslot hin).2, hin⟩
  nodup := by
    refine List.nodup_cons.2 ⟨fun hi => ?_, h.nodup⟩
    obtain ⟨slot, hslot, hin⟩ := h.inUse i hi
    exact (hlends.kept hslot hin).1 rfl

theorem Pool.Lent.clear (h : p.Lent (i :: held)) : (p.clear cleared i).Lent held where
  pool slot hslot hin := by
    rcases List.mem_or_eq_of_mem_set hslot with hmem | rfl
    · exact h.pool slot hmem hin
    · cases hin
  used := by
    obtain ⟨slot, hslot, hin⟩ := h.inUse i List.mem_cons_self
    have hused := used_set hslot { pool := none, inUse := false, content := cleared } p.refs
    rw [h.used, List.length_cons, hin] at hused
    exact Nat.succ.inj hused
  inUse k hk := by
    obtain ⟨slot, hslot, hin⟩ := h.inUse k (List.mem_cons_of_mem i hk)
    refine ⟨slot, (List.getElem?_set_ne ?_).trans hslot, hin⟩
    rintro rfl
    exact (List.nodup_cons.1 h.nodup).1 hk
  nodup := (List.nodup_cons.1 h.nodup).2

theorem Pool.Lent.update (h : p.Lent held) (hi : i ∈ held) : (p.update i f).Lent held := by
  obtain ⟨slot, hslot, hin⟩ := h.inUse i hi
  have hchanged : ChangedAt i p (p.update i f) := changedAt_update
  have hself : (p.update i f).slots[i]? = some { slot with content := f slot.content } :=
    getElem?_update hslot
  refine ⟨fun slot' hslot' hin' => ?_, used_update.trans h.used, fun k hk => ?_, h.nodup⟩
  · rw [hchanged.id]
    simp only [Pool.update, hslot] at hslot'
    rcases List.mem_or_eq_of_mem_set hslot' with hmem | rfl
    · exact h.pool slot' hmem hin'
    · exact h.pool slot (List.mem_of_getElem? hslot) hin
  · by_cases hki : k = i
    · rw [hki]
      exact ⟨_, hself, hin⟩
    · rw [hchanged.others k hki]
      exact h.inUse k hk

end Lent

section Holders

/-- The slots in use are those at `held`. -/
structure Pool.Holds (p : Pool α) (held : List ℕ) : Prop where
  sound : p.Sound
  used : p.used = held.length
  inUse : ∀ i ∈ held, ∃ slot, p.slots[i]? = some slot ∧ slot.inUse = true
  nodup : held.Nodup

variable {held held' : List ℕ}

theorem Pool.Holds.lent (h : p.Holds held) : p.Lent held :=
  ⟨h.sound.pool, h.used, h.inUse, h.nodup⟩

theorem Pool.Lent.holds (h : p.Lent held) (hp : p.Sound) : p.Holds held :=
  ⟨hp, h.used, h.inUse, h.nodup⟩

theorem holds_new (id capacity : ℕ) (content : α) : (Pool.new id capacity content).Holds [] :=
  (lent_new id capacity content).holds (sound_new id capacity content)

theorem Pool.Holds.perm (h : p.Holds held) (hperm : held.Perm held') : p.Holds held' :=
  (h.lent.perm hperm).holds h.sound

theorem Pool.Holds.lends (h : p.Holds held) (hlends : Lends i p p') : p'.Holds (i :: held) :=
  (h.lent.lends hlends).holds (hlends.changed.sound h.sound)

theorem Pool.Holds.release (h : p.Holds (i :: held)) : (p.release cleared i).Holds held := by
  have hi : i ∈ i :: held := List.mem_cons_self
  refine Pool.Lent.holds ?_ (sound_release h.sound)
  rw [release_eq_clear (h.lent.pointer hi) (h.lent.inUse_eq hi)]
  exact h.lent.clear.withRefs _

theorem Pool.Holds.sameInUse (h : p.Holds held) (hsame : SameInUse p p') : p'.Holds held where
  sound := hsame.sound h.sound
  used := hsame.used.trans h.used
  inUse i hi := by
    obtain ⟨slot, hslot, hin⟩ := h.inUse i hi
    exact ⟨slot, hsame.kept i slot hslot hin, hin⟩
  nodup := h.nodup

/-- A slot is free as long as fewer are held than there are. -/
theorem Pool.Holds.acquire (h : p.Holds held) (reset : α → α) (hlt : held.length < p.slots.length) :
    ∃ i p', p.acquire reset = some (i, p') := by
  cases hacquire : p.acquire reset with
  | none =>
    rw [acquire_eq_none, h.used] at hacquire
    omega
  | some lent => exact ⟨_, _, rfl⟩

theorem Pool.Holds.exhausted (h : p.Holds held) (reset : α → α)
    (hle : p.slots.length ≤ held.length) : p.acquire reset = none := by
  have hused := used_le (p := p)
  rw [acquire_eq_none]
  rw [h.used] at hused ⊢
  omega

end Holders

end SlotPool
