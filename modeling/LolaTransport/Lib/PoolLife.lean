import LolaTransport.Lib.Run
import LolaTransport.Lib.SlotPool

/-!
# The life of a pool

A pool that counts its references and deletes itself with the last of them, shared by its owner,
by any number of holders of handles to its slots, and by the calls that give handles back.  Such a
call looks at the slot before it takes the pool's lock, clears the slot under the lock, and gives
the slot's reference back after it; steps of different calls come in any order.  The state counts
the deletions of the pool and the accesses to it that come after one (`strays`), so that what goes
wrong can be seen; no step is kept from going wrong.
-/

namespace SlotPool

variable {α : Type}

/-- How far a call that gives back a handle, or a reference, has got. -/
inductive Call
  /-- `destroy` has been called with the handle. -/
  | called (i : ℕ)
  /-- The pool's `release` has been called with the handle. -/
  | entered (i : ℕ)
  /-- The slot has been seen to point at the pool. -/
  | checked (i : ℕ)
  /-- The slot is clear, and its reference is still to be given back. -/
  | cleared
  /-- It was the last reference: the pool is still to be deleted. -/
  | last
  deriving DecidableEq

/-- The handle that the call is still to clear the slot of. -/
def Call.handle : Call → Option ℕ
  | .called i | .entered i | .checked i => some i
  | .cleared | .last => none

/-- The number of steps that a call has left at most. -/
def Call.left : Call → ℕ
  | .called _ => 5
  | .entered _ => 4
  | .checked _ => 3
  | .cleared => 2
  | .last => 1

def Call.leftOf : List Call → ℕ
  | [] => 0
  | call :: calls => call.left + leftOf calls

/-- `release_ref`: the pool afterwards, and what is left to do. -/
def Pool.releaseRef (p : Pool α) : Pool α × List Call :=
  ({ p with refs := p.refs - 1 }, if p.refs = 1 then [.last] else [])

/-- The next step of a call: the pool afterwards, and what is left of the call. -/
def Call.step (cleared : α) (p : Pool α) : Call → Pool α × List Call
  | .called i => (p, if p.pointer i = none then [] else [.entered i])
  | .entered i => (p, if p.pointer i = some p.id then [.checked i] else [])
  | .checked i => if p.inUse i then (p.clear cleared i, [.cleared]) else (p, [])
  | .cleared => p.releaseRef
  | .last => (p, [])

structure Life (α : Type) where
  pool : Pool α
  owner : Bool := true
  held : List ℕ := []
  calls : List Call := []
  deletions : ℕ := 0
  strays : ℕ := 0

inductive LifeAction (α : Type)
  /-- The owner asks for a slot. -/
  | acquire
  /-- The holder of a handle looks at the slot, or changes what it holds. -/
  | use (i : ℕ) (f : α → α)
  /-- A handle is given back. -/
  | destroy (i : ℕ)
  | advance (call : Call)
  /-- The owner is destroyed. -/
  | dropOwner

namespace Life

/-- The pool's memory is accessed. -/
def touch (s : Life α) : Life α :=
  { s with strays := if s.deletions = 0 then s.strays else s.strays + 1 }

/-- An action that cannot be taken is one of an owner that is gone, or on a handle that is not held
or a call that is not under way. -/
def step (reset : α → α) (cleared : α) (s : Life α) : LifeAction α → Option (Life α)
  | .acquire =>
    if s.owner then
      match s.pool.acquire reset with
      | none => some s.touch
      | some (i, pool) => some { s.touch with pool, held := i :: s.held }
    else none
  | .use i f => if i ∈ s.held then some { s.touch with pool := s.pool.update i f } else none
  | .destroy i =>
    if i ∈ s.held then some { s with held := s.held.erase i, calls := .called i :: s.calls }
    else none
  | .advance call =>
    if call ∈ s.calls then
      let (pool, rest) := call.step cleared s.pool
      some { s.touch with
        pool
        calls := rest ++ s.calls.erase call
        deletions := s.deletions + if call = .last then 1 else 0 }
    else none
  | .dropOwner =>
    if s.owner then
      let (pool, rest) := s.pool.releaseRef
      some { s.touch with pool, owner := false, calls := rest ++ s.calls }
    else none

/-- The handles whose slots are still to be cleared. -/
def live (s : Life α) : List ℕ := s.held ++ s.calls.filterMap Call.handle

/-- The number of slots acquired whose reference has not been given back. -/
def outstanding (s : Life α) : ℕ := s.live.length + s.calls.count .cleared

/-- What every step keeps: each live handle has its slot, each reference its holder, and the pool
is deleted, or about to be, when there is no reference left. -/
structure Kept (s : Life α) : Prop where
  lent : s.pool.Lent s.live
  refs : s.pool.refs = s.owner.toNat + s.outstanding
  deleted : s.deletions + s.calls.count .last = if s.pool.refs = 0 then 1 else 0
  strays : s.strays = 0

section Steps

variable {reset f : α → α} {cleared : α} {s s' : Life α} {i : ℕ} {call : Call}

theorem kept_new (id capacity : ℕ) (content : α) :
    (Kept { pool := Pool.new id capacity content : Life α }) where
  lent := lent_new id capacity content
  refs := rfl
  deleted := rfl
  strays := rfl

/-- A call that is under way, and the others. -/
theorem live_perm (hcall : call ∈ s.calls) :
    s.live.Perm (call.handle.toList ++ (s.held ++ (s.calls.erase call).filterMap Call.handle)) := by
  have hcalls := (List.perm_cons_erase hcall).filterMap Call.handle
  refine (hcalls.append_left s.held).trans ?_
  cases hhandle : call.handle with
  | none => rw [List.filterMap_cons_none hhandle]; rfl
  | some i =>
    rw [List.filterMap_cons_some hhandle]
    exact List.perm_middle

theorem count_erase (hcall : call ∈ s.calls) (other : Call) :
    s.calls.count other = (s.calls.erase call).count other + if call = other then 1 else 0 := by
  rw [(List.perm_cons_erase hcall).count_eq, List.count_cons]
  simp only [beq_iff_eq]

/-- As long as there is a reference, the pool is neither deleted nor about to be. -/
theorem Kept.deleted_add_eq_zero (h : s.Kept) (hpos : 0 < s.pool.refs) :
    s.deletions + s.calls.count .last = 0 := by
  rw [h.deleted, if_neg (Nat.ne_of_gt hpos)]

/-- What an owner, a handle or a call is left of has not been deleted. -/
theorem Kept.deletions_eq_zero (h : s.Kept)
    (hs : s.owner = true ∨ (∃ i, i ∈ s.held) ∨ ∃ call, call ∈ s.calls) : s.deletions = 0 := by
  have hrefs := h.refs
  have hundeleted (hpos : 0 < s.pool.refs) : s.deletions = 0 :=
    (Nat.add_eq_zero_iff.1 (h.deleted_add_eq_zero hpos)).1
  have hlive {i : ℕ} (hi : i ∈ s.live) : s.deletions = 0 := by
    have hpos := List.length_pos_of_mem hi
    rw [outstanding] at hrefs
    exact hundeleted (by omega)
  rcases hs with howner | ⟨i, hi⟩ | ⟨call, hcall⟩
  · rw [howner, Bool.toNat_true] at hrefs
    exact hundeleted (by omega)
  · exact hlive (List.mem_append_left _ hi)
  · have hcount : 0 < s.calls.count call := List.count_pos_iff.2 hcall
    cases call with
    | called i | entered i | checked i =>
      exact hlive (List.mem_append_right _ (List.mem_filterMap.2 ⟨_, hcall, rfl⟩))
    | cleared =>
      rw [outstanding] at hrefs
      exact hundeleted (by omega)
    | last =>
      -- the one reason for a call to be at its deletion is that none has been made
      have hle : s.deletions + s.calls.count .last ≤ 1 := by
        rw [h.deleted]
        split_ifs <;> omega
      omega

theorem touch_eq (h : s.deletions = 0) : s.touch = s := by
  rw [touch, if_pos h]

theorem Kept.touch_eq (h : s.Kept)
    (hs : s.owner = true ∨ (∃ i, i ∈ s.held) ∨ ∃ call, call ∈ s.calls) : s.touch = s :=
  Life.touch_eq (h.deletions_eq_zero hs)

/-- What is kept does not depend on which handles are held and which are being given back. -/
theorem Kept.congr (h : s.Kept) (hpool : s'.pool = s.pool) (howner : s'.owner = s.owner)
    (hlive : s.live.Perm s'.live) (hcount : ∀ call, call.handle = none →
      s'.calls.count call = s.calls.count call)
    (hdeletions : s'.deletions = s.deletions) (hstrays : s'.strays = s.strays) : s'.Kept where
  lent := by
    rw [hpool]
    exact h.lent.perm hlive
  refs := by
    rw [hpool, howner, h.refs, outstanding, outstanding, hlive.length_eq, hcount .cleared rfl]
  deleted := by
    rw [hpool, hdeletions, hcount .last rfl]
    exact h.deleted
  strays := hstrays.trans h.strays

theorem filterMap_releaseRef (p : Pool α) : p.releaseRef.2.filterMap Call.handle = [] := by
  unfold Pool.releaseRef
  split_ifs <;> rfl

theorem count_releaseRef (p : Pool α) :
    p.releaseRef.2.count .cleared = 0 ∧
      p.releaseRef.2.count .last = if p.refs = 1 then 1 else 0 := by
  unfold Pool.releaseRef
  split_ifs <;> exact ⟨rfl, rfl⟩

/-- A reference is given back that no owner and no slot of `s` counts for any more. -/
theorem kept_releaseRef (hlent : s.pool.Lent s.live)
    (hrefs : s.pool.refs = s.owner.toNat + s.outstanding + 1)
    (hdeleted : s.deletions + s.calls.count .last = 0) (hstrays : s.strays = 0) :
    Kept { s with pool := s.pool.releaseRef.1, calls := s.pool.releaseRef.2 ++ s.calls } := by
  have hlive : live { s with
      pool := s.pool.releaseRef.1, calls := s.pool.releaseRef.2 ++ s.calls } = s.live := by
    rw [live, List.filterMap_append, filterMap_releaseRef, List.nil_append]
    rfl
  obtain ⟨hcleared, hlast⟩ := count_releaseRef s.pool
  refine ⟨?_, ?_, ?_, hstrays⟩
  · rw [hlive]
    exact hlent.withRefs _
  · rw [outstanding, hlive, List.count_append, hcleared, Nat.zero_add]
    show s.pool.refs - 1 = _
    rw [hrefs]
    rfl
  · rw [List.count_append, hlast]
    show s.deletions + _ = if s.pool.refs - 1 = 0 then 1 else 0
    split_ifs <;> omega

theorem kept_acquire (h : s.Kept) (howner : s.owner = true)
    {pool : Pool α} (hacquire : s.pool.acquire reset = some (i, pool)) :
    Kept { s with pool, held := i :: s.held } where
  lent := h.lent.lends (lends_acquire hacquire)
  refs := by
    obtain ⟨slot, -, -, rfl⟩ := acquire_eq_some hacquire
    show s.pool.refs + 1 = s.owner.toNat + ((s.live.length + 1) + s.calls.count .cleared)
    rw [h.refs, outstanding]
    omega
  deleted := by
    have hrefs := h.refs
    rw [howner, Bool.toNat_true] at hrefs
    obtain ⟨slot, -, -, rfl⟩ := acquire_eq_some hacquire
    exact h.deleted_add_eq_zero (by omega)
  strays := h.strays

theorem update_refs (p : Pool α) (i : ℕ) (f : α → α) : (p.update i f).refs = p.refs := by
  unfold Pool.update
  split <;> rfl

theorem kept_use (h : s.Kept) (hi : i ∈ s.held) :
    Kept { s with pool := s.pool.update i f } where
  lent := h.lent.update (List.mem_append_left _ hi)
  refs := (update_refs s.pool i f).trans h.refs
  deleted := by
    rw [update_refs]
    exact h.deleted
  strays := h.strays

theorem kept_destroy (h : s.Kept) (hi : i ∈ s.held) :
    Kept { s with held := s.held.erase i, calls := .called i :: s.calls } := by
  refine h.congr rfl rfl ?_ (fun call hhandle => ?_) rfl rfl
  · refine ((List.perm_cons_erase hi).append_right _).trans ?_
    exact List.perm_middle.symm
  · refine List.count_cons_of_ne ?_
    rintro rfl
    cases hhandle

/-- A call that still has its handle goes on without a change to the pool. -/
theorem Kept.forward (h : s.Kept) (hcall : call ∈ s.calls) {call' : Call}
    (hhandle : call.handle = some i) (hhandle' : call'.handle = some i) :
    Kept { s with calls := call' :: s.calls.erase call } := by
  refine h.congr rfl rfl ?_ (fun other hother => ?_) rfl rfl
  · refine (live_perm hcall).trans ?_
    rw [live, List.filterMap_cons_some hhandle', hhandle]
    show (i :: (s.held ++ _)).Perm (s.held ++ i :: _)
    exact List.perm_middle.symm
  · have hne (c : Call) (hc : c.handle = some i) : c ≠ other := by
      rintro rfl
      rw [hc] at hother
      cases hother
    rw [count_erase hcall, if_neg (hne call hhandle), List.count_cons_of_ne (hne call' hhandle')]
    rfl

theorem kept_clear (h : s.Kept) (hcall : Call.checked i ∈ s.calls) : Kept { s with
    pool := s.pool.clear cleared i
    calls := .cleared :: s.calls.erase (.checked i) } := by
  have hlive := live_perm hcall
  have hcleared := count_erase hcall .cleared
  have hlast := count_erase hcall .last
  rw [if_neg (by simp)] at hcleared hlast
  refine ⟨(h.lent.perm hlive).clear, ?_, ?_, h.strays⟩
  · show s.pool.refs = s.owner.toNat +
      ((s.held ++ (s.calls.erase _).filterMap Call.handle).length +
        (Call.cleared :: s.calls.erase _).count Call.cleared)
    rw [h.refs, outstanding, hlive.length_eq, List.count_cons_self, hcleared]
    simp only [List.length_append, Call.handle, Option.toList_some, List.length_singleton]
    omega
  · rw [List.count_cons_of_ne (by simp), ← hlast.trans (Nat.add_zero _)]
    exact h.deleted

theorem kept_unref (h : s.Kept) (hcall : Call.cleared ∈ s.calls) : Kept { s with
    pool := s.pool.releaseRef.1
    calls := s.pool.releaseRef.2 ++ s.calls.erase .cleared } := by
  have hlive := live_perm hcall
  have hrefs := h.refs
  have hcleared := count_erase hcall .cleared
  have hlast := count_erase hcall .last
  rw [if_pos rfl] at hcleared
  rw [if_neg (by simp)] at hlast
  rw [outstanding, hcleared, hlive.length_eq] at hrefs
  have hdeleted := h.deleted_add_eq_zero (by omega)
  rw [hlast] at hdeleted
  exact kept_releaseRef (s := { s with calls := s.calls.erase .cleared }) (h.lent.perm hlive)
    hrefs hdeleted h.strays

theorem kept_delete (h : s.Kept) (hcall : Call.last ∈ s.calls) :
    Kept { s with calls := s.calls.erase .last, deletions := s.deletions + 1 } := by
  have hlive := live_perm hcall
  have hcleared := count_erase hcall .cleared
  have hlast := count_erase hcall .last
  have hrefs := h.refs
  have hdeleted := h.deleted
  rw [if_neg (by simp)] at hcleared
  rw [if_pos rfl] at hlast
  refine ⟨h.lent.perm hlive, ?_, ?_, h.strays⟩
  · rw [outstanding, hcleared, hlive.length_eq] at hrefs
    exact hrefs
  · rw [hlast, ← Nat.add_assoc, Nat.add_right_comm] at hdeleted
    exact hdeleted

/-- A call that has a live handle is not turned away. -/
theorem step_called {p : Pool α} {held : List ℕ} (h : p.Lent held) (hi : i ∈ held) :
    Call.step cleared p (.called i) = (p, [.entered i]) := by
  have hpointer : p.pointer i ≠ none := by
    rw [h.pointer hi]
    exact Option.some_ne_none _
  rw [Call.step, if_neg hpointer]

theorem step_entered {p : Pool α} {held : List ℕ} (h : p.Lent held) (hi : i ∈ held) :
    Call.step cleared p (.entered i) = (p, [.checked i]) := by
  rw [Call.step, if_pos (h.pointer hi)]

theorem step_checked {p : Pool α} {held : List ℕ} (h : p.Lent held) (hi : i ∈ held) :
    Call.step cleared p (.checked i) = (p.clear cleared i, [.cleared]) := by
  rw [Call.step, if_pos (h.inUse_eq hi)]

theorem kept_advance (h : s.Kept) (hcall : call ∈ s.calls) : Kept { s with
    pool := (call.step cleared s.pool).1
    calls := (call.step cleared s.pool).2 ++ s.calls.erase call
    deletions := s.deletions + if call = .last then 1 else 0 } := by
  have hlive {j : ℕ} (hhandle : call.handle = some j) : j ∈ s.live :=
    List.mem_append_right _ (List.mem_filterMap.2 ⟨call, hcall, hhandle⟩)
  cases call with
  | called j =>
    rw [step_called h.lent (hlive rfl)]
    exact h.forward hcall rfl rfl
  | entered j =>
    rw [step_entered h.lent (hlive rfl)]
    exact h.forward hcall rfl rfl
  | checked j =>
    rw [step_checked h.lent (hlive rfl)]
    exact kept_clear h hcall
  | cleared => exact kept_unref h hcall
  | last => exact kept_delete h hcall

theorem kept_dropOwner (h : s.Kept) (howner : s.owner = true) : Kept { s with
    pool := s.pool.releaseRef.1
    owner := false
    calls := s.pool.releaseRef.2 ++ s.calls } := by
  have hrefs := h.refs
  rw [howner, Bool.toNat_true] at hrefs
  refine kept_releaseRef (s := { s with owner := false }) h.lent ?_
    (h.deleted_add_eq_zero (by omega)) h.strays
  show s.pool.refs = 0 + s.outstanding + 1
  omega

/-- No step accesses a pool that is deleted. -/
theorem kept_step (h : s.Kept) (a : LifeAction α) (hstep : s.step reset cleared a = some s') :
    s'.Kept := by
  cases a with
  | acquire =>
    simp only [step, Option.ite_none_right_eq_some] at hstep
    obtain ⟨howner, hstep⟩ := hstep
    rw [h.touch_eq (.inl howner)] at hstep
    split at hstep
    · cases hstep
      exact h
    · rename_i i pool hacquire
      cases hstep
      exact kept_acquire h howner hacquire
  | use i f =>
    simp only [step, Option.ite_none_right_eq_some] at hstep
    obtain ⟨hi, hstep⟩ := hstep
    rw [h.touch_eq (.inr (.inl ⟨i, hi⟩))] at hstep
    cases hstep
    exact kept_use h hi
  | destroy i =>
    simp only [step, Option.ite_none_right_eq_some] at hstep
    obtain ⟨hi, hstep⟩ := hstep
    cases hstep
    exact kept_destroy h hi
  | advance call =>
    simp only [step, Option.ite_none_right_eq_some] at hstep
    obtain ⟨hcall, hstep⟩ := hstep
    rw [h.touch_eq (.inr (.inr ⟨call, hcall⟩))] at hstep
    cases hstep
    exact kept_advance h hcall
  | dropOwner =>
    simp only [step, Option.ite_none_right_eq_some] at hstep
    obtain ⟨howner, hstep⟩ := hstep
    rw [h.touch_eq (.inl howner)] at hstep
    cases hstep
    exact kept_dropOwner h howner

/-- A step of a call leaves less to do. -/
theorem leftOf_step (cleared : α) (p : Pool α) (call : Call) (rest : List Call) :
    Call.leftOf ((call.step cleared p).2 ++ rest) < Call.leftOf (call :: rest) := by
  cases call with
  | called i | entered i | checked i =>
    simp only [Call.step]
    split_ifs <;> simp [Call.leftOf, Call.left]
  | cleared =>
    simp only [Call.step, Pool.releaseRef]
    split_ifs <;> simp [Call.leftOf, Call.left]
  | last => simp [Call.step, Call.leftOf, Call.left]

/-- The calls under way can all be brought to their end. -/
theorem exec_finish (reset : α → α) (cleared : α) (s : Life α) :
    ∃ as t, (∀ a ∈ as, ∃ call, a = .advance call) ∧
      Run.exec (step reset cleared) s as = some t ∧ t.calls = [] ∧
        t.owner = s.owner ∧ t.held = s.held := by
  induction hn : Call.leftOf s.calls using Nat.strongRecOn generalizing s with
  | ind n ih =>
    cases hcalls : s.calls with
    | nil => exact ⟨[], s, List.forall_mem_nil _, rfl, hcalls, rfl, rfl⟩
    | cons call rest =>
      obtain ⟨s', hs'⟩ : ∃ s', s' = { s.touch with
        pool := (call.step cleared s.pool).1
        calls := (call.step cleared s.pool).2 ++ s.calls.erase call
        deletions := s.deletions + if call = Call.last then 1 else 0 } := ⟨_, rfl⟩
      have hcall : call ∈ s.calls := by
        rw [hcalls]
        exact List.mem_cons_self
      have hstep : s.step reset cleared (.advance call) = some s' := by
        rw [hs']
        exact if_pos hcall
      have hlt : Call.leftOf s'.calls < n := by
        rw [hs', ← hn, hcalls]
        simp only [List.erase_cons_head]
        exact leftOf_step cleared s.pool call rest
      obtain ⟨as, t, has, hexec, hdone, howner, hheld⟩ := ih _ hlt s' rfl
      refine ⟨.advance call :: as, t, List.forall_mem_cons.2 ⟨⟨call, rfl⟩, has⟩, ?_, hdone, ?_, ?_⟩
      · rw [Run.exec, hstep, Option.bind_some, hexec]
      · rw [howner, hs']
        rfl
      · rw [hheld, hs']
        rfl

/-- The pool is deleted, or one call is about to, just when its owner and all slots have given back
their references. -/
theorem Kept.deleted_eq (h : s.Kept) : s.deletions + s.calls.count .last =
    if s.owner = false ∧ s.outstanding = 0 then 1 else 0 := by
  rw [h.deleted, h.refs]
  refine if_congr ?_ rfl rfl
  rw [Nat.add_eq_zero_iff, Bool.toNat_eq_zero]

/-- Once the owner and all handles are gone, the calls under way delete the pool. -/
theorem Kept.finish (h : s.Kept) (reset : α → α) (cleared : α) (howner : s.owner = false)
    (hheld : s.held = []) : ∃ as t, (∀ a ∈ as, ∃ call, a = .advance call) ∧
      Run.exec (step reset cleared) s as = some t ∧ t.calls = [] ∧ t.deletions = 1 := by
  obtain ⟨as, t, has, hexec, hcalls, howner', hheld'⟩ := exec_finish reset cleared s
  have ht : t.Kept := Run.exec_keeps (fun _ a _ h hstep => kept_step h a hstep) h hexec
  have hdeleted := ht.deleted_eq
  have hnone : t.outstanding = 0 := by
    rw [outstanding, live, hheld', hheld, hcalls]
    rfl
  rw [hcalls, if_pos ⟨howner'.trans howner, hnone⟩] at hdeleted
  exact ⟨as, t, has, hexec, hcalls, hdeleted⟩

/-- The steps of a handle's being given back that nothing comes between. -/
def giveBack (i : ℕ) : List (LifeAction α) :=
  [.destroy i, .advance (.called i), .advance (.entered i), .advance (.checked i),
    .advance .cleared]

/-- The call at the head of those under way takes its step. -/
theorem Kept.advance_head (h : s.Kept) {rest : List Call} (hcalls : s.calls = call :: rest)
    (hlast : call ≠ .last) : s.step reset cleared (.advance call) = some { s with
      pool := (call.step cleared s.pool).1
      calls := (call.step cleared s.pool).2 ++ rest } := by
  have hcall : call ∈ s.calls := by
    rw [hcalls]
    exact List.mem_cons_self
  simp only [step, if_pos hcall, h.touch_eq (.inr (.inr ⟨call, hcall⟩)), if_neg hlast]
  rw [hcalls, List.erase_cons_head]
  rfl

/-- What nothing comes between is a release. -/
theorem Kept.exec_giveBack (h : s.Kept) (hi : i ∈ s.held) :
    ∃ t, Run.exec (step reset cleared) s (giveBack i) = some t ∧
      t.pool = s.pool.release cleared i ∧ t.owner = s.owner ∧ t.held = s.held.erase i ∧
        t.calls = s.pool.releaseRef.2 ++ s.calls := by
  have hlive : i ∈ s.live := List.mem_append_left _ hi
  -- the states that the five steps lead through
  let s₁ : Life α := { s with held := s.held.erase i, calls := .called i :: s.calls }
  let s₂ : Life α := { s₁ with calls := .entered i :: s.calls }
  let s₃ : Life α := { s₁ with calls := .checked i :: s.calls }
  let s₄ : Life α := { s₁ with pool := s.pool.clear cleared i, calls := .cleared :: s.calls }
  let s₅ : Life α := { s₁ with
    pool := { s.pool.clear cleared i with refs := s.pool.refs - 1 }
    calls := s.pool.releaseRef.2 ++ s.calls }
  have hstep₁ : s.step reset cleared (.destroy i) = some s₁ := if_pos hi
  have h₁ : s₁.Kept := kept_step h _ hstep₁
  have hstep₂ : s₁.step reset cleared (.advance (.called i)) = some s₂ := by
    rw [h₁.advance_head rfl (by simp), step_called h.lent hlive]
    rfl
  have h₂ : s₂.Kept := kept_step h₁ _ hstep₂
  have hstep₃ : s₂.step reset cleared (.advance (.entered i)) = some s₃ := by
    rw [h₂.advance_head rfl (by simp), step_entered h.lent hlive]
    rfl
  have h₃ : s₃.Kept := kept_step h₂ _ hstep₃
  have hstep₄ : s₃.step reset cleared (.advance (.checked i)) = some s₄ := by
    rw [h₃.advance_head rfl (by simp), step_checked h.lent hlive]
    rfl
  have h₄ : s₄.Kept := kept_step h₃ _ hstep₄
  have hstep₅ : s₄.step reset cleared (.advance .cleared) = some s₅ :=
    h₄.advance_head rfl (by simp)
  refine ⟨s₅, ?_, (release_eq_clear (h.lent.pointer hlive) (h.lent.inUse_eq hlive)).symm,
    rfl, rfl, rfl⟩
  simp only [giveBack, Run.exec, hstep₁, hstep₂, hstep₃, hstep₄, hstep₅, Option.bind_some]

end Steps

end Life

end SlotPool
