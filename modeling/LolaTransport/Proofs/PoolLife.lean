import LolaTransport.Proofs.Bridge

/-!
# Pools that outlive their owners

A transport or a subscriber may be destroyed while loans or leases of its pool are held; the pool
is deleted with the last reference to it.  That no step comes too late, or is left out, is what
`Life.Kept` says of every interleaving of the threads' steps.
-/

namespace LolaTransport

namespace Bridge

open Run SlotPool

/-- What holds of a pool, of which slots are asked for by `acquire` and which goes on by `step`. -/
structure SafePool {α : Type} (acquire : Pool α → Option (ℕ × Pool α))
    (step : Life α → LifeAction α → Option (Life α)) (s : Life α) : Prop where
  refs : s.pool.refs = s.owner.toNat + s.outstanding
  distinct : s.live.Nodup
  used : s.pool.used = s.live.length
  exhausted : acquire s.pool = none ↔ ∀ slot ∈ s.pool.slots, slot.inUse = true
  /-- The pool is deleted, or one call is about to delete it, exactly when there is no owner and no
  reference of a slot is outstanding. -/
  deleted : s.deletions + s.calls.count .last =
    if s.owner = false ∧ s.outstanding = 0 then 1 else 0
  /-- Once the owner and the handles are gone, the calls under way get the pool deleted. -/
  finish : s.owner = false → s.held = [] → ∃ as t, (∀ a ∈ as, ∃ call, a = .advance call) ∧
    exec step s as = some t ∧ t.calls = [] ∧ t.deletions = 1
  strays : s.strays = 0

theorem safePool_of_kept {α : Type} {reset : α → α} {cleared : α} {s : Life α} (h : s.Kept) :
    SafePool (Pool.acquire reset) (Life.step reset cleared) s where
  refs := h.refs
  distinct := h.lent.nodup
  used := h.lent.used
  exhausted := by rw [acquire_eq_none, Pool.used, List.countP_eq_length]
  deleted := h.deleted_eq
  finish := h.finish reset cleared
  strays := h.strays

theorem kept_of_reach {α : Type} {reset : α → α} {cleared content : α} {id capacity : ℕ}
    {s : Life α} (hs : Reach (Life.step reset cleared) (fun _ _ => True)
      { pool := .new id capacity content } s) : s.Kept :=
  hs.invariant (Life.kept_new id capacity content)
    fun _ a _ _ hkept _ hstep => Life.kept_step hkept a hstep

/-- Whatever the order of the steps of the owner, of those who hold handles and of the calls that
give them back: the references are those of the owner and of the slots out, no two handles are of
one slot, the pool is deleted once, with the last of them, and is not accessed after that. -/
theorem pool_lifetime (id capacity : ℕ) :
    (∀ s, Reach TxLoanPool.step (fun _ _ => True) (TxLoanPool.life id capacity) s →
      SafePool TxLoanPool.acquire TxLoanPool.step s) ∧
    ∀ s, Reach RxSamplePool.step (fun _ _ => True) (RxSamplePool.life id capacity) s →
      SafePool RxSamplePool.acquire RxSamplePool.step s :=
  ⟨fun _ hs => safePool_of_kept (kept_of_reach hs), fun _ hs => safePool_of_kept (kept_of_reach hs)⟩

/-- A loan that is given back after its transport has been destroyed: the call deletes the pool. -/
theorem pool_lifetime_plain : ∃ s : Life (Held SampleAllocateePtr),
    s.owner = false ∧ s.deletions = 0 ∧ s.pool.refs = 1 ∧ s.calls = [.called 0] ∧
      ∃ as t, exec TxLoanPool.step s as = some t ∧ t.deletions = 1 := by
  have h₀ : Reach TxLoanPool.step (fun _ _ => True) (TxLoanPool.life 0 1) (TxLoanPool.life 0 1) :=
    .refl
  have h₁ := h₀.step (a := .acquire) trivial rfl
  have h₂ := h₁.step (a := .dropOwner) trivial rfl
  have hs := h₂.step (a := .destroy 0) trivial rfl
  obtain ⟨as, t, -, hexec, -, hdeleted⟩ := ((pool_lifetime 0 1).1 _ hs).finish rfl rfl
  exact ⟨_, rfl, rfl, rfl, rfl, as, t, hexec, hdeleted⟩

section Alone

variable {id capacity i : ℕ}

/-- `up_lola_tx_loan_destroy` is what the steps of giving back a loan come to. -/
theorem exec_txLoanDestroy {s : Life (Held SampleAllocateePtr)}
    (hs : Reach TxLoanPool.step (fun _ _ => True) (TxLoanPool.life id capacity) s)
    (hi : i ∈ s.held) : ∃ t, exec TxLoanPool.step s (Life.giveBack i) = some t ∧
      t.pool = upLolaTxLoanDestroy s.pool i ∧ t.held = s.held.erase i := by
  have hkept : s.Kept := kept_of_reach hs
  obtain ⟨t, hexec, hpool, -, hheld, -⟩ := hkept.exec_giveBack hi
  rw [destroy_eq_release (hkept.lent.pointing (List.mem_append_left _ hi))]
  exact ⟨t, hexec, hpool, hheld⟩

theorem exec_rxSampleDestroy {s : Life (Held (Option (ℕ × SamplePtr)))}
    (hs : Reach RxSamplePool.step (fun _ _ => True) (RxSamplePool.life id capacity) s)
    (hi : i ∈ s.held) : ∃ t, exec RxSamplePool.step s (Life.giveBack i) = some t ∧
      t.pool = upLolaRxSampleDestroy s.pool i ∧ t.held = s.held.erase i := by
  have hkept : s.Kept := kept_of_reach hs
  obtain ⟨t, hexec, hpool, -, hheld, -⟩ := hkept.exec_giveBack hi
  rw [rxDestroy_eq_release (hkept.lent.pointing (List.mem_append_left _ hi))]
  exact ⟨t, hexec, hpool, hheld⟩

end Alone

end Bridge

end LolaTransport
