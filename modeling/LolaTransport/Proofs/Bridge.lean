import LolaTransport.Lib.Fallible
import LolaTransport.Sys

/-!
# What the bridge calls do to a pool

A reserve either lends one free slot, whose data is then valid, or leaves the slots in use as they
were; giving back a slot that is lent leaves the others as they were.  A receive takes its sample
before its slot (`ReceiveCase`).
-/

namespace LolaTransport

open Bridge SlotPool

variable {w : PointerWidth} {i : ℕ}

section Transmit

/-- The data of the loan is valid: `send` takes it. -/
def Sendable (pool : TxLoanPool) (i : ℕ) : Prop :=
  ∃ slot, pool.slots[i]? = some slot ∧ slot.inUse = true ∧ slot.pool = some pool.id ∧
    slot.content.sampleData ≠ 0 ∧ slot.content.sample.get ≠ 0

theorem genericSampleData_ne_zero {storageData : ℕ → ℕ} {sample : SampleAllocateePtr}
    {size alignment max : ℕ} (h : genericSampleData w storageData sample size alignment max ≠ 0) :
    sample.get ≠ 0 := by
  intro hget
  simp [genericSampleData, hget] at h

theorem destroy_eq_release {pool : TxLoanPool} (h : ∃ slot, pool.slots[i]? = some slot ∧
    slot.inUse = true ∧ slot.pool = some pool.id) :
    upLolaTxLoanDestroy pool i = TxLoanPool.release i pool := by
  obtain ⟨slot, hslot, -, hpool⟩ := h
  simp [upLolaTxLoanDestroy, hslot, hpool]

theorem rxDestroy_eq_release {pool : RxSamplePool} (h : ∃ slot, pool.slots[i]? = some slot ∧
    slot.inUse = true ∧ slot.pool = some pool.id) :
    upLolaRxSampleDestroy pool i = RxSamplePool.release i pool := by
  obtain ⟨slot, hslot, -, hpool⟩ := h
  simp [upLolaRxSampleDestroy, hslot, hpool]

/-- A reserve lends a slot, or leaves those in use as they were. -/
theorem reserve_cases {allocation : Allocation} {transport transport' : UpLolaTransport}
    {result : Except UpLolaStatusCode ℕ}
    (h : upLolaTransportReserve w allocation transport = (result, transport')) :
    (∃ i, result = .ok i ∧ Lends i transport.txPool transport'.txPool ∧
      Sendable transport'.txPool i) ∨
    ∃ status, result = .error status ∧ SameInUse transport.txPool transport'.txPool := by
  unfold upLolaTransportReserve at h
  split at h
  · cases h
    exact .inr ⟨_, rfl, .refl _⟩
  · rename_i loan pool hacquire
    have hlends := lends_acquire hacquire
    split at h
    · cases h
      exact .inr ⟨_, rfl, hlends.release _⟩
    · rename_i sample hsample
      dsimp only at h
      split_ifs at h with hdata
      · cases h
        exact .inr ⟨_, rfl, (hlends.update _).release _⟩
      · cases h
        have hupdate := hlends.update fun _ => {
          sample
          sampleData := genericSampleData w allocation.storageData sample transport.sampleSize
            transport.sampleAlignment transport.maxSamples
          sampleSize := transport.sampleSize }
        obtain ⟨slot, hslot, hin, hpool⟩ := hlends.lent
        refine .inl ⟨loan, rfl, hupdate, _, getElem?_update hslot, hin, ?_, hdata,
          genericSampleData_ne_zero hdata⟩
        rw [hupdate.changed.id, ← hlends.changed.id]
        exact hpool

theorem Sendable.inUse {pool : TxLoanPool} (h : Sendable pool i) : ∃ slot,
    pool.slots[i]? = some slot ∧ slot.inUse = true ∧ slot.pool = some pool.id := by
  obtain ⟨slot, hslot, hin, hpool, -⟩ := h
  exact ⟨slot, hslot, hin, hpool⟩

theorem Sendable.changedAt {pool pool' : TxLoanPool} {k : ℕ} (h : Sendable pool k)
    (hchanged : ChangedAt i pool pool') (hk : k ≠ i) : Sendable pool' k := by
  obtain ⟨slot, hslot, hin, hpool, hdata⟩ := h
  exact ⟨slot, (hchanged.others k hk).trans hslot, hin, by rw [hpool, hchanged.id], hdata⟩

theorem Sendable.sameInUse {pool pool' : TxLoanPool} (h : Sendable pool i)
    (hsame : SameInUse pool pool') : Sendable pool' i := by
  obtain ⟨slot, hslot, hin, hpool, hdata⟩ := h
  exact ⟨slot, hsame.kept i slot hslot hin, hin, by rw [hpool, hsame.id], hdata⟩

theorem Sendable.lends {pool pool' : TxLoanPool} {k : ℕ} (h : Sendable pool k)
    (hlends : Lends i pool pool') : k ≠ i ∧ Sendable pool' k := by
  obtain ⟨slot, hslot, hin, -⟩ := h.inUse
  have hk := (hlends.kept hslot hin).1
  exact ⟨hk, h.changedAt hlends.changed hk⟩

/-- A send by the loan's own transport gives the slot back, whatever S-CORE makes of it. -/
theorem send_own {sent : Bool} {transport : UpLolaTransport} (h : Sendable transport.txPool i) :
    (upLolaTransportSend sent transport transport.txPool i).2 =
      TxLoanPool.release i transport.txPool := by
  obtain ⟨slot, hslot, hin, hpool, hdata, hget⟩ := h
  simp [upLolaTransportSend, hslot, hin, hpool, hdata, hget]

/-- A send by another transport leaves the slot in use. -/
theorem send_other {sent : Bool} {transport : UpLolaTransport} {pool : TxLoanPool}
    (h : Sendable pool i) (hid : pool.id ≠ transport.txPool.id) :
    (upLolaTransportSend sent transport pool i).2 = pool := by
  obtain ⟨slot, hslot, hin, hpool, hdata, hget⟩ := h
  simp [upLolaTransportSend, hslot, hpool, hid]

theorem used_release_of_sendable {pool : TxLoanPool} (h : Sendable pool i) :
    (TxLoanPool.release i pool).used + 1 = pool.used := by
  obtain ⟨slot, hslot, hin, hpool⟩ := h.inUse
  exact used_release hslot hpool hin

end Transmit

section Receive

variable {found : UpLolaStatusCode} {subscriber : UpLolaSubscriber}

theorem ensureProxyLocked_of_available (h : subscriber.subscribed = true ∨ found = .Ok) :
    ensureProxyLocked found subscriber = (.Ok, { subscriber with subscribed := true }) := by
  unfold ensureProxyLocked
  by_cases hsubscribed : subscriber.subscribed = true
  · rw [if_pos hsubscribed, ← hsubscribed]
  · have hfound : ¬ found ≠ .Ok := not_not.2 (h.resolve_left hsubscribed)
    rw [if_neg hsubscribed, if_neg hfound]

theorem ensureProxyLocked_of_not_available (h : ¬ (subscriber.subscribed = true ∨ found = .Ok)) :
    ensureProxyLocked found subscriber = (found, subscriber) := by
  obtain ⟨hsubscribed, hfound⟩ := not_or.1 h
  unfold ensureProxyLocked
  rw [if_neg hsubscribed, if_pos hfound]

/-- What a receive can do, with or without a proxy. -/
inductive ReceiveCase (found : UpLolaStatusCode) (subscriber : UpLolaSubscriber) :
    Bool → List (ℕ × SamplePtr) → Except UpLolaStatusCode ℕ → List (ℕ × SamplePtr) →
      UpLolaSubscriber → Prop
  | unavailable {works : Bool} {undelivered : List (ℕ × SamplePtr)}
      (havailable : ¬ (subscriber.subscribed = true ∨ found = .Ok)) :
      ReceiveCase found subscriber works undelivered (.error found) undelivered subscriber
  | failed {undelivered : List (ℕ × SamplePtr)}
      (havailable : subscriber.subscribed = true ∨ found = .Ok) :
      ReceiveCase found subscriber false undelivered (.error .Internal) undelivered
        { subscriber with subscribed := true }
  | empty (havailable : subscriber.subscribed = true ∨ found = .Ok) :
      ReceiveCase found subscriber true [] (.error .NotFound) []
        { subscriber with subscribed := true }
  | null {x : ℕ × SamplePtr} {rest : List (ℕ × SamplePtr)}
      (havailable : subscriber.subscribed = true ∨ found = .Ok) (hget : x.2.get = 0) :
      ReceiveCase found subscriber true (x :: rest) (.error .NotFound) rest
        { subscriber with subscribed := true }
  | full {x : ℕ × SamplePtr} {rest : List (ℕ × SamplePtr)}
      (havailable : subscriber.subscribed = true ∨ found = .Ok) (hget : x.2.get ≠ 0)
      (hacquire : RxSamplePool.acquire subscriber.rxPool = none) :
      ReceiveCase found subscriber true (x :: rest) (.error .ResourceExhausted) rest
        { subscriber with subscribed := true }
  | unaligned {x : ℕ × SamplePtr} {rest : List (ℕ × SamplePtr)} {sample : ℕ} {pool : RxSamplePool}
      (havailable : subscriber.subscribed = true ∨ found = .Ok)
      (hacquire : RxSamplePool.acquire subscriber.rxPool = some (sample, pool)) :
      ReceiveCase found subscriber true (x :: rest) (.error .Internal) rest
        { subscriber with
          subscribed := true
          rxPool := RxSamplePool.release sample (pool.update sample fun _ => {
            sample := some x
            sampleData := x.2.get
            sampleSize := subscriber.sampleSize }) }
  | received {x : ℕ × SamplePtr} {rest : List (ℕ × SamplePtr)} {sample : ℕ} {pool : RxSamplePool}
      (havailable : subscriber.subscribed = true ∨ found = .Ok)
      (hacquire : RxSamplePool.acquire subscriber.rxPool = some (sample, pool)) :
      ReceiveCase found subscriber true (x :: rest) (.ok sample) rest
        { subscriber with
          subscribed := true
          rxPool := pool.update sample fun _ => {
            sample := some x
            sampleData := x.2.get
            sampleSize := subscriber.sampleSize } }

theorem receive_cases {works : Bool} {undelivered undelivered' : List (ℕ × SamplePtr)}
    {subscriber' : UpLolaSubscriber} {result : Except UpLolaStatusCode ℕ}
    (h : upLolaSubscriberReceive found works undelivered subscriber =
      (result, undelivered', subscriber')) :
    ReceiveCase found subscriber works undelivered result undelivered' subscriber' := by
  unfold upLolaSubscriberReceive at h
  by_cases havailable : subscriber.subscribed = true ∨ found = .Ok
  · rw [ensureProxyLocked_of_available havailable] at h
    rcases works with _ | _
    · cases h
      exact .failed havailable
    rcases undelivered with _ | ⟨x, rest⟩
    · cases h
      exact .empty havailable
    simp only [getNewSamples, if_pos, List.head?_cons, List.tail_cons, ne_eq, not_true_eq_false,
      if_false] at h
    by_cases hget : x.2.get = 0
    · rw [if_pos hget] at h
      cases h
      exact .null havailable hget
    rw [if_neg hget] at h
    rcases hacquire : RxSamplePool.acquire subscriber.rxPool with _ | ⟨sample, pool⟩
    · rw [hacquire] at h
      cases h
      exact .full havailable hget hacquire
    · rw [hacquire] at h
      dsimp only at h
      split_ifs at h with hdata
      · cases h
        exact .unaligned havailable hacquire
      · cases h
        exact .received havailable hacquire
  · rw [ensureProxyLocked_of_not_available havailable] at h
    have hfound : found ≠ .Ok := fun hfound => havailable (.inr hfound)
    simp only [if_pos hfound] at h
    cases h
    exact .unavailable havailable

end Receive

section Loans

theorem mapResult_error {α : Type} (status : UpLolaStatusCode) (operation what : String) :
    ∃ e, mapResult (.error status : Except UpLolaStatusCode α) operation what = .error e := by
  cases status
  all_goals exact ⟨_, rfl⟩

theorem drop_eq_release {loan : NativeTxLoan} {pool : TxLoanPool} (h : Sendable pool loan.loan) :
    loan.drop pool = TxLoanPool.release loan.loan pool := destroy_eq_release h.inUse

/-- A loan of a sample lends a slot, or leaves those in use as they were. -/
theorem loanSample_cases {allocation : Allocation} {native : NativeTransport}
    {transport transport' : UpLolaTransport} {result : Except Fault NativeTxLoan}
    (h : native.loanSample w allocation transport = (result, transport')) :
    (∃ loan, result = .ok loan ∧ loan.pool = native.ptr ∧
      Lends loan.loan transport.txPool transport'.txPool ∧
      Sendable transport'.txPool loan.loan) ∨
    ∃ e, result = .error e ∧ SameInUse transport.txPool transport'.txPool := by
  unfold NativeTransport.loanSample at h
  cases hreserve : upLolaTransportReserve w allocation transport with
  | mk reserved lent =>
    rw [hreserve] at h
    dsimp only at h
    rcases reserve_cases hreserve with ⟨i, rfl, hlends, hsendable⟩ | ⟨status, rfl, hsame⟩
    · simp only [mapResult, NativeTxLoan.new] at h
      split at h
      · cases h
        exact .inl ⟨_, rfl, rfl, hlends, hsendable⟩
      · cases h
        refine .inr ⟨_, rfl, ?_⟩
        dsimp only
        rw [drop_eq_release hsendable]
        exact hlends.release _
    · obtain ⟨e, he⟩ := mapResult_error (α := ℕ) status "loan LoLa sample" "TX loan"
      rw [he] at h
      cases h
      exact .inr ⟨e, rfl, hsame⟩

/-- A transport that is built has a valid configuration, and the bridge transport made from it. -/
theorem build_ok {created : UpLolaStatusCode} {config : LolaTransportConfig} {id : ℕ}
    {transport : UTransportLola} (h : UTransportLola.build created config id = .ok transport) :
    config.validate = .ok () ∧ ∃ bridge, upLolaTransportCreate created config id = .ok bridge ∧
      transport = ⟨config, ⟨id, config.sampleSize, config.sampleAlignment⟩, bridge⟩ := by
  simp only [UTransportLola.build, NativeTransport.new, Fallible.bind_eq_ok] at h
  obtain ⟨_, hvalid, ⟨native, bridge⟩, ⟨bridge', hcreate, hnative⟩, h⟩ := h
  cases h
  cases hnative
  refine ⟨hvalid, ?_⟩
  cases hresult : upLolaTransportCreate created config id with
  | error status =>
    obtain ⟨e, he⟩ := mapResult_error (α := UpLolaTransport) status "create LoLa transport"
      "transport"
    rw [hresult, he] at hcreate
    cases hcreate
  | ok created' =>
    rw [hresult] at hcreate
    cases hcreate
    exact ⟨bridge, rfl, rfl⟩

end Loans

end LolaTransport
