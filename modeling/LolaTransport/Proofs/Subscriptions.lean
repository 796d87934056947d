import LolaTransport.Event
import LolaTransport.Proofs.LoanFrames
import LolaTransport.Proofs.NativePull

/-!
# Slots in use and leases held

A subscription's pool has one slot in use for each lease held of it, and the slot of a lease keeps
the sample it was received with until the lease is dropped: whatever else is received, dropped, sent
or unsubscribed, the lease is read as it was at first.
-/

namespace LolaTransport

open Bridge SlotPool

variable {U : UpRust} {w : PointerWidth}

/-- What a sample gives out depends on nothing but its own slot. -/
theorem asSlice_congr {sample : NativeRxSample} {pool pool' : RxSamplePool}
    (h : pool'.slots[sample.sample]? = pool.slots[sample.sample]?) :
    sample.asSlice pool' = sample.asSlice pool := by
  simp only [NativeRxSample.asSlice, NativeRxSample.dataParts, upLolaRxSampleData,
    upLolaRxSampleSize, h]

/-- The slot of the lease gives out the sample that the lease was received with, whose frame is the
lease's. -/
def NativeLease.ReadsFrom (w : PointerWidth) (lease : NativeLease U) (pool : RxSamplePool) : Prop :=
  lease.slot.asSlice pool = .ok lease.sample ∧
    LolaRxLease.fromSample U w lease.sample.2.bytes = .ok lease.lease

theorem receiveLease_ok {found : UpLolaStatusCode} {works : Bool}
    {undelivered undelivered' : List (ℕ × SamplePtr)} {native native' : NativeSubscriber}
    {lease : NativeLease U}
    (h : native.receiveLease U w found works undelivered = (.ok lease, undelivered', native')) :
    lease.ReadsFrom w native'.subscriber.rxPool := by
  unfold NativeSubscriber.receiveLease at h
  split at h
  · cases h
  · dsimp only [NativeLease.fromNative] at h
    split at h
    · cases h
    · rename_i received hslice
      split at h
      · cases h
      · rename_i lease' hlease
        cases h
        exact ⟨hslice, hlease⟩

/-- A subscriber that has been created has every slot free. -/
theorem newSubscriber_pool {found : UpLolaStatusCode} {config : LolaTransportConfig}
    {native : NativeSubscriber} (h : NativeSubscriber.new found config = .ok native) :
    native.subscriber.rxPool = .new 0 config.maxSamples { sample := none } := by
  obtain ⟨subscriber, hcreated, h⟩ := Fallible.bind_eq_ok.1 h
  cases h
  cases hresult : upLolaSubscriberCreate found config with
  | error status =>
    obtain ⟨e, he⟩ := mapResult_error (α := UpLolaSubscriber) status "create LoLa subscriber"
      "subscriber"
    rw [hresult, he] at hcreated
    cases hcreated
  | ok created =>
    rw [hresult] at hcreated
    cases hcreated
    unfold upLolaSubscriberCreate at hresult
    split_ifs at hresult
    unfold ensureProxyLocked at hresult
    by_cases hfound : found = .Ok
    · simp only [hfound, ne_eq, not_true_eq_false, if_false, Bool.false_eq_true] at hresult
      cases hresult
      rfl
    · simp only [hfound, ne_eq, not_false_eq_true, if_true, Bool.false_eq_true, if_false] at hresult
      cases found
      all_goals cases hresult

namespace Event

/-- The slots of the leases held of the subscription at `k`. -/
def slots (s : Event U) (k : ℕ) : List ℕ :=
  (s.leases.filter fun lease => lease.subscription = k).map fun lease => lease.native.slot.sample

/-- The slots in use of every subscription are those of the leases held of it, and every lease is
read as the sample it was received with. -/
structure Leased (w : PointerWidth) (s : Event U) : Prop where
  holds : ∀ (k : ℕ) (subscription : Subscription), s.subscriptions[k]? = some subscription →
    subscription.native.subscriber.rxPool.Holds (s.slots k)
  reads : ∀ lease ∈ s.leases, ∃ subscription, s.subscriptions[lease.subscription]? =
      some subscription ∧
    lease.native.ReadsFrom w subscription.native.subscriber.rxPool

variable {s s' : Event U} {k i : ℕ} {subscription : Subscription}

theorem slots_append (s : Event U) (leases : List (HeldLease U)) (k : ℕ) :
    slots { s with leases := s.leases ++ leases } k =
      s.slots k ++ slots { s with leases } k := by
  simp [slots]

/-- A lease that is gone has given up its slot, and no other. -/
theorem slots_eraseIdx {lease : HeldLease U} (hi : s.leases[i]? = some lease) (k : ℕ) :
    (if lease.subscription = k then
      lease.native.slot.sample :: slots { s with leases := s.leases.eraseIdx i } k
    else slots { s with leases := s.leases.eraseIdx i } k).Perm (s.slots k) := by
  obtain ⟨hlt, rfl⟩ := List.getElem?_eq_some_iff.1 hi
  have hperm := ((List.getElem_cons_eraseIdx_perm hlt).filter
    fun lease : HeldLease U => decide (lease.subscription = k)).map
      fun lease : HeldLease U => lease.native.slot.sample
  rw [List.filter_cons] at hperm
  split_ifs with hk
  · simpa [slots, hk] using hperm
  · simpa [slots, hk] using hperm

/-- One subscription has changed: a lease that was held keeps what is in its slot, and one that was
not is of this subscription. -/
theorem leased_set {subscription' : Subscription} (hs : s.Leased w)
    (hk : s.subscriptions[k]? = some subscription)
    (hset : s'.subscriptions = s.subscriptions.set k subscription')
    (hholds : subscription'.native.subscriber.rxPool.Holds (s'.slots k))
    (hothers : ∀ j, j ≠ k → (s.slots j).Perm (s'.slots j))
    (hreads : ∀ lease ∈ s'.leases,
      (lease ∈ s.leases ∧ (lease.subscription = k →
        subscription'.native.subscriber.rxPool.slots[lease.native.slot.sample]? =
          subscription.native.subscriber.rxPool.slots[lease.native.slot.sample]?)) ∨
      (lease.subscription = k ∧
        lease.native.ReadsFrom w subscription'.native.subscriber.rxPool)) :
    s'.Leased w := by
  refine ⟨fun j sub hj => ?_, fun lease hlease => ?_⟩
  · rw [hset, List.getElem?_set_of_some hk] at hj
    split_ifs at hj with hjk
    · cases hj
      rwa [hjk]
    · exact (hs.holds j sub hj).perm (hothers j hjk)
  · rw [hset, List.getElem?_set_of_some hk]
    rcases hreads lease hlease with ⟨hold, hkeep⟩ | ⟨rfl, hread⟩
    · obtain ⟨sub, hsub, hread⟩ := hs.reads lease hold
      split_ifs with hlk
      · rw [hlk, hk] at hsub
        cases hsub
        exact ⟨subscription', rfl, by rw [asSlice_congr (hkeep hlk)]; exact hread.1, hread.2⟩
      · exact ⟨sub, hsub, hread⟩
    · rw [if_pos rfl]
      exact ⟨subscription', rfl, hread⟩

theorem leased_of_native {subscription' : Subscription} (hs : s.Leased w)
    (hk : s.subscriptions[k]? = some subscription)
    (hset : s'.subscriptions = s.subscriptions.set k subscription')
    (hleases : s'.leases = s.leases) (hnative : subscription'.native = subscription.native) :
    s'.Leased w := by
  have hslots (j : ℕ) : s'.slots j = s.slots j := by rw [slots, slots, hleases]
  refine leased_set hs hk hset ?_ (fun j _ => by rw [hslots]) fun lease hlease => ?_
  · rw [hnative, hslots]
    exact hs.holds k subscription hk
  · rw [hleases] at hlease
    exact .inl ⟨hlease, fun _ => by rw [hnative]⟩

theorem leased_subscribe {native : NativeSubscriber} {found : UpLolaStatusCode}
    {config : LolaTransportConfig} (hs : s.Leased w)
    (hnew : NativeSubscriber.new found config = .ok native) :
    Leased w { s with subscriptions := s.subscriptions ++ [{ native }] } := by
  have hpool : native.subscriber.rxPool.Holds [] := by
    rw [newSubscriber_pool hnew]
    exact holds_new _ _ _
  refine ⟨fun j sub hj => ?_, fun lease hlease => ?_⟩
  · rcases List.getElem?_concat_eq_some hj with hj | ⟨rfl, rfl⟩
    · exact hs.holds j sub hj
    · have hnone : s.slots s.subscriptions.length = [] := by
        simp only [slots, List.map_eq_nil_iff, List.filter_eq_nil_iff, decide_eq_true_eq]
        intro lease hlease hlen
        obtain ⟨sub, hsub, -⟩ := hs.reads lease hlease
        rw [hlen, List.getElem?_eq_none_iff.2 le_rfl] at hsub
        cases hsub
      change native.subscriber.rxPool.Holds (s.slots _)
      rwa [hnone]
  · obtain ⟨sub, hsub, hread⟩ := hs.reads lease hlease
    refine ⟨sub, ?_, hread⟩
    rw [List.getElem?_append_left (List.getElem?_eq_some_iff.1 hsub).1]
    exact hsub

/-- A receive keeps what is in the slots of the leases held, whether it hands out a lease or not. -/
theorem leased_receive {found : UpLolaStatusCode} {works : Bool} (hs : s.Leased w)
    (hk : s.subscriptions[k]? = some subscription)
    (h : step w s (.receive k found works) = some s') : s'.Leased w := by
  obtain ⟨_, hk', h⟩ := Option.bind_eq_some_iff.1 h
  obtain rfl := Option.some.inj (hk.symm.trans hk')
  rcases hreceive : subscription.native.receiveLease U w found works subscription.undelivered with
    ⟨result, undelivered, native⟩
  rw [hreceive] at h
  split_ifs at h
  cases h
  have hholds := hs.holds k subscription hk
  -- a slot in use has kept what it held
  have hkept {pool : RxSamplePool} (hpool : ∀ (i : ℕ) (slot : Slot (Held (Option (ℕ × SamplePtr)))),
      subscription.native.subscriber.rxPool.slots[i]? = some slot → slot.inUse = true →
        pool.slots[i]? = some slot) {lease : HeldLease U} (hlease : lease ∈ s.leases)
      (hlk : lease.subscription = k) : pool.slots[lease.native.slot.sample]? =
        subscription.native.subscriber.rxPool.slots[lease.native.slot.sample]? := by
    have hmem : lease.native.slot.sample ∈ s.slots k :=
      List.mem_map_of_mem (f := fun lease : HeldLease U => lease.native.slot.sample)
        (List.mem_filter.2 ⟨hlease, by simpa using hlk⟩)
    obtain ⟨slot, hslot, hin⟩ := hholds.inUse _ hmem
    rw [hpool _ slot hslot hin, hslot]
  rcases receiveLease_cases hreceive with ⟨e, rfl, -, hsame⟩ | ⟨lease, rfl, -, hlends⟩
  · refine leased_set hs hk rfl ?_ (fun j _ => ?_) fun lease hlease => ?_
    · simpa [slots, Except.toOption] using hholds.sameInUse hsame
    · simp [slots, Except.toOption]
    · have hlease : lease ∈ s.leases := by simpa [Except.toOption] using hlease
      exact .inl ⟨hlease, hkept hsame.kept hlease⟩
  · have hslots (j : ℕ) : slots { s with leases := [HeldLease.mk k lease] } j =
        if k = j then [lease.slot.sample] else [] := by
      rw [slots, List.filter_singleton]
      by_cases hkj : k = j
      · simp [hkj]
      · simp [hkj]
    refine leased_set hs hk rfl ?_ (fun j hj => ?_) fun l hl => ?_
    · refine (hholds.lends hlends).perm ?_
      change List.Perm _ (slots { s with leases := s.leases ++ [HeldLease.mk k lease] } k)
      rw [slots_append, hslots, if_pos rfl]
      exact (List.perm_append_singleton _ _).symm
    · change List.Perm _ (slots { s with leases := s.leases ++ [HeldLease.mk k lease] } j)
      rw [slots_append, hslots, if_neg (Ne.symm hj), List.append_nil]
    · rcases List.mem_append.1 hl with hl | hl
      · exact .inl ⟨hl, hkept (fun i slot hslot hin => (hlends.kept hslot hin).2) hl⟩
      · obtain rfl : l = HeldLease.mk k lease := by simpa [Except.toOption] using hl
        exact .inr ⟨rfl, receiveLease_ok hreceive⟩

theorem leased_dropLease (hs : s.Leased w) (h : step w s (.dropLease i) = some s') :
    s'.Leased w := by
  obtain ⟨lease, hi, h⟩ := Option.bind_eq_some_iff.1 h
  obtain ⟨subscription, hk, h⟩ := Option.bind_eq_some_iff.1 h
  cases h
  have hperm := slots_eraseIdx hi
  have hself := hperm lease.subscription
  rw [if_pos rfl] at hself
  have hholds := (hs.holds _ subscription hk).perm hself.symm
  have hslot := hholds.lent.pointing List.mem_cons_self
  have hdrop : lease.native.slot.drop subscription.native.subscriber.rxPool =
      RxSamplePool.release lease.native.slot.sample subscription.native.subscriber.rxPool :=
    rxDestroy_eq_release hslot
  refine leased_set hs hk rfl ?_ (fun j hj => ?_) fun l hl => ?_
  · simp only [NativeSubscriber.dropSample]
    rw [hdrop]
    exact hholds.release
  · have hother := hperm j
    rw [if_neg (Ne.symm hj)] at hother
    exact hother.symm
  · refine .inl ⟨List.mem_of_mem_eraseIdx hl, fun hlk => ?_⟩
    simp only [NativeSubscriber.dropSample]
    rw [hdrop]
    refine changedAt_release.others _ ?_
    -- another lease of this subscription is of another slot
    rintro heq
    have hmem : l.native.slot.sample ∈
        slots { s with leases := s.leases.eraseIdx i } lease.subscription :=
      List.mem_map_of_mem (f := fun lease : HeldLease U => lease.native.slot.sample)
        (List.mem_filter.2 ⟨hl, by simpa using hlk⟩)
    rw [heq] at hmem
    exact (List.nodup_cons.1 hholds.nodup).1 hmem

theorem leased_step {a : EventAction U} (hs : s.Leased w) (h : step w s a = some s') :
    s'.Leased w := by
  cases a with
  | tx action =>
    obtain ⟨tx, -, h⟩ := Option.bind_eq_some_iff.1 h
    cases h
    exact ⟨hs.holds, hs.reads⟩
  | subscribe config found =>
    obtain ⟨native, hnative, h⟩ := Option.bind_eq_some_iff.1 h
    cases h
    exact leased_subscribe hs (Fallible.toOption_eq_some.1 hnative)
  | deliver k j address =>
    obtain ⟨subscription, hk, h⟩ := Option.bind_eq_some_iff.1 h
    obtain ⟨loan, -, h⟩ := Option.bind_eq_some_iff.1 h
    split_ifs at h
    cases h
    exact leased_of_native hs hk rfl rfl rfl
  | receive k found works =>
    obtain ⟨subscription, hk, -⟩ := Option.bind_eq_some_iff.1 h
    exact leased_receive hs hk h
  | dropLease i => exact leased_dropLease hs h
  | unsubscribe k =>
    obtain ⟨subscription, hk, h⟩ := Option.bind_eq_some_iff.1 h
    cases h
    exact leased_of_native hs hk rfl rfl rfl

theorem leased_init : ({} : Event U).Leased w := ⟨by simp, List.forall_mem_nil _⟩

section Histories

theorem leased_exec {actions : List (EventAction U)}
    (h : Run.exec (step w) ({} : Event U) actions = some s) : s.Leased w :=
  Run.exec_keeps (fun _ _ _ hs hstep => leased_step hs hstep) leased_init h

/-- The number of slots in use in the pool of the subscription at `k`. -/
def inUse (s : Event U) (k : ℕ) : ℕ :=
  (s.subscriptions[k]?).elim 0 (·.native.subscriber.rxPool.used)

/-- In every state of a history of sends, receives, drops and unsubscriptions, every subscription
has as many slots in use as leases are held of it, whatever receives have failed; no two of these
leases are of one slot. -/
theorem rx_slot_accounting {actions : List (EventAction U)}
    (h : Run.exec (step w) ({} : Event U) actions = some s) (k : ℕ) :
    s.inUse k = s.leases.countP (fun lease => lease.subscription = k) ∧ (s.slots k).Nodup := by
  have hs := leased_exec h
  have hlen : (s.slots k).length = s.leases.countP fun lease => lease.subscription = k := by
    rw [slots, List.length_map, List.countP_eq_length_filter]
  cases hk : s.subscriptions[k]? with
  | some subscription =>
    have hholds := hs.holds k subscription hk
    exact ⟨by rw [inUse, hk, ← hlen]; exact hholds.used, hholds.nodup⟩
  | none =>
    have hnone : s.leases.filter (fun lease => lease.subscription = k) = [] := by
      simp only [List.filter_eq_nil_iff, decide_eq_true_eq]
      rintro lease hlease rfl
      obtain ⟨sub, hsub, -⟩ := hs.reads lease hlease
      rw [hk] at hsub
      cases hsub
    rw [inUse, hk, List.countP_eq_length_filter, slots, hnone]
    exact ⟨rfl, List.nodup_nil⟩

/-- A loan that is sent, delivered and received; with its one slot in use, the subscription gives
out no other sample. -/
def plainReceived : List (EventAction plainUpRust) :=
  TxLoans.plainLoan.map .tx ++
    [.tx (.send 0 0 true),
      .tx (.loan 0 ⟨plainMetadata topicB, 2, 1⟩ ⟨some ⟨16, none⟩, fun _ => 0⟩),
      .tx (.send 0 0 true), .subscribe (plainConfig 1 0 .DropOldestAndReport) .Ok,
      .deliver 0 0 32, .deliver 0 1 96, .receive 0 .Ok true, .receive 0 .Ok true]

theorem exec_plainReceived : ∃ s, Run.exec (step .w64) {} plainReceived = some s ∧
    s.leases.length = 1 := by
  have hrun : (Run.exec (step .w64) {} plainReceived).any (fun s => s.leases.length = 1) =
      true := by
    decide +kernel
  obtain ⟨s, hs, hlen⟩ := (Option.any_eq_true _ _).1 hrun
  exact ⟨s, hs, of_decide_eq_true hlen⟩

theorem rx_slot_accounting_plain : ∃ s, Run.exec (step .w64) {} plainReceived = some s ∧
    s.inUse 0 = s.leases.countP (fun lease => lease.subscription = 0) ∧ (s.slots 0).Nodup := by
  obtain ⟨s, hs, -⟩ := exec_plainReceived
  exact ⟨s, hs, rx_slot_accounting hs 0⟩

/-- In every state of a history, a lease that is held reads from its slot what it was received with,
whatever else has been received, dropped, sent or unsubscribed since. -/
theorem leases_read_as_received {actions : List (EventAction U)}
    (h : Run.exec (step w) ({} : Event U) actions = some s) :
    ∀ lease ∈ s.leases, ∃ subscription, s.subscriptions[lease.subscription]? = some subscription ∧
      lease.native.ReadsFrom w subscription.native.subscriber.rxPool :=
  (leased_exec h).reads

theorem leases_read_as_received_plain : ∃ s, Run.exec (step .w64) {} plainReceived = some s ∧
    s.leases.length = 1 ∧ ∀ lease ∈ s.leases, ∃ subscription,
      s.subscriptions[lease.subscription]? = some subscription ∧
        lease.native.ReadsFrom .w64 subscription.native.subscriber.rxPool := by
  obtain ⟨s, hs, hlen⟩ := exec_plainReceived
  exact ⟨s, hs, hlen, leases_read_as_received hs⟩

end Histories

end Event

end LolaTransport
