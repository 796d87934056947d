import LolaTransport.Proofs.FrameFormat
import LolaTransport.Proofs.Subscriptions

/-!
# From loans sent to leases received

What a loan holds when it is sent is the frame its lease is read as, so a subscription is a lossy
channel of frames: what is received from it are frames that were sent, in the order they were sent,
each at most once (`received_sublist_sent`).  S-CORE is relied on to hand over samples in the order
they were sent, each at most once to a subscription and with the bytes it was sent with, and to keep
the memory of the loans that are out apart.
-/

namespace LolaTransport

open Bridge

variable {U : UpRust} {w : PointerWidth}

/-- The metadata and the payload that a loan has been given. -/
def TxLoan.frame (w : PointerWidth) (loan : LolaTxLoan U) :
    UFrameMetadata U.toUpTypes × Option (List UInt8) :=
  (loan.metadata, (LolaTxLoan.payload w loan).toOption)

variable (U) in
/-- The frame in a sample, if the sample is read as one. -/
def sampleFrame (w : PointerWidth) (sample : List UInt8) :
    Option (UFrameMetadata U.toUpTypes × Option (List UInt8)) :=
  match readFrameHeader U w sample with
  | .error _ => none
  | .ok (metadata, payloadOffset, payloadLen) =>
    some (LolaRxLease.frame w { metadata, sample, payloadOffset, payloadLen })

theorem TxLoan.Framed.payload {loan : LolaTxLoan U} (h : TxLoan.Framed w id loan) :
    ∃ payload, LolaTxLoan.payload w loan = .ok payload := by
  obtain ⟨metadata, sample, payloadOffset, payloadLen⟩ := loan
  obtain ⟨front, tail, view, hfront, hview, hsample⟩ := h
  dsimp only at hfront hview hsample
  rw [List.map_id, List.map_id] at hsample
  subst hsample
  exact ⟨view, payload_middle hfront.length.symm hview.symm hfront.fits⟩

/-- The sample of a loan is read as the frame that the loan has been given. -/
theorem TxLoan.Framed.sampleFrame (hU : U.Lawful) {loan : LolaTxLoan U}
    (h : TxLoan.Framed w id loan) : sampleFrame U w loan.sample = some (loan.frame w) := by
  obtain ⟨metadata, sample, payloadOffset, payloadLen⟩ := loan
  obtain ⟨front, tail, view, hfront, hview, hsample⟩ := h
  dsimp only at hfront hview hsample
  rw [List.map_id, List.map_id] at hsample
  subst hsample
  subst hview
  obtain ⟨hread, hpayload⟩ := hfront.readsAs hU tail
  simp only [LolaTransport.sampleFrame, hread, LolaRxLease.frame, hpayload, TxLoan.frame,
    payload_middle hfront.length.symm rfl hfront.fits]
  rfl

theorem sampleFrame_of_fromSample {sample : List UInt8} {lease : LolaRxLease U}
    (h : LolaRxLease.fromSample U w sample = .ok lease) :
    sampleFrame U w sample = some (lease.frame w) := by
  obtain ⟨⟨metadata, payloadOffset, payloadLen⟩, hread, h⟩ := Fallible.bind_eq_ok.1 h
  dsimp only at h
  simp only [sampleFrame, hread]
  split at h
  · cases h
  · split at h
    · cases h
      rfl
    · cases h

namespace Event

/-- The leases received from the subscription at `k`, in order. -/
def receivedFrom (s : Event U) (k : ℕ) : List (NativeLease U) :=
  (s.received.filter fun lease => lease.subscription = k).map HeldLease.native

/-- What was received from a subscription and what S-CORE still has for it are samples of those
S-CORE has come through, in order. -/
structure Piped (w : PointerWidth) (s : Event U) : Prop where
  tx : s.tx.Inv
  backed : s.tx.Backed w
  framed : ∀ loan ∈ s.sent, TxLoan.Framed w id loan
  known : ∀ lease ∈ s.received, lease.subscription < s.subscriptions.length
  decoded : ∀ lease ∈ s.received,
    LolaRxLease.fromSample U w lease.native.sample.2.bytes = .ok lease.native.lease
  order : ∀ (k : ℕ) (subscription : Subscription), s.subscriptions[k]? = some subscription →
    ((s.receivedFrom k).map (fun lease => lease.sample.2.bytes) ++
        subscription.undelivered.map fun x => x.2.bytes).Sublist
      ((s.sent.take subscription.reached).map TxLoan.sample)
  reached : ∀ (k : ℕ) (subscription : Subscription), s.subscriptions[k]? = some subscription →
    subscription.reached ≤ s.sent.length

variable {s s' : Event U} {k : ℕ} {subscription : Subscription}

/-- What an action sends is a loan that was held. -/
theorem sentBy_framed {tx : TxLoans U} (htx : tx.Backed w) {action : TxAction U}
    {loan : LolaTxLoan U} (h : tx.sentBy action = some loan) : TxLoan.Framed w id loan := by
  cases action with
  | send t i sent =>
    obtain ⟨live, hi, h⟩ := Option.bind_eq_some_iff.1 h
    obtain ⟨owner, -, h⟩ := Option.bind_eq_some_iff.1 h
    obtain ⟨transport, -, h⟩ := Option.bind_eq_some_iff.1 h
    obtain ⟨_, -, hframed, -⟩ := htx live (List.mem_of_getElem? hi)
    cases hbuffer : live.buffer with
    | uninitTx uninit =>
      rw [hbuffer] at h
      cases h
    | tx buffer =>
      rw [hbuffer] at h hframed
      dsimp only at h
      split at h
      · cases h
        exact hframed
      · cases h
  | _ => cases h

/-- What more is sent leaves the samples that S-CORE has come through as they were. -/
theorem piped_tx {tx : TxLoans U} {sent : List (LolaTxLoan U)} (hs : s.Piped w) (htx : tx.Inv)
    (hbacked : tx.Backed w) (hsent : ∀ loan ∈ sent, TxLoan.Framed w id loan) :
    Piped w { s with tx, sent := s.sent ++ sent } where
  tx := htx
  backed := hbacked
  framed loan hloan := (List.mem_append.1 hloan).elim (hs.framed loan) (hsent loan)
  known := hs.known
  decoded := hs.decoded
  order k sub hk := by
    dsimp only
    rw [List.take_append_of_le_length (hs.reached k sub hk)]
    exact hs.order k sub hk
  reached k sub hk := by
    dsimp only
    rw [List.length_append]
    exact (hs.reached k sub hk).trans (Nat.le_add_right _ _)

theorem piped_subscribe (hs : s.Piped w) (native : NativeSubscriber) :
    Piped w { s with subscriptions := s.subscriptions ++ [{ native }] } where
  tx := hs.tx
  backed := hs.backed
  framed := hs.framed
  known lease hlease := by
    rw [List.length_append]
    exact (hs.known lease hlease).trans_le (Nat.le_add_right _ _)
  decoded := hs.decoded
  order k sub hk := by
    rcases List.getElem?_concat_eq_some hk with hk | ⟨rfl, rfl⟩
    · exact hs.order k sub hk
    · have hnone : s.receivedFrom s.subscriptions.length = [] := by
        simp only [receivedFrom, List.map_eq_nil_iff, List.filter_eq_nil_iff, decide_eq_true_eq]
        exact fun lease hlease => (hs.known lease hlease).ne
      change ((s.receivedFrom _).map _ ++ _).Sublist _
      rw [hnone]
      exact List.nil_sublist _
  reached k sub hk := by
    rcases List.getElem?_concat_eq_some hk with hk | ⟨rfl, rfl⟩
    · exact hs.reached k sub hk
    · exact Nat.zero_le _

/-- One subscription has come further. -/
theorem piped_set {subscription' : Subscription} {received : List (HeldLease U)}
    (hs : s.Piped w) (hk : s.subscriptions[k]? = some subscription) (htx : s'.tx = s.tx)
    (hsent : s'.sent = s.sent) (hset : s'.subscriptions = s.subscriptions.set k subscription')
    (hmore : s'.received = s.received ++ received)
    (hreceived : ∀ lease ∈ received, lease.subscription = k ∧
      LolaRxLease.fromSample U w lease.native.sample.2.bytes = .ok lease.native.lease)
    (horder : (((s.receivedFrom k).map fun lease => lease.sample.2.bytes) ++
        (received.map fun lease => lease.native.sample.2.bytes) ++
        subscription'.undelivered.map fun x => x.2.bytes).Sublist
      ((s.sent.take subscription'.reached).map TxLoan.sample))
    (hreached : subscription'.reached ≤ s.sent.length) :
    s'.Piped w where
  tx := by rw [htx]; exact hs.tx
  backed := by rw [htx]; exact hs.backed
  framed := by rw [hsent]; exact hs.framed
  known lease hlease := by
    rw [hset, List.length_set]
    rw [hmore] at hlease
    rcases List.mem_append.1 hlease with hlease | hlease
    · exact hs.known lease hlease
    · rw [(hreceived lease hlease).1]
      exact (List.getElem?_eq_some_iff.1 hk).1
  decoded lease hlease := by
    rw [hmore] at hlease
    exact (List.mem_append.1 hlease).elim (hs.decoded lease) fun h => (hreceived lease h).2
  order j sub hj := by
    rw [hset, List.getElem?_set_of_some hk] at hj
    have happend : s'.receivedFrom j = s.receivedFrom j ++
        (received.filter fun lease => lease.subscription = j).map HeldLease.native := by
      rw [receivedFrom, hmore, List.filter_append, List.map_append]
      rfl
    rw [happend, hsent]
    split_ifs at hj with hjk
    · cases hj
      have hall : received.filter (fun lease => lease.subscription = j) = received := by
        rw [List.filter_eq_self]
        intro lease hlease
        simpa [hjk] using (hreceived lease hlease).1
      rw [hall, hjk, List.map_append, List.map_map]
      exact horder
    · have hnone : received.filter (fun lease => lease.subscription = j) = [] := by
        simp only [List.filter_eq_nil_iff, decide_eq_true_eq]
        rintro lease hlease rfl
        exact hjk (hreceived lease hlease).1
      rw [hnone, List.map_nil, List.append_nil]
      exact hs.order j sub hj
  reached j sub hj := by
    rw [hset, List.getElem?_set_of_some hk] at hj
    rw [hsent]
    split_ifs at hj with hjk
    · cases hj
      exact hreached
    · exact hs.reached j sub hj

/-- The same when nothing is received. -/
theorem piped_quiet {subscription' : Subscription} (hs : s.Piped w)
    (hk : s.subscriptions[k]? = some subscription) (htx : s'.tx = s.tx) (hsent : s'.sent = s.sent)
    (hset : s'.subscriptions = s.subscriptions.set k subscription')
    (hsame : s'.received = s.received)
    (horder : (((s.receivedFrom k).map fun lease => lease.sample.2.bytes) ++
        subscription'.undelivered.map fun x => x.2.bytes).Sublist
      ((s.sent.take subscription'.reached).map TxLoan.sample))
    (hreached : subscription'.reached ≤ s.sent.length) :
    s'.Piped w := by
  have hmore : s'.received = s.received ++ [] := by rw [hsame, List.append_nil]
  refine piped_set hs hk htx hsent hset hmore (List.forall_mem_nil _) ?_ hreached
  rw [List.map_nil, List.append_nil]
  exact horder

theorem piped_receive {found : UpLolaStatusCode} {works : Bool} (hs : s.Piped w)
    (h : step w s (.receive k found works) = some s') : s'.Piped w := by
  obtain ⟨subscription, hk, h⟩ := Option.bind_eq_some_iff.1 h
  rcases hreceive : subscription.native.receiveLease U w found works subscription.undelivered with
    ⟨result, undelivered, native⟩
  rw [hreceive] at h
  split_ifs at h
  cases h
  have horder := hs.order k subscription hk
  have hreached := hs.reached k subscription hk
  rcases receiveLease_cases hreceive with ⟨e, rfl, hrest, -⟩ | ⟨lease, rfl, hrest, -⟩
  · have hrest : (undelivered.map fun x => x.2.bytes).Sublist
        (subscription.undelivered.map fun x => x.2.bytes) := by
      rcases hrest with rfl | ⟨x, hx⟩
      · exact .refl _
      · rw [hx]
        exact List.sublist_cons_self _ _
    exact piped_quiet hs hk rfl rfl rfl (List.append_nil _)
      (((List.Sublist.refl _).append hrest).trans horder) hreached
  · have hmore : s.received ++ (Except.ok lease : Except Fault (NativeLease U)).toOption.toList.map
        (HeldLease.mk k) = s.received ++ [HeldLease.mk k lease] := rfl
    refine piped_set hs hk rfl rfl rfl hmore (fun l hl => ?_) ?_ hreached
    · rw [List.mem_singleton.1 hl]
      exact ⟨rfl, (receiveLease_ok hreceive).2⟩
    · rw [hrest, List.map_cons, List.append_cons] at horder
      exact horder

theorem piped_step {a : EventAction U} (hs : s.Piped w) (h : step w s a = some s') :
    s'.Piped w := by
  cases a with
  | tx action =>
    obtain ⟨tx, htx, h⟩ := Option.bind_eq_some_iff.1 h
    cases h
    refine piped_tx hs (TxLoans.step_counts hs.tx htx).1
      (TxLoans.backed_step hs.tx hs.backed htx) fun loan hloan => ?_
    exact sentBy_framed hs.backed (Option.mem_toList.1 hloan)
  | subscribe config found =>
    obtain ⟨native, -, h⟩ := Option.bind_eq_some_iff.1 h
    cases h
    exact piped_subscribe hs native
  | deliver k j address =>
    obtain ⟨subscription, hk, h⟩ := Option.bind_eq_some_iff.1 h
    obtain ⟨loan, hj, h⟩ := Option.bind_eq_some_iff.1 h
    split_ifs at h with hguard
    cases h
    obtain ⟨-, hle⟩ : subscription.alive = true ∧ subscription.reached ≤ j := by simpa using hguard
    have hmore : ((s.sent.take subscription.reached).map TxLoan.sample ++ [loan.sample]).Sublist
        ((s.sent.take (j + 1)).map TxLoan.sample) := by
      rw [List.take_add_one, hj, Option.toList_some, List.map_append, List.map_singleton]
      exact ((List.take_sublist_take_left hle).map _).append (.refl _)
    refine piped_quiet hs hk rfl rfl rfl rfl ?_ (List.getElem?_eq_some_iff.1 hj).1
    rw [List.map_append, ← List.append_assoc]
    exact ((hs.order k subscription hk).append (.refl _)).trans hmore
  | receive k found works => exact piped_receive hs h
  | dropLease i =>
    obtain ⟨lease, -, h⟩ := Option.bind_eq_some_iff.1 h
    obtain ⟨subscription, hk, h⟩ := Option.bind_eq_some_iff.1 h
    cases h
    exact piped_quiet hs hk rfl rfl rfl rfl (hs.order _ subscription hk)
      (hs.reached _ subscription hk)
  | unsubscribe k =>
    obtain ⟨subscription, hk, h⟩ := Option.bind_eq_some_iff.1 h
    cases h
    refine piped_quiet hs hk rfl rfl rfl rfl ?_ (hs.reached k subscription hk)
    exact ((List.Sublist.refl _).append (List.nil_sublist _)).trans (hs.order k subscription hk)

section Histories

theorem piped_init : ({} : Event U).Piped w where
  tx := TxLoans.inv_init
  backed := TxLoans.backed_init
  framed := List.forall_mem_nil _
  known := List.forall_mem_nil _
  decoded := List.forall_mem_nil _
  order := by simp
  reached := by simp

/-- In every state of a history, the leases received from a subscription have the metadata and the
payloads of loans that were sent, in the order they were sent and each at most once, whatever else
was lent, sent or received, and however samples were left out or mapped on the way. -/
theorem received_sublist_sent (hU : U.Lawful) {actions : List (EventAction U)}
    (h : Run.exec (step w) ({} : Event U) actions = some s) (k : ℕ) :
    (∀ loan ∈ s.sent, ∃ payload, LolaTxLoan.payload w loan = .ok payload) ∧
      ((s.receivedFrom k).map fun lease => lease.lease.frame w).Sublist
        (s.sent.map fun loan => loan.frame w) := by
  have hs : s.Piped w := Run.exec_keeps (fun _ _ _ hs hstep => piped_step hs hstep) piped_init h
  refine ⟨fun loan hloan => (hs.framed loan hloan).payload, ?_⟩
  have hsamples : ((s.receivedFrom k).map fun lease => lease.sample.2.bytes).Sublist
      (s.sent.map TxLoan.sample) := by
    cases hk : s.subscriptions[k]? with
    | some subscription =>
      exact (List.sublist_append_left _ _).trans ((hs.order k subscription hk).trans
        ((List.take_sublist _ _).map _))
    | none =>
      have hnone : s.receivedFrom k = [] := by
        simp only [receivedFrom, List.map_eq_nil_iff, List.filter_eq_nil_iff, decide_eq_true_eq]
        exact fun lease hlease => ((hs.known lease hlease).trans_le
          (List.getElem?_eq_none_iff.1 hk)).ne
      rw [hnone]
      exact List.nil_sublist _
  have hframes := hsamples.map (sampleFrame U w)
  rw [List.map_map, List.map_map] at hframes
  have hsent : s.sent.map (sampleFrame U w ∘ TxLoan.sample) =
      (s.sent.map fun loan => loan.frame w).map some := by
    rw [List.map_map]
    exact List.map_congr_left fun loan hloan => (hs.framed loan hloan).sampleFrame hU
  have hread : (s.receivedFrom k).map (sampleFrame U w ∘ fun lease => lease.sample.2.bytes) =
      ((s.receivedFrom k).map fun lease => lease.lease.frame w).map some := by
    rw [List.map_map]
    refine List.map_congr_left fun lease hlease => ?_
    obtain ⟨held, hheld, rfl⟩ := List.mem_map.1 hlease
    exact sampleFrame_of_fromSample (hs.decoded held (List.mem_filter.1 hheld).1)
  rw [hsent, hread] at hframes
  obtain ⟨frames, hsublist, hframes⟩ := List.sublist_map_iff.1 hframes
  rwa [← List.map_injective_iff.2 (Option.some_injective _) hframes] at hsublist

theorem received_sublist_sent_plain : ∃ s, Run.exec (step .w64) {} plainReceived = some s ∧
    ((s.receivedFrom 0).map fun lease => lease.lease.frame .w64).Sublist
      (s.sent.map fun loan => loan.frame .w64) := by
  obtain ⟨s, hs, -⟩ := exec_plainReceived
  exact ⟨s, hs, (received_sublist_sent plainUpRust_lawful hs 0).2⟩

end Histories

end Event

end LolaTransport
