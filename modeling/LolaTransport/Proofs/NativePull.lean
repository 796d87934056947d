import LolaTransport.NativePull
import LolaTransport.Proofs.Bridge
import LolaTransport.Proofs.Pull

/-!
# The native backend as a source of samples

Every lease that is not dropped keeps one slot of the subscription's pool (`Holds`), so the next
sample is received as a lease exactly when fewer leases are held than the pool has slots.
-/

namespace LolaTransport

open Bridge SlotPool

variable {E : Score} {U : UpRust} {w : PointerWidth} {config : LolaTransportConfig}

/-- The slot holds the sample that was received. -/
def Received (pool : RxSamplePool) (i : ℕ) (received : ℕ × SamplePtr) (size : ℕ) : Prop :=
  ∃ slot, pool.slots[i]? = some slot ∧ slot.inUse = true ∧ slot.pool = some pool.id ∧
    slot.content = { sample := some received, sampleData := received.2.get, sampleSize := size }

theorem received_of_acquire {pool pool' : RxSamplePool} {i : ℕ}
    (h : RxSamplePool.acquire pool = some (i, pool')) (x : ℕ × SamplePtr) (size : ℕ) :
    Received (pool'.update i fun _ => {
      sample := some x
      sampleData := x.2.get
      sampleSize := size }) i x size := by
  obtain ⟨slot, hslot, hin, hpool⟩ := (lends_acquire h).lent
  refine ⟨_, getElem?_update hslot, hin, ?_, rfl⟩
  rw [changedAt_update.id]
  exact hpool

/-- A receive hands over at most one sample, and lends a slot for it or leaves the pool as it
was. -/
theorem subscriberReceive_cases {found : UpLolaStatusCode} {works : Bool}
    {undelivered undelivered' : List (ℕ × SamplePtr)} {subscriber subscriber' : UpLolaSubscriber}
    {result : Except UpLolaStatusCode ℕ}
    (h : upLolaSubscriberReceive found works undelivered subscriber =
      (result, undelivered', subscriber')) :
    (∃ status, result = .error status ∧
      (undelivered' = undelivered ∨ ∃ x, undelivered = x :: undelivered') ∧
      SameInUse subscriber.rxPool subscriber'.rxPool) ∨
    ∃ x i, result = .ok i ∧ undelivered = x :: undelivered' ∧
      Lends i subscriber.rxPool subscriber'.rxPool ∧
      Received subscriber'.rxPool i x subscriber'.sampleSize := by
  cases receive_cases h with
  | unavailable | failed | empty => exact .inl ⟨_, rfl, .inl rfl, .refl _⟩
  | null | full => exact .inl ⟨_, rfl, .inr ⟨_, rfl⟩, .refl _⟩
  | unaligned _ hacquire =>
    exact .inl ⟨_, rfl, .inr ⟨_, rfl⟩, ((lends_acquire hacquire).update _).release _⟩
  | @received x _ sample _ _ hacquire =>
    have hlends := (lends_acquire hacquire).update fun _ => {
      sample := some x
      sampleData := x.2.get
      sampleSize := subscriber.sampleSize }
    exact .inr ⟨x, sample, rfl, rfl, hlends, received_of_acquire hacquire x subscriber.sampleSize⟩

/-- A sample that is lent and dropped. -/
theorem sameInUse_drop {sample : NativeRxSample} {pool pool' : RxSamplePool}
    (h : Lends sample.sample pool pool') : SameInUse pool (sample.drop pool') := by
  have hdestroy : sample.drop pool' = RxSamplePool.release sample.sample pool' :=
    rxDestroy_eq_release h.lent
  rw [hdestroy]
  exact h.release _

theorem nativeReceive_cases {found : UpLolaStatusCode} {works : Bool}
    {undelivered undelivered' : List (ℕ × SamplePtr)} {native native' : NativeSubscriber}
    {result : Except Fault NativeRxSample}
    (h : native.receive found works undelivered = (result, undelivered', native')) :
    (∃ e, result = .error e ∧
      (undelivered' = undelivered ∨ ∃ x, undelivered = x :: undelivered') ∧
      SameInUse native.subscriber.rxPool native'.subscriber.rxPool) ∨
    ∃ x sample size, result = .ok sample ∧ undelivered = x :: undelivered' ∧
      Lends sample.sample native.subscriber.rxPool native'.subscriber.rxPool ∧
      Received native'.subscriber.rxPool sample.sample x size := by
  unfold NativeSubscriber.receive at h
  rcases hreceive : upLolaSubscriberReceive found works undelivered native.subscriber with
    ⟨received, rest, subscriber⟩
  rw [hreceive] at h
  dsimp only at h
  rcases subscriberReceive_cases hreceive with
    ⟨status, rfl, hrest, hsame⟩ | ⟨x, i, rfl, rfl, hlends, hreceived⟩
  · obtain ⟨e, he⟩ := mapResult_error (α := ℕ) status "receive LoLa sample" "RX sample"
    rw [he] at h
    cases h
    exact .inl ⟨e, rfl, hrest, hsame⟩
  · simp only [mapResult, NativeRxSample.new] at h
    split at h
    · cases h
      exact .inr ⟨x, _, _, rfl, rfl, hlends, hreceived⟩
    · cases h
      refine .inl ⟨_, rfl, .inr ⟨x, rfl⟩, ?_⟩
      refine sameInUse_drop ?_
      exact hlends

/-- A sample that was received is read as the frame it holds, or dropped. -/
theorem fromNative_cases {sample : NativeRxSample} {native : NativeSubscriber} {x : ℕ × SamplePtr}
    {size : ℕ} (h : Received native.subscriber.rxPool sample.sample x size) :
    (∃ e, NativeLease.fromNative U w sample native = (.error e, native.dropSample sample)) ∨
    ∃ lease, LolaRxLease.fromSample U w x.2.bytes = .ok lease ∧
      NativeLease.fromNative U w sample native = (.ok ⟨x, sample, lease⟩, native) := by
  obtain ⟨slot, hslot, -, -, hcontent⟩ := h
  unfold NativeLease.fromNative NativeRxSample.asSlice
  cases hparts : sample.dataParts native.subscriber.rxPool "LoLa RX sample" with
  | error e => exact .inl ⟨_, rfl⟩
  | ok parts =>
    simp only [hslot, Option.bind_some, hcontent]
    cases hlease : LolaRxLease.fromSample U w x.2.bytes with
    | error e => exact .inl ⟨e, rfl⟩
    | ok lease => exact .inr ⟨lease, rfl, rfl⟩

/-- A receive of a lease hands over at most one sample, which is the lease's. -/
theorem receiveLease_cases {found : UpLolaStatusCode} {works : Bool}
    {undelivered undelivered' : List (ℕ × SamplePtr)} {native native' : NativeSubscriber}
    {result : Except Fault (NativeLease U)}
    (h : native.receiveLease U w found works undelivered = (result, undelivered', native')) :
    (∃ e, result = .error e ∧
      (undelivered' = undelivered ∨ ∃ x, undelivered = x :: undelivered') ∧
      SameInUse native.subscriber.rxPool native'.subscriber.rxPool) ∨
    ∃ lease, result = .ok lease ∧ undelivered = lease.sample :: undelivered' ∧
      Lends lease.slot.sample native.subscriber.rxPool native'.subscriber.rxPool := by
  unfold NativeSubscriber.receiveLease at h
  rcases hreceive : native.receive found works undelivered with ⟨received, rest, native₁⟩
  rw [hreceive] at h
  rcases nativeReceive_cases hreceive with
    ⟨e, rfl, hrest, hsame⟩ | ⟨x, sample, size, rfl, rfl, hlends, hreceived⟩
  · cases h
    exact .inl ⟨e, rfl, hrest, hsame⟩
  · rcases fromNative_cases (U := U) (w := w) hreceived with ⟨e, he⟩ | ⟨lease, -, hlease⟩
    · simp only [he] at h
      cases h
      exact .inl ⟨e, rfl, .inr ⟨x, rfl⟩, sameInUse_drop hlends⟩
    · simp only [hlease] at h
      cases h
      exact .inr ⟨_, rfl, rfl, hlends⟩

/-- What is received next was the first that was undelivered. -/
theorem receiveNextZeroCopy_samples (pull : NativePull) :
    (receiveNextZeroCopy E U w config pull).1.removed (V := nativeFrames U) ++
      (receiveNextZeroCopy E U w config pull).2.undelivered = pull.undelivered := by
  unfold receiveNextZeroCopy
  split
  · rfl
  · rename_i native _
    split
    · rename_i lease undelivered native' hreceive
      rcases receiveLease_cases hreceive with ⟨_, he, -⟩ | ⟨_, hok, hundelivered, -⟩
      · cases he
      · cases hok
        rw [hundelivered]
        rfl
    · rename_i e undelivered native' hreceive
      rcases receiveLease_cases hreceive with
        ⟨_, -, hundelivered | ⟨x, hundelivered⟩, -⟩ | ⟨_, hok, -⟩
      · rw [hundelivered, Nat.sub_self]
        rfl
      · rw [hundelivered, List.length_cons, Nat.add_sub_cancel_left]
        rfl
      · cases hok

/-- The native backend: a lease that is dropped gives its slot back. -/
def nativeBackend (E : Score) (U : UpRust) (w : PointerWidth) (config : LolaTransportConfig) :
    PullBackend (nativeFrames U) NativePull where
  receiveNext := receiveNextZeroCopy E U w config
  release lease pull :=
    { pull with subscriber := pull.subscriber.map (NativeSubscriber.dropSample lease.slot) }
  arrive sample pull := { pull with undelivered := pull.undelivered ++ [sample] }
  samples := NativePull.undelivered
  samples_receiveNext := receiveNextZeroCopy_samples
  samples_release _ _ := rfl
  samples_arrive _ _ := rfl

end LolaTransport
