import LolaTransport.Proofs.Bridge
import LolaTransport.Proofs.PlainFrames

/-!
# A receive that finds no free slot

`up_lola_subscriber_receive` takes the next sample of the subscription before it looks for a slot of
the pool to keep it in.  So a receive that comes back with `ResourceExhausted` for want of a slot
has taken a sample that nobody gets, and whoever drops a lease and tries again gets the one after.
-/

namespace LolaTransport

namespace Bridge

variable {found : UpLolaStatusCode} {works : Bool} {undelivered : List (ℕ × SamplePtr)}
  {subscriber : UpLolaSubscriber}

/-- A sample is there to be handed over, and no slot to keep it in. -/
def NoSlotForNext (found : UpLolaStatusCode) (works : Bool) (undelivered : List (ℕ × SamplePtr))
    (subscriber : UpLolaSubscriber) : Prop :=
  (subscriber.subscribed = true ∨ found = .Ok) ∧ works = true ∧
    (∃ received rest, undelivered = received :: rest ∧ received.2.get ≠ 0) ∧
    subscriber.rxPool.used = subscriber.rxPool.slots.length

/-- Then the sample is taken and not kept. -/
theorem receive_of_noSlotForNext (h : NoSlotForNext found works undelivered subscriber) :
    upLolaSubscriberReceive found works undelivered subscriber =
      (.error .ResourceExhausted, undelivered.tail, { subscriber with subscribed := true }) := by
  obtain ⟨havailable, rfl, ⟨received, rest, rfl, hget⟩, hfull⟩ := h
  have hacquire : RxSamplePool.acquire subscriber.rxPool = none :=
    SlotPool.acquire_eq_none.2 hfull
  simp [upLolaSubscriberReceive, ensureProxyLocked_of_available havailable, getNewSamples, hget,
    hacquire]

/-- Otherwise it is discovery that is exhausted, and nothing changes. -/
theorem receive_exhausted (hslot : ¬ NoSlotForNext found works undelivered subscriber)
    {undelivered' : List (ℕ × SamplePtr)} {subscriber' : UpLolaSubscriber}
    (h : upLolaSubscriberReceive found works undelivered subscriber =
      (.error .ResourceExhausted, undelivered', subscriber')) :
    undelivered' = undelivered ∧ subscriber' = subscriber := by
  cases receive_cases h with
  | unavailable => exact ⟨rfl, rfl⟩
  | full havailable hget hacquire =>
    exact absurd ⟨havailable, rfl, ⟨_, _, rfl, hget⟩, SlotPool.acquire_eq_none.1 hacquire⟩ hslot

/-- The subscriber when the lease of the sample at this place of its pool has been dropped. -/
def UpLolaSubscriber.dropped (sample : ℕ) (subscriber : UpLolaSubscriber) : UpLolaSubscriber :=
  { subscriber with rxPool := upLolaRxSampleDestroy subscriber.rxPool sample }

/-- A receive that comes back exhausted leaves the samples and the pool as they were; and once a
lease has been dropped, another receive is as if that one had not been. -/
def ConsumesNothing (found : UpLolaStatusCode) (works : Bool)
    (undelivered : List (ℕ × SamplePtr)) (subscriber : UpLolaSubscriber) : Prop :=
  ∀ undelivered' subscriber', upLolaSubscriberReceive found works undelivered subscriber =
      (.error .ResourceExhausted, undelivered', subscriber') →
    undelivered' = undelivered ∧ subscriber'.rxPool = subscriber.rxPool ∧
      ∀ found' works' sample,
        upLolaSubscriberReceive found' works' undelivered' (subscriber'.dropped sample) =
          upLolaSubscriberReceive found' works' undelivered (subscriber.dropped sample)

/-- A receive that comes back exhausted has consumed nothing exactly when it has not taken a sample
for which there was no slot. -/
theorem exhausted_consumes_nothing : ConsumesNothing found works undelivered subscriber ↔
    ¬ NoSlotForNext found works undelivered subscriber := by
  constructor
  · intro hnothing hslot
    obtain ⟨hrest, -⟩ := hnothing _ _ (receive_of_noSlotForNext hslot)
    obtain ⟨-, -, ⟨received, rest, rfl, -⟩, -⟩ := hslot
    simp at hrest
  · intro hslot undelivered' subscriber' h
    obtain ⟨rfl, rfl⟩ := receive_exhausted hslot h
    exact ⟨rfl, rfl, fun _ _ _ => rfl⟩

/-- One slot, whose lease is held when the second of two samples is received. -/
theorem exhausted_consumes_sample :
    ∃ created held,
      upLolaSubscriberCreate .Ok (plainConfig 1 1 .DropOldestAndReport) = .ok created ∧
      upLolaSubscriberReceive .Ok true [(0, ⟨16, []⟩), (1, ⟨80, []⟩)] created =
        (.ok 0, [(1, ⟨80, []⟩)], held) ∧
      ¬ ConsumesNothing .Ok true [(1, ⟨80, []⟩)] held := by
  refine ⟨_, _, rfl, rfl, fun hnothing => ?_⟩
  obtain ⟨hrest, -⟩ := hnothing [] _ rfl
  simp at hrest

end Bridge

end LolaTransport
