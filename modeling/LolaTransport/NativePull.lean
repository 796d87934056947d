import LolaTransport.Pull
import LolaTransport.Sys

/-!
# Pull receives of the native backend

Samples come from one subscription, made by the first receive, and a lease keeps the slot of its
sample until it is dropped: so does one in the mismatch queue.
-/

namespace LolaTransport

open Bridge

/-- What S-CORE answers, by the number of the receive that asks: what discovery comes to, and
whether `GetNewSamples` works. -/
structure Score where
  found : ℕ → UpLolaStatusCode
  works : ℕ → Bool

/-- A receive lease over a native sample. -/
structure NativeLease (U : UpRust) where
  sample : ℕ × SamplePtr
  slot : NativeRxSample
  lease : LolaRxLease U

/-- The samples of the subscription that have not been handed over, and the subscription. -/
structure NativePull where
  undelivered : List (ℕ × SamplePtr) := []
  subscriber : Option NativeSubscriber := none
  /-- The number of receives so far. -/
  clock : ℕ := 0

variable (E : Score) (U : UpRust) (w : PointerWidth) (config : LolaTransportConfig)

def nativeFrames : FrameView (Filters U) (ℕ × SamplePtr) (NativeLease U) where
  sample := NativeLease.sample
  matchesFilter filters frame := frameMatches filters frame.lease
  sourceText frame := U.toUri frame.lease.metadata.attributes.source false

/-- The bytes of the sample, which must still be valid. -/
def NativeRxSample.asSlice (sample : NativeRxSample) (pool : RxSamplePool) :
    Except Fault (ℕ × SamplePtr) :=
  match sample.dataParts pool "LoLa RX sample" with
  | .error _ => .error .panicked
  | .ok _ =>
    match (pool.slots[sample.sample]?).bind (·.content.sample) with
    | none => .error .panicked
    | some received => .ok received

def NativeSubscriber.dropSample (sample : NativeRxSample) (native : NativeSubscriber) :
    NativeSubscriber :=
  { native with subscriber.rxPool := sample.drop native.subscriber.rxPool }

/-- `LolaRxLease::from_native`: a sample that is not a frame is dropped. -/
def NativeLease.fromNative (sample : NativeRxSample) (native : NativeSubscriber) :
    Except Fault (NativeLease U) × NativeSubscriber :=
  match sample.asSlice native.subscriber.rxPool with
  | .error e => (.error e, native.dropSample sample)
  | .ok received =>
    match LolaRxLease.fromSample U w received.2.bytes with
    | .error e => (.error e, native.dropSample sample)
    | .ok lease => (.ok { sample := received, slot := sample, lease }, native)

/-- The subscriber, created by the first receive. -/
def NativePull.created (pull : NativePull) : Except Fault NativeSubscriber :=
  match pull.subscriber with
  | some native => .ok native
  | none => NativeSubscriber.new (E.found pull.clock) config

/-- What is received from the subscription, read as a frame. -/
def NativeSubscriber.receiveLease (found : UpLolaStatusCode) (works : Bool)
    (undelivered : List (ℕ × SamplePtr)) (native : NativeSubscriber) :
    Except Fault (NativeLease U) × List (ℕ × SamplePtr) × NativeSubscriber :=
  match native.receive found works undelivered with
  | (.error e, undelivered, native) => (.error e, undelivered, native)
  | (.ok sample, undelivered, native) =>
    let (lease, native) := NativeLease.fromNative U w sample native
    (lease, undelivered, native)

/-- `receive_next_zero_copy`. -/
def receiveNextZeroCopy (pull : NativePull) :
    Taken (ℕ × SamplePtr) (NativeLease U) × NativePull :=
  let clock := pull.clock + 1
  match pull.created E config with
  | .error e => (.nothing e, { pull with clock })
  | .ok native =>
    match native.receiveLease U w (E.found pull.clock) (E.works pull.clock) pull.undelivered with
    | (.ok lease, undelivered, native) =>
      (.frame lease, { undelivered, subscriber := some native, clock })
    | (.error e, undelivered, native) =>
      -- whether `GetNewSamples` has handed a sample over
      match pull.undelivered.take (pull.undelivered.length - undelivered.length) with
      | [] => (.nothing e, { undelivered, subscriber := some native, clock })
      | sample :: _ => (.lost sample e, { undelivered, subscriber := some native, clock })

end LolaTransport
