import LolaTransport.ListenerTasks
import LolaTransport.NativePull

/-!
# Listeners at an event

Samples are sent, S-CORE has them for the subscribers of registrations, and listener tasks of the
native backend receive from these.  Of S-CORE it is assumed that it hands a subscriber samples that
were sent, each at most once and in the order they were sent in; it may leave out any of them.
-/

namespace LolaTransport

/-- A subscriber, as far as samples go through it.  A receive takes the next sample, or fails; it
may lose samples then.  Whatever else becomes of a subscriber (its leases are dropped, discovery
gets on) is a `change`. -/
structure Feed (S γ σ : Type) where
  receive : σ → Except Fault S × σ
  undelivered : σ → List S
  deliver : S → σ → σ
  change : γ → σ → σ
  receive_ok : ∀ {x sample x'}, receive x = (.ok sample, x') →
    undelivered x = sample :: undelivered x'
  receive_error : ∀ {x e x'}, receive x = (.error e, x') → undelivered x' <:+ undelivered x
  undelivered_deliver : ∀ sample x, undelivered (deliver sample x) = undelivered x ++ [sample]
  undelivered_change : ∀ c x, undelivered (change c x) = undelivered x

/-- A native subscriber, what S-CORE has for it and what it answers next: what discovery comes to,
whether `GetNewSamples` works, and where the next sample is mapped. -/
structure NativeFeed where
  native : NativeSubscriber
  undelivered : List (ℕ × Bridge.SamplePtr) := []
  found : UpLolaStatusCode
  works : Bool
  address : ℕ

inductive NativeChange
  | answers (found : UpLolaStatusCode) (works : Bool) (address : ℕ)
  /-- A lease is dropped, or a sample that is no frame. -/
  | dropSample (sample : NativeRxSample)

namespace NativeFeed

/-- `NativeSubscriber::receive`, and the number and the bytes of the sample. -/
def receive (x : NativeFeed) : Except Fault (ℕ × List UInt8) × NativeFeed :=
  let (received, undelivered, native) := x.native.receive x.found x.works x.undelivered
  let received := received.bind fun sample => sample.asSlice native.subscriber.rxPool
  (received.map fun sample => (sample.1, sample.2.bytes), { x with undelivered, native })

def deliver (sample : ℕ × List UInt8) (x : NativeFeed) : NativeFeed :=
  { x with undelivered := x.undelivered ++ [(sample.1, ⟨x.address, sample.2⟩)] }

def change (x : NativeFeed) : NativeChange → NativeFeed
  | .answers found works address => { x with found, works, address }
  | .dropSample sample => { x with native := x.native.dropSample sample }

end NativeFeed

/-- A subscriber, and how far S-CORE has come through the samples sent. -/
structure Subscribed (σ : Type) where
  subscriber : σ
  reached : ℕ := 0

/-- `sent` numbers the samples. -/
structure EventListeners (Φ S F L σ : Type) where
  sent : List (ℕ × S) := []
  listening : ListenerState Φ (ℕ × S) (ℕ × F) L (Subscribed σ) := {}

inductive EventListenersAction (Φ S L γ σ : Type)
  | send (sample : S)
  /-- S-CORE has sample `j` for the subscriber of the registration at `i`. -/
  | deliver (i j : ℕ)
  | change (i : ℕ) (c : γ)
  | listen (a : ListenerAction Φ (ℕ × S) L (Subscribed σ))

variable {Φ S F L γ σ : Type}

/-- `NativeSubscriber::receive` of a subscriber that S-CORE goes on having samples for. -/
def Subscribed.receive (feed : Feed (ℕ × S) γ σ) (x : Subscribed σ) :
    Except Fault (ℕ × S) × Subscribed σ :=
  ((feed.receive x.subscriber).1, { x with subscriber := (feed.receive x.subscriber).2 })

/-- S-CORE has nothing yet for the subscriber that a register call creates. -/
def ListenerAction.subscribesAfresh (feed : Feed (ℕ × S) γ σ) :
    ListenerAction Φ (ℕ × S) L (Subscribed σ) → Bool
  | .advance _ (.ok x) _ => x.reached = 0 && (feed.undelivered x.subscriber).isEmpty
  | _ => true

namespace EventListeners

def setSubscriber (s : EventListeners Φ S F L σ) (i : ℕ)
    (registration : ListenerRegistration Φ L (Subscribed σ)) (subscriber : Subscribed σ) :
    EventListeners Φ S F L σ :=
  { s with listening.listeners := s.listening.listeners.set i { registration with subscriber } }

variable [DecidableEq Φ] [DecidableEq L] (feed : Feed (ℕ × S) γ σ) (C : FrameCodec Φ S F)

def step (s : EventListeners Φ S F L σ) :
    EventListenersAction Φ S L γ σ → Option (EventListeners Φ S F L σ)
  | .send sample => some { s with sent := s.sent ++ [(s.sent.length, sample)] }
  | .deliver i j => do
    let registration ← s.listening.listeners[i]?
    let sample ← s.sent[j]?
    if registration.subscriber.reached ≤ j then
      return s.setSubscriber i registration {
        subscriber := feed.deliver sample registration.subscriber.subscriber
        reached := j + 1 }
    else none
  | .change i c => do
    let registration ← s.listening.listeners[i]?
    return s.setSubscriber i registration { registration.subscriber with
      subscriber := feed.change c registration.subscriber.subscriber }
  | .listen a =>
    if a.subscribesAfresh feed then
      (s.listening.step .native (Subscribed.receive feed) C.numbered a).map fun listening =>
        { s with listening }
    else none

end EventListeners

end LolaTransport
