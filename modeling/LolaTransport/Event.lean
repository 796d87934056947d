import LolaTransport.NativePull
import LolaTransport.TxLoans

/-!
# Both ends of an event

Transports that send over S-CORE, subscriptions that receive from it, and the loans and leases the
application holds of them.  Of S-CORE it is assumed that it hands a subscription samples that were
sent, with the bytes they were sent with, each at most once and in the order they were sent in; it
may leave out any of them, and maps each wherever it likes.  Every subscriber has a subscription of
its own, whether a pull or a listener receives from it.
-/

namespace LolaTransport

open Bridge

/-- A subscriber, what S-CORE has for it, and how far S-CORE has come through the samples sent. -/
structure Subscription where
  native : NativeSubscriber
  undelivered : List (ℕ × SamplePtr) := []
  reached : ℕ := 0
  /-- The subscriber has not been dropped. -/
  alive : Bool := true

/-- A lease, and the subscription it was received from. -/
structure HeldLease (U : UpRust) where
  subscription : ℕ
  native : NativeLease U

variable (U : UpRust) (w : PointerWidth)

inductive EventAction
  | tx (action : TxAction U)
  | subscribe (config : LolaTransportConfig) (found : UpLolaStatusCode)
  /-- S-CORE has sample `j` for the subscription at `k`, and maps it at `address`. -/
  | deliver (k j address : ℕ)
  | receive (k : ℕ) (found : UpLolaStatusCode) (works : Bool)
  | dropLease (i : ℕ)
  /-- The subscriber at `k` is dropped; leases received from it may still be held. -/
  | unsubscribe (k : ℕ)

/-- `sent` and `received` record the loans that S-CORE has sent and the leases that were received;
no code reads these. -/
structure Event where
  tx : TxLoans U := {}
  sent : List (LolaTxLoan U) := []
  subscriptions : List Subscription := []
  leases : List (HeldLease U) := []
  received : List (HeldLease U) := []

variable {U}

/-- The loan that an action sends, unless it is refused or S-CORE cannot send it. -/
def TxLoans.sentBy (s : TxLoans U) : TxAction U → Option (LolaTxLoan U)
  | .send t i sent => do
    let loan ← s.loans[i]?
    let owner ← s.transports[loan.native.pool]?
    let transport ← s.transports[t]?
    let .tx buffer := loan.buffer | none
    match (transport.sendValidatedZeroCopy sent loan.native buffer owner.bridge.txPool).1 with
    | .ok () => some buffer
    | .error _ => none
  | _ => none

namespace Event

def step (s : Event U) : EventAction U → Option (Event U)
  | .tx action => do
    let tx ← s.tx.step w action
    return { s with tx, sent := s.sent ++ (s.tx.sentBy action).toList }
  | .subscribe config found => do
    let native ← (NativeSubscriber.new found config).toOption
    return { s with subscriptions := s.subscriptions ++ [{ native }] }
  | .deliver k j address => do
    let subscription ← s.subscriptions[k]?
    let loan ← s.sent[j]?
    if subscription.alive && subscription.reached ≤ j then
      return { s with subscriptions := s.subscriptions.set k { subscription with
        undelivered := subscription.undelivered ++ [(j, ⟨address, loan.sample⟩)]
        reached := j + 1 } }
    else none
  | .receive k found works => do
    let subscription ← s.subscriptions[k]?
    if !subscription.alive then none
    else
      let (result, undelivered, native) :=
        subscription.native.receiveLease U w found works subscription.undelivered
      let received := result.toOption.toList.map (HeldLease.mk k)
      return { s with
        subscriptions := s.subscriptions.set k { subscription with undelivered, native }
        leases := s.leases ++ received
        received := s.received ++ received }
  | .dropLease i => do
    let lease ← s.leases[i]?
    let subscription ← s.subscriptions[lease.subscription]?
    return { s with
      subscriptions := s.subscriptions.set lease.subscription { subscription with
        native := subscription.native.dropSample lease.native.slot }
      leases := s.leases.eraseIdx i }
  | .unsubscribe k => do
    let subscription ← s.subscriptions[k]?
    return { s with subscriptions := s.subscriptions.set k { subscription with
      undelivered := []
      alive := false } }

end Event

end LolaTransport
