import LolaTransport.ListenerTasks

/-!
# The owned transport of the benchmarks

`BenchmarkOwnedLolaTransport` registers a zero-copy listener of its own for every owned listener,
and keeps a list to find it again.  A call of it consists of what it does under the lock of that
list and of a call of the transport it wraps, which others may call as well.  A call is awaited to
its end: no future is dropped on the way.  What `up_rust` checks before it passes a call on to the
transport is left open (`verify`).
-/

namespace LolaTransport

/-- `zeroCopyListener` is a pointer to an `OwnedBenchmarkListener`, which is the owned listener's
and nobody else's. -/
structure OwnedListenerRegistration (Φ O : Type) where
  filters : Φ
  ownedListener : O
  zeroCopyListener : ℕ

inductive OwnedPhase
  /-- It has not run yet, or waits for the list. -/
  | entered
  /-- It waits for its call of the transport, the one at this place, to return. -/
  | inner (c : ℕ) (zeroCopyListener : ℕ)
  | returned (result : Except Fault Unit)

structure OwnedCall (Φ O : Type) where
  api : ListenerApi
  filters : Φ
  listener : O
  phase : OwnedPhase := .entered

structure BenchmarkOwnedLolaTransport (Φ S F L O σ : Type) where
  inner : ListenerState Φ S F (L ⊕ ℕ) σ := {}
  listeners : List (OwnedListenerRegistration Φ O) := []
  calls : List (OwnedCall Φ O) := []
  /-- The number of `OwnedBenchmarkListener`s there have been. -/
  made : ℕ := 0

inductive OwnedAction (Φ S L O σ : Type)
  | call (api : ListenerApi) (filters : Φ) (listener : O)
  | advance (i : ℕ)
  /-- Somebody else calls the transport. -/
  | innerCall (api : ListenerApi) (filters : Φ) (listener : L)
  /-- Anything in the transport but the start of a call. -/
  | inner (a : ListenerAction Φ S (L ⊕ ℕ) σ)

variable {Φ S F L O σ : Type}

namespace OwnedListenerRegistration

/-- It is a registration of this owned listener. -/
def isOf [DecidableEq Φ] [DecidableEq O] (filters : Φ) (listener : O)
    (registration : OwnedListenerRegistration Φ O) : Bool :=
  registration.filters = filters && registration.ownedListener = listener

end OwnedListenerRegistration

namespace BenchmarkOwnedLolaTransport

def setCall (s : BenchmarkOwnedLolaTransport Φ S F L O σ) (i : ℕ) (call : OwnedCall Φ O)
    (phase : OwnedPhase) : BenchmarkOwnedLolaTransport Φ S F L O σ :=
  { s with calls := s.calls.set i { call with phase } }

/-- The call at `i` calls the transport, unless `up_rust` does not let it. -/
def callInner (verify : Φ → Except Fault Unit) (s : BenchmarkOwnedLolaTransport Φ S F L O σ) (i : ℕ)
    (call : OwnedCall Φ O) (zeroCopyListener : ℕ) : BenchmarkOwnedLolaTransport Φ S F L O σ :=
  match verify call.filters with
  | .error e => s.setCall i call (.returned (.error e))
  | .ok () =>
    let innerCall : ListenerCall Φ (L ⊕ ℕ) :=
      { api := call.api, filters := call.filters, listener := .inr zeroCopyListener }
    { s with inner.calls := s.inner.calls ++ [innerCall] }.setCall i call
      (.inner s.inner.calls.length zeroCopyListener)

variable [DecidableEq Φ] [DecidableEq O]

/-- What the call at `i` does to its next await. -/
def advance (verify : Φ → Except Fault Unit) (s : BenchmarkOwnedLolaTransport Φ S F L O σ) (i : ℕ)
    (call : OwnedCall Φ O) : Option (BenchmarkOwnedLolaTransport Φ S F L O σ) :=
  match call.api, call.phase with
  | .register, .entered => some ({ s with made := s.made + 1 }.callInner verify i call s.made)
  | .unregister, .entered =>
    match s.listeners.findIdx? (·.isOf call.filters call.listener) with
    | none => some (s.setCall i call (.returned (.error (failWithCode .NOT_FOUND
        "no such benchmark-owned LoLa listener registered for filters"))))
    | some index => s.listeners[index]?.map fun registration =>
        { s with listeners := s.listeners.eraseIdx index }.callInner verify i call
          registration.zeroCopyListener
  | api, .inner c zeroCopyListener =>
    s.inner.calls[c]?.bind fun innerCall =>
      match innerCall.phase with
      | .returned (.error e) => some (s.setCall i call (.returned (.error e)))
      | .returned (.ok ()) =>
        match api with
        | .register =>
          let listeners := s.listeners ++
            [{ filters := call.filters, ownedListener := call.listener, zeroCopyListener }]
          some ({ s with listeners }.setCall i call (.returned (.ok ())))
        | .unregister => some (s.setCall i call (.returned (.ok ())))
      | _ => none
  | _, .returned _ => none

variable [DecidableEq L] (verify : Φ → Except Fault Unit) (backend : Backend)
  (receive : σ → Except Fault S × σ) (C : FrameCodec Φ S F)

def step (s : BenchmarkOwnedLolaTransport Φ S F L O σ) :
    OwnedAction Φ S L O σ → Option (BenchmarkOwnedLolaTransport Φ S F L O σ)
  | .call api filters listener => some { s with
      calls := s.calls ++ [{ api, filters, listener }] }
  | .advance i => s.calls[i]?.bind (s.advance verify i)
  | .innerCall api filters listener =>
    (s.inner.step backend receive C (.call api filters (.inl listener))).map fun inner =>
      { s with inner }
  | .inner (.call _ _ _) => none
  | .inner a => (s.inner.step backend receive C a).map fun inner => { s with inner }

end BenchmarkOwnedLolaTransport

end LolaTransport
