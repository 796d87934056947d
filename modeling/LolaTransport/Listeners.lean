import LolaTransport.Pull

/-!
# Listeners

A listener is registered with its filters and, in the native backend, a subscription of its own.
What a subscriber returns is left open: `receive` is `NativeSubscriber::receive`.

A poll goes over the registrations and hands over what it has collected only if it gets to the end.
-/

namespace LolaTransport

/-- A registration; the listener is a pointer. -/
structure ListenerRegistration (Φ L σ : Type) where
  filters : Φ
  listener : L
  subscriber : σ

variable {Φ S F L σ : Type}

namespace ListenerRegistration

/-- `ListenerRegistration::new`; `created` is what `NativeSubscriber::new` comes to. -/
def new (filters : Φ) (listener : L) (created : Except Fault σ) :
    Except Fault (ListenerRegistration Φ L σ) := do
  let subscriber ← created
  return { filters, listener, subscriber }

def matchesFrame (V : FrameView Φ S F) (registration : ListenerRegistration Φ L σ) (frame : F) :
    Bool :=
  V.matchesFilter registration.filters frame

def hasSameIdentity [DecidableEq Φ] [DecidableEq L] (filters : Φ) (listener : L)
    (registration : ListenerRegistration Φ L σ) : Bool :=
  registration.filters = filters && registration.listener = listener

end ListenerRegistration

section Polls

variable (receive : σ → Except Fault S × σ) (C : FrameCodec Φ S F)

/-- The loop of `poll_listener_frames` over the registrations, on what it has collected so far. -/
def pollRegistrations (deliveries : List (L × F)) :
    List (ListenerRegistration Φ L σ) →
      Except Fault (List (L × F)) × List (ListenerRegistration Φ L σ)
  | [] => (.ok deliveries, [])
  | registration :: registrations =>
    let (received, subscriber) := receive registration.subscriber
    let registration := { registration with subscriber }
    match received with
    | .ok sample =>
      match C.decode sample with
      | .error e => (.error e, registration :: registrations)
      | .ok frame =>
        let deliveries :=
          if registration.matchesFrame C.toFrameView frame then
            deliveries ++ [(registration.listener, frame)]
          else deliveries
        let (polled, registrations) := pollRegistrations deliveries registrations
        (polled, registration :: registrations)
    | .error status =>
      if status.code? = some .NOT_FOUND then
        let (polled, registrations) := pollRegistrations deliveries registrations
        (polled, registration :: registrations)
      else (.error status, registration :: registrations)

/-- `poll_listener_frames` of the native backend. -/
def pollListenerFrames (registrations : List (ListenerRegistration Φ L σ)) :
    Except Fault (List (L × F)) × List (ListenerRegistration Φ L σ) :=
  pollRegistrations receive C [] registrations

/-- `poll_listener_frames` of the stub backend, once it has taken a sample that is a frame. -/
def matchListeners (sample : S) (probe : F)
    (registrations : List (ListenerRegistration Φ L σ)) : Except Fault (List (L × F)) :=
  let listeners := (registrations.filter (·.matchesFrame C.toFrameView probe)).map (·.listener)
  listeners.mapM fun listener => do
    let frame ← C.decode sample
    return (listener, frame)

/-- A turn of `listener_loop`: what it hands to listeners, and the registrations after it. -/
def listenerRound (registrations : List (ListenerRegistration Φ L σ)) :
    List (L × F) × List (ListenerRegistration Φ L σ) :=
  if registrations.isEmpty then ([], registrations)
  else
    match pollListenerFrames receive C registrations with
    | (.ok deliveries, registrations) => (deliveries, registrations)
    | (.error _, registrations) => ([], registrations)

/-- Turns of `listener_loop` while the list of registrations stays the same. -/
def listenerRounds : ℕ → List (ListenerRegistration Φ L σ) →
    List (L × F) × List (ListenerRegistration Φ L σ)
  | 0, registrations => ([], registrations)
  | n + 1, registrations =>
    let (handed, registrations) := listenerRound receive C registrations
    let (later, registrations) := listenerRounds n registrations
    (handed ++ later, registrations)

end Polls

section Registry

variable [DecidableEq Φ] [DecidableEq L] (filters : Φ) (listener : L)

/-- What `register_validated_zero_copy_listener` makes of the list while it holds its lock. -/
def registerListener (created : Except Fault σ)
    (listeners : List (ListenerRegistration Φ L σ)) :
    Except Fault (List (ListenerRegistration Φ L σ)) :=
  if listeners.any (·.hasSameIdentity filters listener) then
    .error (failWithCode .ALREADY_EXISTS "LoLa listener already registered for filters")
  else do
    let registration ← ListenerRegistration.new filters listener created
    return listeners ++ [registration]

/-- What `unregister_validated_zero_copy_listener` makes of the list while it holds its lock, and
whether it should stop the listener task. -/
def unregisterListener (listeners : List (ListenerRegistration Φ L σ)) :
    Except Fault (List (ListenerRegistration Φ L σ) × Bool) :=
  match listeners.findIdx? (·.hasSameIdentity filters listener) with
  | none =>
    .error (failWithCode .NOT_FOUND "no such LoLa listener registered for filters")
  | some index => .ok (listeners.eraseIdx index, (listeners.eraseIdx index).isEmpty)

end Registry

end LolaTransport
