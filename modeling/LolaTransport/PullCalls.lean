import LolaTransport.Lib.Run
import LolaTransport.Pull

/-!
# Concurrent pull receives

A receive call holds a lock only between two awaits, so what runs without interruption is one
critical section: the search of the mismatch queue, the taking of the next sample, or the keeping of
a mismatched frame.  `Phase` is the lock a call waits for next; between the second and the third the
frame is owned by the call alone.  A call can be cancelled wherever it waits, which drops what it
owns.

Samples are numbered in the order they were sent.  `sent` and the fields after it record what became
of them; no code reads these, nor the fields of a call after `phase`.
-/

namespace LolaTransport

variable {Φ S F σ : Type}

/-- Where a call is: at one of its three locks, or over. -/
inductive Phase (F : Type)
  | popQueued
  | takeNext
  | queueing (frame : F)
  | returned (result : Except Fault F)
  /-- The caller has dropped the lease the call returned. -/
  | released (frame : F)
  | cancelled (dropped : Option F)

structure PullCall (Φ F : Type) where
  filters : Φ
  phase : Phase F := .popQueued
  client : ℕ
  /-- The number of samples sent before the call started. -/
  since : ℕ
  /-- The frames the call has taken so far. -/
  taken : List F := []

structure PullCalls (Φ S F σ : Type) where
  pull : PullState F σ
  calls : List (PullCall Φ F) := []
  sent : List (ℕ × S) := []
  /-- Samples that were taken at the cost of an error. -/
  lost : List (ℕ × S) := []
  dropped : List F := []
  rejected : List F := []

inductive PullAction (Φ S : Type)
  | send (sample : S)
  | start (client : ℕ) (filters : Φ)
  /-- The call at this place gets the lock it waits for and runs to its next await, or its end. -/
  | advance (i : ℕ)
  | cancel (i : ℕ)
  | release (i : ℕ)

namespace PullCalls

def setPhase (s : PullCalls Φ S F σ) (i : ℕ) (call : PullCall Φ F) (phase : Phase F) :
    PullCalls Φ S F σ :=
  { s with calls := s.calls.set i { call with phase } }

variable {V : FrameView Φ (ℕ × S) F} (config : LolaTransportConfig) (B : PullBackend V σ)

/-- One critical section of the call at `i`. -/
def advance (s : PullCalls Φ S F σ) (i : ℕ) (call : PullCall Φ F) :
    Option (PullCalls Φ S F σ) :=
  match call.phase with
  | .popQueued =>
    match popQueuedPullSample V call.filters s.pull.pullMismatchQueue with
    | (some frame, queue) =>
      some ({ s with pull.pullMismatchQueue := queue }.setPhase i call (.returned (.ok frame)))
    | (none, _) => some (s.setPhase i call .takeNext)
  | .takeNext =>
    match B.receiveNext s.pull.backend with
    | (.nothing e, b) =>
      some ({ s with pull.backend := b }.setPhase i call (.returned (.error e)))
    | (.lost sample e, b) =>
      some ({ s with pull.backend := b, lost := s.lost ++ [sample] }.setPhase i call
        (.returned (.error e)))
    | (.frame frame, b) =>
      let call := { call with taken := call.taken ++ [frame] }
      if V.matchesFilter call.filters frame then
        some ({ s with pull.backend := b }.setPhase i call (.returned (.ok frame)))
      else some ({ s with pull.backend := b }.setPhase i call (.queueing frame))
  | .queueing frame =>
    let queued := queuePullSample V config frame s.pull.pullMismatchQueue
    let pull := ⟨B.releaseAll queued.letGo s.pull.backend, queued.state⟩
    match queued.result with
    | .ok () =>
      some ({ s with pull, dropped := s.dropped ++ queued.letGo }.setPhase i call .takeNext)
    | .error e =>
      some ({ s with pull, rejected := s.rejected ++ queued.letGo }.setPhase i call
        (.returned (.error e)))
  | .returned _ | .released _ | .cancelled _ => none

/-- The call at `i` is dropped where it waits, and with it the frame it owns. -/
def cancel (s : PullCalls Φ S F σ) (i : ℕ) (call : PullCall Φ F) :
    Option (PullCalls Φ S F σ) :=
  match call.phase with
  | .popQueued | .takeNext => some (s.setPhase i call (.cancelled none))
  | .queueing frame =>
    some ({ s with pull.backend := B.release frame s.pull.backend }.setPhase i call
      (.cancelled (some frame)))
  | .returned _ | .released _ | .cancelled _ => none

/-- The caller drops the lease the call at `i` returned. -/
def release (s : PullCalls Φ S F σ) (i : ℕ) (call : PullCall Φ F) :
    Option (PullCalls Φ S F σ) :=
  match call.phase with
  | .returned (.ok frame) =>
    some ({ s with pull.backend := B.release frame s.pull.backend }.setPhase i call
      (.released frame))
  | _ => none

def step (s : PullCalls Φ S F σ) : PullAction Φ S → Option (PullCalls Φ S F σ)
  | .send sample => some { s with
      pull := sendValidatedZeroCopy B (s.sent.length, sample) s.pull
      sent := s.sent ++ [(s.sent.length, sample)] }
  | .start client filters => some { s with
      calls := s.calls ++ [{ filters, client, since := s.sent.length }] }
  | .advance i => s.calls[i]?.bind (advance config B s i)
  | .cancel i => s.calls[i]?.bind (cancel B s i)
  | .release i => s.calls[i]?.bind (release B s i)

/-- The start: nothing sent, no calls, and a backend that has handed out nothing. -/
def init (b : σ) : PullCalls Φ S F σ := { pull := { backend := b } }

/-- The stub backend's calls, over numbered samples. -/
abbrev StubCalls (Φ S F : Type) := PullCalls Φ S (ℕ × F) (List (ℕ × S))

end PullCalls

end LolaTransport
