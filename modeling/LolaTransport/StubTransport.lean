import LolaTransport.ListenerTasks
import LolaTransport.PullCalls

/-!
# The stub transport

In the stub backend sent samples wait in `pending`, and both receive calls and listener tasks take
them from there, each under its lock.  So the transport is the receive calls and the listeners side
by side, and `pending` is the same for both.
-/

namespace LolaTransport

structure StubTransport (Φ S F L σ : Type) where
  pulling : PullCalls.StubCalls Φ S F
  listening : ListenerState Φ (ℕ × S) (ℕ × F) L σ
  pending : listening.pending = pulling.pull.backend

/-- Samples arrive as they are sent. -/
inductive StubAction (Φ S L σ : Type)
  | pull (a : PullAction Φ S)
  | listen (a : ListenerAction Φ (ℕ × S) L σ)

namespace StubTransport

variable {Φ S F L σ : Type}

def init : StubTransport Φ S F L σ where
  pulling := PullCalls.init []
  listening := {}
  pending := rfl

variable [DecidableEq Φ] [DecidableEq L] (config : LolaTransportConfig)
  (receive : σ → Except Fault (ℕ × S) × σ) (C : FrameCodec Φ S F)

def step (s : StubTransport Φ S F L σ) : StubAction Φ S L σ → Option (StubTransport Φ S F L σ)
  | .pull a => do
    let pulling ← s.pulling.step config (stubBackend C.numbered) a
    return ⟨pulling, { s.listening with pending := pulling.pull.backend }, rfl⟩
  | .listen (.arrive _) => none
  | .listen a => do
    let listening ← s.listening.step .stub receive C.numbered a
    return ⟨{ s.pulling with pull.backend := listening.pending }, listening, rfl⟩

end StubTransport

end LolaTransport
