import LolaTransport.Proofs.PlainFrames
import LolaTransport.Proofs.PullCalls
import LolaTransport.Proofs.Rejects

/-!
# No sample is lost or doubled

Calls that run to completion abandon nothing, so the places of a sample are those a caller can
account for.  In the stub backend a sample that is taken at the cost of an error is one that does
not decode, which is never a `RESOURCE_EXHAUSTED`: the calls that returned that one are the
rejections.
-/

namespace LolaTransport

variable {Φ S F σ : Type} {V : FrameView Φ (ℕ × S) F}

/-- A step of calls that run to completion. -/
def PullAction.completes : PullAction Φ S → Bool
  | .cancel _ => false
  | _ => true

/-- The call has returned `RESOURCE_EXHAUSTED`. -/
def Phase.exhausted : Phase F → Bool
  | .returned (.error e) => e.code? = some .RESOURCE_EXHAUSTED
  | _ => false

/-- What taking the next sample of this backend fails with, if it fails. -/
def Taken.error? : Taken S F → Option Fault
  | .nothing e => some e
  | .lost _ e => some e
  | .frame _ => none

namespace PullCalls

variable {config : LolaTransportConfig} {B : PullBackend V σ} {s s' : PullCalls Φ S F σ}
  {a : PullAction Φ S}

theorem abandoned_step (h : StepCase config B s a s') (ha : a.completes = true)
    (hs : inCalls Phase.abandoned s.calls = []) : inCalls Phase.abandoned s'.calls = [] := by
  have hset {i : ℕ} {c : PullCall Φ F} (hphase : c.phase.abandoned = []) :
      inCalls Phase.abandoned (s.calls.set i c) = [] := by
    rw [inCalls, List.flatMap_eq_nil_iff] at hs ⊢
    intro d hd
    rcases List.mem_or_eq_of_mem_set hd with hd | rfl
    · exact hs d hd
    · exact hphase
  cases h with
  | send x => exact hs
  | start client filters =>
    rw [inCalls, List.flatMap_append, ← inCalls, hs]
    rfl
  | cancelled => cases ha
  | abandoned => cases ha
  | _ => exact hset rfl

/-- A rejected sample is one call's `RESOURCE_EXHAUSTED`. -/
theorem exhausted_step (h : StepCase config B s a s')
    (hB : ∀ b e, (B.receiveNext b).1.error? = some e → e.code? ≠ some .RESOURCE_EXHAUSTED)
    (hs : s.calls.countP (·.phase.exhausted) = s.rejected.length) :
    s'.calls.countP (·.phase.exhausted) = s'.rejected.length := by
  have hset {i : ℕ} {c c' : PullCall Φ F} (hc : s.calls[i]? = some c)
      (hphase : c.phase.exhausted = false) :
      (s.calls.set i c').countP (·.phase.exhausted) =
        s.rejected.length + if c'.phase.exhausted then 1 else 0 := by
    obtain ⟨hi, rfl⟩ := List.getElem?_eq_some_iff.1 hc
    rw [List.countP_set hi, hs, hphase]
    rfl
  have herror {b : σ} {e : Fault} (he : (B.receiveNext b).1.error? = some e) :
      (Phase.returned (.error e) : Phase F).exhausted = false := by
    simpa [Phase.exhausted] using hB b e he
  cases h with
  | send x => exact hs
  | start client filters =>
    rw [List.countP_append, hs]
    rfl
  | found hc hp hpop => exact hset hc (by rw [hp]; rfl)
  | notFound hc hp hpop => exact hset hc (by rw [hp]; rfl)
  | nothing hc hp hnext =>
    simp only [setPhase]
    rw [hset hc (by rw [hp]; rfl), herror (by rw [hnext]; rfl)]
    rfl
  | lost hc hp hnext =>
    simp only [setPhase]
    rw [hset hc (by rw [hp]; rfl), herror (by rw [hnext]; rfl)]
    rfl
  | matched hc hp hnext hf => exact hset hc (by rw [hp]; rfl)
  | mismatched hc hp hnext hf => exact hset hc (by rw [hp]; rfl)
  | kept hc hp hqueued hok => exact hset hc (by rw [hp]; rfl)
  | refused hc hp hqueued herr =>
    subst hqueued
    obtain ⟨-, -, -, hcode, hletGo, -, -, -⟩ := queuePullSample_error herr
    simp only [setPhase]
    rw [hset hc (by rw [hp]; rfl), hletGo, List.length_append, List.length_singleton]
    simp [Phase.exhausted, hcode]
  | cancelled hc hp =>
    rcases hp with hp | hp
    · exact hset hc (by rw [hp]; rfl)
    · exact hset hc (by rw [hp]; rfl)
  | abandoned hc hp => exact hset hc (by rw [hp]; rfl)
  | released hc hp => exact hset hc (by rw [hp]; rfl)

end PullCalls

section Stub

variable {C : FrameCodec Φ S F}

theorem stub_error (hC : C.RejectsAsInvalid) {pending : List S} {e : Fault}
    (he : ((stubBackend C).receiveNext pending).1.error? = some e) :
    e.code? ≠ some .RESOURCE_EXHAUSTED := by
  cases pending with
  | nil =>
    cases he
    decide
  | cons x pending =>
    simp only [stubBackend, stubReceiveNext] at he
    cases hd : C.decode x with
    | ok f => simp [hd, Taken.error?] at he
    | error e' =>
      simp only [hd, Taken.error?, Option.some.injEq] at he
      rw [← he, hC x e' hd]
      decide

/-- The stub loses a sample only when it does not decode. -/
theorem stub_lost {pending pending' : List S} {x : S} {e : Fault}
    (h : (stubBackend C).receiveNext pending = (.lost x e, pending')) : C.decode x = .error e := by
  cases pending with
  | nil => cases h
  | cons y pending =>
    simp only [stubBackend, stubReceiveNext] at h
    cases hd : C.decode y with
    | ok f => simp [hd] at h
    | error e' =>
      simp only [hd, Prod.mk.injEq, Taken.lost.injEq] at h
      obtain ⟨⟨rfl, rfl⟩, -⟩ := h
      exact hd

/-- The stub takes a sample's own frame. -/
theorem stub_frame {pending pending' : List S} {f : F}
    (h : (stubBackend C).receiveNext pending = (.frame f, pending')) :
    C.decode (C.sample f) = .ok f := by
  cases pending with
  | nil => cases h
  | cons y pending =>
    simp only [stubBackend, stubReceiveNext] at h
    cases hd : C.decode y with
    | error e' => simp [hd] at h
    | ok f' =>
      simp only [hd, Prod.mk.injEq, Taken.frame.injEq] at h
      obtain ⟨rfl, -⟩ := h
      rw [C.sample_decode hd, hd]

/-- The stub finds nothing only when nothing is pending. -/
theorem stub_nothing {pending pending' : List S} {e : Fault}
    (h : (stubBackend C).receiveNext pending = (.nothing e, pending')) : pending = [] := by
  cases pending with
  | nil => rfl
  | cons y pending =>
    simp only [stubBackend, stubReceiveNext] at h
    cases hd : C.decode y <;> simp [hd] at h

theorem receiveNext_numbered (n : ℕ) {x : S} {f : F} (h : C.decode x = .ok f)
    (rest : List (ℕ × S)) :
    (stubBackend C.numbered).receiveNext ((n, x) :: rest) = (.frame (n, f), rest) := by
  simp only [stubBackend, stubReceiveNext, FrameCodec.numbered, h]

theorem numbered_decode_error {x : ℕ × S} {e : Fault} :
    C.numbered.decode x = .error e ↔ C.decode x.2 = .error e := by
  simp only [FrameCodec.numbered]
  cases C.decode x.2 <;> simp

theorem numbered_decode_ok {x : ℕ × S} {g : ℕ × F} :
    C.numbered.decode x = .ok g ↔ x.1 = g.1 ∧ C.decode x.2 = .ok g.2 := by
  obtain ⟨n, f⟩ := g
  simp only [FrameCodec.numbered]
  cases C.decode x.2 <;> simp

theorem numbered_rejectsAsInvalid (hC : C.RejectsAsInvalid) : C.numbered.RejectsAsInvalid :=
  fun x e he => hC x.2 e (numbered_decode_error.1 he)

namespace PullCalls

theorem lost_step {config : LolaTransportConfig}
    {s s' : StubCalls Φ S F} {a : PullAction Φ S}
    (h : StepCase config (stubBackend C.numbered) s a s')
    (hs : ∀ x ∈ s.lost, ∃ e, C.decode x.2 = .error e) :
    ∀ x ∈ s'.lost, ∃ e, C.decode x.2 = .error e := by
  cases h with
  | lost hc hp hnext =>
    intro y hy
    rcases List.mem_append.1 hy with hy | hy
    · exact hs y hy
    · rw [List.mem_singleton.1 hy]
      exact ⟨_, numbered_decode_error.1 (stub_lost hnext)⟩
  | _ => exact hs

/-- The places of a sample but those of cancelled calls. -/
def accounted {V : FrameView Φ (ℕ × S) F} (B : PullBackend V σ) (s : PullCalls Φ S F σ) :
    List (ℕ × S) :=
  B.samples s.pull.backend ++ s.lost ++ (inCalls Phase.held s.calls).map V.sample ++
    s.pull.pullMismatchQueue.queue.map V.sample ++ (inCalls Phase.got s.calls).map V.sample ++
    s.dropped.map V.sample ++ s.rejected.map V.sample

/-- However sends and receives that run to completion interleave, every sample sent is pending, lost
for want of decoding, held by a call, in the mismatch queue, returned, dropped or rejected, once and
in one of these only; the queue is within its capacity, and the counters count. -/
theorem pull_conservation {U : UpRust} {w : PointerWidth} (hU : U.RejectsAsInvalid)
    (config : LolaTransportConfig)
    {s : StubCalls (Filters U) (List UInt8) (LolaRxLease U)}
    (hs : Run.Reach (step config (stubBackend (lolaFrames U w).numbered))
      (fun _ a => a.completes = true) (init []) s) :
    (s.accounted (stubBackend (lolaFrames U w).numbered)).Perm s.sent ∧
      ((s.accounted (stubBackend (lolaFrames U w).numbered)).map Prod.fst).Nodup ∧
      (∀ x ∈ s.lost, ∃ e, LolaRxLease.fromSample U w x.2 = .error e) ∧
      s.pull.pullMismatchQueue.queue.length ≤ config.pullMismatchQueueCapacity ∧
      (s.pull.pullMismatchQueue.droppedMismatches < u64Max →
        s.pull.pullMismatchQueue.droppedMismatches = s.dropped.length) ∧
      (s.pull.pullMismatchQueue.rejectedMismatches < u64Max →
        s.pull.pullMismatchQueue.rejectedMismatches =
          s.calls.countP (·.phase.exhausted)) := by
  have hinv : s.Inv config (stubBackend (lolaFrames U w).numbered) := inv_reach rfl hs
  have habandoned : inCalls Phase.abandoned s.calls = [] :=
    hs.invariant (I := fun s => inCalls Phase.abandoned s.calls = []) rfl
      fun _ _ _ _ h ha hstep => abandoned_step (step_cases hstep) ha h
  have hexhausted : s.calls.countP (·.phase.exhausted) = s.rejected.length :=
    hs.invariant (I := fun s => s.calls.countP (·.phase.exhausted) = s.rejected.length) rfl
      fun _ _ _ _ h _ hstep => exhausted_step (step_cases hstep)
        (fun _ _ => stub_error (numbered_rejectsAsInvalid (lolaFrames_rejectsAsInvalid hU))) h
  have hlost : ∀ x ∈ s.lost, ∃ e, (lolaFrames U w).decode x.2 = .error e :=
    hs.invariant (I := fun s => ∀ x ∈ s.lost, ∃ e, (lolaFrames U w).decode x.2 = .error e)
      (by simp [init]) fun _ _ _ _ h _ hstep => lost_step (step_cases hstep) h
  have haccounted : s.accounted (stubBackend (lolaFrames U w).numbered) =
      s.places (stubBackend (lolaFrames U w).numbered) := by
    rw [places, habandoned, List.map_nil, List.append_nil]
    rfl
  rw [haccounted]
  have hdropped := hinv.dropped
  have hrejected := hinv.rejected
  exact ⟨hinv.places, hinv.nodup, hlost, hinv.bounded.length_le, fun h => by omega,
    fun h => by omega⟩

/-- A call that holds the one sample sent, as a mismatch it has yet to keep. -/
theorem pull_conservation_plain :
    ∃ s : StubCalls (Filters plainUpRust) (List UInt8) (LolaRxLease plainUpRust),
      inCalls Phase.held s.calls = [(0, leaseB)] ∧
        (s.accounted (stubBackend plainFrames.numbered)).Perm s.sent ∧
        ((s.accounted (stubBackend plainFrames.numbered)).map Prod.fst).Nodup ∧
        (∀ x ∈ s.lost, ∃ e, LolaRxLease.fromSample plainUpRust .w64 x.2 = .error e) ∧
        s.pull.pullMismatchQueue.queue.length ≤ 1 ∧
        (s.pull.pullMismatchQueue.droppedMismatches < u64Max →
          s.pull.pullMismatchQueue.droppedMismatches = s.dropped.length) ∧
        (s.pull.pullMismatchQueue.rejectedMismatches < u64Max →
          s.pull.pullMismatchQueue.rejectedMismatches =
            s.calls.countP (·.phase.exhausted)) := by
  have hnext := receiveNext_numbered (C := plainFrames) 0 fromSample_sampleB []
  have h₀ : Run.Reach (step (plainConfig 4 1 .DropOldestAndReport)
      (stubBackend plainFrames.numbered)) (fun _ a => a.completes = true) (init []) (init []) :=
    .refl
  have h₁ := h₀.step rfl (StepCase.send sampleB).step_eq
  have h₂ := h₁.step rfl (StepCase.start 0 filtersA).step_eq
  have h₃ := h₂.step (a := .advance 0) rfl (StepCase.notFound rfl rfl rfl).step_eq
  have hs := h₃.step (a := .advance 0) rfl
    (StepCase.mismatched rfl rfl hnext frameMatches_plain.2.1).step_eq
  exact ⟨_, rfl, pull_conservation plainUpRust_rejectsAsInvalid _ hs⟩

end PullCalls

end Stub

end LolaTransport
