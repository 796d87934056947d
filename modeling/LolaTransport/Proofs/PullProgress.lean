import LolaTransport.Proofs.PlainFrames
import LolaTransport.Proofs.PullCalls

/-!
# Receives come to an end

A call that gets its lock either takes a sample, which no call takes again, or is a step closer to
its end.  So however the calls interleave, they get their locks no more often than twice for each
sample sent and twice for each call started, and a call that is not over can always go on.
-/

namespace LolaTransport

variable {Φ S F σ : Type} {V : FrameView Φ (ℕ × S) F}

/-- The critical sections a call has before it next takes a sample, and the one that does; a call
that has just taken one has still to keep it. -/
def Phase.work : Phase F → ℕ
  | .popQueued => 2
  | .takeNext => 1
  | .queueing _ => 2
  | .returned _ | .released _ | .cancelled _ => 0

/-- What an action adds to the work there is. -/
def PullAction.adds : PullAction Φ S → ℕ
  | .send _ | .start _ _ => 2
  | .advance _ | .cancel _ | .release _ => 0

/-- The critical sections that an action runs. -/
def PullAction.sections : PullAction Φ S → ℕ
  | .advance _ => 1
  | .send _ | .start _ _ | .cancel _ | .release _ => 0

namespace PullCalls

variable {config : LolaTransportConfig} {B : PullBackend V σ} {s s' : PullCalls Φ S F σ}
  {a : PullAction Φ S} {i : ℕ} {c : PullCall Φ F}

/-- The critical sections the calls can still run: two for each sample there is, and those that
their phases need. -/
def work (B : PullBackend V σ) (s : PullCalls Φ S F σ) : ℕ :=
  2 * (B.samples s.pull.backend).length + (s.calls.map fun c => c.phase.work).sum

/-- A call that changes its phase changes the work by what its phases need. -/
theorem work_setPhase {t : PullCalls Φ S F σ} {c' : PullCall Φ F} {before after : Phase F} {n : ℕ}
    (hc : t.calls[i]? = some c) (hp : c.phase = before)
    (h : t.work B + after.work + n ≤ s.work B + before.work) :
    (t.setPhase i c' after).work B + n ≤ s.work B := by
  subst hp
  have hsum := List.sum_map_set hc { c' with phase := after } fun c => c.phase.work
  dsimp only at hsum
  simp only [work, setPhase] at h ⊢
  omega

theorem samples_of_nothing {b b' : σ} {e : Fault} (h : B.receiveNext b = (.nothing e, b')) :
    B.samples b' = B.samples b := by
  have hsamples := B.samples_receiveNext b
  rwa [h] at hsamples

theorem samples_of_lost {b b' : σ} {x : ℕ × S} {e : Fault}
    (h : B.receiveNext b = (.lost x e, b')) : B.samples b = x :: B.samples b' := by
  have hsamples := B.samples_receiveNext b
  rw [h] at hsamples
  exact hsamples.symm

theorem samples_of_frame {b b' : σ} {f : F} (h : B.receiveNext b = (.frame f, b')) :
    B.samples b = V.sample f :: B.samples b' := by
  have hsamples := B.samples_receiveNext b
  rw [h] at hsamples
  exact hsamples.symm

/-- Every critical section is paid for. -/
theorem work_step (h : step config B s a = some s') :
    s'.work B + a.sections ≤ s.work B + a.adds := by
  cases step_cases h with
  | send sample =>
    simp only [work, sendValidatedZeroCopy, B.samples_arrive, List.length_append,
      List.length_singleton, PullAction.sections, PullAction.adds]
    omega
  | start client filters =>
    simp only [work, List.map_append, List.map_singleton, List.sum_append, List.sum_singleton,
      PullAction.sections, PullAction.adds, Phase.work]
    omega
  | found hc hp =>
    refine work_setPhase hc hp ?_
    simp only [work, Phase.work, PullAction.sections]
    omega
  | notFound hc hp =>
    refine work_setPhase hc hp ?_
    simp only [work, Phase.work, PullAction.sections]
    omega
  | nothing hc hp hnext =>
    refine work_setPhase hc hp ?_
    simp only [work, samples_of_nothing hnext, Phase.work, PullAction.sections]
    omega
  | lost hc hp hnext =>
    refine work_setPhase hc hp ?_
    simp only [work, samples_of_lost hnext, List.length_cons, Phase.work, PullAction.sections]
    omega
  | matched hc hp hnext =>
    refine work_setPhase hc hp ?_
    simp only [work, samples_of_frame hnext, List.length_cons, Phase.work, PullAction.sections]
    omega
  | mismatched hc hp hnext =>
    refine work_setPhase hc hp ?_
    simp only [work, samples_of_frame hnext, List.length_cons, Phase.work, PullAction.sections]
    omega
  | kept hc hp =>
    refine work_setPhase hc hp ?_
    simp only [work, B.samples_releaseAll, Phase.work, PullAction.sections]
    omega
  | refused hc hp =>
    refine work_setPhase hc hp ?_
    simp only [work, B.samples_releaseAll, Phase.work, PullAction.sections]
    omega
  | cancelled hc =>
    refine work_setPhase hc rfl ?_
    simp only [work, Phase.work, PullAction.sections]
    omega
  | abandoned hc hp =>
    refine work_setPhase hc hp ?_
    simp only [work, B.samples_release, Phase.work, PullAction.sections]
    omega
  | released hc hp =>
    refine work_setPhase hc hp ?_
    simp only [work, B.samples_release, Phase.work, PullAction.sections]
    omega

/-- A call that is not over gets its lock and goes on. -/
theorem advance_of_running (hc : s.calls[i]? = some c) (hrunning : c.phase.running = true) :
    ∃ s', step config B s (.advance i) = some s' := by
  simp only [step, hc, Option.bind_some, advance]
  cases hp : c.phase with
  | popQueued =>
    dsimp only
    split <;> exact ⟨_, rfl⟩
  | takeNext =>
    dsimp only
    split
    · exact ⟨_, rfl⟩
    · exact ⟨_, rfl⟩
    · split_ifs
      all_goals exact ⟨_, rfl⟩
  | queueing frame =>
    dsimp only
    split <;> exact ⟨_, rfl⟩
  | _ =>
    rw [hp] at hrunning
    cases hrunning

/-- Over any run, calls get their locks at most twice for each sample sent and twice for each call
started; and from any state, the calls that are not over come to their ends if they go on, in no
more steps than the work that is left. -/
theorem receives_return {b : σ} (hb : B.samples b = []) {actions : List (PullAction Φ S)}
    (h : Run.exec (step config B) (init b) actions = some s) :
    (actions.map PullAction.sections).sum + s.work B ≤ (actions.map PullAction.adds).sum ∧
      ∃ as t, (∀ a ∈ as, ∃ i, a = .advance i) ∧ as.length ≤ s.work B ∧
        Run.exec (step config B) s as = some t ∧ ∀ c ∈ t.calls, c.phase.running = false := by
  have hbound : s.work B + (actions.map PullAction.sections).sum ≤
      (init b : PullCalls Φ S F σ).work B + (actions.map PullAction.adds).sum :=
    Run.exec_measure_le (fun _ _ _ hstep => work_step hstep) h
  have hzero : (init b : PullCalls Φ S F σ).work B = 0 := by
    simp [work, init, hb]
  have hready (u : PullCalls Φ S F σ) (hu : ∃ c ∈ u.calls, c.phase.running = true) :
      ∃ a u', (∃ i, a = .advance i) ∧ step config B u a = some u' ∧ u'.work B < u.work B := by
    obtain ⟨c, hc, hrunning⟩ := hu
    obtain ⟨i, hi⟩ := List.mem_iff_getElem?.1 hc
    obtain ⟨u', hstep⟩ : ∃ u', step config B u (.advance i) = some u' :=
      advance_of_running hi hrunning
    exact ⟨.advance i, u', ⟨i, rfl⟩, hstep, work_step hstep⟩
  obtain ⟨as, t, has, hlen, hexec, hsettled⟩ := Run.exists_exec_settled hready s
  refine ⟨by omega, as, t, has, hlen, hexec, fun c hc => ?_⟩
  simpa using fun hrunning => hsettled ⟨c, hc, hrunning⟩

/-- A call that has searched the queue and has the one sample sent before it. -/
def plainSearched : List (PullAction (Filters plainUpRust) (List UInt8)) :=
  [.send sampleB, .start 0 filtersA, .advance 0]

theorem receives_return_plain :
    ∃ s : StubCalls (Filters plainUpRust) (List UInt8) (LolaRxLease plainUpRust),
      Run.exec (step (plainConfig 4 1 .DropOldestAndReport) (stubBackend plainFrames.numbered))
        (init []) plainSearched = some s ∧
      (plainSearched.map PullAction.sections).sum + s.work (stubBackend plainFrames.numbered) ≤
        (plainSearched.map PullAction.adds).sum ∧
      ∃ as t, (∀ a ∈ as, ∃ i, a = .advance i) ∧
        as.length ≤ s.work (stubBackend plainFrames.numbered) ∧
        Run.exec (step (plainConfig 4 1 .DropOldestAndReport) (stubBackend plainFrames.numbered))
          s as = some t ∧ ∀ c ∈ t.calls, c.phase.running = false :=
  ⟨_, rfl, receives_return rfl rfl⟩

end PullCalls

end LolaTransport
