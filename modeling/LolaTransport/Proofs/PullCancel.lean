import LolaTransport.Proofs.PlainFrames
import LolaTransport.Proofs.PullConservation

/-!
# Where a cancelled receive leaves what it took

The frames a call has taken are in the queue, returned, dropped or rejected, but for the one it is
about to keep, which is in its own hands.  So a call that is dropped where it waits makes a sample
disappear exactly when it waits for the lock of `queue_pull_sample`.
-/

namespace LolaTransport

variable {Φ S F σ : Type} {V : FrameView Φ (ℕ × S) F}

namespace PullCalls

/-- The frames that are in the queue, have been returned, or are counted as dropped or rejected. -/
def settled (s : PullCalls Φ S F σ) : List F :=
  s.pull.pullMismatchQueue.queue ++ inCalls Phase.got s.calls ++ s.dropped ++ s.rejected

/-- All frames the call has taken are in the queue, have been returned, or are in the counts of
`dropped_mismatches` and `rejected_mismatches`. -/
def Accounts (s : PullCalls Φ S F σ) (c : PullCall Φ F) : Prop :=
  s.pull.pullMismatchQueue.droppedMismatches = min u64Max s.dropped.length ∧
    s.pull.pullMismatchQueue.rejectedMismatches = min u64Max s.rejected.length ∧
    ∀ f ∈ c.taken, f ∈ s.settled

variable {config : LolaTransportConfig} {B : PullBackend V σ} {s s' : PullCalls Φ S F σ}
  {a : PullAction Φ S}

theorem mem_inCalls_set_self {place : Phase F → List F} {calls : List (PullCall Φ F)} {i : ℕ}
    {c c' : PullCall Φ F} {g : F} (hc : calls[i]? = some c) (hg : g ∈ place c'.phase) :
    g ∈ inCalls place (calls.set i c') := by
  obtain ⟨hi, -⟩ := List.getElem?_eq_some_iff.1 hc
  exact mem_inCalls.2 ⟨i, c', by rw [List.getElem?_set_self hi], hg⟩

theorem mem_inCalls_set_of_imp {place : Phase F → List F} {calls : List (PullCall Φ F)} {i : ℕ}
    {c c' : PullCall Φ F} {g : F} (hc : calls[i]? = some c)
    (hplace : g ∈ place c.phase → g ∈ place c'.phase) (hg : g ∈ inCalls place calls) :
    g ∈ inCalls place (calls.set i c') := by
  obtain ⟨j, d, hd, hg⟩ := mem_inCalls.1 hg
  by_cases hij : i = j
  · subst hij
    obtain rfl := Option.some.inj (hc.symm.trans hd)
    exact mem_inCalls_set_self hc (hplace hg)
  · exact mem_inCalls.2 ⟨j, d, by rw [List.getElem?_set_ne hij, hd], hg⟩

/-- What has been returned stays so. -/
theorem mem_got_step (h : StepCase config B s a s') {g : F}
    (hg : g ∈ inCalls Phase.got s.calls) : g ∈ inCalls Phase.got s'.calls := by
  cases h with
  | send x => exact hg
  | start client filters =>
    rw [inCalls, List.flatMap_append]
    exact List.mem_append_left _ hg
  | released hc hp => exact mem_inCalls_set_of_imp hc (by rw [hp]; exact id) hg
  | cancelled hc hp =>
    refine mem_inCalls_set_of_imp hc ?_ hg
    rcases hp with hp | hp
    · rw [hp]
      exact fun h => absurd h List.not_mem_nil
    · rw [hp]
      exact fun h => absurd h List.not_mem_nil
  | found hc hp | notFound hc hp | nothing hc hp | lost hc hp | matched hc hp | mismatched hc hp
  | kept hc hp | refused hc hp | abandoned hc hp =>
    refine mem_inCalls_set_of_imp hc ?_ hg
    rw [hp]
    exact fun h => absurd h List.not_mem_nil

theorem mem_settled {g : F} : g ∈ s.settled ↔ g ∈ s.pull.pullMismatchQueue.queue ∨
    g ∈ inCalls Phase.got s.calls ∨ g ∈ s.dropped ∨ g ∈ s.rejected := by
  simp only [settled, List.mem_append, or_assoc]

/-- What is settled stays so, and what a call is about to keep gets so. -/
theorem settled_step (h : StepCase config B s a s')
    (hq : s.pull.pullMismatchQueue.Bounded config.pullMismatchQueueCapacity) {g : F}
    (hg : g ∈ s.settled) : g ∈ s'.settled := by
  have hgot := mem_got_step h (g := g)
  rw [mem_settled] at hg ⊢
  cases h with
  | found hc hp hpop =>
    obtain ⟨q₁, q₂, hqueue, -, -, rfl⟩ := popQueuedPullSample_some hpop
    rcases hg with hg | hg | hg
    · rw [hqueue] at hg
      rcases List.mem_append.1 hg with hg | hg
      · exact .inl (List.mem_append_left _ hg)
      · rcases List.mem_cons.1 hg with rfl | hg
        · exact .inr (.inl (mem_inCalls_set_self hc (List.mem_singleton_self g)))
        · exact .inl (List.mem_append_right _ hg)
    · exact .inr (.inl (hgot hg))
    · exact .inr (.inr hg)
  | @kept i c f q hc hp hqueued hok =>
    subst hqueued
    rcases hg with hg | hg | hg | hg
    · rcases mem_of_queuePullSample_ok hq hok (List.mem_append_left [f] hg) with hmem | hmem
      · exact .inr (.inr (.inl (List.mem_append_right _ hmem)))
      · exact .inl hmem
    · exact .inr (.inl (hgot hg))
    · exact .inr (.inr (.inl (List.mem_append_left _ hg)))
    · exact .inr (.inr (.inr hg))
  | refused hc hp hqueued herror =>
    subst hqueued
    obtain ⟨-, -, -, -, -, hqueue, -, -⟩ := queuePullSample_error herror
    rcases hg with hg | hg | hg | hg
    · exact .inl (by rwa [setPhase, hqueue])
    · exact .inr (.inl (hgot hg))
    · exact .inr (.inr (.inl hg))
    · exact .inr (.inr (.inr (List.mem_append_left _ hg)))
  | _ => exact hg.imp_right (Or.imp_left hgot)

/-- What a call has taken is settled, but for the frame it holds or was cancelled with. -/
structure Tracked (s : PullCalls Φ S F σ) : Prop where
  taken : ∀ (i : ℕ) (c : PullCall Φ F) (f : F), s.calls[i]? = some c → f ∈ c.taken →
    f ∈ s.settled ∨ f ∈ c.phase.held ++ c.phase.abandoned
  held : ∀ (i : ℕ) (c : PullCall Φ F) (f : F), s.calls[i]? = some c → f ∈ c.phase.held →
    f ∈ c.taken

theorem tracked_setPhase (hs : s.Tracked) {t : PullCalls Φ S F σ} {i : ℕ} {c : PullCall Φ F}
    {phase : Phase F} (ht : t.calls = s.calls)
    (hsettled : ∀ g ∈ s.settled, g ∈ (t.setPhase i c phase).settled)
    (htaken : ∀ f ∈ c.taken,
      f ∈ (t.setPhase i c phase).settled ∨ f ∈ phase.held ++ phase.abandoned)
    (hheld : ∀ f ∈ phase.held, f ∈ c.taken) : (t.setPhase i c phase).Tracked := by
  constructor
  · intro j d f hd hf
    rcases getElem?_setPhase hd with ⟨-, hd⟩ | ⟨rfl, rfl⟩
    · rw [ht] at hd
      exact (hs.taken j d f hd hf).imp_left (hsettled f)
    · exact htaken f hf
  · intro j d f hd hf
    rcases getElem?_setPhase hd with ⟨-, hd⟩ | ⟨rfl, rfl⟩
    · rw [ht] at hd
      exact hs.held j d f hd hf
    · exact hheld f hf

theorem tracked_step (h : StepCase config B s a s')
    (hq : s.pull.pullMismatchQueue.Bounded config.pullMismatchQueueCapacity) (hs : s.Tracked) :
    s'.Tracked := by
  have hsettled (g : F) (hg : g ∈ s.settled) : g ∈ s'.settled := settled_step h hq hg
  -- what a call that holds nothing has taken
  have htaken {i : ℕ} {c : PullCall Φ F} (hc : s.calls[i]? = some c)
      (hp : c.phase.held ++ c.phase.abandoned = []) (f : F) (hf : f ∈ c.taken) :
      f ∈ s'.settled := by
    rcases hs.taken i c f hc hf with hf | hf
    · exact hsettled f hf
    · rw [hp] at hf
      cases hf
  -- what a call has taken that is about to keep a frame
  have hqueueing {i : ℕ} {c : PullCall Φ F} {f : F} (hc : s.calls[i]? = some c)
      (hp : c.phase = .queueing f) (g : F) (hg : g ∈ c.taken) : g ∈ s'.settled ∨ g = f := by
    rcases hs.taken i c g hc hg with hg | hg
    · exact .inl (hsettled g hg)
    · exact .inr (by simpa [hp, Phase.held, Phase.abandoned] using hg)
  cases h with
  | send x => exact ⟨hs.taken, hs.held⟩
  | start client filters =>
    constructor
    · intro j d f hd hf
      rcases List.getElem?_concat_eq_some hd with hd | ⟨-, rfl⟩
      · exact (hs.taken j d f hd hf).imp_left (hsettled f)
      · cases hf
    · intro j d f hd hf
      rcases List.getElem?_concat_eq_some hd with hd | ⟨-, rfl⟩
      · exact hs.held j d f hd hf
      · cases hf
  | found hc hp | notFound hc hp | nothing hc hp | lost hc hp | released hc hp =>
    exact tracked_setPhase hs rfl hsettled
      (fun f hf => .inl (htaken hc (by rw [hp]; rfl) f hf)) (List.forall_mem_nil _)
  | cancelled hc hp =>
    refine tracked_setPhase hs rfl hsettled (fun f hf => .inl (htaken hc ?_ f hf))
      (List.forall_mem_nil _)
    rcases hp with hp | hp
    · rw [hp]
      rfl
    · rw [hp]
      rfl
  | @matched i c f b hc hp hnext hf =>
    refine tracked_setPhase hs rfl hsettled (fun g hg => .inl ?_) (List.forall_mem_nil _)
    rcases List.mem_append.1 hg with hg | hg
    · exact htaken hc (by rw [hp]; rfl) g hg
    · exact mem_settled.2 (.inr (.inl (mem_inCalls_set_self hc hg)))
  | mismatched hc hp hnext hf =>
    refine tracked_setPhase hs rfl hsettled (fun g hg => ?_) fun g hg => List.mem_append_right _ hg
    rcases List.mem_append.1 hg with hg | hg
    · exact .inl (htaken hc (by rw [hp]; rfl) g hg)
    · exact .inr hg
  | @kept i c f q hc hp hqueued hok =>
    subst hqueued
    refine tracked_setPhase hs rfl hsettled (fun g hg => .inl ?_) (List.forall_mem_nil _)
    rcases hqueueing hc hp g hg with hg | rfl
    · exact hg
    · have hg : g ∈ s.pull.pullMismatchQueue.queue ++ [g] :=
        List.mem_append_right _ (List.mem_singleton_self g)
      rw [mem_settled]
      rcases mem_of_queuePullSample_ok hq hok hg with hmem | hmem
      · exact .inr (.inr (.inl (List.mem_append_right _ hmem)))
      · exact .inl hmem
  | @refused i c f q e hc hp hqueued herror =>
    subst hqueued
    refine tracked_setPhase hs rfl hsettled (fun g hg => .inl ?_) (List.forall_mem_nil _)
    rcases hqueueing hc hp g hg with hg | rfl
    · exact hg
    · obtain ⟨-, -, -, -, hletGo, -⟩ := queuePullSample_error herror
      rw [mem_settled]
      refine .inr (.inr (.inr (List.mem_append_right _ ?_)))
      rw [hletGo]
      exact List.mem_singleton_self g
  | @abandoned i c f hc hp =>
    refine tracked_setPhase hs rfl hsettled (fun g hg => ?_) (List.forall_mem_nil _)
    rcases hs.taken i c g hc hg with hg | hg
    · exact .inl (hsettled g hg)
    · rw [hp] at hg
      exact .inr hg

/-- What went with a cancelled call is not settled. -/
theorem not_settled_of_abandoned (hs : s.Inv config B) {f : F}
    (hf : f ∈ inCalls Phase.abandoned s.calls) : f ∉ s.settled := by
  intro hsettled
  have hone := hs.count_le_one (V.sample f).1
  have hpos {fs : List F} (h : f ∈ fs) :
      0 < (fs.map fun g => (V.sample g).1).count (V.sample f).1 :=
    List.count_pos_iff.2 (List.mem_map_of_mem h)
  have habandoned := hpos hf
  rcases mem_settled.1 hsettled with h | h | h | h
  all_goals
    have hplace := hpos h
    omega

/-- A call that is cancelled leaves all it has taken accounted for, which a sample returned to a
caller is, unless it waits for the lock of `queue_pull_sample`. -/
theorem cancel_accounts (config : LolaTransportConfig) (B : PullBackend V σ) {b : σ}
    (hb : B.samples b = []) {s s' : PullCalls Φ S F σ} {i : ℕ} {c : PullCall Φ F}
    (hs : Run.Reach (step config B) (fun _ _ => True) (init b) s) (hc : s.calls[i]? = some c)
    (h : step config B s (.cancel i) = some s') :
    s'.Accounts c ↔ ∀ f, c.phase ≠ .queueing f := by
  have hinv := inv_reach hb hs
  have hinv' := inv_step hinv (step_cases h)
  have htracked : s.Tracked :=
    hs.invariant ⟨by simp [init], by simp [init]⟩ fun s a s' hs ht _ hstep =>
      tracked_step (step_cases hstep) (inv_reach hb hs).bounded ht
  have hsettled (g : F) (hg : g ∈ s.settled) : g ∈ s'.settled :=
    settled_step (step_cases h) hinv.bounded hg
  constructor
  · rintro ⟨-, -, haccounts⟩ f hp
    have hf := htracked.held i c f hc (by rw [hp]; exact List.mem_singleton_self f)
    refine not_settled_of_abandoned hinv' ?_ (haccounts f hf)
    cases step_cases h with
    | cancelled hc' hp' =>
      obtain rfl := Option.some.inj (hc.symm.trans hc')
      rw [hp] at hp'
      rcases hp' with hp' | hp' <;> cases hp'
    | abandoned hc' hp' =>
      obtain rfl := Option.some.inj (hc.symm.trans hc')
      rw [hp] at hp'
      cases hp'
      exact mem_inCalls_set_self hc (List.mem_singleton_self f)
  · intro hno
    refine ⟨hinv'.dropped, hinv'.rejected, fun f hf => ?_⟩
    rcases htracked.taken i c f hc hf with hf | hf
    · exact hsettled f hf
    · cases step_cases h with
      | cancelled hc' hp' =>
        obtain rfl := Option.some.inj (hc.symm.trans hc')
        rcases hp' with hp' | hp'
        · rw [hp'] at hf
          cases hf
        · rw [hp'] at hf
          cases hf
      | abandoned hc' hp' =>
        obtain rfl := Option.some.inj (hc.symm.trans hc')
        exact absurd hp' (hno _)

/-- A call that has kept a mismatch, and is cancelled before it takes the next sample. -/
theorem cancel_accounts_plain :
    ∃ (s' : StubCalls (Filters plainUpRust) (List UInt8) (LolaRxLease plainUpRust))
      (c : PullCall (Filters plainUpRust) (ℕ × LolaRxLease plainUpRust)),
      c.taken = [(0, leaseB)] ∧ s'.Accounts c := by
  have hnext := receiveNext_numbered (C := plainFrames) 0 fromSample_sampleB []
  have h₀ : Run.Reach (step (plainConfig 4 1 .DropOldestAndReport)
      (stubBackend plainFrames.numbered)) (fun _ _ => True) (init []) (init []) := .refl
  have h₁ := h₀.step trivial (StepCase.send sampleB).step_eq
  have h₂ := h₁.step trivial (StepCase.start 0 filtersA).step_eq
  have h₃ := h₂.step trivial (StepCase.notFound (i := 0) rfl rfl rfl).step_eq
  have h₄ := h₃.step trivial
    (StepCase.mismatched (i := 0) rfl rfl hnext frameMatches_plain.2.1).step_eq
  have hs := h₄.step trivial (StepCase.kept (i := 0) rfl rfl rfl rfl).step_eq
  have hwaiting (f : ℕ × LolaRxLease plainUpRust) : Phase.takeNext ≠ .queueing f := nofun
  have h := (cancel_accounts _ (stubBackend plainFrames.numbered) rfl hs rfl
    (StepCase.cancelled (i := 0) rfl (.inr rfl)).step_eq).2 hwaiting
  exact ⟨_, _, rfl, h⟩

/-- A call that is cancelled while it waits to keep the only sample sent. -/
theorem cancel_accounts_queueing :
    ∃ (s s' : StubCalls (Filters plainUpRust) (List UInt8) (LolaRxLease plainUpRust))
      (c : PullCall (Filters plainUpRust) (ℕ × LolaRxLease plainUpRust)),
      Run.Reach (step (plainConfig 4 1 .DropOldestAndReport) (stubBackend plainFrames.numbered))
          (fun _ _ => True) (init []) s ∧
        s.calls[0]? = some c ∧
        step (plainConfig 4 1 .DropOldestAndReport) (stubBackend plainFrames.numbered) s
          (.cancel 0) = some s' ∧
        ¬ s'.Accounts c := by
  have hnext := receiveNext_numbered (C := plainFrames) 0 fromSample_sampleB []
  have h₀ : Run.Reach (step (plainConfig 4 1 .DropOldestAndReport)
      (stubBackend plainFrames.numbered)) (fun _ _ => True) (init []) (init []) := .refl
  have h₁ := h₀.step trivial (StepCase.send sampleB).step_eq
  have h₂ := h₁.step trivial (StepCase.start 0 filtersA).step_eq
  have h₃ := h₂.step trivial (StepCase.notFound (i := 0) rfl rfl rfl).step_eq
  have hs := h₃.step trivial
    (StepCase.mismatched (i := 0) rfl rfl hnext frameMatches_plain.2.1).step_eq
  refine ⟨_, _, _, hs, rfl, (StepCase.abandoned (i := 0) rfl rfl).step_eq, ?_⟩
  rintro ⟨-, -, haccounts⟩
  exact absurd (haccounts _ (List.mem_singleton_self _)) List.not_mem_nil

end PullCalls

end LolaTransport
