import LolaTransport.Proofs.PullCancel

/-!
# What becomes of a mismatch that may be rejected

Under `RejectNewestAndReport` a queue of some capacity never lets go of what it holds: a mismatch
that is taken goes behind the queue, or the call that took it returns `RESOURCE_EXHAUSTED`.  A queue
of capacity zero has nowhere to put a mismatch and nothing to be full of, whatever the policy: it is
dropped, counted as dropped, and the call goes on.
-/

namespace LolaTransport

variable {Φ S F σ : Type} {V : FrameView Φ (ℕ × S) F}

namespace PullCalls

/-- The call at `i` has put its mismatch behind the queue, which has let go of nothing. -/
structure Retained (s s' : PullCalls Φ S F σ) (i : ℕ) (f : F) : Prop where
  phase : (s'.calls[i]?).map (·.phase) = some .takeNext
  queue : s'.pull.pullMismatchQueue.queue = s.pull.pullMismatchQueue.queue ++ [f]
  dropped : s'.dropped = s.dropped
  rejected : s'.rejected = s.rejected

/-- The call at `i` has returned `RESOURCE_EXHAUSTED` for its mismatch, which is counted. -/
structure Rejected (s s' : PullCalls Φ S F σ) (i : ℕ) (f : F) : Prop where
  phase : ∃ e, (s'.calls[i]?).map (·.phase) = some (.returned (.error e)) ∧
    e.code? = some .RESOURCE_EXHAUSTED
  queue : s'.pull.pullMismatchQueue.queue = s.pull.pullMismatchQueue.queue
  dropped : s'.dropped = s.dropped
  rejected : s'.rejected = s.rejected ++ [f]
  counted : s'.pull.pullMismatchQueue.rejectedMismatches =
    saturatingSucc s.pull.pullMismatchQueue.rejectedMismatches

/-- The call at `i` goes on without its mismatch, which is counted as dropped. -/
structure Discarded (s s' : PullCalls Φ S F σ) (i : ℕ) (f : F) : Prop where
  phase : (s'.calls[i]?).map (·.phase) = some .takeNext
  queue : s'.pull.pullMismatchQueue.queue = s.pull.pullMismatchQueue.queue
  dropped : s'.dropped = s.dropped ++ [f]
  rejected : s'.rejected = s.rejected
  counted : s'.pull.pullMismatchQueue.droppedMismatches =
    saturatingSucc s.pull.pullMismatchQueue.droppedMismatches

variable {config : LolaTransportConfig} {B : PullBackend V σ} {s s' : PullCalls Φ S F σ}
  {a : PullAction Φ S}

theorem phase_setPhase {i : ℕ} {c c' : PullCall Φ F} {phase : Phase F} (hc : s.calls[i]? = some c) :
    ((s.setPhase i c' phase).calls[i]?).map (·.phase) = some phase := by
  obtain ⟨hi, -⟩ := List.getElem?_eq_some_iff.1 hc
  rw [setPhase, List.getElem?_set_self hi]
  rfl

/-- Where the newest is rejected, a queue that takes a frame had room for it. -/
theorem letGo_eq_nil (hpolicy : config.pullMismatchQueueFullPolicy = .RejectNewestAndReport)
    (hcapacity : 0 < config.pullMismatchQueueCapacity) {q : PullMismatchQueueState F} {f : F}
    (hq : q.Bounded config.pullMismatchQueueCapacity)
    (hok : (queuePullSample V config f q).result = .ok ()) :
    (queuePullSample V config f q).letGo = [] := by
  have hroom : ¬ config.pullMismatchQueueCapacity ≤ q.queue.length :=
    fun hfull => queuePullSample_result.1 hok ⟨hpolicy, hcapacity, hfull⟩
  have hlength := (queuePullSample_ok hq hok).2.1
  exact List.length_eq_zero_iff.1 (by omega)

theorem queueing_advance {i : ℕ} {c : PullCall Φ F} {f : F} (hc : s.calls[i]? = some c)
    (hp : c.phase = .queueing f)
    (hq : s.pull.pullMismatchQueue.Bounded config.pullMismatchQueueCapacity)
    (hpolicy : config.pullMismatchQueueFullPolicy = .RejectNewestAndReport) :
    ∃ s', step config B s (.advance i) = some s' ∧
      (0 < config.pullMismatchQueueCapacity → Retained s s' i f ∨ Rejected s s' i f) ∧
      (config.pullMismatchQueueCapacity = 0 → Discarded s s' i f) := by
  cases hresult : (queuePullSample V config f s.pull.pullMismatchQueue).result with
  | ok u =>
    refine ⟨_, (StepCase.kept (B := B) hc hp rfl hresult).step_eq, fun hcapacity => ?_,
      fun hzero => ?_⟩
    · obtain ⟨happ, -, -, -⟩ := queuePullSample_ok hq hresult
      have hnil := letGo_eq_nil hpolicy hcapacity hq hresult
      rw [hnil, List.nil_append] at happ
      exact .inl ⟨phase_setPhase hc, happ, by simp [setPhase, hnil], rfl⟩
    · refine ⟨phase_setPhase hc, ?_, ?_, rfl, ?_⟩
      · simp [setPhase, queuePullSample, hzero]
      · simp [setPhase, queuePullSample, hzero]
      · simp [setPhase, queuePullSample, hzero]
  | error e =>
    obtain ⟨-, hcapacity, -, hcode, hletGo, hqueue, -, hcounted⟩ := queuePullSample_error hresult
    refine ⟨_, (StepCase.refused (B := B) hc hp rfl hresult).step_eq, fun _ => ?_,
      fun hzero => by omega⟩
    exact .inr ⟨⟨e, phase_setPhase hc, hcode⟩, hqueue, rfl, by simp [setPhase, hletGo], hcounted⟩

theorem dropped_step (hpolicy : config.pullMismatchQueueFullPolicy = .RejectNewestAndReport)
    (hcapacity : 0 < config.pullMismatchQueueCapacity) (h : StepCase config B s a s')
    (hq : s.pull.pullMismatchQueue.Bounded config.pullMismatchQueueCapacity)
    (hs : s.dropped = []) : s'.dropped = [] := by
  cases h with
  | kept hc hp hqueued hok =>
    subst hqueued
    rw [setPhase, hs, letGo_eq_nil hpolicy hcapacity hq hok]
    rfl
  | _ => exact hs

/-- The frame is in the call's hands, in the queue or returned, or the call has returned
`RESOURCE_EXHAUSTED` for it. -/
def Answered (s : PullCalls Φ S F σ) (c : PullCall Φ F) (f : F) : Prop :=
  f ∈ c.phase.held ∨ f ∈ s.pull.pullMismatchQueue.queue ∨ f ∈ inCalls Phase.got s.calls ∨
    f ∈ s.rejected ∧ c.phase.exhausted = true

theorem queued_step (h : StepCase config B s a s')
    (hq : s.pull.pullMismatchQueue.Bounded config.pullMismatchQueueCapacity)
    (hs' : s'.dropped = []) {f : F}
    (hf : f ∈ s.pull.pullMismatchQueue.queue ∨ f ∈ inCalls Phase.got s.calls) :
    f ∈ s'.pull.pullMismatchQueue.queue ∨ f ∈ inCalls Phase.got s'.calls := by
  rcases hf with hf | hf
  · cases h with
    | found hc hp hpop =>
      obtain ⟨q₁, q₂, hqueue, -, -, rfl⟩ := popQueuedPullSample_some hpop
      rw [hqueue] at hf
      rcases List.mem_append.1 hf with hf | hf
      · exact .inl (List.mem_append_left _ hf)
      · rcases List.mem_cons.1 hf with rfl | hf
        · exact .inr (mem_inCalls_set_self hc (List.mem_singleton_self f))
        · exact .inl (List.mem_append_right _ hf)
    | @kept i c g q hc hp hqueued hok =>
      subst hqueued
      rcases mem_of_queuePullSample_ok hq hok (List.mem_append_left [g] hf) with hmem | hmem
      · have hdropped := List.append_eq_nil_iff.1 hs'
        rw [hdropped.2] at hmem
        cases hmem
      · exact .inl hmem
    | refused hc hp hqueued herror =>
      subst hqueued
      exact .inl (by rwa [setPhase, (queuePullSample_error herror).2.2.2.2.2.1])
    | _ => exact .inl hf
  · exact .inr (mem_got_step h hf)

/-- Every mismatch that a call has taken is answered. -/
def AllAnswered (s : PullCalls Φ S F σ) : Prop :=
  ∀ (i : ℕ) (c : PullCall Φ F), s.calls[i]? = some c → ∀ f ∈ c.taken,
    V.matchesFilter c.filters f = false → s.Answered c f

section Answered

variable {c d : PullCall Φ F} {f : F}

/-- What is answered stays so, whichever call takes a step. -/
theorem Answered.step (hf : s.Answered c f) (h : StepCase config B s a s')
    (hq : s.pull.pullMismatchQueue.Bounded config.pullMismatchQueueCapacity)
    (hs' : s'.dropped = []) (hrejected : s.rejected ⊆ s'.rejected) : s'.Answered c f := by
  rcases hf with hheld | hin | hgot | ⟨hin, hexhausted⟩
  · exact .inl hheld
  · exact .inr ((queued_step h hq hs' (.inl hin)).imp_right .inl)
  · exact .inr ((queued_step h hq hs' (.inr hgot)).imp_right .inl)
  · exact .inr (.inr (.inr ⟨hrejected hin, hexhausted⟩))

/-- A call at a lock has not returned yet, so what it has taken before and does not hold is in the
queue or returned by then. -/
theorem answered_setPhase (h : StepCase config B s a s')
    (hq : s.pull.pullMismatchQueue.Bounded config.pullMismatchQueueCapacity)
    (hs' : s'.dropped = []) (hs : AllAnswered (V := V) s) {t : PullCalls Φ S F σ} {i j : ℕ}
    {c' : PullCall Φ F} {phase : Phase F} (hd : (t.setPhase i c' phase).calls[j]? = some d)
    (hf : f ∈ d.taken) (hmismatch : V.matchesFilter d.filters f = false)
    (ht : t.calls = s.calls) (hrejected : s.rejected ⊆ s'.rejected) (hc : s.calls[i]? = some c)
    (hfilters : c'.filters = c.filters) (hexhausted : c.phase.exhausted = false)
    (hnew : V.matchesFilter c.filters f = false → f ∈ c'.taken →
      f ∈ c.taken ∧ f ∉ c.phase.held ∨ s'.Answered { c' with phase } f) :
    s'.Answered d f := by
  rcases getElem?_setPhase hd with ⟨-, hd⟩ | ⟨rfl, rfl⟩
  · rw [ht] at hd
    exact (hs j d hd f hf hmismatch).step h hq hs' hrejected
  · have hmismatch : V.matchesFilter c.filters f = false := by rwa [← hfilters]
    rcases hnew hmismatch hf with ⟨hf, hheld⟩ | hanswered
    · rcases hs j c hc f hf hmismatch with h' | hin | hgot | ⟨-, h'⟩
      · exact absurd h' hheld
      · exact .inr ((queued_step h hq hs' (.inl hin)).imp_right .inl)
      · exact .inr ((queued_step h hq hs' (.inr hgot)).imp_right .inl)
      · rw [hexhausted] at h'
        cases h'
    · exact hanswered

end Answered

theorem answered_step (h : StepCase config B s a s') (ha : a.completes = true)
    (hq : s.pull.pullMismatchQueue.Bounded config.pullMismatchQueueCapacity)
    (hs' : s'.dropped = []) (hs : AllAnswered (V := V) s) : AllAnswered (V := V) s' := by
  intro j d hd f hf hmismatch
  have hstep := h
  have hrefl {l : List F} : l ⊆ l := List.Subset.refl l
  cases h with
  | send x => exact (hs j d hd f hf hmismatch).step hstep hq hs' hrefl
  | start client filters =>
    rcases List.getElem?_concat_eq_some hd with hd | ⟨-, rfl⟩
    · exact (hs j d hd f hf hmismatch).step hstep hq hs' hrefl
    · cases hf
  | found hc hp | notFound hc hp | nothing hc hp | lost hc hp =>
    exact answered_setPhase hstep hq hs' hs hd hf hmismatch rfl hrefl hc rfl (by rw [hp]; rfl)
      fun _ hf => .inl ⟨hf, by rw [hp]; exact List.not_mem_nil⟩
  | released hc hp =>
    exact answered_setPhase hstep hq hs' hs hd hf hmismatch rfl hrefl hc rfl (by rw [hp]; rfl)
      fun _ hf => .inl ⟨hf, by rw [hp]; exact List.not_mem_nil⟩
  | @matched i c g b hc hp hnext hmatch =>
    refine answered_setPhase hstep hq hs' hs hd hf hmismatch rfl hrefl hc rfl (by rw [hp]; rfl)
      fun hmismatch hf => ?_
    rcases List.mem_append.1 hf with hf | hf
    · exact .inl ⟨hf, by rw [hp]; exact List.not_mem_nil⟩
    · rw [List.mem_singleton.1 hf, hmatch] at hmismatch
      cases hmismatch
  | mismatched hc hp hnext _ =>
    refine answered_setPhase hstep hq hs' hs hd hf hmismatch rfl hrefl hc rfl (by rw [hp]; rfl)
      fun _ hf => ?_
    rcases List.mem_append.1 hf with hf | hf
    · exact .inl ⟨hf, by rw [hp]; exact List.not_mem_nil⟩
    · exact .inr (.inl hf)
  | @kept i c g q hc hp hq' hok =>
    subst hq'
    refine answered_setPhase hstep hq hs' hs hd hf hmismatch rfl hrefl hc rfl (by rw [hp]; rfl)
      fun _ hf => ?_
    by_cases hfg : f = g
    · subst hfg
      have hmem := mem_of_queuePullSample_ok hq hok
        (List.mem_append_right _ (List.mem_singleton_self f))
      have hnil := (List.append_eq_nil_iff.1 hs').2
      rw [hnil] at hmem
      exact .inr (.inr (.inl (hmem.resolve_left List.not_mem_nil)))
    · exact .inl ⟨hf, by rw [hp]; exact fun h => hfg (List.mem_singleton.1 h)⟩
  | @refused i c g q e hc hp hq' herror =>
    subst hq'
    obtain ⟨-, -, -, hcode, hletGo, -, -, -⟩ := queuePullSample_error herror
    refine answered_setPhase hstep hq hs' hs hd hf hmismatch rfl (List.subset_append_left _ _) hc
      rfl (by rw [hp]; rfl) fun _ hf => ?_
    by_cases hfg : f = g
    · subst hfg
      refine .inr (.inr (.inr (.inr ⟨List.mem_append_right _ ?_, ?_⟩)))
      · rw [hletGo]
        exact List.mem_singleton_self f
      · simpa [Phase.exhausted] using hcode
    · exact .inl ⟨hf, by rw [hp]; exact fun h => hfg (List.mem_singleton.1 h)⟩
  | cancelled => cases ha
  | abandoned => cases ha

/-- Where the newest is rejected, and whatever the interleaving: with some capacity nothing is ever
dropped, and while calls run to completion a mismatch is retained or the call that took it returns
`RESOURCE_EXHAUSTED`, which is counted; with none, each mismatch is dropped, which is counted, and
the call goes on. -/
theorem mismatch_retained_or_rejected {b : σ} (hb : B.samples b = [])
    (hpolicy : config.pullMismatchQueueFullPolicy = .RejectNewestAndReport)
    (hs : Run.Reach (step config B) (fun _ _ => True) (init b) s) :
    (0 < config.pullMismatchQueueCapacity →
      s.pull.pullMismatchQueue.droppedMismatches = 0 ∧
      (Run.Reach (step config B) (fun _ a => a.completes = true) (init b) s →
        ∀ (i : ℕ) (c : PullCall Φ F), s.calls[i]? = some c → ∀ f ∈ c.taken,
          V.matchesFilter c.filters f = false → s.Answered c f)) ∧
    ∀ (i : ℕ) (c : PullCall Φ F) (f : F), s.calls[i]? = some c → c.phase = .queueing f →
      ∃ s', step config B s (.advance i) = some s' ∧
        (0 < config.pullMismatchQueueCapacity → Retained s s' i f ∨ Rejected s s' i f) ∧
        (config.pullMismatchQueueCapacity = 0 → Discarded s s' i f) := by
  have hinv : s.Inv config B := inv_reach hb hs
  refine ⟨fun hcapacity => ?_, fun i c f hc hp => queueing_advance hc hp hinv.bounded hpolicy⟩
  have hdropped {t : PullCalls Φ S F σ}
      (ht : Run.Reach (step config B) (fun _ _ => True) (init b) t) : t.dropped = [] :=
    ht.invariant (I := fun s => s.dropped = []) rfl fun s a s' hs hnone _ hstep =>
      dropped_step hpolicy hcapacity (step_cases hstep) (inv_reach hb hs).bounded hnone
  refine ⟨?_, fun hs => ?_⟩
  · rw [hinv.dropped, hdropped hs]
    exact Nat.min_zero _
  · refine hs.invariant (I := AllAnswered (V := V)) (fun i c hc => by simp [init] at hc) ?_
    intro t a t' ht hanswered ha hstep
    have ht' := (ht.step ha hstep).mono fun _ _ _ => trivial
    exact answered_step (step_cases hstep) ha (inv_reach hb ht).bounded (hdropped ht') hanswered

/-- A queue of one, and a second mismatch. -/
theorem mismatch_retained_or_rejected_plain :
    ∃ s s' : StubCalls (Filters plainUpRust) (List UInt8) (LolaRxLease plainUpRust),
      s.pull.pullMismatchQueue.queue = [(0, leaseB)] ∧
        s.pull.pullMismatchQueue.droppedMismatches = 0 ∧ Rejected s s' 0 (1, leaseB) := by
  have hnext := receiveNext_numbered (C := plainFrames) 0 fromSample_sampleB [(1, sampleB)]
  have hnext' := receiveNext_numbered (C := plainFrames) 1 fromSample_sampleB []
  have h₀ : Run.Reach (step (plainConfig 4 1 .RejectNewestAndReport)
      (stubBackend plainFrames.numbered)) (fun _ a => a.completes = true) (init []) (init []) :=
    .refl
  have h₁ := h₀.step rfl (StepCase.send sampleB).step_eq
  have h₂ := h₁.step rfl (StepCase.send sampleB).step_eq
  have h₃ := h₂.step rfl (StepCase.start 0 filtersA).step_eq
  have h₄ := h₃.step (a := .advance 0) rfl (StepCase.notFound rfl rfl rfl).step_eq
  have h₅ := h₄.step (a := .advance 0) rfl
    (StepCase.mismatched rfl rfl hnext frameMatches_plain.2.1).step_eq
  have h₆ := h₅.step (a := .advance 0) rfl (StepCase.kept rfl rfl rfl rfl).step_eq
  have hs := h₆.step (a := .advance 0) rfl
    (StepCase.mismatched rfl rfl hnext' frameMatches_plain.2.1).step_eq
  have h := mismatch_retained_or_rejected rfl rfl (hs.mono fun _ _ _ => trivial)
  obtain ⟨s', hstep, hkept, -⟩ := h.2 0 _ _ rfl rfl
  rcases hkept Nat.one_pos with hretained | hrejected
  · have hle := (inv_reach rfl (hs.step (a := .advance 0) rfl hstep)).bounded.length_le
    rw [hretained.queue] at hle
    exact absurd hle (Nat.not_succ_le_self 1)
  · exact ⟨_, s', rfl, (h.1 Nat.one_pos).1, hrejected⟩

/-- With no capacity a mismatch is neither retained nor rejected. -/
theorem mismatch_dropped_without_capacity :
    (plainConfig 4 0 .RejectNewestAndReport).validate = .ok () ∧
    ∃ s : StubCalls (Filters plainUpRust) (List UInt8) (LolaRxLease plainUpRust),
      Run.Reach (step (plainConfig 4 0 .RejectNewestAndReport)
          (stubBackend plainFrames.numbered)) (fun _ a => a.completes = true) (init []) s ∧
        (s.calls.map fun c => c.taken) = [[(0, leaseB)]] ∧
        frameMatches filtersA leaseB = false ∧
        s.pull.pullMismatchQueue.queue = [] ∧
        s.pull.pullMismatchQueue.rejectedMismatches = 0 ∧
        s.pull.pullMismatchQueue.droppedMismatches = 1 := by
  have hnext := receiveNext_numbered (C := plainFrames) 0 fromSample_sampleB []
  have h₀ : Run.Reach (step (plainConfig 4 0 .RejectNewestAndReport)
      (stubBackend plainFrames.numbered)) (fun _ a => a.completes = true) (init []) (init []) :=
    .refl
  have h₁ := h₀.step rfl (StepCase.send sampleB).step_eq
  have h₂ := h₁.step rfl (StepCase.start 0 filtersA).step_eq
  have h₃ := h₂.step (a := .advance 0) rfl (StepCase.notFound rfl rfl rfl).step_eq
  have h₄ := h₃.step (a := .advance 0) rfl
    (StepCase.mismatched rfl rfl hnext frameMatches_plain.2.1).step_eq
  have hs := h₄.step (a := .advance 0) rfl (StepCase.kept rfl rfl rfl rfl).step_eq
  exact ⟨by decide, _, hs, rfl, frameMatches_plain.2.1, rfl, rfl, rfl⟩

end PullCalls

end LolaTransport
