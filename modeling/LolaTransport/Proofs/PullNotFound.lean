import LolaTransport.Proofs.PullConservation

/-!
# When a `NOT_FOUND` overlooks a frame

A receive searches the mismatch queue once and then takes samples until none is pending.  A frame
that matches is overlooked when another call has it in hand during the search, or takes it after the
search, so that it is in that call's hands or in the queue when this call finds nothing pending.
While no other call does either, a `NOT_FOUND` is the truth.
-/

namespace LolaTransport

variable {Φ S F : Type} {C : FrameCodec Φ S F}

namespace PullCalls

variable {config : LolaTransportConfig} {s s' : StubCalls Φ S F} {a : PullAction Φ S}

/-- A decodable match was sent before the call started, and has been neither returned nor dropped
nor rejected. -/
def Overlooks (C : FrameCodec Φ S F) (s : StubCalls Φ S F) (c : PullCall Φ (ℕ × F)) : Prop :=
  ∃ n x f, (n, x) ∈ s.sent ∧ n < c.since ∧ C.decode x = .ok f ∧
    C.matchesFilter c.filters f = true ∧ n ∉ (inCalls Phase.got s.calls).map Prod.fst ∧
    n ∉ s.dropped.map Prod.fst ∧ n ∉ s.rejected.map Prod.fst

/-- `g` is a frame the call could have returned: a match sent before it started. -/
def Wanted (C : FrameCodec Φ S F) (c : PullCall Φ (ℕ × F)) (g : ℕ × F) : Prop :=
  g.1 < c.since ∧ C.matchesFilter c.filters g.2 = true

/-- No call searches the queue while another has a frame it wants in hand, and none takes from the
pending samples, past its own filters, a frame that a call wants that has searched already. -/
def NoOvertaking (C : FrameCodec Φ S F) (s : StubCalls Φ S F) : PullAction Φ S → Prop
  | .advance i => ∀ c, s.calls[i]? = some c →
    (c.phase = .popQueued → ∀ g ∈ inCalls Phase.held s.calls, ¬ Wanted C c g) ∧
    (c.phase = .takeNext → ∀ g b,
      (stubBackend C.numbered).receiveNext s.pull.backend = (.frame g, b) →
      C.matchesFilter c.filters g.2 = false →
      ∀ j d, j ≠ i → s.calls[j]? = some d → d.phase.searched = true → ¬ Wanted C d g)
  | _ => True

/-- Nothing that is kept is wanted by a call past its search. -/
def NoneOverlooked (C : FrameCodec Φ S F) (s : StubCalls Φ S F) : Prop :=
  ∀ (i : ℕ) (c : PullCall Φ (ℕ × F)), s.calls[i]? = some c → c.phase.searched = true →
    ∀ g ∈ s.keeping, ¬ Wanted C c g

theorem noneOverlooked_step (h : StepCase config (stubBackend C.numbered) s a s')
    (hq : s.pull.pullMismatchQueue.Bounded config.pullMismatchQueueCapacity)
    (hguard : NoOvertaking C s a) (hs : NoneOverlooked C s) : NoneOverlooked C s' := by
  intro j d hd hsearched g hg hwanted
  obtain ⟨c, hc, hfilters, hsince, hphase⟩ := searched_step h hd hsearched
  have hwanted : Wanted C c g := by rwa [Wanted, hfilters, hsince] at hwanted
  rcases mem_keeping_step h hq hg with hold | ⟨i, d', b, rfl, hd', hp, hnext, hf⟩
  · rcases hphase with hphase | ⟨rfl, hp, hqueue⟩
    · exact hs j c hc hphase g hold hwanted
    · rcases List.mem_append.1 hold with hheld | hqueued
      · exact (hguard c hc).1 hp g hheld hwanted
      · have hmatch := hwanted.2
        rw [show C.matchesFilter c.filters g.2 = false from hqueue g hqueued] at hmatch
        cases hmatch
  · -- `g` has just been taken, by the call itself or by another
    by_cases hij : j = i
    · subst hij
      obtain rfl := Option.some.inj (hc.symm.trans hd')
      have hmatch := hwanted.2
      rw [show C.matchesFilter c.filters g.2 = false from hf] at hmatch
      cases hmatch
    · rcases hphase with hphase | ⟨haction, hp', -⟩
      · exact (hguard d' hd').2 hp g b hnext hf j c hij hc hphase hwanted
      · cases haction
        exact hij rfl

/-- The frames that are kept are what their samples decode to. -/
theorem decoded_step (h : StepCase config (stubBackend C.numbered) s a s')
    (hq : s.pull.pullMismatchQueue.Bounded config.pullMismatchQueueCapacity)
    (hs : ∀ g ∈ s.keeping, C.decode (C.sample g.2) = .ok g.2) :
    ∀ g ∈ s'.keeping, C.decode (C.sample g.2) = .ok g.2 := by
  intro g hg
  rcases mem_keeping_step h hq hg with hold | ⟨i, d, b, -, -, -, hnext, -⟩
  · exact hs g hold
  · exact (numbered_decode_ok.1 (stub_frame hnext)).2

/-- A call that returns `NOT_FOUND` has just found nothing pending. -/
theorem notFound_step (hC : C.RejectsAsInvalid) {i : ℕ} {c d : PullCall Φ (ℕ × F)} {e : Fault}
    (h : StepCase config (stubBackend C.numbered) s (.advance i) s')
    (hc : s.calls[i]? = some c) (hd : s'.calls[i]? = some d)
    (he : d.phase = .returned (.error e)) (hcode : e.code? = some .NOT_FOUND) :
    c.phase = .takeNext ∧ s.pull.backend = [] := by
  have hset {t : StubCalls Φ S F} {c' : PullCall Φ (ℕ × F)} {phase : Phase (ℕ × F)}
      (hd : (t.setPhase i c' phase).calls[i]? = some d) : phase = .returned (.error e) := by
    rcases getElem?_setPhase hd with ⟨hne, -⟩ | ⟨-, rfl⟩
    · exact absurd rfl hne
    · exact he
  cases h with
  | found => cases hset hd
  | notFound => cases hset hd
  | nothing hc' hp hnext =>
    obtain rfl := Option.some.inj (hc.symm.trans hc')
    exact ⟨hp, stub_nothing hnext⟩
  | lost _ _ hnext =>
    cases hset hd
    rw [numbered_rejectsAsInvalid hC _ _ (stub_lost hnext)] at hcode
    cases hcode
  | matched => cases hset hd
  | mismatched => cases hset hd
  | kept => cases hset hd
  | refused _ _ hqueued herror =>
    subst hqueued
    cases hset hd
    rw [(queuePullSample_error herror).2.2.2.1] at hcode
    cases hcode

/-- What a run of calls that complete keeps. -/
structure Sound (config : LolaTransportConfig) (C : FrameCodec Φ S F) (s : StubCalls Φ S F) :
    Prop where
  inv : s.Inv config (stubBackend C.numbered)
  completed : inCalls Phase.abandoned s.calls = []
  lost : ∀ x ∈ s.lost, ∃ e, C.decode x.2 = .error e
  decoded : ∀ g ∈ s.keeping, C.decode (C.sample g.2) = .ok g.2

theorem sound_reach {guard : StubCalls Φ S F → PullAction Φ S → Prop}
    (hguard : ∀ s a, guard s a → a.completes = true)
    (hs : Run.Reach (step config (stubBackend C.numbered)) guard (init []) s) :
    s.Sound config C := by
  refine hs.invariant ⟨inv_init rfl, rfl, by simp [init], by simp [keeping, init, inCalls]⟩ ?_
  intro s a s' _ hs hg hstep
  have h := step_cases hstep
  exact ⟨inv_step hs.inv h, abandoned_step h (hguard s a hg) hs.completed, lost_step h hs.lost,
    decoded_step h hs.inv.bounded hs.decoded⟩

/-- A number that is kept is in no other place. -/
theorem Sound.count_le_one (hs : s.Sound config C) (n : ℕ) :
    (s.pull.backend.map Prod.fst).count n +
      ((inCalls Phase.held s.calls).map Prod.fst).count n +
      (s.pull.pullMismatchQueue.queue.map Prod.fst).count n +
      ((inCalls Phase.got s.calls).map Prod.fst).count n +
      (s.dropped.map Prod.fst).count n + (s.rejected.map Prod.fst).count n ≤ 1 := by
  have h := hs.inv.count_le_one n
  change (s.pull.backend.map Prod.fst).count n + (s.lost.map Prod.fst).count n +
    ((inCalls Phase.held s.calls).map Prod.fst).count n +
    (s.pull.pullMismatchQueue.queue.map Prod.fst).count n +
    ((inCalls Phase.got s.calls).map Prod.fst).count n +
    (s.dropped.map Prod.fst).count n + (s.rejected.map Prod.fst).count n +
    ((inCalls Phase.abandoned s.calls).map Prod.fst).count n ≤ 1 at h
  omega

/-- With nothing pending, what is overlooked is what is kept. -/
theorem overlooks_iff (hs : s.Sound config C) (hpending : s.pull.backend = [])
    (c : PullCall Φ (ℕ × F)) : Overlooks C s c ↔ ∃ g ∈ s.keeping, Wanted C c g := by
  have hmem (x : ℕ × S) := hs.inv.places.mem_iff (a := x)
  simp only [places, hs.completed, List.map_nil, List.append_nil, List.mem_append, List.mem_map,
    stubBackend, hpending, List.not_mem_nil, false_or] at hmem
  constructor
  · rintro ⟨n, x, f, hsent, hsince, hdecode, hf, hgot, hdropped, hrejected⟩
    have hkept : ∀ g ∈ s.keeping, C.numbered.sample g = (n, x) →
        ∃ g ∈ s.keeping, Wanted C c g := by
      intro g hg hsample
      have hdecoded := hs.decoded g hg
      obtain ⟨rfl, rfl⟩ := Prod.mk.inj hsample
      rw [hdecode] at hdecoded
      cases hdecoded
      exact ⟨g, hg, hsince, hf⟩
    have hnumber {xs : List (ℕ × F)} {g : ℕ × F} (hg : g ∈ xs)
        (hx : C.numbered.sample g = (n, x)) : n ∈ xs.map Prod.fst := by
      obtain ⟨rfl, -⟩ := Prod.mk.inj hx
      exact List.mem_map_of_mem hg
    rcases (hmem (n, x)).2 hsent with
      ((((hlost | ⟨g, hg, hx⟩) | ⟨g, hg, hx⟩) | ⟨g, hg, hx⟩) | ⟨g, hg, hx⟩) | ⟨g, hg, hx⟩
    · obtain ⟨e, he⟩ := hs.lost _ hlost
      rw [hdecode] at he
      cases he
    · exact hkept g (List.mem_append_left _ hg) hx
    · exact hkept g (List.mem_append_right _ hg) hx
    · exact absurd (hnumber hg hx) hgot
    · exact absurd (hnumber hg hx) hdropped
    · exact absurd (hnumber hg hx) hrejected
  · rintro ⟨g, hg, hsince, hf⟩
    have hone := hs.count_le_one g.1
    have hcount : 0 < ((inCalls Phase.held s.calls).map Prod.fst).count g.1 +
        (s.pull.pullMismatchQueue.queue.map Prod.fst).count g.1 := by
      rw [← List.count_append, ← List.map_append, List.count_pos_iff]
      exact List.mem_map_of_mem hg
    have hsent : (g.1, C.sample g.2) ∈ s.sent := by
      rw [← hmem]
      rcases List.mem_append.1 hg with hg | hg
      · exact .inl (.inl (.inl (.inl (.inr ⟨g, hg, rfl⟩))))
      · exact .inl (.inl (.inl (.inr ⟨g, hg, rfl⟩)))
    have hnot {xs : List (ℕ × F)} (h : (xs.map Prod.fst).count g.1 = 0) :
        g.1 ∉ xs.map Prod.fst := List.count_eq_zero.1 h
    exact ⟨g.1, C.sample g.2, g.2, hsent, hsince, hs.decoded g hg, hf, hnot (by omega),
      hnot (by omega), hnot (by omega)⟩

/-- Of calls that run to completion: while none overtakes another on a frame the other wants, a
`NOT_FOUND` overlooks nothing; and at any `NOT_FOUND` at all, what is overlooked is what is in the
queue or in another call's hands. -/
theorem notFound_overlooks {U : UpRust} {w : PointerWidth} (hU : U.RejectsAsInvalid)
    (config : LolaTransportConfig)
    {s s' : StubCalls (Filters U) (List UInt8) (LolaRxLease U)} {i : ℕ}
    {c d : PullCall (Filters U) (ℕ × LolaRxLease U)} {e : Fault}
    (hs : Run.Reach (step config (stubBackend (lolaFrames U w).numbered))
      (fun _ a => a.completes = true) (init []) s)
    (h : step config (stubBackend (lolaFrames U w).numbered) s (.advance i) = some s')
    (hc : s.calls[i]? = some c) (hd : s'.calls[i]? = some d)
    (he : d.phase = .returned (.error e)) (hcode : e.code? = some .NOT_FOUND) :
    (Run.Reach (step config (stubBackend (lolaFrames U w).numbered))
        (fun s a => a.completes = true ∧ NoOvertaking (lolaFrames U w) s a) (init []) s →
      ¬ Overlooks (lolaFrames U w) s c) ∧
    (¬ Overlooks (lolaFrames U w) s c ↔ ∀ g ∈ s.keeping, ¬ Wanted (lolaFrames U w) c g) := by
  obtain ⟨hp, hpending⟩ := notFound_step (lolaFrames_rejectsAsInvalid hU) (step_cases h) hc hd he
    hcode
  have hiff := overlooks_iff (sound_reach (fun _ _ ha => ha) hs) hpending c
  refine ⟨fun hs => ?_, ?_⟩
  · have hnone : NoneOverlooked (lolaFrames U w) s := by
      refine hs.invariant (I := NoneOverlooked (lolaFrames U w)) ?_ ?_
      · intro j d hj
        simp [init] at hj
      · intro s a s' hs hnone hg hstep
        have hsound := sound_reach (fun _ _ ha => ha.1) hs
        exact noneOverlooked_step (step_cases hstep) hsound.inv.bounded hg.2 hnone
    rw [hiff]
    rintro ⟨g, hg, hwanted⟩
    exact hnone i c hc (by rw [hp]; rfl) g hg hwanted
  · rw [hiff]
    constructor
    · exact fun hno g hg hwanted => hno ⟨g, hg, hwanted⟩
    · rintro hno ⟨g, hg, hwanted⟩
      exact hno g hg hwanted

theorem noOvertaking_search {i : ℕ} {c : PullCall Φ (ℕ × F)} (hc : s.calls[i]? = some c)
    (hp : c.phase = .popQueued) (hheld : inCalls Phase.held s.calls = []) :
    NoOvertaking C s (.advance i) := by
  intro d hd
  obtain rfl := Option.some.inj (hc.symm.trans hd)
  refine ⟨fun _ g hg => ?_, fun h => ?_⟩
  · rw [hheld] at hg
    cases hg
  · rw [hp] at h
    cases h

theorem noOvertaking_take {c : PullCall Φ (ℕ × F)} (hcalls : s.calls = [c])
    (hp : c.phase = .takeNext) : NoOvertaking C s (.advance 0) := by
  intro d hd
  rw [hcalls] at hd ⊢
  obtain rfl : c = d := Option.some.inj hd
  refine ⟨fun h => (by rw [hp] at h; cases h), fun _ g b _ _ j d hj hd => ?_⟩
  obtain ⟨j, rfl⟩ := Nat.exists_eq_succ_of_ne_zero hj
  simp at hd

/-- One call that takes and keeps a mismatch, and then finds nothing. -/
theorem notFound_overlooks_plain :
    ∃ (s : StubCalls (Filters plainUpRust) (List UInt8) (LolaRxLease plainUpRust))
      (c : PullCall (Filters plainUpRust) (ℕ × LolaRxLease plainUpRust)),
      s.pull.pullMismatchQueue.queue = [(0, leaseB)] ∧ s.calls = [c] ∧
        ¬ Overlooks plainFrames s c ∧
        (¬ Overlooks plainFrames s c ↔ ∀ g ∈ s.keeping, ¬ Wanted plainFrames c g) := by
  have hnext := receiveNext_numbered (C := plainFrames) 0 fromSample_sampleB []
  have h₀ : Run.Reach (step (plainConfig 4 1 .DropOldestAndReport)
      (stubBackend plainFrames.numbered))
      (fun s a => a.completes = true ∧ NoOvertaking plainFrames s a) (init []) (init []) := .refl
  have h₁ := h₀.step (a := .send sampleB) ⟨rfl, by trivial⟩ (StepCase.send sampleB).step_eq
  have h₂ := h₁.step (a := .start 0 filtersA) ⟨rfl, by trivial⟩ (StepCase.start 0 filtersA).step_eq
  have h₃ := h₂.step (a := .advance 0) ⟨rfl, noOvertaking_search (i := 0) rfl rfl rfl⟩
    (StepCase.notFound rfl rfl rfl).step_eq
  have h₄ := h₃.step (a := .advance 0) ⟨rfl, noOvertaking_take rfl rfl⟩
    (StepCase.mismatched rfl rfl hnext frameMatches_plain.2.1).step_eq
  have hs := h₄.step (a := .advance 0) ⟨rfl, by rintro _ ⟨⟩; exact ⟨nofun, nofun⟩⟩
    (StepCase.kept rfl rfl rfl rfl).step_eq
  have h := notFound_overlooks plainUpRust_rejectsAsInvalid _ (hs.mono fun _ _ h => h.1)
    (StepCase.nothing (i := 0) rfl rfl rfl).step_eq rfl rfl rfl rfl
  exact ⟨_, _, rfl, rfl, h.1 hs, h.2⟩

/-- A call that has taken the frame another call looks for, and has not kept it yet. -/
theorem notFound_overlooks_held :
    ∃ (s s' : StubCalls (Filters plainUpRust) (List UInt8) (LolaRxLease plainUpRust))
      (c d : PullCall (Filters plainUpRust) (ℕ × LolaRxLease plainUpRust)) (e : Fault),
      Run.Reach (step (plainConfig 4 1 .DropOldestAndReport) (stubBackend plainFrames.numbered))
          (fun _ a => a.completes = true) (init []) s ∧
        step (plainConfig 4 1 .DropOldestAndReport) (stubBackend plainFrames.numbered) s
          (.advance 1) = some s' ∧
        s.calls[1]? = some c ∧ s'.calls[1]? = some d ∧ d.phase = .returned (.error e) ∧
        e.code? = some .NOT_FOUND ∧ Overlooks plainFrames s c := by
  have hnext := receiveNext_numbered (C := plainFrames) 0 fromSample_sampleA []
  have h₀ : Run.Reach (step (plainConfig 4 1 .DropOldestAndReport)
      (stubBackend plainFrames.numbered)) (fun _ a => a.completes = true) (init []) (init []) :=
    .refl
  have h₁ := h₀.step rfl (StepCase.send sampleA).step_eq
  have h₂ := h₁.step rfl (StepCase.start 0 filtersB).step_eq
  have h₃ := h₂.step rfl (StepCase.start 1 filtersA).step_eq
  have h₄ := h₃.step (a := .advance 0) rfl (StepCase.notFound rfl rfl rfl).step_eq
  have h₅ := h₄.step (a := .advance 0) rfl
    (StepCase.mismatched rfl rfl hnext frameMatches_plain.2.2.1).step_eq
  have hs := h₅.step (a := .advance 1) rfl (StepCase.notFound rfl rfl rfl).step_eq
  refine ⟨_, _, _, _, _, hs, (StepCase.nothing (i := 1) rfl rfl rfl).step_eq, rfl, rfl, rfl, rfl,
    0, sampleA, leaseA, ?_, ?_, fromSample_sampleA, frameMatches_plain.1, ?_, ?_, ?_⟩
  · exact List.mem_singleton.2 rfl
  · exact Nat.one_pos
  · exact List.not_mem_nil
  · exact List.not_mem_nil
  · exact List.not_mem_nil

end PullCalls

end LolaTransport
