import Mathlib.Data.List.Nodup
import LolaTransport.Lib.Window
import LolaTransport.Proofs.Pull
import LolaTransport.PullCalls

/-!
# Where the samples are

`StepCase` lists what one step can do.  A step moves samples between the places of `places` and
adds only what is sent (`places_step`), so over any run, whatever its interleaving and
cancellations, every sample sent is in exactly one place (`PullCalls.Inv`).
-/

namespace LolaTransport

variable {Φ S F σ : Type} {V : FrameView Φ (ℕ × S) F}

namespace PullCalls

section Cases

variable (config : LolaTransportConfig) (B : PullBackend V σ)

inductive StepCase (s : PullCalls Φ S F σ) : PullAction Φ S → PullCalls Φ S F σ → Prop
  | send (sample : S) : StepCase s (.send sample) { s with
      pull := sendValidatedZeroCopy B (s.sent.length, sample) s.pull
      sent := s.sent ++ [(s.sent.length, sample)] }
  | start (client : ℕ) (filters : Φ) : StepCase s (.start client filters) { s with
      calls := s.calls ++ [{ filters, client, since := s.sent.length }] }
  | found {i c f q} (hc : s.calls[i]? = some c) (hp : c.phase = .popQueued)
      (h : popQueuedPullSample V c.filters s.pull.pullMismatchQueue = (some f, q)) :
      StepCase s (.advance i)
        ({ s with pull.pullMismatchQueue := q }.setPhase i c (.returned (.ok f)))
  | notFound {i c q} (hc : s.calls[i]? = some c) (hp : c.phase = .popQueued)
      (h : popQueuedPullSample V c.filters s.pull.pullMismatchQueue = (none, q)) :
      StepCase s (.advance i) (s.setPhase i c .takeNext)
  | nothing {i c e b} (hc : s.calls[i]? = some c) (hp : c.phase = .takeNext)
      (h : B.receiveNext s.pull.backend = (.nothing e, b)) :
      StepCase s (.advance i)
        ({ s with pull.backend := b }.setPhase i c (.returned (.error e)))
  | lost {i c x e b} (hc : s.calls[i]? = some c) (hp : c.phase = .takeNext)
      (h : B.receiveNext s.pull.backend = (.lost x e, b)) :
      StepCase s (.advance i)
        ({ s with pull.backend := b, lost := s.lost ++ [x] }.setPhase i c
          (.returned (.error e)))
  | matched {i c f b} (hc : s.calls[i]? = some c) (hp : c.phase = .takeNext)
      (h : B.receiveNext s.pull.backend = (.frame f, b))
      (hf : V.matchesFilter c.filters f = true) :
      StepCase s (.advance i) ({ s with pull.backend := b }.setPhase i
        { c with taken := c.taken ++ [f] } (.returned (.ok f)))
  | mismatched {i c f b} (hc : s.calls[i]? = some c) (hp : c.phase = .takeNext)
      (h : B.receiveNext s.pull.backend = (.frame f, b))
      (hf : V.matchesFilter c.filters f = false) :
      StepCase s (.advance i) ({ s with pull.backend := b }.setPhase i
        { c with taken := c.taken ++ [f] } (.queueing f))
  | kept {i c f q} (hc : s.calls[i]? = some c) (hp : c.phase = .queueing f)
      (hq : q = queuePullSample V config f s.pull.pullMismatchQueue) (h : q.result = .ok ()) :
      StepCase s (.advance i)
        ({ s with
            pull := ⟨B.releaseAll q.letGo s.pull.backend, q.state⟩
            dropped := s.dropped ++ q.letGo }.setPhase i c .takeNext)
  | refused {i c f q e} (hc : s.calls[i]? = some c) (hp : c.phase = .queueing f)
      (hq : q = queuePullSample V config f s.pull.pullMismatchQueue) (h : q.result = .error e) :
      StepCase s (.advance i)
        ({ s with
            pull := ⟨B.releaseAll q.letGo s.pull.backend, q.state⟩
            rejected := s.rejected ++ q.letGo }.setPhase i c (.returned (.error e)))
  | cancelled {i c} (hc : s.calls[i]? = some c)
      (hp : c.phase = .popQueued ∨ c.phase = .takeNext) :
      StepCase s (.cancel i) (s.setPhase i c (.cancelled none))
  | abandoned {i c f} (hc : s.calls[i]? = some c) (hp : c.phase = .queueing f) :
      StepCase s (.cancel i)
        ({ s with pull.backend := B.release f s.pull.backend }.setPhase i c
          (.cancelled (some f)))
  | released {i c f} (hc : s.calls[i]? = some c) (hp : c.phase = .returned (.ok f)) :
      StepCase s (.release i)
        ({ s with pull.backend := B.release f s.pull.backend }.setPhase i c (.released f))

end Cases

variable {config : LolaTransportConfig} {B : PullBackend V σ} {s s' : PullCalls Φ S F σ}
  {a : PullAction Φ S}

theorem step_cases (h : step config B s a = some s') : StepCase config B s a s' := by
  cases a with
  | send sample =>
    cases h
    exact .send sample
  | start client filters =>
    cases h
    exact .start client filters
  | advance i =>
    obtain ⟨c, hc, h⟩ := Option.bind_eq_some_iff.1 h
    unfold advance at h
    split at h
    · rename_i hp
      split at h
      · rename_i f q hpop
        cases h
        exact .found hc hp hpop
      · rename_i q hpop
        cases h
        exact .notFound hc hp hpop
    · rename_i hp
      split at h
      · rename_i e b hnext
        cases h
        exact .nothing hc hp hnext
      · rename_i x e b hnext
        cases h
        exact .lost hc hp hnext
      · rename_i f b hnext
        dsimp only at h
        split_ifs at h with hf
        · cases h
          exact .matched hc hp hnext hf
        · cases h
          exact .mismatched hc hp hnext (by simpa using hf)
    · rename_i f hp
      dsimp only at h
      split at h
      · rename_i hq
        cases h
        exact .kept hc hp rfl hq
      · rename_i e hq
        cases h
        exact .refused hc hp rfl hq
    all_goals cases h
  | cancel i =>
    obtain ⟨c, hc, h⟩ := Option.bind_eq_some_iff.1 h
    unfold cancel at h
    split at h
    · rename_i hp
      cases h
      exact .cancelled hc (.inl hp)
    · rename_i hp
      cases h
      exact .cancelled hc (.inr hp)
    · rename_i f hp
      cases h
      exact .abandoned hc hp
    all_goals cases h
  | release i =>
    obtain ⟨c, hc, h⟩ := Option.bind_eq_some_iff.1 h
    unfold release at h
    split at h
    · rename_i f hp
      cases h
      exact .released hc hp
    · cases h

/-- Every case is a step. -/
theorem StepCase.step_eq (h : StepCase config B s a s') : step config B s a = some s' := by
  cases h with
  | send | start => rfl
  | found hc hp hpop | notFound hc hp hpop =>
    simp only [step, hc, Option.bind_some, advance, hp, hpop]
  | nothing hc hp hnext | lost hc hp hnext =>
    simp only [step, hc, Option.bind_some, advance, hp, hnext]
  | matched hc hp hnext hf | mismatched hc hp hnext hf =>
    simp [step, hc, advance, hp, hnext, hf]
  | kept hc hp hqueued hok =>
    subst hqueued
    simp only [step, hc, Option.bind_some, advance, hp, hok]
  | refused hc hp hqueued herror =>
    subst hqueued
    simp only [step, hc, Option.bind_some, advance, hp, herror]
  | cancelled hc hp => rcases hp with hp | hp <;> simp only [step, hc, Option.bind_some, cancel, hp]
  | abandoned hc hp => simp only [step, hc, Option.bind_some, cancel, hp]
  | released hc hp => simp only [step, hc, Option.bind_some, release, hp]

end PullCalls

/-- The frame a call owns after taking it and before keeping it. -/
def Phase.held : Phase F → List F
  | .queueing frame => [frame]
  | _ => []

/-- The frame a call was given to return. -/
def Phase.got : Phase F → List F
  | .returned (.ok frame) => [frame]
  | .released frame => [frame]
  | _ => []

/-- The frame that went with a cancelled call. -/
def Phase.abandoned : Phase F → List F
  | .cancelled (some frame) => [frame]
  | _ => []

/-- The call has searched the queue and is not over. -/
def Phase.searched : Phase F → Bool
  | .takeNext => true
  | .queueing _ => true
  | _ => false

/-- The call has one of its three locks to wait for. -/
def Phase.running : Phase F → Bool
  | .popQueued => true
  | .takeNext => true
  | .queueing _ => true
  | _ => false

namespace PullCalls

def inCalls (place : Phase F → List F) (calls : List (PullCall Φ F)) : List F :=
  calls.flatMap fun c => place c.phase

/-- Everything sent is in one of these, end to end. -/
def places (B : PullBackend V σ) (s : PullCalls Φ S F σ) : List (ℕ × S) :=
  B.samples s.pull.backend ++ s.lost ++ (inCalls Phase.held s.calls).map V.sample ++
    s.pull.pullMismatchQueue.queue.map V.sample ++ (inCalls Phase.got s.calls).map V.sample ++
    s.dropped.map V.sample ++ s.rejected.map V.sample ++
    (inCalls Phase.abandoned s.calls).map V.sample

/-- The sample of the frame a call in this phase accounts for. -/
def own (V : FrameView Φ (ℕ × S) F) (phase : Phase F) : List (ℕ × S) :=
  (phase.held ++ phase.got ++ phase.abandoned).map V.sample

variable {config : LolaTransportConfig} {B : PullBackend V σ} {s s' : PullCalls Φ S F σ}
  {a : PullAction Φ S}

theorem count_inCalls_set [BEq S] {calls : List (PullCall Φ F)} {i : ℕ}
    {c : PullCall Φ F} (hc : calls[i]? = some c) (c' : PullCall Φ F) (place : Phase F → List F)
    (x : ℕ × S) :
    ((inCalls place (calls.set i c')).map V.sample).count x +
        ((place c.phase).map V.sample).count x =
      ((inCalls place calls).map V.sample).count x + ((place c'.phase).map V.sample).count x := by
  simp only [inCalls, List.map_flatMap]
  exact List.count_flatMap_set hc c' (fun c => (place c.phase).map V.sample) x

/-- A call that changes its phase changes the places by what it accounts for. -/
theorem count_places_setPhase [BEq S] {t : PullCalls Φ S F σ} {i : ℕ} {c c' : PullCall Φ F}
    {before after : Phase F} {x : ℕ × S} {m n : ℕ} (hc : t.calls[i]? = some c)
    (hp : c.phase = before)
    (h : (t.places B).count x + (own V after).count x + m = n + (own V before).count x) :
    ((t.setPhase i c' after).places B).count x + m = n := by
  subst hp
  have hheld := count_inCalls_set (V := V) hc { c' with phase := after } Phase.held x
  have hgot := count_inCalls_set (V := V) hc { c' with phase := after } Phase.got x
  have habandoned := count_inCalls_set (V := V) hc { c' with phase := after } Phase.abandoned x
  dsimp only at hheld hgot habandoned
  simp only [places, own, setPhase, List.map_append, List.count_append] at h ⊢
  omega

@[simp] theorem own_popQueued : own V (.popQueued : Phase F) = [] := rfl

@[simp] theorem own_takeNext : own V (.takeNext : Phase F) = [] := rfl

@[simp] theorem own_queueing (f : F) : own V (.queueing f) = [V.sample f] := rfl

@[simp] theorem own_returned_ok (f : F) : own V (.returned (.ok f)) = [V.sample f] := rfl

@[simp] theorem own_returned_error (e : Fault) :
    own V (.returned (.error e) : Phase F) = [] := rfl

@[simp] theorem own_released (f : F) : own V (.released f) = [V.sample f] := rfl

@[simp] theorem own_cancelled_some (f : F) : own V (.cancelled (some f)) = [V.sample f] := rfl

/-- A step adds to the places what it sends, and otherwise moves samples between them. -/
theorem count_places_step [DecidableEq S] (h : StepCase config B s a s')
    (hq : s.pull.pullMismatchQueue.Bounded config.pullMismatchQueueCapacity) (x : ℕ × S) :
    (s'.places B).count x + s.sent.count x = (s.places B).count x + s'.sent.count x := by
  have hsamples := congrArg (List.count x) (B.samples_receiveNext s.pull.backend)
  rw [List.count_append] at hsamples
  cases h with
  | send sample =>
    simp only [places, sendValidatedZeroCopy, B.samples_arrive, List.count_append]
    omega
  | start client filters =>
    simp [places, inCalls, Phase.held, Phase.got, Phase.abandoned]
  | @found i c f q hc hp hpop =>
    obtain ⟨q₁, q₂, hqueue, -, -, rfl⟩ := popQueuedPullSample_some hpop
    refine count_places_setPhase hc hp ?_
    simp only [places, own_popQueued, own_returned_ok, List.count_append, hqueue, List.map_append,
      List.map_cons, List.count_cons, List.count_nil, setPhase]
    omega
  | @notFound i c q hc hp hpop =>
    refine count_places_setPhase hc hp ?_
    rw [own_takeNext, own_popQueued]
    rfl
  | @nothing i c e b hc hp hnext =>
    refine count_places_setPhase hc hp ?_
    rw [hnext] at hsamples
    simp only [places, own_takeNext, own_returned_error, Taken.removed, List.count_append,
      List.count_nil, setPhase] at hsamples ⊢
    omega
  | @lost i c y e b hc hp hnext =>
    refine count_places_setPhase hc hp ?_
    rw [hnext] at hsamples
    simp only [places, own_takeNext, own_returned_error, Taken.removed, List.count_append,
      List.count_nil, setPhase] at hsamples ⊢
    omega
  | @matched i c f b hc hp hnext hf =>
    refine count_places_setPhase hc hp ?_
    rw [hnext] at hsamples
    simp only [places, own_takeNext, own_returned_ok, Taken.removed, List.count_append,
      List.count_nil, setPhase] at hsamples ⊢
    omega
  | @mismatched i c f b hc hp hnext hf =>
    refine count_places_setPhase hc hp ?_
    rw [hnext] at hsamples
    simp only [places, own_takeNext, own_queueing, Taken.removed, List.count_append,
      List.count_nil, setPhase] at hsamples ⊢
    omega
  | @kept i c f q hc hp hqueued hok =>
    subst hqueued
    refine count_places_setPhase hc hp ?_
    have happ := congrArg (List.count x ∘ List.map V.sample) (queuePullSample_ok hq hok).1
    simp only [Function.comp, List.map_append, List.count_append, List.map_cons, List.map_nil]
      at happ
    simp only [places, own_takeNext, own_queueing, List.count_append, List.map_append,
      List.count_nil, B.samples_releaseAll, setPhase]
    omega
  | @refused i c f q e hc hp hqueued herror =>
    subst hqueued
    refine count_places_setPhase hc hp ?_
    obtain ⟨-, -, -, -, hletGo, hqueue, -, -⟩ := queuePullSample_error herror
    simp only [places, own_returned_error, own_queueing, List.count_append, List.map_append,
      List.count_nil, B.samples_releaseAll, setPhase, hletGo, hqueue, List.map_cons, List.map_nil]
    omega
  | @cancelled i c hc hp =>
    rcases hp with hp | hp
    · exact count_places_setPhase hc hp rfl
    · exact count_places_setPhase hc hp rfl
  | @abandoned i c f hc hp =>
    refine count_places_setPhase hc hp ?_
    simp only [places, own_cancelled_some, own_queueing, B.samples_release, setPhase]
    omega
  | @released i c f hc hp =>
    refine count_places_setPhase hc hp ?_
    simp only [places, own_returned_ok, own_released, B.samples_release, setPhase]
    omega

section Reachable

/-- The queue is within its capacity, everything sent is in one place, the samples are numbered in
the order they were sent, and the counters count what the queue let go of. -/
structure Inv (config : LolaTransportConfig) (B : PullBackend V σ) (s : PullCalls Φ S F σ) :
    Prop where
  bounded : s.pull.pullMismatchQueue.Bounded config.pullMismatchQueueCapacity
  places : (s.places B).Perm s.sent
  numbered : s.sent.map Prod.fst = List.range s.sent.length
  dropped : s.pull.pullMismatchQueue.droppedMismatches = min u64Max s.dropped.length
  rejected : s.pull.pullMismatchQueue.rejectedMismatches = min u64Max s.rejected.length

theorem inv_init {b : σ} (hb : B.samples b = []) : (init b : PullCalls Φ S F σ).Inv config B where
  bounded := PullMismatchQueueState.bounded_empty _
  places := by simp [PullCalls.places, init, inCalls, hb]
  numbered := rfl
  dropped := (Nat.min_zero _).symm
  rejected := (Nat.min_zero _).symm

/-- Only a send changes what was sent. -/
theorem sent_step (h : StepCase config B s a s') :
    s'.sent = s.sent ∨ ∃ x, s'.sent = s.sent ++ [(s.sent.length, x)] := by
  cases h with
  | send x => exact .inr ⟨x, rfl⟩
  | _ => exact .inl rfl

theorem inv_step (hs : s.Inv config B) (h : StepCase config B s a s') : s'.Inv config B := by
  have hplaces : (s'.places B).Perm s'.sent := by
    classical
    rw [List.perm_iff_count]
    intro x
    have hx := count_places_step h hs.bounded x
    rw [hs.places.count_eq x] at hx
    omega
  have hnumbered : s'.sent.map Prod.fst = List.range s'.sent.length := by
    rcases sent_step h with hsent | ⟨x, hsent⟩
    · rw [hsent]
      exact hs.numbered
    · rw [hsent, List.map_append, hs.numbered, List.length_append, List.length_singleton,
        List.range_succ]
      rfl
  have hdropped := hs.dropped
  have hrejected := hs.rejected
  cases h with
  | @found i c f q hc hp hpop =>
    obtain ⟨q₁, q₂, hqueue, -, -, rfl⟩ := popQueuedPullSample_some hpop
    have hle := hs.bounded.length_le
    rw [hqueue, List.length_append, List.length_cons] at hle
    refine ⟨⟨?_, hs.bounded.dropped_le, hs.bounded.rejected_le⟩, hplaces, hnumbered, hdropped,
      hrejected⟩
    simp only [setPhase, List.length_append]
    omega
  | @kept i c f q hc hp hqueued hok =>
    subst hqueued
    obtain ⟨-, -, hd, hr⟩ := queuePullSample_ok hs.bounded hok
    refine ⟨queuePullSample_bounded f hs.bounded, hplaces, hnumbered, ?_, ?_⟩
    · simp only [setPhase, hd, hdropped, List.length_append]
      omega
    · simp only [setPhase, hr, hrejected]
  | @refused i c f q e hc hp hqueued herror =>
    subst hqueued
    obtain ⟨-, -, -, -, hletGo, -, hd, hr⟩ := queuePullSample_error herror
    refine ⟨queuePullSample_bounded f hs.bounded, hplaces, hnumbered, ?_, ?_⟩
    · simp only [setPhase, hd, hdropped]
    · simp only [setPhase, hr, hrejected, hletGo, List.length_append, List.length_singleton,
        saturatingSucc]
      omega
  | _ => exact ⟨hs.bounded, hplaces, hnumbered, hdropped, hrejected⟩

theorem inv_reach {guard : PullCalls Φ S F σ → PullAction Φ S → Prop} {b : σ}
    (hb : B.samples b = []) (hs : Run.Reach (step config B) guard (init b) s) :
    s.Inv config B :=
  hs.invariant (inv_init hb) fun _ _ _ _ hs _ h => inv_step hs (step_cases h)

/-- Where the queue gives no reason, no mismatch has come to it. -/
def Explained (s : PullCalls Φ S F σ) : Prop :=
  s.pull.pullMismatchQueue.lastMismatchReason = none →
    s.pull.pullMismatchQueue.queue = [] ∧ s.dropped = [] ∧ s.rejected = []

theorem explained_step (hs : s.Explained) (h : StepCase config B s a s') : s'.Explained := by
  cases h with
  | found hc hp hpop =>
    obtain ⟨q₁, q₂, hqueue, -, -, rfl⟩ := popQueuedPullSample_some hpop
    intro hreason
    rw [(hs hreason).1] at hqueue
    simp at hqueue
  | kept hc hp hqueued hok =>
    subst hqueued
    exact fun hreason => absurd hreason (queuePullSample_reason _ _)
  | refused hc hp hqueued herror =>
    subst hqueued
    exact fun hreason => absurd hreason (queuePullSample_reason _ _)
  | _ => exact hs

/-- In every state reached the diagnostics give a depth within the capacity and, up to saturation,
the numbers of mismatches dropped and rejected, and a reason if there has been any mismatch. -/
theorem diagnostics_reach {guard : PullCalls Φ S F σ → PullAction Φ S → Prop} {b : σ}
    (hb : B.samples b = []) (hs : Run.Reach (step config B) guard (init b) s) :
    s.pull.pullMismatchQueueDiagnostics.currentDepth ≤ config.pullMismatchQueueCapacity ∧
      s.pull.pullMismatchQueueDiagnostics.droppedMismatches = min u64Max s.dropped.length ∧
      s.pull.pullMismatchQueueDiagnostics.rejectedMismatches = min u64Max s.rejected.length ∧
      (s.pull.pullMismatchQueueDiagnostics.lastMismatchReason = none →
        s.pull.pullMismatchQueueDiagnostics.currentDepth = 0 ∧ s.dropped = [] ∧
          s.rejected = []) := by
  have hinv : s.Inv config B := inv_reach hb hs
  have hexplained : s.Explained :=
    hs.invariant (fun _ => ⟨rfl, rfl, rfl⟩) fun _ _ _ _ hs _ h => explained_step hs (step_cases h)
  refine ⟨hinv.bounded.length_le, hinv.dropped, hinv.rejected, fun hreason => ?_⟩
  obtain ⟨hqueue, hnone⟩ := hexplained hreason
  exact ⟨congrArg List.length hqueue, hnone⟩

/-- Everything sent is in one place only. -/
theorem Inv.nodup (hs : s.Inv config B) : ((s.places B).map Prod.fst).Nodup := by
  rw [(hs.places.map Prod.fst).nodup_iff, hs.numbered]
  exact List.nodup_range

/-- A number occurs once in one of the places. -/
theorem Inv.count_le_one (hs : s.Inv config B) (n : ℕ) :
    ((B.samples s.pull.backend).map Prod.fst).count n + (s.lost.map Prod.fst).count n +
      ((inCalls Phase.held s.calls).map fun g => (V.sample g).1).count n +
      (s.pull.pullMismatchQueue.queue.map fun g => (V.sample g).1).count n +
      ((inCalls Phase.got s.calls).map fun g => (V.sample g).1).count n +
      (s.dropped.map fun g => (V.sample g).1).count n +
      (s.rejected.map fun g => (V.sample g).1).count n +
      ((inCalls Phase.abandoned s.calls).map fun g => (V.sample g).1).count n ≤ 1 := by
  have h := List.nodup_iff_count_le_one.1 hs.nodup n
  simp only [PullCalls.places, List.map_append, List.map_map, List.count_append] at h
  exact h

end Reachable

section Keeping

theorem getElem?_setPhase {i j : ℕ} {c d : PullCall Φ F} {phase : Phase F}
    (h : (s.setPhase i c phase).calls[j]? = some d) :
    j ≠ i ∧ s.calls[j]? = some d ∨ j = i ∧ d = { c with phase } := by
  rw [setPhase, List.getElem?_set] at h
  split_ifs at h with hij hlt
  · exact .inr ⟨hij.symm, (Option.some.inj h).symm⟩
  · exact .inl ⟨fun hji => hij hji.symm, h⟩

theorem mem_inCalls {place : Phase F → List F} {calls : List (PullCall Φ F)} {g : F} :
    g ∈ inCalls place calls ↔
      ∃ (i : ℕ) (c : PullCall Φ F), calls[i]? = some c ∧ g ∈ place c.phase := by
  rw [inCalls, List.mem_flatMap]
  constructor
  · rintro ⟨c, hc, hg⟩
    obtain ⟨i, hi⟩ := List.mem_iff_getElem?.1 hc
    exact ⟨i, c, hi, hg⟩
  · rintro ⟨i, c, hi, hg⟩
    exact ⟨c, List.mem_of_getElem? hi, hg⟩

theorem mem_inCalls_set {place : Phase F → List F} {calls : List (PullCall Φ F)} {i : ℕ}
    {c : PullCall Φ F} {g : F} (h : g ∈ inCalls place (calls.set i c)) :
    g ∈ place c.phase ∨ g ∈ inCalls place calls := by
  rw [inCalls, List.mem_flatMap] at h
  obtain ⟨d, hd, hg⟩ := h
  rcases List.mem_or_eq_of_mem_set hd with hd | rfl
  · exact .inr (List.mem_flatMap.2 ⟨d, hd, hg⟩)
  · exact .inl hg

/-- The frames calls hold and the frames in the queue. -/
def keeping (s : PullCalls Φ S F σ) : List F :=
  inCalls Phase.held s.calls ++ s.pull.pullMismatchQueue.queue

/-- A frame is kept for as long as it was, or since it was taken. -/
theorem mem_keeping_step (h : StepCase config B s a s')
    (hq : s.pull.pullMismatchQueue.Bounded config.pullMismatchQueueCapacity) {g : F}
    (hg : g ∈ s'.keeping) :
    g ∈ s.keeping ∨ ∃ i c b, a = .advance i ∧ s.calls[i]? = some c ∧ c.phase = .takeNext ∧
      B.receiveNext s.pull.backend = (.frame g, b) ∧ V.matchesFilter c.filters g = false := by
  have hset {i : ℕ} {c : PullCall Φ F} (hc : c.phase.held = [])
      (hg : g ∈ inCalls Phase.held (s.calls.set i c) ++ s.pull.pullMismatchQueue.queue) :
      g ∈ s.keeping := by
    rcases List.mem_append.1 hg with hg | hg
    · rcases mem_inCalls_set hg with hg | hg
      · rw [hc] at hg
        cases hg
      · exact List.mem_append_left _ hg
    · exact List.mem_append_right _ hg
  cases h with
  | send x => exact .inl hg
  | start client filters =>
    refine .inl ?_
    simpa [keeping, inCalls, Phase.held] using hg
  | @found i c f q hc hp hpop =>
    obtain ⟨q₁, q₂, hqueue, -, -, rfl⟩ := popQueuedPullSample_some hpop
    refine .inl (hset (i := i) (c := { c with phase := .returned (.ok f) }) rfl ?_)
    simp only [keeping, setPhase, List.mem_append, hqueue, List.mem_cons] at hg ⊢
    tauto
  | notFound hc hp hpop => exact .inl (hset rfl hg)
  | nothing hc hp hnext => exact .inl (hset rfl hg)
  | lost hc hp hnext => exact .inl (hset rfl hg)
  | matched hc hp hnext hf => exact .inl (hset rfl hg)
  | @mismatched i c f b hc hp hnext hf =>
    rcases List.mem_append.1 hg with hg | hg
    · rcases mem_inCalls_set hg with hg | hg
      · obtain rfl := List.mem_singleton.1 hg
        exact .inr ⟨i, c, b, rfl, hc, hp, hnext, hf⟩
      · exact .inl (List.mem_append_left _ hg)
    · exact .inl (List.mem_append_right _ hg)
  | @kept i c f q hc hp hqueued hok =>
    subst hqueued
    have hheld : f ∈ inCalls Phase.held s.calls :=
      mem_inCalls.2 ⟨i, c, hc, by simp [hp, Phase.held]⟩
    rcases List.mem_append.1 hg with hg | hg
    · exact .inl (hset rfl (List.mem_append_left _ hg))
    · rcases List.mem_append.1 ((queuePullSample_sublist _ hq).subset hg) with hg | hg
      · exact .inl (List.mem_append_right _ hg)
      · rw [List.mem_singleton.1 hg]
        exact .inl (List.mem_append_left _ hheld)
  | @refused i c f q e hc hp hqueued herror =>
    subst hqueued
    rcases List.mem_append.1 hg with hg | hg
    · exact .inl (hset rfl (List.mem_append_left _ hg))
    · rw [setPhase, (queuePullSample_error herror).2.2.2.2.2.1] at hg
      exact .inl (List.mem_append_right _ hg)
  | cancelled hc hp => exact .inl (hset rfl hg)
  | abandoned hc hp => exact .inl (hset rfl hg)
  | released hc hp => exact .inl (hset rfl hg)

end Keeping

section Calls

/-- A call past its search was so before, or has just searched in vain. -/
theorem searched_step (h : StepCase config B s a s') {j : ℕ}
    {d : PullCall Φ F} (hd : s'.calls[j]? = some d) (hsearched : d.phase.searched = true) :
    ∃ c, s.calls[j]? = some c ∧ d.filters = c.filters ∧ d.since = c.since ∧
      (c.phase.searched = true ∨ a = .advance j ∧ c.phase = .popQueued ∧
        ∀ g ∈ s.pull.pullMismatchQueue.queue, V.matchesFilter c.filters g = false) := by
  have hset {t : PullCalls Φ S F σ} {i : ℕ} {c c' : PullCall Φ F}
      {phase : Phase F} (hd : (t.setPhase i c' phase).calls[j]? = some d)
      (ht : t.calls = s.calls) (hc : s.calls[i]? = some c) (hfilters : c'.filters = c.filters)
      (hsince : c'.since = c.since) (hphase : phase.searched = true → c.phase.searched = true) :
      ∃ c, s.calls[j]? = some c ∧ d.filters = c.filters ∧ d.since = c.since ∧
        (c.phase.searched = true ∨ a = .advance j ∧ c.phase = .popQueued ∧
          ∀ g ∈ s.pull.pullMismatchQueue.queue, V.matchesFilter c.filters g = false) := by
    rcases getElem?_setPhase hd with ⟨-, hd⟩ | ⟨rfl, rfl⟩
    · rw [ht] at hd
      exact ⟨d, hd, rfl, rfl, .inl hsearched⟩
    · exact ⟨c, hc, hfilters, hsince, .inl (hphase hsearched)⟩
  cases h with
  | send x => exact ⟨d, hd, rfl, rfl, .inl hsearched⟩
  | start client filters =>
    rcases List.getElem?_concat_eq_some hd with hd | ⟨-, rfl⟩
    · exact ⟨d, hd, rfl, rfl, .inl hsearched⟩
    · cases hsearched
  | @notFound i c q hc hp hpop =>
    rcases getElem?_setPhase hd with ⟨-, hd⟩ | ⟨rfl, rfl⟩
    · exact ⟨d, hd, rfl, rfl, .inl hsearched⟩
    · exact ⟨c, hc, rfl, rfl, .inr ⟨rfl, hp, (popQueuedPullSample_none hpop).2⟩⟩
  | mismatched hc hp _ _ | kept hc hp _ _ =>
    exact hset hd rfl hc rfl rfl fun _ => by rw [hp]; rfl
  | found hc | nothing hc | lost hc | matched hc | refused hc | cancelled hc | abandoned hc
  | released hc => exact hset hd rfl hc rfl rfl nofun

/-- A call that runs was running before, or has just started. -/
theorem running_step (h : StepCase config B s a s') {j : ℕ} {d : PullCall Φ F}
    (hd : s'.calls[j]? = some d) :
    (∃ c, s.calls[j]? = some c ∧ d.client = c.client ∧ d.filters = c.filters ∧
      (d.phase.running = true → c.phase.running = true)) ∨
    a = .start d.client d.filters ∧ j = s.calls.length := by
  have hset {t : PullCalls Φ S F σ} {i : ℕ} {c c' : PullCall Φ F} {phase : Phase F}
      (hd : (t.setPhase i c' phase).calls[j]? = some d) (ht : t.calls = s.calls)
      (hc : s.calls[i]? = some c) (hclient : c'.client = c.client)
      (hfilters : c'.filters = c.filters) (hphase : phase.running = true → c.phase.running = true) :
      (∃ c, s.calls[j]? = some c ∧ d.client = c.client ∧ d.filters = c.filters ∧
        (d.phase.running = true → c.phase.running = true)) ∨
      a = .start d.client d.filters ∧ j = s.calls.length := by
    rcases getElem?_setPhase hd with ⟨-, hd⟩ | ⟨rfl, rfl⟩
    · rw [ht] at hd
      exact .inl ⟨d, hd, rfl, rfl, id⟩
    · exact .inl ⟨c, hc, hclient, hfilters, hphase⟩
  cases h with
  | send x => exact .inl ⟨d, hd, rfl, rfl, id⟩
  | start client filters =>
    rcases List.getElem?_concat_eq_some hd with hd | ⟨hj, rfl⟩
    · exact .inl ⟨d, hd, rfl, rfl, id⟩
    · exact .inr ⟨rfl, hj⟩
  | found hc hp _ | notFound hc hp _ | nothing hc hp _ | lost hc hp _ | matched hc hp _ _
  | mismatched hc hp _ _ | kept hc hp _ _ | refused hc hp _ _ | abandoned hc hp =>
    exact hset hd rfl hc rfl rfl fun _ => by rw [hp]; rfl
  | cancelled hc hp | released hc hp => exact hset hd rfl hc rfl rfl nofun

/-- The next critical section of the call returns `g`. -/
def Receives (B : PullBackend V σ) (s : PullCalls Φ S F σ) (c : PullCall Φ F) (g : F) : Prop :=
  (c.phase = .popQueued ∧
    ∃ q, popQueuedPullSample V c.filters s.pull.pullMismatchQueue = (some g, q)) ∨
  c.phase = .takeNext ∧ (∃ b, B.receiveNext s.pull.backend = (.frame g, b)) ∧
    V.matchesFilter c.filters g = true

/-- What a call has got it had got before, or has just received. -/
theorem got_step (h : StepCase config B s a s') {j : ℕ} {d : PullCall Φ F} {g : F}
    (hd : s'.calls[j]? = some d) (hg : g ∈ d.phase.got) :
    ∃ c, s.calls[j]? = some c ∧ d.client = c.client ∧
      (g ∈ c.phase.got ∨ a = .advance j ∧ s.Receives B c g) := by
  have hset {t : PullCalls Φ S F σ} {i : ℕ} {c c' : PullCall Φ F} {phase : Phase F}
      (hd : (t.setPhase i c' phase).calls[j]? = some d) (ht : t.calls = s.calls)
      (hc : s.calls[i]? = some c) (hclient : c'.client = c.client)
      (hphase : g ∈ phase.got → g ∈ c.phase.got ∨ a = .advance i ∧ s.Receives B c g) :
      ∃ c, s.calls[j]? = some c ∧ d.client = c.client ∧
        (g ∈ c.phase.got ∨ a = .advance j ∧ s.Receives B c g) := by
    rcases getElem?_setPhase hd with ⟨-, hd⟩ | ⟨rfl, rfl⟩
    · rw [ht] at hd
      exact ⟨d, hd, rfl, .inl hg⟩
    · exact ⟨c, hc, hclient, hphase hg⟩
  cases h with
  | send x => exact ⟨d, hd, rfl, .inl hg⟩
  | start client filters =>
    rcases List.getElem?_concat_eq_some hd with hd | ⟨-, rfl⟩
    · exact ⟨d, hd, rfl, .inl hg⟩
    · cases hg
  | found hc hp hpop =>
    refine hset hd rfl hc rfl fun hg => .inr ⟨rfl, .inl ⟨hp, ?_⟩⟩
    obtain rfl := List.mem_singleton.1 hg
    exact ⟨_, hpop⟩
  | matched hc hp hnext hf =>
    refine hset hd rfl hc rfl fun hg => .inr ⟨rfl, .inr ⟨hp, ?_⟩⟩
    obtain rfl := List.mem_singleton.1 hg
    exact ⟨⟨_, hnext⟩, hf⟩
  | released hc hp => exact hset hd rfl hc rfl fun hg => .inl (by rwa [hp])
  | notFound hc | nothing hc | lost hc | mismatched hc | kept hc | refused hc | cancelled hc
  | abandoned hc => exact hset hd rfl hc rfl nofun

end Calls

end PullCalls

end LolaTransport
