import LolaTransport.Proofs.PlainFrames
import LolaTransport.Proofs.PullConservation

/-!
# The order in which one client gets its frames

Samples wait in the order they were sent, so a client can be given a frame ahead of an older one
only while the older one is in another call's hands or in the mismatch queue.  What keeps that from
happening is that nobody takes a frame the client looks for behind its back: `Undisturbed`.
-/

namespace LolaTransport

variable {Φ S F σ : Type} {V : FrameView Φ (ℕ × S) F}

/-- The place of the frame's sample in the order of sending. -/
def FrameView.number (V : FrameView Φ (ℕ × S) F) (g : F) : ℕ := (V.sample g).1

namespace PullCalls

variable {config : LolaTransportConfig} {B : PullBackend V σ} {s s' : PullCalls Φ S F σ}
  {a : PullAction Φ S} {filters : Φ} {client : ℕ}

section Taken

/-- What is still to be taken is the end of what was sent. -/
def Fifo (B : PullBackend V σ) (s : PullCalls Φ S F σ) : Prop :=
  ∃ xs, s.sent = xs ++ B.samples s.pull.backend

theorem fifo_step (h : StepCase config B s a s') (hs : s.Fifo B) : s'.Fifo B := by
  obtain ⟨xs, hxs⟩ := hs
  have hnext {t : Taken (ℕ × S) F} {b : σ} (h : B.receiveNext s.pull.backend = (t, b)) :
      ∃ xs, s.sent = xs ++ B.samples b := by
    have hsamples := B.samples_receiveNext s.pull.backend
    rw [h] at hsamples
    exact ⟨xs ++ t.removed (V := V), by rw [hxs, ← hsamples, List.append_assoc]⟩
  cases h with
  | send x =>
    refine ⟨xs, ?_⟩
    simp only [sendValidatedZeroCopy, B.samples_arrive, hxs, List.append_assoc]
  | nothing _ _ h | lost _ _ h | matched _ _ h _ | mismatched _ _ h _ => exact hnext h
  | kept _ _ _ _ | refused _ _ _ _ => exact ⟨xs, by simpa [setPhase] using hxs⟩
  | abandoned _ _ | released _ _ => exact ⟨xs, by simpa [setPhase, B.samples_release] using hxs⟩
  | start | found | notFound | cancelled => exact ⟨xs, hxs⟩

/-- The frame taken next is younger than any that is kept or has been returned. -/
theorem older_of_receiveNext (hs : s.Inv config B) (hfifo : s.Fifo B) {f : F} {b : σ}
    (h : B.receiveNext s.pull.backend = (.frame f, b)) {g : F}
    (hg : g ∈ s.keeping ∨ g ∈ inCalls Phase.got s.calls) : V.number g < V.number f := by
  obtain ⟨xs, hxs⟩ := hfifo
  have hsamples := B.samples_receiveNext s.pull.backend
  simp only [h, Taken.removed, List.singleton_append] at hsamples
  have hrange : xs.map Prod.fst ++ V.number f :: (B.samples b).map Prod.fst =
      List.range s.sent.length := by
    rw [← hs.numbered, hxs, ← hsamples, List.map_append, List.map_cons]
    rfl
  have hlen := congrArg List.length hxs
  rw [← hsamples, List.length_append, List.length_cons] at hlen
  have hf : V.number f = xs.length := by
    have hget := congrArg (·[xs.length]?) hrange
    simpa [hlen] using hget
  have hold : V.sample g ∈ xs := by
    -- the other places together are what was sent before
    have hperm := hs.places.trans (List.Perm.of_eq hxs)
    simp only [places, List.append_assoc] at hperm
    have hothers := (List.perm_append_left_iff _).1 (hperm.trans List.perm_append_comm)
    rw [← hothers.mem_iff]
    simp only [keeping, List.mem_append] at hg
    rcases hg with (hg | hg) | hg
    all_goals simp [List.mem_map_of_mem hg]
  have hlt : V.number g ∈ List.range xs.length := by
    have htake := congrArg (List.take xs.length) hrange
    rw [List.take_left' (List.length_map _), List.take_range] at htake
    rw [← min_eq_left (by omega : xs.length ≤ s.sent.length), ← htake]
    exact List.mem_map_of_mem hold
  rw [hf]
  exact List.mem_range.1 hlt

end Taken

section Ordered

/-- A client whose calls follow each other, all with the same filters, and other clients that look
for none of its frames. -/
def ClientScope (V : FrameView Φ (ℕ × S) F) (filters : Φ) (client : ℕ) (s : PullCalls Φ S F σ) :
    PullAction Φ S → Prop
  | .start client' filters' =>
    (client' = client → filters' = filters ∧
      ∀ (i : ℕ) (c : PullCall Φ F), s.calls[i]? = some c → c.client = client →
        c.phase.running = false) ∧
    (client' ≠ client → ∀ g, V.matchesFilter filters g = true →
      V.matchesFilter filters' g = false)
  | _ => True

/-- Later calls of the client have got later frames. -/
def InOrder (V : FrameView Φ (ℕ × S) F) (client : ℕ) (s : PullCalls Φ S F σ) : Prop :=
  ∀ (i j : ℕ) (c d : PullCall Φ F) (g h : F), i < j → s.calls[i]? = some c →
    s.calls[j]? = some d → c.client = client → d.client = client → g ∈ c.phase.got →
    h ∈ d.phase.got → V.number g < V.number h

/-- The client is given no frame while an older one it looks for is kept. -/
def NoneOlder (B : PullBackend V σ) (filters : Φ) (client : ℕ) (s : PullCalls Φ S F σ) :
    PullAction Φ S → Prop
  | .advance i => ∀ c, s.calls[i]? = some c → c.client = client → ∀ x, s.Receives B c x →
    ∀ g ∈ s.keeping, V.matchesFilter filters g = true → V.number x ≤ V.number g
  | _ => True

/-- The client's calls have its filters, and only the last of them can be running. -/
structure OneAfterAnother (filters : Φ) (client : ℕ) (s : PullCalls Φ S F σ) : Prop where
  filters_eq : ∀ (i : ℕ) (c : PullCall Φ F), s.calls[i]? = some c → c.client = client →
    c.filters = filters
  earlier_over : ∀ (i j : ℕ) (c d : PullCall Φ F), i < j → s.calls[i]? = some c →
    s.calls[j]? = some d → c.client = client → d.client = client → c.phase.running = false

theorem oneAfterAnother_step (h : StepCase config B s a s')
    (hscope : ClientScope V filters client s a) (hs : s.OneAfterAnother filters client) :
    s'.OneAfterAnother filters client := by
  constructor
  · intro j d hd hclient
    rcases running_step h hd with ⟨c, hc, heq, hfilters, -⟩ | ⟨rfl, -⟩
    · rw [hfilters]
      exact hs.filters_eq j c hc (heq.symm.trans hclient)
    · exact (hscope.1 hclient).1
  · intro i j c' d' hij hc' hd' hci hdj
    have hnot (c : PullCall Φ F) (hphase : c'.phase.running = true → c.phase.running = true)
        (hover : c.phase.running = false) : c'.phase.running = false := by
      by_contra hrunning
      rw [hphase (by simpa using hrunning)] at hover
      cases hover
    rcases running_step h hc' with ⟨c, hc, hceq, -, hphase⟩ | ⟨ha, hi⟩
    · rcases running_step h hd' with ⟨d, hd, hdeq, -, -⟩ | ⟨rfl, -⟩
      · exact hnot c hphase (hs.earlier_over i j c d hij hc hd (hceq.symm.trans hci)
          (hdeq.symm.trans hdj))
      · exact hnot c hphase ((hscope.1 hdj).2 i c hc (hceq.symm.trans hci))
    · -- no call is behind the one that has just started
      rcases running_step h hd' with ⟨d, hd, -, -, -⟩ | ⟨-, hj⟩
      · have hlt := (List.getElem?_eq_some_iff.1 hd).1
        omega
      · omega

/-- Everything the client has got is older than what is kept for it. -/
def Behind (V : FrameView Φ (ℕ × S) F) (filters : Φ) (client : ℕ) (s : PullCalls Φ S F σ) : Prop :=
  ∀ (i : ℕ) (c : PullCall Φ F) (z g : F), s.calls[i]? = some c → c.client = client →
    z ∈ c.phase.got → g ∈ s.keeping → V.matchesFilter filters g = true →
    V.number z < V.number g

/-- A call that receives is not over. -/
theorem Receives.running {c : PullCall Φ F} {x : F} (h : s.Receives B c x) :
    c.phase.running = true := by
  rcases h with ⟨hp, -⟩ | ⟨hp, -⟩
  · rw [hp]
    rfl
  · rw [hp]
    rfl

/-- What a call receives was in the queue, or was next in line. -/
theorem Receives.source {c : PullCall Φ F} {x : F} (h : s.Receives B c x) :
    V.matchesFilter c.filters x = true ∧
      (x ∈ s.keeping ∨ ∃ b, B.receiveNext s.pull.backend = (.frame x, b)) := by
  rcases h with ⟨-, q, hpop⟩ | ⟨-, hnext, hmatch⟩
  · obtain ⟨q₁, q₂, hqueue, -, hmatch, -⟩ := popQueuedPullSample_some hpop
    exact ⟨hmatch, .inl (List.mem_append_right _ (by simp [hqueue]))⟩
  · exact ⟨hmatch, .inr hnext⟩

theorem mem_got {i : ℕ} {c : PullCall Φ F} {z : F} (hc : s.calls[i]? = some c)
    (hz : z ∈ c.phase.got) : z ∈ inCalls Phase.got s.calls :=
  mem_inCalls.2 ⟨i, c, hc, hz⟩

/-- What a call has got is not kept any more. -/
theorem number_ne_of_got_of_keeping (hs : s.Inv config B) {x g : F}
    (hx : x ∈ inCalls Phase.got s.calls) (hg : g ∈ s.keeping) : V.number x ≠ V.number g := by
  intro heq
  have hone := hs.count_le_one (V.number x)
  have hgot : 0 < ((inCalls Phase.got s.calls).map fun g => (V.sample g).1).count
      (V.number x) := List.count_pos_iff.2 (List.mem_map_of_mem hx)
  have hkept : 0 < (s.keeping.map fun g => (V.sample g).1).count (V.number x) := by
    rw [heq]
    exact List.count_pos_iff.2 (List.mem_map_of_mem hg)
  rw [keeping, List.map_append, List.count_append] at hkept
  omega

theorem behind_step (h : StepCase config B s a s') (hinv : s.Inv config B) (hfifo : s.Fifo B)
    (hguard : NoneOlder B filters client s a) (hs : Behind V filters client s) :
    Behind V filters client s' := by
  intro j d z g hd hclient hz hg hmatch
  obtain ⟨c, hc, heq, hz'⟩ := got_step h hd hz
  have hkept := mem_keeping_step h hinv.bounded hg
  rcases hz' with hz' | ⟨rfl, hreceives⟩
  · rcases hkept with hkept | ⟨_, _, b, _, _, _, hnext, _⟩
    · exact hs j c z g hc (heq.symm.trans hclient) hz' hkept hmatch
    · exact older_of_receiveNext hinv hfifo hnext (.inr (mem_got hc hz'))
  · -- `z` has just been received, so that nothing older is kept
    have hne := number_ne_of_got_of_keeping (inv_step hinv h) (mem_got hd hz) hg
    rcases hkept with hkept | ⟨i, c', b, ha, hc', hp, hnext, hf⟩
    · have hle := hguard c hc (heq.symm.trans hclient) z hreceives g hkept hmatch
      omega
    · cases ha
      obtain rfl := Option.some.inj (hc.symm.trans hc')
      rcases hreceives with ⟨hp', -⟩ | ⟨-, ⟨b', hnext'⟩, hf'⟩
      · rw [hp] at hp'
        cases hp'
      · rw [hnext] at hnext'
        cases hnext'
        rw [hf] at hf'
        cases hf'

theorem inOrder_step (h : StepCase config B s a s') (hinv : s.Inv config B) (hfifo : s.Fifo B)
    (hcalls : s.OneAfterAnother filters client) (hbehind : Behind V filters client s)
    (hs : InOrder V client s) : InOrder V client s' := by
  intro i j c' d' g x hij hc' hd' hci hdj hg hx
  obtain ⟨c, hc, hceq, hg⟩ := got_step h hc' hg
  obtain ⟨d, hd, hdeq, hx⟩ := got_step h hd' hx
  have hc_client := hceq.symm.trans hci
  have hd_client := hdeq.symm.trans hdj
  rcases hg with hg | ⟨-, hreceives⟩
  · rcases hx with hx | ⟨-, hreceives⟩
    · exact hs i j c d g x hij hc hd hc_client hd_client hg hx
    · obtain ⟨hmatch, hx | ⟨b, hnext⟩⟩ := hreceives.source
      · rw [hcalls.filters_eq j d hd hd_client] at hmatch
        exact hbehind i c g x hc hc_client hg hx hmatch
      · exact older_of_receiveNext hinv hfifo hnext (.inr (mem_got hc hg))
  · -- a call that is followed by another is over
    have hover := hcalls.earlier_over i j c d hij hc hd hc_client hd_client
    rw [hreceives.running] at hover
    cases hover

end Ordered

section Undisturbed

/-- No call holds a frame the client looks for when the client finds none in the queue, no other
call takes one when the client has found none, and those that others take are kept in the order
they were taken. -/
def Undisturbed (B : PullBackend V σ) (filters : Φ) (client : ℕ) (s : PullCalls Φ S F σ) :
    PullAction Φ S → Prop
  | .advance i => ∀ c, s.calls[i]? = some c →
    (c.client = client → c.phase = .popQueued →
      (∀ g ∈ s.pull.pullMismatchQueue.queue, V.matchesFilter filters g = false) →
      ∀ g ∈ inCalls Phase.held s.calls, V.matchesFilter filters g = false) ∧
    (c.client ≠ client → c.phase = .takeNext → ∀ g b,
      B.receiveNext s.pull.backend = (.frame g, b) → V.matchesFilter filters g = true →
      ∀ (j : ℕ) (d : PullCall Φ F), s.calls[j]? = some d → d.client = client →
        d.phase.searched = false) ∧
    (∀ g, c.phase = .queueing g → V.matchesFilter filters g = true →
      ∀ h ∈ inCalls Phase.held s.calls, V.matchesFilter filters h = true →
        V.number g ≤ V.number h)
  | _ => True

/-- The frames the client looks for are queued in order and ahead of those that are held, and there
are none of either once the client has found none. -/
structure InLine (V : FrameView Φ (ℕ × S) F) (filters : Φ) (client : ℕ) (s : PullCalls Φ S F σ) :
    Prop where
  queue : s.pull.pullMismatchQueue.queue.Pairwise fun g h => V.matchesFilter filters g = true →
    V.matchesFilter filters h = true → V.number g < V.number h
  held : ∀ g ∈ s.pull.pullMismatchQueue.queue, ∀ h ∈ inCalls Phase.held s.calls,
    V.matchesFilter filters g = true → V.matchesFilter filters h = true →
    V.number g < V.number h
  none : ∀ (i : ℕ) (c : PullCall Φ F), s.calls[i]? = some c → c.client = client →
    c.phase.searched = true → ∀ g ∈ s.keeping, V.matchesFilter filters g = false

/-- A frame that is held has been held, or has just been taken. -/
theorem mem_held_step (h : StepCase config B s a s') {g : F}
    (hg : g ∈ inCalls Phase.held s'.calls) :
    g ∈ inCalls Phase.held s.calls ∨ ∃ b, B.receiveNext s.pull.backend = (.frame g, b) := by
  have hset {i : ℕ} {c : PullCall Φ F} (hc : c.phase.held = [])
      (hg : g ∈ inCalls Phase.held (s.calls.set i c)) : g ∈ inCalls Phase.held s.calls := by
    rcases mem_inCalls_set hg with hg | hg
    · rw [hc] at hg
      cases hg
    · exact hg
  cases h with
  | send x => exact .inl hg
  | start client filters =>
    refine .inl ?_
    simpa [inCalls, Phase.held] using hg
  | mismatched hc hp hnext hf =>
    rcases mem_inCalls_set hg with hg | hg
    · obtain rfl := List.mem_singleton.1 hg
      exact .inr ⟨_, hnext⟩
    · exact .inl hg
  | _ => exact .inl (hset rfl hg)

/-- The queue loses frames, or has one put behind it that was held. -/
theorem queue_step (h : StepCase config B s a s')
    (hq : s.pull.pullMismatchQueue.Bounded config.pullMismatchQueueCapacity) :
    s'.pull.pullMismatchQueue.queue.Sublist s.pull.pullMismatchQueue.queue ∨
      ∃ i c f, a = .advance i ∧ s.calls[i]? = some c ∧ c.phase = .queueing f ∧
        s'.pull.pullMismatchQueue.queue.Sublist (s.pull.pullMismatchQueue.queue ++ [f]) := by
  cases h with
  | found hc hp hpop =>
    obtain ⟨q₁, q₂, hqueue, -, -, rfl⟩ := popQueuedPullSample_some hpop
    refine .inl ?_
    rw [hqueue]
    exact (List.Sublist.refl q₁).append (List.sublist_cons_self _ q₂)
  | @kept i c f q hc hp hqueued hok =>
    subst hqueued
    exact .inr ⟨i, c, f, rfl, hc, hp, queuePullSample_sublist _ hq⟩
  | @refused i c f q e hc hp hqueued herror =>
    subst hqueued
    exact .inr ⟨i, c, f, rfl, hc, hp, queuePullSample_sublist _ hq⟩
  | _ => exact .inl (List.Sublist.refl _)

theorem mem_held {i : ℕ} {c : PullCall Φ F} {f : F} (hc : s.calls[i]? = some c)
    (hp : c.phase = .queueing f) : f ∈ inCalls Phase.held s.calls :=
  mem_inCalls.2 ⟨i, c, hc, by rw [hp]; exact List.mem_singleton_self f⟩

/-- A frame is not queued and held. -/
theorem number_ne_of_queue_of_held (hs : s.Inv config B) {g h : F}
    (hg : g ∈ s.pull.pullMismatchQueue.queue) (hh : h ∈ inCalls Phase.held s.calls) :
    V.number g ≠ V.number h := by
  intro heq
  have hone := hs.count_le_one (V.number g)
  have hqueue : 0 < (s.pull.pullMismatchQueue.queue.map fun g => (V.sample g).1).count
      (V.number g) := List.count_pos_iff.2 (List.mem_map_of_mem hg)
  have hheld : 0 < ((inCalls Phase.held s.calls).map fun g => (V.sample g).1).count
      (V.number g) := by
    rw [heq]
    exact List.count_pos_iff.2 (List.mem_map_of_mem hh)
  omega

theorem inLine_step (h : StepCase config B s a s') (hinv : s.Inv config B) (hfifo : s.Fifo B)
    (hcalls : s.OneAfterAnother filters client) (hguard : Undisturbed B filters client s a)
    (hs : InLine V filters client s) : InLine V filters client s' := by
  have hqueue := queue_step h hinv.bounded
  refine ⟨?_, ?_, ?_⟩
  · rcases hqueue with hsub | ⟨i, c, f, rfl, hc, hp, hsub⟩
    · exact hs.queue.sublist hsub
    · refine List.Pairwise.sublist hsub (List.pairwise_append.2 ⟨hs.queue, ?_, ?_⟩)
      · exact List.pairwise_singleton _ f
      · intro g hg x hx
        rw [List.mem_singleton.1 hx]
        exact hs.held g hg f (mem_held hc hp)
  · intro g hg x hx hgmatch hxmatch
    have hne := number_ne_of_queue_of_held (inv_step hinv h) hg hx
    have hle : V.number g ≤ V.number x := by
      rcases mem_held_step h hx with hx | ⟨b, hnext⟩
      · rcases hqueue with hsub | ⟨i, c, f, rfl, hc, hp, hsub⟩
        · exact (hs.held g (hsub.subset hg) x hx hgmatch hxmatch).le
        · rcases List.mem_append.1 (hsub.subset hg) with hg | hg
          · exact (hs.held g hg x hx hgmatch hxmatch).le
          · obtain rfl := List.mem_singleton.1 hg
            exact (hguard c hc).2.2 g hp hgmatch x hx hxmatch
      · refine (older_of_receiveNext hinv hfifo hnext (.inl ?_)).le
        rcases hqueue with hsub | ⟨i, c, f, rfl, hc, hp, hsub⟩
        · exact List.mem_append_right _ (hsub.subset hg)
        · rcases List.mem_append.1 (hsub.subset hg) with hg | hg
          · exact List.mem_append_right _ hg
          · rw [List.mem_singleton.1 hg]
            exact List.mem_append_left _ (mem_held hc hp)
    omega
  · intro j d hd hclient hsearched g hg
    obtain ⟨c, hc, -, -, hphase⟩ := searched_step h hd hsearched
    have hc_client : c.client = client := by
      rcases running_step h hd with ⟨c', hc', heq, -⟩ | ⟨-, hj⟩
      · obtain rfl := Option.some.inj (hc.symm.trans hc')
        exact heq.symm.trans hclient
      · have hlt := (List.getElem?_eq_some_iff.1 hc).1
        omega
    have hfilters := hcalls.filters_eq j c hc hc_client
    rcases mem_keeping_step h hinv.bounded hg with hold | ⟨i, c', b, rfl, hc', hp, hnext, hf⟩
    · rcases hphase with hphase | ⟨rfl, hp, hnone⟩
      · exact hs.none j c hc hc_client hphase g hold
      · rw [hfilters] at hnone
        rcases List.mem_append.1 hold with hheld | hqueued
        · exact (hguard c hc).1 hc_client hp hnone g hheld
        · exact hnone g hqueued
    · -- `g` has just been taken, by the client itself or by another
      by_cases hother : c'.client = client
      · rwa [hcalls.filters_eq i c' hc' hother] at hf
      · by_contra hmatch
        have hno := (hguard c' hc').2.1 hother hp g b hnext (by simpa using hmatch) j c hc
          hc_client
        rcases hphase with hphase | ⟨ha, -, -⟩
        · rw [hphase] at hno
          cases hno
        · cases ha
          obtain rfl := Option.some.inj (hc.symm.trans hc')
          exact hother hc_client

/-- An undisturbed client is given the oldest frame there is for it. -/
theorem noneOlder_of_inLine (hcalls : s.OneAfterAnother filters client)
    (hs : InLine V filters client s) : ∀ a, NoneOlder B filters client s a := by
  rintro (_ | _ | i | _ | _)
  case advance =>
    intro c hc hclient x hx g hg hmatch
    have hfilters := hcalls.filters_eq i c hc hclient
    rcases hx with ⟨-, q, hpop⟩ | ⟨hp, -, -⟩
    · obtain ⟨q₁, q₂, hqueue, hbefore, hxmatch, -⟩ := popQueuedPullSample_some hpop
      rw [hfilters] at hbefore hxmatch
      rcases List.mem_append.1 hg with hg | hg
      · have hx : x ∈ s.pull.pullMismatchQueue.queue := by simp [hqueue]
        exact (hs.held x hx g hg hxmatch hmatch).le
      · have hpairs := hs.queue
        rw [hqueue] at hg hpairs
        rcases List.mem_append.1 hg with hg | hg
        · rw [hbefore g hg] at hmatch
          cases hmatch
        · rcases List.mem_cons.1 hg with rfl | hg
          · exact le_rfl
          · have hpairs := (List.pairwise_cons.1 (List.pairwise_append.1 hpairs).2.1).1
            exact (hpairs g hg hxmatch hmatch).le
    · rw [hs.none i c hc hclient (by rw [hp]; rfl) g hg] at hmatch
      cases hmatch
  all_goals trivial

/-- A client that is given no frame while an older one it looks for is kept gets its frames in the
order they were sent; and an undisturbed client is given none. -/
theorem pull_client_order (config : LolaTransportConfig) (B : PullBackend V σ) {b : σ}
    (hb : B.samples b = []) (filters : Φ) (client : ℕ) (s : PullCalls Φ S F σ) :
    (Run.Reach (step config B) (fun s a => ClientScope V filters client s a ∧
        NoneOlder B filters client s a) (init b) s → InOrder V client s) ∧
    (Run.Reach (step config B) (fun s a => ClientScope V filters client s a ∧
        Undisturbed B filters client s a) (init b) s →
      Run.Reach (step config B) (fun s a => ClientScope V filters client s a ∧
        NoneOlder B filters client s a) (init b) s) := by
  have hfifo {guard : PullCalls Φ S F σ → PullAction Φ S → Prop} {s : PullCalls Φ S F σ}
      (hs : Run.Reach (step config B) guard (init b) s) : s.Fifo B :=
    hs.invariant ⟨[], by rw [init, hb]; rfl⟩ fun _ _ _ _ hs _ h => fifo_step (step_cases h) hs
  have hcalls {guard : PullCalls Φ S F σ → PullAction Φ S → Prop} {s : PullCalls Φ S F σ}
      (hs : Run.Reach (step config B) (fun s a => ClientScope V filters client s a ∧ guard s a)
        (init b) s) : s.OneAfterAnother filters client :=
    hs.invariant ⟨by simp [init], by simp [init]⟩
      fun _ _ _ _ hs hg h => oneAfterAnother_step (step_cases h) hg.1 hs
  constructor
  · intro hs
    have hboth : Behind V filters client s ∧ InOrder V client s := by
      refine hs.invariant (I := fun s => Behind V filters client s ∧ InOrder V client s)
        ⟨by simp [Behind, init], by simp [InOrder, init]⟩ ?_
      rintro s a s' hs ⟨hbehind, horder⟩ hg h
      have hinv := inv_reach hb hs
      exact ⟨behind_step (step_cases h) hinv (hfifo hs) hg.2 hbehind,
        inOrder_step (step_cases h) hinv (hfifo hs) (hcalls hs) hbehind horder⟩
    exact hboth.2
  · intro hs
    have hline {s : PullCalls Φ S F σ} (hs : Run.Reach (step config B) (fun s a =>
        ClientScope V filters client s a ∧ Undisturbed B filters client s a) (init b) s) :
        InLine V filters client s := by
      refine hs.invariant ⟨by simp [init], by simp [init], by simp [init]⟩ ?_
      exact fun s a s' hs hline hg h => inLine_step (step_cases h) (inv_reach hb hs) (hfifo hs)
        (hcalls hs) hg.2 hline
    induction hs with
    | refl => exact .refl
    | step hs hg h ih =>
      exact ih.step ⟨hg.1, noneOlder_of_inLine (hcalls hs) (hline hs) _⟩ h

/-- Filters for the topic `b` match no frame that filters for the topic `a` match. -/
theorem filtersB_of_filtersA (g : ℕ × LolaRxLease plainUpRust)
    (h : frameMatches filtersA g.2 = true) : frameMatches filtersB g.2 = false := by
  simp only [frameMatches, filtersA, filtersB, plainFilters, plainUpRust, Option.all_none,
    Bool.and_true, beq_iff_eq, beq_eq_false_iff_ne] at h ⊢
  rw [← h]
  decide

theorem clientScope_start (h : ∀ c ∈ s.calls, c.client = client → c.phase.running = false) :
    ClientScope V filters client s (.start client filters) :=
  ⟨fun _ => ⟨rfl, fun _ c hc => h c (List.mem_of_getElem? hc)⟩, fun hne => absurd rfl hne⟩

theorem undisturbed_search {i : ℕ} {c : PullCall Φ F} (hc : s.calls[i]? = some c)
    (hp : c.phase = .popQueued) (hheld : inCalls Phase.held s.calls = []) :
    Undisturbed B filters client s (.advance i) := by
  intro d hd
  obtain rfl := Option.some.inj (hc.symm.trans hd)
  rw [hp, hheld]
  exact ⟨fun _ _ _ => nofun, fun _ => nofun, nofun⟩

theorem undisturbed_take {i : ℕ} {c : PullCall Φ F} (hc : s.calls[i]? = some c)
    (hp : c.phase = .takeNext)
    (hother : c.client = client ∨ ∀ d ∈ s.calls, d.client ≠ client) :
    Undisturbed B filters client s (.advance i) := by
  intro d hd
  obtain rfl := Option.some.inj (hc.symm.trans hd)
  rw [hp]
  refine ⟨fun _ => nofun, fun hne _ _ _ _ _ j d hd hclient => ?_, nofun⟩
  rcases hother with heq | hother
  · exact absurd heq hne
  · exact absurd hclient (hother d (List.mem_of_getElem? hd))

theorem undisturbed_keep {i : ℕ} {c : PullCall Φ F} {f : F} (hc : s.calls[i]? = some c)
    (hp : c.phase = .queueing f) (hheld : inCalls Phase.held s.calls = [f]) :
    Undisturbed B filters client s (.advance i) := by
  intro d hd
  obtain rfl := Option.some.inj (hc.symm.trans hd)
  rw [hp, hheld]
  refine ⟨fun _ => nofun, fun _ => nofun, ?_⟩
  rintro _ ⟨⟩ - x hx -
  rw [List.mem_singleton.1 hx]

/-- A client that gets the two frames sent, the first of them by way of the queue. -/
theorem pull_client_order_plain :
    ∃ s : StubCalls (Filters plainUpRust) (List UInt8) (LolaRxLease plainUpRust),
      inCalls Phase.got s.calls = [(0, leaseA), (1, leaseA)] ∧
        InOrder plainFrames.numbered.toFrameView 0 s := by
  have hnext := receiveNext_numbered (C := plainFrames) 0 fromSample_sampleA [(1, sampleA)]
  have hnext' := receiveNext_numbered (C := plainFrames) 1 fromSample_sampleA []
  have h₀ : Run.Reach (step (plainConfig 4 2 .DropOldestAndReport)
      (stubBackend plainFrames.numbered))
      (fun s a => ClientScope plainFrames.numbered.toFrameView filtersA 0 s a ∧
        Undisturbed (stubBackend plainFrames.numbered) filtersA 0 s a) (init []) (init []) := .refl
  have h₁ := h₀.step (a := PullAction.send sampleA) ⟨by trivial, by trivial⟩
    (StepCase.send sampleA).step_eq
  have h₂ := h₁.step (a := PullAction.send sampleA) ⟨by trivial, by trivial⟩
    (StepCase.send sampleA).step_eq
  -- another client takes the first frame and keeps it
  have h₃ := h₂.step (a := PullAction.start 1 filtersB)
    ⟨⟨nofun, fun _ => filtersB_of_filtersA⟩, by trivial⟩ (StepCase.start 1 filtersB).step_eq
  have h₄ := h₃.step (a := PullAction.advance 0) ⟨by trivial, undisturbed_search rfl rfl rfl⟩
    (StepCase.notFound rfl rfl rfl).step_eq
  have h₅ := h₄.step (a := PullAction.advance 0)
    ⟨by trivial, undisturbed_take rfl rfl (.inr (List.forall_mem_singleton.2 Nat.one_ne_zero))⟩
    (StepCase.mismatched rfl rfl hnext frameMatches_plain.2.2.1).step_eq
  have h₆ := h₅.step (a := PullAction.advance 0) ⟨by trivial, undisturbed_keep rfl rfl rfl⟩
    (StepCase.kept rfl rfl rfl rfl).step_eq
  have h₇ := h₆.step (a := PullAction.start 0 filtersA)
    ⟨clientScope_start (List.forall_mem_singleton.2 nofun), by trivial⟩
    (StepCase.start 0 filtersA).step_eq
  have h₈ := h₇.step (a := PullAction.advance 1) ⟨by trivial, undisturbed_search rfl rfl rfl⟩
    (StepCase.found rfl rfl rfl).step_eq
  have h₉ := h₈.step (a := PullAction.start 0 filtersA)
    ⟨clientScope_start (List.forall_mem_cons.2 ⟨nofun,
      List.forall_mem_singleton.2 fun _ => rfl⟩), by trivial⟩ (StepCase.start 0 filtersA).step_eq
  have h₁₀ := h₉.step (a := PullAction.advance 2) ⟨by trivial, undisturbed_search rfl rfl rfl⟩
    (StepCase.notFound rfl rfl rfl).step_eq
  have hs := h₁₀.step (a := PullAction.advance 2) ⟨by trivial, undisturbed_take rfl rfl (.inl rfl)⟩
    (StepCase.matched rfl rfl hnext' frameMatches_plain.1).step_eq
  have hs' := (pull_client_order _ (stubBackend plainFrames.numbered) rfl filtersA 0 _).2 hs
  exact ⟨_, rfl, (pull_client_order _ (stubBackend plainFrames.numbered) rfl filtersA 0 _).1 hs'⟩

/-- A client that gets the second frame sent while another call has the first in hand. -/
theorem pull_client_order_held :
    ∃ s : StubCalls (Filters plainUpRust) (List UInt8) (LolaRxLease plainUpRust),
      Run.Reach (step (plainConfig 4 2 .DropOldestAndReport) (stubBackend plainFrames.numbered))
          (ClientScope plainFrames.numbered.toFrameView filtersA 0) (init []) s ∧
        s.dropped = [] ∧ s.rejected = [] ∧
        ¬ InOrder plainFrames.numbered.toFrameView 0 s := by
  have hnext := receiveNext_numbered (C := plainFrames) 0 fromSample_sampleA [(1, sampleA)]
  have hnext' := receiveNext_numbered (C := plainFrames) 1 fromSample_sampleA []
  have h₀ : Run.Reach (step (plainConfig 4 2 .DropOldestAndReport)
      (stubBackend plainFrames.numbered))
      (ClientScope plainFrames.numbered.toFrameView filtersA 0) (init []) (init []) := .refl
  have h₁ := h₀.step (a := PullAction.send sampleA) (by trivial) (StepCase.send sampleA).step_eq
  have h₂ := h₁.step (a := PullAction.send sampleA) (by trivial) (StepCase.send sampleA).step_eq
  have h₃ := h₂.step (a := PullAction.start 1 filtersB) ⟨nofun, fun _ => filtersB_of_filtersA⟩
    (StepCase.start 1 filtersB).step_eq
  have h₄ := h₃.step (a := PullAction.start 0 filtersA)
    (clientScope_start (List.forall_mem_singleton.2 nofun)) (StepCase.start 0 filtersA).step_eq
  have h₅ := h₄.step (a := PullAction.advance 0) (by trivial)
    (StepCase.notFound rfl rfl rfl).step_eq
  have h₆ := h₅.step (a := PullAction.advance 0) (by trivial)
    (StepCase.mismatched rfl rfl hnext frameMatches_plain.2.2.1).step_eq
  have h₇ := h₆.step (a := PullAction.advance 1) (by trivial)
    (StepCase.notFound rfl rfl rfl).step_eq
  have h₈ := h₇.step (a := PullAction.advance 1) (by trivial)
    (StepCase.matched rfl rfl hnext' frameMatches_plain.1).step_eq
  have h₉ := h₈.step (a := PullAction.advance 0) (by trivial)
    (StepCase.kept rfl rfl rfl rfl).step_eq
  have h₁₀ := h₉.step (a := PullAction.start 0 filtersA) (clientScope_start (List.forall_mem_cons.2
    ⟨nofun, List.forall_mem_singleton.2 fun _ => rfl⟩)) (StepCase.start 0 filtersA).step_eq
  have hs := h₁₀.step (a := PullAction.advance 2) (by trivial) (StepCase.found rfl rfl rfl).step_eq
  refine ⟨_, hs, rfl, rfl, fun h => ?_⟩
  have hlt := h 1 2 _ _ (1, leaseA) (0, leaseA) (by decide) rfl rfl rfl rfl
    (List.mem_singleton_self _) (List.mem_singleton_self _)
  exact absurd hlt (by decide)

end Undisturbed

end PullCalls

end LolaTransport
