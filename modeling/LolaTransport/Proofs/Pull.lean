import LolaTransport.Lib.Window
import LolaTransport.Pull

/-!
# One pull receive

`popQueuedPullSample` takes the first queued frame that matches, and nothing else changes.
`queuePullSample` either keeps the frame and lets go of what no longer fits, oldest first, or
refuses it, under `RejectNewestAndReport` when the queue is full (`queuePullSample_ok`,
`queuePullSample_error`).
-/

namespace LolaTransport

variable {Φ S F σ : Type} {V : FrameView Φ S F} {config : LolaTransportConfig}

section Search

theorem popQueuedPullSample_some {filters : Φ} {q q' : PullMismatchQueueState F} {f : F}
    (h : popQueuedPullSample V filters q = (some f, q')) :
    ∃ q₁ q₂, q.queue = q₁ ++ f :: q₂ ∧ (∀ g ∈ q₁, V.matchesFilter filters g = false) ∧
      V.matchesFilter filters f = true ∧ q' = { q with queue := q₁ ++ q₂ } := by
  unfold popQueuedPullSample at h
  split at h
  · cases h
  · rename_i i hi
    obtain ⟨hlt, hmatch, hbefore⟩ := List.findIdx?_eq_some_iff_getElem.1 hi
    simp only [List.getElem?_eq_getElem hlt, Prod.mk.injEq, Option.some.injEq] at h
    obtain ⟨rfl, rfl⟩ := h
    refine ⟨q.queue.take i, q.queue.drop (i + 1), ?_, ?_, hmatch, ?_⟩
    · rw [List.getElem_cons_drop, List.take_append_drop]
    · intro g hg
      obtain ⟨j, hj, rfl⟩ := List.getElem_of_mem hg
      rw [List.length_take] at hj
      rw [List.getElem_take]
      simpa using hbefore j (by omega)
    · rw [List.eraseIdx_eq_take_drop_succ]

theorem popQueuedPullSample_none {filters : Φ} {q q' : PullMismatchQueueState F}
    (h : popQueuedPullSample V filters q = (none, q')) :
    q' = q ∧ ∀ g ∈ q.queue, V.matchesFilter filters g = false := by
  unfold popQueuedPullSample at h
  split at h
  · rename_i hnone
    cases h
    exact ⟨rfl, by simpa using hnone⟩
  · rename_i i hi
    obtain ⟨hlt, -⟩ := List.findIdx?_eq_some_iff_getElem.1 hi
    simp [List.getElem?_eq_getElem hlt] at h

end Search

section Keep

/-- The queue within its capacity, and counters that are `u64`s. -/
structure PullMismatchQueueState.Bounded (capacity : ℕ) (q : PullMismatchQueueState F) : Prop where
  length_le : q.queue.length ≤ capacity
  dropped_le : q.droppedMismatches ≤ u64Max
  rejected_le : q.rejectedMismatches ≤ u64Max

theorem PullMismatchQueueState.bounded_empty (capacity : ℕ) :
    ({} : PullMismatchQueueState F).Bounded capacity where
  length_le := Nat.zero_le _
  dropped_le := Nat.zero_le _
  rejected_le := Nat.zero_le _

/-- A kept frame goes behind the queue, and what no longer fits leaves in front. -/
theorem queuePullSample_ok {frame : F} {q : PullMismatchQueueState F}
    (hq : q.Bounded config.pullMismatchQueueCapacity)
    (h : (queuePullSample V config frame q).result = .ok ()) :
    (queuePullSample V config frame q).letGo ++ (queuePullSample V config frame q).state.queue =
        q.queue ++ [frame] ∧
      (queuePullSample V config frame q).letGo.length =
        q.queue.length + 1 - config.pullMismatchQueueCapacity ∧
      (queuePullSample V config frame q).state.droppedMismatches =
        min u64Max
          (q.droppedMismatches + (queuePullSample V config frame q).letGo.length) ∧
      (queuePullSample V config frame q).state.rejectedMismatches = q.rejectedMismatches := by
  have hle := hq.length_le
  have hd := hq.dropped_le
  unfold queuePullSample at h ⊢
  dsimp only at h ⊢
  split_ifs at h ⊢ with hzero hreject hfull
  · have hnil : q.queue = [] := List.length_eq_zero_iff.1 (by omega)
    simp [hnil, hzero, saturatingSucc]
  · have hone : q.queue.length = config.pullMismatchQueueCapacity := by omega
    refine ⟨?_, ?_, ?_, rfl⟩
    · rw [← List.append_assoc, List.take_append_drop]
    · rw [List.length_take]
      omega
    · have hmin : min 1 q.queue.length = 1 := by omega
      dsimp only
      rw [List.length_take, hmin, saturatingSucc]
  · refine ⟨rfl, ?_, ?_, rfl⟩
    · simp only [List.length_nil]
      omega
    · simp [hd]

/-- What was kept before, and the frame itself, is kept or let go. -/
theorem mem_of_queuePullSample_ok {frame : F} {q : PullMismatchQueueState F}
    (hq : q.Bounded config.pullMismatchQueueCapacity)
    (h : (queuePullSample V config frame q).result = .ok ()) {g : F}
    (hg : g ∈ q.queue ++ [frame]) :
    g ∈ (queuePullSample V config frame q).letGo ∨
      g ∈ (queuePullSample V config frame q).state.queue := by
  rw [← (queuePullSample_ok hq h).1] at hg
  exact List.mem_append.1 hg

/-- A refused frame leaves the queue as it is. -/
theorem queuePullSample_error {frame : F} {q : PullMismatchQueueState F} {e : Fault}
    (h : (queuePullSample V config frame q).result = .error e) :
    config.pullMismatchQueueFullPolicy = .RejectNewestAndReport ∧
      0 < config.pullMismatchQueueCapacity ∧
      config.pullMismatchQueueCapacity ≤ q.queue.length ∧
      e.code? = some .RESOURCE_EXHAUSTED ∧
      (queuePullSample V config frame q).letGo = [frame] ∧
      (queuePullSample V config frame q).state.queue = q.queue ∧
      (queuePullSample V config frame q).state.droppedMismatches = q.droppedMismatches ∧
      (queuePullSample V config frame q).state.rejectedMismatches =
        saturatingSucc q.rejectedMismatches := by
  unfold queuePullSample at h ⊢
  dsimp only at h ⊢
  split_ifs at h ⊢ with hzero hreject
  cases h
  exact ⟨hreject.2, by omega, hreject.1, rfl, rfl, rfl, rfl, rfl⟩

/-- When a frame is refused. -/
theorem queuePullSample_result {frame : F} {q : PullMismatchQueueState F} :
    (queuePullSample V config frame q).result = .ok () ↔
      ¬ (config.pullMismatchQueueFullPolicy = .RejectNewestAndReport ∧
        0 < config.pullMismatchQueueCapacity ∧
        config.pullMismatchQueueCapacity ≤ q.queue.length) := by
  unfold queuePullSample
  dsimp only
  split_ifs with hzero hreject hfull
  · simp [hzero]
  · simp only [false_iff, not_not]
    exact ⟨hreject.2, by omega, hreject.1⟩
  · simp only [true_iff]
    rintro ⟨hpolicy, -⟩
    exact hreject ⟨hfull, hpolicy⟩
  · simp only [true_iff]
    rintro ⟨-, -, hle⟩
    exact hfull hle

/-- Whatever becomes of a mismatch, the queue says so. -/
theorem queuePullSample_reason (frame : F) (q : PullMismatchQueueState F) :
    (queuePullSample V config frame q).state.lastMismatchReason ≠ none := by
  unfold queuePullSample
  dsimp only
  split_ifs <;> exact Option.some_ne_none _

theorem queuePullSample_bounded (frame : F) {q : PullMismatchQueueState F}
    (hq : q.Bounded config.pullMismatchQueueCapacity) :
    (queuePullSample V config frame q).state.Bounded config.pullMismatchQueueCapacity := by
  cases h : (queuePullSample V config frame q).result with
  | ok u =>
    obtain ⟨happ, hlen, hdropped, hrejected⟩ := queuePullSample_ok hq h
    have hlength := congrArg List.length happ
    simp only [List.length_append, List.length_singleton] at hlength
    have := hq.length_le
    refine ⟨by omega, ?_, ?_⟩
    · rw [hdropped]
      exact min_le_left _ _
    · rw [hrejected]
      exact hq.rejected_le
  | error e =>
    obtain ⟨-, -, -, -, -, hqueue, hdropped, hrejected⟩ := queuePullSample_error h
    refine ⟨by rw [hqueue]; exact hq.length_le, by rw [hdropped]; exact hq.dropped_le, ?_⟩
    rw [hrejected]
    exact min_le_left _ _

end Keep

section Loop

variable {B : PullBackend V σ} {filters : Φ} {s : PullState F σ} {b : σ}

theorem receiveLoop_nothing {e : Fault} (h : B.receiveNext s.backend = (.nothing e, b)) :
    receiveLoop config B filters s = (.error e, { s with backend := b }) := by
  rw [receiveLoop]
  split <;> rename_i h' <;> rw [h] at h' <;> cases h'
  rfl

theorem receiveLoop_lost {x : S} {e : Fault} (h : B.receiveNext s.backend = (.lost x e, b)) :
    receiveLoop config B filters s = (.error e, { s with backend := b }) := by
  rw [receiveLoop]
  split <;> rename_i h' <;> rw [h] at h' <;> cases h'
  rfl

theorem receiveLoop_match {f : F} (h : B.receiveNext s.backend = (.frame f, b))
    (hf : V.matchesFilter filters f = true) :
    receiveLoop config B filters s = (.ok f, { s with backend := b }) := by
  rw [receiveLoop]
  split <;> rename_i h' <;> rw [h] at h' <;> cases h'
  rw [if_pos hf]

theorem receiveLoop_keep {f : F} (h : B.receiveNext s.backend = (.frame f, b))
    (hf : V.matchesFilter filters f = false)
    (hq : (queuePullSample V config f s.pullMismatchQueue).result = .ok ()) :
    receiveLoop config B filters s = receiveLoop config B filters
      ⟨B.releaseAll (queuePullSample V config f s.pullMismatchQueue).letGo b,
        (queuePullSample V config f s.pullMismatchQueue).state⟩ := by
  rw [receiveLoop]
  split <;> rename_i h' <;> rw [h] at h' <;> cases h'
  rw [if_neg (by simp [hf])]
  dsimp only
  rw [hq]

theorem receiveLoop_refuse {f : F} {e : Fault} (h : B.receiveNext s.backend = (.frame f, b))
    (hf : V.matchesFilter filters f = false)
    (hq : (queuePullSample V config f s.pullMismatchQueue).result = .error e) :
    receiveLoop config B filters s = (.error e,
      ⟨B.releaseAll (queuePullSample V config f s.pullMismatchQueue).letGo b,
        (queuePullSample V config f s.pullMismatchQueue).state⟩) := by
  rw [receiveLoop]
  split <;> rename_i h' <;> rw [h] at h' <;> cases h'
  rw [if_neg (by simp [hf])]
  dsimp only
  rw [hq]

end Loop

section Line

/-- The kept frames' samples and behind them the samples that have not been taken. -/
def PullState.line (B : PullBackend V σ) (s : PullState F σ) : List S :=
  s.pullMismatchQueue.queue.map V.sample ++ B.samples s.backend

variable {B : PullBackend V σ}

theorem queuePullSample_sublist (frame : F) {q : PullMismatchQueueState F}
    (hq : q.Bounded config.pullMismatchQueueCapacity) :
    (queuePullSample V config frame q).state.queue.Sublist (q.queue ++ [frame]) := by
  cases h : (queuePullSample V config frame q).result with
  | ok u =>
    rw [← (queuePullSample_ok hq h).1]
    exact List.sublist_append_right _ _
  | error e =>
    rw [(queuePullSample_error h).2.2.2.2.2.1]
    exact List.sublist_append_left _ _

/-- Taking a sample leaves the rest of the line. -/
theorem line_of_receiveNext {s : PullState F σ} {t : Taken S F} {b : σ}
    (h : B.receiveNext s.backend = (t, b)) :
    s.line B = s.pullMismatchQueue.queue.map V.sample ++ (t.removed (V := V) ++ B.samples b) := by
  have hsamples := B.samples_receiveNext s.backend
  rw [h] at hsamples
  rw [PullState.line, ← hsamples]

theorem sublist_of_receiveNext {s : PullState F σ} {t : Taken S F} {b : σ}
    (h : B.receiveNext s.backend = (t, b)) :
    (PullState.line B { s with backend := b }).Sublist (s.line B) := by
  rw [line_of_receiveNext h]
  exact (List.Sublist.refl _).append (List.sublist_append_right _ _)

/-- Keeping or refusing the frame that was taken leaves it where it was in line, or drops frames. -/
theorem sublist_of_queue {s : PullState F σ} {f : F} {b : σ}
    (hq : s.pullMismatchQueue.Bounded config.pullMismatchQueueCapacity)
    (h : B.receiveNext s.backend = (.frame f, b)) :
    (PullState.line B
      ⟨B.releaseAll (queuePullSample V config f s.pullMismatchQueue).letGo b,
        (queuePullSample V config f s.pullMismatchQueue).state⟩).Sublist (s.line B) := by
  rw [line_of_receiveNext h, PullState.line, B.samples_releaseAll, ← List.append_assoc]
  have hmap := (queuePullSample_sublist (V := V) f hq).map V.sample
  rw [List.map_append, List.map_singleton] at hmap
  exact hmap.append (List.Sublist.refl _)

/-- The loop keeps the queue within its capacity and the samples in line. -/
theorem receiveLoop_keeps (filters : Φ) (s : PullState F σ)
    (hq : s.pullMismatchQueue.Bounded config.pullMismatchQueueCapacity) :
    (receiveLoop config B filters s).2.pullMismatchQueue.Bounded
        config.pullMismatchQueueCapacity ∧
      ((receiveLoop config B filters s).2.line B).Sublist (s.line B) := by
  fun_induction receiveLoop config B filters s with
  | case1 s e b h => exact ⟨hq, sublist_of_receiveNext h⟩
  | case2 s x e b h => exact ⟨hq, sublist_of_receiveNext h⟩
  | case3 s f b h hf => exact ⟨hq, sublist_of_receiveNext h⟩
  | case4 s f b h hf queued s' e he => exact ⟨queuePullSample_bounded f hq, sublist_of_queue hq h⟩
  | case5 s f b h hf queued s' hok ih =>
    obtain ⟨hbounded, hline⟩ := ih (queuePullSample_bounded f hq)
    exact ⟨hbounded, hline.trans (sublist_of_queue hq h)⟩

theorem receive_keeps (filters : Φ) (s : PullState F σ)
    (hq : s.pullMismatchQueue.Bounded config.pullMismatchQueueCapacity) :
    (receiveValidatedZeroCopy config B filters s).2.pullMismatchQueue.Bounded
        config.pullMismatchQueueCapacity ∧
      ((receiveValidatedZeroCopy config B filters s).2.line B).Sublist (s.line B) := by
  unfold receiveValidatedZeroCopy
  split
  · rename_i f q' h
    obtain ⟨q₁, q₂, hqueue, -, -, rfl⟩ := popQueuedPullSample_some h
    have hsub : (q₁ ++ q₂).Sublist s.pullMismatchQueue.queue := by
      rw [hqueue]
      exact (List.Sublist.refl _).append (List.sublist_cons_self _ _)
    have hlen := hsub.length_le
    have hle := hq.length_le
    exact ⟨⟨by dsimp only; omega, hq.dropped_le, hq.rejected_le⟩,
      (hsub.map V.sample).append (List.Sublist.refl _)⟩
  · exact receiveLoop_keeps filters s hq

theorem runPull_concat (s₀ : PullState F σ) (ops : List (PullOp Φ S)) (op : PullOp Φ S) :
    runPull config B s₀ (ops ++ [op]) = op.apply config B (runPull config B s₀ ops) := by
  rw [runPull, List.foldl_concat, runPull]

/-- Over a whole run the line is what is left of the samples sent, in the order they were sent. -/
theorem runPull_keeps (s₀ : PullState F σ)
    (hq : s₀.pullMismatchQueue.Bounded config.pullMismatchQueueCapacity)
    (ops : List (PullOp Φ S)) :
    (runPull config B s₀ ops).pullMismatchQueue.Bounded config.pullMismatchQueueCapacity ∧
      ((runPull config B s₀ ops).line B).Sublist (s₀.line B ++ sentBy ops) := by
  induction ops using List.reverseRecOn with
  | nil => exact ⟨hq, by simp [runPull, sentBy]⟩
  | append_singleton ops op ih =>
    obtain ⟨hbounded, hline⟩ := ih
    rw [runPull_concat]
    cases op with
    | send x =>
      refine ⟨hbounded, ?_⟩
      have happ := hline.append (List.Sublist.refl [x])
      simpa [PullOp.apply, sendValidatedZeroCopy, PullState.line, B.samples_arrive, sentBy]
        using happ
    | receive filters =>
      obtain ⟨hbounded', hline'⟩ := receive_keeps (B := B) filters _ hbounded
      refine ⟨hbounded', ?_⟩
      simpa [PullOp.apply, sentBy] using hline'.trans hline

end Line

end LolaTransport
