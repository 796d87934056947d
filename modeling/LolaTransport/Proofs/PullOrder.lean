import LolaTransport.Proofs.PlainFrames
import LolaTransport.Proofs.Pull
import LolaTransport.Proofs.Rejects

/-!
# Sequential pull receive is an ordered store

Receives that do not overlap see one list, the kept frames and behind them the pending samples, in
the order they were sent.  `orderedReceive` is what a receive is for on that list: it says at once
what the loop of `receiveValidatedZeroCopy` does sample by sample.
-/

namespace LolaTransport

variable {Φ S F : Type} (C : FrameCodec Φ S F) (config : LolaTransportConfig)

section Store

/-- The frames in front of the first pending sample that matches or does not decode. -/
def skipped (filters : Φ) : List S → List F
  | [] => []
  | sample :: pending =>
    match C.decode sample with
    | .ok frame =>
      if C.matchesFilter filters frame then [] else frame :: skipped filters pending
    | .error _ => []

/-- What a receive returns, up to the text of an error, what it leaves, and by how much it moves the
two counters. -/
structure StoreOutcome (S F : Type) where
  result : Except (Option UCode) F
  queue : List F
  pending : List S
  dropped : ℕ := 0
  rejected : ℕ := 0

/-- The result of taking the first of `rest`, which is a match if it decodes. -/
def takeFirst (rest : List S) : Except (Option UCode) F :=
  match rest with
  | [] => .error (some .NOT_FOUND)
  | sample :: _ =>
    match C.decode sample with
    | .ok frame => .ok frame
    | .error _ => .error (some .INVALID_ARGUMENT)

/-- When no kept frame matches, everything in front of the first pending sample that ends the search
is kept, as far as the policy has it. -/
def orderedScan (filters : Φ) (queue : List F) (pending : List S) : StoreOutcome S F :=
  let capacity := config.pullMismatchQueueCapacity
  let passed := skipped C filters pending
  let rest := pending.drop passed.length
  match config.pullMismatchQueueFullPolicy with
  | .DropOldestAndReport =>
    { result := takeFirst C rest
      queue := (queue ++ passed).rtake capacity
      pending := rest.drop 1
      dropped := queue.length + passed.length - capacity }
  | .RejectNewestAndReport =>
    if queue.length + passed.length ≤ capacity then
      { result := takeFirst C rest, queue := queue ++ passed, pending := rest.drop 1 }
    else
      let room := capacity - queue.length
      { result := .error (some .RESOURCE_EXHAUSTED)
        queue := queue ++ passed.take room
        pending := pending.drop (room + 1)
        rejected := 1 }

/-- The oldest match of the kept frames and the pending samples. -/
def orderedReceive (filters : Φ) (queue : List F) (pending : List S) : StoreOutcome S F :=
  match queue.find? (C.matchesFilter filters) with
  | some frame =>
    { result := .ok frame, queue := queue.eraseP (C.matchesFilter filters), pending }
  | none => orderedScan C config filters queue pending

end Store

variable {C config}

/-- The stub's call ends as `spec` has it, its counters as far as a `u64` goes. -/
structure Refines (out : Except Fault F × PullState F (List S)) (spec : StoreOutcome S F)
    (q : PullMismatchQueueState F) : Prop where
  result : out.1.mapError Fault.code? = spec.result
  queue : out.2.pullMismatchQueue.queue = spec.queue
  pending : out.2.backend = spec.pending
  dropped : out.2.pullMismatchQueue.droppedMismatches =
    min u64Max (q.droppedMismatches + spec.dropped)
  rejected : out.2.pullMismatchQueue.rejectedMismatches =
    min u64Max (q.rejectedMismatches + spec.rejected)

/-- The stub's leases own their samples: dropping one changes nothing. -/
@[simp] theorem stubBackend_releaseAll (letGo : List F) (pending : List S) :
    (stubBackend C).releaseAll letGo pending = pending :=
  (stubBackend C).samples_releaseAll letGo pending

theorem queuePullSample_rtake {frame : F} {q : PullMismatchQueueState F}
    (hq : q.Bounded config.pullMismatchQueueCapacity)
    (h : (queuePullSample C.toFrameView config frame q).result = .ok ()) :
    (queuePullSample C.toFrameView config frame q).state.queue =
      (q.queue ++ [frame]).rtake config.pullMismatchQueueCapacity := by
  obtain ⟨happ, hlen, -, -⟩ := queuePullSample_ok hq h
  rw [← happ, List.rtake, List.length_append]
  have hlength := congrArg List.length happ
  simp only [List.length_append, List.length_singleton] at hlength
  have hle := hq.length_le
  rw [List.drop_left']
  omega

/-- A search that ends at the first pending sample, or for want of one, keeps nothing. -/
theorem refines_of_skipped_nil {filters : Φ} (pending : List S) {q : PullMismatchQueueState F}
    {r : Except Fault F} (hq : q.Bounded config.pullMismatchQueueCapacity)
    (hskip : skipped C filters pending = [])
    (hr : r.mapError Fault.code? = takeFirst C pending) :
    Refines (r, ⟨pending.drop 1, q⟩) (orderedScan C config filters q.queue pending) q := by
  have hle := hq.length_le
  have hd := hq.dropped_le
  have hrej := hq.rejected_le
  unfold orderedScan
  simp only [hskip, List.length_nil, List.drop_zero, List.append_nil, Nat.add_zero]
  cases config.pullMismatchQueueFullPolicy with
  | DropOldestAndReport =>
    exact ⟨hr, (List.rtake_of_length_le hle).symm, rfl, by dsimp only; omega, by simp [hrej]⟩
  | RejectNewestAndReport =>
    simp only [if_pos hle]
    exact ⟨hr, rfl, rfl, by simp [hd], by simp [hrej]⟩

/-- A counter that stops at `u` stops there however it is moved. -/
theorem min_min_add (u n k : ℕ) : min u (min u n + k) = min u (n + k) := by omega

/-- One item and then `n` more push out of a window of `c` what they push out together. -/
theorem overflow_add (c k n : ℕ) : k + 1 - c + (min c (k + 1) + n - c) = k + (n + 1) - c := by
  omega

/-- Keeping one more frame before the search goes on. -/
theorem Refines.of_keep (hpolicy : config.pullMismatchQueueFullPolicy = .RejectNewestAndReport →
      0 < config.pullMismatchQueueCapacity) {filters : Φ} {sample : S} {pending : List S}
    {frame : F} {q : PullMismatchQueueState F} {out : Except Fault F × PullState F (List S)}
    (hq : q.Bounded config.pullMismatchQueueCapacity)
    (hres : (queuePullSample C.toFrameView config frame q).result = .ok ())
    (hskip : skipped C filters (sample :: pending) = frame :: skipped C filters pending)
    (h : Refines out (orderedScan C config filters
      (queuePullSample C.toFrameView config frame q).state.queue pending)
      (queuePullSample C.toFrameView config frame q).state) :
    Refines out (orderedScan C config filters q.queue (sample :: pending)) q := by
  obtain ⟨-, hlen, hdropped, hrejected⟩ := queuePullSample_ok hq hres
  have hqueue := queuePullSample_rtake hq hres
  have hle := hq.length_le
  have hnot := queuePullSample_result.1 hres
  obtain ⟨hr, hs, hp, hd, hj⟩ := h
  rw [hdropped, hlen] at hd
  rw [hrejected] at hj
  unfold orderedScan at hr hs hp hd hj ⊢
  rw [hqueue] at hr hs hp hd hj
  simp only [hskip, List.length_cons, List.drop_succ_cons] at hr hs hp hd hj ⊢
  cases hcase : config.pullMismatchQueueFullPolicy with
  | DropOldestAndReport =>
    simp only [hcase, List.rtake_rtake_append, List.append_assoc, List.singleton_append,
      List.length_rtake, List.length_append, List.length_singleton] at hr hs hp hd hj ⊢
    refine ⟨hr, hs, hp, ?_, hj⟩
    dsimp only
    rw [hd, min_min_add, Nat.add_assoc, overflow_add]
  | RejectNewestAndReport =>
    have hpos := hpolicy hcase
    have hroom : q.queue.length < config.pullMismatchQueueCapacity := by
      by_contra hfull
      exact hnot ⟨hcase, hpos, by omega⟩
    have hfits : (q.queue ++ [frame]).rtake config.pullMismatchQueueCapacity =
        q.queue ++ [frame] := by
      apply List.rtake_of_length_le
      rw [List.length_append, List.length_singleton]
      omega
    have hzero : q.queue.length + 1 - config.pullMismatchQueueCapacity = 0 := by omega
    have hsucc : config.pullMismatchQueueCapacity - q.queue.length =
        config.pullMismatchQueueCapacity - (q.queue.length + 1) + 1 := by omega
    have hadd : q.queue.length + ((skipped C filters pending).length + 1) =
        q.queue.length + 1 + (skipped C filters pending).length := by omega
    simp only [hcase, hfits, hzero, List.length_append, List.length_singleton, List.append_assoc,
      List.singleton_append, Nat.add_zero] at hr hs hp hd hj ⊢
    rw [hadd]
    split_ifs at hr hs hp hd hj ⊢ with hfit
    · exact ⟨hr, hs, hp, by dsimp only at hd ⊢; omega, hj⟩
    · refine ⟨hr, ?_, ?_, by dsimp only at hd ⊢; omega, hj⟩
      · rw [hs, hsucc, List.take_succ_cons]
      · rw [hp, hsucc]

theorem receiveLoop_refines (hC : C.RejectsAsInvalid)
    (hpolicy : config.pullMismatchQueueFullPolicy = .RejectNewestAndReport →
      0 < config.pullMismatchQueueCapacity) (filters : Φ) :
    ∀ (pending : List S) {q : PullMismatchQueueState F},
      q.Bounded config.pullMismatchQueueCapacity →
      Refines (receiveLoop config (stubBackend C) filters ⟨pending, q⟩)
        (orderedScan C config filters q.queue pending) q
  | [], q, hq => by
    rw [receiveLoop_nothing (s := ⟨[], q⟩) rfl]
    exact refines_of_skipped_nil [] hq rfl rfl
  | sample :: pending, q, hq => by
    cases hd : C.decode sample with
    | error e =>
      have hnext : (stubBackend C).receiveNext (sample :: pending) = (.lost sample e, pending) := by
        simp only [stubBackend, stubReceiveNext, hd]
      rw [receiveLoop_lost (s := ⟨sample :: pending, q⟩) hnext]
      refine refines_of_skipped_nil (sample :: pending) hq ?_ ?_
      · simp only [skipped, hd]
      · simp only [takeFirst, hd, Except.mapError, hC sample e hd]
    | ok frame =>
      have hnext : (stubBackend C).receiveNext (sample :: pending) = (.frame frame, pending) := by
        simp only [stubBackend, stubReceiveNext, hd]
      cases hf : C.matchesFilter filters frame with
      | true =>
        rw [receiveLoop_match (s := ⟨sample :: pending, q⟩) hnext hf]
        refine refines_of_skipped_nil (sample :: pending) hq ?_ ?_
        · simp only [skipped, hd, hf, if_true]
        · simp only [takeFirst, hd, Except.mapError]
      | false =>
        have hskip : skipped C filters (sample :: pending) =
            frame :: skipped C filters pending := by
          simp [skipped, hd, hf]
        cases hres : (queuePullSample C.toFrameView config frame q).result with
        | ok u =>
          rw [receiveLoop_keep (s := ⟨sample :: pending, q⟩) hnext hf hres, stubBackend_releaseAll]
          have hq' := queuePullSample_bounded (V := C.toFrameView) frame hq
          exact (receiveLoop_refines hC hpolicy filters pending hq').of_keep hpolicy hq hres hskip
        | error e =>
          rw [receiveLoop_refuse (s := ⟨sample :: pending, q⟩) hnext hf hres,
            stubBackend_releaseAll]
          obtain ⟨hcase, hpos, hfull, hcode, -, hqueue, hdropped, hrejected⟩ :=
            queuePullSample_error hres
          have hroom : config.pullMismatchQueueCapacity - q.queue.length = 0 := by omega
          have hover : ¬ q.queue.length + ((skipped C filters pending).length + 1) ≤
              config.pullMismatchQueueCapacity := by omega
          have hd := hq.dropped_le
          simp only [orderedScan, hcase, hskip, List.length_cons, if_neg hover, hroom]
          refine ⟨?_, by simp [hqueue], rfl, ?_, hrejected⟩
          · simp only [Except.mapError, hcode]
          · simp only [hdropped]
            omega

theorem receive_refines (hC : C.RejectsAsInvalid)
    (hpolicy : config.pullMismatchQueueFullPolicy = .RejectNewestAndReport →
      0 < config.pullMismatchQueueCapacity) (filters : Φ) (pending : List S)
    {q : PullMismatchQueueState F} (hq : q.Bounded config.pullMismatchQueueCapacity) :
    Refines (receiveValidatedZeroCopy config (stubBackend C) filters ⟨pending, q⟩)
      (orderedReceive C config filters q.queue pending) q := by
  have hd := hq.dropped_le
  have hj := hq.rejected_le
  unfold receiveValidatedZeroCopy orderedReceive
  split
  · rename_i f q' h
    obtain ⟨q₁, q₂, hqueue, hbefore, hf, rfl⟩ := popQueuedPullSample_some h
    have hbefore' : ∀ g ∈ q₁, ¬ C.matchesFilter filters g = true := by
      intro g hg
      simp [hbefore g hg]
    have hfind : q.queue.find? (C.matchesFilter filters) = some f := by
      rw [hqueue, List.find?_append, List.find?_eq_none.2 hbefore', Option.none_or,
        List.find?_cons_of_pos hf]
    have herase : q.queue.eraseP (C.matchesFilter filters) = q₁ ++ q₂ := by
      rw [hqueue, List.eraseP_append_right _ hbefore', List.eraseP_cons_of_pos hf]
    rw [hfind, herase]
    exact ⟨rfl, rfl, rfl, by simp [hd], by simp [hj]⟩
  · rename_i q' h
    obtain ⟨-, hnone⟩ := popQueuedPullSample_none h
    have hfind : q.queue.find? (C.matchesFilter filters) = none :=
      List.find?_eq_none.2 fun g hg => by simp [hnone g hg]
    rw [hfind]
    exact receiveLoop_refines hC hpolicy filters pending hq

/-- In every sequential run the kept frames and the pending samples are in the order they were sent,
and a receive takes from them as `orderedReceive` does.  (Under `RejectNewestAndReport` a capacity
of 0 keeps nothing and rejects nothing.) -/
theorem sequential_receive_refines {U : UpRust} {w : PointerWidth} (hU : U.RejectsAsInvalid)
    (config : LolaTransportConfig) (ops : List (PullOp (Filters U) (List UInt8))) :
    let C := lolaFrames U w
    let s := runPull config (stubBackend C) ⟨[], {}⟩ ops
    (s.pullMismatchQueue.queue.map LolaRxLease.sample ++ s.backend).Sublist (sentBy ops) ∧
      ((config.pullMismatchQueueFullPolicy = .RejectNewestAndReport →
          0 < config.pullMismatchQueueCapacity) →
        ∀ filters, Refines (receiveValidatedZeroCopy config (stubBackend C) filters s)
          (orderedReceive C config filters s.pullMismatchQueue.queue s.backend)
          s.pullMismatchQueue) := by
  intro C s
  obtain ⟨hbounded, hline⟩ := runPull_keeps (B := stubBackend C) ⟨[], {}⟩
    (PullMismatchQueueState.bounded_empty config.pullMismatchQueueCapacity) ops
  refine ⟨hline, fun hpolicy filters => ?_⟩
  exact receive_refines (lolaFrames_rejectsAsInvalid hU) hpolicy filters s.backend hbounded

/-- A mismatched sample and a match behind it, with room for one. -/
theorem sequential_receive_refines_plain :
    let config := plainConfig 4 1 .RejectNewestAndReport
    let s := runPull config (stubBackend plainFrames) ⟨[], {}⟩ [.send sampleB, .send sampleA]
    (s.pullMismatchQueue.queue.map LolaRxLease.sample ++ s.backend).Sublist [sampleB, sampleA] ∧
      Refines (receiveValidatedZeroCopy config (stubBackend plainFrames) filtersA s)
        (orderedReceive plainFrames config filtersA s.pullMismatchQueue.queue s.backend)
        s.pullMismatchQueue := by
  intro config s
  have h := sequential_receive_refines (w := .w64) plainUpRust_rejectsAsInvalid config
    [.send sampleB, .send sampleA]
  exact ⟨h.1, h.2 (fun _ => Nat.one_pos) filtersA⟩

/-- Nothing is kept at capacity 0. -/
def dropAll : LolaTransportConfig := plainConfig 1 0 .DropOldestAndReport

theorem skipped_sampleB : skipped plainFrames filtersA [sampleB] = [leaseB] := by
  have hdecode : plainFrames.decode sampleB = .ok leaseB := fromSample_sampleB
  have hmatch : plainFrames.matchesFilter filtersA leaseB = false := frameMatches_plain.2.1
  simp [skipped, hdecode, hmatch]

/-- One mismatch, sent and received past, is dropped. -/
theorem dropAll_receive {q : PullMismatchQueueState (LolaRxLease plainUpRust)}
    (hq : q.Bounded 0) :
    Refines (receiveValidatedZeroCopy dropAll (stubBackend plainFrames) filtersA ⟨[sampleB], q⟩)
      { result := .error (some .NOT_FOUND), queue := [], pending := [], dropped := 1 } q := by
  have hnil : q.queue = [] := List.length_eq_zero_iff.1 (Nat.le_zero.1 hq.length_le)
  have hpolicy : dropAll.pullMismatchQueueFullPolicy = .RejectNewestAndReport →
      0 < dropAll.pullMismatchQueueCapacity := fun h => by cases h
  have h := receive_refines (C := plainFrames)
    (lolaFrames_rejectsAsInvalid plainUpRust_rejectsAsInvalid) hpolicy filtersA [sampleB] hq
  rw [hnil, orderedReceive, List.find?_nil] at h
  simp only [orderedScan, skipped_sampleB] at h
  exact h

/-- `n` mismatches, each sent and received past. -/
def dropRounds (n : ℕ) : List (PullOp (Filters plainUpRust) (List UInt8)) :=
  (List.replicate n [.send sampleB, .receive filtersA]).flatten

theorem runPull_dropRounds (n : ℕ) :
    let s := runPull dropAll (stubBackend plainFrames) ⟨[], {}⟩ (dropRounds n)
    s.backend = [] ∧ s.pullMismatchQueue.Bounded 0 ∧
      s.pullMismatchQueue.droppedMismatches = min u64Max n := by
  induction n with
  | zero => exact ⟨rfl, PullMismatchQueueState.bounded_empty 0, (Nat.min_zero _).symm⟩
  | succ n ih =>
    have hrounds : dropRounds (n + 1) =
        dropRounds n ++ [.send sampleB] ++ [.receive filtersA] := by
      simp [dropRounds, List.replicate_succ', List.flatten_append]
    obtain ⟨hpending, hbounded, hdropped⟩ := ih
    rw [hrounds, runPull_concat, runPull_concat]
    generalize runPull dropAll (stubBackend plainFrames) ⟨[], {}⟩ (dropRounds n) = s at *
    obtain ⟨pending, q⟩ := s
    cases hpending
    have h := dropAll_receive hbounded
    have hkept : q.Bounded dropAll.pullMismatchQueueCapacity := hbounded
    have hkeeps := (receive_keeps (B := stubBackend plainFrames) filtersA ⟨[sampleB], q⟩ hkept).1
    refine ⟨h.pending, hkeeps, h.dropped.trans ?_⟩
    dsimp only at hdropped ⊢
    omega

/-- After 2^64 - 1 drops, one more mismatch is dropped and the counter does not move. -/
theorem dropped_does_not_grow :
    let s := runPull dropAll (stubBackend plainFrames) ⟨[], {}⟩
      (dropRounds u64Max ++ [.send sampleB])
    let s' := (receiveValidatedZeroCopy dropAll (stubBackend plainFrames) filtersA s).2
    s'.pullMismatchQueue.droppedMismatches ≠
      s.pullMismatchQueue.droppedMismatches +
        (s.pullMismatchQueue.queue.length + (skipped plainFrames filtersA s.backend).length -
          dropAll.pullMismatchQueueCapacity) := by
  obtain ⟨hpending, hbounded, hdropped⟩ := runPull_dropRounds u64Max
  rw [runPull_concat]
  generalize runPull dropAll (stubBackend plainFrames) ⟨[], {}⟩ (dropRounds u64Max) = s at *
  obtain ⟨pending, q⟩ := s
  cases hpending
  have hnil : q.queue = [] := List.length_eq_zero_iff.1 (Nat.le_zero.1 hbounded.length_le)
  have h := (dropAll_receive hbounded).dropped
  dsimp only at h hdropped
  have hgrowth : 0 + [leaseB].length - dropAll.pullMismatchQueueCapacity = 1 := rfl
  show (receiveValidatedZeroCopy dropAll (stubBackend plainFrames) filtersA
    ⟨[sampleB], q⟩).2.pullMismatchQueue.droppedMismatches ≠ q.droppedMismatches +
      (q.queue.length + (skipped plainFrames filtersA [sampleB]).length -
        dropAll.pullMismatchQueueCapacity)
  rw [h, hnil, skipped_sampleB, List.length_nil, hgrowth]
  omega

end LolaTransport
