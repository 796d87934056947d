import LolaTransport.Config
import LolaTransport.Frame
import LolaTransport.Lib.Fallible

/-!
# Filtered pull receive

A pull receive first searches the frames that earlier receives kept because they matched another
filter, and then takes samples until one matches, keeping the ones that do not in the bounded
mismatch queue.  `receiveValidatedZeroCopy` is one such call from beginning to end.

What a sample and a frame are is left open (`FrameView`), and so is where samples come from
(`PullBackend`): in the stub backend `pending`, in the native one a subscription.
-/

namespace LolaTransport

/-! ## Frames -/

/-- How the receive path looks at a frame: the sample it holds, whether it matches a call's
filters, and the text of its source. -/
structure FrameView (Φ S F : Type) where
  sample : F → S
  matchesFilter : Φ → F → Bool
  sourceText : F → String

/-- Frames that are read from samples, as `LolaRxLease::from_vec` reads them. -/
structure FrameCodec (Φ S F : Type) extends FrameView Φ S F where
  decode : S → Except Fault F
  sample_decode : ∀ {s f}, decode s = .ok f → sample f = s

/-- The filters of a receive call or of a listener. -/
structure Filters (U : UpRust) where
  sourceFilter : U.UUri
  sinkFilter : Option U.UUri

instance {U : UpRust} [DecidableEq U.UUri] : DecidableEq (Filters U) := fun a b =>
  decidable_of_iff (a.sourceFilter = b.sourceFilter ∧ a.sinkFilter = b.sinkFilter)
    (by cases a; cases b; simp)

def frameMatches {U : UpRust} (filters : Filters U) (frame : LolaRxLease U) : Bool :=
  U.uriMatches filters.sourceFilter frame.metadata.attributes.source &&
    filters.sinkFilter.all fun filter =>
      frame.metadata.attributes.sink.any fun sink => U.uriMatches filter sink

theorem sample_fromSample {U : UpRust} {w : PointerWidth} {sample : List UInt8}
    {lease : LolaRxLease U} (h : LolaRxLease.fromSample U w sample = .ok lease) :
    lease.sample = sample := by
  simp only [LolaRxLease.fromSample, Fallible.bind_eq_ok] at h
  obtain ⟨⟨metadata, payloadOffset, payloadLen⟩, -, h⟩ := h
  dsimp only at h
  split at h
  · cases h
  · split at h
    · cases h
      rfl
    · cases h

/-- Samples as bytes, and the leases read from them. -/
def lolaFrames (U : UpRust) (w : PointerWidth) :
    FrameCodec (Filters U) (List UInt8) (LolaRxLease U) where
  sample := LolaRxLease.sample
  matchesFilter := frameMatches
  sourceText frame := U.toUri frame.metadata.attributes.source false
  decode := LolaRxLease.fromSample U w
  sample_decode := sample_fromSample

/-- The same samples, told apart by numbers that no code looks at. -/
def FrameCodec.numbered {Φ S F : Type} (V : FrameCodec Φ S F) :
    FrameCodec Φ (ℕ × S) (ℕ × F) where
  sample f := (f.1, V.sample f.2)
  matchesFilter filters f := V.matchesFilter filters f.2
  sourceText f := V.sourceText f.2
  decode s := match V.decode s.2 with
    | .ok f => .ok (s.1, f)
    | .error e => .error e
  sample_decode := by
    rintro ⟨n, s⟩ ⟨k, f⟩ h
    cases hd : V.decode s with
    | error e => simp [hd] at h
    | ok f' =>
      simp only [hd, Except.ok.injEq, Prod.mk.injEq] at h
      obtain ⟨rfl, rfl⟩ := h
      rw [V.sample_decode hd]

variable {Φ S F σ : Type} (V : FrameView Φ S F) (config : LolaTransportConfig)

/-! ## The mismatch queue -/

structure PullMismatchQueueState (F : Type) where
  queue : List F := []
  droppedMismatches : ℕ := 0
  rejectedMismatches : ℕ := 0
  lastMismatchReason : Option String := none
  deriving Repr

structure LolaPullMismatchQueueDiagnostics where
  currentDepth : ℕ
  droppedMismatches : ℕ
  rejectedMismatches : ℕ
  lastMismatchReason : Option String
  deriving DecidableEq, Repr

def PullMismatchQueueState.diagnostics (state : PullMismatchQueueState F) :
    LolaPullMismatchQueueDiagnostics where
  currentDepth := state.queue.length
  droppedMismatches := state.droppedMismatches
  rejectedMismatches := state.rejectedMismatches
  lastMismatchReason := state.lastMismatchReason

/-- The first queued frame that matches, taken out of the queue. -/
def popQueuedPullSample (filters : Φ) (state : PullMismatchQueueState F) :
    Option F × PullMismatchQueueState F :=
  match state.queue.findIdx? (V.matchesFilter filters) with
  | none => (none, state)
  | some index => (state.queue[index]?, { state with queue := state.queue.eraseIdx index })

/-- What `queue_pull_sample` returns and leaves, and the frames it let go of. -/
structure Queued (F : Type) where
  result : Except Fault Unit
  state : PullMismatchQueueState F
  letGo : List F

def queuePullSample (frame : F) (state : PullMismatchQueueState F) : Queued F :=
  let capacity := config.pullMismatchQueueCapacity
  let source := V.sourceText frame
  if capacity = 0 then
    { result := .ok ()
      state := { state with
        droppedMismatches := saturatingSucc state.droppedMismatches
        lastMismatchReason := some
          s!"dropped mismatched LoLa pull sample from {source}; capacity is 0" }
      letGo := [frame] }
  else
    let isFull := state.queue.length ≥ capacity
    if isFull ∧ config.pullMismatchQueueFullPolicy = .RejectNewestAndReport then
      { result := .error (failWithCode .RESOURCE_EXHAUSTED
          s!"LoLa pull mismatch queue full; capacity is {capacity}")
        state := { state with
          rejectedMismatches := saturatingSucc state.rejectedMismatches
          lastMismatchReason := some
            s!"rejected newest mismatched LoLa pull sample from {source}; capacity is {capacity}" }
        letGo := [frame] }
    else if isFull then
      { result := .ok ()
        state := { state with
          queue := state.queue.drop 1 ++ [frame]
          droppedMismatches := saturatingSucc state.droppedMismatches
          lastMismatchReason := some
            s!"dropped oldest mismatched LoLa pull sample from {source}; capacity is {capacity}" }
        letGo := state.queue.take 1 }
    else
      { result := .ok ()
        state := { state with
          queue := state.queue ++ [frame]
          lastMismatchReason := some
            s!"queued mismatched LoLa pull sample from {source}; depth is {state.queue.length + 1}" }
        letGo := [] }

/-! ## Where samples come from -/

/-- What taking the next sample comes to: an error with no sample taken, an error that costs the
sample that was taken, or a frame. -/
inductive Taken (S F : Type)
  | nothing (e : Fault)
  | lost (s : S) (e : Fault)
  | frame (f : F)

/-- The samples that were taken. -/
def Taken.removed {V : FrameView Φ S F} : Taken S F → List S
  | .nothing _ => []
  | .lost s _ => [s]
  | .frame f => [V.sample f]

/-- A source of samples: `samples` are those it has yet to hand out, in order, `arrive` adds one
behind them, `receiveNext` takes the first and `release` is the drop of a frame. -/
structure PullBackend (V : FrameView Φ S F) (σ : Type) where
  receiveNext : σ → Taken S F × σ
  release : F → σ → σ
  arrive : S → σ → σ
  samples : σ → List S
  samples_receiveNext : ∀ b,
    (receiveNext b).1.removed (V := V) ++ samples (receiveNext b).2 = samples b
  samples_release : ∀ f b, samples (release f b) = samples b
  samples_arrive : ∀ s b, samples (arrive s b) = samples b ++ [s]

/-- The front of `pending` in the stub backend. -/
def stubReceiveNext (C : FrameCodec Φ S F) : List S → Taken S F × List S
  | [] => (.nothing (failWithCode .NOT_FOUND "no LoLa sample available"), [])
  | sample :: pending =>
    match C.decode sample with
    | .ok frame => (.frame frame, pending)
    | .error e => (.lost sample e, pending)

def stubBackend (C : FrameCodec Φ S F) : PullBackend C.toFrameView (List S) where
  receiveNext := stubReceiveNext C
  release _ pending := pending
  arrive sample pending := pending ++ [sample]
  samples pending := pending
  samples_receiveNext pending := by
    cases pending with
    | nil => rfl
    | cons sample pending =>
      cases hd : C.decode sample with
      | error e => simp only [stubReceiveNext, hd, Taken.removed, List.singleton_append]
      | ok frame =>
        simp only [stubReceiveNext, hd, Taken.removed, C.sample_decode hd, List.singleton_append]
  samples_release _ _ := rfl
  samples_arrive _ _ := rfl

/-! ## A whole call -/

structure PullState (F σ : Type) where
  backend : σ
  pullMismatchQueue : PullMismatchQueueState F := {}

def PullState.pullMismatchQueueDiagnostics (s : PullState F σ) : LolaPullMismatchQueueDiagnostics :=
  s.pullMismatchQueue.diagnostics

variable {V}

theorem PullBackend.samples_lt (B : PullBackend V σ) {b b' : σ} {f : F}
    (h : B.receiveNext b = (.frame f, b')) : (B.samples b').length < (B.samples b).length := by
  have hs := congrArg List.length (B.samples_receiveNext b)
  simp only [h, Taken.removed, List.length_append, List.length_singleton] at hs
  omega

/-- The frames a step let go of, dropped one after another. -/
def PullBackend.releaseAll (B : PullBackend V σ) (letGo : List F) (b : σ) : σ :=
  letGo.foldl (fun b f => B.release f b) b

@[simp] theorem PullBackend.samples_releaseAll (B : PullBackend V σ) :
    ∀ (letGo : List F) (b : σ), B.samples (B.releaseAll letGo b) = B.samples b
  | [], _ => rfl
  | f :: letGo, b => by
    rw [releaseAll, List.foldl_cons]
    exact (B.samples_releaseAll letGo (B.release f b)).trans (B.samples_release f b)

/-- The loop that takes samples until one matches. -/
def receiveLoop (B : PullBackend V σ) (filters : Φ) (s : PullState F σ) :
    Except Fault F × PullState F σ :=
  match _h : B.receiveNext s.backend with
  | (.nothing e, b) => (.error e, { s with backend := b })
  | (.lost _ e, b) => (.error e, { s with backend := b })
  | (.frame frame, b) =>
    if V.matchesFilter filters frame then (.ok frame, { s with backend := b })
    else
      let queued := queuePullSample V config frame s.pullMismatchQueue
      let s' : PullState F σ := ⟨B.releaseAll queued.letGo b, queued.state⟩
      match queued.result with
      | .error e => (.error e, s')
      | .ok () => receiveLoop B filters s'
termination_by (B.samples s.backend).length
decreasing_by
  rw [B.samples_releaseAll]
  exact B.samples_lt _h

def receiveValidatedZeroCopy (B : PullBackend V σ) (filters : Φ) (s : PullState F σ) :
    Except Fault F × PullState F σ :=
  match popQueuedPullSample V filters s.pullMismatchQueue with
  | (some frame, queue) => (.ok frame, { s with pullMismatchQueue := queue })
  | (none, _) => receiveLoop config B filters s

/-- `send_validated_zero_copy` of the stub backend, on the sample of the loan. -/
def sendValidatedZeroCopy (B : PullBackend V σ) (sample : S) (s : PullState F σ) :
    PullState F σ :=
  { s with backend := B.arrive sample s.backend }

/-! ## Sequential use -/

/-- Sends and receives that do not overlap. -/
inductive PullOp (Φ S : Type)
  | send (sample : S)
  | receive (filters : Φ)

def PullOp.apply (B : PullBackend V σ) (s : PullState F σ) : PullOp Φ S → PullState F σ
  | .send sample => sendValidatedZeroCopy B sample s
  | .receive filters => (receiveValidatedZeroCopy config B filters s).2

def runPull (B : PullBackend V σ) (s : PullState F σ) (ops : List (PullOp Φ S)) : PullState F σ :=
  ops.foldl (PullOp.apply config B) s

/-- The same by callers that drop each lease they are given before the next call. -/
def PullOp.applyAndDrop (B : PullBackend V σ) (s : PullState F σ) : PullOp Φ S → PullState F σ
  | .send sample => sendValidatedZeroCopy B sample s
  | .receive filters =>
    match receiveValidatedZeroCopy config B filters s with
    | (.ok frame, s) => { s with backend := B.release frame s.backend }
    | (.error _, s) => s

def runPullAndDrop (B : PullBackend V σ) (s : PullState F σ) (ops : List (PullOp Φ S)) :
    PullState F σ :=
  ops.foldl (PullOp.applyAndDrop config B) s

/-- The samples sent, in order. -/
def sentBy (ops : List (PullOp Φ S)) : List S :=
  ops.filterMap fun
    | .send sample => some sample
    | .receive _ => none

end LolaTransport
