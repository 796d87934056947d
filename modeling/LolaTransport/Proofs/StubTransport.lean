import LolaTransport.Proofs.ListenerHosts
import LolaTransport.Proofs.PullConservation
import LolaTransport.StubTransport

/-!
# Samples in the stub transport

Receive calls and listener tasks compete for the samples.  Whatever they do, a sample that a poll
has taken is in none of the places it could be in for receive calls, and is handed to each
registration at most once (`samples_once`).  As long as one task polls at a time, a registration
gets its samples in the order they were sent, whatever the receive calls take in between
(`callbacks_in_sent_order`).
-/

namespace LolaTransport

variable {Φ S F L σ : Type}

/-- The sample that an action sends, when `n` have been sent before. -/
def PullAction.sends (n : ℕ) : PullAction Φ S → List (ℕ × S)
  | .send sample => [(n, sample)]
  | _ => []

namespace PullCalls

variable {τ : Type} {V : FrameView Φ (ℕ × S) F} {config : LolaTransportConfig}
  {B : PullBackend V τ} {s s' : PullCalls Φ S F τ} {a : PullAction Φ S}

theorem sends_step (h : StepCase config B s a s') : s'.sent = s.sent ++ a.sends s.sent.length := by
  cases h with
  | send sample => rfl
  | _ => exact (List.append_nil _).symm

theorem bounded_step (hq : s.pull.pullMismatchQueue.Bounded config.pullMismatchQueueCapacity)
    (h : StepCase config B s a s') :
    s'.pull.pullMismatchQueue.Bounded config.pullMismatchQueueCapacity := by
  cases h with
  | @found i c f q hc hp hpop =>
    obtain ⟨q₁, q₂, hqueue, -, -, rfl⟩ := popQueuedPullSample_some hpop
    have hle := hq.length_le
    rw [hqueue, List.length_append, List.length_cons] at hle
    refine ⟨?_, hq.dropped_le, hq.rejected_le⟩
    rw [setPhase, List.length_append]
    omega
  | kept hc hp hqueued hok | refused hc hp hqueued herror =>
    subst hqueued
    exact queuePullSample_bounded _ hq
  | _ => exact hq

/-- Samples are taken from the front, and sent to the back. -/
theorem samples_step (h : StepCase config B s a s') :
    (B.samples s'.pull.backend).Sublist
      (B.samples s.pull.backend ++ a.sends s.sent.length) := by
  have htaken {result : Taken (ℕ × S) F} {b : τ}
      (h : B.receiveNext s.pull.backend = (result, b)) :
      (B.samples b).Sublist (B.samples s.pull.backend ++ []) := by
    have hsamples := B.samples_receiveNext s.pull.backend
    rw [h] at hsamples
    rw [List.append_nil, ← hsamples]
    exact List.sublist_append_right _ _
  have hsame {b : τ} (h : B.samples b = B.samples s.pull.backend) :
      (B.samples b).Sublist (B.samples s.pull.backend ++ []) := by
    rw [h, List.append_nil]
  cases h with
  | send sample =>
    rw [sendValidatedZeroCopy, B.samples_arrive]
    exact .refl _
  | nothing hc hp hnext | lost hc hp hnext | matched hc hp hnext | mismatched hc hp hnext =>
    exact htaken hnext
  | kept | refused => exact hsame (B.samples_releaseAll _ _)
  | abandoned | released => exact hsame (B.samples_release _ _)
  | start | found | notFound | cancelled => exact hsame rfl

end PullCalls

namespace StubTransport

/-- The sample that an action sends. -/
def sends (s : StubTransport Φ S F L σ) : StubAction Φ S L σ → List (ℕ × S)
  | .pull a => a.sends s.pulling.sent.length
  | .listen _ => []

/-- The sample that a poll takes with an action. -/
def polled (s : StubTransport Φ S F L σ) : StubAction Φ S L σ → List (ℕ × S)
  | .pull _ => []
  | .listen a => s.listening.polls a

/-- The delivery with which an action starts a call to `on_receive_zero_copy`. -/
def started (s : StubTransport Φ S F L σ) : StubAction Φ S L σ → List (L × (ℕ × F))
  | .pull _ => []
  | .listen a => s.listening.started a

section Steps

variable [DecidableEq Φ] [DecidableEq L] (config : LolaTransportConfig)
  (receive : σ → Except Fault (ℕ × S) × σ) (C : FrameCodec Φ S F)

inductive StepCase (s : StubTransport Φ S F L σ) :
    StubAction Φ S L σ → StubTransport Φ S F L σ → Prop
  | pulled {a pulling}
      (h : PullCalls.StepCase config (stubBackend C.numbered) s.pulling a pulling) :
      StepCase s (.pull a) ⟨pulling, { s.listening with pending := pulling.pull.backend }, rfl⟩
  | listened {a listening} (hsent : a.sent = [])
      (h : s.listening.step .stub receive C.numbered a = some listening) :
      StepCase s (.listen a) ⟨{ s.pulling with pull.backend := listening.pending }, listening, rfl⟩

variable {config receive C} {s s' : StubTransport Φ S F L σ} {a : StubAction Φ S L σ}

theorem step_cases (h : step config receive C s a = some s') :
    StepCase config receive C s a s' := by
  cases a with
  | pull a =>
    obtain ⟨pulling, hpulling, h⟩ := Option.bind_eq_some_iff.1 h
    cases h
    exact .pulled (PullCalls.step_cases hpulling)
  | listen a =>
    cases a with
    | arrive => cases h
    | _ =>
      simp only [step] at h
      obtain ⟨listening, hlistening, h⟩ := Option.bind_eq_some_iff.1 h
      cases h
      exact .listened rfl hlistening

theorem sent_step (h : step config receive C s a = some s') :
    s'.pulling.sent = s.pulling.sent ++ s.sends a := by
  cases step_cases h with
  | pulled hpull => exact PullCalls.sends_step hpull
  | listened => exact (List.append_nil _).symm

/-- What is pending leaves from the front, and what is sent joins at the back. -/
theorem pending_step (h : step config receive C s a = some s') :
    (s.polled a ++ s'.listening.pending).Sublist (s.listening.pending ++ s.sends a) := by
  cases step_cases h with
  | pulled hpull =>
    rw [s.pending]
    exact PullCalls.samples_step hpull
  | @listened b listening hsent hlisten =>
    have hpending := ListenerState.pending_step hlisten
    rw [hsent] at hpending
    exact hpending ▸ .refl _

theorem bounded_step
    (hq : s.pulling.pull.pullMismatchQueue.Bounded config.pullMismatchQueueCapacity)
    (h : step config receive C s a = some s') :
    s'.pulling.pull.pullMismatchQueue.Bounded config.pullMismatchQueueCapacity := by
  cases step_cases h with
  | pulled hpull => exact PullCalls.bounded_step hq hpull
  | listened => exact hq

/-- What polls take is no longer in the places of the receive calls. -/
theorem places_step
    (hq : s.pulling.pull.pullMismatchQueue.Bounded config.pullMismatchQueueCapacity)
    (h : step config receive C s a = some s') :
    (s.polled a ++ s'.pulling.places (stubBackend C.numbered)).Perm
      (s.pulling.places (stubBackend C.numbered) ++ s.sends a) := by
  classical
  rw [List.perm_iff_count]
  intro x
  rw [List.count_append, List.count_append]
  have hsent := congrArg (List.count x) (sent_step h)
  rw [List.count_append] at hsent
  cases step_cases h with
  | pulled hpull =>
    have hplaces := PullCalls.count_places_step hpull hq x
    dsimp only [polled, sends] at hsent ⊢
    rw [List.count_nil]
    omega
  | @listened b listening hnone hlisten =>
    have hpending := congrArg (List.count x) (ListenerState.pending_step hlisten)
    rw [hnone, s.pending, List.append_nil, List.count_append] at hpending
    dsimp only [polled, sends, PullCalls.places, stubBackend]
    simp only [List.count_append, List.count_nil]
    omega

end Steps

end StubTransport

/-- What the listeners do with an action. -/
def StubAction.listened : StubAction Φ S L σ → Option (ListenerAction Φ (ℕ × S) L σ)
  | .pull _ => none
  | .listen a => some a

def StubAction.labelled : StubAction Φ S L σ → StubAction Φ S (Φ × L) σ
  | .pull a => .pull a
  | .listen a => .listen a.labelled

namespace StubTransport

/-- Without the labels. -/
def unlabelled (s : StubTransport Φ S F (Φ × L) σ) : StubTransport Φ S F L σ :=
  ⟨s.pulling, s.listening.unlabelled, s.pending⟩

/-- With this action a task starts while another still polls. -/
def Doubles (s : StubTransport Φ S F L σ) : StubAction Φ S L σ → Prop
  | .pull _ => False
  | .listen a => s.listening.Doubles a

/-- What the samples hold for a registration. -/
def matching (C : FrameCodec Φ S F) (id : Φ × L) (samples : List (ℕ × S)) : List (ℕ × F) :=
  samples.filterMap fun sample => wanted C.numbered id.1 (.ok sample)

section Hosted

variable [DecidableEq Φ] [DecidableEq L] {config : LolaTransportConfig}
  {receive : σ → Except Fault (ℕ × S) × σ} {C : FrameCodec Φ S F}
  {s s' : StubTransport Φ S F (Φ × L) σ} {a : StubAction Φ S L σ}

theorem step_unlabelled (hs : s.listening.Labelled) (a : StubAction Φ S L σ) :
    step config receive C s.unlabelled a =
      (step config receive C s a.labelled).map (·.unlabelled) := by
  cases a with
  | pull a =>
    simp only [step, StubAction.labelled]
    change (s.pulling.step config (stubBackend C.numbered) a).bind _ = _
    cases s.pulling.step config (stubBackend C.numbered) a <;> rfl
  | listen a =>
    have hstep : ListenerState.step .stub receive C.numbered s.listening.unlabelled a =
        (ListenerState.step .stub receive C.numbered s.listening a.labelled).map (·.unlabelled) :=
      ListenerState.step_unlabelled hs a
    cases a with
    | arrive => rfl
    | _ =>
      simp only [step, StubAction.labelled, ListenerAction.labelled]
      change (ListenerState.step .stub receive C.numbered s.listening.unlabelled _).bind _ = _
      rw [hstep]
      simp only [ListenerAction.labelled]
      cases ListenerState.step .stub receive C.numbered s.listening _ <;> rfl

theorem hosts : ListenerState.Hosts .stub receive C.numbered (step config receive C)
    (fun s : StubTransport Φ S F L σ => s.listening) StubAction.listened where
  quiet := by
    intro s a s' ha h
    cases a with
    | pull =>
      cases step_cases h with
      | pulled => exact ⟨rfl, rfl, rfl, rfl⟩
    | listen => simp [StubAction.listened] at ha
  acts := by
    intro s a s' b ha h
    cases a with
    | pull => simp [StubAction.listened] at ha
    | listen =>
      obtain rfl := Option.some.inj ha
      cases step_cases h with
      | listened hsent hlisten => exact hlisten

theorem labelled_hosts : ListenerState.Hosts .stub receive C.numbered
    (fun (s : StubTransport Φ S F (Φ × L) σ) (a : StubAction Φ S L σ) =>
      step config receive C s a.labelled) (·.listening) fun a => a.labelled.listened :=
  hosts.comp StubAction.labelled

omit [DecidableEq Φ] [DecidableEq L] in
theorem labels : ListenerState.Labels fun a : StubAction Φ S L σ => a.labelled.listened := by
  intro a b h
  cases a with
  | pull => simp [StubAction.labelled, StubAction.listened] at h
  | listen a => exact ⟨a, (Option.some.inj h).symm⟩

omit [DecidableEq Φ] [DecidableEq L] in
theorem traced_init :
    ListenerState.Traced C.numbered (init : StubTransport Φ S F (Φ × L) σ).listening :=
  ListenerState.traced_init

section Runs

theorem exec_unlabelled (actions : List (StubAction Φ S L σ))
    {s : StubTransport Φ S F (Φ × L) σ} (hs : ListenerState.Traced C.numbered s.listening) :
    Run.exec (step config receive C) s.unlabelled actions =
      (Run.exec (step config receive C) s (actions.map (·.labelled))).map (·.unlabelled) :=
  Run.exec_view (fun _ _ _ hs hstep => labelled_hosts.traced_step labels hs hstep)
    (fun _ a hs => step_unlabelled (ListenerState.Traced.labelled hs) a) actions hs

/-- The labels are nothing to what a run puts out. -/
theorem outputs_unlabelled {β γ : Type}
    {out : StubTransport Φ S F L σ → StubAction Φ S L σ → List γ}
    {out' : StubTransport Φ S F (Φ × L) σ → StubAction Φ S (Φ × L) σ → List β} (f : β → γ)
    (hout : ∀ s a, out s.unlabelled a = (out' s a.labelled).map f)
    (actions : List (StubAction Φ S L σ)) {s : StubTransport Φ S F (Φ × L) σ}
    (hs : ListenerState.Traced C.numbered s.listening) :
    Run.outputs (step config receive C) out s.unlabelled actions =
      (Run.outputs (step config receive C) out' s (actions.map (·.labelled))).map f :=
  Run.outputs_view f (fun _ _ _ hs hstep => labelled_hosts.traced_step labels hs hstep)
    (fun _ a hs => step_unlabelled (ListenerState.Traced.labelled hs) a) hout actions hs

theorem sent_exec : ∀ {actions : List (StubAction Φ S L σ)} {s t : StubTransport Φ S F L σ}
    (_ : Run.exec (step config receive C) s actions = some t),
    t.pulling.sent =
      s.pulling.sent ++ Run.outputs (step config receive C) sends s actions
  | [], s, t, h => by
    cases h
    exact (List.append_nil _).symm
  | a :: actions, s, t, h => by
    obtain ⟨s', hstep, h⟩ := Option.bind_eq_some_iff.1 h
    rw [sent_exec h, sent_step hstep, Run.outputs, hstep, Option.elim_some, List.append_assoc]

/-- Every sample sent is in a place of the receive calls, or a poll has taken it. -/
theorem places_exec {s : StubTransport Φ S F L σ} {actions : List (StubAction Φ S L σ)}
    (h : Run.exec (step config receive C) init actions = some s) :
    (Run.outputs (step config receive C) polled init actions ++
      s.pulling.places (stubBackend C.numbered)).Perm s.pulling.sent := by
  have hplaces := Run.outputs_rel (fun _ _ => False)
    (fun s : StubTransport Φ S F L σ => s.pulling.places (stubBackend C.numbered)) List.Perm.refl
    List.Perm.trans List.Perm.append (fun s a s' hq _ hstep =>
      ⟨bounded_step hq hstep, places_step hq hstep⟩)
    (PullMismatchQueueState.bounded_empty config.pullMismatchQueueCapacity) h
    fun _ _ _ _ _ _ => not_false
  rw [sent_exec h]
  exact hplaces

/-- Polls take samples in the order they were sent. -/
theorem polled_exec {s : StubTransport Φ S F L σ} {actions : List (StubAction Φ S L σ)}
    (h : Run.exec (step config receive C) init actions = some s) :
    (Run.outputs (step config receive C) polled init actions).Sublist s.pulling.sent := by
  have hpending := Run.outputs_rel (fun _ _ => False)
    (fun s : StubTransport Φ S F L σ => s.listening.pending) List.Sublist.refl
    List.Sublist.trans List.Sublist.append (fun s a s' (_ : True) _ hstep =>
      ⟨trivial, pending_step hstep⟩) trivial h fun _ _ _ _ _ _ => not_false
  rw [sent_exec h]
  exact (List.sublist_append_left _ _).trans hpending

theorem numbered_exec {s : StubTransport Φ S F L σ} {actions : List (StubAction Φ S L σ)}
    (h : Run.exec (step config receive C) init actions = some s) :
    s.pulling.sent.map Prod.fst = List.range s.pulling.sent.length := by
  refine Run.exec_keeps (I := fun s : StubTransport Φ S F L σ =>
    s.pulling.sent.map Prod.fst = List.range s.pulling.sent.length) (fun s a s' hs hstep => ?_)
    rfl h
  cases step_cases hstep with
  | pulled hpull =>
    rcases PullCalls.sent_step hpull with hsent | ⟨x, hsent⟩
    · rw [hsent]
      exact hs
    · rw [hsent, List.map_append, hs, List.length_append, List.length_singleton, List.range_succ]
      rfl
  | listened => exact hs

variable (config receive C) in
/-- What is handed to registrations of the labelled system, and what polls take for one. -/
theorem outputs_hosted (actions : List (StubAction Φ S L σ)) (id : Φ × L) :
    Run.outputs (step config receive C) started (init : StubTransport Φ S F (Φ × L) σ)
        (actions.map (·.labelled)) =
      Run.outputs (fun s (a : StubAction Φ S L σ) => step config receive C s a.labelled)
        (ListenerState.hosted (·.listening) (·.labelled.listened) ListenerState.started) init
        actions ∧
    matching C id (Run.outputs (step config receive C) polled
        (init : StubTransport Φ S F (Φ × L) σ) (actions.map (·.labelled))) =
      Run.outputs (fun s (a : StubAction Φ S L σ) => step config receive C s a.labelled)
        (ListenerState.hosted (·.listening) (·.labelled.listened)
          (ListenerState.taken .stub receive C.numbered id)) init actions := by
  constructor
  · rw [Run.outputs_map]
    congr 1
    funext s a
    cases a <;> rfl
  · rw [matching, Run.outputs_filterMap, Run.outputs_map]
    congr 1
    funext s a
    cases a with
    | pull => rfl
    | listen a => exact (ListenerState.taken_stub s.listening a.labelled).symm

theorem outputs_polled_unlabelled (actions : List (StubAction Φ S L σ)) :
    Run.outputs (step config receive C) polled init actions =
      Run.outputs (step config receive C) polled (init : StubTransport Φ S F (Φ × L) σ)
        (actions.map (·.labelled)) := by
  have hout (s : StubTransport Φ S F (Φ × L) σ) (a : StubAction Φ S L σ) :
      s.unlabelled.polled a = (s.polled a.labelled).map id := by
    rw [List.map_id]
    cases a with
    | pull => rfl
    | listen a => exact ListenerState.polls_unlabelled
  exact (outputs_unlabelled id hout actions traced_init).trans (List.map_id _)

theorem outputs_started_unlabelled (actions : List (StubAction Φ S L σ)) :
    Run.outputs (step config receive C) started init actions = mapDeliveries Prod.snd
      (Run.outputs (step config receive C) started (init : StubTransport Φ S F (Φ × L) σ)
        (actions.map (·.labelled))) := by
  have hout (s : StubTransport Φ S F (Φ × L) σ) (a : StubAction Φ S L σ) :
      s.unlabelled.started a = mapDeliveries Prod.snd (s.started a.labelled) := by
    cases a with
    | pull => rfl
    | listen a => exact ListenerState.started_unlabelled
  exact outputs_unlabelled _ hout actions traced_init

/-- No unregister call is made. -/
def RegistersOnly : StubAction Φ S L σ → Prop
  | .pull _ => True
  | .listen a => ListenerState.RegistersOnly a

omit [DecidableEq Φ] [DecidableEq L] in
theorem hostedDoubles_iff {s : StubTransport Φ S F L σ} :
    ListenerState.HostedDoubles (·.listening) StubAction.listened s a ↔ s.Doubles a := by
  cases a with
  | pull => simp [ListenerState.HostedDoubles, StubAction.listened, Doubles]
  | listen => simp [ListenerState.HostedDoubles, StubAction.listened, Doubles]

theorem not_doubles_of_registersOnly {actions : List (StubAction Φ S L σ)}
    (h : ∀ a ∈ actions, RegistersOnly a) (before : List (StubAction Φ S L σ))
    (a : StubAction Φ S L σ) (after : List (StubAction Φ S L σ)) (u : StubTransport Φ S F L σ)
    (heq : actions = before ++ a :: after)
    (hu : Run.exec (step config receive C) init before = some u) : ¬ u.Doubles a := by
  rw [← hostedDoubles_iff]
  refine hosts.not_doubles_of_registersOnly rfl (fun a ha b hb => ?_) before a after u heq hu
  cases a with
  | pull => simp [StubAction.listened] at hb
  | listen =>
    obtain rfl := Option.some.inj hb
    exact h _ ha

omit [DecidableEq Φ] [DecidableEq L] in
theorem doubles_hosted
    (h : ListenerState.HostedDoubles (·.listening) (·.labelled.listened) s a) :
    s.unlabelled.Doubles a := by
  obtain ⟨b, hb, hdoubles⟩ := h
  cases a with
  | pull => simp [StubAction.labelled, StubAction.listened] at hb
  | listen a =>
    obtain rfl := Option.some.inj hb
    exact ListenerState.doubles_unlabelled hdoubles

/-- What each sample sent comes to, whatever receive calls, listener calls and tasks do: it is in
one place of the receive calls or a poll has taken it, and not both; and each registration is handed
the matches among the samples that polls have taken, each at most once. -/
theorem samples_once {actions : List (StubAction Φ S L σ)} {s : StubTransport Φ S F L σ}
    (h : Run.exec (step config receive C) init actions = some s) :
    (Run.outputs (step config receive C) polled init actions ++
        s.pulling.places (stubBackend C.numbered)).Perm s.pulling.sent ∧
      (s.pulling.sent.map Prod.fst).Nodup ∧
      Run.outputs (step config receive C) started init actions = mapDeliveries Prod.snd
        (Run.outputs (step config receive C) started init (actions.map (·.labelled))) ∧
      ∀ id : Φ × L, (framesFor id
        (Run.outputs (step config receive C) started init (actions.map (·.labelled)))).Subperm
          (matching C id (Run.outputs (step config receive C) polled init actions)) := by
  obtain ⟨s', hs', rfl⟩ :=
    Option.map_eq_some_iff.1 ((exec_unlabelled actions traced_init).symm.trans h)
  rw [Run.exec_map] at hs'
  refine ⟨places_exec h, ?_, outputs_started_unlabelled actions, fun id => ?_⟩
  · rw [numbered_exec h]
    exact List.nodup_range
  · obtain ⟨hstarted, htaken⟩ := outputs_hosted config receive C actions id
    rw [outputs_polled_unlabelled actions, hstarted, htaken]
    exact labelled_hosts.handed_subperm labels rfl hs' id

/-- As long as one task polls at a time, each registration is handed matches of the samples sent, in
the order they were sent, whatever receive calls take in between. -/
theorem callbacks_in_sent_order {actions : List (StubAction Φ S L σ)}
    {s : StubTransport Φ S F L σ} (h : Run.exec (step config receive C) init actions = some s)
    (hsingle : ∀ before a after u, actions = before ++ a :: after →
      Run.exec (step config receive C) init before = some u → ¬ u.Doubles a) :
    Run.outputs (step config receive C) started init actions = mapDeliveries Prod.snd
        (Run.outputs (step config receive C) started init (actions.map (·.labelled))) ∧
      ∀ id : Φ × L, (framesFor id
        (Run.outputs (step config receive C) started init (actions.map (·.labelled)))).Sublist
          (matching C id s.pulling.sent) := by
  have hsent := polled_exec h
  rw [outputs_polled_unlabelled actions] at hsent
  obtain ⟨s', hs', rfl⟩ :=
    Option.map_eq_some_iff.1 ((exec_unlabelled actions traced_init).symm.trans h)
  rw [Run.exec_map] at hs'
  refine ⟨outputs_started_unlabelled actions, fun id => ?_⟩
  obtain ⟨hstarted, htaken⟩ := outputs_hosted config receive C actions id
  rw [hstarted]
  refine List.Sublist.trans ?_ (hsent.filterMap _)
  change List.Sublist _ (matching C id _)
  rw [htaken]
  refine labelled_hosts.handed_sublist labels rfl hs'
    (fun before a after u heq hu hdoubles => ?_) id
  rw [← Run.exec_map] at hu
  refine hsingle before a after u.unlabelled heq ?_ (doubles_hosted hdoubles)
  exact (exec_unlabelled before traced_init).trans (congrArg _ hu)

end Runs

end Hosted

/-- The stub transport over leases; nothing asks a subscriber. -/
def plainStep {L : Type} [DecidableEq L] :
    StubTransport (Filters plainUpRust) (List UInt8) (LolaRxLease plainUpRust) L Unit →
      StubAction (Filters plainUpRust) (List UInt8) L Unit →
        Option
          (StubTransport (Filters plainUpRust) (List UInt8) (LolaRxLease plainUpRust) L Unit) :=
  step (plainConfig 4 1 .DropOldestAndReport)
    (fun subscriber => (.error (failWithCode .NOT_FOUND "no sample"), subscriber)) plainFrames

/-- Two samples of the topic `a` are sent, and a receive call for it is about to take the first. -/
def plainWaiting : List (StubAction (Filters plainUpRust) (List UInt8) ℕ Unit) :=
  [.pull (.send sampleA), .pull (.send sampleA), .pull (.start 0 filtersA), .pull (.advance 0)]

/-- The call takes it, and a listener is registered for the topic. -/
def plainListening : List (StubAction (Filters plainUpRust) (List UInt8) ℕ Unit) :=
  [.pull (.advance 0), .listen (.call .register filtersA 0),
    .listen (.advance 0 (.ok ()) (.ok ())), .listen (.advance 0 (.ok ()) (.ok ()))]

/-- The listener's task takes the second sample, and calls it. -/
def plainShared : List (StubAction (Filters plainUpRust) (List UInt8) ℕ Unit) :=
  plainWaiting ++ (plainListening ++
    [.listen (.run 0), .listen (.run 0), .listen (.run 0), .listen (.run 0)])

theorem exec_plainShared : Run.exec plainStep init plainShared = some
      ⟨{ pull := ⟨[], {}⟩
         calls := [{
          filters := filtersA, phase := .returned (.ok (0, leaseA)), client := 0, since := 2
          taken := [(0, leaseA)] }]
         sent := [(0, sampleA), (1, sampleA)] },
        { listeners := [⟨filtersA, 0, ()⟩]
          listenerTask := some 0
          tasks := [⟨.inCallback [], false, false⟩]
          calls := [⟨.register, filtersA, 0, .returned (.ok ())⟩] }, rfl⟩ := rfl

/-- The call has the first sample, and the listener is handed the second. -/
theorem samples_once_plain :
    Run.outputs plainStep started init plainShared = [(0, (1, leaseA))] ∧
      (framesFor (filtersA, 0) (Run.outputs plainStep started init
        (plainShared.map (·.labelled)))).Subperm
          (matching plainFrames (filtersA, 0) (Run.outputs plainStep polled init plainShared)) :=
  ⟨rfl, (samples_once exec_plainShared).2.2.2 (filtersA, 0)⟩

theorem plainShared_registersOnly : ∀ a ∈ plainShared, RegistersOnly a := by
  unfold plainShared plainWaiting plainListening
  simp [RegistersOnly, ListenerState.RegistersOnly]

theorem callbacks_in_sent_order_plain :
    (framesFor (filtersA, 0) (Run.outputs plainStep started init
      (plainShared.map (·.labelled)))).Sublist
        (matching plainFrames (filtersA, 0) [(0, sampleA), (1, sampleA)]) := by
  exact (callbacks_in_sent_order exec_plainShared
    (not_doubles_of_registersOnly plainShared_registersOnly)).2 (filtersA, 0)

end StubTransport

end LolaTransport
