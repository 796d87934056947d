import LolaTransport.Proofs.ListenerOrder

/-!
# Systems with listeners in them

A step of a system is one of the listeners in it, or leaves their calls and tasks as they are
(`Hosts`).  So in the system, too, each registration is handed what is taken for it, each frame at
most once (`handed_subperm`), and in this order as long as one task polls at a time
(`handed_sublist`).
-/

namespace LolaTransport.ListenerState

variable {Φ S F K L σ T A : Type}

/-- Calls and tasks are the same, and so are the registrations but for their subscribers. -/
structure Quiet (s s' : ListenerState Φ S F K σ) : Prop where
  listeners : s'.listeners.map (·.identity) = s.listeners.map (·.identity)
  listenerTask : s'.listenerTask = s.listenerTask
  tasks : s'.tasks = s.tasks
  calls : s'.calls = s.calls

section Quiet

variable {s s' : ListenerState Φ S F K σ}

theorem Quiet.single (h : s.Quiet s') (hs : s.Single) : s'.Single := by
  unfold Single Handled AtMostOnePoller
  rw [h.tasks, h.listenerTask]
  exact hs

theorem Quiet.unaborted (h : s.Quiet s') (hs : s.Unaborted) : s'.Unaborted where
  calls := h.calls ▸ hs.calls
  tasks := h.tasks ▸ hs.tasks

theorem Quiet.carried {β : Type} (g : TaskPhase S F K → List β) (h : s.Quiet s') :
    s'.carried g = s.carried g := by
  unfold ListenerState.carried
  rw [h.tasks]

end Quiet

theorem Quiet.traced {s s' : ListenerState Φ S F (Φ × L) σ} {C : FrameCodec Φ S F}
    (h : s.Quiet s') (hs : Traced C s) : Traced C s' where
  labelled := by
    refine ⟨fun r hr => ?_, h.calls ▸ hs.labelled.calls⟩
    have hid := List.mem_map_of_mem (f := ListenerRegistration.identity) hr
    rw [h.listeners] at hid
    obtain ⟨r', hr', hsame⟩ := List.mem_map.1 hid
    obtain ⟨hfilters, hlistener⟩ := Prod.mk.inj hsame
    rw [← hlistener, ← hfilters]
    exact hs.labelled.listeners r' hr'
  nodup := h.listeners ▸ hs.nodup
  probed := h.tasks ▸ hs.probed

/-- What listeners put out with an action of the system. -/
def hosted {β : Type} (listening : T → ListenerState Φ S F K σ)
    (action : A → Option (ListenerAction Φ S K σ))
    (out : ListenerState Φ S F K σ → ListenerAction Φ S K σ → List β) (s : T) (a : A) : List β :=
  (action a).elim [] (out (listening s))

/-- With this action a task starts while another still polls. -/
def HostedDoubles (listening : T → ListenerState Φ S F K σ)
    (action : A → Option (ListenerAction Φ S K σ)) (s : T) (a : A) : Prop :=
  ∃ b, action a = some b ∧ (listening s).Doubles b

/-- What `action` makes of an action is what the listeners do, if it makes anything of it. -/
structure Hosts [DecidableEq Φ] [DecidableEq K] (backend : Backend)
    (receive : σ → Except Fault S × σ) (C : FrameCodec Φ S F) (step' : T → A → Option T)
    (listening : T → ListenerState Φ S F K σ) (action : A → Option (ListenerAction Φ S K σ)) :
    Prop where
  quiet : ∀ {s a s'}, action a = none → step' s a = some s' → (listening s).Quiet (listening s')
  acts : ∀ {s a s' b}, action a = some b → step' s a = some s' →
    (listening s).step backend receive C b = some (listening s')

section Hosts

variable [DecidableEq Φ] [DecidableEq K] {backend : Backend}
  {receive : σ → Except Fault S × σ} {C : FrameCodec Φ S F} {step' : T → A → Option T}
  {listening : T → ListenerState Φ S F K σ} {action : A → Option (ListenerAction Φ S K σ)}
  {s s' : T} {a : A}

theorem Hosts.comp {A' : Type} (h : Hosts backend receive C step' listening action) (f : A' → A) :
    Hosts backend receive C (fun s a => step' s (f a)) listening fun a => action (f a) :=
  ⟨h.quiet, h.acts⟩

theorem Hosts.single_step (h : Hosts backend receive C step' listening action)
    (hs : (listening s).Single) (hnot : ¬ HostedDoubles listening action s a)
    (hstep : step' s a = some s') : (listening s').Single := by
  cases ha : action a with
  | none => exact (h.quiet ha hstep).single hs
  | some b =>
    exact ListenerState.single_step hs (fun hdoubles => hnot ⟨b, ha, hdoubles⟩) (h.acts ha hstep)

/-- Deliveries go from a poll to its task, and from there to listeners. -/
theorem Hosts.deliveries_step (h : Hosts backend receive C step' listening action)
    (hstep : step' s a = some s') :
    CarryStep TaskPhase.batch (listening s) (listening s') (hosted listening action started s a)
      (hosted listening action (collected backend receive C) s a) := by
  unfold hosted
  cases ha : action a with
  | none => exact .same ((h.quiet ha hstep).carried _)
  | some b => exact ListenerState.deliveries_step (h.acts ha hstep)

/-- Where listeners are only registered, one task polls at a time. -/
theorem Hosts.not_doubles_of_registersOnly (h : Hosts backend receive C step' listening action)
    (hinit : listening s = {}) {actions : List A}
    (hregisters : ∀ a ∈ actions, ∀ b, action a = some b → RegistersOnly b) (before : List A) (a : A)
    (after : List A) (u : T) (heq : actions = before ++ a :: after)
    (hu : Run.exec step' s before = some u) : ¬ HostedDoubles listening action u a := by
  have hkeeps : ∀ s a s', (listening s).Unaborted → (∀ b, action a = some b → RegistersOnly b) →
      step' s a = some s' → (listening s').Unaborted := by
    intro s a s' hs hallowed hstep
    cases ha : action a with
    | none => exact (h.quiet ha hstep).unaborted hs
    | some b => exact ListenerState.unaborted_step hs (hallowed b ha) (h.acts ha hstep)
  have hunaborted : (listening u).Unaborted := Run.exec_keeps_allowed hkeeps
    (fun b hb => hregisters b (heq ▸ List.mem_append_left _ hb)) (hinit ▸ unaborted_init) hu
  rintro ⟨b, -, hdoubles⟩
  exact not_doubles_of_unaborted hunaborted hdoubles

end Hosts

section Labels

variable [DecidableEq Φ] [DecidableEq L] {backend : Backend}
  {receive : σ → Except Fault S × σ} {C : FrameCodec Φ S F} {step' : T → A → Option T}
  {listening : T → ListenerState Φ S F (Φ × L) σ}
  {action : A → Option (ListenerAction Φ S (Φ × L) σ)} {s s' : T} {a : A}

/-- The listeners in an action know their registrations. -/
def Labels (action : A → Option (ListenerAction Φ S (Φ × L) σ)) : Prop :=
  ∀ a b, action a = some b → ∃ b' : ListenerAction Φ S L σ, b = b'.labelled

theorem Hosts.traced_step (h : Hosts backend receive C step' listening action)
    (hlabels : Labels action) (hs : Traced C (listening s)) (hstep : step' s a = some s') :
    Traced C (listening s') := by
  cases ha : action a with
  | none => exact (h.quiet ha hstep).traced hs
  | some b =>
    obtain ⟨b', rfl⟩ := hlabels a b ha
    exact ListenerState.traced_step hs (h.acts ha hstep)

/-- What is taken for a registration goes to a task or to the deliveries. -/
theorem Hosts.taken_step (h : Hosts backend receive C step' listening action)
    (hlabels : Labels action) (hs : Traced C (listening s)) (hstep : step' s a = some s')
    (id : Φ × L) :
    CarryStep (toMatch C id) (listening s) (listening s')
      (framesFor id (hosted listening action (collected backend receive C) s a))
      (hosted listening action (taken backend receive C id) s a) := by
  unfold hosted
  cases ha : action a with
  | none => exact .same ((h.quiet ha hstep).carried _)
  | some b =>
    obtain ⟨b', rfl⟩ := hlabels a b ha
    exact ListenerState.taken_step hs (h.acts ha hstep) id

theorem framesFor_outputs {out : T → A → List ((Φ × L) × F)} (id : Φ × L)
    (actions : List A) (s : T) : framesFor id (Run.outputs step' out s actions) =
      Run.outputs step' (fun s a => framesFor id (out s a)) s actions :=
  Run.outputs_filterMap _ actions s

theorem Hosts.handed_subperm (h : Hosts backend receive C step' listening action)
    (hlabels : Labels action) (hinit : listening s = {}) {actions : List A}
    (hexec : Run.exec step' s actions = some s') (id : Φ × L) :
    (framesFor id (Run.outputs step' (hosted listening action started) s actions)).Subperm
      (Run.outputs step' (hosted listening action (taken backend receive C id)) s actions) := by
  have hstarted := Run.outputs_rel (fun _ _ => False)
    (fun s => (listening s).carried TaskPhase.batch)
    List.Subperm.refl List.Subperm.trans List.Subperm.append (fun s a s' (_ : True) _ hstep =>
      ⟨trivial, (h.deliveries_step hstep).subperm⟩) trivial hexec fun _ _ _ _ _ _ => not_false
  have htaken := Run.outputs_rel (fun _ _ => False) (fun s => (listening s).carried (toMatch C id))
    List.Subperm.refl List.Subperm.trans List.Subperm.append
    (fun s a s' (hs : Traced C (listening s)) _ hstep =>
      ⟨h.traced_step hlabels hs hstep, (h.taken_step hlabels hs hstep id).subperm⟩)
    (hinit ▸ traced_init) hexec fun _ _ _ _ _ _ => not_false
  rw [hinit] at hstarted htaken
  refine (((List.sublist_append_left _ _).subperm.trans hstarted).filterMap _).trans ?_
  change (framesFor id (Run.outputs step' (hosted listening action
    (collected backend receive C)) s actions)).Subperm _
  rw [framesFor_outputs]
  exact (List.sublist_append_left _ _).subperm.trans htaken

theorem Hosts.handed_sublist (h : Hosts backend receive C step' listening action)
    (hlabels : Labels action) (hinit : listening s = {}) {actions : List A}
    (hexec : Run.exec step' s actions = some s')
    (hsingle : ∀ before a after u, actions = before ++ a :: after →
      Run.exec step' s before = some u → ¬ HostedDoubles listening action u a) (id : Φ × L) :
    (framesFor id (Run.outputs step' (hosted listening action started) s actions)).Sublist
      (Run.outputs step' (hosted listening action (taken backend receive C id)) s actions) := by
  have hstarted := Run.outputs_rel (HostedDoubles listening action)
    (fun s => (listening s).carried TaskPhase.batch)
    List.Sublist.refl List.Sublist.trans List.Sublist.append
    (fun s a s' (hs : (listening s).Single) hnot hstep =>
      ⟨h.single_step hs hnot hstep, (h.deliveries_step hstep).sublist hs.2⟩)
    (hinit ▸ single_init) hexec hsingle
  have htaken := Run.outputs_rel (HostedDoubles listening action)
    (fun s => (listening s).carried (toMatch C id))
    List.Sublist.refl List.Sublist.trans List.Sublist.append
    (fun s a s' (hs : (listening s).Single ∧ Traced C (listening s)) hnot hstep =>
      ⟨⟨h.single_step hs.1 hnot hstep, h.traced_step hlabels hs.2 hstep⟩,
        (h.taken_step hlabels hs.2 hstep id).sublist hs.1.2⟩)
    (hinit ▸ ⟨single_init, traced_init⟩) hexec hsingle
  rw [hinit] at hstarted htaken
  refine (((List.sublist_append_left _ _).trans hstarted).filterMap _).trans ?_
  change (framesFor id (Run.outputs step' (hosted listening action
    (collected backend receive C)) s actions)).Sublist _
  rw [framesFor_outputs]
  exact (List.sublist_append_left _ _).trans htaken

end Labels

end LolaTransport.ListenerState
