import LolaTransport.Proofs.CallbackOrder

/-!
# What each registration is handed, and in which order

A registration is handed frames that polls took for it: from its own subscription in the native
backend, and from the samples sent in the stub.  As long as one task polls at a time, it gets them
in the order they were taken, each at most once (`registration_callbacks_in_order`).

A listener may be registered for several filters, so the deliveries have labels that say for which.
-/

namespace LolaTransport

variable {Φ S F L σ : Type}

section Asked

variable (receive : σ → Except Fault S × σ) (C : FrameCodec Φ S F)

/-- The registrations that a poll asks: all up to the one that stops it. -/
def asked : List (ListenerRegistration Φ L σ) → List (ListenerRegistration Φ L σ)
  | [] => []
  | registration :: registrations =>
    registration ::
      match (receive registration.subscriber).1 with
      | .error e => if e.code? = some .NOT_FOUND then asked registrations else []
      | .ok sample =>
        match C.decode sample with
        | .ok _ => asked registrations
        | .error _ => []

variable {receive C}

theorem asked_cons_of_not_stops {r : ListenerRegistration Φ L σ}
    (h : ¬ Stops C (receive r.subscriber).1) (registrations : List (ListenerRegistration Φ L σ)) :
    asked receive C (r :: registrations) = r :: asked receive C registrations := by
  rw [asked]
  congr 1
  split
  · rename_i e he
    rw [he] at h
    exact if_pos (not_not.1 h)
  · rename_i sample hsample
    rw [hsample] at h
    cases hd : C.decode sample with
    | ok frame => rfl
    | error e => exact absurd ⟨e, hd⟩ h

theorem asked_cons_of_stops {r : ListenerRegistration Φ L σ}
    (h : Stops C (receive r.subscriber).1) (registrations : List (ListenerRegistration Φ L σ)) :
    asked receive C (r :: registrations) = [r] := by
  rw [asked]
  congr 1
  split
  · rename_i e he
    rw [he] at h
    exact if_neg h
  · rename_i sample hsample
    rw [hsample] at h
    obtain ⟨e, he⟩ := h
    rw [he]

theorem asked_isPrefix : ∀ registrations : List (ListenerRegistration Φ L σ),
    asked receive C registrations <+: registrations
  | [] => List.prefix_rfl
  | r :: registrations => by
    by_cases hstop : Stops C (receive r.subscriber).1
    · rw [asked_cons_of_stops hstop]
      exact List.prefix_append [r] registrations
    · rw [asked_cons_of_not_stops hstop]
      exact (List.prefix_cons_inj r).2 (asked_isPrefix registrations)

/-- A poll that nothing stops asks all. -/
theorem asked_eq_self : ∀ {registrations : List (ListenerRegistration Φ L σ)}
    (_ : ∀ r ∈ registrations, ¬ Stops C (receive r.subscriber).1),
    asked receive C registrations = registrations
  | [], _ => rfl
  | r :: registrations, h => by
    obtain ⟨hr, hrest⟩ := List.forall_mem_cons.1 h
    rw [asked_cons_of_not_stops hr, asked_eq_self hrest]

end Asked

/-- The sample that an action sends. -/
def ListenerAction.sent : ListenerAction Φ S L σ → List S
  | .arrive sample => [sample]
  | _ => []

namespace ListenerState

/-- The frame that a task has taken from the stub and has yet to look for listeners of. -/
def toMatch (C : FrameCodec Φ S F) (id : Φ × L) : TaskPhase S F (Φ × L) → List F
  | .matching sample _ => (wanted C id.1 (.ok sample)).toList
  | _ => []

theorem toMatch_of_not_inLoop {C : FrameCodec Φ S F} {id : Φ × L} (phase : TaskPhase S F (Φ × L))
    (h : ¬ InLoop phase) : toMatch C id phase = [] := by
  cases phase
  case left | ended => rfl
  all_goals exact absurd trivial h

section Taken

variable [DecidableEq Φ] [DecidableEq L]

/-- The frames that a poll of the native backend takes for a registration. -/
def polledFor (receive : σ → Except Fault S × σ) (C : FrameCodec Φ S F) (id : Φ × L)
    (listeners : List (ListenerRegistration Φ (Φ × L) σ)) : List F :=
  (asked receive C listeners).filterMap fun r =>
    if r.listener = id then wanted C r.filters (receive r.subscriber).1 else none

/-- The frames that a task takes for this registration when it runs. -/
def takes (backend : Backend) (receive : σ → Except Fault S × σ) (C : FrameCodec Φ S F)
    (id : Φ × L) (s : ListenerState Φ S F (Φ × L) σ) : TaskPhase S F (Φ × L) → List F
  | .polling =>
    match backend with
    | .native => polledFor receive C id s.listeners
    | .stub => (s.pending.head?.bind fun sample => wanted C id.1 (.ok sample)).toList
  | _ => []

/-- The frames that a poll takes for this registration with an action. -/
def taken (backend : Backend) (receive : σ → Except Fault S × σ) (C : FrameCodec Φ S F)
    (id : Φ × L) (s : ListenerState Φ S F (Φ × L) σ) : ListenerAction Φ S (Φ × L) σ → List F
  | .run t => ((s.tasks[t]?).map fun task => s.takes backend receive C id task.phase).getD []
  | _ => []

variable {s s' : ListenerState Φ S F (Φ × L) σ} {backend : Backend}
  {receive : σ → Except Fault S × σ} {C : FrameCodec Φ S F} {t : ℕ}
  {task : ListenerTask S F (Φ × L)} {id : Φ × L}

/-- A poll of the native backend collects for a registration what it has taken for it. -/
theorem framesFor_pollListenerFrames :
    (framesFor id ((pollListenerFrames receive C s.listeners).1.toOption.getD [])).Sublist
      (s.takes .native receive C id .polling) := by
  rcases stops_cases receive C s.listeners with hnone | ⟨before, stop, after, hlist, hbefore, hstop⟩
  · unfold takes polledFor pollListenerFrames
    rw [poll_ok hnone, asked_eq_self hnone]
    dsimp only [Except.toOption, Option.getD_some, List.nil_append]
    rw [framesFor, List.filterMap_filterMap]
    have hone (r : ListenerRegistration Φ (Φ × L) σ) :
        ((r.delivery receive C).bind fun d => if d.1 = id then some d.2 else none) =
          if r.listener = id then wanted C r.filters (receive r.subscriber).1 else none := by
      unfold ListenerRegistration.delivery
      cases wanted C r.filters (receive r.subscriber).1 with
      | none => split_ifs <;> rfl
      | some frame => rfl
    rw [List.filterMap_congr fun r _ => hone r]
  · obtain ⟨e, he⟩ : ∃ e, pollRegistrations receive C [] (before ++ stop :: after) =
        (.error e, before.map (·.polled receive) ++ stop.polled receive :: after) :=
      poll_error hstop hbefore []
    rw [pollListenerFrames, hlist, he]
    exact List.nil_sublist _

omit [DecidableEq Φ] [DecidableEq L] in
theorem nodup_listeners (hs : s.Labelled) (hnodup : (s.listeners.map (·.identity)).Nodup) :
    (s.listeners.map (·.listener)).Nodup := by
  refine List.Nodup.of_map (fun listener => (listener.1, listener)) ?_
  rw [List.map_map]
  refine (List.map_congr_left fun r hr => ?_) ▸ hnodup
  exact congrArg (·, r.listener) (hs.listeners r hr).symm

theorem framesFor_pairs (listeners : List (Φ × L)) (frame : F) :
    framesFor id (listeners.map (·, frame)) = List.replicate (listeners.count id) frame := by
  induction listeners with
  | nil => rfl
  | cons l ls ih =>
    rw [List.map_cons, List.count_cons, ← List.singleton_append, framesFor_append, ih]
    by_cases hl : l = id
    · rw [if_pos (by simpa using hl), List.replicate_succ, framesFor, List.filterMap_cons,
        if_pos hl]
      rfl
    · rw [if_neg (by simpa using hl), framesFor, List.filterMap_cons, if_neg hl]
      rfl

/-- The stub hands a frame to a registration at most once. -/
theorem framesFor_matchListeners {sample : S} {probe : F} (hs : s.Labelled)
    (hnodup : (s.listeners.map (·.identity)).Nodup) (hprobe : C.decode sample = .ok probe) :
    (framesFor id ((matchListeners C sample probe s.listeners).toOption.getD [])).Sublist
      (wanted C id.1 (.ok sample)).toList := by
  have hmatches : ∀ r ∈ s.listeners.filter (·.matchesFrame C.toFrameView probe),
      r.listener = id → wanted C id.1 (.ok sample) = some probe := by
    rintro r hr rfl
    obtain ⟨hmem, hmatch⟩ := List.mem_filter.1 hr
    have hmatch : C.matchesFilter r.listener.1 probe = true := by
      rw [hs.listeners r hmem]
      exact hmatch
    simp only [wanted, hprobe, hmatch, if_true]
  have hnodup : ((s.listeners.filter (·.matchesFrame C.toFrameView probe)).map
      (·.listener)).Nodup :=
    (nodup_listeners hs hnodup).sublist (List.filter_sublist.map _)
  rw [matchListeners_ok hprobe]
  dsimp only [Except.toOption, Option.getD_some, handedOf]
  rw [hprobe, framesFor_pairs]
  have hone := List.nodup_iff_count_le_one.1 hnodup id
  rcases Nat.le_one_iff_eq_zero_or_eq_one.1 hone with hzero | hone
  · rw [hzero]
    exact List.nil_sublist _
  · have hid := List.count_pos_iff.1 (hone ▸ Nat.one_pos)
    obtain ⟨r, hr, hid⟩ := List.mem_map.1 hid
    rw [hone, hmatches r hr hid]
    exact .refl _

/-- The probe of a sample that a task has taken is the sample's frame. -/
def Probed (C : FrameCodec Φ S F) (phase : TaskPhase S F (Φ × L)) : Prop :=
  ∀ sample probe, phase = .matching sample probe → C.decode sample = .ok probe

omit [DecidableEq Φ] [DecidableEq L] in
theorem probed_afterPoll (polled : Except Fault (List ((Φ × L) × F))) :
    Probed C (afterPoll polled : TaskPhase S F (Φ × L)) := by
  rcases polled with _ | _ | _ <;> rintro _ _ ⟨⟩

/-- What is collected for a registration was taken for it, just now or when the sample was. -/
theorem run_takes (hs : s.Labelled) (hnodup : (s.listeners.map (·.identity)).Nodup)
    (hprobed : Probed C task.phase) (h : s.run backend receive C t task = some s') :
    ∃ phase, s'.tasks = s.tasks.set t { task with phase, suspended := false } ∧
      Probed C phase ∧ ∀ id : Φ × L,
        (framesFor id (s.collects backend receive C task.phase) ++ toMatch C id phase).Sublist
          (toMatch C id task.phase ++ s.takes backend receive C id task.phase) := by
  have hafter (id : Φ × L) (polled : Except Fault (List ((Φ × L) × F))) :
      toMatch C id (afterPoll polled : TaskPhase S F (Φ × L)) = [] := by
    rcases polled with _ | _ | _ <;> rfl
  cases hp : task.phase with
  | checking =>
    simp only [run, hp] at h
    cases h
    split
    · refine ⟨_, rfl, ?_, fun _ => .refl _⟩
      rintro _ _ ⟨⟩
    · refine ⟨_, rfl, ?_, fun _ => .refl _⟩
      rintro _ _ ⟨⟩
  | polling =>
    cases backend with
    | native =>
      simp only [run, hp] at h
      cases h
      refine ⟨_, rfl, probed_afterPoll _, fun id => ?_⟩
      rw [hafter, List.append_nil]
      exact framesFor_pollListenerFrames
    | stub =>
      cases hpending : s.pending with
      | nil =>
        simp only [run, hp, hpending] at h
        cases h
        refine ⟨_, rfl, ?_, fun _ => List.nil_sublist _⟩
        rintro _ _ ⟨⟩
      | cons sample pending =>
        simp only [run, hp, hpending] at h
        cases h
        simp only [takes, hpending, List.head?_cons, Option.bind_some]
        cases hd : C.decode sample with
        | error e =>
          refine ⟨_, rfl, ?_, fun _ => List.nil_sublist _⟩
          rintro _ _ ⟨⟩
        | ok probe =>
          refine ⟨_, rfl, ?_, fun _ => .refl _⟩
          rintro _ _ ⟨⟩
          exact hd
  | matching sample probe =>
    simp only [run, hp] at h
    cases h
    refine ⟨_, rfl, probed_afterPoll _, fun id => ?_⟩
    rw [hafter, List.append_nil]
    change (_ : List F).Sublist ((wanted C id.1 (.ok sample)).toList ++ [])
    rw [List.append_nil]
    exact framesFor_matchListeners hs hnodup (hprobed _ _ hp)
  | delivering deliveries =>
    cases deliveries with
    | nil | cons =>
      simp only [run, hp] at h
      cases h
      refine ⟨_, rfl, ?_, fun _ => .refl _⟩
      rintro _ _ ⟨⟩
  | inCallback | sleeping | left =>
    simp only [run, hp] at h
    cases h
    refine ⟨_, rfl, ?_, fun _ => .refl _⟩
    rintro _ _ ⟨⟩
  | ended =>
    simp only [run, hp] at h
    cases h

/-- What is registered and taken is as calls and polls leave it. -/
structure Traced (C : FrameCodec Φ S F) (s : ListenerState Φ S F (Φ × L) σ) : Prop where
  labelled : s.Labelled
  nodup : (s.listeners.map (·.identity)).Nodup
  probed : ∀ task ∈ s.tasks, Probed C task.phase

variable {a : ListenerAction Φ S L σ}

theorem probed_step (hs : Traced C s) (h : step backend receive C s a.labelled = some s') :
    ∀ task ∈ s'.tasks, Probed C task.phase := by
  intro task' htask'
  obtain ⟨t', ht'⟩ := List.mem_iff_getElem?.1 htask'
  generalize a.labelled = b at h
  cases step_cases h with
  | call | failed | pushed | removed | arrived => exact hs.probed task' htask'
  | @ensured c created runtime call hc hp hapi =>
    change (s.ensureListenerTask runtime).2.tasks[t']? = _ at ht'
    rcases ensureListenerTask_cases s runtime with hsame | ⟨-, -, hstarted⟩
    · rw [hsame] at ht'
      exact hs.probed task' (List.mem_of_getElem? ht')
    · rw [hstarted] at ht'
      rcases List.getElem?_concat_eq_some ht' with ht' | ⟨-, rfl⟩
      · exact hs.probed task' (List.mem_of_getElem? ht')
      · rintro _ _ ⟨⟩
  | stopped =>
    obtain ⟨task, ht, hphase, -⟩ := getElem?_stopListenerTask ht'
    rw [hphase]
    exact hs.probed task (List.mem_of_getElem? ht)
  | ran ht hruns hrun =>
    obtain ⟨phase, htasks, hprobed, -⟩ := run_takes hs.labelled hs.nodup
      (hs.probed _ (List.mem_of_getElem? ht)) hrun
    rw [htasks] at htask'
    rcases List.mem_or_eq_of_mem_set htask' with htask' | rfl
    · exact hs.probed task' htask'
    · exact hprobed
  | @suspended t task ht =>
    rcases getElem?_setTask ht' with ⟨-, ht'⟩ | ⟨-, rfl⟩
    · exact hs.probed task' (List.mem_of_getElem? ht')
    · exact hs.probed task (List.mem_of_getElem? ht)
  | cancelled ht =>
    rcases getElem?_setTask ht' with ⟨-, ht'⟩ | ⟨-, rfl⟩
    · exact hs.probed task' (List.mem_of_getElem? ht')
    · rintro _ _ ⟨⟩

theorem traced_step (hs : Traced C s) (h : step backend receive C s a.labelled = some s') :
    Traced C s' where
  labelled := labelled_step hs.labelled h
  nodup := nodup_identity_step hs.nodup h
  probed := probed_step hs h

theorem taken_step (hs : Traced C s) (h : step backend receive C s a.labelled = some s')
    (id : Φ × L) :
    CarryStep (toMatch C id) s s' (framesFor id (s.collected backend receive C a.labelled))
      (s.taken backend receive C id a.labelled) := by
  generalize a.labelled = b at h ⊢
  cases b with
  | run t =>
    cases step_cases h with
    | @ran _ task _ ht hruns hrun =>
      obtain ⟨phase, htasks, -, hmoves⟩ := run_takes hs.labelled hs.nodup
        (hs.probed task (List.mem_of_getElem? ht)) hrun
      have hcollected : s.collected backend receive C (.run t) =
          s.collects backend receive C task.phase := by rw [collected, ht]; rfl
      have htaken : s.taken backend receive C id (.run t) =
          s.takes backend receive C id task.phase := by rw [taken, ht]; rfl
      rw [hcollected, htaken]
      refine .ran toMatch_of_not_inLoop ht hruns htasks (hmoves id) fun hloop => ?_
      cases hp : task.phase <;> rw [hp] at hloop
      case left | ended => exact ⟨rfl, rfl⟩
      all_goals exact absurd trivial hloop
  | _ => exact carryStep_of_not_run toMatch_of_not_inLoop rfl (by simp) h

section Runs

omit [DecidableEq Φ] [DecidableEq L] in
theorem traced_init : Traced C ({} : ListenerState Φ S F (Φ × L) σ) where
  labelled := ⟨List.forall_mem_nil _, List.forall_mem_nil _⟩
  nodup := List.nodup_nil
  probed := List.forall_mem_nil _

/-- Where one task polls at a time, a registration is handed what tasks had for it and what is
taken for it, in this order. -/
theorem taken_exec {actions : List (ListenerAction Φ S L σ)} (hone : s.Single)
    (hs : Traced C s) (h : Run.exec (step backend receive C) s (actions.map (·.labelled)) = some s')
    (hsingle : ∀ before a after u, actions = before ++ a :: after →
      Run.exec (step backend receive C) s (before.map (·.labelled)) = some u →
        ¬ u.Doubles a.labelled) (id : Φ × L) :
    (framesFor id (Run.outputs (step backend receive C) (collected backend receive C) s
        (actions.map (·.labelled)))).Sublist
      (s.carried (toMatch C id) ++ Run.outputs (step backend receive C)
        (taken backend receive C id) s (actions.map (·.labelled))) := by
  rw [framesFor, Run.outputs_filterMap, Run.outputs_map, Run.outputs_map]
  rw [Run.exec_map] at h
  have hall := Run.outputs_rel (fun (s : ListenerState Φ S F (Φ × L) σ) a => s.Doubles a.labelled)
    (carried (toMatch C id)) List.Sublist.refl List.Sublist.trans List.Sublist.append
    (fun s a s' (hs : s.Single ∧ Traced C s) hnot hstep =>
      ⟨⟨single_step hs.1 hnot hstep, traced_step hs.2 hstep⟩,
        (taken_step hs.2 hstep id).sublist hs.1.2⟩) ⟨hone, hs⟩ h
    fun before a after u heq hu => hsingle before a after u heq (by rw [Run.exec_map]; exact hu)
  exact (List.sublist_append_left _ _).trans hall

omit [DecidableEq Φ] [DecidableEq L] in
theorem doubles_unlabelled (h : s.Doubles a.labelled) : s.unlabelled.Doubles a := by
  cases a with
  | advance c created runtime =>
    obtain ⟨hruntime, hfree, ⟨call, hc, hstarting⟩, t, task, ht, haborted, hruns, hloop⟩ := h
    refine ⟨hruntime, ?_, ⟨call.mapListener Prod.snd, ?_, hstarting⟩,
      t, task.mapListener Prod.snd, ?_, haborted, hruns, ?_⟩
    · simp only [Occupied, unlabelled, isFinished_mapListener]
      exact hfree
    · rw [unlabelled, mapListener, List.getElem?_map, hc]
      rfl
    · rw [unlabelled, mapListener, List.getElem?_map, ht]
      rfl
    · cases hp : task.phase <;> rw [hp] at hloop <;> simp [ListenerTask.mapListener, hp,
        TaskPhase.mapListener, InLoop] at hloop ⊢
  | _ => exact h

omit [DecidableEq Φ] [DecidableEq L] in
theorem started_unlabelled :
    s.unlabelled.started a = mapDeliveries Prod.snd (s.started a.labelled) := by
  cases a with
  | run t =>
    simp only [started, ListenerAction.labelled, unlabelled, mapListener, List.getElem?_map]
    rcases s.tasks[t]? with _ | ⟨phase, -, -⟩
    · rfl
    · rcases phase with _ | _ | _ | (_ | _) | _ | _ | _ | _ <;> rfl
  | _ => rfl

theorem outputs_unlabelled : ∀ (actions : List (ListenerAction Φ S L σ))
    {s : ListenerState Φ S F (Φ × L) σ} (_ : s.Labelled),
    Run.outputs (step backend receive C) started s.unlabelled actions = mapDeliveries Prod.snd
      (Run.outputs (step backend receive C) started s (actions.map (·.labelled)))
  | [], s, _ => rfl
  | a :: actions, s, hs => by
    rw [Run.outputs, step_unlabelled hs, List.map_cons, Run.outputs, mapDeliveries_append,
      started_unlabelled]
    cases hstep : step backend receive C s a.labelled with
    | none => rfl
    | some s' =>
      exact congrArg _ (outputs_unlabelled actions (labelled_step hs hstep))

/-- As long as one task polls at a time, each registration is handed frames that polls took for it,
in the order they were taken and each at most once; the labels say for which registration a delivery
is, and are nothing to the run. -/
theorem registration_callbacks_in_order {actions : List (ListenerAction Φ S L σ)}
    {s : ListenerState Φ S F L σ} (h : Run.exec (step backend receive C) {} actions = some s)
    (hsingle : ∀ before a after u, actions = before ++ a :: after →
      Run.exec (step backend receive C) {} before = some u → ¬ u.Doubles a) :
    (∃ s' : ListenerState Φ S F (Φ × L) σ,
      Run.exec (step backend receive C) {} (actions.map (·.labelled)) = some s' ∧
        s'.unlabelled = s) ∧
      Run.outputs (step backend receive C) started {} actions = mapDeliveries Prod.snd
        (Run.outputs (step backend receive C) started {} (actions.map (·.labelled))) ∧
      ∀ id : Φ × L, (framesFor id
        (Run.outputs (step backend receive C) started {} (actions.map (·.labelled)))).Sublist
          (Run.outputs (step backend receive C) (taken backend receive C id) {}
            (actions.map (·.labelled))) := by
  have hinit : ({} : ListenerState Φ S F (Φ × L) σ).Labelled := (traced_init (C := C)).labelled
  obtain ⟨s', hs', rfl⟩ := Option.map_eq_some_iff.1 ((exec_unlabelled actions hinit).symm.trans h)
  have hsingle' : ∀ before a after u, actions = before ++ a :: after →
      Run.exec (step backend receive C) {} (before.map (·.labelled)) = some u →
        ¬ u.Doubles a.labelled := by
    intro before a after u heq hu hdoubles
    refine hsingle before a after u.unlabelled heq ?_ (doubles_unlabelled hdoubles)
    exact (exec_unlabelled before hinit).trans (congrArg _ hu)
  refine ⟨⟨s', hs', rfl⟩, outputs_unlabelled actions hinit, fun id => ?_⟩
  have hdeliveries := deliveries_exec single_init hs' fun before a after u heq hu => ?_
  · exact (hdeliveries.filterMap _).trans (taken_exec single_init traced_init hs' hsingle' id)
  · obtain ⟨before', rest, rfl, rfl, hrest⟩ := List.map_eq_append_iff.1 heq
    obtain ⟨a', after', rfl, rfl, -⟩ := List.map_eq_cons_iff.1 hrest
    exact hsingle' before' a' after' u rfl hu

end Runs

section Stub

/-- The sample that a task of the stub takes when it runs. -/
def pollsIn (s : ListenerState Φ S F L σ) : TaskPhase S F L → List S
  | .polling => s.pending.head?.toList
  | _ => []

/-- The sample that a poll of the stub takes with an action. -/
def polls (s : ListenerState Φ S F L σ) : ListenerAction Φ S L σ → List S
  | .run t => ((s.tasks[t]?).map fun task => s.pollsIn task.phase).getD []
  | _ => []

omit [DecidableEq Φ] [DecidableEq L] in
theorem polls_unlabelled : s.unlabelled.polls a = s.polls a.labelled := by
  cases a with
  | run t =>
    simp only [polls, ListenerAction.labelled, unlabelled, mapListener, List.getElem?_map]
    rcases s.tasks[t]? with _ | ⟨phase, -, -⟩
    · rfl
    · cases phase <;> rfl
  | _ => rfl

omit [DecidableEq Φ] [DecidableEq L] in
theorem pending_run {s s' : ListenerState Φ S F L σ} {task : ListenerTask S F L}
    (h : s.run .stub receive C t task = some s') :
    s.pollsIn task.phase ++ s'.pending = s.pending := by
  cases hp : task.phase with
  | polling =>
    cases hpending : s.pending with
    | nil =>
      simp only [run, hp, hpending] at h
      cases h
      rw [pollsIn, hpending]
      exact hpending
    | cons sample pending =>
      simp only [run, hp, hpending] at h
      cases h
      rw [pollsIn, hpending]
      rfl
  | delivering deliveries =>
    cases deliveries with
    | nil | cons =>
      simp only [run, hp] at h
      cases h
      rfl
  | ended =>
    simp only [run, hp] at h
    cases h
  | _ =>
    simp only [run, hp] at h
    cases h
    rfl

/-- The stub takes samples from the front, and they are sent to the back. -/
theorem pending_step {s s' : ListenerState Φ S F L σ} {b : ListenerAction Φ S L σ}
    (h : step .stub receive C s b = some s') :
    s.polls b ++ s'.pending = s.pending ++ b.sent := by
  cases step_cases h with
  | call | failed | pushed | removed | suspended | cancelled => exact (List.append_nil _).symm
  | @ensured c created runtime call =>
    change (s.ensureListenerTask runtime).2.pending = s.pending ++ []
    rw [List.append_nil]
    rcases ensureListenerTask_cases s runtime with heq | ⟨-, -, heq⟩ <;> rw [heq]
  | stopped =>
    obtain ⟨tasks, hstop⟩ := stopListenerTask_eq (s := s)
    rw [hstop]
    exact (List.append_nil _).symm
  | @ran t task _ ht hruns hrun =>
    have hpolls : s.polls (.run t) = s.pollsIn task.phase := by rw [polls, ht]; rfl
    rw [hpolls, pending_run hrun]
    exact (List.append_nil _).symm
  | arrived sample => rfl

/-- What is taken for a registration are the matches among the samples that polls take. -/
theorem taken_stub (s : ListenerState Φ S F (Φ × L) σ) (b : ListenerAction Φ S (Φ × L) σ) :
    s.taken .stub receive C id b =
      (s.polls b).filterMap fun sample => wanted C id.1 (.ok sample) := by
  cases b with
  | run t =>
    dsimp only [taken, polls]
    rcases s.tasks[t]? with _ | ⟨phase, aborted, suspended⟩
    · rfl
    · cases phase with
      | polling =>
        change (s.pending.head?.bind fun sample => wanted C id.1 (.ok sample)).toList =
          s.pending.head?.toList.filterMap fun sample => wanted C id.1 (.ok sample)
        cases s.pending with
        | nil => rfl
        | cons sample pending =>
          rw [List.head?_cons, Option.bind_some, Option.toList_some, List.filterMap_cons]
          cases wanted C id.1 (.ok sample) <;> rfl
      | _ => rfl
  | _ => rfl

end Stub

end Taken

end ListenerState

end LolaTransport
