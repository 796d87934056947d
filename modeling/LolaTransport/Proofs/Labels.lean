import Mathlib.Data.List.InsertIdx
import LolaTransport.Proofs.Registrations

/-!
# Listeners that know their registrations

A delivery names its listener, which may be registered for several filters.  `labelled` gives the
listener of each call the filters of the call for a label, so that a delivery names its
registration.  The code looks at a listener only to compare it with another one registered for the
same filters, so it does the same without the labels (`exec_unlabelled`).
-/

namespace LolaTransport

variable {Φ S F L K σ : Type}

section MapListener

variable (g : K → L)

def ListenerRegistration.mapListener (registration : ListenerRegistration Φ K σ) :
    ListenerRegistration Φ L σ :=
  ⟨registration.filters, g registration.listener, registration.subscriber⟩

def mapDeliveries (deliveries : List (K × F)) : List (L × F) :=
  deliveries.map fun delivery => (g delivery.1, delivery.2)

def TaskPhase.mapListener : TaskPhase S F K → TaskPhase S F L
  | .checking => .checking
  | .polling => .polling
  | .matching sample probe => .matching sample probe
  | .delivering deliveries => .delivering (mapDeliveries g deliveries)
  | .inCallback deliveries => .inCallback (mapDeliveries g deliveries)
  | .sleeping => .sleeping
  | .left => .left
  | .ended => .ended

def ListenerTask.mapListener (task : ListenerTask S F K) : ListenerTask S F L :=
  ⟨task.phase.mapListener g, task.aborted, task.suspended⟩

def ListenerCall.mapListener (call : ListenerCall Φ K) : ListenerCall Φ L :=
  ⟨call.api, call.filters, g call.listener, call.phase⟩

def ListenerState.mapListener (s : ListenerState Φ S F K σ) : ListenerState Φ S F L σ where
  listeners := s.listeners.map (·.mapListener g)
  listenerTask := s.listenerTask
  tasks := s.tasks.map (·.mapListener g)
  calls := s.calls.map (·.mapListener g)
  pending := s.pending

end MapListener

section Tasks

variable {g : K → L} {receive : σ → Except Fault S × σ} {C : FrameCodec Φ S F}

@[simp] theorem mapListener_mk (filters : Φ) (listener : K) (subscriber : σ) :
    (ListenerRegistration.mk filters listener subscriber).mapListener g =
      ⟨filters, g listener, subscriber⟩ := rfl

theorem mapDeliveries_append (deliveries later : List (K × F)) :
    mapDeliveries g (deliveries ++ later) = mapDeliveries g deliveries ++ mapDeliveries g later :=
  List.map_append

theorem pollRegistrations_mapListener :
    ∀ (registrations : List (ListenerRegistration Φ K σ)) (deliveries : List (K × F)),
      pollRegistrations receive C (mapDeliveries g deliveries)
          (registrations.map (·.mapListener g)) =
        ((pollRegistrations receive C deliveries registrations).1.map (mapDeliveries g),
          (pollRegistrations receive C deliveries registrations).2.map (·.mapListener g))
  | [], deliveries => rfl
  | ⟨filters, listener, subscriber⟩ :: registrations, deliveries => by
    have hmore := pollRegistrations_mapListener registrations
    rw [List.map_cons, mapListener_mk]
    rcases hreceive : receive subscriber with ⟨e | sample, subscriber'⟩
    · by_cases hcode : e.code? = some .NOT_FOUND
      · simp [pollRegistrations, hreceive, hcode, hmore deliveries]
      · simp [pollRegistrations, hreceive, hcode, Except.map]
    · cases hd : C.decode sample with
      | error e => simp [pollRegistrations, hreceive, hd, Except.map]
      | ok frame =>
        by_cases hm : C.matchesFilter filters frame = true
        · have hdelivered : mapDeliveries g (deliveries ++ [(listener, frame)]) =
            mapDeliveries g deliveries ++ [(g listener, frame)] := mapDeliveries_append _ _
          have hrest := hmore (deliveries ++ [(listener, frame)])
          rw [hdelivered] at hrest
          simp [pollRegistrations, ListenerRegistration.matchesFrame, hreceive, hd, hm, hrest]
        · simp [pollRegistrations, ListenerRegistration.matchesFrame, hreceive, hd, hm,
            hmore deliveries]

/-- What the stub's poll hands over, once it has a sample. -/
theorem matchListeners_eq (sample : S) (probe : F)
    (registrations : List (ListenerRegistration Φ K σ)) :
    matchListeners C sample probe registrations =
      ((registrations.filter (·.matchesFrame C.toFrameView probe)).map (·.listener)).mapM
        fun listener => (C.decode sample).map (listener, ·) := rfl

theorem matchListeners_mapListener (sample : S) (probe : F)
    (registrations : List (ListenerRegistration Φ K σ)) :
    matchListeners C sample probe (registrations.map (·.mapListener g)) =
      (matchListeners C sample probe registrations).map (mapDeliveries g) := by
  have hlisteners : ((registrations.map (·.mapListener g)).filter
        (·.matchesFrame C.toFrameView probe)).map (·.listener) =
      ((registrations.filter (·.matchesFrame C.toFrameView probe)).map (·.listener)).map g := by
    rw [List.filter_map, List.map_map, List.map_map]
    rfl
  rw [matchListeners_eq, matchListeners_eq, hlisteners]
  generalize (registrations.filter (·.matchesFrame C.toFrameView probe)).map (·.listener) = ls
  induction ls with
  | nil => rfl
  | cons l ls ih =>
    rw [List.map_cons, List.mapM_cons, List.mapM_cons, ih]
    cases C.decode sample with
    | error e => rfl
    | ok frame =>
      cases ls.mapM fun listener => (Except.ok frame : Except Fault F).map (listener, ·) <;> rfl

theorem afterPoll_mapListener (polled : Except Fault (List (K × F))) :
    ListenerState.afterPoll (polled.map (mapDeliveries g)) =
      (ListenerState.afterPoll polled : TaskPhase S F K).mapListener g := by
  rcases polled with _ | _ | _ <;> rfl

namespace ListenerState

variable {s : ListenerState Φ S F K σ} {backend : Backend}

theorem setTask_mapListener (t : ℕ) (task : ListenerTask S F K) (phase : TaskPhase S F K)
    (suspended : Bool) :
    (s.setTask t task phase suspended).mapListener g =
      (s.mapListener g).setTask t (task.mapListener g) (phase.mapListener g) suspended := by
  simp [setTask, mapListener, ListenerTask.mapListener, List.map_set]

theorem setCall_mapListener (c : ℕ) (call : ListenerCall Φ K) (phase : CallPhase) :
    (s.setCall c call phase).mapListener g =
      (s.mapListener g).setCall c (call.mapListener g) phase := by
  simp [setCall, mapListener, ListenerCall.mapListener, List.map_set]

theorem run_mapListener (t : ℕ) (task : ListenerTask S F K) :
    (s.mapListener g).run backend receive C t (task.mapListener g) =
      (s.run backend receive C t task).map (·.mapListener g) := by
  obtain ⟨phase, aborted, suspended⟩ := task
  cases phase with
  | checking =>
    have hempty : (s.mapListener g).listeners.isEmpty = s.listeners.isEmpty := by
      simp [mapListener]
    simp only [run, ListenerTask.mapListener, TaskPhase.mapListener, hempty, Option.map_some,
      setTask_mapListener]
    split <;> rfl
  | polling =>
    cases backend with
    | native =>
      have hpoll : pollListenerFrames receive C (s.mapListener g).listeners =
          ((pollListenerFrames receive C s.listeners).1.map (mapDeliveries g),
            (pollListenerFrames receive C s.listeners).2.map (·.mapListener g)) :=
        pollRegistrations_mapListener s.listeners []
      simp only [run, hpoll, Option.map_some, setTask_mapListener, ← afterPoll_mapListener,
        ListenerTask.mapListener]
      rfl
    | stub =>
      have hpending : (s.mapListener g).pending = s.pending := rfl
      rcases hsamples : s.pending with _ | ⟨sample, pending⟩
      · simp only [run, ListenerTask.mapListener, hpending, hsamples, Option.map_some,
          setTask_mapListener]
        rfl
      · simp only [run, ListenerTask.mapListener, hpending, hsamples, Option.map_some,
          setTask_mapListener]
        cases C.decode sample <;> rfl
  | matching sample probe =>
    have hmatch : (afterPoll (matchListeners C sample probe (s.mapListener g).listeners) :
          TaskPhase S F L) =
        (afterPoll (matchListeners C sample probe s.listeners)).mapListener g := by
      rw [← afterPoll_mapListener, ← matchListeners_mapListener]
      rfl
    simp only [run, ListenerTask.mapListener, Option.map_some, setTask_mapListener, ← hmatch]
    rfl
  | delivering deliveries =>
    cases deliveries with
    | nil | cons =>
      simp only [run, ListenerTask.mapListener, Option.map_some, setTask_mapListener]
      rfl
  | inCallback | sleeping | left =>
    simp only [run, ListenerTask.mapListener, Option.map_some, setTask_mapListener]
    rfl
  | ended => rfl

theorem suspend_mapListener (t : ℕ) (task : ListenerTask S F K) :
    (s.mapListener g).suspend t (task.mapListener g) =
      (s.suspend t task).map (·.mapListener g) := by
  obtain ⟨phase, aborted, suspended⟩ := task
  cases phase with
  | delivering | left | ended => rfl
  | checking | polling | matching | inCallback | sleeping =>
    simp only [suspend, ListenerTask.mapListener, Option.map_some, setTask_mapListener]
    rfl

theorem cancel_mapListener (t : ℕ) (task : ListenerTask S F K) :
    (s.mapListener g).cancel t (task.mapListener g) =
      (s.cancel t task).map (·.mapListener g) := by
  obtain ⟨phase, _ | _, _ | _⟩ := task
  · rfl
  · rfl
  · rfl
  · exact congrArg some (setTask_mapListener t _ .ended false).symm

theorem isFinished_mapListener (t : ℕ) : (s.mapListener g).isFinished t = s.isFinished t := by
  simp only [isFinished, mapListener, List.getElem?_map]
  rcases s.tasks[t]? with _ | ⟨phase, -, -⟩
  · rfl
  · cases phase <;> rfl

theorem ensureListenerTask_mapListener (runtime : Except String Unit) :
    (s.mapListener g).ensureListenerTask runtime =
      ((s.ensureListenerTask runtime).1, (s.ensureListenerTask runtime).2.mapListener g) := by
  have hoccupied : (s.mapListener g).Occupied ↔ s.Occupied := by
    simp only [Occupied, isFinished_mapListener]
    rfl
  by_cases h : s.Occupied
  · rw [ensureListenerTask_of_occupied h, ensureListenerTask_of_occupied (hoccupied.2 h)]
  · have h' := mt hoccupied.1 h
    cases runtime with
    | error error => rw [ensureListenerTask_of_error h, ensureListenerTask_of_error h']
    | ok u =>
      rw [ensureListenerTask_of_ok h, ensureListenerTask_of_ok h']
      simp [mapListener, ListenerTask.mapListener, TaskPhase.mapListener]

theorem stopListenerTask_mapListener :
    (s.mapListener g).stopListenerTask = s.stopListenerTask.mapListener g := by
  unfold stopListenerTask
  cases hslot : s.listenerTask with
  | none => simp [mapListener, hslot]
  | some t =>
    simp only [mapListener, hslot]
    congr 1
    refine List.ext_getElem? fun u => ?_
    simp only [List.getElem?_modify, List.getElem?_map]
    rcases s.tasks[u]? with _ | task
    · rfl
    · by_cases htu : t = u <;> simp [htu, ListenerTask.mapListener]

end ListenerState

end Tasks

def ListenerAction.labelled : ListenerAction Φ S L σ → ListenerAction Φ S (Φ × L) σ
  | .call api filters listener => .call api filters (filters, listener)
  | .advance c created runtime => .advance c created runtime
  | .run t => .run t
  | .suspend t => .suspend t
  | .cancel t => .cancel t
  | .arrive sample => .arrive sample

/-- Without the labels. -/
def ListenerState.unlabelled (s : ListenerState Φ S F (Φ × L) σ) : ListenerState Φ S F L σ :=
  s.mapListener Prod.snd

/-- Each label is that of the filters next to it. -/
structure ListenerState.Labelled (s : ListenerState Φ S F (Φ × L) σ) : Prop where
  listeners : ∀ r ∈ s.listeners, r.listener.1 = r.filters
  calls : ∀ call ∈ s.calls, call.listener.1 = call.filters

section Labelled

variable [DecidableEq Φ] [DecidableEq L] {filters : Φ} {listener : L}
  {listeners : List (ListenerRegistration Φ (Φ × L) σ)}

omit [DecidableEq Φ] [DecidableEq L] in
theorem identity_unlabelled (h : ∀ r ∈ listeners, r.listener.1 = r.filters) :
    (filters, listener) ∈ (listeners.map (·.mapListener Prod.snd)).map (·.identity) ↔
      (filters, (filters, listener)) ∈ listeners.map (·.identity) := by
  simp only [List.mem_map, ListenerRegistration.identity, Prod.mk.injEq]
  constructor
  · rintro ⟨-, ⟨r, hr, rfl⟩, hfilters, hlistener⟩
    exact ⟨r, hr, hfilters, Prod.ext ((h r hr).trans hfilters) hlistener⟩
  · rintro ⟨r, hr, hfilters, hlistener⟩
    exact ⟨_, ⟨r, hr, rfl⟩, hfilters, congrArg Prod.snd hlistener⟩

theorem registerListener_unlabelled (filters : Φ) (listener : L)
    (h : ∀ r ∈ listeners, r.listener.1 = r.filters) (created : Except Fault σ) :
    registerListener filters listener created (listeners.map (·.mapListener Prod.snd)) =
      (registerListener filters (filters, listener) created listeners).map
        (List.map (·.mapListener Prod.snd)) := by
  by_cases hmem : (filters, (filters, listener)) ∈ listeners.map (·.identity)
  · rw [registerListener_of_mem hmem, registerListener_of_mem ((identity_unlabelled h).2 hmem)]
    rfl
  · rw [registerListener_of_not_mem hmem,
      registerListener_of_not_mem (mt (identity_unlabelled h).1 hmem)]
    cases created with
    | error e => rfl
    | ok subscriber => simp [Except.map]

theorem findIdx?_unlabelled : ∀ {listeners : List (ListenerRegistration Φ (Φ × L) σ)}
    (_ : ∀ r ∈ listeners, r.listener.1 = r.filters),
    (listeners.map (·.mapListener Prod.snd)).findIdx? (·.hasSameIdentity filters listener) =
      listeners.findIdx? (·.hasSameIdentity filters (filters, listener))
  | [], _ => rfl
  | r :: listeners, h => by
    obtain ⟨hr, hrest⟩ := List.forall_mem_cons.1 h
    have hsame : (r.mapListener Prod.snd).hasSameIdentity filters listener =
        r.hasSameIdentity filters (filters, listener) := by
      rw [Bool.eq_iff_iff, hasSameIdentity_iff, hasSameIdentity_iff]
      simp only [ListenerRegistration.identity, ListenerRegistration.mapListener, Prod.ext_iff, hr]
      tauto
    rw [List.map_cons, List.findIdx?_cons, List.findIdx?_cons, hsame, findIdx?_unlabelled hrest]

theorem unregisterListener_unlabelled (filters : Φ) (listener : L)
    (h : ∀ r ∈ listeners, r.listener.1 = r.filters) :
    unregisterListener filters listener (listeners.map (·.mapListener Prod.snd)) =
      (unregisterListener filters (filters, listener) listeners).map
        (Prod.map (List.map (·.mapListener Prod.snd)) id) := by
  rw [unregisterListener, unregisterListener, findIdx?_unlabelled h]
  split
  · rfl
  · simp [Except.map, List.eraseIdx_map]

namespace ListenerState

variable {s s' : ListenerState Φ S F (Φ × L) σ} {backend : Backend}
  {receive : σ → Except Fault S × σ} {C : FrameCodec Φ S F} {a : ListenerAction Φ S L σ}

theorem advance_unlabelled (hs : s.Labelled) (c : ℕ) (created : Except Fault σ)
    (runtime : Except String Unit) {call : ListenerCall Φ (Φ × L)} (hcall : call ∈ s.calls) :
    s.unlabelled.advance c created runtime (call.mapListener Prod.snd) =
      (s.advance c created runtime call).map (·.unlabelled) := by
  have hlabel := hs.calls call hcall
  obtain ⟨api, filters, ⟨label, listener⟩, phase⟩ := call
  obtain rfl : label = filters := hlabel
  have hregister := registerListener_unlabelled label listener hs.listeners created
  have hunregister := unregisterListener_unlabelled label listener hs.listeners
  cases phase with
  | returned result => cases api <;> rfl
  | listeners =>
    have hlisteners : (mapListener Prod.snd s).listeners =
        s.listeners.map (·.mapListener Prod.snd) := rfl
    cases api with
    | register =>
      simp only [advance, unlabelled, ListenerCall.mapListener, hlisteners, hregister]
      cases registerListener label (label, listener) created s.listeners with
      | error | ok =>
        simp only [Except.map, Option.map_some, setCall_mapListener]
        rfl
    | unregister =>
      simp only [advance, unlabelled, ListenerCall.mapListener, hlisteners, hunregister]
      cases unregisterListener label (label, listener) s.listeners with
      | error | ok =>
        simp only [Except.map, Option.map_some, setCall_mapListener]
        rfl
  | task =>
    cases api with
    | register =>
      simp only [advance, unlabelled, ListenerCall.mapListener, ensureListenerTask_mapListener,
        Option.map_some, setCall_mapListener]
    | unregister =>
      simp only [advance, unlabelled, ListenerCall.mapListener, stopListenerTask_mapListener,
        Option.map_some, setCall_mapListener]

/-- The labels are nothing to a step. -/
theorem step_unlabelled (hs : s.Labelled) (a : ListenerAction Φ S L σ) :
    step backend receive C s.unlabelled a =
      (step backend receive C s a.labelled).map (·.unlabelled) := by
  have hcalls (c : ℕ) : s.unlabelled.calls[c]? =
      (s.calls[c]?).map (·.mapListener Prod.snd) := List.getElem?_map
  have htasks (t : ℕ) : s.unlabelled.tasks[t]? =
      (s.tasks[t]?).map (·.mapListener Prod.snd) := List.getElem?_map
  cases a with
  | call api filters listener =>
    simp [step, unlabelled, mapListener, ListenerAction.labelled, ListenerCall.mapListener]
  | advance c created runtime =>
    simp only [step, ListenerAction.labelled, hcalls]
    cases hc : s.calls[c]? with
    | none => rfl
    | some call => exact advance_unlabelled hs c created runtime (List.mem_of_getElem? hc)
  | run t =>
    simp only [step, ListenerAction.labelled, htasks]
    rcases s.tasks[t]? with _ | task
    · rfl
    · simp only [Option.map_some, Option.bind_eq_bind, Option.bind_some]
      by_cases hends : (task.aborted && task.suspended) = true
      · have hends' : ((task.mapListener Prod.snd).aborted &&
            (task.mapListener Prod.snd).suspended) = true := hends
        rw [if_pos hends, if_pos hends']
        rfl
      · have hends' : ¬ ((task.mapListener Prod.snd).aborted &&
            (task.mapListener Prod.snd).suspended) = true := hends
        rw [if_neg hends, if_neg hends']
        exact run_mapListener t task
  | suspend t =>
    simp only [step, ListenerAction.labelled, htasks]
    rcases s.tasks[t]? with _ | task
    · rfl
    · exact suspend_mapListener t task
  | cancel t =>
    simp only [step, ListenerAction.labelled, htasks]
    rcases s.tasks[t]? with _ | task
    · rfl
    · exact cancel_mapListener t task
  | arrive sample => rfl

omit [DecidableEq Φ] [DecidableEq L] in
theorem labelled_set {calls : List (ListenerCall Φ (Φ × L))} {c : ℕ}
    {call : ListenerCall Φ (Φ × L)} (h : ∀ call ∈ calls, call.listener.1 = call.filters)
    (hc : calls[c]? = some call) (phase : CallPhase) :
    ∀ d ∈ calls.set c { call with phase }, d.listener.1 = d.filters := by
  intro d hd
  rcases List.mem_or_eq_of_mem_set hd with hd | rfl
  · exact h d hd
  · exact h call (List.mem_of_getElem? hc)

theorem labelled_step (hs : s.Labelled) (h : step backend receive C s a.labelled = some s') :
    s'.Labelled := by
  cases a with
  | call api filters listener =>
    cases h
    refine ⟨hs.listeners, fun call hcall => ?_⟩
    rcases List.mem_append.1 hcall with hcall | hcall
    · exact hs.calls call hcall
    · rw [List.mem_singleton.1 hcall]
  | advance c created runtime =>
    cases step_cases h with
    | failed hc => exact ⟨hs.listeners, labelled_set hs.calls hc _⟩
    | pushed hc hp hapi hpushed =>
      obtain ⟨-, subscriber, -, rfl⟩ := registerListener_eq_ok.1 hpushed
      refine ⟨fun r hr => ?_, labelled_set hs.calls hc _⟩
      rcases List.mem_append.1 hr with hr | hr
      · exact hs.listeners r hr
      · rw [List.mem_singleton.1 hr]
        exact hs.calls _ (List.mem_of_getElem? hc)
    | removed hc hp hapi hremoved =>
      obtain ⟨before, r, after, hlist, -, rfl, -⟩ := unregisterListener_ok hremoved
      refine ⟨fun r' hr' => hs.listeners r' ?_, labelled_set hs.calls hc _⟩
      rw [hlist]
      exact ((List.Sublist.refl before).append (List.sublist_cons_self r after)).subset hr'
    | ensured hc =>
      constructor
      · rw [setCall, ensureListenerTask_listeners]
        exact hs.listeners
      · rw [setCall, ensureListenerTask_calls]
        exact labelled_set hs.calls hc _
    | stopped hc =>
      obtain ⟨tasks, hstop⟩ := stopListenerTask_eq (s := s)
      rw [hstop]
      exact ⟨hs.listeners, labelled_set hs.calls hc _⟩
  | run t =>
    cases step_cases h with
    | ran ht _ hrun =>
      obtain ⟨listeners, pending, phase, rfl, hidentity, -, -⟩ := run_cases hrun
      refine ⟨fun r hr => ?_, hs.calls⟩
      have hid := List.mem_map_of_mem (f := ListenerRegistration.identity) hr
      change _ ∈ listeners.map (·.identity) at hid
      rw [hidentity] at hid
      obtain ⟨r', hr', heq⟩ := List.mem_map.1 hid
      obtain ⟨hfilters, hlistener⟩ := Prod.mk.inj heq
      rw [← hfilters, ← hlistener]
      exact hs.listeners r' hr'
  | suspend t =>
    cases step_cases h with
    | suspended => exact ⟨hs.listeners, hs.calls⟩
  | cancel t =>
    cases step_cases h with
    | cancelled => exact ⟨hs.listeners, hs.calls⟩
  | arrive sample =>
    cases h
    exact ⟨hs.listeners, hs.calls⟩

theorem labelled_exec : ∀ (actions : List (ListenerAction Φ S L σ))
    {s t : ListenerState Φ S F (Φ × L) σ} (_ : s.Labelled)
    (_ : Run.exec (step backend receive C) s (actions.map (·.labelled)) = some t), t.Labelled
  | [], s, t, hs, h => by
    cases h
    exact hs
  | a :: actions, s, t, hs, h => by
    obtain ⟨s', hstep, h⟩ := Option.bind_eq_some_iff.1 h
    exact labelled_exec actions (labelled_step hs hstep) h

/-- The labels are nothing to a run. -/
theorem exec_unlabelled : ∀ (actions : List (ListenerAction Φ S L σ))
    {s : ListenerState Φ S F (Φ × L) σ} (_ : s.Labelled),
    Run.exec (step backend receive C) s.unlabelled actions =
      (Run.exec (step backend receive C) s (actions.map (·.labelled))).map (·.unlabelled)
  | [], s, _ => rfl
  | a :: actions, s, hs => by
    rw [Run.exec, step_unlabelled hs, List.map_cons, Run.exec]
    cases hstep : step backend receive C s a.labelled with
    | none => rfl
    | some s' => exact exec_unlabelled actions (labelled_step hs hstep)

end ListenerState

end Labelled

end LolaTransport
