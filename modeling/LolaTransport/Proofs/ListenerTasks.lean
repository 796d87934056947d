import LolaTransport.ListenerTasks
import LolaTransport.Proofs.Listeners

/-!
# A listener has a poller, or a call that is about to start one

A register call that has pushed its registration has yet to see to the listener task.  While it has,
and while the task in the slot is in its loop, no listener is left alone (`Covered`).  Two steps can
end that: the abort of the task by a call that saw the list empty before others filled it again,
and the finding of a task that has left its loop and not ended (`Strands`).
-/

namespace LolaTransport

variable {Φ S F L σ : Type}

/-- What `has_same_identity` compares. -/
def ListenerRegistration.identity (registration : ListenerRegistration Φ L σ) : Φ × L :=
  (registration.filters, registration.listener)

namespace ListenerState

/-- The task is in its loop. -/
def InLoop : TaskPhase S F L → Prop
  | .left | .ended => False
  | _ => True

/-- The slot holds a task that has neither been aborted nor left its loop. -/
def HasPoller (s : ListenerState Φ S F L σ) : Prop :=
  ∃ t task, s.listenerTask = some t ∧ s.tasks[t]? = some task ∧ task.aborted = false ∧
    InLoop task.phase

/-- A register call that has pushed its registration. -/
def Starting (call : ListenerCall Φ L) : Prop := call.api = .register ∧ call.phase = .task

/-- No call is in progress. -/
def Quiescent (s : ListenerState Φ S F L σ) : Prop :=
  ∀ call ∈ s.calls, ∃ result, call.phase = .returned result

/-- No listener is registered, or one task polls, or a call is about to see to it. -/
def Covered (s : ListenerState Φ S F L σ) : Prop :=
  s.listeners = [] ∨ s.HasPoller ∨
    ∃ (c : ℕ) (call : ListenerCall Φ L), s.calls[c]? = some call ∧ Starting call

/-- A register call other than the one at `c` is about to see to the task. -/
def OtherStarting (s : ListenerState Φ S F L σ) (c : ℕ) : Prop :=
  ∃ (c' : ℕ) (call : ListenerCall Φ L), c' ≠ c ∧ s.calls[c']? = some call ∧ Starting call

/-- With listeners registered and nobody else about to see to the task, an unregister call aborts
it, or a register call contents itself with one that has left its loop. -/
def Strands (s : ListenerState Φ S F L σ) : ListenerAction Φ S L σ → Prop
  | .advance c _ _ => s.listeners ≠ [] ∧ ¬ s.OtherStarting c ∧
    ∃ call, s.calls[c]? = some call ∧ call.phase = .task ∧
      (call.api = .unregister ∨ ∃ t task, s.listenerTask = some t ∧ s.tasks[t]? = some task ∧
        task.phase = .left)
  | _ => False

/-- The handle in the slot is that of a task whose abort has not been requested. -/
def Inv (s : ListenerState Φ S F L σ) : Prop :=
  ∀ t, s.listenerTask = some t → ∃ task, s.tasks[t]? = some task ∧ task.aborted = false

/-- The call is made inside a Tokio runtime. -/
def InRuntime : ListenerAction Φ S L σ → Prop
  | .advance _ _ runtime => runtime = .ok ()
  | _ => True

section Cases

variable [DecidableEq Φ] [DecidableEq L] (backend : Backend) (receive : σ → Except Fault S × σ)
  (C : FrameCodec Φ S F)

inductive StepCase (s : ListenerState Φ S F L σ) :
    ListenerAction Φ S L σ → ListenerState Φ S F L σ → Prop
  | call (api : ListenerApi) (filters : Φ) (listener : L) :
      StepCase s (.call api filters listener) { s with
        calls := s.calls ++ [{ api, filters, listener }] }
  | failed {c created runtime call e} (hc : s.calls[c]? = some call)
      (hp : call.phase = .listeners)
      (h : call.api = .register ∧
          registerListener call.filters call.listener created s.listeners = .error e ∨
        call.api = .unregister ∧
          unregisterListener call.filters call.listener s.listeners = .error e) :
      StepCase s (.advance c created runtime) (s.setCall c call (.returned (.error e)))
  | pushed {c created runtime call listeners} (hc : s.calls[c]? = some call)
      (hp : call.phase = .listeners) (hapi : call.api = .register)
      (h : registerListener call.filters call.listener created s.listeners = .ok listeners) :
      StepCase s (.advance c created runtime) ({ s with listeners }.setCall c call .task)
  | removed {c created runtime call listeners shouldStop} (hc : s.calls[c]? = some call)
      (hp : call.phase = .listeners) (hapi : call.api = .unregister)
      (h : unregisterListener call.filters call.listener s.listeners =
        .ok (listeners, shouldStop)) :
      StepCase s (.advance c created runtime) ({ s with listeners }.setCall c call
        (if shouldStop then .task else .returned (.ok ())))
  | ensured {c created runtime call} (hc : s.calls[c]? = some call) (hp : call.phase = .task)
      (hapi : call.api = .register) :
      StepCase s (.advance c created runtime) ((s.ensureListenerTask runtime).2.setCall c call
        (.returned (s.ensureListenerTask runtime).1))
  | stopped {c created runtime call} (hc : s.calls[c]? = some call) (hp : call.phase = .task)
      (hapi : call.api = .unregister) :
      StepCase s (.advance c created runtime)
        (s.stopListenerTask.setCall c call (.returned (.ok ())))
  | ran {t task s'} (ht : s.tasks[t]? = some task)
      (hruns : (task.aborted && task.suspended) = false)
      (h : s.run backend receive C t task = some s') : StepCase s (.run t) s'
  | suspended {t task} (ht : s.tasks[t]? = some task) :
      StepCase s (.suspend t) (s.setTask t task task.phase true)
  | cancelled {t task} (ht : s.tasks[t]? = some task) (haborted : task.aborted = true)
      (hsuspended : task.suspended = true) : StepCase s (.cancel t) (s.setTask t task .ended)
  | arrived (sample : S) : StepCase s (.arrive sample) { s with pending := s.pending ++ [sample] }

end Cases

section Steps

variable {backend : Backend} {receive : σ → Except Fault S × σ} {C : FrameCodec Φ S F}
  {s s' : ListenerState Φ S F L σ} {c t : ℕ} {call : ListenerCall Φ L} {task : ListenerTask S F L}

theorem isFinished_eq (h : s.tasks[t]? = some task) :
    s.isFinished t = true ↔ task.phase = .ended := by
  simp only [isFinished, h]
  cases task.phase <;> simp

/-- Who is registered does not depend on what the subscribers return. -/
theorem identity_pollRegistrations : ∀ {registrations : List (ListenerRegistration Φ L σ)}
    {deliveries : List (L × F)},
    (pollRegistrations receive C deliveries registrations).2.map (·.identity) =
      registrations.map (·.identity)
  | [], _ => rfl
  | r :: registrations, deliveries => by
    by_cases hstop : Stops C (receive r.subscriber).1
    · obtain ⟨e, he⟩ := poll_cons_of_stops hstop deliveries registrations
      rw [he]
      rfl
    · rw [poll_cons_of_not_stops hstop, List.map_cons, identity_pollRegistrations]
      rfl

theorem inLoop_or_left {phase : TaskPhase S F L} (h : phase ≠ .ended) :
    InLoop phase ∨ phase = .left := by
  cases phase
  case left => exact .inr rfl
  case ended => exact absurd rfl h
  all_goals exact .inl trivial

theorem inLoop_afterPoll (polled : Except Fault (List (L × F))) :
    InLoop (afterPoll polled : TaskPhase S F L) := by
  rcases polled with _ | _ | _ <;> trivial

/-- A task that runs changes its own phase, leaves its loop only when it finds the list empty, and
does not come back to it. -/
theorem run_cases (h : s.run backend receive C t task = some s') :
    ∃ listeners pending phase, s' = ({ s with listeners, pending }.setTask t task phase) ∧
      listeners.map (·.identity) = s.listeners.map (·.identity) ∧
      (InLoop task.phase → InLoop phase ∨ s.listeners = []) ∧
      (InLoop phase → InLoop task.phase) := by
  cases hp : task.phase with
  | checking =>
    simp only [run, hp] at h
    cases h
    refine ⟨_, _, _, rfl, rfl, fun _ => ?_, fun _ => trivial⟩
    cases s.listeners with
    | nil => exact .inr rfl
    | cons r listeners => exact .inl trivial
  | polling =>
    cases backend with
    | native =>
      simp only [run, hp] at h
      cases h
      exact ⟨_, _, _, rfl, identity_pollRegistrations, fun _ => .inl (inLoop_afterPoll _),
        fun _ => trivial⟩
    | stub =>
      cases hpending : s.pending with
      | nil =>
        simp only [run, hp, hpending] at h
        cases h
        exact ⟨_, _, _, rfl, rfl, fun _ => .inl trivial, fun _ => trivial⟩
      | cons sample pending =>
        simp only [run, hp, hpending] at h
        cases h
        refine ⟨_, _, _, rfl, rfl, fun _ => .inl ?_, fun _ => trivial⟩
        split <;> trivial
  | matching sample probe =>
    simp only [run, hp] at h
    cases h
    exact ⟨_, _, _, rfl, rfl, fun _ => .inl (inLoop_afterPoll _), fun _ => trivial⟩
  | delivering deliveries =>
    cases deliveries with
    | nil | cons =>
      simp only [run, hp] at h
      cases h
      exact ⟨_, _, _, rfl, rfl, fun _ => .inl trivial, fun _ => trivial⟩
  | inCallback | sleeping =>
    simp only [run, hp] at h
    cases h
    exact ⟨_, _, _, rfl, rfl, fun _ => .inl trivial, fun _ => trivial⟩
  | left =>
    simp only [run, hp] at h
    cases h
    exact ⟨_, _, _, rfl, rfl, fun hloop => hloop.elim, id⟩
  | ended =>
    simp only [run, hp] at h
    cases h

section Slot

theorem inv_init : ({} : ListenerState Φ S F L σ).Inv := nofun

theorem inv_setTask (hs : s.Inv) (ht : s.tasks[t]? = some task) (phase : TaskPhase S F L)
    (suspended : Bool) : (s.setTask t task phase suspended).Inv := by
  intro p hslot
  obtain ⟨poller, hp, haborted⟩ := hs p hslot
  obtain ⟨hlt, -⟩ := List.getElem?_eq_some_iff.1 ht
  by_cases hpt : p = t
  · subst hpt
    rw [ht] at hp
    cases hp
    exact ⟨_, List.getElem?_set_self hlt, haborted⟩
  · exact ⟨poller, (List.getElem?_set_ne (Ne.symm hpt)).trans hp, haborted⟩

theorem inv_stopListenerTask (hs : s.Inv) : s.stopListenerTask.Inv := by
  unfold stopListenerTask
  split
  · exact hs
  · exact nofun

theorem inv_ensureListenerTask (hs : s.Inv) (runtime : Except String Unit) :
    (s.ensureListenerTask runtime).2.Inv := by
  unfold ensureListenerTask
  split_ifs
  · exact hs
  · cases runtime with
    | error error => exact hs
    | ok u =>
      intro t ht
      cases ht
      exact ⟨{}, List.getElem?_concat_length, rfl⟩

end Slot

theorem covered_iff (hc : s.calls[c]? = some call) :
    s.Covered ↔ s.listeners = [] ∨ s.HasPoller ∨ Starting call ∨ s.OtherStarting c := by
  unfold Covered
  refine or_congr_right (or_congr_right ⟨?_, ?_⟩)
  · rintro ⟨c', call', hc', hstarting⟩
    by_cases h : c' = c
    · subst h
      rw [hc] at hc'
      cases hc'
      exact .inl hstarting
    · exact .inr ⟨c', call', h, hc', hstarting⟩
  · rintro (hstarting | ⟨c', call', -, hc', hstarting⟩)
    · exact ⟨c, call, hc, hstarting⟩
    · exact ⟨c', call', hc', hstarting⟩

theorem otherStarting_setCall (phase : CallPhase) :
    (s.setCall c call phase).OtherStarting c ↔ s.OtherStarting c := by
  simp only [OtherStarting, setCall]
  refine exists_congr fun c' => exists_congr fun call' => and_congr_right fun h => ?_
  rw [List.getElem?_set_ne h.symm]

/-- A call that goes on covers the listeners if it is now about to see to the task. -/
theorem covered_setCall (hc : s.calls[c]? = some call) (phase : CallPhase) :
    (s.setCall c call phase).Covered ↔ s.listeners = [] ∨ s.HasPoller ∨
      (call.api = .register ∧ phase = .task) ∨ s.OtherStarting c := by
  obtain ⟨hlt, -⟩ := List.getElem?_eq_some_iff.1 hc
  have hset : (s.setCall c call phase).calls[c]? = some { call with phase } :=
    List.getElem?_set_self hlt
  rw [covered_iff hset, otherStarting_setCall]
  rfl

/-- The poller is untouched by a task that goes on in its loop, or that is not the poller. -/
theorem HasPoller.setTask (h : s.HasPoller) (ht : s.tasks[t]? = some task)
    {phase : TaskPhase S F L} {suspended : Bool}
    (hphase : task.aborted = false → InLoop task.phase → InLoop phase) :
    (s.setTask t task phase suspended).HasPoller := by
  obtain ⟨p, poller, hslot, hp, haborted, hloop⟩ := h
  obtain ⟨hlt, -⟩ := List.getElem?_eq_some_iff.1 ht
  by_cases hpt : p = t
  · subst hpt
    rw [ht] at hp
    cases hp
    exact ⟨p, _, hslot, List.getElem?_set_self hlt, haborted, hphase haborted hloop⟩
  · refine ⟨p, poller, hslot, ?_, haborted, hloop⟩
    exact (List.getElem?_set_ne (Ne.symm hpt)).trans hp

theorem covered_setTask (h : s.Covered) (ht : s.tasks[t]? = some task) {phase : TaskPhase S F L}
    {suspended : Bool}
    (hphase : task.aborted = false → InLoop task.phase → InLoop phase ∨ s.listeners = []) :
    (s.setTask t task phase suspended).Covered := by
  rcases h with hnil | hpoller | hstarting
  · exact .inl hnil
  · by_cases hnil : s.listeners = []
    · exact .inl hnil
    · exact .inr (.inl (hpoller.setTask ht fun haborted hloop =>
        (hphase haborted hloop).resolve_right hnil))
  · exact .inr (.inr hstarting)

theorem hasPoller_of_covered (hcovered : s.Covered) (hquiet : s.Quiescent) (h : s.listeners ≠ []) :
    s.HasPoller := by
  rcases hcovered with hnil | hpoller | ⟨c, call, hc, -, hp⟩
  · exact absurd hnil h
  · exact hpoller
  · obtain ⟨result, hreturned⟩ := hquiet call (List.mem_of_getElem? hc)
    rw [hp] at hreturned
    cases hreturned

theorem not_strands (hc : s.calls[c]? = some call) (hp : call.phase = .listeners)
    (created : Except Fault σ) (runtime : Except String Unit) :
    ¬ s.Strands (.advance c created runtime) := by
  rintro ⟨-, -, call', hc', hp', -⟩
  rw [hc] at hc'
  cases hc'
  rw [hp] at hp'
  cases hp'

theorem strands_iff (hc : s.calls[c]? = some call) (hp : call.phase = .task)
    (created : Except Fault σ) (runtime : Except String Unit) :
    s.Strands (.advance c created runtime) ↔ s.listeners ≠ [] ∧ ¬ s.OtherStarting c ∧
      (call.api = .unregister ∨ ∃ t task, s.listenerTask = some t ∧ s.tasks[t]? = some task ∧
        task.phase = .left) := by
  refine and_congr_right fun _ => and_congr_right fun _ => ⟨?_, fun h => ⟨call, hc, hp, h⟩⟩
  rintro ⟨call', hc', -, h⟩
  rw [hc] at hc'
  cases hc'
  exact h

/-- Without a poller, and with no call at `c` about to see to one, another has to be. -/
theorem covered_iff_not_strands {listeners : Prop} {other : Prop} {poller strands : Prop}
    (hpoller : ¬ poller) (hstrands : strands) :
    (listeners ∨ poller ∨ False ∨ other) ↔ ¬ (¬ listeners ∧ ¬ other ∧ strands) := by
  tauto

/-- The slot holds a task that has not finished. -/
def Occupied (s : ListenerState Φ S F L σ) : Prop := s.listenerTask.any (!s.isFinished ·) = true

theorem ensureListenerTask_of_occupied (h : s.Occupied) (runtime : Except String Unit) :
    s.ensureListenerTask runtime = (.ok (), s) := if_pos h

theorem ensureListenerTask_of_error (h : ¬ s.Occupied) (error : String) :
    s.ensureListenerTask (.error error) = (.error (failWithCode .FAILED_PRECONDITION
      s!"LoLa listener registration requires a Tokio runtime: {error}"), s) := if_neg h

theorem ensureListenerTask_of_ok (h : ¬ s.Occupied) :
    s.ensureListenerTask (.ok ()) = (.ok (), { s with
      listenerTask := some s.tasks.length
      tasks := s.tasks ++ [{}] }) := if_neg h

/-- A task is started, where the slot is free and a runtime is there, or nothing changes. -/
theorem ensureListenerTask_cases (s : ListenerState Φ S F L σ) (runtime : Except String Unit) :
    (s.ensureListenerTask runtime).2 = s ∨
      ¬ s.Occupied ∧ runtime = .ok () ∧ (s.ensureListenerTask runtime).2 = { s with
        listenerTask := some s.tasks.length
        tasks := s.tasks ++ [{}] } := by
  by_cases h : s.Occupied
  · exact .inl (by rw [ensureListenerTask_of_occupied h])
  · cases runtime with
    | error error => exact .inl (by rw [ensureListenerTask_of_error h])
    | ok u => exact .inr ⟨h, rfl, by rw [ensureListenerTask_of_ok h]⟩

theorem ensureListenerTask_eq_ok {runtime : Except String Unit} :
    (s.ensureListenerTask runtime).1 = .ok () ↔ s.Occupied ∨ runtime = .ok () := by
  by_cases h : s.Occupied
  · simp [ensureListenerTask_of_occupied h, h]
  · cases runtime with
    | error error => simp [ensureListenerTask_of_error h, h]
    | ok u => simp [ensureListenerTask_of_ok h]

/-- A register call that sees to the task leaves a poller, unless it takes for one a task that has
left its loop. -/
theorem covered_ensured (hs : s.Inv) (hc : s.calls[c]? = some call) (hp : call.phase = .task)
    (hapi : call.api = .register) (created : Except Fault σ) :
    ((s.ensureListenerTask (.ok ())).2.setCall c call
      (.returned (s.ensureListenerTask (.ok ())).1)).Covered ↔
      ¬ s.Strands (.advance c created (.ok ())) := by
  rw [strands_iff hc hp, hapi]
  by_cases hoccupied : s.Occupied
  · rw [ensureListenerTask_of_occupied hoccupied, covered_setCall hc, hapi]
    obtain ⟨t, ht, hunfinished⟩ := (Option.any_eq_true _ _).1 hoccupied
    obtain ⟨task, htask, haborted⟩ := hs t ht
    by_cases hloop : InLoop task.phase
    · refine iff_of_true (.inr (.inl ⟨t, task, ht, htask, haborted, hloop⟩)) ?_
      rintro ⟨-, -, hother | ⟨t', task', ht', htask', hleft⟩⟩
      · cases hother
      · obtain rfl := Option.some.inj (ht.symm.trans ht')
        obtain rfl := Option.some.inj (htask.symm.trans htask')
        rw [hleft] at hloop
        exact hloop
    · -- the task is on its way out and the call takes it for a poller
      have hnot : task.phase ≠ .ended := by
        rw [Ne, ← isFinished_eq htask]
        simpa using hunfinished
      have hleft : task.phase = .left := (inLoop_or_left hnot).resolve_left hloop
      simp only [reduceCtorEq, and_false]
      refine covered_iff_not_strands ?_ (.inr ⟨t, task, ht, htask, hleft⟩)
      rintro ⟨t', task', ht', htask', -, hloop'⟩
      obtain rfl := Option.some.inj (ht.symm.trans ht')
      obtain rfl := Option.some.inj (htask.symm.trans htask')
      exact hloop hloop'
  · rw [ensureListenerTask_of_ok hoccupied, covered_setCall (s := { s with
      listenerTask := some s.tasks.length
      tasks := s.tasks ++ [{}] }) hc]
    refine iff_of_true (.inr (.inl ⟨_, {}, rfl, List.getElem?_concat_length, rfl, trivial⟩)) ?_
    rintro ⟨-, -, hother | ⟨t, task, ht, htask, hleft⟩⟩
    · cases hother
    · refine hoccupied ?_
      simp [Occupied, ht, isFinished, htask, hleft]

theorem stopListenerTask_eq :
    ∃ tasks, s.stopListenerTask = { s with listenerTask := none, tasks } := by
  unfold stopListenerTask
  split
  · rename_i hslot
    exact ⟨s.tasks, by rw [← hslot]⟩
  · exact ⟨_, rfl⟩

section Runs

variable [DecidableEq Φ] [DecidableEq L] {a : ListenerAction Φ S L σ}

theorem step_cases (h : step backend receive C s a = some s') :
    StepCase backend receive C s a s' := by
  cases a with
  | call api filters listener =>
    cases h
    exact .call api filters listener
  | advance c created runtime =>
    obtain ⟨call, hc, h⟩ := Option.bind_eq_some_iff.1 h
    unfold advance at h
    split at h
    · rename_i hapi hp
      split at h
      · rename_i e he
        cases h
        exact .failed hc hp (.inl ⟨hapi, he⟩)
      · rename_i listeners hok
        cases h
        exact .pushed hc hp hapi hok
    · rename_i hapi hp
      split at h
      · rename_i e he
        cases h
        exact .failed hc hp (.inr ⟨hapi, he⟩)
      · rename_i listeners shouldStop hok
        cases h
        exact .removed hc hp hapi hok
    · rename_i hapi hp
      cases h
      exact .ensured hc hp hapi
    · rename_i hapi hp
      cases h
      exact .stopped hc hp hapi
    · cases h
  | run t =>
    obtain ⟨task, ht, h⟩ := Option.bind_eq_some_iff.1 h
    split_ifs at h with hends
    exact .ran ht (by simpa using hends) h
  | suspend t =>
    obtain ⟨task, ht, h⟩ := Option.bind_eq_some_iff.1 h
    unfold suspend at h
    split at h
    all_goals cases h
    exact .suspended ht
  | cancel t =>
    obtain ⟨task, ht, h⟩ := Option.bind_eq_some_iff.1 h
    unfold cancel at h
    split_ifs at h with hcancel
    cases h
    rw [Bool.and_eq_true] at hcancel
    exact .cancelled ht hcancel.1 hcancel.2
  | arrive sample =>
    cases h
    exact .arrived sample

theorem inv_step (hs : s.Inv) (h : step backend receive C s a = some s') : s'.Inv := by
  cases step_cases h with
  | call | failed | pushed | removed | arrived => exact hs
  | ensured => exact inv_ensureListenerTask hs _
  | stopped => exact inv_stopListenerTask hs
  | ran ht _ hrun =>
    obtain ⟨listeners, pending, phase, rfl, -, -, -⟩ := run_cases hrun
    exact inv_setTask hs ht phase _
  | suspended ht | cancelled ht => exact inv_setTask hs ht _ _

/-- From a state in which listeners are covered, a step leaves them so unless it strands one. -/
theorem covered_step (hs : s.Inv) (hcovered : s.Covered) (ha : InRuntime a)
    (h : step backend receive C s a = some s') : s'.Covered ↔ ¬ s.Strands a := by
  cases step_cases h with
  | call api filters listener =>
    refine iff_of_true (hcovered.imp_right (Or.imp_right ?_)) id
    rintro ⟨c, call, hc, hstarting⟩
    obtain ⟨hlt, -⟩ := List.getElem?_eq_some_iff.1 hc
    exact ⟨c, call, (List.getElem?_append_left hlt).trans hc, hstarting⟩
  | arrived sample => exact iff_of_true hcovered id
  | failed hc hp h =>
    refine iff_of_true ((covered_setCall hc _).2 ?_) (not_strands hc hp _ _)
    refine ((covered_iff hc).1 hcovered).imp_right (Or.imp_right (Or.imp_left fun hstarting => ?_))
    rw [Starting, hp] at hstarting
    cases hstarting.2
  | @pushed _ _ _ _ listeners hc hp hapi h =>
    refine iff_of_true ?_ (not_strands hc hp _ _)
    exact (covered_setCall (s := { s with listeners }) hc _).2 (.inr (.inr (.inl ⟨hapi, rfl⟩)))
  | @removed _ _ _ call listeners shouldStop hc hp hapi hremoved =>
    refine iff_of_true ((covered_setCall (s := { s with listeners }) hc _).2 ?_)
      (not_strands hc hp _ _)
    rcases (covered_iff hc).1 hcovered with hnil | hpoller | hstarting | hother
    · rw [hnil] at hremoved
      cases hremoved
    · exact .inr (.inl hpoller)
    · rw [Starting, hp] at hstarting
      cases hstarting.2
    · exact .inr (.inr (.inr hother))
  | @ensured _ _ runtime _ hc hp hapi =>
    obtain rfl : runtime = .ok () := ha
    exact covered_ensured hs hc hp hapi _
  | stopped hc hp hapi =>
    obtain ⟨tasks, hstop⟩ := stopListenerTask_eq (s := s)
    rw [strands_iff hc hp, hstop, covered_setCall (s := { s with listenerTask := none, tasks }) hc]
    simp only [hapi, reduceCtorEq, false_and]
    refine covered_iff_not_strands ?_ (.inl trivial)
    rintro ⟨t, task, hslot, -⟩
    cases hslot
  | ran ht _ hrun =>
    obtain ⟨listeners, pending, phase, rfl, hidentity, hphase, -⟩ := run_cases hrun
    refine iff_of_true ?_ id
    have hnil : listeners = [] ↔ s.listeners = [] := by
      rw [← List.map_eq_nil_iff (f := ListenerRegistration.identity), hidentity,
        List.map_eq_nil_iff]
    have hcovered' : ({ s with listeners, pending } : ListenerState Φ S F L σ).Covered :=
      hcovered.imp_left hnil.2
    exact covered_setTask hcovered' ht fun _ hloop => (hphase hloop).imp_right hnil.2
  | suspended ht => exact iff_of_true (covered_setTask hcovered ht fun _ hloop => .inl hloop) id
  | cancelled ht haborted =>
    refine iff_of_true (covered_setTask hcovered ht fun hnot _ => ?_) id
    rw [haborted] at hnot
    cases hnot

/-- In a history of calls made inside a runtime and of steps of listener tasks, whose callbacks
return, listeners have a poller or a register call about to see to one, after each step, exactly
when no step strands them; and if none does, whenever no call is in progress the listeners there are
have a poller. -/
theorem listeners_have_poller {actions : List (ListenerAction Φ S L σ)}
    (hruntime : ∀ a ∈ actions, InRuntime a)
    (h : Run.exec (step backend receive C) {} actions = some s) :
    ((∀ before after u, actions = before ++ after →
        Run.exec (step backend receive C) {} before = some u → u.Covered) ↔
      ∀ before a after u, actions = before ++ a :: after →
        Run.exec (step backend receive C) {} before = some u → ¬ u.Strands a) ∧
    ((∀ before a after u, actions = before ++ a :: after →
        Run.exec (step backend receive C) {} before = some u → ¬ u.Strands a) →
      ∀ before after u, actions = before ++ after →
        Run.exec (step backend receive C) {} before = some u →
          u.Quiescent → u.listeners ≠ [] → u.HasPoller) := by
  have hiff := Run.exec_forall_iff (I := Inv) (P := Covered) (fun _ _ _ hs => inv_step hs)
    (fun _ _ _ hs hcovered ha => covered_step hs hcovered ha) hruntime inv_init (.inl rfl) h
  exact ⟨hiff, fun hnone before after u heq hu hquiet =>
    hasPoller_of_covered (hiff.2 hnone before after u heq hu) hquiet⟩

end Runs

end Steps

/-- The call at `c` goes on, inside a runtime. -/
def plainAdvance (c : ℕ) :
    ListenerAction (Filters plainUpRust) (List UInt8) ℕ (List (Except Fault (List UInt8))) :=
  .advance c (.ok []) (.ok ())

/-- A listener for the topic `a` is registered. -/
def plainRegistered :
    List (ListenerAction (Filters plainUpRust) (List UInt8) ℕ (List (Except Fault (List UInt8)))) :=
  [.call .register filtersA 0, plainAdvance 0, plainAdvance 0]

/-- The same listener is refused; then it is unregistered, its task is stopped while it polls, and
one for the topic `b` is registered. -/
def plainRestarted :
    List (ListenerAction (Filters plainUpRust) (List UInt8) ℕ (List (Except Fault (List UInt8)))) :=
  plainRegistered ++ [.call .register filtersA 0, plainAdvance 1, .run 0, .suspend 0,
    .call .unregister filtersA 0, plainAdvance 2, plainAdvance 2, .cancel 0,
    .call .register filtersB 1, plainAdvance 3, plainAdvance 3, .run 1]

theorem exec_plainRestarted :
    Run.exec (step .native plainReceive plainFrames) {} plainRestarted = some {
      listeners := [⟨filtersB, 1, []⟩]
      listenerTask := some 1
      tasks := [⟨.ended, true, false⟩, ⟨.polling, false, false⟩]
      calls := [⟨.register, filtersA, 0, .returned (.ok ())⟩,
        ⟨.register, filtersA, 0, .returned (.error
          (failWithCode .ALREADY_EXISTS "LoLa listener already registered for filters"))⟩,
        ⟨.unregister, filtersA, 0, .returned (.ok ())⟩,
        ⟨.register, filtersB, 1, .returned (.ok ())⟩] } := rfl

theorem plainRestarted_inRuntime : ∀ a ∈ plainRestarted, InRuntime a := by
  simp [plainRestarted, plainRegistered, plainAdvance, InRuntime]

/-- The list is empty, or the call that goes on is not at the task, or finds the slot free. -/
def keepsCovered (s : ListenerState Φ S F L σ) : ListenerAction Φ S L σ → Bool
  | .advance c _ _ => s.listeners.isEmpty || (s.calls[c]?).all fun call =>
    match call.phase with
    | .task => call.api = .register && s.listenerTask.isNone
    | _ => true
  | _ => true

theorem not_strands_of_keepsCovered {s : ListenerState Φ S F L σ} {a : ListenerAction Φ S L σ}
    (h : s.keepsCovered a = true) : ¬ s.Strands a := by
  cases a with
  | advance c created runtime =>
    rintro ⟨hlisteners, -, call, hc, hp, hstrands⟩
    have hcall : (call.api = .register && s.listenerTask.isNone) = true := by
      simpa [keepsCovered, hlisteners, hc, hp] using h
    simp only [Bool.and_eq_true, decide_eq_true_eq, Option.isNone_iff_eq_none] at hcall
    obtain ⟨hapi, hfree⟩ := hcall
    rcases hstrands with hunregister | ⟨t, task, hslot, -⟩
    · cases hapi.symm.trans hunregister
    · cases hfree.symm.trans hslot
  | _ => exact id

/-- After the first task has ended, the second polls for the listener there is. -/
theorem listeners_have_poller_plain :
    ∃ s, Run.exec (step .native plainReceive plainFrames) {} plainRestarted = some s ∧
      s.listeners.map (·.identity) = [(filtersB, 1)] ∧ s.isFinished 0 = true ∧ s.HasPoller := by
  have hchecks : Run.checks (step .native plainReceive plainFrames) keepsCovered {}
      plainRestarted = true := rfl
  refine ⟨_, exec_plainRestarted, rfl, rfl, ?_⟩
  refine (listeners_have_poller plainRestarted_inRuntime exec_plainRestarted).2 ?_ plainRestarted
    [] _ (List.append_nil _).symm exec_plainRestarted ?_ (List.cons_ne_nil _ _)
  · intro before a after u heq hu
    exact not_strands_of_keepsCovered (Run.ok_of_checks hchecks before a after u heq hu)
  · intro call hcall
    simp only [List.mem_cons, List.not_mem_nil, or_false] at hcall
    rcases hcall with rfl | rfl | rfl | rfl <;> exact ⟨_, rfl⟩

/-- The listener is unregistered; before the task is stopped another is registered, which finds the
task running. -/
theorem listeners_have_poller_stopped :
    ∃ s, Run.exec (step .native plainReceive plainFrames) {} (plainRegistered ++
        [.call .unregister filtersA 0, .call .register filtersB 1, plainAdvance 1, plainAdvance 2,
          plainAdvance 2, plainAdvance 1]) = some s ∧
      s.Quiescent ∧ s.listeners ≠ [] ∧ ¬ s.HasPoller := by
  refine ⟨{
    listeners := [⟨filtersB, 1, []⟩]
    tasks := [{ aborted := true }]
    calls := [⟨.register, filtersA, 0, .returned (.ok ())⟩,
      ⟨.unregister, filtersA, 0, .returned (.ok ())⟩,
      ⟨.register, filtersB, 1, .returned (.ok ())⟩] }, rfl, ?_, nofun, ?_⟩
  · intro call hcall
    simp only [List.mem_cons, List.not_mem_nil, or_false] at hcall
    rcases hcall with rfl | rfl | rfl <;> exact ⟨_, rfl⟩
  · rintro ⟨t, task, hslot, -⟩
    cases hslot

end ListenerState

end LolaTransport
