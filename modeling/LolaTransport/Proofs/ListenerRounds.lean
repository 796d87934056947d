import LolaTransport.Proofs.CallbackOrder

/-!
# A listener task that is left alone

From any state in which listeners have a poller, its task first hands over what it has, and then
goes on turn by turn.  In the native backend these turns are those of `listenerRounds`
(`rounds_run`).  In the stub backend they empty `pending`, and each sample that is a frame is handed
to every listener it matches, in the order of their registration (`pending_run_empty`).  Where
nobody is registered, the task ends (`ends_run`).  In all three the transport is alive, and a
callback returns: it does not panic.
-/

namespace LolaTransport

variable {Φ S F L σ : Type}

namespace ListenerState

/-- What a task hands over before it polls again. -/
def handing (C : FrameCodec Φ S F) (s : ListenerState Φ S F L σ) : TaskPhase S F L → List (L × F)
  | .matching sample probe => (matchListeners C sample probe s.listeners).toOption.getD []
  | phase => phase.batch

/-- The task at `t` is about to poll, and nothing has aborted it. -/
def Polling (t : ℕ) (s : ListenerState Φ S F L σ) : Prop :=
  ∃ task, s.tasks[t]? = some task ∧ task.aborted = false ∧ task.phase = .polling

variable [DecidableEq Φ] [DecidableEq L]

/-- The task at `t` runs for a while, and meanwhile calls listeners with these deliveries. -/
def Runs (backend : Backend) (receive : σ → Except Fault S × σ) (C : FrameCodec Φ S F) (t : ℕ)
    (s s' : ListenerState Φ S F L σ) (deliveries : List (L × F)) : Prop :=
  ∃ m, Run.Does (step backend receive C) started s (List.replicate m (.run t)) s' deliveries

variable {backend : Backend} {receive : σ → Except Fault S × σ} {C : FrameCodec Φ S F} {t : ℕ}
  {s s' s'' : ListenerState Φ S F L σ} {task : ListenerTask S F L} {ds ds' : List (L × F)}

theorem Runs.refl : Runs backend receive C t s s [] := ⟨0, .nil⟩

theorem Runs.trans (h : Runs backend receive C t s s' ds)
    (h' : Runs backend receive C t s' s'' ds') :
    Runs backend receive C t s s'' (ds ++ ds') := by
  obtain ⟨m, hm⟩ := h
  obtain ⟨m', hm'⟩ := h'
  have hall := hm.append hm'
  rw [List.replicate_append_replicate] at hall
  exact ⟨m + m', hall⟩

theorem Runs.head (ht : s.tasks[t]? = some task) (haborted : task.aborted = false)
    (hrun : s.run backend receive C t task = some s') (h : Runs backend receive C t s' s'' ds) :
    Runs backend receive C t s s'' (task.phase.next ++ ds) := by
  obtain ⟨m, hm⟩ := h
  have hstep : step backend receive C s (.run t) = some s' := by
    simp only [step, ht, Option.bind_eq_bind, Option.bind_some, haborted, Bool.false_and,
      Bool.false_eq_true, if_false]
    exact hrun
  have hstarted : s.started (.run t) = task.phase.next := by rw [started, ht]; rfl
  exact ⟨m + 1, hstarted ▸ Run.Does.cons hstep hm⟩

omit [DecidableEq Φ] [DecidableEq L] in
theorem getElem?_setTask_self (ht : s.tasks[t]? = some task) (phase : TaskPhase S F L) :
    (s.setTask t task phase).tasks[t]? = some { task with phase, suspended := false } := by
  obtain ⟨hlt, -⟩ := List.getElem?_eq_some_iff.1 ht
  exact List.getElem?_set_self hlt

omit [DecidableEq Φ] [DecidableEq L] in
theorem setTask_setTask (phase phase' : TaskPhase S F L) :
    (s.setTask t task phase).setTask t { task with phase, suspended := false } phase' =
      s.setTask t task phase' := by
  rw [setTask, setTask, List.set_set]
  rfl

/-- Deliveries are handed over one after the other, and then the loop starts again. -/
theorem runs_delivering : ∀ {ds : List (L × F)} {s : ListenerState Φ S F L σ}
    {task : ListenerTask S F L} (_ : s.tasks[t]? = some task) (_ : task.aborted = false)
    (_ : task.phase = .delivering ds),
    Runs backend receive C t s (s.setTask t task .checking) ds
  | [], s, task, ht, haborted, hp => by
    have hrun : s.run backend receive C t task = some (s.setTask t task .checking) := by
      simp only [run, hp]
    have hall := Runs.head ht haborted hrun .refl
    rwa [hp] at hall
  | d :: ds, s, task, ht, haborted, hp => by
    have hcall : s.run backend receive C t task = some (s.setTask t task (.inCallback ds)) := by
      simp only [run, hp]
    have hreturn : (s.setTask t task (.inCallback ds)).run backend receive C t
        { task with phase := .inCallback ds, suspended := false } =
          some (s.setTask t task (.delivering ds)) := congrArg some (setTask_setTask _ _)
    have hrest : Runs backend receive C t (s.setTask t task (.delivering ds)) _ ds :=
      runs_delivering (getElem?_setTask_self ht _) haborted rfl
    rw [setTask_setTask] at hrest
    have hall := Runs.head ht haborted hcall
      (.head (getElem?_setTask_self ht _) haborted hreturn hrest)
    rwa [hp] at hall

/-- What has been polled is handed over, and then the loop starts again. -/
theorem runs_afterPoll (ht : s.tasks[t]? = some task) (haborted : task.aborted = false)
    (polled : Except Fault (List (L × F))) :
    Runs backend receive C t (s.setTask t task (afterPoll polled)) (s.setTask t task .checking)
      (polled.toOption.getD []) := by
  have hwakes : Runs backend receive C t (s.setTask t task .sleeping) (s.setTask t task .checking)
      [] := by
    have hrun : (s.setTask t task .sleeping).run backend receive C t
        { task with phase := .sleeping, suspended := false } =
          some (s.setTask t task .checking) := congrArg some (setTask_setTask _ _)
    exact .head (getElem?_setTask_self ht _) haborted hrun .refl
  rcases polled with _ | _ | ⟨d, ds⟩
  · exact hwakes
  · exact hwakes
  · have hdelivering : Runs backend receive C t (s.setTask t task (.delivering (d :: ds))) _
        (d :: ds) := runs_delivering (getElem?_setTask_self ht _) haborted rfl
    rwa [setTask_setTask] at hdelivering

/-- From the top of its loop the task gets to its poll, as long as someone is registered. -/
theorem runs_checking (ht : s.tasks[t]? = some task) (haborted : task.aborted = false)
    (hp : task.phase = .checking) (hlisteners : s.listeners ≠ []) :
    Runs backend receive C t s (s.setTask t task .polling) [] := by
  have hnot : ¬ s.listeners.isEmpty = true := by simpa using hlisteners
  have hrun : s.run backend receive C t task = some (s.setTask t task .polling) := by
    simp only [run, hp, if_neg hnot]
  have hall := Runs.head ht haborted hrun .refl
  rwa [hp] at hall

/-- What a poll has left is handed over, and then the task gets to its next poll. -/
theorem runs_polled (ht : s.tasks[t]? = some task) (haborted : task.aborted = false)
    (hlisteners : s.listeners ≠ []) (polled : Except Fault (List (L × F))) :
    Runs backend receive C t (s.setTask t task (afterPoll polled)) (s.setTask t task .polling)
      (polled.toOption.getD []) := by
  have hchecking : Runs backend receive C t (s.setTask t task .checking) _ [] :=
    runs_checking (getElem?_setTask_self ht _) haborted rfl hlisteners
  rw [setTask_setTask] at hchecking
  have hall := (runs_afterPoll ht haborted polled).trans hchecking
  rwa [List.append_nil] at hall

/-- A task in its loop hands over what it has, and gets to its next poll. -/
theorem runs_to_polling (ht : s.tasks[t]? = some task) (haborted : task.aborted = false)
    (hloop : InLoop task.phase) (hlisteners : s.listeners ≠ []) :
    ∃ s', Runs backend receive C t s s' (s.handing C task.phase) ∧ Polling t s' ∧
      s'.listeners = s.listeners ∧ s'.pending = s.pending := by
  have hpolling : Polling t (s.setTask t task .polling) :=
    ⟨_, getElem?_setTask_self ht _, haborted, rfl⟩
  have hchecking : Runs backend receive C t (s.setTask t task .checking) _ [] :=
    runs_checking (getElem?_setTask_self ht _) haborted rfl hlisteners
  rw [setTask_setTask] at hchecking
  cases hp : task.phase with
  | checking => exact ⟨_, runs_checking ht haborted hp hlisteners, hpolling, rfl, rfl⟩
  | polling => exact ⟨s, .refl, ⟨task, ht, haborted, hp⟩, rfl, rfl⟩
  | matching sample probe =>
    have hrun : s.run backend receive C t task = some (s.setTask t task
        (afterPoll (matchListeners C sample probe s.listeners))) := by
      simp only [run, hp]
    have hall := Runs.head ht haborted hrun (runs_polled ht haborted hlisteners _)
    rw [hp] at hall
    exact ⟨_, hall, hpolling, rfl, rfl⟩
  | delivering ds =>
    have hall := (runs_delivering ht haborted hp).trans hchecking
    rw [List.append_nil] at hall
    exact ⟨_, hall, hpolling, rfl, rfl⟩
  | inCallback ds =>
    have hrun : s.run backend receive C t task = some (s.setTask t task (.delivering ds)) := by
      simp only [run, hp]
    have hrest : Runs backend receive C t (s.setTask t task (.delivering ds)) _ ds :=
      runs_delivering (getElem?_setTask_self ht _) haborted rfl
    rw [setTask_setTask] at hrest
    have hall := (Runs.head ht haborted hrun hrest).trans hchecking
    rw [hp, List.append_nil] at hall
    exact ⟨_, hall, hpolling, rfl, rfl⟩
  | sleeping =>
    have hrun : s.run backend receive C t task = some (s.setTask t task .checking) := by
      simp only [run, hp]
    have hall := Runs.head ht haborted hrun hchecking
    rw [hp] at hall
    exact ⟨_, hall, hpolling, rfl, rfl⟩
  | left | ended =>
    rw [hp] at hloop
    exact hloop.elim

section Native

/-- From one poll of the native backend to the next is a turn. -/
theorem round_run (hs : Polling t s) (hlisteners : s.listeners ≠ []) :
    ∃ s', Runs .native receive C t s s' (listenerRound receive C s.listeners).1 ∧ Polling t s' ∧
      s'.listeners = (listenerRound receive C s.listeners).2 ∧ s'.listeners ≠ [] := by
  obtain ⟨task, ht, haborted, hp⟩ := hs
  generalize hpoll : pollListenerFrames receive C s.listeners = result
  obtain ⟨polled, listeners⟩ := result
  have hround : listenerRound receive C s.listeners = (polled.toOption.getD [], listeners) := by
    unfold listenerRound
    rw [if_neg (by simpa using hlisteners), hpoll]
    cases polled <;> rfl
  have hnonempty : listeners ≠ [] := by
    have hidentity : listeners.map (·.identity) = s.listeners.map (·.identity) := by
      have hpolled : (pollListenerFrames receive C s.listeners).2.map (·.identity) = _ :=
        identity_pollRegistrations
      rwa [hpoll] at hpolled
    rintro rfl
    exact hlisteners (List.map_eq_nil_iff.1 hidentity.symm)
  have hrun : s.run .native receive C t task =
      some ({ s with listeners }.setTask t task (afterPoll polled)) := by
    simp only [run, hp, hpoll]
  have hrest : Runs .native receive C t ({ s with listeners }.setTask t task (afterPoll polled))
      ({ s with listeners }.setTask t task .polling) (polled.toOption.getD []) :=
    runs_polled (s := { s with listeners }) ht haborted hnonempty polled
  have hall := Runs.head ht haborted hrun hrest
  rw [hp] at hall
  have hpolling : Polling t (({ s with listeners } : ListenerState Φ S F L σ).setTask t task
      .polling) :=
    ⟨_, getElem?_setTask_self (s := { s with listeners }) ht _, haborted, rfl⟩
  rw [hround]
  exact ⟨_, hall, hpolling, rfl, hnonempty⟩

/-- In the native backend a task that has not been aborted, left alone, hands over what it has and
then what its turns come to, as long as someone is registered and each callback returns. -/
theorem rounds_run (ht : s.tasks[t]? = some task) (haborted : task.aborted = false)
    (hloop : InLoop task.phase) (hlisteners : s.listeners ≠ []) (n : ℕ) :
    ∃ s', Runs .native receive C t s s'
        (s.handing C task.phase ++ (listenerRounds receive C n s.listeners).1) ∧ Polling t s' ∧
      s'.listeners = (listenerRounds receive C n s.listeners).2 := by
  have hrounds : ∀ (n : ℕ) {s : ListenerState Φ S F L σ}, Polling t s → s.listeners ≠ [] →
      ∃ s', Runs .native receive C t s s' (listenerRounds receive C n s.listeners).1 ∧
        Polling t s' ∧ s'.listeners = (listenerRounds receive C n s.listeners).2 := by
    intro n
    induction n with
    | zero => exact fun hs _ => ⟨_, .refl, hs, rfl⟩
    | succ n ih =>
      intro s hs hlisteners
      obtain ⟨u, hfirst, hu, hround, hnonempty⟩ :=
        @round_run _ _ _ _ _ _ _ receive C _ _ hs hlisteners
      obtain ⟨s', hrest, hs', hafter⟩ := ih hu hnonempty
      rw [hround] at hrest hafter
      exact ⟨s', hfirst.trans hrest, hs', hafter⟩
  obtain ⟨u, hfirst, hu, hsame, -⟩ : ∃ s', Runs .native receive C t s s' _ ∧ _ :=
    runs_to_polling ht haborted hloop hlisteners
  obtain ⟨s', hrest, hs', hafter⟩ := hrounds n hu (hsame ▸ hlisteners)
  rw [hsame] at hrest hafter
  exact ⟨s', hfirst.trans hrest, hs', hafter⟩

end Native

section Stub

/-- From one poll of the stub to the next, a sample is handed to those it matches. -/
theorem sample_run {sample : S} {pending : List S} (hs : Polling t s)
    (hlisteners : s.listeners ≠ [])
    (hpending : s.pending = sample :: pending) :
    ∃ s', Runs .stub receive C t s s' (handedOf C s.listeners sample) ∧ Polling t s' ∧
      s'.listeners = s.listeners ∧ s'.pending = pending := by
  obtain ⟨task, ht, haborted, hp⟩ := hs
  have hpolling : Polling t (({ s with pending } : ListenerState Φ S F L σ).setTask t task
      .polling) :=
    ⟨_, getElem?_setTask_self (s := { s with pending }) ht _, haborted, rfl⟩
  refine ⟨_, ?_, hpolling, rfl, rfl⟩
  cases hd : C.decode sample with
  | error e =>
    have hrun : s.run .stub receive C t task =
        some ({ s with pending }.setTask t task (afterPoll (.error e))) := by
      simp only [run, hp, hpending, hd]
      rfl
    have hall := Runs.head ht haborted hrun
      (runs_polled (s := { s with pending }) ht haborted hlisteners (.error e))
    rw [hp] at hall
    unfold handedOf
    rw [hd]
    exact hall
  | ok frame =>
    have hrun : s.run .stub receive C t task =
        some ({ s with pending }.setTask t task (.matching sample frame)) := by
      simp only [run, hp, hpending, hd]
    have hmatch : ({ s with pending }.setTask t task (.matching sample frame)).run .stub receive C t
        { task with phase := .matching sample frame, suspended := false } =
          some ({ s with pending }.setTask t task
            (afterPoll (.ok (handedOf C s.listeners sample)))) := by
      rw [← matchListeners_ok hd]
      exact congrArg some (setTask_setTask _ _)
    have hrest := Runs.head (getElem?_setTask_self (s := { s with pending }) ht _) haborted hmatch
      (runs_polled (s := { s with pending }) ht haborted hlisteners _)
    have hall := Runs.head ht haborted hrun hrest
    rw [hp] at hall
    exact hall

/-- In the stub backend a task that has not been aborted, left alone, hands over what it has and
then each sample that is pending, to all listeners it matches, until none is, if each callback
returns. -/
theorem pending_run_empty (ht : s.tasks[t]? = some task) (haborted : task.aborted = false)
    (hloop : InLoop task.phase) (hlisteners : s.listeners ≠ []) :
    ∃ s', Runs .stub receive C t s s'
        (s.handing C task.phase ++ s.pending.flatMap (handedOf C s.listeners)) ∧ Polling t s' ∧
      s'.listeners = s.listeners ∧ s'.pending = [] := by
  have hsamples : ∀ (samples : List S) {s : ListenerState Φ S F L σ}, Polling t s →
      s.listeners ≠ [] → s.pending = samples →
        ∃ s', Runs .stub receive C t s s' (samples.flatMap (handedOf C s.listeners)) ∧
          Polling t s' ∧ s'.listeners = s.listeners ∧ s'.pending = [] := by
    intro samples
    induction samples with
    | nil => exact fun hs _ hpending => ⟨_, .refl, hs, rfl, hpending⟩
    | cons sample samples ih =>
      intro s hs hlisteners hpending
      obtain ⟨u, hfirst, hu, hsame, hleft⟩ : ∃ s', Runs .stub receive C t s s' _ ∧ _ :=
        sample_run hs hlisteners hpending
      obtain ⟨s', hrest, hs', hlast, hempty⟩ := ih hu (hsame ▸ hlisteners) hleft
      rw [hsame] at hrest hlast
      exact ⟨s', hfirst.trans hrest, hs', hlast, hempty⟩
  obtain ⟨u, hfirst, hu, hsame, hpending⟩ : ∃ s', Runs .stub receive C t s s' _ ∧ _ :=
    runs_to_polling ht haborted hloop hlisteners
  obtain ⟨s', hrest, hs', hlast, hempty⟩ := hsamples s.pending hu (hsame ▸ hlisteners) hpending
  rw [hsame] at hrest hlast
  exact ⟨s', hfirst.trans hrest, hs', hlast, hempty⟩

end Stub

section Nobody

/-- From the top of its loop a task ends when nobody is registered. -/
theorem runs_left (ht : s.tasks[t]? = some task) (haborted : task.aborted = false)
    (hp : task.phase = .checking) (hnone : s.listeners = []) :
    Runs backend receive C t s (s.setTask t task .ended) [] := by
  have hrun : s.run backend receive C t task = some (s.setTask t task .left) := by
    simp only [run, hp, hnone, List.isEmpty_nil, if_true]
  have hleft : (s.setTask t task .left).run backend receive C t
      { task with phase := .left, suspended := false } = some (s.setTask t task .ended) :=
    congrArg some (setTask_setTask _ _)
  have hall := Runs.head ht haborted hrun
    (.head (getElem?_setTask_self ht _) haborted hleft .refl)
  rwa [hp] at hall

theorem runs_polled_left (ht : s.tasks[t]? = some task) (haborted : task.aborted = false)
    (hnone : s.listeners = []) (polled : Except Fault (List (L × F))) :
    Runs backend receive C t (s.setTask t task (afterPoll polled)) (s.setTask t task .ended)
      (polled.toOption.getD []) := by
  have hleft : Runs backend receive C t (s.setTask t task .checking) _ [] :=
    runs_left (getElem?_setTask_self ht _) haborted rfl hnone
  rw [setTask_setTask] at hleft
  have hall := (runs_afterPoll ht haborted polled).trans hleft
  rwa [List.append_nil] at hall

theorem runs_matching_left {sample : S} {probe : F} (ht : s.tasks[t]? = some task)
    (haborted : task.aborted = false) (hp : task.phase = .matching sample probe)
    (hnone : s.listeners = []) :
    Runs backend receive C t s (s.setTask t task .ended) [] := by
  have hrun : s.run backend receive C t task = some (s.setTask t task (afterPoll (.ok []))) := by
    simp only [run, hp, hnone]
    rfl
  have hall := Runs.head ht haborted hrun (runs_polled_left ht haborted hnone _)
  rwa [hp] at hall

/-- A poll hands over nothing, whatever it takes. -/
theorem runs_polling_left (ht : s.tasks[t]? = some task) (haborted : task.aborted = false)
    (hp : task.phase = .polling) (hnone : s.listeners = []) :
    ∃ pending, Runs backend receive C t s ({ s with pending }.setTask t task .ended) [] := by
  have hpolled {pending : List S} {polled : Except Fault (List (L × F))}
      (hnothing : polled.toOption.getD [] = [])
      (hrun : s.run backend receive C t task =
        some ({ s with pending }.setTask t task (afterPoll polled))) :
      Runs backend receive C t s ({ s with pending }.setTask t task .ended) [] := by
    have hall := Runs.head ht haborted hrun
      (runs_polled_left (s := { s with pending }) ht haborted hnone polled)
    rwa [hp, hnothing] at hall
  cases backend with
  | native =>
    have hpoll : pollListenerFrames receive C s.listeners = (.ok [], s.listeners) := by
      rw [hnone]
      rfl
    have hrun : s.run .native receive C t task =
        some ({ s with pending := s.pending }.setTask t task (afterPoll (.ok []))) := by
      simp only [run, hp, hpoll]
    exact ⟨s.pending, hpolled rfl hrun⟩
  | stub =>
    cases hpending : s.pending with
    | nil =>
      have hrun : s.run .stub receive C t task =
          some ({ s with pending := s.pending }.setTask t task (afterPoll (.ok []))) := by
        simp only [run, hp, hpending]
        rfl
      exact ⟨s.pending, hpolled rfl hrun⟩
    | cons sample pending =>
      refine ⟨pending, ?_⟩
      cases hd : C.decode sample with
      | error e =>
        have hrun : s.run .stub receive C t task =
            some ({ s with pending }.setTask t task (afterPoll (.error e))) := by
          simp only [run, hp, hpending, hd]
          rfl
        exact hpolled rfl hrun
      | ok probe =>
        have hrun : s.run .stub receive C t task =
            some ({ s with pending }.setTask t task (.matching sample probe)) := by
          simp only [run, hp, hpending, hd]
        have hrest : Runs .stub receive C t
            ({ s with pending }.setTask t task (.matching sample probe)) _ [] :=
          runs_matching_left (getElem?_setTask_self (s := { s with pending }) ht _) haborted rfl
            hnone
        rw [setTask_setTask] at hrest
        have hall := Runs.head ht haborted hrun hrest
        rwa [hp] at hall

/-- Where nobody is registered, a task that has not been aborted, left alone, hands over what it has
in hand and ends, if each callback returns. -/
theorem ends_run (ht : s.tasks[t]? = some task) (haborted : task.aborted = false)
    (hended : task.phase ≠ .ended) (hnone : s.listeners = []) :
    ∃ s', Runs backend receive C t s s' task.phase.batch ∧ s'.isFinished t = true ∧
      s'.listeners = [] := by
  have hfinished {s : ListenerState Φ S F L σ} (ht : s.tasks[t]? = some task) :
      (s.setTask t task .ended).isFinished t = true :=
    (isFinished_eq (getElem?_setTask_self ht _)).2 rfl
  have hleft : Runs backend receive C t (s.setTask t task .checking) _ [] :=
    runs_left (getElem?_setTask_self ht _) haborted rfl hnone
  rw [setTask_setTask] at hleft
  cases hp : task.phase with
  | checking => exact ⟨_, runs_left ht haborted hp hnone, hfinished ht, hnone⟩
  | polling =>
    obtain ⟨pending, hall⟩ := runs_polling_left ht haborted hp hnone
    exact ⟨_, hall, hfinished ht, hnone⟩
  | matching sample probe =>
    exact ⟨_, runs_matching_left ht haborted hp hnone, hfinished ht, hnone⟩
  | delivering ds =>
    have hall := (runs_delivering ht haborted hp).trans hleft
    rw [List.append_nil] at hall
    exact ⟨_, hall, hfinished ht, hnone⟩
  | inCallback ds =>
    have hrun : s.run backend receive C t task = some (s.setTask t task (.delivering ds)) := by
      simp only [run, hp]
    have hrest : Runs backend receive C t (s.setTask t task (.delivering ds)) _ ds :=
      runs_delivering (getElem?_setTask_self ht _) haborted rfl
    rw [setTask_setTask] at hrest
    have hall := (Runs.head ht haborted hrun hrest).trans hleft
    rw [hp, List.append_nil] at hall
    exact ⟨_, hall, hfinished ht, hnone⟩
  | sleeping =>
    have hrun : s.run backend receive C t task = some (s.setTask t task .checking) := by
      simp only [run, hp]
    have hall := Runs.head ht haborted hrun hleft
    rw [hp] at hall
    exact ⟨_, hall, hfinished ht, hnone⟩
  | left =>
    have hrun : s.run backend receive C t task = some (s.setTask t task .ended) := by
      simp only [run, hp]
    have hall := Runs.head ht haborted hrun .refl
    rw [hp] at hall
    exact ⟨_, hall, hfinished ht, hnone⟩
  | ended => exact absurd hp hended

end Nobody

/-- Two listeners for the topic `a` with a sample of it each, and two samples in the stub. -/
def plainServing : ListenerState (Filters plainUpRust) (List UInt8) (LolaRxLease plainUpRust) ℕ
    (List (Except Fault (List UInt8))) where
  listeners := [⟨filtersA, 0, [.ok sampleA]⟩, ⟨filtersA, 1, [.ok sampleA]⟩]
  listenerTask := some 0
  tasks := [⟨.inCallback [], false, false⟩]
  pending := [sampleB, sampleA]

theorem rounds_run_plain :
    ∃ s', Runs .native plainReceive plainFrames 0 plainServing s' [(0, leaseA), (1, leaseA)] ∧
      Polling 0 s' ∧ s'.listeners.map (·.subscriber) = [[], []] := by
  obtain ⟨s', hruns, hs', hlisteners⟩ : ∃ s', Runs .native plainReceive plainFrames 0 _ s' _ ∧ _ :=
    rounds_run (s := plainServing) rfl rfl (by exact trivial) (List.cons_ne_nil _ _) 1
  exact ⟨s', hruns, hs', congrArg (List.map (·.subscriber)) hlisteners⟩

theorem pending_run_empty_plain :
    ∃ s', Runs .stub plainReceive plainFrames 0 plainServing s' [(0, leaseA), (1, leaseA)] ∧
      s'.pending = [] := by
  obtain ⟨s', hruns, -, -, hpending⟩ : ∃ s', Runs .stub plainReceive plainFrames 0 _ s' _ ∧ _ :=
    pending_run_empty (s := plainServing) rfl rfl (by exact trivial) (List.cons_ne_nil _ _)
  exact ⟨s', hruns, hpending⟩

/-- The second listener's delivery is in hand, and both have been unregistered. -/
def plainLeaving : ListenerState (Filters plainUpRust) (List UInt8) (LolaRxLease plainUpRust) ℕ
    (List (Except Fault (List UInt8))) where
  listenerTask := some 0
  tasks := [⟨.inCallback [(1, leaseA)], false, false⟩]

theorem ends_run_plain :
    ∃ s', Runs .native plainReceive plainFrames 0 plainLeaving s' [(1, leaseA)] ∧
      s'.isFinished 0 = true := by
  obtain ⟨s', hruns, hended, -⟩ : ∃ s', Runs .native plainReceive plainFrames 0 _ s' _ ∧ _ :=
    ends_run (s := plainLeaving) rfl rfl (by simp) rfl
  exact ⟨s', hruns, hended⟩

end ListenerState

end LolaTransport
