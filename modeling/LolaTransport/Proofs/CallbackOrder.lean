import Mathlib.Data.List.Perm.Subperm
import LolaTransport.Proofs.SinglePoller
import LolaTransport.Proofs.Unregistered

/-!
# The order of callbacks

A delivery that a poll has collected is in the hand of its task until the task hands it over or
ends.  So whatever the calls and the tasks do, no delivery is handed over twice, and none that was
not collected; as long as one task polls at a time, they are handed over in the order of the polls,
and within a poll in that of the list (`callbacks_in_order`).
-/

namespace LolaTransport

variable {Φ S F L σ : Type}

section Carried

variable {β : Type} (g : TaskPhase S F L → List β)

/-- What a task has of what is in its phase, unless it is about to end. -/
def ListenerTask.carries (task : ListenerTask S F L) : List β :=
  if task.aborted && task.suspended then [] else g task.phase

namespace ListenerState

def carried (s : ListenerState Φ S F L σ) : List β := s.tasks.flatMap (·.carries g)

/-- Of what tasks have, a step changes what one of them has, or it adds a task that has nothing. -/
structure CarryStep (s s' : ListenerState Φ S F L σ) (out input : List β) : Prop where
  moves : ∃ front mine mine' back, s.carried g = front ++ mine ++ back ∧
    s'.carried g = front ++ mine' ++ back ∧ (out ++ mine').Sublist (mine ++ input) ∧
    (s.AtMostOnePoller → out = [] ∧ input = [] ∨ front = [] ∧ back = [])

variable {g} {s s' : ListenerState Φ S F L σ} {t : ℕ} {task task' : ListenerTask S F L}
  {out input : List β}

theorem CarryStep.same (h : s'.carried g = s.carried g) : CarryStep g s s' [] [] :=
  ⟨s.carried g, [], [], [], by simp, by simp [h], .refl _, fun _ => .inl ⟨rfl, rfl⟩⟩

theorem CarryStep.set (ht : s.tasks[t]? = some task) (htasks : s'.tasks = s.tasks.set t task')
    (hcarries : (task'.carries g).Sublist (task.carries g)) : CarryStep g s s' [] [] := by
  obtain ⟨front, back, hself, hset, -⟩ := List.flatMap_split ht (·.carries g)
  have hset : s'.carried g = front ++ task'.carries g ++ back := by rw [carried, htasks, hset]
  exact ⟨front, task.carries g, task'.carries g, back, hself, hset, by simpa using hcarries,
    fun _ => .inl ⟨rfl, rfl⟩⟩

/-- Where one task may poll, no other has anything. -/
theorem others_empty (hout : ∀ phase : TaskPhase S F L, ¬ InLoop phase → g phase = [])
    (hone : s.AtMostOnePoller) (ht : s.tasks[t]? = some task) (hpoll : MayPoll task)
    {bs : List β}
    (hbs : ∀ b ∈ bs, ∃ u other, u ≠ t ∧ s.tasks[u]? = some other ∧ b ∈ other.carries g) :
    bs = [] := by
  refine List.eq_nil_iff_forall_not_mem.2 fun b hb => ?_
  obtain ⟨u, other, hut, hu, hcarries⟩ := hbs b hb
  have hother : MayPoll other := by
    unfold ListenerTask.carries at hcarries
    split_ifs at hcarries with hends
    · cases hcarries
    · refine ⟨?_, by simpa using hends⟩
      by_contra hloop
      rw [hout _ hloop] at hcarries
      cases hcarries
  exact hut (hone u t other task hu ht hother hpoll)

/-- A task that runs moves what it has itself. -/
theorem CarryStep.ran (hout : ∀ phase : TaskPhase S F L, ¬ InLoop phase → g phase = [])
    (ht : s.tasks[t]? = some task) (hruns : (task.aborted && task.suspended) = false)
    {phase : TaskPhase S F L}
    (htasks : s'.tasks = s.tasks.set t { task with phase, suspended := false })
    (hmoves : (out ++ g phase).Sublist (g task.phase ++ input))
    (hleft : ¬ InLoop task.phase → out = [] ∧ input = []) : CarryStep g s s' out input := by
  obtain ⟨front, back, hself, hset, hothers⟩ := List.flatMap_split ht (·.carries g)
  have hmine : task.carries g = g task.phase := by
    rw [ListenerTask.carries, hruns, if_neg Bool.false_ne_true]
  have hmine' : ({ task with phase, suspended := false } : ListenerTask S F L).carries g =
      g phase := by
    rw [ListenerTask.carries, Bool.and_false, if_neg Bool.false_ne_true]
  have hset : s'.carried g = front ++ g phase ++ back := by rw [carried, htasks, hset, hmine']
  refine ⟨front, g task.phase, g phase, back, hmine ▸ hself, hset, hmoves, fun hone => ?_⟩
  by_cases hloop : InLoop task.phase
  · exact .inr (List.append_eq_nil_iff.1 (others_empty hout hone ht ⟨hloop, hruns⟩ hothers))
  · exact .inl (hleft hloop)

theorem CarryStep.sublist (h : CarryStep g s s' out input) (hone : s.AtMostOnePoller) :
    (out ++ s'.carried g).Sublist (s.carried g ++ input) := by
  obtain ⟨front, mine, mine', back, hself, hset, hmoves, hempty⟩ := h.moves
  rw [hself, hset]
  rcases hempty hone with ⟨rfl, rfl⟩ | ⟨rfl, rfl⟩
  · rw [List.nil_append, List.append_nil] at hmoves ⊢
    exact ((List.Sublist.refl front).append hmoves).append (.refl back)
  · simpa using hmoves

theorem CarryStep.subperm (h : CarryStep g s s' out input) :
    (out ++ s'.carried g).Subperm (s.carried g ++ input) := by
  obtain ⟨front, mine, mine', back, hself, hset, hmoves, -⟩ := h.moves
  have hout : (out ++ (front ++ mine' ++ back)).Perm (front ++ (out ++ mine') ++ back) := by
    rw [List.append_assoc, List.append_assoc, List.append_assoc]
    exact List.perm_append_comm_assoc _ _ _
  have hinput : (front ++ (mine ++ input) ++ back).Perm (front ++ mine ++ back ++ input) := by
    rw [← List.append_assoc front, List.append_assoc _ input, List.append_assoc _ back]
    exact List.perm_append_comm.append_left _
  rw [hself, hset]
  refine hout.subperm.trans (.trans ?_ hinput.subperm)
  exact (((List.Sublist.refl front).append hmoves).append (.refl back)).subperm

variable {backend : Backend} {receive : σ → Except Fault S × σ} {C : FrameCodec Φ S F}
  [DecidableEq Φ] [DecidableEq L] {a : ListenerAction Φ S L σ}

/-- Calls, suspensions and aborts move nothing. -/
theorem carryStep_of_not_run (hout : ∀ phase : TaskPhase S F L, ¬ InLoop phase → g phase = [])
    (hchecking : g .checking = []) (ha : ∀ t, a ≠ .run t)
    (h : step backend receive C s a = some s') : CarryStep g s s' [] [] := by
  cases step_cases h with
  | call | failed | pushed | removed | arrived => exact .same rfl
  | @ensured c created runtime call hc hp hapi =>
    refine .same ?_
    change (s.ensureListenerTask runtime).2.carried g = s.carried g
    rcases ensureListenerTask_cases s runtime with hsame | ⟨-, -, hstarted⟩
    · rw [hsame]
    · rw [hstarted, carried, List.flatMap_append, List.flatMap_singleton,
        ListenerTask.carries, Bool.false_and, if_neg Bool.false_ne_true, hchecking]
      exact List.append_nil _
  | stopped hc hp hapi =>
    unfold stopListenerTask
    cases hslot : s.listenerTask with
    | none => exact .same rfl
    | some t =>
      cases ht : s.tasks[t]? with
      | none =>
        refine .same ?_
        change List.flatMap _ (s.tasks.modify t _) = s.carried g
        rw [List.modify_eq_self (List.getElem?_eq_none_iff.1 ht), carried]
      | some task =>
        have htasks : (s.tasks.modify t fun task => { task with aborted := true }) =
            s.tasks.set t { task with aborted := true } := by
          rw [List.modify_eq_set_getElem?, ht]
          rfl
        refine .set ht htasks ?_
        unfold ListenerTask.carries
        cases task.suspended with
        | true => exact List.nil_sublist _
        | false => rw [Bool.and_false, Bool.and_false]
  | ran => exact absurd rfl (ha _)
  | @suspended t task ht =>
    refine .set ht rfl ?_
    unfold ListenerTask.carries
    cases task.aborted with
    | true => exact List.nil_sublist _
    | false => exact .refl _
  | cancelled ht =>
    refine .set ht rfl ?_
    unfold ListenerTask.carries
    rw [hout .ended id]
    split_ifs <;> exact List.nil_sublist _

end ListenerState

end Carried

namespace ListenerState

/-- What listeners should be handed of a sample of the stub. -/
def handedOf (C : FrameCodec Φ S F) (listeners : List (ListenerRegistration Φ L σ)) (sample : S) :
    List (L × F) :=
  match C.decode sample with
  | .error _ => []
  | .ok frame =>
    ((listeners.filter (·.matchesFrame C.toFrameView frame)).map (·.listener)).map (·, frame)

theorem matchListeners_ok {sample : S} {frame : F} (h : C.decode sample = .ok frame)
    (listeners : List (ListenerRegistration Φ L σ)) :
    matchListeners C sample frame listeners = .ok (handedOf C listeners sample) := by
  have hmapM (ls : List L) : (ls.mapM fun listener =>
      (Except.ok frame : Except Fault F).map (listener, ·)) = .ok (ls.map (·, frame)) := by
    induction ls with
    | nil => rfl
    | cons l ls ih =>
      rw [List.mapM_cons, ih]
      rfl
  unfold handedOf
  rw [matchListeners_eq, h, hmapM]

/-- The delivery with which an action starts a call to `on_receive_zero_copy`. -/
def started (s : ListenerState Φ S F L σ) : ListenerAction Φ S L σ → List (L × F)
  | .run t => ((s.tasks[t]?).map fun task => task.phase.next).getD []
  | _ => []

/-- What a task in this phase collects when it runs. -/
def collects (backend : Backend) (receive : σ → Except Fault S × σ) (C : FrameCodec Φ S F)
    (s : ListenerState Φ S F L σ) : TaskPhase S F L → List (L × F)
  | .polling =>
    match backend with
    | .native => (pollListenerFrames receive C s.listeners).1.toOption.getD []
    | .stub => []
  | .matching sample probe => (matchListeners C sample probe s.listeners).toOption.getD []
  | _ => []

/-- The deliveries that a poll collects with an action. -/
def collected (backend : Backend) (receive : σ → Except Fault S × σ) (C : FrameCodec Φ S F)
    (s : ListenerState Φ S F L σ) : ListenerAction Φ S L σ → List (L × F)
  | .run t => ((s.tasks[t]?).map fun task => s.collects backend receive C task.phase).getD []
  | _ => []

variable {s s' : ListenerState Φ S F L σ} {backend : Backend} {receive : σ → Except Fault S × σ}
  {C : FrameCodec Φ S F} {t : ℕ} {task : ListenerTask S F L}

theorem batch_of_not_inLoop (phase : TaskPhase S F L) (h : ¬ InLoop phase) : phase.batch = [] := by
  cases phase
  case left | ended => rfl
  all_goals exact absurd trivial h

/-- One task polls at a time, and the slot holds it. -/
def Single (s : ListenerState Φ S F L σ) : Prop := s.Handled ∧ s.AtMostOnePoller

theorem single_init : ({} : ListenerState Φ S F L σ).Single :=
  ⟨fun t task ht => by simp at ht, fun t t' task task' ht => by simp at ht⟩

/-- What is collected goes to the task's batch, and what is handed over comes from it. -/
theorem run_deliveries (h : s.run backend receive C t task = some s') :
    ∃ phase, s'.tasks = s.tasks.set t { task with phase, suspended := false } ∧
      task.phase.next ++ phase.batch =
        task.phase.batch ++ s.collects backend receive C task.phase := by
  have hcollected (polled : Except Fault (List (L × F))) :
      (afterPoll polled : TaskPhase S F L).batch = polled.toOption.getD [] := by
    rcases polled with _ | _ | _ <;> rfl
  cases hp : task.phase with
  | checking =>
    simp only [run, hp] at h
    cases h
    refine ⟨_, rfl, ?_⟩
    split <;> rfl
  | polling =>
    cases backend with
    | native =>
      simp only [run, hp] at h
      cases h
      exact ⟨_, rfl, hcollected _⟩
    | stub =>
      cases hpending : s.pending with
      | nil =>
        simp only [run, hp, hpending] at h
        cases h
        exact ⟨_, rfl, rfl⟩
      | cons sample pending =>
        simp only [run, hp, hpending] at h
        cases h
        refine ⟨_, rfl, ?_⟩
        split <;> rfl
  | matching sample probe =>
    simp only [run, hp] at h
    cases h
    exact ⟨_, rfl, hcollected _⟩
  | delivering deliveries =>
    cases deliveries with
    | nil =>
      simp only [run, hp] at h
      cases h
      exact ⟨_, rfl, rfl⟩
    | cons d deliveries =>
      simp only [run, hp] at h
      cases h
      exact ⟨_, rfl, (List.append_nil _).symm⟩
  | inCallback deliveries =>
    simp only [run, hp] at h
    cases h
    exact ⟨_, rfl, (List.append_nil _).symm⟩
  | sleeping | left =>
    simp only [run, hp] at h
    cases h
    exact ⟨_, rfl, rfl⟩
  | ended =>
    simp only [run, hp] at h
    cases h

variable [DecidableEq Φ] [DecidableEq L] {a : ListenerAction Φ S L σ}

theorem deliveries_step (h : step backend receive C s a = some s') :
    CarryStep TaskPhase.batch s s' (s.started a) (s.collected backend receive C a) := by
  cases a with
  | run t =>
    cases step_cases h with
    | @ran _ task _ ht hruns hrun =>
      obtain ⟨phase, htasks, hmoves⟩ := run_deliveries hrun
      have hstarted : s.started (.run t) = task.phase.next := by rw [started, ht]; rfl
      have hcollected : s.collected backend receive C (.run t) =
          s.collects backend receive C task.phase := by rw [collected, ht]; rfl
      rw [hstarted, hcollected]
      refine .ran batch_of_not_inLoop ht hruns htasks (hmoves ▸ .refl _) fun hloop => ?_
      cases hp : task.phase <;> rw [hp] at hloop
      case left | ended => exact ⟨rfl, rfl⟩
      all_goals exact absurd trivial hloop
  | _ => exact carryStep_of_not_run batch_of_not_inLoop rfl (by simp) h

section Runs

theorem single_step (hs : s.Single) (hnot : ¬ s.Doubles a)
    (h : step backend receive C s a = some s') : s'.Single :=
  ⟨handled_step hs.1 h, (atMostOnePoller_step hs.1 hs.2 h).2 hnot⟩

/-- Where one task polls at a time, what is handed over is what tasks had and what is collected,
in this order. -/
theorem deliveries_exec {actions : List (ListenerAction Φ S L σ)} (hs : s.Single)
    (h : Run.exec (step backend receive C) s actions = some s')
    (hsingle : ∀ before a after u, actions = before ++ a :: after →
      Run.exec (step backend receive C) s before = some u → ¬ u.Doubles a) :
    (Run.outputs (step backend receive C) started s actions).Sublist
      (s.carried TaskPhase.batch ++
        Run.outputs (step backend receive C) (collected backend receive C) s actions) := by
  have hall := Run.outputs_rel Doubles (carried TaskPhase.batch) List.Sublist.refl
    List.Sublist.trans List.Sublist.append (fun s a s' (hs : s.Single) hnot hstep =>
      ⟨single_step hs hnot hstep, (deliveries_step hstep).sublist hs.2⟩) hs h hsingle
  exact (List.sublist_append_left _ _).trans hall

/-- Whatever the calls and the tasks do, a delivery that was collected is handed over at most once,
and no other is; and they are handed over in the order they were collected in, unless a register
call starts a task while an aborted one runs on in its loop. -/
theorem callbacks_in_order {actions : List (ListenerAction Φ S L σ)}
    (h : Run.exec (step backend receive C) {} actions = some s) :
    (Run.outputs (step backend receive C) started {} actions).Subperm
        (Run.outputs (step backend receive C) (collected backend receive C) {} actions) ∧
      ((∀ before a after u, actions = before ++ a :: after →
          Run.exec (step backend receive C) {} before = some u → ¬ u.Doubles a) →
        (Run.outputs (step backend receive C) started {} actions).Sublist
          (Run.outputs (step backend receive C) (collected backend receive C) {} actions)) := by
  constructor
  · have hall := Run.outputs_rel (fun _ _ => False) (carried TaskPhase.batch) List.Subperm.refl
      List.Subperm.trans List.Subperm.append (fun s a s' (_ : True) _ hstep =>
        ⟨trivial, (deliveries_step hstep).subperm⟩) trivial h fun _ _ _ _ _ _ => id
    exact (List.sublist_append_left _ _).subperm.trans hall
  · intro hsingle
    exact deliveries_exec single_init h hsingle

/-- No unregister call is made. -/
def RegistersOnly : ListenerAction Φ S L σ → Prop
  | .call .unregister _ _ => False
  | _ => True

/-- Listeners have only been registered, and no task has been aborted. -/
structure Unaborted (s : ListenerState Φ S F L σ) : Prop where
  calls : ∀ call ∈ s.calls, call.api = .register
  tasks : ∀ task ∈ s.tasks, task.aborted = false

omit [DecidableEq Φ] [DecidableEq L] in
theorem unaborted_init : ({} : ListenerState Φ S F L σ).Unaborted :=
  ⟨List.forall_mem_nil _, List.forall_mem_nil _⟩

theorem unaborted_step (hs : s.Unaborted) (ha : RegistersOnly a)
    (h : step backend receive C s a = some s') : s'.Unaborted := by
  obtain ⟨hcalls, htasks⟩ := hs
  have hset {c : ℕ} {call : ListenerCall Φ L} {phase} (hc : s.calls[c]? = some call) :
      ∀ d ∈ s.calls.set c { call with phase }, d.api = .register := by
    intro d hd
    rcases List.mem_or_eq_of_mem_set hd with hd | rfl
    · exact hcalls d hd
    · exact hcalls call (List.mem_of_getElem? hc)
  have hput {t : ℕ} {task : ListenerTask S F L} {phase suspended} (ht : s.tasks[t]? = some task) :
      ∀ u ∈ s.tasks.set t { task with phase, suspended }, u.aborted = false := by
    intro u hu
    rcases List.mem_or_eq_of_mem_set hu with hu | rfl
    · exact htasks u hu
    · exact htasks task (List.mem_of_getElem? ht)
  cases step_cases h with
  | call api filters listener =>
    refine ⟨fun call hcall => ?_, htasks⟩
    rcases List.mem_append.1 hcall with hcall | hcall
    · exact hcalls call hcall
    · rw [List.mem_singleton.1 hcall]
      cases api
      · rfl
      · exact ha.elim
  | failed hc | pushed hc | removed hc => exact ⟨hset hc, htasks⟩
  | @ensured c created runtime call hc =>
    rw [setCall, ensureListenerTask_calls]
    refine ⟨hset hc, ?_⟩
    change ∀ task ∈ (s.ensureListenerTask runtime).2.tasks, _
    rcases ensureListenerTask_cases s runtime with hsame | ⟨-, -, hstarted⟩
    · rw [hsame]
      exact htasks
    · rw [hstarted]
      exact List.forall_mem_append.2 ⟨htasks, List.forall_mem_singleton.2 rfl⟩
  | stopped hc hp hapi =>
    rw [hcalls _ (List.mem_of_getElem? hc)] at hapi
    cases hapi
  | ran ht hruns hrun =>
    obtain ⟨listeners, pending, phase, rfl, -⟩ := run_cases hrun
    exact ⟨hcalls, hput ht⟩
  | suspended ht => exact ⟨hcalls, hput ht⟩
  | cancelled ht => exact ⟨hcalls, hput ht⟩
  | arrived => exact ⟨hcalls, htasks⟩

omit [DecidableEq Φ] [DecidableEq L] in
theorem not_doubles_of_unaborted (hs : s.Unaborted) : ¬ s.Doubles a := by
  cases a with
  | advance c created runtime =>
    rintro ⟨-, -, -, t, task, ht, haborted, -⟩
    rw [hs.tasks task (List.mem_of_getElem? ht)] at haborted
    cases haborted
  | _ => exact id

theorem not_doubles_of_registersOnly {actions : List (ListenerAction Φ S L σ)}
    (h : ∀ a ∈ actions, RegistersOnly a) (before : List (ListenerAction Φ S L σ))
    (a : ListenerAction Φ S L σ) (after : List (ListenerAction Φ S L σ))
    (u : ListenerState Φ S F L σ) (heq : actions = before ++ a :: after)
    (hu : Run.exec (step backend receive C) {} before = some u) : ¬ u.Doubles a := by
  have hbefore : ∀ b ∈ before, RegistersOnly b := fun b hb =>
    h b (heq ▸ List.mem_append_left _ hb)
  exact not_doubles_of_unaborted (Run.exec_keeps_allowed (fun _ _ _ hs ha => unaborted_step hs ha)
    hbefore unaborted_init hu)

end Runs

/-- The task collects the samples of both and calls the first. -/
def plainCalling :
    List (ListenerAction (Filters plainUpRust) (List UInt8) ℕ (List (Except Fault (List UInt8)))) :=
  plainPolling ++ [.run 0, .run 0]

theorem exec_plainCalling :
    Run.exec (step .native plainReceive plainFrames) {} plainCalling = some {
      listeners := [⟨filtersA, 0, []⟩, ⟨filtersA, 1, []⟩]
      listenerTask := some 0
      tasks := [⟨.inCallback [(1, leaseA)], false, false⟩]
      calls := [⟨.register, filtersA, 0, .returned (.ok ())⟩,
        ⟨.register, filtersA, 1, .returned (.ok ())⟩] } := rfl

theorem plainCalling_registersOnly : ∀ a ∈ plainCalling, RegistersOnly a := by
  unfold plainCalling plainPolling
  simp [RegistersOnly, plainAdvance]

/-- The first listener is called with its frame, which was collected before the other's. -/
theorem callbacks_in_order_plain :
    (Run.outputs (step .native plainReceive plainFrames) started {} plainCalling).Sublist
      (Run.outputs (step .native plainReceive plainFrames)
        (collected .native plainReceive plainFrames) {} plainCalling) :=
  (callbacks_in_order exec_plainCalling).2
    (not_doubles_of_registersOnly plainCalling_registersOnly)

end ListenerState

end LolaTransport
