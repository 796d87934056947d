import LolaTransport.Lib.Window
import LolaTransport.Proofs.Registrations

/-!
# How many tasks poll

A task in its loop is the one in the slot, or its abort has been requested.  The slot is free for
another from the moment of the request, but an aborted task goes on until it is suspended: a
register call that sees to the task in between starts a second poller (`Doubles`), and nothing else
does.
-/

namespace LolaTransport

variable {Φ S F L σ : Type}

namespace ListenerState

/-- The task is in its loop, and no abort keeps it from polling again. -/
def MayPoll (task : ListenerTask S F L) : Prop :=
  InLoop task.phase ∧ (task.aborted && task.suspended) = false

def AtMostOnePoller (s : ListenerState Φ S F L σ) : Prop :=
  ∀ (t t' : ℕ) (task task' : ListenerTask S F L), s.tasks[t]? = some task →
    s.tasks[t']? = some task' → MayPoll task → MayPoll task' → t = t'

/-- A register call starts a task while an aborted one runs on in its loop. -/
def Doubles (s : ListenerState Φ S F L σ) : ListenerAction Φ S L σ → Prop
  | .advance c _ runtime => runtime = .ok () ∧ ¬ s.Occupied ∧
    (∃ call, s.calls[c]? = some call ∧ Starting call) ∧
    ∃ (t : ℕ) (task : ListenerTask S F L), s.tasks[t]? = some task ∧ task.aborted = true ∧
      task.suspended = false ∧ InLoop task.phase
  | _ => False

/-- A task in its loop whose abort has not been requested is the one in the slot. -/
def Handled (s : ListenerState Φ S F L σ) : Prop :=
  ∀ (t : ℕ) (task : ListenerTask S F L), s.tasks[t]? = some task → task.aborted = false →
    InLoop task.phase → s.listenerTask = some t

variable {s s' : ListenerState Φ S F L σ} {t : ℕ} {task : ListenerTask S F L}

theorem getElem?_setTask {t' : ℕ} {task' : ListenerTask S F L} {phase : TaskPhase S F L}
    {suspended : Bool} (h : (s.setTask t task phase suspended).tasks[t']? = some task') :
    t' ≠ t ∧ s.tasks[t']? = some task' ∨ t' = t ∧ task' = { task with phase, suspended } := by
  rw [setTask, List.getElem?_set] at h
  split_ifs at h with htt hlt
  · exact .inr ⟨htt.symm, (Option.some.inj h).symm⟩
  · exact .inl ⟨Ne.symm htt, h⟩

theorem handled_setTask (hs : s.Handled) (ht : s.tasks[t]? = some task)
    {phase : TaskPhase S F L} {suspended : Bool} (hphase : InLoop phase → InLoop task.phase) :
    (s.setTask t task phase suspended).Handled := by
  intro t' task' ht' haborted hloop
  rcases getElem?_setTask ht' with ⟨-, ht'⟩ | ⟨rfl, rfl⟩
  · exact hs t' task' ht' haborted hloop
  · exact hs t' task ht haborted (hphase hloop)

/-- A task of its own in its loop keeps the slot from being given away. -/
theorem Handled.occupied (hs : s.Handled) (ht : s.tasks[t]? = some task)
    (haborted : task.aborted = false) (hloop : InLoop task.phase) : s.Occupied := by
  have hended : ¬ s.isFinished t = true := by
    rw [isFinished_eq ht]
    intro hended
    rw [hended] at hloop
    exact hloop
  simp [Occupied, hs t task ht haborted hloop, hended]

theorem handled_ensureListenerTask (hs : s.Handled) (runtime : Except String Unit) :
    (s.ensureListenerTask runtime).2.Handled := by
  rcases ensureListenerTask_cases s runtime with hsame | ⟨hfree, -, hstarted⟩
  · rwa [hsame]
  · rw [hstarted]
    intro t task ht haborted hloop
    rcases List.getElem?_concat_eq_some ht with ht | ⟨rfl, -⟩
    · exact absurd (hs.occupied ht haborted hloop) hfree
    · rfl

theorem getElem?_stopListenerTask (ht : s.stopListenerTask.tasks[t]? = some task) :
    ∃ task', s.tasks[t]? = some task' ∧ task.phase = task'.phase ∧
      task.suspended = task'.suspended ∧
      (task'.aborted = true ∨ s.listenerTask = some t → task.aborted = true) ∧
      (s.listenerTask ≠ some t → task.aborted = task'.aborted) := by
  unfold stopListenerTask at ht
  split at ht
  · rename_i hslot
    exact ⟨task, ht, rfl, rfl, by simp [hslot], fun _ => rfl⟩
  · rename_i p hslot
    simp only [List.getElem?_modify] at ht
    obtain ⟨task', htask', ht⟩ := Option.map_eq_some_iff.1 ht
    refine ⟨task', htask', ?_⟩
    split_ifs at ht with hpt
    · subst ht hpt
      exact ⟨rfl, rfl, fun _ => rfl, fun hne => absurd hslot hne⟩
    · subst ht
      refine ⟨rfl, rfl, ?_, fun _ => rfl⟩
      rintro (haborted | hslot')
      · exact haborted
      · exact absurd (Option.some.inj (hslot.symm.trans hslot')) hpt

theorem handled_stopListenerTask (hs : s.Handled) : s.stopListenerTask.Handled := by
  intro t task ht haborted hloop
  obtain ⟨task', ht', hphase, -, hstopped, hother⟩ := getElem?_stopListenerTask ht
  have hslot : s.listenerTask ≠ some t := fun hslot => by
    rw [hstopped (.inr hslot)] at haborted
    cases haborted
  rw [hother hslot] at haborted
  exact absurd (hs t task' ht' haborted (hphase ▸ hloop)) hslot

section Steps

variable [DecidableEq Φ] [DecidableEq L] {backend : Backend} {receive : σ → Except Fault S × σ}
  {C : FrameCodec Φ S F} {a : ListenerAction Φ S L σ}

theorem handled_step (hs : s.Handled) (h : step backend receive C s a = some s') :
    s'.Handled := by
  cases step_cases h with
  | call | failed | pushed | removed | arrived => exact hs
  | ensured => exact handled_ensureListenerTask hs _
  | stopped => exact handled_stopListenerTask hs
  | ran ht _ hrun =>
    obtain ⟨listeners, pending, phase, rfl, -, -, hphase⟩ := run_cases hrun
    exact handled_setTask (s := { s with listeners, pending }) hs ht hphase
  | suspended ht => exact handled_setTask hs ht id
  | cancelled ht => exact handled_setTask hs ht fun hloop => hloop.elim

section Pollers

/-- A task that may poll was started just now, or might have polled before. -/
theorem mayPoll_step (h : step backend receive C s a = some s') {t : ℕ}
    {task' : ListenerTask S F L} (ht' : s'.tasks[t]? = some task') (hpoll : MayPoll task') :
    (∃ task, s.tasks[t]? = some task ∧ MayPoll task) ∨
      t = s.tasks.length ∧ ¬ s.Occupied ∧ ∃ c created, a = .advance c created (.ok ()) ∧
        ∃ call, s.calls[c]? = some call ∧ Starting call := by
  have hset {u : ℕ} {task : ListenerTask S F L} {phase : TaskPhase S F L} {suspended : Bool}
      {r : ListenerState Φ S F L σ} (hr : r.tasks = s.tasks) (hu : s.tasks[u]? = some task)
      (ht' : (r.setTask u task phase suspended).tasks[t]? = some task')
      (hkept : MayPoll { task with phase, suspended } → MayPoll task) :
      ∃ task, s.tasks[t]? = some task ∧ MayPoll task := by
    rcases getElem?_setTask ht' with ⟨-, ht'⟩ | ⟨rfl, rfl⟩
    · exact ⟨task', by rwa [← hr], hpoll⟩
    · exact ⟨task, hu, hkept hpoll⟩
  cases step_cases h with
  | call | failed | pushed | removed | arrived => exact .inl ⟨task', ht', hpoll⟩
  | @ensured c created runtime call hc hp hapi =>
    change (s.ensureListenerTask runtime).2.tasks[t]? = _ at ht'
    rcases ensureListenerTask_cases s runtime with hsame | ⟨hfree, rfl, hstarted⟩
    · rw [hsame] at ht'
      exact .inl ⟨task', ht', hpoll⟩
    · rw [hstarted] at ht'
      rcases List.getElem?_concat_eq_some ht' with ht' | ⟨ht, -⟩
      · exact .inl ⟨task', ht', hpoll⟩
      · exact .inr ⟨ht, hfree, c, created, rfl, call, hc, hapi, hp⟩
  | stopped =>
    obtain ⟨task, ht, hphase, hsuspended, haborted, -⟩ := getElem?_stopListenerTask ht'
    obtain ⟨hloop, hruns⟩ := hpoll
    rw [hphase] at hloop
    rw [hsuspended] at hruns
    refine .inl ⟨task, ht, hloop, ?_⟩
    cases hold : task.aborted with
    | false => rfl
    | true => rwa [haborted (.inl hold)] at hruns
  | ran ht hruns hrun =>
    obtain ⟨listeners, pending, phase, rfl, -, -, hphase⟩ := run_cases hrun
    exact .inl (hset (r := { s with listeners, pending }) rfl ht ht'
      fun hpoll => ⟨hphase hpoll.1, hruns⟩)
  | suspended ht =>
    refine .inl (hset rfl ht ht' fun hpoll => ⟨hpoll.1, ?_⟩)
    have haborted : _ = false := (Bool.and_true _).symm.trans hpoll.2
    rw [haborted, Bool.false_and]
  | cancelled ht => exact .inl (hset rfl ht ht' fun hpoll => hpoll.1.elim)

theorem length_tasks_step (h : step backend receive C s a = some s') :
    s.tasks.length ≤ s'.tasks.length := by
  cases step_cases h with
  | call | failed | pushed | removed | arrived => exact le_rfl
  | @ensured _ _ runtime =>
    change _ ≤ (s.ensureListenerTask runtime).2.tasks.length
    rcases ensureListenerTask_cases s runtime with hsame | ⟨-, -, hstarted⟩
    · rw [hsame]
    · rw [hstarted]
      simp
  | stopped =>
    simp only [setCall, stopListenerTask]
    split
    · exact le_rfl
    · exact List.length_modify _ _ _ |>.ge
  | ran _ _ hrun =>
    obtain ⟨listeners, pending, phase, rfl, -, -, -⟩ := run_cases hrun
    exact List.length_set.ge
  | suspended | cancelled => exact List.length_set.ge

/-- Of the tasks there are, only those that may poll do so later. -/
theorem mayPoll_exec : ∀ {actions : List (ListenerAction Φ S L σ)} {s u : ListenerState Φ S F L σ}
    (_ : Run.exec (step backend receive C) s actions = some u) {t : ℕ}
    {task : ListenerTask S F L} (_ : t < s.tasks.length) (_ : u.tasks[t]? = some task)
    (_ : MayPoll task), ∃ task, s.tasks[t]? = some task ∧ MayPoll task
  | [], s, u, h, t, task, _, htask, hpoll => by
    cases h
    exact ⟨task, htask, hpoll⟩
  | a :: actions, s, u, h, t, task, ht, htask, hpoll => by
    obtain ⟨s', hstep, h⟩ := Option.bind_eq_some_iff.1 h
    obtain ⟨task', htask', hpoll'⟩ :=
      mayPoll_exec h (ht.trans_le (length_tasks_step hstep)) htask hpoll
    rcases mayPoll_step hstep htask' hpoll' with hold | ⟨rfl, -⟩
    · exact hold
    · exact absurd ht (lt_irrefl _)

/-- A step leaves at most one poller exactly when it does not start a second. -/
theorem atMostOnePoller_step (hs : s.Handled) (hone : s.AtMostOnePoller)
    (h : step backend receive C s a = some s') : s'.AtMostOnePoller ↔ ¬ s.Doubles a := by
  constructor
  · rintro hone' hdoubles
    cases a with
    | advance c created runtime =>
      obtain ⟨rfl, hfree, ⟨call, hc, hapi, hp⟩, t, task, ht, haborted, hruns, hloop⟩ := hdoubles
      simp only [step, hc, Option.bind_some, advance, hapi, hp, ensureListenerTask_of_ok hfree]
        at h
      cases h
      obtain ⟨hlt, -⟩ := List.getElem?_eq_some_iff.1 ht
      have hold : (s.tasks ++ [({} : ListenerTask S F L)])[t]? = some task :=
        (List.getElem?_append_left hlt).trans ht
      have hsame := hone' t s.tasks.length task {} hold List.getElem?_concat_length
        ⟨hloop, by rw [hruns, Bool.and_false]⟩ ⟨trivial, rfl⟩
      omega
    | _ => exact hdoubles
  · intro hnot t t' task task' ht ht' hpoll hpoll'
    have hstarted (hold : ∃ (t : ℕ) (task : ListenerTask S F L), s.tasks[t]? = some task ∧
          MayPoll task)
        (hstart : ¬ s.Occupied ∧ ∃ c created, a = .advance c created (.ok ()) ∧
          ∃ call, s.calls[c]? = some call ∧ Starting call) : False := by
      obtain ⟨t, task, ht, hloop, hruns⟩ := hold
      obtain ⟨hfree, c, created, rfl, hcall⟩ := hstart
      cases haborted : task.aborted with
      | false => exact hfree (hs.occupied ht haborted hloop)
      | true =>
        rw [haborted, Bool.true_and] at hruns
        exact hnot ⟨rfl, hfree, hcall, t, task, ht, haborted, hruns, hloop⟩
    rcases mayPoll_step h ht hpoll with ⟨u, hu, hupoll⟩ | ⟨rfl, hstart⟩
    · rcases mayPoll_step h ht' hpoll' with ⟨u', hu', hupoll'⟩ | ⟨-, hstart⟩
      · exact hone t t' u u' hu hu' hupoll hupoll'
      · exact (hstarted ⟨t, u, hu, hupoll⟩ hstart).elim
    · rcases mayPoll_step h ht' hpoll' with ⟨u', hu', hupoll'⟩ | ⟨rfl, -⟩
      · exact (hstarted ⟨t', u', hu', hupoll'⟩ hstart).elim
      · rfl

/-- Whatever the calls and the tasks do, at most one task may poll after each step exactly when no
register call starts a task while an aborted one runs on in its loop. -/
theorem at_most_one_poller {actions : List (ListenerAction Φ S L σ)}
    (h : Run.exec (step backend receive C) {} actions = some s) :
    (∀ before after u, actions = before ++ after →
        Run.exec (step backend receive C) {} before = some u → u.AtMostOnePoller) ↔
      ∀ before a after u, actions = before ++ a :: after →
        Run.exec (step backend receive C) {} before = some u → ¬ u.Doubles a := by
  have hnone : ({} : ListenerState Φ S F L σ).Handled ∧
      ({} : ListenerState Φ S F L σ).AtMostOnePoller :=
    ⟨fun t task ht => by simp at ht, fun t t' task task' ht => by simp at ht⟩
  have hallowed : ∀ a ∈ actions, (fun _ => True) a := fun _ _ => trivial
  exact Run.exec_forall_iff (I := Handled) (P := AtMostOnePoller)
    (fun _ _ _ hs hstep => handled_step hs hstep)
    (fun _ _ _ hs hone _ hstep => atMostOnePoller_step hs hone hstep) hallowed hnone.1 hnone.2 h

end Pollers

end Steps

/-- Each task whose abort has been requested is suspended or has ended. -/
def keepsSingle (s : ListenerState Φ S F L σ) (_ : ListenerAction Φ S L σ) : Bool :=
  s.tasks.all fun task => !task.aborted || task.suspended || match task.phase with
    | .ended => true
    | _ => false

theorem not_doubles_of_keepsSingle {a : ListenerAction Φ S L σ} (h : s.keepsSingle a = true) :
    ¬ s.Doubles a := by
  cases a with
  | advance c created runtime =>
    rintro ⟨-, -, -, t, task, ht, haborted, hruns, hloop⟩
    have hstopped := List.all_eq_true.1 h task (List.mem_of_getElem? ht)
    rw [haborted, hruns] at hstopped
    cases hphase : task.phase with
    | ended =>
      rw [hphase] at hloop
      exact hloop
    | _ =>
      rw [hphase] at hstopped
      cases hstopped
  | _ => exact id

/-- The first task has ended, and the second polls alone. -/
theorem at_most_one_poller_plain :
    ∃ s, Run.exec (step .native plainReceive plainFrames) {} plainRestarted = some s ∧
      s.tasks = [⟨.ended, true, false⟩, ⟨.polling, false, false⟩] ∧ s.AtMostOnePoller := by
  have hchecks : Run.checks (step .native plainReceive plainFrames) keepsSingle {}
      plainRestarted = true := rfl
  refine ⟨_, exec_plainRestarted, rfl, (at_most_one_poller exec_plainRestarted).2 ?_
    plainRestarted [] _ (List.append_nil _).symm exec_plainRestarted⟩
  intro before a after u heq hu
  exact not_doubles_of_keepsSingle (Run.ok_of_checks hchecks before a after u heq hu)

/-- The listener is unregistered while the task is about to poll; the next one is registered before
the task is suspended. -/
theorem at_most_one_poller_doubled :
    ∃ s, Run.exec (step .native plainReceive plainFrames) {} (plainRegistered ++
        [.run 0, .call .unregister filtersA 0, plainAdvance 1, plainAdvance 1,
          .call .register filtersB 1, plainAdvance 2, plainAdvance 2, .run 1]) = some s ∧
      s.tasks = [⟨.polling, true, false⟩, ⟨.polling, false, false⟩] ∧ ¬ s.AtMostOnePoller := by
  refine ⟨_, rfl, rfl, fun hone => ?_⟩
  cases hone 0 1 _ _ rfl rfl ⟨trivial, rfl⟩ ⟨trivial, rfl⟩

end ListenerState

end LolaTransport
