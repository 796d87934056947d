import Mathlib.Data.List.Infix
import LolaTransport.Proofs.Labels

/-!
# What is handed over after an unregistration

A task hands over what it has collected without looking at the list again, so a listener can be
called after it has been unregistered.  No poll collects for it any more, though: the calls that
start are those of the deliveries that tasks had in hand when its registration was removed.
-/

namespace LolaTransport

variable {Φ S F L σ : Type}

/-- The deliveries that a task has yet to hand over. -/
def TaskPhase.batch : TaskPhase S F L → List (L × F)
  | .delivering deliveries => deliveries
  | .inCallback deliveries => deliveries
  | _ => []

/-- The delivery that a task in this phase hands over next. -/
def TaskPhase.next : TaskPhase S F L → List (L × F)
  | .delivering (delivery :: _) => [delivery]
  | _ => []

section FramesFor

variable [DecidableEq L]

/-- The frames among the deliveries that are for this listener. -/
def framesFor (listener : L) (deliveries : List (L × F)) : List F :=
  deliveries.filterMap fun delivery => if delivery.1 = listener then some delivery.2 else none

theorem framesFor_append (listener : L) (deliveries later : List (L × F)) :
    framesFor listener (deliveries ++ later) =
      framesFor listener deliveries ++ framesFor listener later := List.filterMap_append

theorem framesFor_eq_nil {listener : L} {deliveries : List (L × F)}
    (h : ∀ delivery ∈ deliveries, delivery.1 ≠ listener) : framesFor listener deliveries = [] :=
  List.filterMap_eq_nil_iff.2 fun delivery hdelivery => if_neg (h delivery hdelivery)

end FramesFor

section Collected

variable {receive : σ → Except Fault S × σ} {C : FrameCodec Φ S F}

/-- A poll collects for the listeners of the list only. -/
theorem mem_pollRegistrations : ∀ {registrations : List (ListenerRegistration Φ L σ)}
    {deliveries collected : List (L × F)}
    (_ : (pollRegistrations receive C deliveries registrations).1 = .ok collected),
    ∀ d ∈ collected, d ∈ deliveries ∨ d.1 ∈ registrations.map (·.listener)
  | [], deliveries, collected, h, d, hd => by
    cases h
    exact .inl hd
  | r :: registrations, deliveries, collected, h, d, hd => by
    by_cases hstop : Stops C (receive r.subscriber).1
    · obtain ⟨e, he⟩ := poll_cons_of_stops hstop deliveries registrations
      rw [he] at h
      cases h
    · rw [poll_cons_of_not_stops hstop] at h
      rcases mem_pollRegistrations h d hd with hd | hd
      · rcases List.mem_append.1 hd with hd | hd
        · exact .inl hd
        · rw [Option.mem_toList, ListenerRegistration.delivery, Option.map_eq_some_iff] at hd
          obtain ⟨frame, -, rfl⟩ := hd
          exact .inr List.mem_cons_self
      · exact .inr (List.mem_cons_of_mem _ hd)

theorem mem_matchListeners {sample : S} {probe : F}
    {registrations : List (ListenerRegistration Φ L σ)} {collected : List (L × F)}
    (h : matchListeners C sample probe registrations = .ok collected) :
    ∀ d ∈ collected, d.1 ∈ registrations.map (·.listener) := by
  intro d hd
  rw [matchListeners_eq] at h
  obtain ⟨listener, hlistener, hdecoded⟩ := Fallible.mem_of_mapM_eq_ok h d hd
  obtain ⟨frame, -, rfl⟩ := Fallible.map_eq_ok.1 hdecoded
  exact ((List.filter_sublist (l := registrations)).map _).subset hlistener

end Collected

namespace ListenerState

section Batches

variable [DecidableEq L]

/-- The frames for this listener that the task at `t` has yet to hand over. -/
def batchFor (listener : L) (t : ℕ) (s : ListenerState Φ S F L σ) : List F :=
  ((s.tasks[t]?).map fun task => framesFor listener task.phase.batch).getD []

/-- The frame for this listener with which an action has the task at `t` start a call to
`on_receive_zero_copy`. -/
def startedFor (listener : L) (t : ℕ) (s : ListenerState Φ S F L σ) :
    ListenerAction Φ S L σ → List F
  | .run u => if u = t then
      ((s.tasks[t]?).map fun task => framesFor listener task.phase.next).getD []
    else []
  | _ => []

theorem framesFor_afterPoll {polled : Except Fault (List (L × F))} {listener : L}
    (h : ∀ collected, polled = .ok collected → ∀ d ∈ collected, d.1 ≠ listener) :
    framesFor listener (afterPoll polled : TaskPhase S F L).batch = [] := by
  rcases polled with _ | _ | ⟨d, collected⟩
  · rfl
  · rfl
  · exact framesFor_eq_nil (h _ rfl)

variable {s s' : ListenerState Φ S F L σ} {backend : Backend} {receive : σ → Except Fault S × σ}
  {C : FrameCodec Φ S F} {t : ℕ} {task : ListenerTask S F L} {listener : L}

/-- A task that runs starts the call for its next delivery, or collects nothing for a listener that
is not in the list. -/
theorem run_batch (habsent : listener ∉ s.listeners.map (·.listener))
    (h : s.run backend receive C t task = some s') :
    ∃ phase, s'.tasks = s.tasks.set t { task with phase, suspended := false } ∧
      framesFor listener task.phase.next ++ framesFor listener phase.batch =
        framesFor listener task.phase.batch := by
  cases hp : task.phase with
  | checking =>
    simp only [run, hp] at h
    cases h
    refine ⟨_, rfl, ?_⟩
    split <;> rfl
  | polling =>
    cases backend with
    | native =>
      simp only [run, hp] at h
      cases h
      refine ⟨_, rfl, framesFor_afterPoll fun collected hcollected d hd heq => ?_⟩
      rcases mem_pollRegistrations hcollected d hd with hd | hd
      · cases hd
      · exact habsent (heq ▸ hd)
    | stub =>
      cases hpending : s.pending with
      | nil =>
        simp only [run, hp, hpending] at h
        cases h
        exact ⟨_, rfl, rfl⟩
      | cons sample pending =>
        simp only [run, hp, hpending] at h
        cases h
        refine ⟨_, rfl, ?_⟩
        split <;> rfl
  | matching sample probe =>
    simp only [run, hp] at h
    cases h
    refine ⟨_, rfl, framesFor_afterPoll fun collected hcollected d hd heq => ?_⟩
    exact habsent (heq ▸ mem_matchListeners hcollected d hd)
  | delivering deliveries =>
    cases deliveries with
    | nil =>
      simp only [run, hp] at h
      cases h
      exact ⟨_, rfl, rfl⟩
    | cons d deliveries =>
      simp only [run, hp] at h
      cases h
      exact ⟨_, rfl, (framesFor_append listener [d] deliveries).symm⟩
  | inCallback | sleeping | left =>
    simp only [run, hp] at h
    cases h
    exact ⟨_, rfl, rfl⟩
  | ended =>
    simp only [run, hp] at h
    cases h

theorem batchFor_of_phase {t : ℕ}
    (h : (s'.tasks[t]?).map (·.phase) = (s.tasks[t]?).map (·.phase)) :
    batchFor listener t s' = batchFor listener t s := by
  have hbatch (s : ListenerState Φ S F L σ) : batchFor listener t s =
      (((s.tasks[t]?).map (·.phase)).map fun phase => framesFor listener phase.batch).getD [] := by
    rw [Option.map_map]
    rfl
  rw [hbatch, hbatch, h]

theorem batchFor_set (listener : L) {u : ℕ} (hu : s.tasks[u]? = some task)
    {task' : ListenerTask S F L} (htasks : s'.tasks = s.tasks.set u task') :
    batchFor listener u s = framesFor listener task.phase.batch ∧
      batchFor listener u s' = framesFor listener task'.phase.batch ∧
      ∀ t, t ≠ u → batchFor listener t s' = batchFor listener t s := by
  obtain ⟨hlt, -⟩ := List.getElem?_eq_some_iff.1 hu
  refine ⟨?_, ?_, fun t htu => batchFor_of_phase ?_⟩
  · rw [batchFor, hu]
    rfl
  · rw [batchFor, htasks, List.getElem?_set_self hlt]
    rfl
  · rw [htasks, List.getElem?_set_ne (Ne.symm htu)]

variable [DecidableEq Φ] {a : ListenerAction Φ S L σ}

/-- For a listener that is not in the list, a step hands over a delivery that its task had in hand,
and leaves the others in hand or drops them. -/
theorem batchFor_step (habsent : listener ∉ s.listeners.map (·.listener))
    (h : step backend receive C s a = some s') (t : ℕ) :
    startedFor listener t s a ++ batchFor listener t s' <+: batchFor listener t s := by
  cases step_cases h with
  | call | failed | pushed | removed | arrived => exact List.prefix_rfl
  | @ensured c created runtime call =>
    have hsame : batchFor listener t (s.ensureListenerTask runtime).2 = batchFor listener t s := by
      rcases ensureListenerTask_cases s runtime with hsame | ⟨-, -, hstarted⟩
      · rw [hsame]
      · rw [hstarted, batchFor, batchFor]
        rcases lt_trichotomy t s.tasks.length with hlt | rfl | hlt
        · rw [List.getElem?_append_left hlt]
        · rw [List.getElem?_concat_length, List.getElem?_eq_none le_rfl]
          rfl
        · rw [List.getElem?_eq_none (by simp; omega), List.getElem?_eq_none hlt.le]
    change batchFor listener t (s.ensureListenerTask runtime).2 <+: _
    rw [hsame]
  | stopped =>
    have hsame : batchFor listener t s.stopListenerTask = batchFor listener t s := by
      refine batchFor_of_phase ?_
      unfold stopListenerTask
      split
      · rfl
      · rw [List.getElem?_modify]
        rcases s.tasks[t]? with _ | task
        · rfl
        · simp only [Option.map_eq_map, Option.map_some]
          split <;> rfl
    change batchFor listener t s.stopListenerTask <+: _
    rw [hsame]
  | @ran u task _ hu _ hrun =>
    obtain ⟨phase, htasks, hbatch⟩ := run_batch habsent hrun
    obtain ⟨hold, hnew, hother⟩ := batchFor_set listener hu htasks
    by_cases htu : t = u
    · subst htu
      rw [hold, hnew, ← hbatch, startedFor, if_pos rfl, hu]
      exact List.prefix_rfl
    · rw [startedFor, if_neg (Ne.symm htu), hother t htu]
      exact List.prefix_rfl
  | @suspended u task hu =>
    obtain ⟨hold, hnew, hother⟩ := batchFor_set listener hu
      (rfl : (s.setTask u task task.phase true).tasks = _)
    change batchFor listener t _ <+: _
    by_cases htu : t = u
    · subst htu
      rw [hold, hnew]
    · rw [hother t htu]
  | @cancelled u task hu =>
    obtain ⟨-, hnew, hother⟩ := batchFor_set listener hu
      (rfl : (s.setTask u task .ended).tasks = _)
    change batchFor listener t _ <+: _
    by_cases htu : t = u
    · subst htu
      rw [hnew]
      exact List.nil_prefix
    · rw [hother t htu]

/-- The frames for this listener with which the task at `t` starts calls, along a schedule. -/
def callbacks (backend : Backend) (receive : σ → Except Fault S × σ) (C : FrameCodec Φ S F)
    (listener : L) (t : ℕ) : ListenerState Φ S F L σ → List (ListenerAction Φ S L σ) → List F
  | _, [] => []
  | s, a :: actions => startedFor listener t s a ++
    match step backend receive C s a with
    | some s' => callbacks backend receive C listener t s' actions
    | none => []

/-- While a listener is not in the list, the calls that start are those of the deliveries that were
in hand at the beginning, in their order. -/
theorem callbacks_prefix : ∀ {actions : List (ListenerAction Φ S L σ)}
    {s u : ListenerState Φ S F L σ} (_ : Run.exec (step backend receive C) s actions = some u)
    (_ : ∀ before after w, actions = before ++ after →
      Run.exec (step backend receive C) s before = some w →
        listener ∉ w.listeners.map (·.listener)) (t : ℕ),
    callbacks backend receive C listener t s actions <+: batchFor listener t s
  | [], s, u, _, _, t => List.nil_prefix
  | a :: actions, s, u, h, habsent, t => by
    obtain ⟨s', hstep, h⟩ := Option.bind_eq_some_iff.1 h
    have hrest := callbacks_prefix h (fun before after w heq hw =>
      habsent (a :: before) after w (by rw [heq]; rfl) (by rw [Run.exec, hstep]; exact hw)) t
    rw [callbacks, hstep]
    exact ((List.prefix_append_right_inj _).2 hrest).trans
      (batchFor_step (habsent [] _ s rfl rfl) hstep t)

/-- A removed registration was the only one of its identity. -/
theorem not_mem_of_removed (hnodup : (s.listeners.map (·.identity)).Nodup) {c : ℕ}
    {created : Except Fault σ} {runtime : Except String Unit} {call : ListenerCall Φ L}
    (hc : s.calls[c]? = some call) (hapi : call.api = .unregister) (hp : call.phase = .listeners)
    (hfound : (call.filters, call.listener) ∈ s.listeners.map (·.identity))
    (h : step backend receive C s (.advance c created runtime) = some s') :
    (call.filters, call.listener) ∉ s'.listeners.map (·.identity) := by
  have hsame {call' : ListenerCall Φ L} (hc' : s.calls[c]? = some call') : call' = call :=
    Option.some.inj (hc'.symm.trans hc)
  cases step_cases h with
  | failed hc' _ hfailed =>
    obtain rfl := hsame hc'
    rcases hfailed with ⟨hregister, -⟩ | ⟨-, hunregister⟩
    · cases hapi.symm.trans hregister
    · exact absurd hfound (not_mem_of_unregisterListener hunregister)
  | pushed hc' _ hregister =>
    obtain rfl := hsame hc'
    cases hapi.symm.trans hregister
  | removed hc' _ _ hremoved =>
    obtain rfl := hsame hc'
    obtain ⟨before, r, after, hlist, hid, rfl, -⟩ := unregisterListener_ok hremoved
    rw [hlist, List.map_append, List.map_cons, hid, List.nodup_middle] at hnodup
    rw [← List.map_append] at hnodup
    exact (List.nodup_cons.1 hnodup).1
  | ensured hc' hp' =>
    obtain rfl := hsame hc'
    cases hp.symm.trans hp'
  | stopped hc' hp' =>
    obtain rfl := hsame hc'
    cases hp.symm.trans hp'

variable {before after : List (ListenerAction Φ S L σ)} {c : ℕ} {created : Except Fault σ}
  {runtime : Except String Unit} {call : ListenerCall Φ L} {v u s : ListenerState Φ S F L σ}

/-- Once an unregister call has removed a registration, and while no register call gets to push its
identity again, the calls of the listener for it are those of the deliveries that a task had
collected by then, in their order: no later poll collects one. -/
theorem callbacks_after_unregister
    (hv : Run.exec (step backend receive C) {} before = some v) (hc : v.calls[c]? = some call)
    (hapi : call.api = .unregister) (hp : call.phase = .listeners)
    (hfound : (call.filters, call.listener) ∈ v.listeners.map (·.identity))
    (hu : step backend receive C v (.advance c created runtime) = some u)
    (hs : Run.exec (step backend receive C) u after = some s)
    (hagain : ∀ mid a rest w, after = mid ++ a :: rest →
      Run.exec (step backend receive C) u mid = some w →
        ¬ w.Registers (call.filters, call.listener) a) :
    ∃ u' : ListenerState Φ S F (Φ × L) σ,
      Run.exec (step backend receive C) {}
          (before.map (·.labelled) ++ [.advance c created runtime]) = some u' ∧
        u'.unlabelled = u ∧ ∀ t,
          callbacks backend receive C (call.filters, call.listener) t u'
              (after.map (·.labelled)) <+:
            batchFor (call.filters, call.listener) t u' := by
  have hnodup : (v.listeners.map (·.identity)).Nodup := nodup_identity_exec hv
  have habsent := not_mem_of_removed hnodup hc hapi hp hfound hu
  have hlabelled : ({} : ListenerState Φ S F (Φ × L) σ).Labelled :=
    ⟨fun r hr => absurd hr List.not_mem_nil, fun call hcall => absurd hcall List.not_mem_nil⟩
  have hrun : Run.exec (step backend receive C) {} (before ++ [.advance c created runtime]) =
      some u := by
    rw [Run.exec_append, hv, Option.bind_some, Run.exec, hu]
    rfl
  obtain ⟨u', hu', rfl⟩ := Option.map_eq_some_iff.1
    ((exec_unlabelled (before ++ [.advance c created runtime]) hlabelled).symm.trans hrun)
  have hu'labelled := labelled_exec _ hlabelled hu'
  obtain ⟨s', hs', -⟩ :=
    Option.map_eq_some_iff.1 ((exec_unlabelled after hu'labelled).symm.trans hs)
  rw [List.map_append] at hu'
  refine ⟨u', hu', rfl, callbacks_prefix hs' ?_⟩
  intro mid' rest' w' heq hw' hmem
  obtain ⟨mid, rest, rfl, rfl, rfl⟩ := List.map_eq_append_iff.1 heq
  have hw : Run.exec (step backend receive C) u'.unlabelled mid = some w'.unlabelled := by
    rw [exec_unlabelled mid hu'labelled, hw']
    rfl
  refine not_mem_identity_exec hw habsent (fun mid₁ a mid₂ w heq hw => ?_) ?_
  · exact hagain mid₁ a (mid₂ ++ rest) w (by rw [heq, List.append_assoc]; rfl) hw
  · -- what the label says is what the registration says
    have hw'labelled := labelled_exec mid hu'labelled hw'
    obtain ⟨r, hr, hlistener⟩ := List.mem_map.1 hmem
    refine (identity_unlabelled hw'labelled.listeners).2 (List.mem_map.2 ⟨r, hr, ?_⟩)
    refine Prod.ext ?_ hlistener
    rw [ListenerRegistration.identity, ← hw'labelled.listeners r hr, hlistener]

end Batches

/-- Two listeners for the topic `a`, a sample to come for each, and a task about to poll. -/
def plainPolling :
    List (ListenerAction (Filters plainUpRust) (List UInt8) ℕ (List (Except Fault (List UInt8)))) :=
  [.call .register filtersA 0, .advance 0 (.ok [.ok sampleA]) (.ok ()), plainAdvance 0,
    .call .register filtersA 1, .advance 1 (.ok [.ok sampleA]) (.ok ()), plainAdvance 1, .run 0]

/-- The task is in the callback of the first listener; the second is about to be unregistered. -/
def plainUnregistering :
    List (ListenerAction (Filters plainUpRust) (List UInt8) ℕ (List (Except Fault (List UInt8)))) :=
  plainPolling ++ [.run 0, .run 0, .call .unregister filtersA 1]

/-- The task hands over what it has in hand and looks at the list again. -/
def plainHandingOver :
    List (ListenerAction (Filters plainUpRust) (List UInt8) ℕ (List (Except Fault (List UInt8)))) :=
  [.run 0, .run 0, .run 0, .run 0]

/-- Where that leads to. -/
def plainRemoving : ListenerState (Filters plainUpRust) (List UInt8) (LolaRxLease plainUpRust) ℕ
    (List (Except Fault (List UInt8))) where
  listeners := [⟨filtersA, 0, []⟩, ⟨filtersA, 1, []⟩]
  listenerTask := some 0
  tasks := [⟨.inCallback [(1, leaseA)], false, false⟩]
  calls := [⟨.register, filtersA, 0, .returned (.ok ())⟩,
    ⟨.register, filtersA, 1, .returned (.ok ())⟩, ⟨.unregister, filtersA, 1, .listeners⟩]

/-- The second listener has been removed. -/
def plainRemoved : ListenerState (Filters plainUpRust) (List UInt8) (LolaRxLease plainUpRust) ℕ
    (List (Except Fault (List UInt8))) where
  listeners := [⟨filtersA, 0, []⟩]
  listenerTask := some 0
  tasks := [⟨.inCallback [(1, leaseA)], false, false⟩]
  calls := [⟨.register, filtersA, 0, .returned (.ok ())⟩,
    ⟨.register, filtersA, 1, .returned (.ok ())⟩, ⟨.unregister, filtersA, 1, .returned (.ok ())⟩]

/-- The frame the task had in hand for the second listener is handed over after the unregistration,
and nothing else is. -/
theorem callbacks_after_unregister_plain :
    ∃ u' : ListenerState (Filters plainUpRust) (List UInt8) (LolaRxLease plainUpRust)
        (Filters plainUpRust × ℕ) (List (Except Fault (List UInt8))),
      u'.unlabelled = plainRemoved ∧
      callbacks .native plainReceive plainFrames (filtersA, 1) 0 u'
        (plainHandingOver.map (·.labelled)) = [leaseA] ∧
      ∀ t, callbacks .native plainReceive plainFrames (filtersA, 1) t u'
        (plainHandingOver.map (·.labelled)) <+: batchFor (filtersA, 1) t u' := by
  have hv : Run.exec (step .native plainReceive plainFrames) {} plainUnregistering =
      some plainRemoving := rfl
  have hu : step .native plainReceive plainFrames plainRemoving (plainAdvance 2) =
      some plainRemoved := rfl
  have hs : Run.exec (step .native plainReceive plainFrames) plainRemoved plainHandingOver =
      some _ := rfl
  have hfound : (filtersA, 1) ∈ plainRemoving.listeners.map (·.identity) :=
    List.mem_cons_of_mem _ List.mem_cons_self
  have hagain : ∀ mid a rest w, plainHandingOver = mid ++ a :: rest →
      Run.exec (step .native plainReceive plainFrames) plainRemoved mid = some w →
        ¬ w.Registers (filtersA, 1) a := by
    intro mid a rest w heq _
    have ha : a ∈ plainHandingOver := heq ▸ List.mem_append_right mid List.mem_cons_self
    simp only [plainHandingOver, List.mem_cons, List.not_mem_nil, or_false, or_self] at ha
    subst ha
    exact id
  obtain ⟨u', hu', hunlabelled, hprefix⟩ :=
    callbacks_after_unregister hv rfl rfl rfl hfound hu hs hagain
  have hlabelled : Run.exec (step .native plainReceive plainFrames) {}
      (plainUnregistering.map (·.labelled) ++ [.advance 2 (.ok []) (.ok ())]) = some {
      listeners := [⟨filtersA, (filtersA, 0), []⟩]
      listenerTask := some 0
      tasks := [⟨.inCallback [((filtersA, 1), leaseA)], false, false⟩]
      calls := [⟨.register, filtersA, (filtersA, 0), .returned (.ok ())⟩,
        ⟨.register, filtersA, (filtersA, 1), .returned (.ok ())⟩,
        ⟨.unregister, filtersA, (filtersA, 1), .returned (.ok ())⟩] } := rfl
  refine ⟨u', hunlabelled, ?_, hprefix⟩
  rw [← Option.some.inj (hlabelled.symm.trans hu')]
  rfl

/-- The second listener is unregistered while the task is in the callback of the first, and is
called next. -/
theorem callbacks_after_unregister_collected :
    ∃ s s', Run.exec (step .native plainReceive plainFrames) {} (plainPolling ++
        [.run 0, .run 0, .call .unregister filtersA 1, plainAdvance 2, .run 0]) = some s ∧
      s.calls[2]? = some ⟨.unregister, filtersA, 1, .returned (.ok ())⟩ ∧
      s.listeners.map (·.identity) = [(filtersA, 0)] ∧
      step .native plainReceive plainFrames s (.run 0) = some s' ∧
      startedFor 1 0 s (.run 0) = [leaseA] := by
  have hdecode : plainFrames.decode sampleA = .ok leaseA := fromSample_sampleA
  have hmatch : plainFrames.matchesFilter filtersA leaseA = true := frameMatches_plain.1
  have hpoll : pollListenerFrames plainReceive plainFrames
      [⟨filtersA, 0, [.ok sampleA]⟩, ⟨filtersA, 1, [.ok sampleA]⟩] =
        (.ok [(0, leaseA), (1, leaseA)], [⟨filtersA, 0, []⟩, ⟨filtersA, 1, []⟩]) := by
    simp [pollListenerFrames, pollRegistrations, plainReceive, hdecode,
      ListenerRegistration.matchesFrame, hmatch]
  have hcollected : Run.exec (step .native plainReceive plainFrames) {} plainPolling = some {
      listeners := [⟨filtersA, 0, [.ok sampleA]⟩, ⟨filtersA, 1, [.ok sampleA]⟩]
      listenerTask := some 0
      tasks := [⟨.polling, false, false⟩]
      calls := [⟨.register, filtersA, 0, .returned (.ok ())⟩,
        ⟨.register, filtersA, 1, .returned (.ok ())⟩] } := rfl
  rw [Run.exec_append, hcollected, Option.bind_some, Run.exec]
  simp only [step, List.getElem?_cons_zero, Option.bind_eq_bind, Option.bind_some, Bool.false_and,
    Bool.false_eq_true, if_false, run, hpoll]
  exact ⟨_, _, rfl, rfl, rfl, rfl, rfl⟩

end ListenerState

end LolaTransport
