import Mathlib.Data.List.Nodup
import LolaTransport.Proofs.ListenerTasks

/-!
# What a failed registration leaves

A register call pushes its registration and then sees to the listener task, which it can fail to
start.  The registration stays: a call that fails at the task has registered its listener, and is
told that the listener exists when it is made again.
-/

namespace LolaTransport

variable {Φ S F L σ : Type}

section List

variable [DecidableEq Φ] [DecidableEq L] {filters : Φ} {listener : L}
  {listeners listeners' : List (ListenerRegistration Φ L σ)}

theorem hasSameIdentity_iff {r : ListenerRegistration Φ L σ} :
    r.hasSameIdentity filters listener = true ↔ r.identity = (filters, listener) := by
  simp only [ListenerRegistration.hasSameIdentity, Bool.and_eq_true, decide_eq_true_eq,
    ListenerRegistration.identity, Prod.mk.injEq]

theorem any_hasSameIdentity :
    listeners.any (·.hasSameIdentity filters listener) = true ↔
      (filters, listener) ∈ listeners.map (·.identity) := by
  simp only [List.any_eq_true, hasSameIdentity_iff, List.mem_map]

theorem registerListener_of_mem (h : (filters, listener) ∈ listeners.map (·.identity))
    (created : Except Fault σ) : registerListener filters listener created listeners =
      .error (failWithCode .ALREADY_EXISTS "LoLa listener already registered for filters") :=
  if_pos (any_hasSameIdentity.2 h)

theorem registerListener_of_not_mem (h : (filters, listener) ∉ listeners.map (·.identity))
    (created : Except Fault σ) : registerListener filters listener created listeners =
      created.map fun subscriber => listeners ++ [⟨filters, listener, subscriber⟩] := by
  rw [registerListener, if_neg (mt any_hasSameIdentity.1 h)]
  cases created <;> rfl

theorem registerListener_eq_ok {created : Except Fault σ} :
    registerListener filters listener created listeners = .ok listeners' ↔
      (filters, listener) ∉ listeners.map (·.identity) ∧
      ∃ subscriber, created = .ok subscriber ∧
        listeners' = listeners ++ [⟨filters, listener, subscriber⟩] := by
  by_cases h : (filters, listener) ∈ listeners.map (·.identity)
  · simp [registerListener_of_mem h, h]
  · rw [registerListener_of_not_mem h]
    cases created with
    | error e => simp [Except.map]
    | ok subscriber => simp [Except.map, h, eq_comm]

theorem not_mem_of_unregisterListener {e : Fault}
    (h : unregisterListener filters listener listeners = .error e) :
    (filters, listener) ∉ listeners.map (·.identity) := by
  unfold unregisterListener at h
  split at h
  · rename_i hnone
    rw [List.findIdx?_eq_none_iff] at hnone
    rintro hmem
    obtain ⟨r, hr, hid⟩ := List.mem_map.1 hmem
    have hsame := hasSameIdentity_iff.2 hid
    rw [hnone r hr] at hsame
    cases hsame
  · cases h

/-- What is removed is the first registration of the identity. -/
theorem unregisterListener_ok {shouldStop : Bool}
    (h : unregisterListener filters listener listeners = .ok (listeners', shouldStop)) :
    ∃ before r after, listeners = before ++ r :: after ∧ r.identity = (filters, listener) ∧
      listeners' = before ++ after ∧ shouldStop = listeners'.isEmpty := by
  unfold unregisterListener at h
  split at h
  · cases h
  · rename_i i hi
    obtain ⟨hlt, hsame, -⟩ := List.findIdx?_eq_some_iff_getElem.1 hi
    cases h
    refine ⟨listeners.take i, listeners[i], listeners.drop (i + 1), ?_, ?_, ?_, rfl⟩
    · rw [List.getElem_cons_drop, List.take_append_drop]
    · exact hasSameIdentity_iff.1 hsame
    · rw [List.eraseIdx_eq_take_drop_succ]

end List

namespace ListenerState

section Task

/-- The calls are nothing to the task. -/
theorem ensureListenerTask_withCalls (s : ListenerState Φ S F L σ)
    (calls : List (ListenerCall Φ L)) (runtime : Except String Unit) :
    ensureListenerTask runtime { s with calls } = ((s.ensureListenerTask runtime).1,
      { (s.ensureListenerTask runtime).2 with calls }) := by
  by_cases h : s.Occupied
  · have h' : Occupied { s with calls } := h
    rw [ensureListenerTask_of_occupied h, ensureListenerTask_of_occupied h']
  · have h' : ¬ Occupied { s with calls } := h
    cases runtime with
    | error error => rw [ensureListenerTask_of_error h, ensureListenerTask_of_error h']
    | ok u => rw [ensureListenerTask_of_ok h, ensureListenerTask_of_ok h']

theorem ensureListenerTask_calls (s : ListenerState Φ S F L σ) (runtime : Except String Unit) :
    (s.ensureListenerTask runtime).2.calls = s.calls := by
  rcases ensureListenerTask_cases s runtime with hsame | ⟨-, -, hstarted⟩
  · rw [hsame]
  · rw [hstarted]

theorem ensureListenerTask_listeners (s : ListenerState Φ S F L σ)
    (runtime : Except String Unit) : (s.ensureListenerTask runtime).2.listeners = s.listeners := by
  rcases ensureListenerTask_cases s runtime with hsame | ⟨-, -, hstarted⟩
  · rw [hsame]
  · rw [hstarted]

end Task

section Calls

variable [DecidableEq Φ] [DecidableEq L] {s : ListenerState Φ S F L σ} {filters : Φ} {listener : L}

/-- If the call fails, it leaves the list as it was, and made again it does not fail for a listener
that was not registered before. -/
def LeavesNoTrace (s : ListenerState Φ S F L σ) (filters : Φ) (listener : L)
    (created : Except Fault σ) (runtime : Except String Unit) : Prop :=
  ∀ e s', s.registerValidatedZeroCopyListener filters listener created runtime = (.error e, s') →
    s'.listeners = s.listeners ∧
    ((filters, listener) ∉ s.listeners.map (·.identity) → ∀ subscriber,
      (s'.registerValidatedZeroCopyListener filters listener (.ok subscriber) (.ok ())).1 = .ok ())

theorem register_of_not_mem (h : (filters, listener) ∉ s.listeners.map (·.identity))
    (subscriber : σ) (runtime : Except String Unit) :
    s.registerValidatedZeroCopyListener filters listener (.ok subscriber) runtime =
      ensureListenerTask runtime
        { s with listeners := s.listeners ++ [⟨filters, listener, subscriber⟩] } := by
  rw [registerValidatedZeroCopyListener, registerListener_of_not_mem h]
  rfl

/-- A call that fails under the lock of the list changes nothing. -/
theorem leavesNoTrace_of_error {created : Except Fault σ} {runtime : Except String Unit} {e : Fault}
    (h : registerListener filters listener created s.listeners = .error e) :
    s.LeavesNoTrace filters listener created runtime := by
  intro e' s' hregister
  rw [registerValidatedZeroCopyListener, h] at hregister
  cases hregister
  refine ⟨rfl, fun hmem subscriber => ?_⟩
  rw [register_of_not_mem hmem]
  exact ensureListenerTask_eq_ok.2 (.inr rfl)

theorem leavesNoTrace_iff (created : Except Fault σ) (runtime : Except String Unit) :
    s.LeavesNoTrace filters listener created runtime ↔
      (filters, listener) ∈ s.listeners.map (·.identity) ∨ (∃ e, created = .error e) ∨
        s.Occupied ∨ runtime = .ok () := by
  by_cases hmem : (filters, listener) ∈ s.listeners.map (·.identity)
  · exact iff_of_true (leavesNoTrace_of_error (registerListener_of_mem hmem created)) (.inl hmem)
  cases created with
  | error e =>
    exact iff_of_true (leavesNoTrace_of_error (registerListener_of_not_mem hmem _))
      (.inr (.inl ⟨e, rfl⟩))
  | ok subscriber =>
    constructor
    · intro h
      refine .inr (.inr (by_contra fun hfails => ?_))
      -- the call fails at the task, with its registration in the list
      have hoccupied : ¬ ({ s with listeners := s.listeners ++ [⟨filters, listener, subscriber⟩] } :
          ListenerState Φ S F L σ).Occupied := fun h => hfails (.inl h)
      cases runtime with
      | ok u => exact hfails (.inr rfl)
      | error error =>
        have hlist := (h _ _ ((register_of_not_mem hmem subscriber _).trans
          (ensureListenerTask_of_error hoccupied error))).1
        simp at hlist
    · rintro (h | ⟨e, he⟩ | h)
      · exact absurd h hmem
      · cases he
      · intro e s' hregister
        rw [register_of_not_mem hmem] at hregister
        have hok : (ensureListenerTask runtime { s with
            listeners := s.listeners ++ [⟨filters, listener, subscriber⟩] }).1 = .ok () :=
          ensureListenerTask_eq_ok.2 h
        rw [hregister] at hok
        cases hok

variable (backend : Backend) (receive : σ → Except Fault S × σ) (C : FrameCodec Φ S F)

/-- The steps of a register call with nothing between them are the call. -/
theorem exec_register (created : Except Fault σ) (runtime : Except String Unit) :
    ∃ n, Run.exec (step backend receive C) s (.call .register filters listener ::
        List.replicate n (.advance s.calls.length created runtime)) =
      some { (s.registerValidatedZeroCopyListener filters listener created runtime).2 with
        calls := s.calls ++ [⟨.register, filters, listener, .returned
          (s.registerValidatedZeroCopyListener filters listener created runtime).1⟩] } := by
  cases hregister : registerListener filters listener created s.listeners with
  | error e =>
    refine ⟨1, ?_⟩
    simp [Run.exec, step, advance, hregister, registerValidatedZeroCopyListener, setCall]
  | ok listeners =>
    have hensure := ensureListenerTask_withCalls { s with listeners }
      (s.calls ++ [⟨.register, filters, listener, .task⟩]) runtime
    refine ⟨2, ?_⟩
    simp [Run.exec, step, advance, hregister, registerValidatedZeroCopyListener, setCall,
      List.replicate, hensure]

/-- The call has pushed this registration and has not failed. -/
def Vouches (call : ListenerCall Φ L) (id : Φ × L) : Prop :=
  call.api = .register ∧ (call.filters, call.listener) = id ∧
    (call.phase = .task ∨ call.phase = .returned (.ok ()))

/-- A register call that has pushed its registration cannot start a task for it. -/
def Abandons (s : ListenerState Φ S F L σ) : ListenerAction Φ S L σ → Prop
  | .advance c _ runtime => runtime ≠ .ok () ∧ ¬ s.Occupied ∧
    ∃ call, s.calls[c]? = some call ∧ Starting call
  | _ => False

/-- Each registration is one that a call vouches for. -/
def Vouched (s : ListenerState Φ S F L σ) : Prop :=
  ∀ id ∈ s.listeners.map (·.identity), ∃ call ∈ s.calls, Vouches call id

variable {backend receive C} {s' : ListenerState Φ S F L σ} {a : ListenerAction Φ S L σ}

omit [DecidableEq Φ] [DecidableEq L] in
theorem vouches_set {calls : List (ListenerCall Φ L)} {c : ℕ} {call : ListenerCall Φ L}
    (hc : calls[c]? = some call) {phase : CallPhase} {id : Φ × L}
    (hphase : Vouches call id → Vouches { call with phase } id)
    (h : ∃ d ∈ calls, Vouches d id) : ∃ d ∈ calls.set c { call with phase }, Vouches d id := by
  obtain ⟨hlt, -⟩ := List.getElem?_eq_some_iff.1 hc
  obtain ⟨d, hd, hvouches⟩ := h
  obtain ⟨c', hc'⟩ := List.mem_iff_getElem?.1 hd
  by_cases hcc : c' = c
  · subst hcc
    cases hc.symm.trans hc'
    exact ⟨_, List.mem_of_getElem? (List.getElem?_set_self hlt), hphase hvouches⟩
  · exact ⟨d, List.mem_of_getElem? ((List.getElem?_set_ne (Ne.symm hcc)).trans hc'), hvouches⟩

theorem vouched_step (hs : s.Vouched) (hguard : ¬ s.Abandons a)
    (h : step backend receive C s a = some s') : s'.Vouched := by
  intro id hid
  cases step_cases h with
  | call api filters listener =>
    obtain ⟨call, hcall, hvouches⟩ := hs id hid
    exact ⟨call, List.mem_append_left _ hcall, hvouches⟩
  | @failed c _ _ call e hc hp hfailed =>
    refine vouches_set hc (fun hvouches => ?_) (hs id hid)
    rcases hvouches.2.2 with hphase | hphase <;> cases hp.symm.trans hphase
  | @pushed c _ _ call listeners hc hp hapi hpushed =>
    obtain ⟨hlt, -⟩ := List.getElem?_eq_some_iff.1 hc
    obtain ⟨-, subscriber, -, rfl⟩ := registerListener_eq_ok.1 hpushed
    simp only [setCall, List.map_append, List.map_singleton, List.mem_append,
      List.mem_singleton] at hid
    rcases hid with hid | hid
    · refine vouches_set hc (fun hvouches => ?_) (hs id hid)
      rcases hvouches.2.2 with hphase | hphase <;> cases hp.symm.trans hphase
    · exact ⟨_, List.mem_of_getElem? (List.getElem?_set_self hlt), hapi, hid.symm, .inl rfl⟩
  | @removed c _ _ call listeners shouldStop hc hp hapi hremoved =>
    obtain ⟨before, r, after, hlist, -, rfl, -⟩ := unregisterListener_ok hremoved
    have hold : id ∈ s.listeners.map (·.identity) := by
      have hsub : (before ++ after).Sublist s.listeners := by
        rw [hlist]
        exact (List.Sublist.refl before).append (List.sublist_cons_self r after)
      exact (hsub.map _).subset hid
    refine vouches_set hc (fun hvouches => ?_) (hs id hold)
    cases hapi.symm.trans hvouches.1
  | @ensured c _ runtime call hc hp hapi =>
    have hid' : id ∈ s.listeners.map (·.identity) := by
      rwa [setCall, ensureListenerTask_listeners] at hid
    have hok : (s.ensureListenerTask runtime).1 = .ok () := by
      refine ensureListenerTask_eq_ok.2 (by_contra fun hfails => ?_)
      exact hguard ⟨fun h => hfails (.inr h), fun h => hfails (.inl h), call, hc, hapi, hp⟩
    rw [hok, setCall, ensureListenerTask_calls]
    exact vouches_set hc (fun hvouches => ⟨hvouches.1, hvouches.2.1, .inr rfl⟩) (hs id hid')
  | @stopped c _ _ call hc hp hapi =>
    obtain ⟨tasks, hstop⟩ := stopListenerTask_eq (s := s)
    rw [hstop] at hid ⊢
    refine vouches_set hc (fun hvouches => ?_)
      (hs id hid)
    cases hapi.symm.trans hvouches.1
  | ran ht _ hrun =>
    obtain ⟨listeners, pending, phase, rfl, hidentity, -, -⟩ := run_cases hrun
    have hid' : id ∈ listeners.map (·.identity) := hid
    rw [hidentity] at hid'
    exact hs id hid'
  | suspended | cancelled | arrived => exact hs id hid

section Identities

/-- A register call gets to push a registration of this identity, if there is none. -/
def Registers (s : ListenerState Φ S F L σ) (id : Φ × L) : ListenerAction Φ S L σ → Prop
  | .advance c created _ => ∃ call subscriber, s.calls[c]? = some call ∧ call.api = .register ∧
    call.phase = .listeners ∧ (call.filters, call.listener) = id ∧ created = .ok subscriber
  | _ => False

/-- A step leaves the registrations as they are, but for the one it pushes or removes. -/
theorem identity_step (h : step backend receive C s a = some s') :
    s'.listeners.map (·.identity) = s.listeners.map (·.identity) ∨
    (∃ id, s.Registers id a ∧ id ∉ s.listeners.map (·.identity) ∧
      s'.listeners.map (·.identity) = s.listeners.map (·.identity) ++ [id]) ∨
    ∃ before id after, s.listeners.map (·.identity) = before ++ id :: after ∧
      s'.listeners.map (·.identity) = before ++ after := by
  cases step_cases h with
  | pushed hc hp hapi hpushed =>
    obtain ⟨hnew, subscriber, hcreated, rfl⟩ := registerListener_eq_ok.1 hpushed
    refine .inr (.inl ⟨_, ⟨_, subscriber, hc, hapi, hp, rfl, hcreated⟩, hnew, ?_⟩)
    exact List.map_append
  | removed hc hp hapi hremoved =>
    obtain ⟨before, r, after, hlist, -, rfl, -⟩ := unregisterListener_ok hremoved
    refine .inr (.inr ⟨before.map (·.identity), r.identity, after.map (·.identity), ?_, ?_⟩)
    · rw [hlist, List.map_append, List.map_cons]
    · exact List.map_append
  | ensured =>
    refine .inl ?_
    rw [setCall, ensureListenerTask_listeners]
  | stopped =>
    obtain ⟨tasks, hstop⟩ := stopListenerTask_eq (s := s)
    rw [hstop]
    exact .inl rfl
  | ran ht _ hrun =>
    obtain ⟨listeners, pending, phase, rfl, hidentity, -, -⟩ := run_cases hrun
    exact .inl hidentity
  | _ => exact .inl rfl

theorem nodup_identity_step (hs : (s.listeners.map (·.identity)).Nodup)
    (h : step backend receive C s a = some s') : (s'.listeners.map (·.identity)).Nodup := by
  rcases identity_step h with hsame | ⟨id, -, hnew, hpushed⟩ | ⟨before, id, after, hlist, hremoved⟩
  · rwa [hsame]
  · rw [hpushed, ← List.concat_eq_append]
    exact List.Nodup.concat hnew hs
  · rw [hlist] at hs
    rw [hremoved]
    exact hs.sublist ((List.Sublist.refl before).append (List.sublist_cons_self id after))

theorem nodup_identity_exec {actions : List (ListenerAction Φ S L σ)}
    (h : Run.exec (step backend receive C) {} actions = some s) :
    (s.listeners.map (·.identity)).Nodup :=
  Run.exec_keeps (I := fun s => (s.listeners.map (·.identity)).Nodup)
    (fun _ _ _ hs hstep => nodup_identity_step hs hstep) List.nodup_nil h

theorem not_mem_identity_step {id : Φ × L} (hs : id ∉ s.listeners.map (·.identity))
    (hguard : ¬ s.Registers id a) (h : step backend receive C s a = some s') :
    id ∉ s'.listeners.map (·.identity) := by
  rcases identity_step h with hsame | ⟨id', hregisters, -, hpushed⟩ |
    ⟨before, id', after, hlist, hremoved⟩
  · rwa [hsame]
  · rw [hpushed]
    intro hid
    rcases List.mem_append.1 hid with hid | hid
    · exact hs hid
    · obtain rfl := List.mem_singleton.1 hid
      exact hguard hregisters
  · rw [hremoved]
    intro hid
    refine hs ?_
    rw [hlist]
    exact ((List.Sublist.refl before).append (List.sublist_cons_self id' after)).subset hid

theorem not_mem_identity_exec {id : Φ × L} : ∀ {actions : List (ListenerAction Φ S L σ)}
    {s u : ListenerState Φ S F L σ} (_ : Run.exec (step backend receive C) s actions = some u)
    (_ : id ∉ s.listeners.map (·.identity))
    (_ : ∀ before a after w, actions = before ++ a :: after →
      Run.exec (step backend receive C) s before = some w → ¬ w.Registers id a),
    id ∉ u.listeners.map (·.identity)
  | [], s, u, h, hs, _ => by
    cases h
    exact hs
  | a :: actions, s, u, h, hs, hguard => by
    obtain ⟨s', hstep, h⟩ := Option.bind_eq_some_iff.1 h
    refine not_mem_identity_exec h
      (not_mem_identity_step hs (hguard [] a actions s rfl rfl) hstep) ?_
    intro before b after w heq hw
    exact hguard (a :: before) b after w (by rw [heq]; rfl) (by rw [Run.exec, hstep]; exact hw)

omit [DecidableEq Φ] [DecidableEq L] in
theorem not_abandons_of_inRuntime (ha : InRuntime a) : ¬ s.Abandons a := by
  cases a with
  | advance c created runtime => exact fun habandons => habandons.1 ha
  | _ => exact id

/-- A register call that fails leaves no trace exactly when it fails under the lock of the list, or
not at all; and in a run in which none fails at the task, every registration is one of a call that
succeeded or is about to see to the task. -/
theorem failed_registration_leaves_no_trace :
    (∀ (s : ListenerState Φ S F L σ) (filters : Φ) (listener : L) (created : Except Fault σ)
      (runtime : Except String Unit), s.LeavesNoTrace filters listener created runtime ↔
        (filters, listener) ∈ s.listeners.map (·.identity) ∨ (∃ e, created = .error e) ∨
          s.Occupied ∨ runtime = .ok ()) ∧
    ∀ s : ListenerState Φ S F L σ,
      Run.Reach (step backend receive C) (fun s a => ¬ s.Abandons a) {} s →
      ∀ r ∈ s.listeners, ∃ call ∈ s.calls, Vouches call r.identity := by
  refine ⟨fun s filters listener created runtime => leavesNoTrace_iff created runtime,
    fun s hs r hr => ?_⟩
  have hvouched : s.Vouched := by
    refine hs.invariant (I := fun s => s.Vouched) ?_ fun s a s' _ hs hguard hstep =>
      vouched_step hs hguard hstep
    exact fun id hid => absurd hid List.not_mem_nil
  exact hvouched _ (List.mem_map_of_mem hr)

end Identities

end Calls

/-- Of the listener refused, unregistered and followed by another, the other is left, and its call
has succeeded. -/
theorem failed_registration_leaves_no_trace_plain :
    ∃ s, Run.exec (step .native plainReceive plainFrames) {} plainRestarted = some s ∧
      s.listeners.map (·.identity) = [(filtersB, 1)] ∧
      ∃ call ∈ s.calls, Vouches call (filtersB, 1) := by
  refine ⟨_, exec_plainRestarted, rfl, ?_⟩
  have hreach : Run.Reach (step .native plainReceive plainFrames)
      (fun s a => ¬ s.Abandons a) {} _ :=
    .exec .refl exec_plainRestarted fun before a after u heq _ => not_abandons_of_inRuntime
      (plainRestarted_inRuntime a (heq ▸ List.mem_append_right before List.mem_cons_self))
  exact failed_registration_leaves_no_trace.2 _ hreach _ List.mem_cons_self

/-- A call that finds no runtime has registered its listener, and made again inside one it is told
so. -/
theorem failed_registration_leaves_trace :
    ∃ e s', registerValidatedZeroCopyListener filtersA 0 (.ok []) (.error "no reactor running")
        ({} : ListenerState (Filters plainUpRust) (List UInt8) (LolaRxLease plainUpRust) ℕ
          (List (Except Fault (List UInt8)))) = (.error e, s') ∧
      e.code? = some .FAILED_PRECONDITION ∧ s'.listeners = [⟨filtersA, 0, []⟩] ∧
      (s'.registerValidatedZeroCopyListener filtersA 0 (.ok []) (.ok ())).1 =
        .error (failWithCode .ALREADY_EXISTS "LoLa listener already registered for filters") :=
  ⟨_, _, rfl, rfl, rfl, rfl⟩

end ListenerState

end LolaTransport
