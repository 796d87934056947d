import LolaTransport.Proofs.Bridge
import LolaTransport.Proofs.Registrations

/-!
# The registrations are a set

Under the lock of the list a call does to the registrations what a set operation does to their
identities (`SetOutcome`), and what it comes to is settled there: inside a runtime nothing that
follows can fail (`settled_exec`).  So a call that has returned has the result it had at the moment
it held the lock.
-/

namespace LolaTransport

open Bridge

variable {Φ S F L σ : Type}

/-- The call comes back with an error of this code. -/
def FailsWith (result : Except Fault Unit) (code : UCode) : Prop :=
  ∃ e, result = .error e ∧ e.code? = some code

/-- A subscriber that cannot be created is never an `ALREADY_EXISTS`. -/
theorem newSubscriber_error {found : UpLolaStatusCode} {config : LolaTransportConfig} {e : Fault}
    (h : NativeSubscriber.new found config = .error e) : e.code? ≠ some .ALREADY_EXISTS := by
  unfold NativeSubscriber.new at h
  rcases hcreate : upLolaSubscriberCreate found config with status | subscriber
  · rw [hcreate] at h
    rcases status
    all_goals
      cases h
      simp [failWithCode, Fault.code?]
  · rw [hcreate] at h
    cases h

namespace ListenerState

/-- The subscriber is what `NativeSubscriber::new` makes of it: where there is none, its error. -/
def CreatedByNew : ListenerAction Φ S L σ → Prop
  | .advance _ created _ => ∀ e, created = .error e →
    ∃ found config, NativeSubscriber.new found config = .error e
  | _ => True

section Outcomes

variable [DecidableEq Φ] [DecidableEq L] {filters : Φ} {listener : L}
  {listeners listeners' : List (ListenerRegistration Φ L σ)}

/-- The call's result, and what becomes of the list, are those of an operation on a set of
identities. -/
structure SetOutcome (call : ListenerCall Φ L)
    (listeners listeners' : List (ListenerRegistration Φ L σ)) (result : Except Fault Unit) :
    Prop where
  alreadyExists : call.api = .register → (FailsWith result .ALREADY_EXISTS ↔
    (call.filters, call.listener) ∈ listeners.map (·.identity))
  pushed : call.api = .register → result = .ok () → ∃ subscriber,
    listeners' = listeners ++ [⟨call.filters, call.listener, subscriber⟩]
  notFound : call.api = .unregister → (FailsWith result .NOT_FOUND ↔
    (call.filters, call.listener) ∉ listeners.map (·.identity))
  removed : call.api = .unregister → (call.filters, call.listener) ∈ listeners.map (·.identity) →
    result = .ok () ∧
      listeners' = listeners.filter fun r => r.identity ≠ (call.filters, call.listener)
  failed : result ≠ .ok () → listeners' = listeners

omit [DecidableEq Φ] [DecidableEq L] in
theorem not_failsWith_ok {code : UCode} : ¬ FailsWith (.ok ()) code := by
  rintro ⟨e, he, -⟩
  cases he

omit [DecidableEq Φ] [DecidableEq L] in
theorem failsWith_error {e : Fault} {code : UCode} :
    FailsWith (.error e) code ↔ e.code? = some code := by
  constructor
  · rintro ⟨e', he, hcode⟩
    cases he
    exact hcode
  · exact fun h => ⟨e, rfl, h⟩

/-- Without the one registration of an identity, the list is what it is without any of it. -/
theorem filter_identity_ne {before after : List (ListenerRegistration Φ L σ)}
    {r : ListenerRegistration Φ L σ}
    (h : ((before ++ r :: after).map (·.identity)).Nodup) :
    (before ++ r :: after).filter (fun r' => r'.identity ≠ r.identity) = before ++ after := by
  simp only [List.map_append, List.map_cons] at h
  have hnot := (List.nodup_middle.1 h).notMem
  rw [← List.map_append, List.mem_map] at hnot
  rw [List.filter_append, List.filter_cons_of_neg (by simp), ← List.filter_append]
  refine List.filter_eq_self.2 fun r' hr' => ?_
  simp only [decide_eq_true_eq]
  exact fun hid => hnot ⟨r', hr', hid⟩

/-- What an unregister call has removed is not there. -/
theorem SetOutcome.not_mem_of_removed {call : ListenerCall Φ L} {result : Except Fault Unit}
    (h : SetOutcome call listeners listeners' result) (hapi : call.api = .unregister)
    (hok : result = .ok ()) :
    (call.filters, call.listener) ∉ listeners'.map (·.identity) := by
  by_cases hmem : (call.filters, call.listener) ∈ listeners.map (·.identity)
  · rw [(h.removed hapi hmem).2, List.mem_map]
    rintro ⟨r, hr, hid⟩
    exact of_decide_eq_true (List.mem_filter.1 hr).2 hid
  · obtain ⟨e, he, -⟩ := (h.notFound hapi).2 hmem
    cases he.symm.trans hok

theorem setOutcome_register_error {call : ListenerCall Φ L} {created : Except Fault σ} {e : Fault}
    (hapi : call.api = .register)
    (hnew : ∀ e, created = .error e → e.code? ≠ some .ALREADY_EXISTS)
    (h : registerListener call.filters call.listener created listeners = .error e) :
    SetOutcome call listeners listeners (.error e) := by
  refine ⟨fun _ => ?_, fun _ hok => ?_, fun hapi' => ?_, fun hapi' => ?_, fun _ => rfl⟩
  · rw [failsWith_error]
    by_cases hmem : (call.filters, call.listener) ∈ listeners.map (·.identity)
    · rw [registerListener_of_mem hmem] at h
      cases h
      exact iff_of_true rfl hmem
    · rw [registerListener_of_not_mem hmem] at h
      rcases created with e' | subscriber
      · cases h
        exact iff_of_false (hnew e rfl) hmem
      · cases h
  · cases hok
  · cases hapi.symm.trans hapi'
  · cases hapi.symm.trans hapi'

theorem setOutcome_register_ok {call : ListenerCall Φ L} {created : Except Fault σ}
    (hapi : call.api = .register)
    (h : registerListener call.filters call.listener created listeners = .ok listeners') :
    SetOutcome call listeners listeners' (.ok ()) := by
  obtain ⟨hmem, subscriber, -, rfl⟩ := registerListener_eq_ok.1 h
  refine ⟨fun _ => iff_of_false not_failsWith_ok hmem, fun _ _ => ⟨subscriber, rfl⟩,
    fun hapi' => ?_, fun hapi' => ?_, fun hfailed => absurd rfl hfailed⟩
  · cases hapi.symm.trans hapi'
  · cases hapi.symm.trans hapi'

theorem setOutcome_unregister_error {call : ListenerCall Φ L} {e : Fault}
    (hapi : call.api = .unregister)
    (h : unregisterListener call.filters call.listener listeners = .error e) :
    SetOutcome call listeners listeners (.error e) := by
  have hmem := not_mem_of_unregisterListener h
  have hcode : e.code? = some .NOT_FOUND := by
    unfold unregisterListener at h
    split at h
    · cases h
      rfl
    · cases h
  refine ⟨fun hapi' => ?_, fun _ hok => ?_, fun _ => iff_of_true (failsWith_error.2 hcode) hmem,
    fun _ hmem' => absurd hmem' hmem, fun _ => rfl⟩
  · cases hapi.symm.trans hapi'
  · cases hok

theorem setOutcome_unregister_ok {call : ListenerCall Φ L} {shouldStop : Bool}
    (hapi : call.api = .unregister) (hnodup : (listeners.map (·.identity)).Nodup)
    (h : unregisterListener call.filters call.listener listeners = .ok (listeners', shouldStop)) :
    SetOutcome call listeners listeners' (.ok ()) := by
  obtain ⟨before, r, after, rfl, hid, rfl, -⟩ := unregisterListener_ok h
  have hmem : (call.filters, call.listener) ∈ (before ++ r :: after).map (·.identity) :=
    List.mem_map.2 ⟨r, by simp, hid⟩
  refine ⟨fun hapi' => ?_, fun hapi' => ?_, fun _ => ?_, fun _ _ => ⟨rfl, ?_⟩,
    fun hfailed => absurd rfl hfailed⟩
  · cases hapi.symm.trans hapi'
  · cases hapi.symm.trans hapi'
  · exact iff_of_false not_failsWith_ok (not_not.2 hmem)
  · rw [← hid]
    exact (filter_identity_ne hnodup).symm

variable {backend : Backend} {receive : σ → Except Fault S × σ} {C : FrameCodec Φ S F}
  {s s' : ListenerState Φ S F L σ} {a : ListenerAction Φ S L σ} {c : ℕ} {call : ListenerCall Φ L}

/-- The call at `c` has returned this, or is on its way to. -/
def Settled (s : ListenerState Φ S F L σ) (c : ℕ) (result : Except Fault Unit) : Prop :=
  ∃ call, s.calls[c]? = some call ∧
    (call.phase = .returned result ∨ call.phase = .task ∧ result = .ok ())

/-- A step leaves the calls as they are, or makes one, or takes one to its next phase. -/
theorem calls_step (h : step backend receive C s a = some s') :
    s'.calls = s.calls ∨
    (∃ call : ListenerCall Φ L, call.phase = .listeners ∧ s'.calls = s.calls ++ [call]) ∨
    ∃ c created runtime call phase, a = .advance c created runtime ∧ s.calls[c]? = some call ∧
      s'.calls = s.calls.set c { call with phase } ∧
      (call.phase = .listeners ∨
        call.phase = .task ∧ (runtime = .ok () → phase = .returned (.ok ()))) := by
  cases step_cases h with
  | call api filters listener => exact .inr (.inl ⟨_, rfl, rfl⟩)
  | failed hc hp | pushed hc hp | removed hc hp =>
    exact .inr (.inr ⟨_, _, _, _, _, rfl, hc, rfl, .inl hp⟩)
  | @ensured _ _ runtime _ hc hp =>
    refine .inr (.inr ⟨_, _, _, _, .returned (s.ensureListenerTask runtime).1, rfl, hc, ?_,
      .inr ⟨hp, fun hruntime => ?_⟩⟩)
    · rw [setCall, ensureListenerTask_calls]
    · rw [ensureListenerTask_eq_ok.2 (.inr hruntime)]
  | stopped hc hp =>
    obtain ⟨tasks, hstop⟩ := stopListenerTask_eq (s := s)
    rw [hstop]
    exact .inr (.inr ⟨_, _, _, _, _, rfl, hc, rfl, .inr ⟨hp, fun _ => rfl⟩⟩)
  | ran ht _ hrun =>
    obtain ⟨listeners, pending, phase, rfl, -⟩ := run_cases hrun
    exact .inl rfl
  | suspended | cancelled | arrived => exact .inl rfl

/-- A call changes its phase only, and only when it gets a lock. -/
theorem call_step (h : step backend receive C s a = some s') (hc : s.calls[c]? = some call) :
    s'.calls[c]? = some call ∨
    ∃ created runtime phase, a = .advance c created runtime ∧
      s'.calls[c]? = some { call with phase } ∧
      (call.phase = .listeners ∨
        call.phase = .task ∧ (runtime = .ok () → phase = .returned (.ok ()))) := by
  obtain ⟨hlt, -⟩ := List.getElem?_eq_some_iff.1 hc
  rcases calls_step h with hsame | ⟨call', hp, hcalls⟩ |
    ⟨c', created, runtime, call', phase, rfl, hc', hcalls, hp⟩
  · exact .inl (by rw [hsame, hc])
  · exact .inl (by rw [hcalls, List.getElem?_append_left hlt, hc])
  · by_cases hcc : c' = c
    · subst hcc
      obtain rfl := Option.some.inj (hc'.symm.trans hc)
      exact .inr ⟨created, runtime, phase, rfl, by rw [hcalls, List.getElem?_set_self hlt], hp⟩
    · exact .inl (by rw [hcalls, List.getElem?_set_ne hcc, hc])

/-- A call that a step brings waits for the lock of the list. -/
theorem new_call_step (h : step backend receive C s a = some s') (hc : s'.calls[c]? = some call)
    (hnone : s.calls[c]? = none) : call.phase = .listeners := by
  rcases calls_step h with hsame | ⟨call', hp, hcalls⟩ |
    ⟨c', created, runtime, call', phase, -, -, hcalls, -⟩
  · rw [hsame, hnone] at hc
    cases hc
  · rw [hcalls, List.getElem?_append_right (List.getElem?_eq_none_iff.1 hnone)] at hc
    rw [List.mem_singleton.1 (List.mem_of_getElem? hc), hp]
  · have hlen := List.getElem?_eq_none_iff.1 hnone
    rw [hcalls, List.getElem?_eq_none_iff.2 (by rwa [List.length_set])] at hc
    cases hc

theorem settled_step {result : Except Fault Unit} (hs : s.Settled c result) (ha : InRuntime a)
    (h : step backend receive C s a = some s') : s'.Settled c result := by
  obtain ⟨call, hc, hphase⟩ := hs
  rcases call_step h hc with hsame | ⟨created, runtime, phase, rfl, hset, hp⟩
  · exact ⟨call, hsame, hphase⟩
  · refine ⟨_, hset, .inl ?_⟩
    rcases hphase with hreturned | ⟨htask, rfl⟩
    · rcases hp with hp | ⟨hp, -⟩
      · cases hp.symm.trans hreturned
      · cases hp.symm.trans hreturned
    · rcases hp with hp | ⟨-, hok⟩
      · cases hp.symm.trans htask
      · exact hok ha

theorem settled_exec {result : Except Fault Unit} {actions : List (ListenerAction Φ S L σ)}
    (hruntime : ∀ a ∈ actions, InRuntime a) (hs : s.Settled c result)
    (h : Run.exec (step backend receive C) s actions = some s') : s'.Settled c result :=
  Run.exec_keeps_allowed (I := fun s => s.Settled c result)
    (fun _ _ _ hs ha hstep => settled_step hs ha hstep) hruntime hs h

omit [DecidableEq Φ] [DecidableEq L] in
theorem Settled.eq_of_returned {result result' : Except Fault Unit} (hs : s.Settled c result)
    (hc : s.calls[c]? = some call) (hp : call.phase = .returned result') : result' = result := by
  obtain ⟨call', hc', hphase⟩ := hs
  obtain rfl := Option.some.inj (hc.symm.trans hc')
  rcases hphase with hreturned | ⟨htask, -⟩
  · cases hp.symm.trans hreturned
    rfl
  · cases hp.symm.trans htask

/-- A call that gets the lock of the list has its outcome then, and with it its result. -/
theorem setOutcome_step {created : Except Fault σ} {runtime : Except String Unit}
    (hnodup : (s.listeners.map (·.identity)).Nodup)
    (hnew : CreatedByNew (.advance c created runtime : ListenerAction Φ S L σ))
    (hc : s.calls[c]? = some call) (hp : call.phase = .listeners)
    (h : step backend receive C s (.advance c created runtime) = some s') :
    ∃ result, SetOutcome call s.listeners s'.listeners result ∧ s'.Settled c result := by
  obtain ⟨hlt, -⟩ := List.getElem?_eq_some_iff.1 hc
  have hsame {call' : ListenerCall Φ L} (hc' : s.calls[c]? = some call') : call' = call :=
    Option.some.inj (hc'.symm.trans hc)
  cases step_cases h with
  | failed hc' _ hfailed =>
    obtain rfl := hsame hc'
    refine ⟨_, ?_, _, List.getElem?_set_self hlt, .inl rfl⟩
    rcases hfailed with ⟨hapi, hregister⟩ | ⟨hapi, hunregister⟩
    · refine setOutcome_register_error hapi (fun e he => ?_) hregister
      obtain ⟨found, config, hsubscriber⟩ := hnew e he
      exact newSubscriber_error hsubscriber
    · exact setOutcome_unregister_error hapi hunregister
  | pushed hc' _ hapi hregister =>
    obtain rfl := hsame hc'
    exact ⟨_, setOutcome_register_ok hapi hregister, _, List.getElem?_set_self hlt,
      .inr ⟨rfl, rfl⟩⟩
  | @removed _ _ _ _ _ shouldStop hc' _ hapi hunregister =>
    obtain rfl := hsame hc'
    refine ⟨_, setOutcome_unregister_ok hapi hnodup hunregister, _, List.getElem?_set_self hlt, ?_⟩
    rcases shouldStop with _ | _
    · exact .inl rfl
    · exact .inr ⟨rfl, rfl⟩
  | ensured hc' hp' =>
    obtain rfl := hsame hc'
    cases hp.symm.trans hp'
  | stopped hc' hp' =>
    obtain rfl := hsame hc'
    cases hp.symm.trans hp'

section Runs

/-- A call stays the call it is. -/
theorem call_exec {actions : List (ListenerAction Φ S L σ)} (hc : s.calls[c]? = some call)
    (h : Run.exec (step backend receive C) s actions = some s') :
    ∃ phase, s'.calls[c]? = some { call with phase } := by
  refine Run.exec_keeps (I := fun s => ∃ phase, s.calls[c]? = some { call with phase })
    (fun _ _ _ hs hstep => ?_) ⟨call.phase, hc⟩ h
  obtain ⟨phase, hc⟩ := hs
  rcases call_step hstep hc with hsame | ⟨_, _, phase', -, hset, -⟩
  · exact ⟨phase, hsame⟩
  · exact ⟨phase', hset⟩

variable (backend receive C) in
/-- In the schedule `actions` the call at `c` gets the lock of the list in `u` and leaves `u'`;
`after` is what follows. -/
structure GetsLock (actions : List (ListenerAction Φ S L σ)) (c : ℕ) (call : ListenerCall Φ L)
    (s u u' : ListenerState Φ S F L σ) (after : List (ListenerAction Φ S L σ)) : Prop where
  scheduled : ∃ before created runtime, actions = before ++ .advance c created runtime :: after ∧
    Run.exec (step backend receive C) s before = some u ∧
    step backend receive C u (.advance c created runtime) = some u'
  atLock : u.calls[c]? = some call
  waiting : call.phase = .listeners

/-- A call that no longer waits for the lock of the list has had it. -/
theorem exists_getsLock : ∀ {actions : List (ListenerAction Φ S L σ)}
    {s t : ListenerState Φ S F L σ} (_ : Run.exec (step backend receive C) s actions = some t)
    {call : ListenerCall Φ L} (_ : t.calls[c]? = some call) (_ : call.phase ≠ .listeners),
    (∃ call₀, s.calls[c]? = some call₀ ∧ call₀.phase ≠ .listeners) ∨
      ∃ call₀ u u' after, GetsLock backend receive C actions c call₀ s u u' after
  | [], s, t, h, call, hc, hp => by
    cases h
    exact .inl ⟨call, hc, hp⟩
  | a :: actions, s, t, h, call, hc, hp => by
    obtain ⟨s', hstep, h⟩ := Option.bind_eq_some_iff.1 h
    rcases exists_getsLock h hc hp with ⟨call₁, hc₁, hp₁⟩ |
      ⟨call₀, u, u', after, ⟨before, created, runtime, rfl, hu, hu'⟩, hc₀, hp₀⟩
    · rcases hc₀ : s.calls[c]? with _ | call₀
      · exact absurd (new_call_step hstep hc₁ hc₀) hp₁
      · by_cases hp₀ : call₀.phase = .listeners
        · rcases call_step hstep hc₀ with hsame | ⟨created, runtime, phase, rfl, -⟩
          · obtain rfl := Option.some.inj (hsame.symm.trans hc₁)
            exact absurd hp₀ hp₁
          · exact .inr ⟨call₀, s, s', actions, ⟨[], created, runtime, rfl, rfl, hstep⟩, hc₀, hp₀⟩
        · exact .inl ⟨call₀, rfl, hp₀⟩
    · refine .inr ⟨call₀, u, u', after, ⟨a :: before, created, runtime, rfl, ?_, hu'⟩, hc₀, hp₀⟩
      rw [Run.exec, hstep, Option.bind_some, hu]

/-- In every run of calls made inside a runtime no two registrations have one identity; each call
that has returned has had the lock of the list, and its result and what it did to the list are those
of a set at that moment; and what it has then removed is not there until it is registered again. -/
theorem registry_is_set {actions : List (ListenerAction Φ S L σ)}
    (hruntime : ∀ a ∈ actions, InRuntime a) (hnew : ∀ a ∈ actions, CreatedByNew a)
    (h : Run.exec (step backend receive C) {} actions = some s) :
    (s.listeners.map (·.identity)).Nodup ∧
    (∀ c call u u' after, GetsLock backend receive C actions c call {} u u' after →
      ∃ result, SetOutcome call u.listeners u'.listeners result ∧
        (∀ call' result', s.calls[c]? = some call' → call'.phase = .returned result' →
          result' = result) ∧
        (call.api = .unregister → result = .ok () →
          (∀ mid a rest w, after = mid ++ a :: rest →
            Run.exec (step backend receive C) u' mid = some w →
              ¬ w.Registers (call.filters, call.listener) a) →
          (call.filters, call.listener) ∉ s.listeners.map (·.identity))) ∧
    ∀ c call result, s.calls[c]? = some call → call.phase = .returned result →
      ∃ call₀ u u' after, GetsLock backend receive C actions c call₀ {} u u' after ∧
        call = { call₀ with phase := .returned result } := by
  refine ⟨?_, fun c call u u' after hlock => ?_, fun c call result hc hp => ?_⟩
  · exact nodup_identity_exec h
  · obtain ⟨⟨before, created, runtime, rfl, hu, hu'⟩, hcall, hwaiting⟩ := hlock
    have hnodup : (u.listeners.map (·.identity)).Nodup := nodup_identity_exec hu
    have hafter : Run.exec (step backend receive C) u' after = some s := by
      rw [Run.exec_append, hu, Option.bind_some, Run.exec, hu', Option.bind_some] at h
      exact h
    obtain ⟨result, houtcome, hsettled⟩ :=
      setOutcome_step hnodup (hnew _ (by simp)) hcall hwaiting hu'
    refine ⟨result, houtcome, fun call' result' hc hp => ?_, fun hapi hok hagain => ?_⟩
    · refine (settled_exec (fun a ha => hruntime a ?_) hsettled hafter).eq_of_returned hc hp
      exact List.mem_append_right before (List.mem_cons_of_mem _ ha)
    · exact not_mem_identity_exec hafter (houtcome.not_mem_of_removed hapi hok) hagain
  · rcases exists_getsLock h hc (by rw [hp]; exact CallPhase.noConfusion) with ⟨call₀, hc₀, -⟩ |
      ⟨call₀, u, u', after, hlock⟩
    · cases hc₀
    · obtain ⟨⟨before, created, runtime, rfl, hu, hu'⟩, hcall, -⟩ := id hlock
      have hrest : Run.exec (step backend receive C) u (.advance c created runtime :: after) =
          some s := by
        rw [Run.exec_append, hu, Option.bind_some] at h
        exact h
      obtain ⟨phase, hc'⟩ := call_exec hcall hrest
      obtain rfl := Option.some.inj (hc'.symm.trans hc)
      obtain rfl : phase = .returned result := hp
      exact ⟨call₀, u, u', after, hlock, rfl⟩

end Runs

end Outcomes

/-- The call that goes on is not one that registers this identity. -/
def keepsOut [DecidableEq Φ] [DecidableEq L] (id : Φ × L) (s : ListenerState Φ S F L σ) :
    ListenerAction Φ S L σ → Bool
  | .advance c _ _ => (s.calls[c]?).all fun call =>
    call.api = .unregister || (call.filters, call.listener) ≠ id
  | _ => true

theorem not_registers_of_keepsOut [DecidableEq Φ] [DecidableEq L] {id : Φ × L}
    {s : ListenerState Φ S F L σ} {a : ListenerAction Φ S L σ} (h : s.keepsOut id a = true) :
    ¬ s.Registers id a := by
  cases a with
  | advance c created runtime =>
    rintro ⟨call, subscriber, hc, hapi, -, hid, -⟩
    simp [keepsOut, hc, hapi, hid] at h
  | _ => exact fun hregisters => hregisters

/-- The second registration of the listener is refused.  The unregistration after it succeeds, and
the listener is not there again. -/
theorem registry_is_set_plain :
    ∃ s, Run.exec (step .native plainReceive plainFrames) {} plainRestarted = some s ∧
      (s.listeners.map (·.identity)).Nodup ∧
      (∃ call u u' after e, GetsLock .native plainReceive plainFrames plainRestarted 1 call {} u u'
        after ∧ SetOutcome call u.listeners u'.listeners (.error e)) ∧
      (filtersA, 0) ∉ s.listeners.map (·.identity) := by
  have hnew : ∀ a ∈ plainRestarted, CreatedByNew a := by
    simp [plainRestarted, plainRegistered, plainAdvance, CreatedByNew]
  obtain ⟨hnodup, houtcome, hlock⟩ :=
    registry_is_set plainRestarted_inRuntime hnew exec_plainRestarted
  obtain ⟨call, u, u', after, hrefused, -⟩ := hlock 1 _ _ rfl rfl
  obtain ⟨result, hset, hreturned, -⟩ := houtcome 1 call u u' after hrefused
  obtain rfl := hreturned _ _ rfl rfl
  refine ⟨_, exec_plainRestarted, hnodup, ⟨call, u, u', after, _, hrefused, hset⟩, ?_⟩
  have hremoved : GetsLock .native plainReceive plainFrames plainRestarted 2
      ⟨.unregister, filtersA, 0, .listeners⟩ {} _ _ (plainRestarted.drop 9) :=
    ⟨⟨plainRestarted.take 8, .ok [], .ok (), rfl, rfl, rfl⟩, rfl, rfl⟩
  obtain ⟨result, -, hreturned, hgone⟩ := houtcome 2 _ _ _ _ hremoved
  refine hgone rfl (hreturned _ _ rfl rfl).symm fun mid a rest w heq hw => ?_
  exact not_registers_of_keepsOut (Run.ok_of_checks rfl mid a rest w heq hw)

end ListenerState

end LolaTransport
