import LolaTransport.Proofs.ListenerOrder

/-!
# The order of what subscriptions return

In the native backend a registration has a subscriber of its own, which the polls that get to it
ask.  So what is taken for it are matches of what its subscriber returns, and for one that is
registered again, of what one subscriber after the other does (`native_takes_in_order`); and it is
handed these in order (`native_callbacks_in_order`).
-/

namespace LolaTransport

variable {Φ S F L σ : Type}

namespace ListenerState

section Subscriptions

variable [DecidableEq Φ] [DecidableEq L] {s s' : ListenerState Φ S F (Φ × L) σ}
  {receive : σ → Except Fault S × σ} {C : FrameCodec Φ S F} {id : Φ × L}

/-- The subscriber of a registration in the list. -/
def subscriberOf (id : Φ × L) (listeners : List (ListenerRegistration Φ (Φ × L) σ)) : Option σ :=
  (listeners.find? (·.listener = id)).map (·.subscriber)

theorem polledFor_of_not_mem {listeners : List (ListenerRegistration Φ (Φ × L) σ)}
    (h : id ∉ listeners.map (·.listener)) : polledFor receive C id listeners = [] := by
  refine List.filterMap_eq_nil_iff.2 fun r hr => if_neg ?_
  rintro rfl
  exact h (List.mem_map_of_mem ((asked_isPrefix listeners).subset hr))

theorem subscriberOf_cons (r : ListenerRegistration Φ (Φ × L) σ)
    (listeners : List (ListenerRegistration Φ (Φ × L) σ)) :
    subscriberOf id (r :: listeners) =
      if r.listener = id then some r.subscriber else subscriberOf id listeners := by
  unfold subscriberOf
  rw [List.find?_cons]
  split_ifs with hid
  · rw [decide_eq_true hid]
    rfl
  · rw [decide_eq_false hid]

/-- A poll takes for a registration what its subscriber returns, or does not ask it. -/
theorem polledFor_cases : ∀ {listeners : List (ListenerRegistration Φ (Φ × L) σ)}
    (_ : (listeners.map (·.listener)).Nodup) (_ : ∀ r ∈ listeners, r.listener.1 = r.filters)
    (deliveries : List ((Φ × L) × F)) {x : σ} (_ : subscriberOf id listeners = some x),
    polledFor receive C id listeners = (wanted C id.1 (receive x).1).toList ∧
        subscriberOf id (pollRegistrations receive C deliveries listeners).2 =
          some (receive x).2 ∨
      polledFor receive C id listeners = [] ∧
        subscriberOf id (pollRegistrations receive C deliveries listeners).2 = some x
  | [], _, _, _, _, h => by cases h
  | r :: listeners, hnodup, hlabels, deliveries, x, h => by
    obtain ⟨hnew, hnodup⟩ := List.nodup_cons.1 hnodup
    obtain ⟨hlabel, hlabels⟩ := List.forall_mem_cons.1 hlabels
    rw [subscriberOf_cons] at h
    by_cases hstop : Stops C (receive r.subscriber).1
    · obtain ⟨e, he⟩ := poll_cons_of_stops hstop deliveries listeners
      rw [he, subscriberOf_cons, polledFor, asked_cons_of_stops hstop]
      by_cases hid : r.listener = id
      · rw [if_pos hid] at h
        cases h
        subst hid
        refine .inl ⟨?_, if_pos rfl⟩
        rw [List.filterMap_cons, if_pos rfl, ← hlabel]
        cases wanted C r.listener.1 (receive r.subscriber).1 <;> rfl
      · rw [if_neg hid] at h
        refine .inr ⟨?_, (if_neg hid).trans h⟩
        rw [List.filterMap_cons, if_neg hid]
        rfl
    · rw [poll_cons_of_not_stops hstop, subscriberOf_cons]
      have hpolled : polledFor receive C id (r :: listeners) =
          (if r.listener = id then wanted C r.filters (receive r.subscriber).1 else none).toList ++
            polledFor receive C id listeners := by
        rw [polledFor, asked_cons_of_not_stops hstop, List.filterMap_cons]
        split <;> rename_i heq <;> rw [heq] <;> rfl
      rw [hpolled]
      by_cases hid : r.listener = id
      · rw [if_pos hid] at h
        cases h
        subst hid
        refine .inl ⟨?_, if_pos rfl⟩
        rw [if_pos rfl, polledFor_of_not_mem hnew, List.append_nil, ← hlabel]
      · rw [if_neg hid] at h
        rw [if_neg hid]
        exact (polledFor_cases hnodup hlabels _ h).imp (fun h' => ⟨h'.1, (if_neg hid).trans h'.2⟩)
          fun h' => ⟨h'.1, (if_neg hid).trans h'.2⟩

theorem subscriberOf_eq_none {listeners : List (ListenerRegistration Φ (Φ × L) σ)} :
    subscriberOf id listeners = none ↔ id ∉ listeners.map (·.listener) := by
  unfold subscriberOf
  rw [Option.map_eq_none_iff, List.find?_eq_none]
  simp

theorem subscriberOf_append (listeners : List (ListenerRegistration Φ (Φ × L) σ))
    (r : ListenerRegistration Φ (Φ × L) σ) : subscriberOf id (listeners ++ [r]) =
      (subscriberOf id listeners).or (if r.listener = id then some r.subscriber else none) := by
  induction listeners with
  | nil =>
    rw [List.nil_append, subscriberOf_cons]
    rfl
  | cons first listeners ih =>
    rw [List.cons_append, subscriberOf_cons, subscriberOf_cons, ih]
    split_ifs <;> rfl

theorem subscriberOf_middle {before after : List (ListenerRegistration Φ (Φ × L) σ)}
    {r : ListenerRegistration Φ (Φ × L) σ} (h : r.listener ∉ before.map (·.listener)) :
    subscriberOf r.listener (before ++ r :: after) = some r.subscriber := by
  have hnone := Option.map_eq_none_iff.1 (subscriberOf_eq_none.2 h)
  rw [subscriberOf, List.find?_append, hnone, List.find?_cons, decide_eq_true rfl]
  rfl

theorem subscriberOf_removed {before after : List (ListenerRegistration Φ (Φ × L) σ)}
    {r : ListenerRegistration Φ (Φ × L) σ} (hid : r.listener ≠ id) :
    subscriberOf id (before ++ r :: after) = subscriberOf id (before ++ after) := by
  unfold subscriberOf
  rw [List.find?_append, List.find?_append, List.find?_cons, decide_eq_false hid]

/-- The subscriber that a register call adds to the list for this registration. -/
def subscribed (id : Φ × L) (s : ListenerState Φ S F (Φ × L) σ) :
    ListenerAction Φ S (Φ × L) σ → List σ
  | .advance c created _ =>
    match s.calls[c]? with
    | some ⟨.register, filters, listener, .listeners⟩ =>
      match registerListener filters listener created s.listeners with
      | .ok listeners => (subscriberOf id (listeners.drop s.listeners.length)).toList
      | .error _ => []
    | _ => []
  | _ => []

/-- What a poll asks a subscriber for, and the subscriber after it. -/
def asks (receive : σ → Except Fault S × σ) (C : FrameCodec Φ S F) (filters : Φ)
    (subscriber : σ) : List F × σ :=
  ((wanted C filters (receive subscriber).1).toList, (receive subscriber).2)

omit [DecidableEq Φ] [DecidableEq L] in
theorem reads_asks (filters : Φ) (listener : L) : ∀ (n : ℕ) (subscriber : σ),
    Run.reads (asks receive C filters) n subscriber =
      expected receive C n ⟨filters, listener, subscriber⟩
  | 0, _ => rfl
  | n + 1, subscriber => by
    rw [Run.reads, reads_asks filters listener n, expected_succ]
    rfl

/-- A poll asks the subscriber of a registration, or leaves it as it is. -/
theorem polled_source (hs : s.Labelled) (hnodup : (s.listeners.map (·.identity)).Nodup) :
    Run.SourceStep (asks receive C id.1) (subscriberOf id s.listeners)
      (subscriberOf id (pollListenerFrames receive C s.listeners).2) []
      (s.takes .native receive C id .polling) := by
  change Run.SourceStep _ _ _ _ (polledFor receive C id s.listeners)
  cases hx : subscriberOf id s.listeners with
  | none =>
    have habsent := subscriberOf_eq_none.1 hx
    have hsame : (pollListenerFrames receive C s.listeners).2.map (·.listener) =
        s.listeners.map (·.listener) := by
      have hidentity : (pollListenerFrames receive C s.listeners).2.map (·.identity) =
          s.listeners.map (·.identity) := identity_pollRegistrations
      have hlistener := congrArg (List.map Prod.snd) hidentity
      rwa [List.map_map, List.map_map] at hlistener
    rw [subscriberOf_eq_none.2 (hsame ▸ habsent), polledFor_of_not_mem habsent]
    exact .same none
  | some x =>
    unfold pollListenerFrames
    rcases polledFor_cases (nodup_listeners hs hnodup) hs.listeners [] hx with
      ⟨hpolled, hafter⟩ | ⟨hpolled, hafter⟩
    · rw [hpolled, hafter]
      exact .asked x
    · rw [hpolled, hafter]
      exact .same (some x)

/-- What a step of the native backend takes for a registration comes from its subscriber. -/
theorem source_step {b : ListenerAction Φ S (Φ × L) σ} (hs : s.Labelled)
    (hnodup : (s.listeners.map (·.identity)).Nodup)
    (h : step .native receive C s b = some s') :
    Run.SourceStep (asks receive C id.1) (subscriberOf id s.listeners)
      (subscriberOf id s'.listeners) (s.subscribed id b) (s.taken .native receive C id b) := by
  have hlisteners := nodup_listeners hs hnodup
  have hsubscribed {c created runtime} {call : ListenerCall Φ (Φ × L)}
      (hc : s.calls[c]? = some call)
      (hcall : call.phase = .listeners → call.api ≠ .register) :
      s.subscribed id (.advance c created runtime) = [] := by
    obtain ⟨api, filters, listener, phase⟩ := call
    cases api <;> cases phase <;> simp_all [subscribed]
  cases step_cases h with
  | call | suspended | cancelled | arrived => exact .same _
  | @failed c created runtime call e hc hp hfailed =>
    have hnone : s.subscribed id (.advance c created runtime) = [] := by
      rcases hfailed with ⟨hapi, he⟩ | ⟨hapi, -⟩
      · obtain ⟨api, filters, listener, phase⟩ := call
        obtain rfl : api = .register := hapi
        obtain rfl : phase = .listeners := hp
        dsimp only at he
        simp only [subscribed, hc, he]
      · exact hsubscribed hc fun _ hregister => by rw [hapi] at hregister; cases hregister
    rw [hnone]
    exact .same _
  | @pushed c created runtime call listeners hc hp hapi hpushed =>
    obtain ⟨api, filters, listener, phase⟩ := call
    obtain rfl : api = .register := hapi
    obtain rfl : phase = .listeners := hp
    dsimp only at hpushed
    have hadded : s.subscribed id (.advance c created runtime) =
        (subscriberOf id (listeners.drop s.listeners.length)).toList := by
      simp only [subscribed, hc, hpushed]
    obtain ⟨hnew, subscriber, -, rfl⟩ := registerListener_eq_ok.1 hpushed
    rw [hadded, List.drop_left]
    change Run.SourceStep _ _ (subscriberOf id (s.listeners ++ _)) _ []
    rw [subscriberOf_append, subscriberOf_cons]
    split_ifs with hid
    · have hnone : subscriberOf id s.listeners = none := by
        refine subscriberOf_eq_none.2 fun hmem => hnew ?_
        obtain ⟨r, hr, hrid⟩ := List.mem_map.1 hmem
        have hfilters : r.listener.1 = r.filters := hs.listeners r hr
        have hlabel : listener.1 = filters := hs.calls _ (List.mem_of_getElem? hc)
        have hlistener : r.listener = listener := hrid.trans hid.symm
        exact List.mem_map.2 ⟨r, hr, Prod.ext (by rw [← hlabel, ← hlistener]; exact hfilters.symm)
          hlistener⟩
      rw [hnone]
      exact .opened subscriber
    · rw [Option.or_none]
      exact .same _
  | @removed c created runtime call _ shouldStop hc hp hapi hremoved =>
    obtain ⟨before, r, after, hlist, -, rfl, -⟩ := unregisterListener_ok hremoved
    rw [hsubscribed hc fun _ hregister => by rw [hapi] at hregister; cases hregister]
    change Run.SourceStep _ _ (subscriberOf id (before ++ after)) _ []
    rw [hlist] at hlisteners ⊢
    by_cases hid : r.listener = id
    · subst hid
      rw [List.map_append, List.map_cons, List.nodup_middle, ← List.map_append] at hlisteners
      have habsent := (List.nodup_cons.1 hlisteners).1
      have hbefore : r.listener ∉ before.map (·.listener) := fun hmem =>
        habsent (by rw [List.map_append]; exact List.mem_append_left _ hmem)
      rw [subscriberOf_eq_none.2 habsent, subscriberOf_middle hbefore]
      exact .closed r.subscriber
    · rw [subscriberOf_removed hid]
      exact .same _
  | @ensured c created runtime call hc hp hapi =>
    rw [hsubscribed hc fun hphase => by rw [hp] at hphase; cases hphase]
    change Run.SourceStep _ _ (subscriberOf id (s.ensureListenerTask runtime).2.listeners) _ []
    rw [ensureListenerTask_listeners]
    exact .same _
  | @stopped c created runtime call hc hp hapi =>
    rw [hsubscribed hc fun hphase => by rw [hp] at hphase; cases hphase]
    obtain ⟨tasks, hstop⟩ := stopListenerTask_eq (s := s)
    rw [hstop]
    exact .same _
  | @ran t task _ ht hruns hrun =>
    have htaken : s.taken .native receive C id (.run t) =
        s.takes .native receive C id task.phase := by rw [taken, ht]; rfl
    rw [htaken]
    change Run.SourceStep _ _ _ [] _
    cases hp : task.phase with
    | polling =>
      simp only [run, hp] at hrun
      cases hrun
      exact polled_source hs hnodup
    | delivering deliveries =>
      cases deliveries with
      | nil | cons =>
        simp only [run, hp] at hrun
        cases hrun
        exact .same _
    | ended =>
      simp only [run, hp] at hrun
      cases hrun
    | _ =>
      simp only [run, hp] at hrun
      cases hrun
      exact .same _

/-- What the native backend takes for a registration are matches of what its subscribers return, of
one after the other. -/
theorem native_takes_in_order {actions : List (ListenerAction Φ S L σ)}
    (h : Run.exec (step .native receive C) {} (actions.map (·.labelled)) = some s) (id : Φ × L) :
    ∃ ns : List ℕ,
      ns.length = (Run.outputs (step .native receive C) (subscribed id) {}
        (actions.map (·.labelled))).length ∧
      Run.outputs (step .native receive C) (taken .native receive C id) {}
          (actions.map (·.labelled)) =
        (List.zipWith (fun n subscriber => expected receive C n ⟨id.1, id.2, subscriber⟩) ns
          (Run.outputs (step .native receive C) (subscribed id) {}
            (actions.map (·.labelled)))).flatten := by
  have hinit : ({} : ListenerState Φ S F (Φ × L) σ).Labelled ∧
      (({} : ListenerState Φ S F (Φ × L) σ).listeners.map (·.identity)).Nodup :=
    ⟨(traced_init (C := C)).labelled, List.nodup_nil⟩
  rw [Run.exec_map] at h
  rw [Run.outputs_map, Run.outputs_map]
  obtain ⟨ns, hlen, houts⟩ := Run.outputs_reads (fun s => subscriberOf id s.listeners)
    (fun s a s' (hs : s.Labelled ∧ (s.listeners.map (·.identity)).Nodup) hstep =>
      ⟨⟨labelled_step hs.1 hstep, nodup_identity_step hs.2 hstep⟩,
        source_step hs.1 hs.2 hstep⟩) hinit h
  refine ⟨ns, hlen, houts.trans ?_⟩
  congr 2
  exact funext fun n => funext fun subscriber => reads_asks id.1 id.2 n subscriber

/-- In the native backend, and as long as one task polls at a time, each registration is handed
matches of what its subscription returns, in this order and each at most once; one that is
registered again, of what one subscription after the other does. -/
theorem native_callbacks_in_order {actions : List (ListenerAction Φ S L σ)}
    {s : ListenerState Φ S F L σ} (h : Run.exec (step .native receive C) {} actions = some s)
    (hsingle : ∀ before a after u, actions = before ++ a :: after →
      Run.exec (step .native receive C) {} before = some u → ¬ u.Doubles a) :
    Run.outputs (step .native receive C) started {} actions = mapDeliveries Prod.snd
        (Run.outputs (step .native receive C) started {} (actions.map (·.labelled))) ∧
      ∀ id : Φ × L, ∃ ns : List ℕ,
        ns.length = (Run.outputs (step .native receive C) (subscribed id)
          ({} : ListenerState Φ S F (Φ × L) σ) (actions.map (·.labelled))).length ∧
        (framesFor id (Run.outputs (step .native receive C) started {}
          (actions.map (·.labelled)))).Sublist
            (List.zipWith (fun n subscriber => expected receive C n ⟨id.1, id.2, subscriber⟩) ns
              (Run.outputs (step .native receive C) (subscribed id)
                ({} : ListenerState Φ S F (Φ × L) σ) (actions.map (·.labelled)))).flatten := by
  obtain ⟨⟨s', hs', -⟩, hlabels, horder⟩ := registration_callbacks_in_order h hsingle
  refine ⟨hlabels, fun id => ?_⟩
  obtain ⟨ns, hlen, htakes⟩ := native_takes_in_order hs' id
  exact ⟨ns, hlen, htakes ▸ horder id⟩

end Subscriptions

/-- The task goes on to the second listener. -/
def plainServed :
    List (ListenerAction (Filters plainUpRust) (List UInt8) ℕ (List (Except Fault (List UInt8)))) :=
  plainCalling ++ [.run 0, .run 0]

theorem plainServed_registersOnly : ∀ a ∈ plainServed, RegistersOnly a := by
  refine List.forall_mem_append.2 ⟨plainCalling_registersOnly, ?_⟩
  simp [RegistersOnly]

/-- The second listener is called with the sample of its own subscription. -/
theorem native_callbacks_in_order_plain :
    framesFor (filtersA, 1) (Run.outputs (step .native plainReceive plainFrames) started {}
      (plainServed.map (·.labelled))) = [leaseA] ∧
    ∃ ns : List ℕ,
      ns.length = (Run.outputs (step .native plainReceive plainFrames) (subscribed (filtersA, 1)) {}
        (plainServed.map (·.labelled))).length ∧
      (framesFor (filtersA, 1) (Run.outputs (step .native plainReceive plainFrames) started {}
        (plainServed.map (·.labelled)))).Sublist
          (List.zipWith (fun n subscriber =>
              expected plainReceive plainFrames n ⟨filtersA, 1, subscriber⟩) ns
            (Run.outputs (step .native plainReceive plainFrames) (subscribed (filtersA, 1)) {}
              (plainServed.map (·.labelled)))).flatten := by
  have hexec : Run.exec (step .native plainReceive plainFrames) {} plainServed = some _ := rfl
  exact ⟨rfl, (native_callbacks_in_order hexec
    (not_doubles_of_registersOnly plainServed_registersOnly)).2 (filtersA, 1)⟩

end ListenerState

end LolaTransport
