import LolaTransport.Listeners
import LolaTransport.Proofs.PlainFrames

/-!
# What a listener is handed

A poll that gets to the end hands each listener the match its subscription returned, if it did
(`poll_ok`).  One that stops at a registration drops what it collected in front of it and leaves the
subscriptions behind it where they were (`poll_error`).
-/

namespace LolaTransport

variable {Φ S F L σ : Type}

section Polls

variable (receive : σ → Except Fault S × σ) (C : FrameCodec Φ S F)

/-- The first results of a subscription. -/
def results : ℕ → σ → List (Except Fault S)
  | 0, _ => []
  | n + 1, subscriber => (receive subscriber).1 :: results n (receive subscriber).2

/-- The frame that a result holds, if it is a match. -/
def wanted (filters : Φ) : Except Fault S → Option F
  | .error _ => none
  | .ok sample =>
    match C.decode sample with
    | .error _ => none
    | .ok frame => if C.matchesFilter filters frame then some frame else none

/-- The matches among the first results of a registration's subscription, in order. -/
def expected (n : ℕ) (registration : ListenerRegistration Φ L σ) : List F :=
  (results receive n registration.subscriber).filterMap (wanted C registration.filters)

/-- The result is an error other than `NOT_FOUND`, or a sample that is not a frame. -/
def Stops : Except Fault S → Prop
  | .error e => e.code? ≠ some .NOT_FOUND
  | .ok sample => ∃ e, C.decode sample = .error e

/-- The registration after its subscriber has been asked. -/
def ListenerRegistration.polled (registration : ListenerRegistration Φ L σ) :
    ListenerRegistration Φ L σ :=
  { registration with subscriber := (receive registration.subscriber).2 }

/-- What a registration adds to the deliveries. -/
def ListenerRegistration.delivery (registration : ListenerRegistration Φ L σ) : Option (L × F) :=
  (wanted C registration.filters (receive registration.subscriber).1).map (registration.listener, ·)

variable {receive C}

theorem poll_cons_of_not_stops {registration : ListenerRegistration Φ L σ}
    (h : ¬ Stops C (receive registration.subscriber).1) (deliveries : List (L × F))
    (registrations : List (ListenerRegistration Φ L σ)) :
    pollRegistrations receive C deliveries (registration :: registrations) =
      ((pollRegistrations receive C
          (deliveries ++ (registration.delivery receive C).toList) registrations).1,
        registration.polled receive :: (pollRegistrations receive C
          (deliveries ++ (registration.delivery receive C).toList) registrations).2) := by
  rcases hreceive : receive registration.subscriber with ⟨_ | sample, subscriber⟩
  · rename_i e
    rw [hreceive] at h
    have hcode : e.code? = some .NOT_FOUND := not_not.1 h
    simp [pollRegistrations, hreceive, hcode, ListenerRegistration.delivery,
      ListenerRegistration.polled, wanted]
  · rw [hreceive] at h
    cases hd : C.decode sample with
    | error e => exact absurd ⟨e, hd⟩ h
    | ok frame =>
      by_cases hm : C.matchesFilter registration.filters frame <;>
      simp [pollRegistrations, hreceive, hd, ListenerRegistration.delivery,
        ListenerRegistration.matchesFrame, ListenerRegistration.polled, wanted, hm]

theorem poll_cons_of_stops {registration : ListenerRegistration Φ L σ}
    (h : Stops C (receive registration.subscriber).1) (deliveries : List (L × F))
    (registrations : List (ListenerRegistration Φ L σ)) :
    ∃ e, pollRegistrations receive C deliveries (registration :: registrations) =
      (.error e, registration.polled receive :: registrations) := by
  rcases hreceive : receive registration.subscriber with ⟨e | sample, subscriber⟩
  · rw [hreceive] at h
    have hcode : e.code? ≠ some .NOT_FOUND := h
    exact ⟨e, by simp [pollRegistrations, hreceive, hcode, ListenerRegistration.polled]⟩
  · rw [hreceive] at h
    obtain ⟨e, he⟩ := h
    exact ⟨e, by simp [pollRegistrations, hreceive, he, ListenerRegistration.polled]⟩

/-- A poll that nothing stops. -/
theorem poll_ok : ∀ {registrations : List (ListenerRegistration Φ L σ)}
    (_ : ∀ r ∈ registrations, ¬ Stops C (receive r.subscriber).1) (deliveries : List (L × F)),
    pollRegistrations receive C deliveries registrations =
      (.ok (deliveries ++ registrations.filterMap (·.delivery receive C)),
        registrations.map (·.polled receive))
  | [], _, deliveries => by simp [pollRegistrations]
  | r :: registrations, h, deliveries => by
    obtain ⟨hr, hrest⟩ := List.forall_mem_cons.1 h
    rw [poll_cons_of_not_stops hr, poll_ok hrest, List.map_cons, List.append_assoc]
    cases hdelivery : r.delivery receive C <;> simp [hdelivery]

/-- A poll that stops. -/
theorem poll_error {stop : ListenerRegistration Φ L σ} {after : List (ListenerRegistration Φ L σ)}
    (hstop : Stops C (receive stop.subscriber).1) :
    ∀ {before : List (ListenerRegistration Φ L σ)}
      (_ : ∀ r ∈ before, ¬ Stops C (receive r.subscriber).1) (deliveries : List (L × F)),
      ∃ e, pollRegistrations receive C deliveries (before ++ stop :: after) =
        (.error e, before.map (·.polled receive) ++ stop.polled receive :: after)
  | [], _, deliveries => poll_cons_of_stops hstop deliveries after
  | r :: before, h, deliveries => by
    obtain ⟨hr, hbefore⟩ := List.forall_mem_cons.1 h
    obtain ⟨e, he⟩ := poll_error hstop hbefore
      (deliveries ++ (r.delivery receive C).toList)
    refine ⟨e, ?_⟩
    rw [List.cons_append, poll_cons_of_not_stops hr, he]
    rfl

variable (receive C) in
/-- Nothing stops the poll, or something is the first to. -/
theorem stops_cases : ∀ registrations : List (ListenerRegistration Φ L σ),
    (∀ r ∈ registrations, ¬ Stops C (receive r.subscriber).1) ∨
    ∃ before stop after, registrations = before ++ stop :: after ∧
      (∀ r ∈ before, ¬ Stops C (receive r.subscriber).1) ∧ Stops C (receive stop.subscriber).1
  | [] => .inl (by simp)
  | r :: registrations => by
    by_cases hr : Stops C (receive r.subscriber).1
    · exact .inr ⟨[], r, registrations, rfl, by simp, hr⟩
    · rcases stops_cases registrations with hrest | ⟨before, stop, after, rfl, hbefore, hstop⟩
      · exact .inl (List.forall_mem_cons.2 ⟨hr, hrest⟩)
      · exact .inr ⟨r :: before, stop, after, rfl, List.forall_mem_cons.2 ⟨hr, hbefore⟩, hstop⟩

section Turns

theorem listenerRound_of_not_stops {registrations : List (ListenerRegistration Φ L σ)}
    (h : ∀ r ∈ registrations, ¬ Stops C (receive r.subscriber).1) :
    listenerRound receive C registrations =
      (registrations.filterMap (·.delivery receive C),
        registrations.map (·.polled receive)) := by
  cases registrations with
  | nil => rfl
  | cons r registrations =>
    rw [listenerRound, pollListenerFrames, poll_ok h]
    rfl

theorem listenerRound_of_stops {before after : List (ListenerRegistration Φ L σ)}
    {stop : ListenerRegistration Φ L σ} (hstop : Stops C (receive stop.subscriber).1)
    (hbefore : ∀ r ∈ before, ¬ Stops C (receive r.subscriber).1) :
    listenerRound receive C (before ++ stop :: after) =
      ([], before.map (·.polled receive) ++ stop.polled receive :: after) := by
  obtain ⟨e, he⟩ : ∃ e, pollRegistrations receive C [] (before ++ stop :: after) =
      (.error e, before.map (·.polled receive) ++ stop.polled receive :: after) :=
    poll_error hstop hbefore []
  have hne : (before ++ stop :: after).isEmpty = false := by cases before <;> rfl
  rw [listenerRound, hne, pollListenerFrames, he]
  rfl

theorem expected_succ (n : ℕ) (r : ListenerRegistration Φ L σ) :
    expected receive C (n + 1) r =
      (wanted C r.filters (receive r.subscriber).1).toList ++
        expected receive C n (r.polled receive) := by
  rw [expected, results, List.filterMap_cons]
  cases wanted C r.filters (receive r.subscriber).1 <;> rfl

theorem wanted_of_stops {filters : Φ} {result : Except Fault S} (h : Stops C result) :
    wanted C filters result = none := by
  cases result with
  | error e => rfl
  | ok sample =>
    obtain ⟨e, he⟩ := h
    simp only [wanted, he]

end Turns

end Polls

/-- The registrations, their listeners told apart by numbers that no code looks at. -/
def numbered (registrations : List (ListenerRegistration Φ L σ)) :
    List (ListenerRegistration Φ (ℕ × L) σ) :=
  registrations.mapIdx fun i r => { r with listener := (i, r.listener) }

/-- The frames handed to the listener with this number, in order. -/
def handedTo (i : ℕ) (deliveries : List ((ℕ × L) × F)) : List F :=
  (deliveries.filter (·.1.1 = i)).map (·.2)

/-- No two registrations have the same number. -/
def Apart (registrations : List (ListenerRegistration Φ (ℕ × L) σ)) : Prop :=
  (registrations.map (·.listener.1)).Nodup

theorem numbered_apart (registrations : List (ListenerRegistration Φ L σ)) :
    Apart (numbered registrations) := by
  have hnumbers : (numbered registrations).map (·.listener.1) =
      List.range registrations.length := by
    refine List.ext_getElem (by simp [numbered]) fun i hi hi' => ?_
    simp [numbered]
  rw [Apart, hnumbers]
  exact List.nodup_range

theorem handedTo_append (i : ℕ) (deliveries later : List ((ℕ × L) × F)) :
    handedTo i (deliveries ++ later) = handedTo i deliveries ++ handedTo i later := by
  simp [handedTo]

section Apart

variable {receive : σ → Except Fault S × σ} {C : FrameCodec Φ S F}
  {registrations : List (ListenerRegistration Φ (ℕ × L) σ)}

theorem handedTo_cons (i : ℕ) (r : ListenerRegistration Φ (ℕ × L) σ) :
    handedTo i ((r :: registrations).filterMap (·.delivery receive C)) =
      (if r.listener.1 = i then (wanted C r.filters (receive r.subscriber).1).toList else []) ++
        handedTo i (registrations.filterMap (·.delivery receive C)) := by
  rw [List.filterMap_cons]
  cases hw : wanted C r.filters (receive r.subscriber).1 with
  | none => simp [ListenerRegistration.delivery, hw]
  | some frame =>
    by_cases hi : r.listener.1 = i <;> simp [ListenerRegistration.delivery, hw, handedTo, hi]

theorem handedTo_other {i : ℕ} :
    ∀ {registrations : List (ListenerRegistration Φ (ℕ × L) σ)}
      (_ : i ∉ registrations.map (·.listener.1)),
      handedTo i (registrations.filterMap (·.delivery receive C)) = []
  | [], _ => rfl
  | r :: registrations, h => by
    rw [List.map_cons, List.mem_cons, not_or] at h
    rw [handedTo_cons, if_neg (Ne.symm h.1), handedTo_other h.2, List.append_nil]

/-- A listener is handed what its registration adds. -/
theorem handedTo_deliveries : ∀ {registrations : List (ListenerRegistration Φ (ℕ × L) σ)}
    (_ : Apart registrations) {r : ListenerRegistration Φ (ℕ × L) σ} (_ : r ∈ registrations),
    handedTo r.listener.1 (registrations.filterMap (·.delivery receive C)) =
      (wanted C r.filters (receive r.subscriber).1).toList
  | r' :: registrations, hapart, r, hr => by
    obtain ⟨hr', hrest⟩ := List.nodup_cons.1 hapart
    rw [handedTo_cons]
    rcases List.mem_cons.1 hr with rfl | hr
    · rw [if_pos rfl, handedTo_other hr', List.append_nil]
    · have hne : r'.listener.1 ≠ r.listener.1 := by
        intro heq
        exact hr' (List.mem_map.2 ⟨r, hr, heq.symm⟩)
      rw [if_neg hne, List.nil_append]
      exact handedTo_deliveries hrest hr

/-- Polling changes no listener. -/
theorem Apart.map_polled (h : Apart registrations) :
    Apart (registrations.map (·.polled receive)) := by
  rw [Apart, List.map_map]
  exact h

theorem Apart.polled_stop {before after : List (ListenerRegistration Φ (ℕ × L) σ)}
    {stop : ListenerRegistration Φ (ℕ × L) σ} (h : Apart (before ++ stop :: after)) :
    Apart (before.map (·.polled receive) ++ stop.polled receive :: after) := by
  simp only [Apart, List.map_append, List.map_map, List.map_cons] at h ⊢
  exact h

/-- After a poll that stops, a registration has been polled or is as it was. -/
theorem mem_stopped {before after : List (ListenerRegistration Φ (ℕ × L) σ)}
    {stop r : ListenerRegistration Φ (ℕ × L) σ} (hr : r ∈ before ++ stop :: after) :
    r.polled receive ∈ before.map (·.polled receive) ++ stop.polled receive :: after ∨
      r ∈ after := by
  simp only [List.mem_append, List.mem_cons] at hr
  rcases hr with hr | rfl | hr
  · exact .inl (List.mem_append_left _ (List.mem_map_of_mem hr))
  · exact .inl (List.mem_append_right _ List.mem_cons_self)
  · exact .inr hr

theorem expected_sublist : ∀ (n : ℕ) (r : ListenerRegistration Φ (ℕ × L) σ),
    (expected receive C n r).Sublist (expected receive C (n + 1) r)
  | 0, _ => List.nil_sublist _
  | n + 1, r => by
    rw [expected_succ, expected_succ]
    exact (List.Sublist.refl _).append (expected_sublist n _)

theorem expected_mono {n m : ℕ} (h : n ≤ m) (r : ListenerRegistration Φ (ℕ × L) σ) :
    (expected receive C n r).Sublist (expected receive C m r) := by
  induction m, h using Nat.le_induction with
  | base => exact List.Sublist.refl _
  | succ m _ ih => exact ih.trans (expected_sublist m r)

theorem expected_succ_of_none {r : ListenerRegistration Φ (ℕ × L) σ}
    (h : wanted C r.filters (receive r.subscriber).1 = none) (n : ℕ) :
    expected receive C (n + 1) r = expected receive C n (r.polled receive) := by
  rw [expected_succ, h]
  rfl

/-- No listener is handed more than it should be, or out of order. -/
theorem handedTo_sublist : ∀ (n : ℕ) {registrations : List (ListenerRegistration Φ (ℕ × L) σ)}
    (_ : Apart registrations) {r : ListenerRegistration Φ (ℕ × L) σ} (_ : r ∈ registrations),
    (handedTo r.listener.1 (listenerRounds receive C n registrations).1).Sublist
      (expected receive C n r)
  | 0, _, _, _, _ => List.Sublist.refl _
  | n + 1, registrations, hapart, r, hr => by
    rw [listenerRounds, handedTo_append]
    rcases stops_cases receive C registrations with
      hnot | ⟨before, stop, after, rfl, hbefore, hstop⟩
    · rw [listenerRound_of_not_stops hnot, handedTo_deliveries hapart hr, expected_succ]
      have hpolled : r.polled receive ∈ registrations.map (·.polled receive) :=
        List.mem_map_of_mem hr
      exact (List.Sublist.refl _).append (handedTo_sublist n hapart.map_polled hpolled)
    · rw [listenerRound_of_stops hstop hbefore]
      have ih {r' : ListenerRegistration Φ (ℕ × L) σ} (hr' : r' ∈
          before.map (·.polled receive) ++ stop.polled receive :: after) :=
        handedTo_sublist n hapart.polled_stop hr'
      rcases mem_stopped hr with hpolled | hkept
      · rw [expected_succ]
        exact (ih hpolled).trans (List.sublist_append_right _ _)
      · exact (ih (List.mem_append_right _ (List.mem_cons_of_mem _ hkept))).trans
          (expected_sublist n r)

section Delivery

variable (receive C) in
/-- Up to `N` turns every listener is handed the matches its own subscription has returned. -/
def Delivered (N : ℕ) (registrations : List (ListenerRegistration Φ (ℕ × L) σ)) : Prop :=
  ∀ n ≤ N, ∀ r ∈ registrations,
    handedTo r.listener.1 (listenerRounds receive C n registrations).1 = expected receive C n r

variable (receive C) in
/-- What is the first to stop the poll, if anything does, costs nobody a match: none was collected
before it, and none is among the next `n` results of the subscriptions behind it. -/
def Harmless (n : ℕ) (registrations : List (ListenerRegistration Φ L σ)) : Prop :=
  ∀ before stop after, registrations = before ++ stop :: after →
    (∀ r ∈ before, ¬ Stops C (receive r.subscriber).1) → Stops C (receive stop.subscriber).1 →
      (∀ r ∈ before, wanted C r.filters (receive r.subscriber).1 = none) ∧
        ∀ r ∈ after, expected receive C n r = []

theorem delivered_succ {N : ℕ} : Delivered receive C (N + 1) registrations ↔
    ∀ n ≤ N, ∀ r ∈ registrations,
      handedTo r.listener.1 (listenerRound receive C registrations).1 ++
          handedTo r.listener.1
            (listenerRounds receive C n (listenerRound receive C registrations).2).1 =
        expected receive C (n + 1) r := by
  constructor
  · intro h n hn r hr
    have hsucc := h (n + 1) (by omega) r hr
    rwa [listenerRounds, handedTo_append] at hsucc
  · rintro h (_ | n) hn r hr
    · rfl
    · rw [listenerRounds, handedTo_append]
      exact h n (by omega) r hr

theorem delivered_of_not_stops {N : ℕ} (hapart : Apart registrations)
    (h : ∀ r ∈ registrations, ¬ Stops C (receive r.subscriber).1) :
    Delivered receive C (N + 1) registrations ↔
      Delivered receive C N (registrations.map (·.polled receive)) := by
  rw [delivered_succ, listenerRound_of_not_stops h]
  constructor
  · intro hall n hn r' hr'
    obtain ⟨r, hr, rfl⟩ := List.mem_map.1 hr'
    have hsplit := hall n hn r hr
    rw [handedTo_deliveries hapart hr, expected_succ] at hsplit
    exact List.append_cancel_left hsplit
  · intro hall n hn r hr
    rw [handedTo_deliveries hapart hr, expected_succ]
    exact congrArg _ (hall n hn (r.polled receive) (List.mem_map_of_mem hr))

/-- After a turn that stops, what is handed over can only be right if the turn has lost no match and
the subscriptions that were left out have none to come. -/
theorem delivered_of_stops {N : ℕ} {before after : List (ListenerRegistration Φ (ℕ × L) σ)}
    {stop : ListenerRegistration Φ (ℕ × L) σ} (hapart : Apart (before ++ stop :: after))
    (hstop : Stops C (receive stop.subscriber).1)
    (hbefore : ∀ r ∈ before, ¬ Stops C (receive r.subscriber).1) :
    Delivered receive C (N + 1) (before ++ stop :: after) ↔
      ((∀ r ∈ before, wanted C r.filters (receive r.subscriber).1 = none) ∧
        ∀ r ∈ after, expected receive C (N + 1) r = []) ∧
      Delivered receive C N (before.map (·.polled receive) ++ stop.polled receive :: after) := by
  rw [delivered_succ, listenerRound_of_stops hstop hbefore]
  simp only [show ∀ i, handedTo (F := F) (L := L) i [] = [] from fun _ => rfl, List.nil_append]
  constructor
  · intro h
    have hhead : ∀ r ∈ before ++ stop :: after,
        wanted C r.filters (receive r.subscriber).1 = none := by
      intro r hr
      have hfirst := h 0 (Nat.zero_le N) r hr
      rw [expected_succ] at hfirst
      have hnil := (List.append_eq_nil_iff.1 hfirst.symm).1
      rwa [Option.toList_eq_nil_iff] at hnil
    have hmem {r : ListenerRegistration Φ (ℕ × L) σ} (hr : r ∈ after) :
        r ∈ before ++ stop :: after := List.mem_append_right _ (List.mem_cons_of_mem _ hr)
    -- what is left out is one turn behind: a match would be handed over before it is expected
    have hnone : ∀ n ≤ N + 1, ∀ r ∈ after, expected receive C n r = [] := by
      intro n
      induction n with
      | zero => exact fun _ _ _ => rfl
      | succ n ih =>
        intro hn r hr
        have hr' : r ∈ before.map (·.polled receive) ++ stop.polled receive :: after :=
          List.mem_append_right _ (List.mem_cons_of_mem _ hr)
        have hsub : (handedTo r.listener.1 _).Sublist (expected receive C n r) :=
          handedTo_sublist n hapart.polled_stop hr'
        rw [ih (by omega) r hr, h n (by omega) r (hmem hr)] at hsub
        exact List.sublist_nil.1 hsub
    refine ⟨⟨fun r hr => hhead r (List.mem_append_left _ hr), hnone (N + 1) le_rfl⟩, ?_⟩
    intro n hn r hr
    simp only [List.mem_append, List.mem_map, List.mem_cons] at hr
    rcases hr with ⟨r, hr, rfl⟩ | rfl | hr
    · have hr := List.mem_append_left (stop :: after) hr
      rw [← expected_succ_of_none (hhead r hr)]
      exact h n hn r hr
    · have hr : stop ∈ before ++ stop :: after := List.mem_append_right _ List.mem_cons_self
      rw [← expected_succ_of_none (hhead stop hr)]
      exact h n hn stop hr
    · rw [h n hn r (hmem hr), hnone (n + 1) (by omega) r hr, hnone n (by omega) r hr]
  · rintro ⟨⟨hwanted, hnone⟩, h⟩ n hn r hr
    simp only [List.mem_append, List.mem_cons] at hr
    rcases hr with hr | rfl | hr
    · rw [expected_succ_of_none (hwanted r hr)]
      exact h n hn (r.polled receive) (List.mem_append_left _ (List.mem_map_of_mem hr))
    · rw [expected_succ_of_none (wanted_of_stops hstop)]
      exact h n hn (r.polled receive) (List.mem_append_right _ List.mem_cons_self)
    · have hnil (m : ℕ) (hm : m ≤ N + 1) : expected receive C m r = [] := by
        have hsub : (expected receive C m r).Sublist (expected receive C (N + 1) r) :=
          expected_mono hm r
        rw [hnone r hr] at hsub
        exact List.sublist_nil.1 hsub
      rw [h n hn r (List.mem_append_right _ (List.mem_cons_of_mem _ hr)), hnil n (by omega),
        hnil (n + 1) (by omega)]

theorem harmless_of_not_stops {registrations : List (ListenerRegistration Φ L σ)} (n : ℕ)
    (h : ∀ r ∈ registrations, ¬ Stops C (receive r.subscriber).1) :
    Harmless receive C n registrations := by
  rintro before stop after rfl - hstop
  exact absurd hstop (h stop (List.mem_append_right _ List.mem_cons_self))

/-- The first registration to stop a poll is told by its place. -/
theorem first_stop_unique : ∀ {before before' after after' : List (ListenerRegistration Φ L σ)}
    {stop stop' : ListenerRegistration Φ L σ}
    (_ : before ++ stop :: after = before' ++ stop' :: after')
    (_ : ∀ r ∈ before, ¬ Stops C (receive r.subscriber).1)
    (_ : ∀ r ∈ before', ¬ Stops C (receive r.subscriber).1)
    (_ : Stops C (receive stop.subscriber).1) (_ : Stops C (receive stop'.subscriber).1),
    before = before' ∧ stop = stop' ∧ after = after'
  | [], [], _, _, _, _, h, _, _, _, _ => by
    obtain ⟨rfl, rfl⟩ := List.cons.inj h
    exact ⟨rfl, rfl, rfl⟩
  | [], r :: before', _, _, _, _, h, _, hbefore', hstop, _ => by
    obtain ⟨rfl, -⟩ := List.cons.inj h
    exact absurd hstop (hbefore' _ List.mem_cons_self)
  | r :: before, [], _, _, _, _, h, hbefore, _, _, hstop' => by
    obtain ⟨rfl, -⟩ := List.cons.inj h
    exact absurd hstop' (hbefore _ List.mem_cons_self)
  | r :: before, r' :: before', _, _, _, _, h, hbefore, hbefore', hstop, hstop' => by
    obtain ⟨rfl, htail⟩ := List.cons.inj h
    obtain ⟨rfl, rfl, rfl⟩ := first_stop_unique htail (List.forall_mem_cons.1 hbefore).2
      (List.forall_mem_cons.1 hbefore').2 hstop hstop'
    exact ⟨rfl, rfl, rfl⟩

theorem harmless_of_stops {n : ℕ} {before after : List (ListenerRegistration Φ L σ)}
    {stop : ListenerRegistration Φ L σ} (hstop : Stops C (receive stop.subscriber).1)
    (hbefore : ∀ r ∈ before, ¬ Stops C (receive r.subscriber).1) :
    Harmless receive C n (before ++ stop :: after) ↔
      (∀ r ∈ before, wanted C r.filters (receive r.subscriber).1 = none) ∧
        ∀ r ∈ after, expected receive C n r = [] := by
  constructor
  · exact fun h => h before stop after rfl hbefore hstop
  · rintro h before' stop' after' heq hbefore' hstop'
    obtain ⟨rfl, rfl, rfl⟩ := first_stop_unique heq hbefore hbefore' hstop hstop'
    exact h

theorem delivered_iff_of_apart : ∀ (N : ℕ)
    {registrations : List (ListenerRegistration Φ (ℕ × L) σ)} (_ : Apart registrations),
    Delivered receive C N registrations ↔
      ∀ k < N, Harmless receive C (N - k) (listenerRounds receive C k registrations).2
  | 0, registrations, _ => by
    refine iff_of_true (fun n hn r _ => ?_) (by simp)
    obtain rfl : n = 0 := by omega
    rfl
  | N + 1, registrations, hapart => by
    have hlater : (∀ k < N + 1,
        Harmless receive C (N + 1 - k) (listenerRounds receive C k registrations).2) ↔
        Harmless receive C (N + 1) registrations ∧ ∀ k < N, Harmless receive C (N - k)
          (listenerRounds receive C k (listenerRound receive C registrations).2).2 := by
      rw [Nat.forall_lt_succ_left]
      simp only [Nat.add_sub_add_right]
      rfl
    rw [hlater]
    rcases stops_cases receive C registrations with
      hnot | ⟨before, stop, after, rfl, hbefore, hstop⟩
    · rw [delivered_of_not_stops hapart hnot, delivered_iff_of_apart N hapart.map_polled,
        listenerRound_of_not_stops hnot]
      exact (and_iff_right (harmless_of_not_stops _ hnot)).symm
    · rw [delivered_of_stops hapart hstop hbefore, delivered_iff_of_apart N hapart.polled_stop,
        listenerRound_of_stops hstop hbefore, harmless_of_stops hstop hbefore]

/-- Every listener is handed, turn after turn, exactly the matches its own subscription returns, in
order, exactly when no turn is stopped at the cost of another listener's match. -/
theorem listener_delivery (receive : σ → Except Fault S × σ) (C : FrameCodec Φ S F)
    (registrations : List (ListenerRegistration Φ L σ)) (N : ℕ) :
    Delivered receive C N (numbered registrations) ↔
      ∀ k < N, Harmless receive C (N - k) (listenerRounds receive C k (numbered registrations)).2 :=
  delivered_iff_of_apart N (numbered_apart registrations)

end Delivery

end Apart

/-- A subscription that returns these results and then finds nothing. -/
def plainReceive : List (Except Fault (List UInt8)) →
    Except Fault (List UInt8) × List (Except Fault (List UInt8))
  | [] => (.error (failWithCode .NOT_FOUND "no sample"), [])
  | result :: results => (result, results)

/-- Two listeners for the topic `a`: the one has a sample of it, the other's subscription fails. -/
def plainListeners : List (ListenerRegistration (Filters plainUpRust) Bool
    (List (Except Fault (List UInt8)))) :=
  [⟨filtersA, true, [.ok sampleA]⟩,
    ⟨filtersA, false, [.error (failWithCode .INTERNAL "no proxy")]⟩]

/-- The sample that was taken for the first listener is handed to nobody. -/
theorem listener_delivery_stopped :
    ¬ Delivered plainReceive plainFrames 1 (numbered plainListeners) := by
  intro h
  have happart := numbered_apart plainListeners
  have hsplit : numbered plainListeners = [⟨filtersA, (0, true), [.ok sampleA]⟩] ++
      ⟨filtersA, (1, false), [.error (failWithCode .INTERNAL "no proxy")]⟩ :: [] := rfl
  rw [hsplit] at h happart
  have hwanted := ((delivered_of_stops happart ?_ ?_).1 h).1.1 _ List.mem_cons_self
  · have hmatch : plainFrames.matchesFilter filtersA leaseA = true := frameMatches_plain.1
    have hdecode : plainFrames.decode sampleA = .ok leaseA := fromSample_sampleA
    simp only [plainReceive, wanted, hdecode, hmatch, if_pos] at hwanted
    cases hwanted
  · exact fun hcode => by cases hcode
  · intro r hr
    rw [List.mem_singleton.1 hr]
    rintro ⟨e, he⟩
    cases fromSample_sampleA.symm.trans he

end LolaTransport
