import LolaTransport.EventListeners
import LolaTransport.Proofs.ListenerHosts
import LolaTransport.Proofs.NativePull
import LolaTransport.Proofs.PlainFrames
import LolaTransport.Proofs.SubscriptionOrder

/-!
# From an event to its listeners

What S-CORE has for a subscriber are samples sent, in their order (`Subscribed`), and polls take
them from there.  So each registration is handed matches of the samples sent, in the order they were
sent and each at most once for each of its subscriptions (`callbacks_of_sent`).
-/

namespace LolaTransport

variable {Φ S F L γ σ : Type}

namespace NativeFeed

/-- The samples that S-CORE has for the subscriber, as they were sent. -/
def samples (x : NativeFeed) : List (ℕ × List UInt8) :=
  x.undelivered.map fun sample => (sample.1, sample.2.bytes)

theorem asSlice_received {sample : NativeRxSample} {pool : Bridge.RxSamplePool}
    {x received : ℕ × Bridge.SamplePtr} {size : ℕ} (h : Received pool sample.sample x size)
    (hslice : sample.asSlice pool = .ok received) : received = x := by
  obtain ⟨slot, hslot, -, -, hcontent⟩ := h
  unfold NativeRxSample.asSlice at hslice
  rw [hslot, Option.bind_some, hcontent] at hslice
  split at hslice
  · cases hslice
  · cases hslice
    rfl

theorem receive_cases (x : NativeFeed) :
    (∃ sample, x.receive.1 = .ok sample ∧ x.samples = sample :: x.receive.2.samples) ∨
      ∃ e, x.receive.1 = .error e ∧ x.receive.2.samples <:+ x.samples := by
  unfold receive samples
  rcases hreceive : x.native.receive x.found x.works x.undelivered with
    ⟨received, undelivered, native⟩
  rcases nativeReceive_cases hreceive with
    ⟨e, rfl, hrest, -⟩ | ⟨first, sample, size, rfl, hrest, -, hreceived⟩
  · refine .inr ⟨e, rfl, ?_⟩
    rcases hrest with hsame | ⟨first, hrest⟩
    · rw [← hsame]
    · rw [hrest]
      exact List.suffix_cons _ _
  · rw [hrest]
    show (∃ s, Except.map _ (sample.asSlice native.subscriber.rxPool) = .ok s ∧ _) ∨
      ∃ e, Except.map _ (sample.asSlice native.subscriber.rxPool) = .error e ∧ _
    cases hslice : sample.asSlice native.subscriber.rxPool with
    | error e => exact .inr ⟨e, rfl, List.suffix_cons _ _⟩
    | ok received =>
      obtain rfl := asSlice_received hreceived hslice
      exact .inl ⟨_, rfl, rfl⟩

/-- What `NativeSubscriber` does is what is assumed of subscribers. -/
def feed : Feed (ℕ × List UInt8) NativeChange NativeFeed where
  receive := receive
  undelivered := samples
  deliver := deliver
  change c x := x.change c
  receive_ok := by
    intro x sample x' h
    rcases receive_cases x with ⟨sample', hok, hsamples⟩ | ⟨e, herror, -⟩
    · rw [h] at hok hsamples
      obtain rfl := Except.ok.inj hok
      exact hsamples
    · rw [h] at herror
      simp at herror
  receive_error := by
    intro x e x' h
    rcases receive_cases x with ⟨sample', hok, -⟩ | ⟨e', -, hsuffix⟩
    · rw [h] at hok
      simp at hok
    · rw [h] at hsuffix
      exact hsuffix
  undelivered_deliver := by
    intro sample x
    exact List.map_append
  undelivered_change := by
    intro c x
    cases c <;> rfl

end NativeFeed

namespace EventListeners

/-- The delivery with which an action starts a call to `on_receive_zero_copy`. -/
def started (s : EventListeners Φ S F L σ) : EventListenersAction Φ S L γ σ → List (L × (ℕ × F))
  | .listen a => s.listening.started a
  | _ => []

/-- With this action a task starts while another still polls. -/
def Doubles (s : EventListeners Φ S F L σ) : EventListenersAction Φ S L γ σ → Prop
  | .listen a => s.listening.Doubles a
  | _ => False

variable [DecidableEq Φ] [DecidableEq L] {feed : Feed (ℕ × S) γ σ} {C : FrameCodec Φ S F}

section Steps

variable {s s' : EventListeners Φ S F L σ} {a : EventListenersAction Φ S L γ σ}

inductive StepCase (feed : Feed (ℕ × S) γ σ) (C : FrameCodec Φ S F)
    (s : EventListeners Φ S F L σ) :
    EventListenersAction Φ S L γ σ → EventListeners Φ S F L σ → Prop
  | sent (sample : S) :
      StepCase feed C s (.send sample) { s with sent := s.sent ++ [(s.sent.length, sample)] }
  | delivered {i j r sample} (hr : s.listening.listeners[i]? = some r)
      (hj : s.sent[j]? = some sample) (hreached : r.subscriber.reached ≤ j) :
      StepCase feed C s (.deliver i j) (s.setSubscriber i r
        { subscriber := feed.deliver sample r.subscriber.subscriber, reached := j + 1 })
  | changed {i c r} (hr : s.listening.listeners[i]? = some r) :
      StepCase feed C s (.change i c) (s.setSubscriber i r
        { r.subscriber with subscriber := feed.change c r.subscriber.subscriber })
  | listened {a listening} (hfresh : a.subscribesAfresh feed = true)
      (h : s.listening.step .native (Subscribed.receive feed) C.numbered a = some listening) :
      StepCase feed C s (.listen a) { s with listening }

theorem step_cases (h : step feed C s a = some s') : StepCase feed C s a s' := by
  cases a with
  | send sample =>
    obtain rfl := Option.some.inj h
    exact .sent sample
  | deliver i j =>
    obtain ⟨r, hr, h⟩ := Option.bind_eq_some_iff.1 h
    obtain ⟨sample, hj, h⟩ := Option.bind_eq_some_iff.1 h
    by_cases hreached : r.subscriber.reached ≤ j
    · rw [if_pos hreached] at h
      obtain rfl := Option.some.inj h
      exact .delivered hr hj hreached
    · rw [if_neg hreached] at h
      cases h
  | change i c =>
    obtain ⟨r, hr, h⟩ := Option.bind_eq_some_iff.1 h
    obtain rfl := Option.some.inj h
    exact .changed hr
  | listen a =>
    simp only [step, Option.ite_none_right_eq_some, Option.map_eq_some_iff] at h
    obtain ⟨hfresh, listening, hlistening, rfl⟩ := h
    exact .listened hfresh hlistening

/-- The samples are numbered as they are sent. -/
theorem numbered_step (hs : s.sent.map Prod.fst = List.range s.sent.length)
    (h : step feed C s a = some s') : s'.sent.map Prod.fst = List.range s'.sent.length := by
  cases step_cases h with
  | sent sample =>
    rw [List.map_append, hs, List.length_append, List.length_singleton, List.range_succ]
    rfl
  | delivered | changed | listened => exact hs

theorem sent_isPrefix (h : step feed C s a = some s') : s.sent <+: s'.sent := by
  cases step_cases h with
  | sent sample => exact List.prefix_append _ _
  | delivered | changed | listened => exact List.prefix_rfl

end Steps

end EventListeners

namespace EventListenersAction

/-- What the listeners do with an action. -/
def listened : EventListenersAction Φ S L γ σ →
    Option (ListenerAction Φ (ℕ × S) L (Subscribed σ))
  | .listen a => some a
  | _ => none

def labelled : EventListenersAction Φ S L γ σ → EventListenersAction Φ S (Φ × L) γ σ
  | .send sample => .send sample
  | .deliver i j => .deliver i j
  | .change i c => .change i c
  | .listen a => .listen a.labelled

end EventListenersAction

namespace EventListeners

/-- Without the labels. -/
def unlabelled (s : EventListeners Φ S F (Φ × L) σ) : EventListeners Φ S F L σ :=
  ⟨s.sent, s.listening.unlabelled⟩

variable {s s' : EventListeners Φ S F (Φ × L) σ} {a : EventListenersAction Φ S L γ σ}

theorem unlabelled_setSubscriber (i : ℕ) (r : ListenerRegistration Φ (Φ × L) (Subscribed σ))
    (x : Subscribed σ) : (s.setSubscriber i r x).unlabelled =
      s.unlabelled.setSubscriber i (r.mapListener Prod.snd) x := by
  simp [unlabelled, setSubscriber, ListenerState.unlabelled, ListenerState.mapListener,
    List.map_set, ListenerRegistration.mapListener]

variable [DecidableEq Φ] [DecidableEq L] {feed : Feed (ℕ × S) γ σ} {C : FrameCodec Φ S F}

theorem step_unlabelled (hs : s.listening.Labelled) (a : EventListenersAction Φ S L γ σ) :
    step feed C s.unlabelled a = (step feed C s a.labelled).map (·.unlabelled) := by
  have hlisteners (i : ℕ) : s.unlabelled.listening.listeners[i]? =
      (s.listening.listeners[i]?).map (·.mapListener Prod.snd) := List.getElem?_map
  cases a with
  | send => rfl
  | deliver i j =>
    simp only [step, EventListenersAction.labelled, hlisteners]
    cases hr : s.listening.listeners[i]? with
    | none => rfl
    | some r =>
      show (s.sent[j]?).bind _ = Option.map _ ((s.sent[j]?).bind _)
      cases s.sent[j]? with
      | none => rfl
      | some sample =>
        show (if r.subscriber.reached ≤ j then some _ else none) =
          Option.map _ (if r.subscriber.reached ≤ j then some _ else none)
        by_cases hreached : r.subscriber.reached ≤ j
        · rw [if_pos hreached, if_pos hreached]
          exact congrArg some (unlabelled_setSubscriber i r _).symm
        · rw [if_neg hreached, if_neg hreached]
          rfl
  | change i c =>
    simp only [step, EventListenersAction.labelled, hlisteners]
    cases hr : s.listening.listeners[i]? with
    | none => rfl
    | some r => exact congrArg some (unlabelled_setSubscriber i r _).symm
  | listen a =>
    have hfresh : a.labelled.subscribesAfresh feed = a.subscribesAfresh feed := by
      cases a with
      | advance c created runtime => cases created <;> rfl
      | _ => rfl
    have hstep : ListenerState.step .native (Subscribed.receive feed) C.numbered
          s.listening.unlabelled a =
        (ListenerState.step .native (Subscribed.receive feed) C.numbered s.listening
          a.labelled).map (·.unlabelled) := ListenerState.step_unlabelled hs a
    simp only [step, EventListenersAction.labelled, hfresh]
    by_cases h : a.subscribesAfresh feed = true
    · rw [if_pos h, if_pos h, Option.map_map]
      show Option.map _ (ListenerState.step _ _ _ s.listening.unlabelled a) = _
      rw [hstep, Option.map_map]
      rfl
    · rw [if_neg h, if_neg h]
      rfl

omit [DecidableEq Φ] [DecidableEq L] in
theorem quiet_setSubscriber {K : Type} {s : EventListeners Φ S F K σ} {i : ℕ}
    {r : ListenerRegistration Φ K (Subscribed σ)} (hr : s.listening.listeners[i]? = some r)
    (x : Subscribed σ) :
    s.listening.Quiet (s.setSubscriber i r x).listening := by
  refine ⟨List.ext_getElem? fun k => ?_, rfl, rfl, rfl⟩
  rw [setSubscriber, List.getElem?_map, List.getElem?_map, List.getElem?_set_of_some hr]
  split_ifs with hk
  · rw [hk, hr]
    rfl
  · rfl

theorem hosts {K : Type} [DecidableEq K] :
    ListenerState.Hosts .native (Subscribed.receive feed) C.numbered (step feed C)
      (fun s : EventListeners Φ S F K σ => s.listening) EventListenersAction.listened where
  quiet := by
    intro s a s' ha h
    cases a with
    | send =>
      cases step_cases h with
      | sent => exact ⟨rfl, rfl, rfl, rfl⟩
    | deliver =>
      cases step_cases h with
      | delivered hr => exact quiet_setSubscriber hr _
    | change =>
      cases step_cases h with
      | changed hr => exact quiet_setSubscriber hr _
    | listen => simp [EventListenersAction.listened] at ha
  acts := by
    intro s a s' b ha h
    cases a with
    | listen =>
      obtain rfl := Option.some.inj ha
      cases step_cases h with
      | listened hfresh hlisten => exact hlisten
    | _ => simp [EventListenersAction.listened] at ha

theorem labelled_hosts : ListenerState.Hosts .native (Subscribed.receive feed) C.numbered
    (fun (s : EventListeners Φ S F (Φ × L) σ) (a : EventListenersAction Φ S L γ σ) =>
      step feed C s a.labelled) (·.listening) fun a => a.labelled.listened :=
  hosts.comp EventListenersAction.labelled

omit [DecidableEq Φ] [DecidableEq L] in
theorem labels : ListenerState.Labels
    fun a : EventListenersAction Φ S L γ σ => a.labelled.listened := by
  intro a b h
  cases a with
  | listen a => exact ⟨a, (Option.some.inj h).symm⟩
  | _ => simp [EventListenersAction.labelled, EventListenersAction.listened] at h

section Fed

/-- What S-CORE has for the subscriber of a registration. -/
def fedFor (feed : Feed (ℕ × S) γ σ) (id : Φ × L) (s : EventListeners Φ S F (Φ × L) σ) :
    Option (Run.Fed (ℕ × S)) :=
  (ListenerState.subscriberOf id s.listening.listeners).map fun x =>
    ⟨feed.undelivered x.subscriber, x.reached⟩

theorem subscriberOf_set {listeners : List (ListenerRegistration Φ (Φ × L) σ)} {i : ℕ}
    {r : ListenerRegistration Φ (Φ × L) σ} (hr : listeners[i]? = some r)
    (hnodup : (listeners.map (·.listener)).Nodup) (x : σ) (id : Φ × L) :
    ListenerState.subscriberOf id (listeners.set i { r with subscriber := x }) =
      if r.listener = id then some x else ListenerState.subscriberOf id listeners := by
  obtain ⟨hlt, rfl⟩ := List.getElem?_eq_some_iff.1 hr
  have hlist : listeners = listeners.take i ++ listeners[i] :: listeners.drop (i + 1) := by
    rw [List.getElem_cons_drop, List.take_append_drop]
  rw [List.set_eq_take_append_cons_drop, if_pos hlt]
  by_cases hid : listeners[i].listener = id
  · rw [hlist, List.map_append, List.map_cons, List.nodup_middle] at hnodup
    rw [if_pos hid, ← hid]
    refine ListenerState.subscriberOf_middle (r := { listeners[i] with subscriber := x })
      fun hmem => (List.nodup_cons.1 hnodup).1 (List.mem_append_left _ hmem)
  · rw [if_neg hid]
    conv_rhs => rw [hlist, ListenerState.subscriberOf_removed hid]
    exact ListenerState.subscriberOf_removed (r := { listeners[i] with subscriber := x }) hid

theorem subscriberOf_of_getElem? {listeners : List (ListenerRegistration Φ (Φ × L) σ)} {i : ℕ}
    {r : ListenerRegistration Φ (Φ × L) σ} (hr : listeners[i]? = some r)
    (hnodup : (listeners.map (·.listener)).Nodup) :
    ListenerState.subscriberOf r.listener listeners = some r.subscriber := by
  have hset := subscriberOf_set hr hnodup r.subscriber r.listener
  rw [if_pos rfl] at hset
  obtain ⟨hlt, rfl⟩ := List.getElem?_eq_some_iff.1 hr
  rwa [List.set_getElem_self] at hset

omit [DecidableEq Φ] [DecidableEq L] in
/-- A poll takes what S-CORE has for the subscriber first. -/
theorem fed_asks (feed : Feed (ℕ × S) γ σ) (C : FrameCodec Φ S F) (filters : Φ)
    (log : List (ℕ × S)) {τ : Type} (x : Subscribed σ) :
    Run.FedStep (fun sample => wanted C.numbered filters (.ok sample)) log
      (some ⟨feed.undelivered x.subscriber, x.reached⟩)
      (some ⟨feed.undelivered (x.receive feed).2.subscriber, (x.receive feed).2.reached⟩)
      ([] : List τ) (ListenerState.asks (Subscribed.receive feed) C.numbered filters x).1 := by
  unfold ListenerState.asks Subscribed.receive
  rcases hreceive : feed.receive x.subscriber with ⟨e | sample, x'⟩
  · obtain ⟨lost, hlost⟩ := feed.receive_error hreceive
    rw [← hlost]
    exact .took (List.nil_sublist _)
  · rw [feed.receive_ok hreceive]
    show Run.FedStep _ _ (some ⟨[sample] ++ feed.undelivered x', _⟩) _ _ _
    refine .took ?_
    rw [List.filterMap_cons]
    cases wanted C.numbered filters (.ok sample) <;> simp

/-- The subscriber that a register call adds for this registration. -/
def subscribed (id : Φ × L) (s : EventListeners Φ S F (Φ × L) σ) :
    EventListenersAction Φ S (Φ × L) γ σ → List (Subscribed σ)
  | .listen a => s.listening.subscribed id a
  | _ => []

/-- S-CORE has nothing yet for a subscriber that is added. -/
theorem subscribed_fresh {b : ListenerAction Φ (ℕ × S) (Φ × L) (Subscribed σ)} {id : Φ × L}
    (hfresh : b.subscribesAfresh feed = true) {x : Subscribed σ}
    (hx : x ∈ s.listening.subscribed id b) :
    x.reached = 0 ∧ feed.undelivered x.subscriber = [] := by
  unfold ListenerState.subscribed at hx
  split at hx
  · rename_i c created runtime
    split at hx
    · rename_i filters listener hc
      cases hregister : registerListener filters listener created s.listening.listeners with
      | error e => simp [hregister] at hx
      | ok listeners =>
        obtain ⟨-, subscriber, rfl, rfl⟩ := registerListener_eq_ok.1 hregister
        simp only [hregister, List.drop_left, ListenerState.subscriberOf_cons] at hx
        simp only [ListenerAction.subscribesAfresh, Bool.and_eq_true, decide_eq_true_eq,
          List.isEmpty_iff] at hfresh
        split_ifs at hx
        · obtain rfl : x = subscriber := by simpa using hx
          exact hfresh
        · simp [ListenerState.subscriberOf] at hx
    · simp at hx
  · simp at hx

/-- What becomes of one subscriber is nothing to the others. -/
theorem fed_setSubscriber {i : ℕ} {r : ListenerRegistration Φ (Φ × L) (Subscribed σ)}
    (hr : s.listening.listeners[i]? = some r)
    (hnodup : (s.listening.listeners.map (·.listener)).Nodup) (x : Subscribed σ) (id : Φ × L)
    {τ : Type} {pick : ℕ × S → Option (ℕ × F)}
    (hstep : Run.FedStep pick s.sent
      (some ⟨feed.undelivered r.subscriber.subscriber, r.subscriber.reached⟩)
      (some ⟨feed.undelivered x.subscriber, x.reached⟩) ([] : List τ) []) :
    Run.FedStep pick s.sent (fedFor feed id s) (fedFor feed id (s.setSubscriber i r x))
      ([] : List τ) [] := by
  unfold fedFor setSubscriber
  rw [subscriberOf_set hr hnodup]
  by_cases hid : r.listener = id
  · rw [if_pos hid, ← hid, subscriberOf_of_getElem? hr hnodup]
    exact hstep
  · rw [if_neg hid]
    exact .same _

theorem fed_step (hs : ListenerState.Traced C.numbered s.listening) (id : Φ × L)
    (h : step feed C s a.labelled = some s') :
    Run.FedStep (fun sample => wanted C.numbered id.1 (.ok sample)) s.sent (fedFor feed id s)
      (fedFor feed id s') (s.subscribed id a.labelled)
      (ListenerState.hosted (·.listening) (·.labelled.listened)
        (ListenerState.taken .native (Subscribed.receive feed) C.numbered id) s a) := by
  have hnodup := ListenerState.nodup_listeners hs.labelled hs.nodup
  cases a with
  | send =>
    cases step_cases h with
    | sent => exact .same _
  | deliver i j =>
    cases step_cases h with
    | @delivered _ _ r sample hr hj hreached =>
      refine fed_setSubscriber hr hnodup _ id ?_
      show Run.FedStep _ _ _ (some ⟨feed.undelivered (feed.deliver _ _), _⟩) _ _
      rw [feed.undelivered_deliver]
      exact .fed hj hreached
  | change i c =>
    cases step_cases h with
    | changed hr =>
      refine fed_setSubscriber hr hnodup _ id ?_
      show Run.FedStep _ _ _ (some ⟨feed.undelivered (feed.change _ _), _⟩) _ _
      rw [feed.undelivered_change]
      exact .same _
  | listen b =>
    cases step_cases h with
    | @listened _ listening hfresh hlisten =>
      have hadded : ∀ x ∈ s.listening.subscribed id b.labelled,
          x.reached = 0 ∧ feed.undelivered x.subscriber = [] :=
        fun x hx => subscribed_fresh hfresh hx
      have hsource : Run.SourceStep (ListenerState.asks (Subscribed.receive feed) C.numbered id.1)
          (ListenerState.subscriberOf id s.listening.listeners)
          (ListenerState.subscriberOf id listening.listeners)
          (s.listening.subscribed id b.labelled)
          (s.listening.taken .native (Subscribed.receive feed) C.numbered id b.labelled) :=
        ListenerState.source_step hs.labelled hs.nodup hlisten
      unfold fedFor
      show Run.FedStep _ _ _ _ (s.listening.subscribed id b.labelled)
        (s.listening.taken .native (Subscribed.receive feed) C.numbered id b.labelled)
      generalize s.listening.subscribed id b.labelled = added,
        s.listening.taken .native (Subscribed.receive feed) C.numbered id b.labelled = taken,
        ListenerState.subscriberOf id s.listening.listeners = before,
        ListenerState.subscriberOf id listening.listeners = after at hadded hsource ⊢
      cases hsource with
      | same => exact .same _
      | asked x => exact fed_asks feed C id.1 s.sent x
      | closed x => exact .closed _
      | opened x =>
        obtain ⟨hreached, hundelivered⟩ := hadded x (List.mem_singleton.2 rfl)
        rw [Option.map_none, Option.map_some, hreached, hundelivered]
        exact .opened x

end Fed

section Runs

omit [DecidableEq Φ] [DecidableEq L] in
theorem traced_init (C : FrameCodec Φ S F) :
    ListenerState.Traced C.numbered ({} : EventListeners Φ S F (Φ × L) σ).listening :=
  ListenerState.traced_init

theorem exec_unlabelled (actions : List (EventListenersAction Φ S L γ σ)) :
    Run.exec (step feed C) {} actions = (Run.exec (step feed C)
      ({} : EventListeners Φ S F (Φ × L) σ) (actions.map (·.labelled))).map (·.unlabelled) :=
  Run.exec_view (fun _ _ _ hs hstep => labelled_hosts.traced_step labels hs hstep)
    (fun _ a hs => step_unlabelled (ListenerState.Traced.labelled hs) a) actions (traced_init C)

theorem outputs_started_unlabelled (actions : List (EventListenersAction Φ S L γ σ)) :
    Run.outputs (step feed C) started {} actions = mapDeliveries Prod.snd
      (Run.outputs (step feed C) started ({} : EventListeners Φ S F (Φ × L) σ)
        (actions.map (·.labelled))) := by
  refine Run.outputs_view _ (fun _ _ _ hs hstep => labelled_hosts.traced_step labels hs hstep)
    (fun _ a hs => step_unlabelled (ListenerState.Traced.labelled hs) a) (fun s a => ?_) actions
    (traced_init C)
  cases a with
  | listen => exact ListenerState.started_unlabelled
  | _ => rfl

omit [DecidableEq Φ] [DecidableEq L] in
theorem doubles_hosted
    (h : ListenerState.HostedDoubles (·.listening) (·.labelled.listened) s a) :
    s.unlabelled.Doubles a := by
  obtain ⟨b, hb, hdoubles⟩ := h
  cases a with
  | listen =>
    obtain rfl := Option.some.inj hb
    exact ListenerState.doubles_unlabelled hdoubles
  | _ => simp [EventListenersAction.labelled, EventListenersAction.listened] at hb

/-- As long as one task polls at a time, each registration is handed matches of samples sent, in the
order they were sent and each at most once; one that is registered again, for each of its
subscriptions. -/
theorem callbacks_of_sent {actions : List (EventListenersAction Φ S L γ σ)}
    {s : EventListeners Φ S F L σ} (h : Run.exec (step feed C) {} actions = some s)
    (hsingle : ∀ before a after u, actions = before ++ a :: after →
      Run.exec (step feed C) {} before = some u → ¬ u.Doubles a) :
    (s.sent.map Prod.fst).Nodup ∧
    Run.outputs (step feed C) started {} actions = mapDeliveries Prod.snd
      (Run.outputs (step feed C) started {} (actions.map (·.labelled))) ∧
    ∀ id : Φ × L, ∃ delivered : List (List (ℕ × S)),
      delivered.length = (Run.outputs (step feed C) (subscribed id)
        ({} : EventListeners Φ S F (Φ × L) σ) (actions.map (·.labelled))).length ∧
      (∀ samples ∈ delivered, samples.Sublist s.sent) ∧
      (framesFor id (Run.outputs (step feed C) started {} (actions.map (·.labelled)))).Sublist
        (delivered.flatten.filterMap fun sample => wanted C.numbered id.1 (.ok sample)) := by
  have hnumbered : s.sent.map Prod.fst = List.range s.sent.length :=
    Run.exec_keeps (I := fun s : EventListeners Φ S F L σ =>
      s.sent.map Prod.fst = List.range s.sent.length) (fun _ _ _ => numbered_step) rfl h
  obtain ⟨s', hs', rfl⟩ := Option.map_eq_some_iff.1 ((exec_unlabelled actions).symm.trans h)
  rw [Run.exec_map] at hs'
  refine ⟨hnumbered ▸ List.nodup_range, outputs_started_unlabelled actions, fun id => ?_⟩
  obtain ⟨-, first, delivered, hlength, hfirst, hdelivered, htaken⟩ :=
    Run.outputs_fed (fun s : EventListeners Φ S F (Φ × L) σ => s.sent) (fedFor feed id)
      (fun s a s' hs hstep => ⟨labelled_hosts.traced_step labels hs hstep, sent_isPrefix hstep,
        fed_step hs id hstep⟩) (traced_init C) hs'
  obtain rfl : first = [] := hfirst
  refine ⟨delivered, ?_, hdelivered, ?_⟩
  · rw [hlength, Run.outputs_map]
  · have hstarted : (fun (s : EventListeners Φ S F (Φ × L) σ)
        (a : EventListenersAction Φ S L γ σ) => s.started a.labelled) =
          ListenerState.hosted (·.listening) (·.labelled.listened)
            ListenerState.started := by
      funext s a
      cases a <;> rfl
    rw [Run.outputs_map, hstarted]
    refine (labelled_hosts.handed_sublist labels rfl hs'
      (fun before a after u heq hu hdoubles => ?_) id).trans htaken
    rw [← Run.exec_map] at hu
    refine hsingle before a after u.unlabelled heq ?_ (doubles_hosted hdoubles)
    exact (exec_unlabelled before).trans (congrArg _ hu)

end Runs

/-- Listeners of native subscribers, over leases. -/
abbrev Plain (L : Type) : Type :=
  EventListeners (Filters plainUpRust) (List UInt8) (LolaRxLease plainUpRust) L NativeFeed

abbrev PlainAction (L : Type) : Type :=
  EventListenersAction (Filters plainUpRust) (List UInt8) L NativeChange NativeFeed

def plainStep {L : Type} [DecidableEq L] : Plain L → PlainAction L → Option (Plain L) :=
  step NativeFeed.feed plainFrames

/-- A subscriber of two samples, which S-CORE has the service for. -/
def plainCreated : Except Fault (Subscribed NativeFeed) :=
  (NativeSubscriber.new .Ok (plainConfig 2 1 .DropOldestAndReport)).map fun native =>
    { subscriber := { native, found := .Ok, works := true, address := 64 } }

/-- Samples are sent while a listener is registered for the topic `a`. -/
def plainSubscribing : List (PlainAction ℕ) :=
  [.listen (.call .register filtersA 0), .send sampleA, .send sampleB,
    .listen (.advance 0 plainCreated (.ok ())), .send sampleA,
    .listen (.advance 0 plainCreated (.ok ()))]

/-- It gets the last two of them, and its task takes these one after the other. -/
def plainDelivering : List (PlainAction ℕ) :=
  [.deliver 0 1, .deliver 0 2, .listen (.run 0), .listen (.run 0), .listen (.run 0),
    .listen (.run 0), .listen (.run 0), .listen (.run 0), .listen (.run 0)]

def plainRun : List (PlainAction ℕ) := plainSubscribing ++ plainDelivering

theorem plainRun_registersOnly : ∀ a ∈ plainRun, ∀ b, a.listened = some b →
    ListenerState.RegistersOnly b := by
  unfold plainRun plainSubscribing plainDelivering
  simp [EventListenersAction.listened, ListenerState.RegistersOnly]

/-- The sample of the other topic is passed over. -/
theorem callbacks_of_sent_plain :
    Run.outputs plainStep started {} plainRun = [(0, (2, leaseA))] ∧
    ∃ delivered : List (List (ℕ × List UInt8)),
      delivered.length = (Run.outputs plainStep (subscribed (filtersA, 0)) {}
        (plainRun.map (·.labelled))).length ∧
      (∀ samples ∈ delivered, samples.Sublist [(0, sampleA), (1, sampleB), (2, sampleA)]) ∧
      (framesFor (filtersA, 0) (Run.outputs plainStep started {}
        (plainRun.map (·.labelled)))).Sublist (delivered.flatten.filterMap fun sample =>
          wanted plainFrames.numbered filtersA (.ok sample)) := by
  obtain ⟨s, hs, hsent⟩ := Option.map_eq_some_iff.1
    (rfl : (Run.exec plainStep {} plainRun).map (·.sent) =
      some [(0, sampleA), (1, sampleB), (2, sampleA)])
  refine ⟨rfl, ?_⟩
  have h := (callbacks_of_sent hs fun before a after u heq hu hdoubles => ?_).2.2 (filtersA, 0)
  · rw [hsent] at h
    exact h
  · refine hosts.not_doubles_of_registersOnly rfl plainRun_registersOnly before a after u heq hu ?_
    cases a with
    | listen b => exact ⟨b, rfl, hdoubles⟩
    | _ => exact hdoubles.elim

end EventListeners

end LolaTransport
