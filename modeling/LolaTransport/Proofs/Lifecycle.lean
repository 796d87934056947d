import LolaTransport.Lib.Run
import LolaTransport.Lib.Window
import LolaTransport.Lifecycle
import LolaTransport.Proofs.PlainFrames

/-!
# The bridge leaves nothing of S-CORE over

Between two calls a transport or a subscriber has a proxy exactly when it is subscribed, and its
event pointer points there: whatever fails in discovery takes back what had been made
(`Receiving.Coherent.ensureProxyLocked`).  So in every history the bridge uses no proxy and no
skeleton that is gone, unsubscribes and stops what it destroys, and has no others left than those of
the transports and the subscribers that there are (`objects_accounted`).  Releases of loans and of
leases are not in these histories.  A receive comes to the first answer of discovery that fails,
until in one of them none does (`receive_discovered`), and of the runtime configurations the first
one counts (`runtime_initialized_once`).
-/

namespace LolaTransport.Lifecycle

open Objects

variable {answers : Answers} {config : LolaTransportConfig} {s s' : Process}
  {proxies proxies' skeletons : Ledger} {status : UpLolaStatusCode} {r r' : Receiving}
  {others : List ℕ}

/-! ## Discovery -/

/-- The event pointer points into the proxy there is, whose event is subscribed to. -/
structure Receiving.Coherent (r : Receiving) : Prop where
  event : r.proxyEvent = r.proxy
  subscribed : r.subscribed = r.proxy.isSome

theorem coherent_ofConfig (config : LolaTransportConfig) : (Receiving.ofConfig config).Coherent :=
  ⟨rfl, rfl⟩

theorem Receiving.Coherent.ensureProxyLocked_subscribed {x : ℕ} (hr : r.Coherent)
    (hx : r.proxy = some x) :
    r.ensureProxyLocked answers proxies = (.Ok, proxies, r) := by
  unfold Receiving.ensureProxyLocked
  rw [hr.subscribed, hr.event, hx]
  rfl

/-- Unless discovery comes to a subscription, it leaves the endpoint as it was, and no proxy. -/
theorem Receiving.Coherent.ensureProxyLocked (hr : r.Coherent)
    (hproxies : proxies.Settled (r.proxy.toList ++ others))
    (h : r.ensureProxyLocked answers proxies = (status, proxies', r')) :
    r'.Coherent ∧ proxies'.Settled (r'.proxy.toList ++ others) ∧
      (status = .Ok → r'.subscribed = true) ∧ (status ≠ .Ok → r' = r) := by
  cases hx : r.proxy with
  | some x =>
    rw [hr.ensureProxyLocked_subscribed hx] at h
    cases h
    exact ⟨hr, hproxies, fun _ => by rw [hr.subscribed, hx]; rfl, fun hne => absurd rfl hne⟩
  | none =>
    obtain ⟨name, event, max, proxy, proxyEvent, subscribed⟩ := r
    obtain ⟨hevent, hsubscribed⟩ := hr
    dsimp only at hx hevent hsubscribed
    subst hx hevent hsubscribed
    have hsettled : proxies.Settled others := hproxies
    -- Whatever fails, the endpoint has no proxy again, and the ledger none of it.
    have hback {made : Ledger} {e : UpLolaStatusCode} (hmade : made.Settled others) (he : e ≠ .Ok)
        (hresult : (e, made, Receiving.mk name event max none none false) =
          (status, proxies', r')) :
        r'.Coherent ∧ proxies'.Settled (r'.proxy.toList ++ others) ∧
          (status = .Ok → r'.subscribed = true) ∧
          (status ≠ .Ok → r' = ⟨name, event, max, none, none, false⟩) := by
      cases hresult
      exact ⟨⟨rfl, rfl⟩, hmade, fun hok => absurd hok he, fun _ => rfl⟩
    unfold Receiving.ensureProxyLocked at h
    simp only [reset, Option.elim_none, Option.isSome_none, Ledger.inspect_make, Bool.false_and,
      Bool.false_eq_true, if_false, hsettled.tryOpen_make] at h
    split_ifs at h with hname
    · exact hback hsettled (by decide) h
    · split at h
      · exact hback hsettled (by decide) h
      · exact hback hsettled (by decide) h
      · split_ifs at h with hproxy hfound hopens
        · exact hback hsettled (by decide) h
        · exact hback hsettled.destroy_make (by decide) h
        · cases h
          exact ⟨⟨rfl, rfl⟩, hsettled.opened_make, fun _ => rfl, fun hne => absurd rfl hne⟩
        · exact hback hsettled.destroy_make (by decide) h

theorem Receiving.Coherent.receive (hr : r.Coherent)
    (hproxies : proxies.Settled (r.proxy.toList ++ others))
    (h : r.receive answers proxies = (status, proxies', r')) :
    r'.Coherent ∧ proxies'.Settled (r'.proxy.toList ++ others) ∧
      (status = .Ok → r'.subscribed = true) ∧ (status ≠ .Ok → r' = r) := by
  unfold Receiving.receive at h
  rcases hensure : r.ensureProxyLocked answers proxies with ⟨proxyStatus, ensured, r₁⟩
  obtain ⟨hcoherent, hsettled, hok, hfailed⟩ := hr.ensureProxyLocked hproxies hensure
  rw [hensure] at h
  dsimp only at h
  split_ifs at h with hstatus
  · cases h
    exact ⟨hcoherent, hsettled, hok, hfailed⟩
  · cases h
    obtain ⟨x, hx⟩ : ∃ x, r'.proxy = some x := by
      rw [← Option.isSome_iff_exists, ← hcoherent.subscribed]
      exact hok (not_not.1 hstatus)
    have hderef : deref r'.proxyEvent ensured = ensured := by
      rw [hcoherent.event, hx]
      exact hsettled.use_eq (by rw [hx]; exact List.mem_cons_self)
    rw [hderef]
    exact ⟨hcoherent, hsettled, fun _ => hok (not_not.1 hstatus), fun hne => absurd rfl hne⟩

/-- What is destroyed unsubscribes, and takes its proxy with it. -/
theorem Receiving.Coherent.destroy (hr : r.Coherent)
    (hproxies : proxies.Settled (r.proxy.toList ++ others)) :
    (r.delete (r.unsubscribe proxies)).Settled others := by
  unfold Receiving.delete Receiving.unsubscribe
  cases hx : r.proxy with
  | none =>
    rw [hx] at hproxies
    rw [hr.event, hx]
    exact hproxies
  | some x =>
    rw [hx] at hproxies
    rw [hr.event, hr.subscribed, hx]
    exact hproxies.relinquish

theorem createSkeleton_settled {result : Except UpLolaStatusCode ℕ} {skeletons' : Ledger}
    (hskeletons : skeletons.Settled others)
    (h : createSkeleton answers config skeletons = (result, skeletons')) :
    skeletons'.Settled (result.toOption.toList ++ others) := by
  unfold createSkeleton at h
  simp only [Ledger.inspect_make, hskeletons.tryOpen_make] at h
  split_ifs at h
  all_goals cases h
  · exact hskeletons
  · exact hskeletons
  · exact hskeletons.destroy_make
  · exact hskeletons.opened_make
  · exact hskeletons.destroy_make

/-! ## The process -/

/-- The proxy of a transport, unless it has been destroyed. -/
def transportProxy (t : Option UpLolaTransport) : Option ℕ :=
  t.bind fun transport => transport.receiving.proxy

def transportSkeleton (t : Option UpLolaTransport) : Option ℕ :=
  t.bind fun transport => transport.skeleton

def subscriberProxy (t : Option UpLolaSubscriber) : Option ℕ :=
  t.bind fun subscriber => subscriber.receiving.proxy

def Process.proxiesHeld (s : Process) : List ℕ :=
  s.transports.filterMap transportProxy ++ s.subscribers.filterMap subscriberProxy

def Process.skeletonsHeld (s : Process) : List ℕ := s.transports.filterMap transportSkeleton

/-- A transport points to the event of its skeleton. -/
structure UpLolaTransport.Coherent (transport : UpLolaTransport) : Prop where
  receiving : transport.receiving.Coherent
  offers : transport.skeleton.isSome
  event : transport.skeletonEvent = transport.skeleton

structure Process.Inv (s : Process) : Prop where
  proxies : s.proxies.Settled s.proxiesHeld
  skeletons : s.skeletons.Settled s.skeletonsHeld
  transports : ∀ transport, some transport ∈ s.transports → transport.Coherent
  subscribers : ∀ subscriber, some subscriber ∈ s.subscribers → subscriber.receiving.Coherent

variable {i : ℕ} {transport : UpLolaTransport} {subscriber : UpLolaSubscriber}

/-- The proxy of one transport, and those of all others. -/
theorem Process.Inv.transportProxies (hs : s.Inv)
    (hi : s.transports[i]? = some (some transport)) :
    s.proxies.Settled (transport.receiving.proxy.toList ++
      ((s.transports.eraseIdx i).filterMap transportProxy ++
        s.subscribers.filterMap subscriberProxy)) := by
  have hself := (List.filterMap_perm hi transportProxy).append_right
    (s.subscribers.filterMap subscriberProxy)
  rw [List.append_assoc] at hself
  exact hs.proxies.perm hself

theorem Process.Inv.subscriberProxies (hs : s.Inv)
    (hi : s.subscribers[i]? = some (some subscriber)) :
    s.proxies.Settled (subscriber.receiving.proxy.toList ++
      (s.transports.filterMap transportProxy ++
        (s.subscribers.eraseIdx i).filterMap subscriberProxy)) := by
  have hself := (List.filterMap_perm hi subscriberProxy).append_left
    (s.transports.filterMap transportProxy)
  exact (hs.proxies.perm hself).perm (List.perm_append_comm_assoc _ _ _)

/-- One transport does something with its own proxy and its own skeleton. -/
theorem Process.Inv.setTransport {transport' : Option UpLolaTransport} {skeletons' : Ledger}
    (hs : s.Inv) (hi : s.transports[i]? = some (some transport))
    (hproxies : ∀ others, s.proxies.Settled (transport.receiving.proxy.toList ++ others) →
      proxies'.Settled ((transportProxy transport').toList ++ others))
    (hskeletons : ∀ others, s.skeletons.Settled (transport.skeleton.toList ++ others) →
      skeletons'.Settled ((transportSkeleton transport').toList ++ others))
    (hcoherent : ∀ t, transport' = some t → t.Coherent) :
    ({ s with proxies := proxies', skeletons := skeletons',
              transports := s.transports.set i transport' } : Process).Inv where
  proxies := by
    have hset := (List.filterMap_set_perm hi transport' transportProxy).append_right
      (s.subscribers.filterMap subscriberProxy)
    rw [List.append_assoc] at hset
    exact (hproxies _ (hs.transportProxies hi)).perm hset.symm
  skeletons := by
    have hself := List.filterMap_perm hi transportSkeleton
    have hset := List.filterMap_set_perm hi transport' transportSkeleton
    exact (hskeletons _ (hs.skeletons.perm hself)).perm hset.symm
  transports t ht := by
    rcases List.mem_or_eq_of_mem_set ht with ht | ht
    · exact hs.transports t ht
    · exact hcoherent t ht.symm
  subscribers := hs.subscribers

/-- One subscriber does something with its own proxy. -/
theorem Process.Inv.setSubscriber {subscriber' : Option UpLolaSubscriber} (hs : s.Inv)
    (hi : s.subscribers[i]? = some (some subscriber))
    (hproxies : ∀ others, s.proxies.Settled (subscriber.receiving.proxy.toList ++ others) →
      proxies'.Settled ((subscriberProxy subscriber').toList ++ others))
    (hcoherent : ∀ t, subscriber' = some t → t.receiving.Coherent) :
    ({ s with proxies := proxies',
              subscribers := s.subscribers.set i subscriber' } : Process).Inv where
  proxies := by
    have hset := (List.filterMap_set_perm hi subscriber' subscriberProxy).append_left
      (s.transports.filterMap transportProxy)
    have hkept := hproxies _ (hs.subscriberProxies hi)
    exact (hkept.perm (List.perm_append_comm_assoc _ _ _)).perm hset.symm
  skeletons := hs.skeletons
  transports := hs.transports
  subscribers t ht := by
    rcases List.mem_or_eq_of_mem_set ht with ht | ht
    · exact hs.subscribers t ht
    · exact hcoherent t ht.symm

theorem Process.Inv.createTransport (hs : s.Inv) :
    (upLolaTransportCreate answers config s).2.Inv := by
  unfold upLolaTransportCreate
  split_ifs
  · exact hs
  · dsimp only
    rcases hcreate : createSkeleton answers config s.skeletons with ⟨result, skeletons'⟩
    have hskeletons := createSkeleton_settled hs.skeletons hcreate
    cases result with
    | error status => exact ⟨hs.proxies, hskeletons, hs.transports, hs.subscribers⟩
    | ok skeleton =>
      refine ⟨?_, ?_, fun t ht => ?_, hs.subscribers⟩
      · unfold Process.proxiesHeld
        rw [List.filterMap_append]
        show s.proxies.Settled ((s.transports.filterMap transportProxy ++ []) ++ _)
        rw [List.append_nil]
        exact hs.proxies
      · unfold Process.skeletonsHeld
        rw [List.filterMap_append]
        exact hskeletons.perm (List.perm_append_singleton _ _).symm
      · rcases List.mem_append.1 ht with ht | ht
        · exact hs.transports t ht
        · obtain rfl := Option.some.inj (List.mem_singleton.1 ht)
          exact ⟨coherent_ofConfig config, rfl, rfl⟩

theorem filterMap_subscriber (subscriber : UpLolaSubscriber) :
    [some subscriber].filterMap subscriberProxy = subscriber.receiving.proxy.toList := by
  unfold subscriberProxy
  cases hx : subscriber.receiving.proxy <;> simp [hx]

theorem Process.Inv.createSubscriber (hs : s.Inv) :
    (upLolaSubscriberCreate answers config s).2.Inv := by
  unfold upLolaSubscriberCreate
  split_ifs
  · exact hs
  · dsimp only
    rcases hensure : (Receiving.ofConfig config).ensureProxyLocked answers s.proxies with
      ⟨status, proxies', r'⟩
    obtain ⟨hcoherent', hproxies', -, hfailed⟩ :=
      (coherent_ofConfig config).ensureProxyLocked hs.proxies hensure
    have hgiven (hne : status ≠ .Ok) : (r'.delete proxies').Settled s.proxiesHeld := by
      rw [hfailed hne] at hproxies' ⊢
      exact hproxies'
    cases status with
    | Ok =>
      refine ⟨?_, hs.skeletons, hs.transports, fun t ht => ?_⟩
      · unfold Process.proxiesHeld
        rw [List.filterMap_append, ← List.append_assoc, filterMap_subscriber]
        exact hproxies'.perm List.perm_append_comm
      · rcases List.mem_append.1 ht with ht | ht
        · exact hs.subscribers t ht
        · obtain rfl := Option.some.inj (List.mem_singleton.1 ht)
          exact hcoherent'
    | _ => exact ⟨hgiven (by decide), hs.skeletons, hs.transports, hs.subscribers⟩

theorem inv_init (runtime : Runtime) : Process.Inv { runtime } :=
  ⟨Ledger.settled_empty, Ledger.settled_empty, by simp, by simp⟩

theorem inv_step {a : Action} (hs : s.Inv) (h : step s a = some s') : s'.Inv := by
  cases a with
  | createTransport config answers =>
    cases h
    exact hs.createTransport
  | transportTransmit i =>
    obtain ⟨transport, hi, h⟩ := Option.bind_eq_some_iff.1 h
    have hcoherent := hs.transports _ (List.mem_of_getElem? (Option.join_eq_some_iff.1 hi))
    obtain ⟨x, hx⟩ := Option.isSome_iff_exists.1 hcoherent.offers
    have hheld : x ∈ s.skeletonsHeld :=
      List.mem_filterMap.2 ⟨_, List.mem_of_getElem? (Option.join_eq_some_iff.1 hi), hx⟩
    have hderef : deref transport.skeletonEvent s.skeletons = s.skeletons := by
      rw [hcoherent.event, hx]
      exact hs.skeletons.use_eq hheld
    rw [hderef] at h
    split_ifs at h
    · cases h
      exact hs
    · cases h
      exact hs
  | transportReceive i answers =>
    obtain ⟨transport, hi, h⟩ := Option.bind_eq_some_iff.1 h
    replace hi := Option.join_eq_some_iff.1 hi
    have hcoherent := hs.transports _ (List.mem_of_getElem? hi)
    rcases hreceive : transport.receiving.receive answers s.proxies with ⟨status, proxies', r'⟩
    rw [hreceive] at h
    cases h
    refine hs.setTransport hi (fun others hl => ?_) (fun others hl => hl) fun t ht => ?_
    · exact (hcoherent.receiving.receive hl hreceive).2.1
    · cases ht
      exact ⟨(hcoherent.receiving.receive (hs.transportProxies hi) hreceive).1, hcoherent.offers,
        hcoherent.event⟩
  | destroyTransport i =>
    obtain ⟨transport, hi, h⟩ := Option.bind_eq_some_iff.1 h
    replace hi := Option.join_eq_some_iff.1 hi
    have hcoherent := hs.transports _ (List.mem_of_getElem? hi)
    cases h
    refine hs.setTransport hi (fun others hl => ?_) (fun others hl => ?_) (by simp)
    · exact hcoherent.receiving.destroy hl
    · obtain ⟨x, hx⟩ := Option.isSome_iff_exists.1 hcoherent.offers
      rw [hx] at hl ⊢
      exact hl.relinquish
  | createSubscriber config answers =>
    cases h
    exact hs.createSubscriber
  | subscriberReceive i answers =>
    obtain ⟨subscriber, hi, h⟩ := Option.bind_eq_some_iff.1 h
    replace hi := Option.join_eq_some_iff.1 hi
    have hcoherent := hs.subscribers _ (List.mem_of_getElem? hi)
    rcases hreceive : subscriber.receiving.receive answers s.proxies with ⟨status, proxies', r'⟩
    rw [hreceive] at h
    cases h
    refine hs.setSubscriber hi (fun others hl => ?_) fun t ht => ?_
    · exact (hcoherent.receive hl hreceive).2.1
    · cases ht
      exact (hcoherent.receive (hs.subscriberProxies hi) hreceive).1
  | destroySubscriber i =>
    obtain ⟨subscriber, hi, h⟩ := Option.bind_eq_some_iff.1 h
    replace hi := Option.join_eq_some_iff.1 hi
    have hcoherent := hs.subscribers _ (List.mem_of_getElem? hi)
    cases h
    exact hs.setSubscriber hi (fun others hl => hcoherent.destroy hl) (by simp)

theorem inv_exec {runtime : Runtime} {actions : List Action}
    (h : Run.exec step { runtime } actions = some s) : s.Inv :=
  Run.exec_keeps (fun _ _ _ hs hstep => inv_step hs hstep) (inv_init runtime) h

/-- In every state of a history of calls, none of which releases a loan or a lease, and whatever
S-CORE answers to them: no call has used a proxy or a skeleton that was not there or not open, the
proxies that there are, all subscribed to, and the skeletons, all offered, are those of the
transports and the subscribers that have not been destroyed; once these all are, nothing is left. -/
theorem objects_accounted {runtime : Runtime} {actions : List Action}
    (h : Run.exec step { runtime } actions = some s) :
    s.proxies.Settled s.proxiesHeld ∧ s.skeletons.Settled s.skeletonsHeld ∧
      ((∀ t ∈ s.transports, t = none) → (∀ t ∈ s.subscribers, t = none) →
        s.proxies.live = [] ∧ s.proxies.opened = [] ∧
          s.skeletons.live = [] ∧ s.skeletons.opened = []) := by
  have hs := inv_exec h
  refine ⟨hs.proxies, hs.skeletons, fun htransports hsubscribers => ?_⟩
  have hproxies : s.proxiesHeld = [] := by
    refine List.append_eq_nil_iff.2 ⟨List.filterMap_eq_nil_iff.2 ?_, List.filterMap_eq_nil_iff.2 ?_⟩
    · intro t ht
      rw [htransports t ht]
      rfl
    · intro t ht
      rw [hsubscribers t ht]
      rfl
  have hskeletons : s.skeletonsHeld = [] := by
    refine List.filterMap_eq_nil_iff.2 fun t ht => ?_
    rw [htransports t ht]
    rfl
  have hproxies := hproxies ▸ hs.proxies
  have hskeletons := hskeletons ▸ hs.skeletons
  exact ⟨hproxies.live.eq_nil, hproxies.opened.eq_nil, hskeletons.live.eq_nil,
    hskeletons.opened.eq_nil⟩

/-- Everything works, and a service with the one event is found where `found` is. -/
def plainAnswers (found : List ℕ) : Answers where
  instanceSpecifier _ := true
  findService _ := some found
  createProxy _ := true
  proxyEvents _ := ["event"]
  subscribe _ _ _ := true
  createSkeleton _ _ _ _ := true
  skeletonEvents := ["event"]
  offerService := true
  readable _ := false
  writable _ := true
  tmpdir := none
  pid := 7

def plainStart : LolaTransportConfig :=
  { plainConfig 1 0 .DropOldestAndReport with mwComConfigPath := some "etc/mw_com_config.json" }

/-- A subscriber is not found its service until a transport offers it. -/
def plainDiscovery : List Action :=
  [.createSubscriber plainStart (plainAnswers []), .createTransport plainStart (plainAnswers []),
    .createSubscriber plainStart (plainAnswers [1]), .transportReceive 0 (plainAnswers []),
    .subscriberReceive 0 (plainAnswers [])]

theorem objects_accounted_plain : ∃ s, Run.exec step {} plainDiscovery = some s ∧
    s.proxiesHeld = [0] ∧ s.proxies.Settled s.proxiesHeld ∧
      s.skeletons.Settled s.skeletonsHeld := by
  have hrun : (Run.exec step {} plainDiscovery).any (fun s => s.proxiesHeld = [0]) = true := by
    decide +kernel
  obtain ⟨s, hs, hheld⟩ := (Option.any_eq_true _ _).1 hrun
  have haccounted := objects_accounted hs
  exact ⟨s, hs, of_decide_eq_true hheld, haccounted.1, haccounted.2.1⟩

/-! ## What discovery comes to -/

/-- The status that discovery comes to where nothing is subscribed to yet. -/
def discovered (answers : Answers) (r : Receiving) : UpLolaStatusCode :=
  if !answers.instanceSpecifier r.instanceSpecifier then .InvalidArgument
  else
    match answers.findService r.instanceSpecifier with
    | none => .Internal
    | some [] => .NotFound
    | some (handle :: _) =>
      if !answers.createProxy handle then .Internal
      else if r.eventName ∉ answers.proxyEvents handle then .NotFound
      else if !answers.subscribe handle r.eventName r.maxSamples then .Internal
      else .Ok

theorem Receiving.Coherent.ensureProxyLocked_status (hr : r.Coherent) :
    (r.ensureProxyLocked answers proxies).1 =
      if r.subscribed then .Ok else discovered answers r := by
  unfold Receiving.ensureProxyLocked discovered
  cases hsubscribed : r.subscribed with
  | true =>
    rw [hr.subscribed] at hsubscribed
    rw [hr.event, hsubscribed]
    rfl
  | false =>
    simp only [Bool.false_and, Bool.false_eq_true, if_false]
    rcases answers.findService r.instanceSpecifier with _ | _ | ⟨handle, handles⟩
    all_goals
      dsimp only
      split_ifs <;> rfl

theorem Receiving.receive_fst :
    (r.receive answers proxies).1 = (r.ensureProxyLocked answers proxies).1 := by
  unfold Receiving.receive
  dsimp only
  split_ifs with hstatus
  · rfl
  · exact (not_not.1 hstatus).symm

def statusOf {α : Type} : Except UpLolaStatusCode α → UpLolaStatusCode
  | .ok _ => .Ok
  | .error status => status

/-- The status that S-CORE's part of making a transport comes to. -/
def created (answers : Answers) (config : LolaTransportConfig) : UpLolaStatusCode :=
  statusOf (createSkeleton answers config {}).1

theorem createSkeleton_status (skeletons : Ledger) :
    statusOf (createSkeleton answers config skeletons).1 = created answers config := by
  unfold created createSkeleton
  dsimp only
  split_ifs <;> rfl

/-- A transport is made, or fails to be, as in the bridge's own model, which is told what S-CORE's
part comes to. -/
theorem createTransport_created (id : ℕ) :
    (upLolaTransportCreate answers config s).1 =
      statusOf (Bridge.upLolaTransportCreate (created answers config) config id) := by
  unfold upLolaTransportCreate transportConfigAccepted Bridge.upLolaTransportCreate
  generalize (decide (config.sampleSize = 0) ||
    !Bridge.isSupportedSampleAlignment config.sampleAlignment ||
      decide (config.maxSamples = 0)) = badSize
  generalize (config.instanceSpecifier.isEmpty || config.serviceType.isEmpty ||
    config.eventName.isEmpty) = badName
  cases badSize with
  | true => rfl
  | false =>
    cases badName with
    | true => rfl
    | false =>
      have hstatus : statusOf (createSkeleton answers config s.skeletons).1 =
        created answers config := createSkeleton_status _
      dsimp only [Bool.not_false, Bool.and_self, Bool.not_true]
      rw [← hstatus]
      rcases createSkeleton answers config s.skeletons with ⟨status | skeleton, skeletons⟩
      · cases status <;> rfl
      · rfl

theorem createSubscriber_discovered :
    (upLolaSubscriberCreate answers config s).1 =
      statusOf (Bridge.upLolaSubscriberCreate (discovered answers (.ofConfig config)) config) := by
  unfold upLolaSubscriberCreate subscriberConfigAccepted Bridge.upLolaSubscriberCreate
  generalize (decide (config.sampleSize = 0) ||
    !Bridge.isSupportedSampleAlignment config.sampleAlignment ||
      decide (config.maxSamples = 0)) = badSize
  generalize (config.instanceSpecifier.isEmpty || config.eventName.isEmpty) = badName
  cases badSize with
  | true => rfl
  | false =>
    cases badName with
    | true => rfl
    | false =>
      have hstatus : ((Receiving.ofConfig config).ensureProxyLocked answers s.proxies).1 =
        discovered answers (.ofConfig config) := (coherent_ofConfig config).ensureProxyLocked_status
      dsimp only [Bool.not_false, Bool.and_self, Bool.not_true]
      rw [← hstatus]
      rcases (Receiving.ofConfig config).ensureProxyLocked answers s.proxies with
        ⟨_ | _, proxies, r⟩ <;> rfl

/-- What is subscribed looks for nothing. -/
theorem Receiving.Coherent.receive_subscribed (hr : r.Coherent)
    (hproxies : proxies.Settled (r.proxy.toList ++ others)) (hsubscribed : r.subscribed = true) :
    r.receive answers proxies = (.Ok, proxies, r) := by
  rw [hr.subscribed] at hsubscribed
  obtain ⟨x, hx⟩ := Option.isSome_iff_exists.1 hsubscribed
  have hderef : deref r.proxyEvent proxies = proxies := by
    rw [hr.event, hx]
    exact hproxies.use_eq (by rw [hx]; exact List.mem_cons_self)
  unfold Receiving.receive
  rw [hr.ensureProxyLocked_subscribed hx]
  dsimp only
  rw [hderef, if_neg (not_not.2 rfl)]

/-- What is asked for stays the same. -/
theorem Receiving.ensureProxyLocked_asked (answers : Answers) (proxies : Ledger) (r : Receiving) :
    (r.ensureProxyLocked answers proxies).2.2.instanceSpecifier = r.instanceSpecifier ∧
      (r.ensureProxyLocked answers proxies).2.2.eventName = r.eventName ∧
      (r.ensureProxyLocked answers proxies).2.2.maxSamples = r.maxSamples := by
  unfold Receiving.ensureProxyLocked
  rcases answers.findService r.instanceSpecifier with _ | _ | ⟨handle, handles⟩
  all_goals
    dsimp only
    split_ifs <;> exact ⟨rfl, rfl, rfl⟩

theorem Receiving.receive_snd :
    (r.receive answers proxies).2.2 = (r.ensureProxyLocked answers proxies).2.2 := by
  unfold Receiving.receive
  dsimp only
  split_ifs <;> rfl

theorem discovered_receive (answers' : Answers) :
    discovered answers' (r.receive answers proxies).2.2 = discovered answers' r := by
  obtain ⟨hname, hevent, hmax⟩ := r.ensureProxyLocked_asked answers proxies
  rw [Receiving.receive_snd]
  unfold discovered
  rw [hname, hevent, hmax]

/-- A receive discovers unless there is a subscription already, and comes to one unless that
fails. -/
theorem Receiving.Coherent.receive_discovers (hr : r.Coherent) (answers : Answers)
    (hproxies : proxies.Settled (r.proxy.toList ++ others)) :
    (r.receive answers proxies).1 = (if r.subscribed then .Ok else discovered answers r) ∧
      (r.receive answers proxies).2.2.subscribed =
        (r.subscribed || discovered answers r = .Ok) ∧
      ((r.receive answers proxies).1 ≠ .Ok → (r.receive answers proxies).2.2 = r) := by
  have hstatus : (r.receive answers proxies).1 =
      if r.subscribed then .Ok else discovered answers r := by
    rw [Receiving.receive_fst]
    exact hr.ensureProxyLocked_status
  rcases hreceive : r.receive answers proxies with ⟨status, proxies', r'⟩
  obtain ⟨-, -, hok, hfailed⟩ := hr.receive hproxies hreceive
  rw [hreceive] at hstatus
  dsimp only at hstatus ⊢
  refine ⟨hstatus, ?_, hfailed⟩
  by_cases hsubscribed : r.subscribed = true
  · rw [if_pos hsubscribed] at hstatus
    rw [hok hstatus, hsubscribed, Bool.true_or]
  · rw [if_neg hsubscribed] at hstatus
    rw [Bool.not_eq_true] at hsubscribed
    by_cases hdiscovered : discovered answers r = .Ok
    · rw [hok (hstatus.trans hdiscovered), decide_eq_true hdiscovered, Bool.or_true]
    · rw [hfailed (hstatus ▸ hdiscovered), hsubscribed, decide_eq_false hdiscovered, Bool.or_self]

/-- A receive of the transport at `i` in which discovery comes to a subscription. -/
def Action.discovers (i : ℕ) (r : Receiving) : Action → Bool
  | .transportReceive j answers => j = i && discovered answers r = .Ok
  | _ => false

/-- A transport is subscribed once discovery has come to a subscription in a receive of it, and a
subscriber from the start. -/
structure Process.Discovered (past : List Action) (s : Process) : Prop where
  transports : ∀ i transport, s.transports[i]? = some (some transport) →
    transport.receiving.subscribed = past.any (·.discovers i transport.receiving)
  /-- There have been no receives of the transports that have yet to be made. -/
  future : ∀ i r, s.transports.length ≤ i → past.any (·.discovers i r) = false
  subscribers : ∀ subscriber, some subscriber ∈ s.subscribers →
    subscriber.receiving.subscribed = true

theorem createTransport_endpoints (answers : Answers) (config : LolaTransportConfig) (s : Process) :
    (upLolaTransportCreate answers config s).2.subscribers = s.subscribers ∧
      ((upLolaTransportCreate answers config s).2.transports = s.transports ∨
        ∃ transport : UpLolaTransport, transport.receiving.subscribed = false ∧
          (upLolaTransportCreate answers config s).2.transports =
            s.transports ++ [some transport]) := by
  unfold upLolaTransportCreate
  split_ifs
  · exact ⟨rfl, .inl rfl⟩
  · dsimp only
    rcases createSkeleton answers config s.skeletons with ⟨status | skeleton, skeletons'⟩
    · exact ⟨rfl, .inl rfl⟩
    · exact ⟨rfl, .inr ⟨_, rfl, rfl⟩⟩

/-- A subscriber that is handed out is subscribed. -/
theorem createSubscriber_endpoints (answers : Answers) (config : LolaTransportConfig)
    (hproxies : s.proxies.Settled s.proxiesHeld) :
    (upLolaSubscriberCreate answers config s).2.transports = s.transports ∧
      ((upLolaSubscriberCreate answers config s).1 ≠ .Ok →
        (upLolaSubscriberCreate answers config s).2.subscribers = s.subscribers) ∧
      ∀ subscriber, some subscriber ∈ (upLolaSubscriberCreate answers config s).2.subscribers →
        some subscriber ∈ s.subscribers ∨ subscriber.receiving.subscribed = true := by
  unfold upLolaSubscriberCreate
  split_ifs
  · exact ⟨rfl, fun _ => rfl, fun _ hmem => .inl hmem⟩
  · dsimp only
    rcases hensure : (Receiving.ofConfig config).ensureProxyLocked answers s.proxies with
      ⟨status, proxies', r'⟩
    obtain ⟨-, -, hok, -⟩ := (coherent_ofConfig config).ensureProxyLocked hproxies hensure
    cases status with
    | Ok =>
      refine ⟨rfl, fun hne => absurd rfl hne, fun subscriber hmem => ?_⟩
      rcases List.mem_append.1 hmem with hmem | hmem
      · exact .inl hmem
      · obtain rfl := Option.some.inj (List.mem_singleton.1 hmem)
        exact .inr (hok rfl)
    | _ => exact ⟨rfl, fun _ => rfl, fun _ hmem => .inl hmem⟩

/-- An action that discovers nothing adds no transport that is subscribed. -/
theorem Process.Discovered.quiet {past : List Action} {a : Action} (hs : s.Discovered past)
    (ha : ∀ i r, a.discovers i r = false)
    (htransports : ∀ i transport, s'.transports[i]? = some (some transport) →
      s.transports[i]? = some (some transport) ∨
        s.transports.length ≤ i ∧ transport.receiving.subscribed = false)
    (hlength : s.transports.length ≤ s'.transports.length)
    (hsubscribers : ∀ subscriber, some subscriber ∈ s'.subscribers →
      some subscriber ∈ s.subscribers ∨ subscriber.receiving.subscribed = true) :
    s'.Discovered (past ++ [a]) := by
  have hany (i : ℕ) (r : Receiving) :
      (past ++ [a]).any (·.discovers i r) = past.any (·.discovers i r) := by
    simp [ha]
  refine ⟨fun i transport hi => ?_, fun i r hi => ?_, fun subscriber hmem => ?_⟩
  · rw [hany]
    rcases htransports i transport hi with hold | ⟨hnew, hsubscribed⟩
    · exact hs.transports i transport hold
    · rw [hsubscribed, hs.future i _ hnew]
  · rw [hany]
    exact hs.future i r (hlength.trans hi)
  · exact (hsubscribers subscriber hmem).elim (hs.subscribers subscriber) id

theorem Action.discovers_congr (h : ∀ answers, discovered answers r' = discovered answers r) (i : ℕ)
    (a : Action) : a.discovers i r' = a.discovers i r := by
  cases a with
  | transportReceive j answers => rw [discovers, discovers, h]
  | _ => rfl

/-- The transport at `i` is subscribed now if it was, or if this receive of it has come to a
subscription. -/
theorem Process.Discovered.received {past : List Action} {i : ℕ}
    {transport transport' : UpLolaTransport} (hs : s.Discovered past)
    (hi : s.transports[i]? = some (some transport))
    (hasked : ∀ asked, discovered asked transport'.receiving = discovered asked transport.receiving)
    (hsubscribed : transport'.receiving.subscribed =
      (transport.receiving.subscribed || discovered answers transport.receiving = .Ok)) :
    ({ s with proxies, transports := s.transports.set i (some transport') } : Process).Discovered
      (past ++ [.transportReceive i answers]) := by
  have hany (j : ℕ) (r : Receiving) :
      (past ++ [Action.transportReceive i answers]).any (·.discovers j r) =
        (past.any (·.discovers j r) || (i = j && discovered answers r = .Ok)) := by
    simp [Action.discovers]
  refine ⟨fun j other hj => ?_, fun j r hj => ?_, hs.subscribers⟩
  · dsimp only at hj
    rw [List.getElem?_set_of_some hi] at hj
    rw [hany]
    split_ifs at hj with hij
    · obtain rfl := Option.some.inj (Option.some.inj hj)
      simp only [Action.discovers_congr hasked, hasked]
      rw [hsubscribed, hs.transports i transport hi, hij, decide_eq_true rfl, Bool.true_and]
    · rw [hs.transports j other hj, decide_eq_false (Ne.symm hij), Bool.false_and, Bool.or_false]
  · obtain ⟨hlt, -⟩ := List.getElem?_eq_some_iff.1 hi
    have hlength : s.transports.length ≤ j := by simpa using hj
    rw [hany, hs.future j r hlength, decide_eq_false (by omega), Bool.false_and, Bool.or_false]

theorem discovered_step {past : List Action} {a : Action} (hinv : s.Inv) (hs : s.Discovered past)
    (h : step s a = some s') : s'.Discovered (past ++ [a]) := by
  cases a with
  | createTransport config answers =>
    cases h
    obtain ⟨hsubscribers, htransports⟩ := createTransport_endpoints answers config s
    refine hs.quiet (fun _ _ => rfl) ?_ ?_ fun _ hmem => .inl (hsubscribers ▸ hmem)
    · intro i transport hi
      rcases htransports with hsame | ⟨made, hmade, hadded⟩
      · exact .inl (hsame ▸ hi)
      · rw [hadded] at hi
        rcases List.getElem?_concat_eq_some hi with hi | ⟨hlast, hsome⟩
        · exact .inl hi
        · obtain rfl := Option.some.inj hsome
          exact .inr ⟨hlast.ge, hmade⟩
    · rcases htransports with hsame | ⟨made, -, hadded⟩
      · rw [hsame]
      · rw [hadded, List.length_append]
        exact Nat.le_add_right _ _
  | transportTransmit i =>
    obtain ⟨transport, -, h⟩ := Option.bind_eq_some_iff.1 h
    split_ifs at h
    all_goals
      cases h
      exact hs.quiet (fun _ _ => rfl) (fun _ _ => .inl) le_rfl fun _ => .inl
  | transportReceive i answers =>
    obtain ⟨transport, hi, h⟩ := Option.bind_eq_some_iff.1 h
    replace hi := Option.join_eq_some_iff.1 hi
    have hcoherent := (hinv.transports _ (List.mem_of_getElem? hi)).receiving
    obtain ⟨-, hsubscribed, -⟩ := hcoherent.receive_discovers answers (hinv.transportProxies hi)
    cases h
    exact hs.received hi (fun asked => discovered_receive asked) hsubscribed
  | destroyTransport i =>
    obtain ⟨transport, hi, h⟩ := Option.bind_eq_some_iff.1 h
    replace hi := Option.join_eq_some_iff.1 hi
    cases h
    refine hs.quiet (fun _ _ => rfl) (fun j other hj => .inl ?_) List.length_set.ge fun _ => .inl
    have hset : (s.transports.set i none)[j]? = some (some other) := hj
    rw [List.getElem?_set_of_some hi] at hset
    split_ifs at hset
    · cases hset
    · exact hset
  | createSubscriber config answers =>
    cases h
    obtain ⟨htransports, -, hsubscribers⟩ := createSubscriber_endpoints answers config hinv.proxies
    exact hs.quiet (fun _ _ => rfl) (fun i _ hi => .inl (htransports ▸ hi))
      (by rw [htransports]) hsubscribers
  | subscriberReceive i answers =>
    obtain ⟨subscriber, hi, h⟩ := Option.bind_eq_some_iff.1 h
    replace hi := Option.join_eq_some_iff.1 hi
    have hmem := List.mem_of_getElem? hi
    have hsubscribed := ((hinv.subscribers _ hmem).receive_discovers answers
      (hinv.subscriberProxies hi)).2.1
    rw [hs.subscribers _ hmem, Bool.true_or] at hsubscribed
    cases h
    refine hs.quiet (fun _ _ => rfl) (fun _ _ => .inl) le_rfl fun other hother => ?_
    rcases List.mem_or_eq_of_mem_set hother with hother | hother
    · exact .inl hother
    · obtain rfl := Option.some.inj hother
      exact .inr hsubscribed
  | destroySubscriber i =>
    obtain ⟨subscriber, -, h⟩ := Option.bind_eq_some_iff.1 h
    cases h
    refine hs.quiet (fun _ _ => rfl) (fun _ _ => .inl) le_rfl fun other hother => ?_
    rcases List.mem_or_eq_of_mem_set hother with hother | hother
    · exact .inl hother
    · cases hother

theorem discovered_exec {runtime : Runtime} {actions : List Action}
    (h : Run.exec step { runtime } actions = some s) : s.Discovered actions := by
  have hkeeps : ∀ (actions past : List Action) {s s' : Process}, s.Inv → s.Discovered past →
      Run.exec step s actions = some s' → s'.Discovered (past ++ actions) := by
    intro actions
    induction actions with
    | nil =>
      intro past s s' _ hs h
      cases h
      rwa [List.append_nil]
    | cons a actions ih =>
      intro past s s' hinv hs h
      obtain ⟨t, hstep, h⟩ := Option.bind_eq_some_iff.1 h
      rw [List.append_cons]
      exact ih _ (inv_step hinv hstep) (discovered_step hinv hs hstep) h
  exact hkeeps actions [] (inv_init runtime)
    ⟨fun i transport hi => absurd hi (by simp), fun _ _ _ => rfl, by simp⟩ h

/-- Discovery in every state of a history.  A receive of a transport comes to the first answer of
S-CORE that fails, and leaves the transport as it was, until in one none fails; it is subscribed
from then on and asks nothing more.  A subscriber is handed out only if none fails, and a receive of
it asks nothing. -/
theorem receive_discovered {runtime : Runtime} {actions : List Action}
    (h : Run.exec step { runtime } actions = some s) (answers : Answers) :
    (∀ i transport, s.transports[i]? = some (some transport) →
      (actions.any (·.discovers i transport.receiving) = true →
          transport.receiving.receive answers s.proxies = (.Ok, s.proxies, transport.receiving)) ∧
        (transport.receiving.receive answers s.proxies).1 =
          (if actions.any (·.discovers i transport.receiving) then .Ok
            else discovered answers transport.receiving) ∧
        (transport.receiving.receive answers s.proxies).2.2.subscribed =
          (actions ++ [Action.transportReceive i answers]).any
            (·.discovers i transport.receiving) ∧
        ((transport.receiving.receive answers s.proxies).1 ≠ .Ok →
          (transport.receiving.receive answers s.proxies).2.2 = transport.receiving)) ∧
    (∀ subscriber, some subscriber ∈ s.subscribers →
      subscriber.receiving.receive answers s.proxies = (.Ok, s.proxies, subscriber.receiving)) ∧
    ∀ config, (upLolaSubscriberCreate answers config s).1 =
        statusOf (Bridge.upLolaSubscriberCreate (discovered answers (.ofConfig config)) config) ∧
      ((upLolaSubscriberCreate answers config s).1 ≠ .Ok →
        (upLolaSubscriberCreate answers config s).2.subscribers = s.subscribers) := by
  have hinv := inv_exec h
  have hs := discovered_exec h
  refine ⟨fun i transport hi => ?_, fun subscriber hmem => ?_, fun config => ?_⟩
  · have hcoherent := (hinv.transports _ (List.mem_of_getElem? hi)).receiving
    have hproxies := hinv.transportProxies hi
    have hpast := hs.transports i transport hi
    obtain ⟨hstatus, hsubscribed, hfailed⟩ := hcoherent.receive_discovers answers hproxies
    rw [hpast] at hstatus hsubscribed
    refine ⟨fun hdone => hcoherent.receive_subscribed hproxies (hpast.trans hdone), hstatus,
      hsubscribed.trans ?_, hfailed⟩
    simp [Action.discovers]
  · obtain ⟨i, hi⟩ := List.mem_iff_getElem?.1 hmem
    exact (hinv.subscribers subscriber hmem).receive_subscribed (hinv.subscriberProxies hi)
      (hs.subscribers subscriber hmem)
  · exact ⟨createSubscriber_discovered,
      (createSubscriber_endpoints answers config hinv.proxies).2.1⟩

/-- The service is found. -/
def plainDiscovered : List Action := plainDiscovery ++ [.transportReceive 0 (plainAnswers [1])]

theorem exec_plainTransport :
    (∃ s transport, Run.exec step {} plainDiscovery = some s ∧
      s.transports[0]? = some (some transport) ∧ transport.receiving = .ofConfig plainStart) ∧
    ∃ s transport, Run.exec step {} plainDiscovered = some s ∧
      s.transports[0]? = some (some transport) ∧
        discovered (plainAnswers [1]) transport.receiving = .Ok := by
  have hfirst (actions : List Action) (good : UpLolaTransport → Bool)
      (hrun : (Run.exec step {} actions).any (fun s => s.transports[0]?.join.any good) = true) :
      ∃ s transport, Run.exec step {} actions = some s ∧
        s.transports[0]? = some (some transport) ∧ good transport = true := by
    obtain ⟨s, hs, hany⟩ := (Option.any_eq_true _ _).1 hrun
    obtain ⟨transport, hjoin, hgood⟩ := (Option.any_eq_true _ _).1 hany
    exact ⟨s, transport, hs, Option.join_eq_some_iff.1 hjoin, hgood⟩
  constructor
  · obtain ⟨s, transport, hs, hi, hgood⟩ := hfirst plainDiscovery
      (fun t => t.receiving = .ofConfig plainStart) (by decide +kernel)
    exact ⟨s, transport, hs, hi, of_decide_eq_true hgood⟩
  · obtain ⟨s, transport, hs, hi, hgood⟩ := hfirst plainDiscovered
      (fun t => discovered (plainAnswers [1]) t.receiving = .Ok) (by decide +kernel)
    exact ⟨s, transport, hs, hi, of_decide_eq_true hgood⟩

/-- A transport that has found no service finds it, and looks for none again. -/
theorem receive_discovered_plain :
    (∃ s transport, Run.exec step {} plainDiscovery = some s ∧
      s.transports[0]? = some (some transport) ∧
        (transport.receiving.receive (plainAnswers []) s.proxies).1 = .NotFound ∧
        (transport.receiving.receive (plainAnswers [1]) s.proxies).1 = .Ok ∧
        (transport.receiving.receive (plainAnswers [1]) s.proxies).2.2.subscribed = true) ∧
    ∃ s transport, Run.exec step {} plainDiscovered = some s ∧
      s.transports[0]? = some (some transport) ∧
        transport.receiving.receive (plainAnswers []) s.proxies =
          (.Ok, s.proxies, transport.receiving) := by
  obtain ⟨⟨s, transport, hs, hi, hasked⟩, s', transport', hs', hi', hfound⟩ := exec_plainTransport
  refine ⟨⟨s, transport, hs, hi, ?_, ?_, ?_⟩, s', transport', hs', hi', ?_⟩
  · rw [((receive_discovered hs (plainAnswers [])).1 0 transport hi).2.1, hasked]
    decide +kernel
  · rw [((receive_discovered hs (plainAnswers [1])).1 0 transport hi).2.1, hasked]
    decide +kernel
  · rw [((receive_discovered hs (plainAnswers [1])).1 0 transport hi).2.2.1, hasked]
    decide +kernel
  · refine ((receive_discovered hs' (plainAnswers [])).1 0 transport' hi').1 ?_
    simp [plainDiscovered, Action.discovers, hfound]

/-! ## The runtime -/

/-- The configuration that a call would initialize the runtime with, and what is answered to it. -/
def Action.runtimeConfiguration : Action → Option (String × Answers)
  | .createTransport config answers =>
    if transportConfigAccepted config && !(config.mwComConfigPath.getD "").isEmpty then
      some (config.mwComConfigPath.getD "", answers)
    else none
  | .createSubscriber config answers =>
    if subscriberConfigAccepted config && !(config.mwComConfigPath.getD "").isEmpty then
      some (config.mwComConfigPath.getD "", answers)
    else none
  | _ => none

/-- The runtime initialized with a configuration: the logging configuration is the one beside it, or
else the default, unless the variable was there, be it empty. -/
def Runtime.started (logConfigFile : Option String) : Option (String × Answers) → Runtime
  | none => { logConfigFile }
  | some (path, answers) =>
    { initialized := true
      runtimeConfigurations := [path]
      logConfigFile := logConfigFile <|>
        (siblingLoggingConfigPath answers path <|> writeDefaultLoggingConfig answers) }

theorem initializeRuntimeOnce_initialized {runtime : Runtime} {path : String}
    (h : runtime.initialized = true) : initializeRuntimeOnce answers path runtime = runtime := by
  unfold initializeRuntimeOnce
  split_ifs <;> rfl

theorem configureLogging_eq {path : String} (logConfigFile : Option String) :
    configureLogging answers path { logConfigFile } =
      { logConfigFile := logConfigFile <|>
          (siblingLoggingConfigPath answers path <|> writeDefaultLoggingConfig answers) } := by
  unfold configureLogging Runtime.setLogConfigFile
  cases logConfigFile with
  | none =>
    cases siblingLoggingConfigPath answers path <;>
      cases writeDefaultLoggingConfig answers <;> rfl
  | some existing =>
    -- A variable that is there, but empty, is not overwritten.
    simp only [Option.isSome_some, if_true]
    split_ifs
    · rfl
    · cases siblingLoggingConfigPath answers path <;>
        cases writeDefaultLoggingConfig answers <;> rfl

theorem initializeRuntimeOnce_started {path : String} (hpath : path.isEmpty = false)
    (logConfigFile : Option String) :
    initializeRuntimeOnce answers path { logConfigFile } =
      Runtime.started logConfigFile (some (path, answers)) := by
  unfold initializeRuntimeOnce
  rw [hpath, configureLogging_eq]
  rfl

theorem runtime_createTransport :
    (upLolaTransportCreate answers config s).2.runtime =
      if transportConfigAccepted config then
        initializeRuntimeOnce answers (config.mwComConfigPath.getD "") s.runtime
      else s.runtime := by
  unfold upLolaTransportCreate
  cases transportConfigAccepted config with
  | true =>
    dsimp only [Bool.not_true]
    rcases createSkeleton answers config s.skeletons with ⟨_ | _, skeletons⟩ <;> rfl
  | false => rfl

theorem runtime_createSubscriber :
    (upLolaSubscriberCreate answers config s).2.runtime =
      if subscriberConfigAccepted config then
        initializeRuntimeOnce answers (config.mwComConfigPath.getD "") s.runtime
      else s.runtime := by
  unfold upLolaSubscriberCreate
  cases subscriberConfigAccepted config with
  | true =>
    dsimp only [Bool.not_true]
    rcases (Receiving.ofConfig config).ensureProxyLocked answers s.proxies with
      ⟨_ | _, proxies, r⟩ <;> rfl
  | false => rfl

theorem runtime_of_accepted {accepted : Bool} {runtime : Runtime} :
    (if accepted then initializeRuntimeOnce answers (config.mwComConfigPath.getD "") runtime
      else runtime) =
      (if accepted && !(config.mwComConfigPath.getD "").isEmpty then
        some (config.mwComConfigPath.getD "", answers) else none).elim runtime fun x =>
          initializeRuntimeOnce x.2 x.1 runtime := by
  cases accepted with
  | false => rfl
  | true =>
    cases hpath : (config.mwComConfigPath.getD "").isEmpty with
    | false => rfl
    | true =>
      unfold initializeRuntimeOnce
      rw [hpath]
      rfl

theorem runtime_step {a : Action} (h : step s a = some s') :
    s'.runtime = a.runtimeConfiguration.elim s.runtime fun x =>
      initializeRuntimeOnce x.2 x.1 s.runtime := by
  cases a with
  | createTransport config answers =>
    cases h
    exact runtime_createTransport.trans runtime_of_accepted
  | createSubscriber config answers =>
    cases h
    exact runtime_createSubscriber.trans runtime_of_accepted
  | transportTransmit i =>
    obtain ⟨transport, -, h⟩ := Option.bind_eq_some_iff.1 h
    split_ifs at h <;> cases h <;> rfl
  | _ =>
    obtain ⟨endpoint, -, h⟩ := Option.bind_eq_some_iff.1 h
    cases h
    rfl

theorem runtime_kept {actions : List Action} (hs : s.runtime.initialized = true)
    (h : Run.exec step s actions = some s') : s'.runtime = s.runtime := by
  refine Run.exec_keeps (I := fun t : Process => t.runtime = s.runtime) ?_ rfl h
  intro t a t' ht hstep
  rw [runtime_step hstep, ht]
  cases a.runtimeConfiguration with
  | none => rfl
  | some x => exact initializeRuntimeOnce_initialized hs

theorem runtimeConfiguration_nonempty {a : Action} {x : String × Answers}
    (h : a.runtimeConfiguration = some x) : x.1.isEmpty = false := by
  unfold Action.runtimeConfiguration at h
  split at h
  · split_ifs at h with haccepted
    cases h
    simpa using (Bool.and_eq_true_iff.1 haccepted).2
  · split_ifs at h with haccepted
    cases h
    simpa using (Bool.and_eq_true_iff.1 haccepted).2
  · cases h

/-- The runtime is initialized once: with the configuration of the first call that passes its checks
with one, whatever becomes of that call, and whichever calls come after it. -/
theorem runtime_initialized_once {logConfigFile : Option String} {actions : List Action}
    (h : Run.exec step { runtime := { logConfigFile } } actions = some s) :
    s.runtime =
      Runtime.started logConfigFile (actions.filterMap Action.runtimeConfiguration).head? := by
  generalize hfirst : ({ runtime := { logConfigFile } } : Process) = first at h
  have hruntime : first.runtime = { logConfigFile } := by rw [← hfirst]
  clear hfirst
  induction actions generalizing first with
  | nil =>
    cases h
    exact hruntime
  | cons a actions ih =>
    obtain ⟨t, hstep, h⟩ := Option.bind_eq_some_iff.1 h
    have ht := runtime_step hstep
    rw [hruntime] at ht
    cases ha : a.runtimeConfiguration with
    | none =>
      rw [ha] at ht
      rw [List.filterMap_cons, ha]
      exact ih t h ht
    | some x =>
      rw [ha] at ht
      rw [List.filterMap_cons, ha]
      replace ht : t.runtime = Runtime.started logConfigFile (some x) :=
        ht.trans (initializeRuntimeOnce_started (runtimeConfiguration_nonempty ha) logConfigFile)
      have hinitialized : t.runtime.initialized = true := by rw [ht]; rfl
      exact (runtime_kept hinitialized h).trans ht

theorem runtime_initialized_once_plain : ∃ s, Run.exec step {} plainDiscovery = some s ∧
    s.runtime = {
      initialized := true
      runtimeConfigurations := ["etc/mw_com_config.json"]
      logConfigFile := some "/tmp/up_lola_logging_7.json" } := by
  have hrun : (Run.exec step {} plainDiscovery).isSome = true := by decide +kernel
  obtain ⟨s, hs⟩ := Option.isSome_iff_exists.1 hrun
  exact ⟨s, hs, (runtime_initialized_once hs).trans (by decide +kernel)⟩

end LolaTransport.Lifecycle
