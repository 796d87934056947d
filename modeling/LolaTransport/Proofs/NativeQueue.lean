import LolaTransport.Proofs.NativePull
import LolaTransport.Proofs.PlainFrames

/-!
# Kept frames and the slots they hold

A kept frame holds a slot of the subscription's pool, so the mismatch queue is not the only bound
on what can be kept: `Leased` says that the slots in use are those of the kept frames, and a
receive that finds every slot taken while a sample is left fails (`receive_served`).
-/

namespace LolaTransport

open Bridge SlotPool

variable {E : Score} {U : UpRust} {w : PointerWidth} {config : LolaTransportConfig}

/-! ## What S-CORE is relied on for -/

/-- Discovery finds the service or not yet, and `GetNewSamples` works. -/
structure Score.Delivers (E : Score) : Prop where
  found : ∀ n, E.found n = .Ok ∨ E.found n = .NotFound
  works : ∀ n, E.works n = true

/-- A sample that lies where the configuration wants it and is a frame. -/
structure WellFormed (U : UpRust) (w : PointerWidth) (config : LolaTransportConfig)
    (x : ℕ × SamplePtr) : Prop where
  aligned : pointerIsAligned x.2.get config.sampleAlignment = true
  frame : ∃ lease, LolaRxLease.fromSample U w x.2.bytes = .ok lease

/-- What the checks of `build` leave of a configuration. -/
structure Accepted (config : LolaTransportConfig) : Prop where
  sampleSize : config.sampleSize ≠ 0
  supported : isSupportedSampleAlignment config.sampleAlignment = true
  alignment : config.sampleAlignment ≠ 0
  powerOfTwo : LolaTransport.isPowerOfTwo config.sampleAlignment = true
  maxSamples : config.maxSamples ≠ 0
  instanceSpecifier : config.instanceSpecifier.isEmpty = false
  eventName : config.eventName.isEmpty = false

theorem accepted_of_build {created : UpLolaStatusCode} {id : ℕ} {transport : UTransportLola}
    (h : UTransportLola.build created config id = .ok transport) : Accepted config := by
  obtain ⟨hvalid, bridge, hcreate, -⟩ := build_ok h
  have halignment : config.sampleAlignment ≠ 0 ∧
      LolaTransport.isPowerOfTwo config.sampleAlignment = true := by
    simp only [LolaTransportConfig.validate, Fallible.bind_eq_ok] at hvalid
    obtain ⟨_, -, _, -, _, -, _, -, hvalid⟩ := hvalid
    split_ifs at hvalid with hsize hpower
    all_goals simp_all [Fallible.bind_eq_ok]
  unfold upLolaTransportCreate at hcreate
  split_ifs at hcreate with hbounds hnames
  simp only [Bool.or_eq_true, decide_eq_true_eq, Bool.not_eq_true', not_or, Bool.not_eq_false]
    at hbounds hnames
  exact ⟨hbounds.1.1, hbounds.1.2, halignment.1, halignment.2, hbounds.2,
    by simpa using hnames.1.1, by simpa using hnames.2⟩

/-! ## One sample -/

/-- A subscription made from the configuration. -/
structure Ready (config : LolaTransportConfig) (native : NativeSubscriber) : Prop where
  size : native.sampleSize = config.sampleSize
  alignment : native.sampleAlignment = config.sampleAlignment
  bridgeSize : native.subscriber.sampleSize = config.sampleSize
  bridgeAlignment : native.subscriber.sampleAlignment = config.sampleAlignment
  subscribed : native.subscriber.subscribed = true
  slots : native.subscriber.rxPool.slots.length = config.maxSamples

theorem ready_of_new (hconfig : Accepted config) :
    ∃ native, NativeSubscriber.new .Ok config = .ok native ∧ Ready config native ∧
      native.subscriber.rxPool.Holds [] := by
  have hcreate : upLolaSubscriberCreate .Ok config = .ok {
      sampleSize := config.sampleSize
      sampleAlignment := config.sampleAlignment
      maxSamples := config.maxSamples
      rxPool := .new 0 config.maxSamples { sample := none }
      subscribed := true } := by
    simp [upLolaSubscriberCreate, ensureProxyLocked, hconfig.sampleSize, hconfig.supported,
      hconfig.maxSamples, hconfig.instanceSpecifier, hconfig.eventName]
  rw [NativeSubscriber.new, hcreate]
  exact ⟨_, rfl, ⟨rfl, rfl, rfl, rfl, rfl, List.length_replicate⟩, holds_new _ _ _⟩

theorem new_notFound (hconfig : Accepted config) :
    ∃ e, NativeSubscriber.new .NotFound config = .error e ∧ e.code? = some .NOT_FOUND := by
  have hcreate : upLolaSubscriberCreate .NotFound config = .error .NotFound := by
    simp [upLolaSubscriberCreate, ensureProxyLocked, hconfig.sampleSize, hconfig.supported,
      hconfig.maxSamples, hconfig.instanceSpecifier, hconfig.eventName]
  rw [NativeSubscriber.new, hcreate]
  exact ⟨_, rfl, rfl⟩

section Received

variable {native : NativeSubscriber} {x : ℕ × SamplePtr} {held : List ℕ}

theorem Ready.ensureProxy (hready : Ready config native) (found : UpLolaStatusCode) :
    ensureProxyLocked found native.subscriber = (.Ok, native.subscriber) := by
  rw [ensureProxyLocked, if_pos hready.subscribed]

/-- A sample that is received is given the configured size and lies where it should. -/
theorem dataParts_ok (hconfig : Accepted config) (hready : Ready config native)
    (hx : WellFormed U w config x) {i : ℕ} {pool : RxSamplePool}
    (hreceived : Received pool i x config.sampleSize) :
    (NativeRxSample.mk i native.sampleSize native.sampleAlignment).dataParts pool "LoLa RX sample" =
      .ok (x.2.get, config.sampleSize) := by
  obtain ⟨slot, hslot, hin, -, hcontent⟩ := hreceived
  have haligned := hx.aligned
  simp only [pointerIsAligned, hconfig.supported, Bool.not_true, Bool.or_false,
    decide_eq_true_eq] at haligned
  split_ifs at haligned with hget
  simp only [decide_eq_true_eq] at haligned
  simp [NativeRxSample.dataParts, upLolaRxSampleData, upLolaRxSampleSize, hslot, hin, hcontent,
    hget, validateSampleParts, hready.size, hready.alignment, hconfig.alignment,
    hconfig.powerOfTwo, haligned]

theorem WellFormed.get_ne_zero (hx : WellFormed U w config x) : x.2.get ≠ 0 := by
  intro hget
  have haligned := hx.aligned
  simp [pointerIsAligned, hget] at haligned

/-- With a free slot the next sample is received as a lease. -/
theorem receiveLease_free (hconfig : Accepted config) (hready : Ready config native)
    (hx : WellFormed U w config x) (hholds : native.subscriber.rxPool.Holds held)
    (hlt : held.length < config.maxSamples) (found : UpLolaStatusCode)
    (rest : List (ℕ × SamplePtr)) :
    ∃ lease native', native.receiveLease U w found true (x :: rest) = (.ok lease, rest, native') ∧
      lease.sample = x ∧ LolaRxLease.fromSample U w x.2.bytes = .ok lease.lease ∧
      Ready config native' ∧ native'.subscriber.rxPool.Holds (lease.slot.sample :: held) := by
  obtain ⟨i, pool, hacquire⟩ := hholds.acquire Held.reset
    (by rw [hready.slots]; exact hlt)
  obtain ⟨frame, hframe⟩ := hx.frame
  let slot : NativeRxSample := ⟨i, native.sampleSize, native.sampleAlignment⟩
  let content : Held (Option (ℕ × SamplePtr)) := {
    sample := some x
    sampleData := x.2.get
    sampleSize := native.subscriber.sampleSize }
  let native' : NativeSubscriber :=
    { native with subscriber.rxPool := pool.update i fun _ => content }
  have hlends : Lends i native.subscriber.rxPool native'.subscriber.rxPool :=
    (lends_acquire hacquire).update fun _ => content
  have hreceived : Received native'.subscriber.rxPool i x config.sampleSize := by
    rw [← hready.bridgeSize]
    exact received_of_acquire hacquire x _
  have hparts := dataParts_ok hconfig hready hx hreceived
  have hreceive : native.receive found true (x :: rest) = (.ok slot, rest, native') := by
    have haligned := hx.aligned
    rw [← hready.bridgeAlignment] at haligned
    have hbridge : upLolaSubscriberReceive found true (x :: rest) native.subscriber =
        (.ok i, rest, native'.subscriber) := by
      simp [upLolaSubscriberReceive, hready.ensureProxy, getNewSamples, hx.get_ne_zero,
        RxSamplePool.acquire, hacquire, haligned, native', content]
    have hnew : slot.new native'.subscriber.rxPool = (.ok slot, native'.subscriber.rxPool) := by
      rw [NativeRxSample.new, hparts]
    rw [NativeSubscriber.receive, hbridge]
    dsimp only [mapResult]
    rw [hnew]
  have hlease : NativeLease.fromNative U w slot native' = (.ok ⟨x, slot, frame⟩, native') := by
    obtain ⟨_, hslot, -, -, hcontent⟩ := hreceived
    simp only [NativeLease.fromNative, NativeRxSample.asSlice, slot, hparts, hslot,
      Option.bind_some, hcontent, hframe]
  refine ⟨⟨x, slot, frame⟩, native', ?_, rfl, hframe, ?_, hholds.lends hlends⟩
  · rw [NativeSubscriber.receiveLease, hreceive]
    dsimp only
    rw [hlease]
  · exact ⟨hready.size, hready.alignment, hready.bridgeSize, hready.bridgeAlignment,
      hready.subscribed, hlends.changed.length.trans hready.slots⟩

/-- With every slot taken the next sample is lost. -/
theorem receiveLease_full (hready : Ready config native) (hx : WellFormed U w config x)
    (hholds : native.subscriber.rxPool.Holds held) (hle : config.maxSamples ≤ held.length)
    (found : UpLolaStatusCode) (rest : List (ℕ × SamplePtr)) :
    ∃ e, native.receiveLease U w found true (x :: rest) = (.error e, rest, native) ∧
      e.code? = some .RESOURCE_EXHAUSTED := by
  have hacquire := hholds.exhausted Held.reset (by rw [hready.slots]; exact hle)
  have hbridge : upLolaSubscriberReceive found true (x :: rest) native.subscriber =
      (.error .ResourceExhausted, rest, native.subscriber) := by
    simp [upLolaSubscriberReceive, hready.ensureProxy, getNewSamples, hx.get_ne_zero,
      RxSamplePool.acquire, hacquire]
  rw [NativeSubscriber.receiveLease, NativeSubscriber.receive, hbridge]
  exact ⟨_, rfl, rfl⟩

theorem receiveLease_nil (hready : Ready config native) (found : UpLolaStatusCode) :
    ∃ e, native.receiveLease U w found true [] = (.error e, [], native) ∧
      e.code? = some .NOT_FOUND := by
  have hbridge : upLolaSubscriberReceive found true [] native.subscriber =
      (.error .NotFound, [], native.subscriber) := by
    simp [upLolaSubscriberReceive, hready.ensureProxy, getNewSamples]
  rw [NativeSubscriber.receiveLease, NativeSubscriber.receive, hbridge]
  exact ⟨_, rfl, rfl⟩

end Received

/-! ## The leases of a subscription -/

/-- The slots in use are those of the leases. -/
def Leased (config : LolaTransportConfig) (pull : NativePull) (leases : List (NativeLease U)) :
    Prop :=
  match pull.subscriber with
  | none => leases = []
  | some native =>
    Ready config native ∧ native.subscriber.rxPool.Holds (leases.map (·.slot.sample))

/-- A receive finds a subscription, or makes one. -/
def NativePull.Discovered (E : Score) (pull : NativePull) : Prop :=
  pull.subscriber.isSome = true ∨ E.found pull.clock = .Ok

variable {pull : NativePull} {leases : List (NativeLease U)} {f : NativeLease U}

theorem Leased.perm {leases' : List (NativeLease U)} (h : Leased config pull leases)
    (hperm : leases.Perm leases') : Leased config pull leases' := by
  unfold Leased at h ⊢
  cases hsub : pull.subscriber with
  | none =>
    rw [hsub] at h
    obtain rfl : leases = [] := h
    exact hperm.nil_eq.symm
  | some native =>
    rw [hsub] at h
    exact ⟨h.1, h.2.perm (hperm.map _)⟩

theorem Leased.discovered (h : Leased config pull (f :: leases)) : pull.Discovered E := by
  cases hsub : pull.subscriber with
  | none =>
    rw [Leased, hsub] at h
    cases h
  | some native => exact .inl (by rw [hsub]; rfl)

/-- A lease that is dropped gives its slot back. -/
theorem Leased.release (h : Leased config pull (f :: leases)) :
    Leased config ((nativeBackend E U w config).release f pull) leases := by
  cases hsub : pull.subscriber with
  | none =>
    rw [Leased, hsub] at h
    cases h
  | some native =>
    rw [Leased, hsub] at h
    obtain ⟨hready, hholds⟩ := h
    have hdrop : f.slot.drop native.subscriber.rxPool =
        RxSamplePool.release f.slot.sample native.subscriber.rxPool :=
      rxDestroy_eq_release (hholds.lent.pointing List.mem_cons_self)
    simp only [Leased, nativeBackend, hsub, Option.map_some, NativeSubscriber.dropSample, hdrop]
    exact ⟨⟨hready.size, hready.alignment, hready.bridgeSize, hready.bridgeAlignment,
      hready.subscribed, changedAt_release.length.trans hready.slots⟩, hholds.release⟩

theorem Leased.releaseAll : ∀ {letGo : List (NativeLease U)} {pull : NativePull},
    Leased config pull (letGo ++ leases) →
      Leased config ((nativeBackend E U w config).releaseAll letGo pull) leases
  | [], _, h => h
  | _ :: _, _, h => (h.release (E := E) (w := w)).releaseAll

theorem NativePull.Discovered.releaseAll : ∀ {letGo : List (NativeLease U)} {pull : NativePull},
    pull.Discovered E → ((nativeBackend E U w config).releaseAll letGo pull).Discovered E
  | [], _, h => h
  | f :: _, pull, h => by
    have hrelease : ((nativeBackend E U w config).release f pull).Discovered E := by
      rwa [NativePull.Discovered, nativeBackend, Option.isSome_map]
    exact hrelease.releaseAll

/-- The subscription exists, is made, or is not found yet. -/
theorem created_cases (hconfig : Accepted config) (hE : E.Delivers)
    (h : Leased config pull leases) :
    (pull.Discovered E ∧ ∃ native, pull.created E config = .ok native ∧ Ready config native ∧
      native.subscriber.rxPool.Holds (leases.map (·.slot.sample))) ∨
    ¬ pull.Discovered E ∧
      ∃ e, pull.created E config = .error e ∧ e.code? = some .NOT_FOUND := by
  cases hsub : pull.subscriber with
  | some native =>
    rw [Leased, hsub] at h
    refine .inl ⟨.inl (by rw [hsub]; rfl), native, ?_, h⟩
    rw [NativePull.created, hsub]
  | none =>
    rw [Leased, hsub] at h
    obtain rfl : leases = [] := h
    have hcreated : pull.created E config = NativeSubscriber.new (E.found pull.clock) config := by
      rw [NativePull.created, hsub]
    rw [hcreated]
    rcases hE.found pull.clock with hfound | hfound
    · obtain ⟨native, hnew, hready, hholds⟩ := ready_of_new hconfig
      rw [hfound]
      exact .inl ⟨.inr hfound, native, hnew, hready, hholds⟩
    · rw [hfound]
      refine .inr ⟨?_, new_notFound hconfig⟩
      rintro (hsome | hok)
      · rw [hsub] at hsome
        cases hsome
      · rw [hfound] at hok
        cases hok

/-- What taking the next sample comes to with these leases held: with every slot taken the sample
is lost. -/
def NextOutcome (E : Score) (w : PointerWidth) (config : LolaTransportConfig)
    (leases : List (NativeLease U)) (pull pull' : NativePull) :
    Taken (ℕ × SamplePtr) (NativeLease U) → Prop
  | .nothing e => e.code? = some .NOT_FOUND ∧ (pull.Discovered E → pull.undelivered = []) ∧
    Leased config pull' leases
  | .lost x e => e.code? = some .RESOURCE_EXHAUSTED ∧ pull.Discovered E ∧
    pull.undelivered = x :: pull'.undelivered ∧ config.maxSamples ≤ leases.length ∧
    Leased config pull' leases
  | .frame f => pull.Discovered E ∧ pull.undelivered = f.sample :: pull'.undelivered ∧
    LolaRxLease.fromSample U w f.sample.2.bytes = .ok f.lease ∧
    leases.length < config.maxSamples ∧ Leased config pull' (f :: leases)

theorem receiveNext_outcome (hconfig : Accepted config) (hE : E.Delivers)
    (hleased : Leased config pull leases) (hwell : ∀ x ∈ pull.undelivered, WellFormed U w config x)
    {t : Taken (ℕ × SamplePtr) (NativeLease U)} {pull' : NativePull}
    (h : (nativeBackend E U w config).receiveNext pull = (t, pull')) :
    NextOutcome E w config leases pull pull' t := by
  change receiveNextZeroCopy E U w config pull = _ at h
  rw [receiveNextZeroCopy] at h
  rcases created_cases hconfig hE hleased with
    ⟨hfound, native, hcreated, hready, hholds⟩ | ⟨hfound, e, hcreated, he⟩
  · rw [hcreated] at h
    dsimp only at h
    rw [hE.works] at h
    cases hundelivered : pull.undelivered with
    | nil =>
      obtain ⟨e, hreceive, he⟩ := receiveLease_nil (U := U) (w := w) hready (E.found pull.clock)
      rw [hundelivered, hreceive] at h
      cases h
      exact ⟨he, fun _ => hundelivered, hready, hholds⟩
    | cons x rest =>
      have hx := hwell x (by rw [hundelivered]; exact List.mem_cons_self)
      rw [hundelivered] at h
      by_cases hlt : leases.length < config.maxSamples
      · obtain ⟨f, native', hreceive, rfl, hframe, hready', hholds'⟩ :=
          receiveLease_free hconfig hready hx hholds (by rw [List.length_map]; exact hlt)
            (E.found pull.clock) rest
        rw [hreceive] at h
        cases h
        exact ⟨hfound, hundelivered, hframe, hlt, hready', hholds'⟩
      · have hle := Nat.le_of_not_lt hlt
        obtain ⟨e, hreceive, he⟩ := receiveLease_full hready hx hholds
          (by rw [List.length_map]; exact hle) (E.found pull.clock) rest
        rw [hreceive] at h
        simp only [List.length_cons, Nat.add_sub_cancel_left, List.take_succ_cons,
          List.take_zero] at h
        cases h
        exact ⟨he, hfound, hundelivered, hle, hready, hholds⟩
  · rw [hcreated] at h
    cases h
    exact ⟨he, fun hyes => absurd hyes hfound, hleased⟩

/-! ## One call -/

/-- A frame that matches the filters, or `NOT_FOUND`. -/
def Served (filters : Filters U) : Except Fault (NativeLease U) → Prop
  | .ok f => frameMatches filters f.lease = true
  | .error e => e.code? = some .NOT_FOUND

/-- A sample that the filters do not match. -/
def PassedOver (w : PointerWidth) (filters : Filters U) (x : ℕ × SamplePtr) : Prop :=
  ∃ lease, LolaRxLease.fromSample U w x.2.bytes = .ok lease ∧ frameMatches filters lease = false

/-- The kept frames, with undelivered samples that the filters do not match, take every slot of the
pool, and a sample is left. -/
structure Crowded (E : Score) (w : PointerWidth) (config : LolaTransportConfig)
    (filters : Filters U) (s : PullState (NativeLease U) NativePull) : Prop where
  capacity : config.maxSamples ≤ config.pullMismatchQueueCapacity
  discovered : s.backend.Discovered E
  passed : ∀ x ∈ s.backend.undelivered.take
    (config.maxSamples - s.pullMismatchQueue.queue.length), PassedOver w filters x
  left : config.maxSamples - s.pullMismatchQueue.queue.length < s.backend.undelivered.length

/-- The slots in use are those of the kept frames, and every sample in line is a frame. -/
structure Stocked (E : Score) (w : PointerWidth) (config : LolaTransportConfig)
    (s : PullState (NativeLease U) NativePull) : Prop where
  bounded : s.pullMismatchQueue.Bounded config.pullMismatchQueueCapacity
  leased : Leased config s.backend s.pullMismatchQueue.queue
  wellFormed : ∀ x ∈ s.line (nativeBackend E U w config), WellFormed U w config x

theorem Stocked.undelivered {s : PullState (NativeLease U) NativePull}
    (hs : Stocked E w config s) : ∀ x ∈ s.backend.undelivered, WellFormed U w config x :=
  fun x hx => hs.wellFormed x (List.mem_append_right _ hx)

/-- The lease a call returns, which its caller has yet to drop. -/
def returned : Except Fault (NativeLease U) → List (NativeLease U)
  | .ok f => [f]
  | .error _ => []

theorem PassedOver.of_fromSample {filters : Filters U} {x : ℕ × SamplePtr} {lease : LolaRxLease U}
    (h : LolaRxLease.fromSample U w x.2.bytes = .ok lease) :
    PassedOver w filters x ↔ frameMatches filters lease = false := by
  constructor
  · rintro ⟨lease', h', hmatch⟩
    rw [h] at h'
    cases h'
    exact hmatch
  · exact fun hmatch => ⟨lease, h, hmatch⟩

section Kept

variable {filters : Filters U} {s : PullState (NativeLease U) NativePull} {b : NativePull}

/-- A frame that is kept takes its slot with it, and what is dropped gives its slot back. -/
theorem stocked_keep (hs : Stocked E w config s)
    (h : (nativeBackend E U w config).receiveNext s.backend = (.frame f, b))
    (hleased : Leased config b (f :: s.pullMismatchQueue.queue))
    (hok : (queuePullSample (nativeFrames U) config f s.pullMismatchQueue).result = .ok ()) :
    Stocked E w config
      ⟨(nativeBackend E U w config).releaseAll
          (queuePullSample (nativeFrames U) config f s.pullMismatchQueue).letGo b,
        (queuePullSample (nativeFrames U) config f s.pullMismatchQueue).state⟩ where
  bounded := queuePullSample_bounded f hs.bounded
  leased := by
    refine Leased.releaseAll ?_
    rw [(queuePullSample_ok hs.bounded hok).1]
    exact hleased.perm (List.perm_append_singleton _ _).symm
  wellFormed x hx := hs.wellFormed x ((sublist_of_queue hs.bounded h).subset hx)

/-- Keeping a frame that was passed over neither makes room nor takes any. -/
theorem crowded_keep {s' : PullState (NativeLease U) NativePull} {x : ℕ × SamplePtr}
    {rest : List (ℕ × SamplePtr)} (hx : PassedOver w filters x)
    (hfound : s.backend.Discovered E) (hfound' : s'.backend.Discovered E)
    (hundelivered : s.backend.undelivered = x :: rest) (hrest : s'.backend.undelivered = rest)
    (hlt : s.pullMismatchQueue.queue.length < config.maxSamples)
    (hlength : config.maxSamples ≤ config.pullMismatchQueueCapacity →
      s'.pullMismatchQueue.queue.length = s.pullMismatchQueue.queue.length + 1) :
    Crowded E w config filters s' ↔ Crowded E w config filters s := by
  have hroom (hle : config.maxSamples ≤ config.pullMismatchQueueCapacity) :
      config.maxSamples - s.pullMismatchQueue.queue.length =
        config.maxSamples - s'.pullMismatchQueue.queue.length + 1 := by
    rw [hlength hle]
    omega
  constructor
  · rintro ⟨hle, -, hpassed, hleft⟩
    rw [hrest] at hpassed hleft
    refine ⟨hle, hfound, ?_, ?_⟩
    · rw [hroom hle, hundelivered, List.take_succ_cons]
      exact List.forall_mem_cons.2 ⟨hx, hpassed⟩
    · rw [hroom hle, hundelivered, List.length_cons]
      exact Nat.succ_lt_succ hleft
  · rintro ⟨hle, -, hpassed, hleft⟩
    rw [hroom hle, hundelivered] at hpassed hleft
    rw [List.take_succ_cons] at hpassed
    refine ⟨hle, hfound', ?_, ?_⟩
    · rw [hrest]
      exact (List.forall_mem_cons.1 hpassed).2
    · rw [hrest]
      exact Nat.lt_of_succ_lt_succ hleft

end Kept

/-- The loop keeps the slots to the leases, and ends in something other than a match or `NOT_FOUND`
exactly when it starts out crowded. -/
theorem receiveLoop_served (hconfig : Accepted config) (hE : E.Delivers)
    (hpolicy : config.pullMismatchQueueFullPolicy = .DropOldestAndReport)
    (filters : Filters U) (s : PullState (NativeLease U) NativePull)
    (hs : Stocked E w config s) :
    (Served filters (receiveLoop config (nativeBackend E U w config) filters s).1 ↔
        ¬ Crowded E w config filters s) ∧
      Leased config (receiveLoop config (nativeBackend E U w config) filters s).2.backend
        (returned (receiveLoop config (nativeBackend E U w config) filters s).1 ++
          (receiveLoop config (nativeBackend E U w config) filters
            s).2.pullMismatchQueue.queue) := by
  fun_induction receiveLoop config (nativeBackend E U w config) filters s with
  | case1 s e b h =>
    obtain ⟨he, hnone, hleased⟩ := receiveNext_outcome hconfig hE hs.leased hs.undelivered h
    refine ⟨iff_of_true he fun hcrowded => ?_, hleased⟩
    have hleft := hcrowded.left
    rw [hnone hcrowded.discovered] at hleft
    cases hleft
  | case2 s x e b h =>
    obtain ⟨he, hfound, hundelivered, hfull, hleased⟩ :=
      receiveNext_outcome hconfig hE hs.leased hs.undelivered h
    refine ⟨iff_of_false (fun hserved => ?_) (not_not_intro ?_), hleased⟩
    · rw [Served, he] at hserved
      cases hserved
    · have hroom : config.maxSamples - s.pullMismatchQueue.queue.length = 0 := by omega
      refine ⟨hfull.trans hs.bounded.length_le, hfound, ?_, ?_⟩
      · rw [hroom]
        simp
      · rw [hroom, hundelivered]
        exact Nat.succ_pos _
  | case3 s f b h hf =>
    obtain ⟨-, hundelivered, hframe, hlt, hleased⟩ :=
      receiveNext_outcome hconfig hE hs.leased hs.undelivered h
    refine ⟨iff_of_true hf fun hcrowded => ?_, hleased⟩
    have hpassed := hcrowded.passed f.sample (by
      rw [hundelivered, List.mem_take_iff_getElem]
      exact ⟨0, by simp; omega, rfl⟩)
    rw [PassedOver.of_fromSample hframe] at hpassed
    change frameMatches filters f.lease = true at hf
    rw [hf] at hpassed
    cases hpassed
  | case4 s f b h hf queued s' e he =>
    have hreject := (queuePullSample_error he).1
    rw [hpolicy] at hreject
    cases hreject
  | case5 s f b h hf queued s' hok ih =>
    obtain ⟨hfound, hundelivered, hframe, hlt, hleased⟩ :=
      receiveNext_outcome hconfig hE hs.leased hs.undelivered h
    have hs' : Stocked E w config s' := stocked_keep hs h hleased hok
    obtain ⟨hserved, hleased'⟩ := ih hs'
    refine ⟨hserved.trans (not_congr (crowded_keep ?_ hfound ?_ hundelivered ?_ hlt ?_)), hleased'⟩
    · rw [PassedOver.of_fromSample hframe]
      change ¬ frameMatches filters f.lease = true at hf
      simpa using hf
    · exact hleased.discovered.releaseAll
    · exact (nativeBackend E U w config).samples_releaseAll _ _
    · intro hle
      obtain ⟨happ, hlength, -⟩ := queuePullSample_ok hs.bounded hok
      have hsum := congrArg List.length happ
      simp only [List.length_append, List.length_singleton] at hsum
      change (queuePullSample (nativeFrames U) config f
        s.pullMismatchQueue).state.queue.length = _
      omega

/-- No kept frame matches, and the pool has too few slots for what the search has to keep. -/
structure Overfull (E : Score) (w : PointerWidth) (config : LolaTransportConfig)
    (filters : Filters U) (s : PullState (NativeLease U) NativePull) : Prop
    extends Crowded E w config filters s where
  unmatched : ∀ f ∈ s.pullMismatchQueue.queue, frameMatches filters f.lease = false

/-- A call returns a match or `NOT_FOUND` unless it wants more slots than the pool has. -/
theorem receive_served (hconfig : Accepted config) (hE : E.Delivers)
    (hpolicy : config.pullMismatchQueueFullPolicy = .DropOldestAndReport)
    (filters : Filters U) {s : PullState (NativeLease U) NativePull} (hs : Stocked E w config s) :
    (Served filters
        (receiveValidatedZeroCopy config (nativeBackend E U w config) filters s).1 ↔
        ¬ Overfull E w config filters s) ∧
      Leased config
        (receiveValidatedZeroCopy config (nativeBackend E U w config) filters s).2.backend
        (returned (receiveValidatedZeroCopy config (nativeBackend E U w config) filters s).1 ++
          (receiveValidatedZeroCopy config (nativeBackend E U w config) filters
            s).2.pullMismatchQueue.queue) := by
  unfold receiveValidatedZeroCopy
  split
  · rename_i f q' hpop
    obtain ⟨q₁, q₂, hqueue, -, hmatch, rfl⟩ := popQueuedPullSample_some hpop
    refine ⟨iff_of_true hmatch fun hfull => ?_, hs.leased.perm ?_⟩
    · have hnot := hfull.unmatched f (by rw [hqueue]; simp)
      change frameMatches filters f.lease = true at hmatch
      rw [hmatch] at hnot
      cases hnot
    · rw [hqueue]
      exact List.perm_middle
  · rename_i hpop
    obtain ⟨hserved, hleased⟩ := receiveLoop_served hconfig hE hpolicy filters s hs
    refine ⟨hserved.trans (not_congr ⟨fun hcrowded => ⟨hcrowded, ?_⟩, (·.toCrowded)⟩), hleased⟩
    exact (popQueuedPullSample_none hpop).2

/-! ## Whole runs -/

theorem stocked_applyAndDrop (hconfig : Accepted config) (hE : E.Delivers)
    (hpolicy : config.pullMismatchQueueFullPolicy = .DropOldestAndReport)
    {s : PullState (NativeLease U) NativePull} (hs : Stocked E w config s)
    (op : PullOp (Filters U) (ℕ × SamplePtr))
    (hop : ∀ x, op = .send x → WellFormed U w config x) :
    Stocked E w config (op.applyAndDrop config (nativeBackend E U w config) s) := by
  cases op with
  | send x =>
    refine ⟨hs.bounded, hs.leased, fun y hy => ?_⟩
    rw [PullOp.applyAndDrop, sendValidatedZeroCopy, PullState.line,
      (nativeBackend E U w config).samples_arrive, ← List.append_assoc] at hy
    rcases List.mem_append.1 hy with hy | hy
    · exact hs.wellFormed y hy
    · rw [List.mem_singleton.1 hy]
      exact hop x rfl
  | receive filters =>
    obtain ⟨hbounded, hline⟩ :=
      receive_keeps (B := nativeBackend E U w config) filters s hs.bounded
    obtain ⟨-, hleased⟩ := receive_served hconfig hE hpolicy filters hs
    unfold PullOp.applyAndDrop
    dsimp only
    split
    · rename_i f s' h
      rw [h] at hbounded hline hleased
      have hgiven : Leased config ((nativeBackend E U w config).release f s'.backend)
          s'.pullMismatchQueue.queue := Leased.release hleased
      refine ⟨hbounded, hgiven, fun x hx => hs.wellFormed x (hline.subset ?_)⟩
      rwa [PullState.line, (nativeBackend E U w config).samples_release] at hx
    · rename_i e s' h
      rw [h] at hbounded hline hleased
      exact ⟨hbounded, hleased, fun x hx => hs.wellFormed x (hline.subset hx)⟩

theorem stocked_init : Stocked (U := U) E w config { backend := {} } where
  bounded := PullMismatchQueueState.bounded_empty _
  leased := rfl
  wellFormed := by simp [PullState.line, nativeBackend]

/-- The native backend after these arrivals and receives. -/
def nativeAfter (E : Score) (w : PointerWidth) (config : LolaTransportConfig)
    (ops : List (PullOp (Filters U) (ℕ × SamplePtr))) : PullState (NativeLease U) NativePull :=
  runPullAndDrop config (nativeBackend E U w config) { backend := {} } ops

/-- What the receive after them returns. -/
def nativeResult (E : Score) (w : PointerWidth) (config : LolaTransportConfig)
    (ops : List (PullOp (Filters U) (ℕ × SamplePtr))) (filters : Filters U) :
    Except Fault (NativeLease U) :=
  (receiveValidatedZeroCopy config (nativeBackend E U w config) filters
    (nativeAfter E w config ops)).1

theorem stocked_run (hconfig : Accepted config) (hE : E.Delivers)
    (hpolicy : config.pullMismatchQueueFullPolicy = .DropOldestAndReport)
    {ops : List (PullOp (Filters U) (ℕ × SamplePtr))}
    (hops : ∀ x, .send x ∈ ops → WellFormed U w config x) :
    Stocked E w config (nativeAfter E w config ops) := by
  induction ops using List.reverseRecOn with
  | nil => exact stocked_init
  | append_singleton ops op ih =>
    rw [nativeAfter, runPullAndDrop, List.foldl_concat]
    refine stocked_applyAndDrop hconfig hE hpolicy (ih fun x hx => hops x ?_) op fun x hx => ?_
    · exact List.mem_append_left _ hx
    · exact hops x (List.mem_append_right _ (by rw [hx]; exact List.mem_singleton_self _))

theorem nativeResult_served (hconfig : Accepted config) (hE : E.Delivers)
    (hpolicy : config.pullMismatchQueueFullPolicy = .DropOldestAndReport)
    {ops : List (PullOp (Filters U) (ℕ × SamplePtr))}
    (hops : ∀ x, .send x ∈ ops → WellFormed U w config x) (filters : Filters U) :
    Served filters (nativeResult E w config ops filters) ↔
      ¬ Overfull E w config filters (nativeAfter E w config ops) :=
  (receive_served hconfig hE hpolicy filters (stocked_run hconfig hE hpolicy hops)).1

/-- The samples are sent and nothing is received. -/
theorem runPullAndDrop_sends {Φ S F σ : Type} {V : FrameView Φ S F}
    (config : LolaTransportConfig) (B : PullBackend V σ) (x : S)
    (s : PullState F σ) : ∀ n,
      (runPullAndDrop config B s (List.replicate n (.send x))).pullMismatchQueue =
          s.pullMismatchQueue ∧
        B.samples (runPullAndDrop config B s (List.replicate n (.send x))).backend =
          B.samples s.backend ++ List.replicate n x
  | 0 => ⟨rfl, (List.append_nil _).symm⟩
  | n + 1 => by
    obtain ⟨hqueue, hsamples⟩ := runPullAndDrop_sends config B x s n
    rw [List.replicate_succ', List.replicate_succ', runPullAndDrop, List.foldl_concat]
    refine ⟨hqueue, ?_⟩
    rw [PullOp.applyAndDrop, sendValidatedZeroCopy, B.samples_arrive]
    exact (congrArg (· ++ [x]) hsamples).trans (List.append_assoc _ _ _)

/-- Under `DropOldestAndReport` every receive of every run returns a match or `NOT_FOUND` exactly
when the mismatch queue is smaller than the sample pool; a single receive does unless the kept
frames take every slot it would need. -/
theorem native_receive_served {created : UpLolaStatusCode} {id : ℕ} {transport : UTransportLola}
    (hbuilt : UTransportLola.build created config id = .ok transport)
    (hpolicy : config.pullMismatchQueueFullPolicy = .DropOldestAndReport)
    {y : ℕ × SamplePtr} (hy : WellFormed U w config y) {other : Filters U}
    (hother : PassedOver w other y) :
    ((∀ (E : Score), E.Delivers → ∀ ops : List (PullOp (Filters U) (ℕ × SamplePtr)),
        (∀ x, .send x ∈ ops → WellFormed U w config x) → ∀ filters,
          Served filters (nativeResult E w config ops filters)) ↔
        config.pullMismatchQueueCapacity < config.maxSamples) ∧
      ∀ (E : Score), E.Delivers → ∀ ops : List (PullOp (Filters U) (ℕ × SamplePtr)),
        (∀ x, .send x ∈ ops → WellFormed U w config x) → ∀ filters,
          (Served filters (nativeResult E w config ops filters) ↔
            ¬ Overfull E w config filters (nativeAfter E w config ops)) := by
  have hconfig := accepted_of_build hbuilt
  refine ⟨⟨fun hall => ?_, fun hlt E hE ops hops filters => ?_⟩,
    fun E hE ops hops filters => nativeResult_served hconfig hE hpolicy hops filters⟩
  · by_contra hle
    -- one more sample than there are slots, and none of them is wanted
    let E : Score := ⟨fun _ => .Ok, fun _ => true⟩
    have hE : E.Delivers := ⟨fun _ => .inl rfl, fun _ => rfl⟩
    let ops : List (PullOp (Filters U) (ℕ × SamplePtr)) :=
      List.replicate (config.maxSamples + 1) (.send y)
    have hops (x : ℕ × SamplePtr) (hx : .send x ∈ ops) : WellFormed U w config x := by
      cases List.eq_of_mem_replicate hx
      exact hy
    refine (nativeResult_served hconfig hE hpolicy hops other).1 (hall E hE ops hops other) ?_
    obtain ⟨hqueue, hsamples⟩ := runPullAndDrop_sends config (nativeBackend E U w config) y
      { backend := {} } (config.maxSamples + 1)
    have hundelivered : (nativeAfter E w config ops).backend.undelivered =
        List.replicate (config.maxSamples + 1) y := hsamples
    have hempty : (nativeAfter E w config ops).pullMismatchQueue.queue = [] :=
      congrArg PullMismatchQueueState.queue hqueue
    refine ⟨⟨Nat.le_of_not_lt hle, .inr rfl, ?_, ?_⟩, ?_⟩
    · rw [hundelivered]
      intro x hx
      rw [List.eq_of_mem_replicate (List.mem_of_mem_take hx)]
      exact hother
    · rw [hundelivered, List.length_replicate]
      omega
    · rw [hempty]
      exact fun _ hf => absurd hf List.not_mem_nil
  · refine (nativeResult_served hconfig hE hpolicy hops filters).2 fun hfull => ?_
    have := hfull.capacity
    omega

/-- A sample on the topic `a` at an aligned address. -/
def plainArrival (n : ℕ) : ℕ × SamplePtr := (n, ⟨64, sampleA⟩)

/-- S-CORE finds the service at once. -/
def plainScore : Score := ⟨fun _ => .Ok, fun _ => true⟩

theorem plainScore_delivers : plainScore.Delivers := ⟨fun _ => .inl rfl, fun _ => rfl⟩

theorem plainConfig_built (n capacity : ℕ) (policy : LolaPullMismatchQueueFullPolicy) :
    ∃ transport, UTransportLola.build .Ok (plainConfig (n + 1) capacity policy) 0 =
      .ok transport := by
  have hvalid : (plainConfig (n + 1) capacity policy).validate = .ok () := by
    have hpower : LolaTransport.isPowerOfTwo 1 = true := by decide
    simp [LolaTransportConfig.validate, validateNonEmpty, plainConfig, hpower]
    rfl
  have hcreate : ∃ bridge, upLolaTransportCreate .Ok (plainConfig (n + 1) capacity policy) 0 =
      .ok bridge := by
    have hsupported : isSupportedSampleAlignment 1 = true := by decide
    simp [upLolaTransportCreate, plainConfig, hsupported]
  obtain ⟨bridge, hbridge⟩ := hcreate
  rw [UTransportLola.build, hvalid, NativeTransport.new, hbridge]
  exact ⟨_, rfl⟩

theorem plainArrival_wellFormed (n maxSamples capacity : ℕ)
    (policy : LolaPullMismatchQueueFullPolicy) :
    WellFormed plainUpRust .w64 (plainConfig maxSamples capacity policy) (plainArrival n) :=
  ⟨(by decide : pointerIsAligned 64 1 = true), leaseA, fromSample_sampleA⟩

theorem plainArrival_passedOver (n : ℕ) : PassedOver .w64 filtersB (plainArrival n) :=
  ⟨leaseA, fromSample_sampleA, frameMatches_plain.2.2.1⟩

/-- Two samples have arrived. -/
def plainArrivals : List (PullOp (Filters plainUpRust) (ℕ × SamplePtr)) :=
  [.send (plainArrival 0), .send (plainArrival 1)]

theorem plainArrivals_wellFormed (maxSamples capacity : ℕ)
    (policy : LolaPullMismatchQueueFullPolicy) (x : ℕ × SamplePtr)
    (hx : .send x ∈ plainArrivals) :
    WellFormed plainUpRust .w64 (plainConfig maxSamples capacity policy) x := by
  simp only [plainArrivals, List.mem_cons, PullOp.send.injEq, List.not_mem_nil, or_false] at hx
  rcases hx with rfl | rfl
  · exact plainArrival_wellFormed _ _ _ _
  · exact plainArrival_wellFormed _ _ _ _

/-- Two slots and room for one kept frame: the older sample is dropped for the newer one. -/
theorem native_receive_served_plain :
    Served filtersB (nativeResult plainScore .w64 (plainConfig 2 1 .DropOldestAndReport)
      plainArrivals filtersB) := by
  obtain ⟨transport, hbuilt⟩ := plainConfig_built 1 1 .DropOldestAndReport
  exact (native_receive_served hbuilt rfl (plainArrival_wellFormed 0 _ _ _)
    (plainArrival_passedOver 0)).1.2 (by decide) plainScore plainScore_delivers plainArrivals
      (plainArrivals_wellFormed _ _ _) filtersB

/-- One slot and room for one kept frame: the frame that is kept takes the slot. -/
theorem native_receive_unserved :
    (∃ transport, UTransportLola.build .Ok (plainConfig 1 1 .DropOldestAndReport) 0 =
      .ok transport) ∧ plainScore.Delivers ∧
      (∀ x, .send x ∈ plainArrivals →
        WellFormed plainUpRust .w64 (plainConfig 1 1 .DropOldestAndReport) x) ∧
      ¬ Served filtersB (nativeResult plainScore .w64 (plainConfig 1 1 .DropOldestAndReport)
        plainArrivals filtersB) := by
  obtain ⟨transport, hbuilt⟩ := plainConfig_built 0 1 .DropOldestAndReport
  have hwell := plainArrivals_wellFormed 1 1 .DropOldestAndReport
  refine ⟨⟨transport, hbuilt⟩, plainScore_delivers, hwell, fun hserved => ?_⟩
  refine (nativeResult_served (accepted_of_build hbuilt) plainScore_delivers rfl hwell
    filtersB).1 hserved ⟨⟨le_rfl, .inr rfl, ?_, by decide⟩, ?_⟩
  · intro x hx
    rw [List.mem_singleton.1 hx]
    exact plainArrival_passedOver 0
  · exact fun _ hf => absurd hf List.not_mem_nil

end LolaTransport
