import LolaTransport.Lib.Window
import LolaTransport.OwnedBenchmark
import LolaTransport.Proofs.Registrations

/-!
# Two lists of listeners

Every `OwnedBenchmarkListener` has one owner: a registration in the wrapper's list, or a call that
waits for its call of the transport (`owners`).  The owner knows whether the transport has it
registered, so the two lists agree whenever no such call is in progress (`registries_agree`).
-/

namespace LolaTransport

variable {Φ S F L O σ : Type}

/-- The listener that a call waits with. -/
def OwnedPhase.owned : OwnedPhase → Option ℕ
  | .inner _ zeroCopyListener => some zeroCopyListener
  | _ => none

namespace ListenerState

/-- In this phase a call has its registration in the list. -/
def Holds : ListenerApi → CallPhase → Prop
  | .register, .task => True
  | .register, .returned (.ok ()) => True
  | .unregister, .listeners => True
  | _, _ => False

/-- Of the calls the one at `c` goes on to `phase`; of the registrations its own comes or goes. -/
structure Moves (s s' : ListenerState Φ S F L σ) (c : ℕ) (call : ListenerCall Φ L)
    (phase : CallPhase) : Prop where
  calls : s'.calls = s.calls.set c { call with phase }
  left : phase ≠ .listeners
  others : ∀ id, id ≠ (call.filters, call.listener) →
    (id ∈ s'.listeners.map (·.identity) ↔ id ∈ s.listeners.map (·.identity))
  own : ((call.filters, call.listener) ∈ s.listeners.map (·.identity) ↔ Holds call.api call.phase) →
    ((call.filters, call.listener) ∈ s'.listeners.map (·.identity) ↔ Holds call.api phase)
  same : call.phase ≠ .listeners →
    s'.listeners.map (·.identity) = s.listeners.map (·.identity)
  found : call.api = .unregister →
    ((call.filters, call.listener) ∈ s.listeners.map (·.identity) ↔ Holds call.api call.phase) →
      ∀ e, phase ≠ .returned (.error e)

variable {s s' : ListenerState Φ S F L σ} {c : ℕ} {call : ListenerCall Φ L}

theorem moves_ensured (hp : call.phase = .task) (hapi : call.api = .register) :
    s.Moves ((s.ensureListenerTask (.ok ())).2.setCall c call
      (.returned (s.ensureListenerTask (.ok ())).1)) c call (.returned (.ok ())) := by
  have hids : (s.ensureListenerTask (.ok ())).2.listeners.map (·.identity) =
      s.listeners.map (·.identity) := by rw [ensureListenerTask_listeners]
  have hok : (s.ensureListenerTask (.ok ())).1 = .ok () := ensureListenerTask_eq_ok.2 (.inr rfl)
  constructor
  · rw [setCall, ensureListenerTask_calls, hok]
  · simp
  · exact fun id _ => by rw [setCall, hids]
  · intro hown
    rw [hp, hapi] at hown
    rw [setCall, hids, hapi]
    exact hown
  · exact fun _ => hids
  · intro hunregister
    simp [hapi] at hunregister

theorem moves_stopped (hp : call.phase = .task) (hapi : call.api = .unregister) :
    s.Moves (s.stopListenerTask.setCall c call (.returned (.ok ()))) c call
      (.returned (.ok ())) := by
  obtain ⟨tasks, hstop⟩ := stopListenerTask_eq (s := s)
  rw [hstop]
  constructor
  · rfl
  · simp
  · exact fun id _ => .rfl
  · intro hown
    rw [hp, hapi] at hown
    rw [hapi]
    exact hown
  · exact fun _ => rfl
  · exact fun _ _ e => by simp

variable [DecidableEq Φ] [DecidableEq L] {backend : Backend} {receive : σ → Except Fault S × σ}
  {C : FrameCodec Φ S F} {a : ListenerAction Φ S L σ} {created : Except Fault σ}
  {listeners : List (ListenerRegistration Φ L σ)}

theorem moves_failed {e : Fault} (hp : call.phase = .listeners)
    (h : call.api = .register ∧
        registerListener call.filters call.listener created s.listeners = .error e ∨
      call.api = .unregister ∧
        unregisterListener call.filters call.listener s.listeners = .error e) :
    s.Moves (s.setCall c call (.returned (.error e))) c call (.returned (.error e)) := by
  have hfound (hapi : call.api = .unregister) :
      ¬ ((call.filters, call.listener) ∈ s.listeners.map (·.identity) ↔
        Holds call.api call.phase) := by
    rcases h with ⟨hregister, -⟩ | ⟨-, he⟩
    · simp [hapi] at hregister
    · rw [hapi, hp]
      exact fun hown => not_mem_of_unregisterListener he (hown.2 trivial)
  constructor
  · rfl
  · simp
  · exact fun id _ => .rfl
  · intro hown
    cases hapi : call.api with
    | register =>
      rw [hapi, hp] at hown
      exact hown
    | unregister => exact absurd hown (hfound hapi)
  · exact fun _ => rfl
  · exact fun hapi hown => absurd hown (hfound hapi)

theorem moves_pushed (hp : call.phase = .listeners) (hapi : call.api = .register)
    (h : registerListener call.filters call.listener created s.listeners = .ok listeners) :
    s.Moves ({ s with listeners }.setCall c call .task) c call .task := by
  obtain ⟨-, subscriber, -, rfl⟩ := registerListener_eq_ok.1 h
  let r : ListenerRegistration Φ L σ := ⟨call.filters, call.listener, subscriber⟩
  have hids : List.map (·.identity) (s.listeners ++ [r]) =
      s.listeners.map (·.identity) ++ [(call.filters, call.listener)] := List.map_append
  constructor
  · rfl
  · simp
  · intro id hid
    show id ∈ List.map (·.identity) (s.listeners ++ [r]) ↔ _
    rw [hids, List.mem_append, List.mem_singleton]
    exact or_iff_left hid
  · intro _
    show _ ∈ List.map (·.identity) (s.listeners ++ [r]) ↔ _
    rw [hids, hapi]
    exact iff_of_true (List.mem_append_right _ (List.mem_singleton.2 rfl)) trivial
  · exact fun hnot => absurd hp hnot
  · intro hunregister
    simp [hapi] at hunregister

theorem moves_removed {shouldStop : Bool} {phase : CallPhase}
    (hnodup : (s.listeners.map (·.identity)).Nodup) (hp : call.phase = .listeners)
    (hapi : call.api = .unregister)
    (h : unregisterListener call.filters call.listener s.listeners = .ok (listeners, shouldStop))
    (hphase : phase = .task ∨ phase = .returned (.ok ())) :
    s.Moves ({ s with listeners }.setCall c call phase) c call phase := by
  obtain ⟨before, r, after, hlist, hr, rfl, -⟩ := unregisterListener_ok h
  have hids : s.listeners.map (·.identity) =
      before.map (·.identity) ++ (call.filters, call.listener) :: after.map (·.identity) := by
    rw [hlist, List.map_append, List.map_cons, hr]
  have habsent : (call.filters, call.listener) ∉ (before ++ after).map (·.identity) := by
    rw [hids, List.nodup_middle] at hnodup
    rw [List.map_append]
    exact (List.nodup_cons.1 hnodup).1
  constructor
  · rfl
  · rcases hphase with rfl | rfl <;> simp
  · intro id hid
    show id ∈ (before ++ after).map (·.identity) ↔ _
    rw [hids, List.map_append, List.mem_append, List.mem_append, List.mem_cons]
    exact or_congr_right (or_iff_right hid).symm
  · refine fun _ => iff_of_false habsent ?_
    rw [hapi]
    rcases hphase with rfl | rfl <;> exact id
  · exact fun hnot => absurd hp hnot
  · intro _ _ e
    rcases hphase with rfl | rfl <;> simp

/-- Only calls that go on change the list; a task that polls changes what the subscribers hold. -/
theorem moves_step (hnodup : (s.listeners.map (·.identity)).Nodup) (ha : InRuntime a)
    (hcall : ∀ api filters listener, a ≠ .call api filters listener)
    (h : step backend receive C s a = some s') :
    s'.listeners.map (·.identity) = s.listeners.map (·.identity) ∧ s'.calls = s.calls ∨
      ∃ c call phase, s.calls[c]? = some call ∧ Moves s s' c call phase := by
  cases step_cases h with
  | call => exact absurd rfl (hcall _ _ _)
  | failed hc hp hfailed => exact .inr ⟨_, _, _, hc, moves_failed hp hfailed⟩
  | pushed hc hp hapi hpushed => exact .inr ⟨_, _, _, hc, moves_pushed hp hapi hpushed⟩
  | removed hc hp hapi hremoved =>
    refine .inr ⟨_, _, _, hc, moves_removed hnodup hp hapi hremoved ?_⟩
    split_ifs
    · exact .inl rfl
    · exact .inr rfl
  | ensured hc hp hapi =>
    obtain rfl : _ = Except.ok () := ha
    exact .inr ⟨_, _, _, hc, moves_ensured hp hapi⟩
  | stopped hc hp hapi => exact .inr ⟨_, _, _, hc, moves_stopped hp hapi⟩
  | ran ht _ hrun =>
    obtain ⟨listeners, pending, phase, rfl, hidentity, -, -⟩ := run_cases hrun
    exact .inl ⟨hidentity, rfl⟩
  | suspended | cancelled | arrived => exact .inl ⟨rfl, rfl⟩

end ListenerState

namespace BenchmarkOwnedLolaTransport

/-- The transport has the listener with this number registered. -/
def Present (s : BenchmarkOwnedLolaTransport Φ S F L O σ) (filters : Φ) (n : ℕ) : Prop :=
  (filters, Sum.inr n) ∈ s.inner.listeners.map (·.identity)

/-- The listeners that registrations and calls have. -/
def owners (s : BenchmarkOwnedLolaTransport Φ S F L O σ) : List ℕ :=
  s.listeners.map (·.zeroCopyListener) ++ s.calls.filterMap (·.phase.owned)

/-- The call has a call of the transport at `c`, which is as far as the list of it says. -/
def Tracks (s : BenchmarkOwnedLolaTransport Φ S F L O σ) (call : OwnedCall Φ O) (c n : ℕ) : Prop :=
  ∃ phase, s.inner.calls[c]? = some ⟨call.api, call.filters, .inr n, phase⟩ ∧
    (∀ filters, s.Present filters n ↔ filters = call.filters ∧ ListenerState.Holds call.api phase) ∧
    (call.api = .unregister → ∀ e, phase ≠ .returned (.error e))

/-- What `unregister_validated_owned_listener` fails with. -/
def unknownListener : Fault :=
  failWithCode .NOT_FOUND "no such benchmark-owned LoLa listener registered for filters"

structure Inv (verify : Φ → Except Fault Unit) (s : BenchmarkOwnedLolaTransport Φ S F L O σ) :
    Prop where
  identities : (s.inner.listeners.map (·.identity)).Nodup
  owners : s.owners.Nodup
  made : ∀ n ∈ s.owners, n < s.made
  listed : ∀ r ∈ s.listeners, verify r.filters = .ok () ∧
    ∀ filters, s.Present filters r.zeroCopyListener ↔ filters = r.filters
  tracked : ∀ call ∈ s.calls, ∀ c n, call.phase = .inner c n →
    verify call.filters = .ok () ∧ s.Tracks call c n
  present : ∀ filters n, s.Present filters n → n ∈ s.owners
  waiting : ∀ c api filters n, s.inner.calls[c]? = some ⟨api, filters, .inr n, .listeners⟩ →
    ∃ call ∈ s.calls, call.phase = .inner c n
  answered : ∀ call ∈ s.calls, call.api = .unregister → ∀ e,
    call.phase = .returned (.error e) → e = unknownListener

theorem inv_init (verify : Φ → Except Fault Unit) :
    ({} : BenchmarkOwnedLolaTransport Φ S F L O σ).Inv verify where
  identities := List.nodup_nil
  owners := List.nodup_nil
  made := List.forall_mem_nil _
  listed := List.forall_mem_nil _
  tracked := List.forall_mem_nil _
  present := by simp [Present]
  waiting := by simp
  answered := List.forall_mem_nil _

variable {verify : Φ → Except Fault Unit} {s s' : BenchmarkOwnedLolaTransport Φ S F L O σ}
  {i c n : ℕ} {call call' : OwnedCall Φ O} {phase : OwnedPhase}

/-- No other call has its listener. -/
theorem Inv.call_eq (hs : s.Inv verify) (hcall : call ∈ s.calls) (hcall' : call' ∈ s.calls)
    (h : call.phase.owned = some n) (h' : call'.phase.owned = some n) : call = call' :=
  List.eq_of_nodup_filterMap (List.nodup_append.1 hs.owners).2.1 hcall hcall' h h'

/-- No registration has the listener of a call. -/
theorem Inv.not_listed (hs : s.Inv verify) (hcall : call ∈ s.calls)
    (h : call.phase.owned = some n) : ∀ r ∈ s.listeners, r.zeroCopyListener ≠ n := by
  rintro r hr rfl
  exact (List.nodup_append.1 hs.owners).2.2 _ (List.mem_map_of_mem hr) _
    (List.mem_filterMap.2 ⟨call, hcall, h⟩) rfl

/-- Who has a listener, but for the call at `i`. -/
def others (s : BenchmarkOwnedLolaTransport Φ S F L O σ) (i : ℕ) : List ℕ :=
  s.listeners.map (·.zeroCopyListener) ++ (s.calls.eraseIdx i).filterMap (·.phase.owned)

theorem owners_perm (hi : s.calls[i]? = some call) :
    s.owners.Perm (call.phase.owned.toList ++ s.others i) :=
  ((List.filterMap_perm hi _).append_left _).trans (List.perm_append_comm_assoc _ _ _)

theorem owners_perm_inner (hi : s.calls[i]? = some call) (hcall : call.phase = .inner c n) :
    s.owners.Perm (n :: s.others i) := by
  have hperm := owners_perm hi
  rwa [hcall] at hperm

theorem owners_setCall_perm (hi : s.calls[i]? = some call) (phase : OwnedPhase) :
    (s.setCall i call phase).owners.Perm (phase.owned.toList ++ s.others i) :=
  ((List.filterMap_set_perm hi { call with phase } _).append_left _).trans
    (List.perm_append_comm_assoc _ _ _)

theorem mem_calls_setCall {d : OwnedCall Φ O} (hd : d ∈ (s.setCall i call phase).calls) :
    d ∈ s.calls ∨ d = { call with phase } :=
  List.mem_or_eq_of_mem_set hd

/-- Another call waits as before. -/
theorem waits_setCall (hi : s.calls[i]? = some call) (hcall : call.phase ≠ .inner c n)
    (h : ∃ d ∈ s.calls, d.phase = .inner c n) :
    ∃ d ∈ (s.setCall i call phase).calls, d.phase = .inner c n := by
  obtain ⟨d, hd, hphase⟩ := h
  refine ⟨d, List.mem_set_of_ne hi hd ?_, hphase⟩
  rintro rfl
  exact hcall hphase

theorem not_inner (h : call.phase.owned = none) : call.phase ≠ .inner c n := by
  intro hphase
  rw [hphase] at h
  simp [OwnedPhase.owned] at h

/-- A call that neither has a listener nor gets one answers. -/
theorem inv_answer (hs : s.Inv verify) (hi : s.calls[i]? = some call)
    (hcall : call.phase.owned = none) {result : Except Fault Unit}
    (hanswer : call.api = .unregister → ∀ e, result = .error e → e = unknownListener) :
    (s.setCall i call (.returned result)).Inv verify := by
  have howners : (s.setCall i call (.returned result)).owners.Perm s.owners := by
    have hbefore := owners_perm hi
    rw [hcall] at hbefore
    exact (owners_setCall_perm hi _).trans hbefore.symm
  constructor
  · exact hs.identities
  · exact howners.nodup_iff.2 hs.owners
  · exact fun n hn => hs.made n (howners.mem_iff.1 hn)
  · exact hs.listed
  · intro d hd c n hphase
    rcases mem_calls_setCall hd with hd | rfl
    · exact hs.tracked d hd c n hphase
    · cases hphase
  · exact fun filters n hn => howners.mem_iff.2 (hs.present filters n hn)
  · intro c api filters n hc
    exact waits_setCall hi (not_inner hcall) (hs.waiting c api filters n hc)
  · intro d hd hapi e he
    rcases mem_calls_setCall hd with hd | rfl
    · exact hs.answered d hd hapi e he
    · exact hanswer hapi e (OwnedPhase.returned.inj he)

/-- A call that has no listener yet gets one, and with it calls the transport. -/
theorem inv_start (hs : s.Inv verify) (hi : s.calls[i]? = some call)
    (hcall : call.phase.owned = none) (hverify : verify call.filters = .ok ())
    {listeners : List (OwnedListenerRegistration Φ O)} {made n : ℕ}
    (hlisteners : ∀ r ∈ listeners, r ∈ s.listeners)
    (howners : (n :: { s with listeners }.owners).Nodup)
    (hmade : ∀ k ∈ n :: { s with listeners }.owners, k < made)
    (hkept : ∀ k ∈ s.owners, k ∈ n :: { s with listeners }.owners)
    (hpresent : ∀ filters, s.Present filters n ↔
      filters = call.filters ∧ ListenerState.Holds call.api .listeners) :
    ({ s with listeners, made }.callInner verify i call n).Inv verify := by
  have hlt : i < s.calls.length := (List.getElem?_eq_some_iff.1 hi).1
  let ic : ListenerCall Φ (L ⊕ ℕ) := ⟨call.api, call.filters, .inr n, .listeners⟩
  let t : BenchmarkOwnedLolaTransport Φ S F L O σ :=
    { s with listeners, made, inner.calls := s.inner.calls ++ [ic] }
  have hperm : (t.setCall i call (.inner s.inner.calls.length n)).owners.Perm
      (n :: { s with listeners }.owners) := by
    have hbefore : t.owners.Perm (call.phase.owned.toList ++ t.others i) := owners_perm hi
    rw [hcall] at hbefore
    exact (owners_setCall_perm (s := t) hi _).trans (hbefore.symm.cons n)
  rw [callInner, hverify]
  constructor
  · exact hs.identities
  · exact hperm.nodup_iff.2 howners
  · exact fun k hk => hmade k (hperm.mem_iff.1 hk)
  · exact fun r hr => hs.listed r (hlisteners r hr)
  · intro d hd c k hphase
    rcases mem_calls_setCall (s := t) hd with hd | rfl
    · obtain ⟨hd, phase, hc, htracks⟩ := hs.tracked d hd c k hphase
      have hclt : c < s.inner.calls.length := (List.getElem?_eq_some_iff.1 hc).1
      exact ⟨hd, phase, (List.getElem?_append_left hclt).trans hc, htracks⟩
    · obtain ⟨rfl, rfl⟩ := OwnedPhase.inner.inj hphase
      exact ⟨hverify, .listeners, List.getElem?_concat_length, hpresent, fun _ e => by simp⟩
  · exact fun filters k hk => hperm.mem_iff.2 (hkept k (hs.present filters k hk))
  · intro c api filters k hc
    rcases List.getElem?_concat_eq_some hc with hc | ⟨rfl, heq⟩
    · exact waits_setCall (s := t) hi (not_inner hcall) (hs.waiting c api filters k hc)
    · simp only [ListenerCall.mk.injEq, Sum.inr.injEq] at heq
      obtain ⟨-, -, rfl, -⟩ := heq
      exact ⟨_, List.mem_of_getElem? (List.getElem?_set_self hlt), rfl⟩
  · intro d hd hapi e he
    rcases mem_calls_setCall (s := t) hd with hd | rfl
    · exact hs.answered d hd hapi e he
    · simp at he

/-- What a call waits for has returned, and so does the call. -/
theorem inv_over (hs : s.Inv verify) (hi : s.calls[i]? = some call)
    (hcall : call.phase = .inner c n) {innerCall : ListenerCall Φ (L ⊕ ℕ)}
    (hc : s.inner.calls[c]? = some innerCall) (hover : innerCall.phase ≠ .listeners)
    {listeners : List (OwnedListenerRegistration Φ O)} {result : Except Fault Unit}
    (hlisted : ∀ r ∈ listeners, verify r.filters = .ok () ∧
      ∀ filters, s.Present filters r.zeroCopyListener ↔ filters = r.filters)
    (howners : ({ s with listeners }.others i).Subperm (n :: s.others i))
    (hkept : ∀ filters k, s.Present filters k → k ∈ { s with listeners }.others i)
    (hanswer : call.api = .unregister → ∀ e, result ≠ .error e) :
    ({ s with listeners }.setCall i call (.returned result)).Inv verify := by
  let t : BenchmarkOwnedLolaTransport Φ S F L O σ := { s with listeners }
  have hperm : (t.setCall i call (.returned result)).owners.Perm (t.others i) :=
    owners_setCall_perm (s := t) hi _
  have hbefore : s.owners.Perm (n :: s.others i) := owners_perm_inner hi hcall
  have hsub : (t.setCall i call (.returned result)).owners.Subperm s.owners :=
    (hperm.subperm.trans howners).trans hbefore.symm.subperm
  constructor
  · exact hs.identities
  · obtain ⟨kept, hkept, hsublist⟩ := hsub
    exact hkept.nodup_iff.1 (hs.owners.sublist hsublist)
  · exact fun k hk => hs.made k (hsub.subset hk)
  · exact hlisted
  · intro d hd c' k hphase
    rcases mem_calls_setCall (s := t) hd with hd | rfl
    · exact hs.tracked d hd c' k hphase
    · simp at hphase
  · exact fun filters k hk => hperm.mem_iff.2 (hkept filters k hk)
  · intro c' api filters k hc'
    refine waits_setCall (s := t) hi ?_ (hs.waiting c' api filters k hc')
    rintro hphase
    obtain ⟨rfl, rfl⟩ := OwnedPhase.inner.inj (hcall.symm.trans hphase)
    obtain rfl := Option.some.inj (hc.symm.trans hc')
    exact hover rfl
  · intro d hd hapi e he
    rcases mem_calls_setCall (s := t) hd with hd | rfl
    · exact hs.answered d hd hapi e he
    · exact absurd (OwnedPhase.returned.inj he) (hanswer hapi e)

/-- A register call that comes to the transport makes a listener for it. -/
theorem inv_register (hs : s.Inv verify) (hi : s.calls[i]? = some call)
    (hapi : call.api = .register) (hphase : call.phase = .entered) :
    ({ s with made := s.made + 1 }.callInner verify i call s.made).Inv verify := by
  have hcall : call.phase.owned = none := by rw [hphase]; rfl
  have hnew : s.made ∉ s.owners := fun h => Nat.lt_irrefl _ (hs.made _ h)
  have hmade : ∀ k ∈ s.made :: s.owners, k < s.made + 1 := by
    intro k hk
    rcases List.mem_cons.1 hk with rfl | hk
    · exact Nat.lt_succ_self _
    · exact Nat.lt_succ_of_lt (hs.made k hk)
  have hmore : { s with made := s.made + 1 }.Inv verify := { hs with
    made := fun k hk => hmade k (List.mem_cons_of_mem _ hk) }
  cases hverify : verify call.filters with
  | error e =>
    rw [callInner, hverify]
    refine inv_answer hmore hi hcall fun hunregister => ?_
    simp [hapi] at hunregister
  | ok u =>
    refine inv_start hs hi hcall hverify (fun r hr => hr)
      (List.nodup_cons.2 ⟨hnew, hs.owners⟩) hmade (fun k hk => List.mem_cons_of_mem _ hk)
      fun filters => ?_
    rw [hapi]
    exact iff_of_false (fun h => hnew (hs.present filters _ h)) fun h => h.2

/-- An unregister call takes the registration off the list before it comes to the transport. -/
theorem inv_unregister (hs : s.Inv verify) (hi : s.calls[i]? = some call)
    (hapi : call.api = .unregister) (hphase : call.phase = .entered) {index : ℕ}
    {r : OwnedListenerRegistration Φ O} (hr : s.listeners[index]? = some r)
    (hfilters : r.filters = call.filters) :
    ({ s with listeners := s.listeners.eraseIdx index }.callInner verify i call
      r.zeroCopyListener).Inv verify := by
  have hcall : call.phase.owned = none := by rw [hphase]; rfl
  obtain ⟨hverify, hpresent⟩ := hs.listed r (List.mem_of_getElem? hr)
  rw [hfilters] at hverify
  have hperm : s.owners.Perm (r.zeroCopyListener ::
      { s with listeners := s.listeners.eraseIdx index }.owners) := by
    obtain ⟨hlt, rfl⟩ := List.getElem?_eq_some_iff.1 hr
    exact ((List.getElem_cons_eraseIdx_perm hlt).symm.map _).append_right _
  show ({ s with listeners := s.listeners.eraseIdx index, made := s.made }.callInner verify i call
    r.zeroCopyListener).Inv verify
  refine inv_start hs hi hcall hverify (fun r hr => List.mem_of_mem_eraseIdx hr)
    (hperm.nodup_iff.1 hs.owners) (fun k hk => hs.made k (hperm.mem_iff.2 hk))
    (fun k hk => hperm.mem_iff.1 hk) fun filters => ?_
  rw [hpresent filters, hfilters, hapi]
  exact (and_iff_left trivial).symm

/-- A call that has registered its listener puts it on the list. -/
theorem inv_registered (hs : s.Inv verify) (hi : s.calls[i]? = some call)
    (hapi : call.api = .register) (hcall : call.phase = .inner c n)
    {innerCall : ListenerCall Φ (L ⊕ ℕ)} (hc : s.inner.calls[c]? = some innerCall)
    (hover : innerCall.phase = .returned (.ok ())) {r : OwnedListenerRegistration Φ O}
    (hfilters : r.filters = call.filters) (hn : r.zeroCopyListener = n)
    {listeners : List (OwnedListenerRegistration Φ O)}
    (hlisteners : listeners = s.listeners ++ [r]) :
    ({ s with listeners }.setCall i call (.returned (.ok ()))).Inv verify := by
  subst hlisteners hn
  obtain ⟨hverify, phase, hc', hpresent, -⟩ := hs.tracked call (List.mem_of_getElem? hi) c _ hcall
  obtain rfl := Option.some.inj (hc.symm.trans hc')
  obtain rfl : phase = .returned (.ok ()) := hover
  let t : BenchmarkOwnedLolaTransport Φ S F L O σ := { s with listeners := s.listeners ++ [r] }
  have hothers : (t.others i).Perm (r.zeroCopyListener :: s.others i) := by
    rw [others, others, List.map_append, List.append_assoc]
    exact List.perm_middle
  have howners : s.owners.Perm (r.zeroCopyListener :: s.others i) := owners_perm_inner hi hcall
  refine inv_over hs hi hcall hc (by simp) (fun d hd => ?_) hothers.subperm
    (fun filters k hk => hothers.mem_iff.2 (howners.mem_iff.1 (hs.present filters k hk)))
    fun _ e => by simp
  rcases List.mem_append.1 hd with hd | hd
  · exact hs.listed d hd
  · obtain rfl := List.mem_singleton.1 hd
    rw [hfilters]
    refine ⟨hverify, fun filters => ?_⟩
    rw [hpresent filters, hapi]
    exact and_iff_left trivial

/-- A call whose listener the transport has not got leaves nothing behind. -/
theorem inv_dropped (hs : s.Inv verify) (hi : s.calls[i]? = some call)
    (hcall : call.phase = .inner c n) {innerCall : ListenerCall Φ (L ⊕ ℕ)}
    (hc : s.inner.calls[c]? = some innerCall) {result : Except Fault Unit}
    (hover : innerCall.phase = .returned result)
    (hnot : ¬ ListenerState.Holds call.api (.returned result)) :
    (s.setCall i call (.returned result)).Inv verify := by
  obtain ⟨-, phase, hc', hpresent, hfound⟩ := hs.tracked call (List.mem_of_getElem? hi) c n hcall
  obtain rfl := Option.some.inj (hc.symm.trans hc')
  obtain rfl : phase = .returned result := hover
  have howners : s.owners.Perm (n :: s.others i) := owners_perm_inner hi hcall
  refine inv_over hs hi hcall hc (by simp) hs.listed (List.sublist_cons_self _ _).subperm
    (fun filters k hk => ?_) fun hapi e he => hfound hapi e (by rw [he])
  rcases List.mem_cons.1 (howners.mem_iff.1 (hs.present filters k hk)) with rfl | hk'
  · exact absurd ((hpresent filters).1 hk).2 hnot
  · exact hk'

/-- A call that has not come to the transport adds nothing to what there is. -/
theorem inv_called (hs : s.Inv verify) (hphase : call.phase = .entered) :
    { s with calls := s.calls ++ [call] }.Inv verify := by
  have hsame : { s with calls := s.calls ++ [call] }.owners = s.owners := by
    rw [owners, owners, List.filterMap_append, List.filterMap_cons, hphase]
    exact congrArg _ (List.append_nil _)
  constructor
  · exact hs.identities
  · rw [hsame]
    exact hs.owners
  · rw [hsame]
    exact hs.made
  · exact hs.listed
  · intro d hd c n hd'
    rcases List.mem_append.1 hd with hd | hd
    · exact hs.tracked d hd c n hd'
    · obtain rfl := List.mem_singleton.1 hd
      simp [hphase] at hd'
  · rw [hsame]
    exact hs.present
  · intro c api filters n hc
    obtain ⟨d, hd, hd'⟩ := hs.waiting c api filters n hc
    exact ⟨d, List.mem_append_left _ hd, hd'⟩
  · intro d hd hapi e he
    rcases List.mem_append.1 hd with hd | hd
    · exact hs.answered d hd hapi e he
    · obtain rfl := List.mem_singleton.1 hd
      simp [hphase] at he

theorem inv_innerCalled (hs : s.Inv verify) {innerCall : ListenerCall Φ (L ⊕ ℕ)} {listener : L}
    (hlistener : innerCall.listener = .inl listener) :
    { s with inner.calls := s.inner.calls ++ [innerCall] }.Inv verify := by
  refine { hs with tracked := fun d hd c n hphase => ?_, waiting := fun c api filters n hc => ?_ }
  · obtain ⟨hd, phase, hc, htracks⟩ := hs.tracked d hd c n hphase
    have hlt : c < s.inner.calls.length := (List.getElem?_eq_some_iff.1 hc).1
    exact ⟨hd, phase, (List.getElem?_append_left hlt).trans hc, htracks⟩
  · rcases List.getElem?_concat_eq_some hc with hc | ⟨-, heq⟩
    · exact hs.waiting c api filters n hc
    · rw [← heq] at hlistener
      simp at hlistener

section Moves

variable {inner : ListenerState Φ S F (L ⊕ ℕ) σ} {innerCall : ListenerCall Φ (L ⊕ ℕ)}
  {innerPhase : CallPhase}

/-- A call of the transport that goes on is nothing to a listener that no call waits with for it. -/
theorem present_of_moves (hs : s.Inv verify) (hc : s.inner.calls[c]? = some innerCall)
    (hmoves : s.inner.Moves inner c innerCall innerPhase)
    (hnone : ∀ d ∈ s.calls, d.phase ≠ .inner c n) (filters : Φ) :
    { s with inner }.Present filters n ↔ s.Present filters n := by
  by_cases hphase : innerCall.phase = .listeners
  · refine hmoves.others _ fun heq => ?_
    obtain ⟨rfl, hlistener⟩ := Prod.mk.inj heq
    obtain ⟨api, filters, listener, phase⟩ := innerCall
    obtain rfl : Sum.inr n = listener := hlistener
    obtain rfl : phase = .listeners := hphase
    obtain ⟨d, hd, hinner⟩ := hs.waiting c api filters n hc
    exact hnone d hd hinner
  · rw [Present, Present, hmoves.same hphase]

theorem inv_moves (hs : s.Inv verify) (hnodup : (inner.listeners.map (·.identity)).Nodup)
    (hc : s.inner.calls[c]? = some innerCall)
    (hmoves : s.inner.Moves inner c innerCall innerPhase) : { s with inner }.Inv verify := by
  constructor
  · exact hnodup
  · exact hs.owners
  · exact hs.made
  · intro r hr
    obtain ⟨hverify, hpresent⟩ := hs.listed r hr
    refine ⟨hverify, fun filters => ?_⟩
    rw [present_of_moves hs hc hmoves fun d hd hphase => ?_]
    · exact hpresent filters
    · exact hs.not_listed hd (by rw [hphase]; rfl) r hr rfl
  · intro d hd c' n hphase
    obtain ⟨hverify, phase, hc', hpresent, hfound⟩ := hs.tracked d hd c' n hphase
    refine ⟨hverify, ?_⟩
    by_cases hcc : c' = c
    · subst hcc
      obtain rfl := Option.some.inj (hc.symm.trans hc')
      have hown : s.Present d.filters n ↔ ListenerState.Holds d.api phase :=
        (hpresent d.filters).trans (and_iff_right rfl)
      have hlt : c' < s.inner.calls.length := (List.getElem?_eq_some_iff.1 hc).1
      refine ⟨innerPhase, ?_, fun filters => ?_, fun hapi => hmoves.found hapi hown⟩
      · show inner.calls[c']? = _
        rw [hmoves.calls, List.getElem?_set_self hlt]
      · by_cases hfilters : filters = d.filters
        · rw [hfilters]
          exact (hmoves.own hown).trans (and_iff_right rfl).symm
        · refine (hmoves.others _ fun heq => hfilters (Prod.mk.inj heq).1).trans ?_
          exact iff_of_false (fun h => hfilters ((hpresent filters).1 h).1) fun h => hfilters h.1
    · refine ⟨phase, ?_, fun filters => ?_, hfound⟩
      · show inner.calls[c']? = _
        rw [hmoves.calls, List.getElem?_set_ne (Ne.symm hcc)]
        exact hc'
      · rw [present_of_moves hs hc hmoves fun e he hinner => ?_]
        · exact hpresent filters
        · obtain rfl := hs.call_eq hd he (by rw [hphase]; rfl) (by rw [hinner]; rfl)
          exact hcc (OwnedPhase.inner.inj (hphase.symm.trans hinner)).1
  · intro filters n hn
    by_cases hwaits : ∃ d ∈ s.calls, d.phase = .inner c n
    · obtain ⟨d, hd, hphase⟩ := hwaits
      exact List.mem_append_right _ (List.mem_filterMap.2 ⟨d, hd, by rw [hphase]; rfl⟩)
    · refine hs.present filters n ((present_of_moves hs hc hmoves ?_ filters).1 hn)
      exact fun d hd hphase => hwaits ⟨d, hd, hphase⟩
  · intro c' api filters n hc'
    have hset : (s.inner.calls.set c { innerCall with phase := innerPhase })[c']? = _ :=
      hmoves.calls ▸ hc'
    by_cases hcc : c' = c
    · subst hcc
      have hlt : c' < s.inner.calls.length := (List.getElem?_eq_some_iff.1 hc).1
      rw [List.getElem?_set_self hlt] at hset
      exact absurd (congrArg (·.phase) (Option.some.inj hset)) hmoves.left
    · rw [List.getElem?_set_ne (Ne.symm hcc)] at hset
      exact hs.waiting c' api filters n hset
  · exact hs.answered

variable [DecidableEq Φ] [DecidableEq L] {backend : Backend} {receive : σ → Except Fault S × σ}
  {C : FrameCodec Φ S F} {b : ListenerAction Φ S (L ⊕ ℕ) σ}

theorem inv_inner (hs : s.Inv verify) (hb : ListenerState.InRuntime b)
    (hcall : ∀ api filters listener, b ≠ .call api filters listener)
    (h : s.inner.step backend receive C b = some inner) : { s with inner }.Inv verify := by
  rcases ListenerState.moves_step hs.identities hb hcall h with
    ⟨hids, hcalls⟩ | ⟨c, innerCall, phase, hc, hmoves⟩
  · have hpresent (filters : Φ) (n : ℕ) :
        { s with inner }.Present filters n ↔ s.Present filters n := by
      rw [Present, Present, hids]
    constructor
    · exact ListenerState.nodup_identity_step hs.identities h
    · exact hs.owners
    · exact hs.made
    · intro r hr
      obtain ⟨hverify, hlisted⟩ := hs.listed r hr
      exact ⟨hverify, fun filters => (hpresent _ _).trans (hlisted filters)⟩
    · intro d hd c n hphase
      obtain ⟨hverify, phase, hc, htracks, hfound⟩ := hs.tracked d hd c n hphase
      exact ⟨hverify, phase, (congrArg (·[c]?) hcalls).trans hc,
        fun filters => (hpresent _ _).trans (htracks filters), hfound⟩
    · exact fun filters n hn => hs.present filters n ((hpresent _ _).1 hn)
    · exact fun c api filters n hc =>
        hs.waiting c api filters n ((congrArg (·[c]?) hcalls).symm.trans hc)
    · exact hs.answered
  · exact inv_moves hs (ListenerState.nodup_identity_step hs.identities h) hc hmoves

end Moves

variable [DecidableEq Φ] [DecidableEq O]

theorem inv_advance (hs : s.Inv verify) (hi : s.calls[i]? = some call)
    (h : s.advance verify i call = some s') : s'.Inv verify := by
  unfold advance at h
  split at h
  · rename_i hapi hphase
    obtain rfl := Option.some.inj h
    exact inv_register hs hi hapi hphase
  · rename_i hapi hphase
    split at h
    · obtain rfl := Option.some.inj h
      refine inv_answer hs hi (by rw [hphase]; rfl) fun _ e he => ?_
      exact (Except.error.inj he).symm
    · rename_i index hindex
      obtain ⟨r, hr, rfl⟩ := Option.map_eq_some_iff.1 h
      refine inv_unregister hs hi hapi hphase hr ?_
      obtain ⟨hlt, his, -⟩ := List.findIdx?_eq_some_iff_getElem.1 hindex
      obtain ⟨-, rfl⟩ := List.getElem?_eq_some_iff.1 hr
      simp only [OwnedListenerRegistration.isOf, Bool.and_eq_true, decide_eq_true_eq] at his
      exact his.1
  · rename_i api c n hphase
    obtain ⟨innerCall, hc, h⟩ := Option.bind_eq_some_iff.1 h
    split at h
    · rename_i e hover
      obtain rfl := Option.some.inj h
      exact inv_dropped hs hi hphase hc hover (by cases call.api <;> exact id)
    · rename_i hover
      split at h
      · rename_i hapi
        obtain rfl := Option.some.inj h
        exact inv_registered hs hi hapi hphase hc hover rfl rfl rfl
      · rename_i hapi
        obtain rfl := Option.some.inj h
        exact inv_dropped hs hi hphase hc hover (by rw [hapi]; exact id)
    · simp at h
  · simp at h

variable [DecidableEq L] {backend : Backend} {receive : σ → Except Fault S × σ}
  {C : FrameCodec Φ S F} {a : OwnedAction Φ S L O σ}

/-- Calls of the transport are made where there is a runtime. -/
def InRuntime : OwnedAction Φ S L O σ → Prop
  | .inner a => ListenerState.InRuntime a
  | _ => True

theorem step_inner {b : ListenerAction Φ S (L ⊕ ℕ) σ}
    (h : step verify backend receive C s (.inner b) = some s') :
    (∀ api filters listener, b ≠ .call api filters listener) ∧
      ∃ inner, s.inner.step backend receive C b = some inner ∧ s' = { s with inner } := by
  cases b with
  | call => simp [step] at h
  | _ =>
    simp only [step, Option.map_eq_some_iff] at h
    obtain ⟨inner, hinner, rfl⟩ := h
    exact ⟨fun _ _ _ => by simp, inner, hinner, rfl⟩

theorem inv_step (hs : s.Inv verify) (ha : InRuntime a)
    (h : step verify backend receive C s a = some s') : s'.Inv verify := by
  cases a with
  | call api filters listener =>
    obtain rfl := Option.some.inj h
    exact inv_called hs rfl
  | advance i =>
    obtain ⟨call, hi, h⟩ := Option.bind_eq_some_iff.1 h
    exact inv_advance hs hi h
  | innerCall api filters listener =>
    obtain rfl := Option.some.inj h
    exact inv_innerCalled hs rfl
  | inner b =>
    obtain ⟨hcall, inner, hinner, rfl⟩ := step_inner h
    exact inv_inner hs ha hcall hinner

/-- Calls of the wrapper overlap and run to completion, and others call the transport.  Whatever is
on the wrapper's list is registered with the transport, and nothing else is once no call waits for
the transport.  A listener that was on the list is never one that the transport fails to
unregister. -/
theorem registries_agree {as : List (OwnedAction Φ S L O σ)} (has : ∀ a ∈ as, InRuntime a)
    (h : Run.exec (step verify backend receive C) {} as = some s) :
    (∀ r ∈ s.listeners, s.Present r.filters r.zeroCopyListener) ∧
    (s.listeners.map (·.zeroCopyListener)).Nodup ∧
    ((∀ call ∈ s.calls, call.phase.owned = none) → ∀ filters n, s.Present filters n ↔
      ∃ r ∈ s.listeners, r.filters = filters ∧ r.zeroCopyListener = n) ∧
    ∀ call ∈ s.calls, call.api = .unregister → ∀ e, call.phase = .returned (.error e) →
      e = unknownListener := by
  have hs : s.Inv verify :=
    Run.exec_keeps_allowed (fun _ _ _ => inv_step) has (inv_init verify) h
  refine ⟨fun r hr => ((hs.listed r hr).2 _).2 rfl, (List.nodup_append.1 hs.owners).1, ?_,
    hs.answered⟩
  intro hnone filters n
  constructor
  · intro hn
    rcases List.mem_append.1 (hs.present filters n hn) with hlisted | hcalls
    · obtain ⟨r, hr, rfl⟩ := List.mem_map.1 hlisted
      exact ⟨r, hr, (((hs.listed r hr).2 filters).1 hn).symm, rfl⟩
    · obtain ⟨call, hcall, hphase⟩ := List.mem_filterMap.1 hcalls
      rw [hnone call hcall] at hphase
      simp at hphase
  · rintro ⟨r, hr, rfl, rfl⟩
    exact ((hs.listed r hr).2 _).2 rfl

/-- One listener is registered and unregistered, and another registered in between. -/
def plainOwned : List (OwnedAction (Filters plainUpRust) (List UInt8) ℕ ℕ
    (List (Except Fault (List UInt8)))) :=
  let goOn (c : ℕ) : OwnedAction (Filters plainUpRust) (List UInt8) ℕ ℕ
    (List (Except Fault (List UInt8))) := .inner (.advance c (.ok []) (.ok ()))
  [.call .register filtersA 0, .advance 0, goOn 0, goOn 0, .advance 0, .call .register filtersA 1,
    .advance 1, .call .unregister filtersA 0, .advance 2, goOn 1, goOn 2, .advance 2, goOn 1,
    .advance 1]

theorem registries_agree_plain :
    ∃ s : BenchmarkOwnedLolaTransport (Filters plainUpRust) (List UInt8) (LolaRxLease plainUpRust)
        ℕ ℕ (List (Except Fault (List UInt8))),
      Run.exec (step (fun _ => .ok ()) .native plainReceive plainFrames) {} plainOwned = some s ∧
        ∀ filters n, s.Present filters n ↔ filters = filtersA ∧ n = 1 := by
  have has : ∀ a ∈ plainOwned, InRuntime a := by
    simp [plainOwned, InRuntime, ListenerState.InRuntime]
  have hexec : Run.exec (step (fun _ => .ok ()) .native plainReceive plainFrames) {} plainOwned =
      some {
        inner := {
          listeners := [⟨filtersA, .inr 1, []⟩]
          listenerTask := some 0
          tasks := [{}]
          calls := [⟨.register, filtersA, .inr 0, .returned (.ok ())⟩,
            ⟨.register, filtersA, .inr 1, .returned (.ok ())⟩,
            ⟨.unregister, filtersA, .inr 0, .returned (.ok ())⟩] }
        listeners := [⟨filtersA, 1, 1⟩]
        calls := [⟨.register, filtersA, 0, .returned (.ok ())⟩,
          ⟨.register, filtersA, 1, .returned (.ok ())⟩,
          ⟨.unregister, filtersA, 0, .returned (.ok ())⟩]
        made := 2 } := rfl
  obtain ⟨-, -, hpresent, -⟩ := registries_agree has hexec
  refine ⟨_, hexec, fun filters n => (hpresent (by simp [OwnedPhase.owned]) filters n).trans ?_⟩
  simp [eq_comm]

end BenchmarkOwnedLolaTransport

end LolaTransport
