import LolaTransport.Lib.Window
import LolaTransport.Proofs.Bridge
import LolaTransport.Proofs.PlainFrames
import LolaTransport.TxLoans

/-!
# Slots in use and loans held

A loan that is dropped, or sent by the transport it was obtained from, gives its slot back; one that
is sent by another transport is consumed all the same, and its slot stays in use.
-/

namespace LolaTransport

open Bridge SlotPool

variable {U : UpRust} {w : PointerWidth}

section LaidOut

/-- The sample starts with the frame magic, out of reach of the payload view. -/
def TxBuffer.Headed : TxBuffer U → Prop
  | .tx loan => loan.sample.take 4 = LOLA_FRAME_MAGIC ∧ 4 ≤ loan.payloadOffset
  | .uninitTx loan => loan.sample.take 4 = LOLA_FRAME_MAGIC.map some ∧ 4 ≤ loan.payloadOffset

theorem FrameFront.take {m : UFrameMetadata U.toUpTypes} {payloadLen payloadOffset : ℕ}
    {front : List UInt8} (h : FrameFront w m payloadLen payloadOffset front) :
    (∃ rest, front = LOLA_FRAME_MAGIC ++ rest) ∧ 4 ≤ payloadOffset := by
  obtain ⟨⟨metadata, ml, pl, po, -, -, -, -, heq⟩, hlen, -⟩ := h
  simp only [frameHeader, List.append_assoc] at heq
  refine ⟨⟨_, heq⟩, ?_⟩
  rw [← hlen, heq, List.length_append, length_magic]
  omega

theorem newNative_headed {metadata : UFrameMetadata U.toUpTypes}
    {address payloadLen alignment : ℕ} {slot : List MaybeUninit} {loan : LolaTxLoan U}
    (h : LolaTxLoan.newNative U w metadata address slot payloadLen alignment = .ok loan) :
    (TxBuffer.tx loan).Headed := by
  simp only [LolaTxLoan.newNative, Fallible.bind_eq_ok] at h
  obtain ⟨-, -, h⟩ := h
  split at h
  · obtain ⟨offset, hwrite, h⟩ := Fallible.bind_eq_ok.1 h
    cases h
    obtain ⟨front, hfront, -, -, hsample⟩ := writeFrameHeader_ok (Prod.ext hwrite rfl)
    obtain ⟨⟨rest, rfl⟩, hoffset⟩ := hfront.take
    refine ⟨(congrArg (List.take 4) hsample).trans ?_, hoffset⟩
    rw [List.append_assoc]
    exact List.take_left' rfl
  · cases h

theorem uninit_newNative_headed {metadata : UFrameMetadata U.toUpTypes}
    {address payloadLen alignment : ℕ} {slot : List MaybeUninit} {loan : LolaUninitTxLoan U}
    (h : LolaUninitTxLoan.newNative U w metadata address slot payloadLen alignment = .ok loan) :
    (TxBuffer.uninitTx loan).Headed := by
  simp only [LolaUninitTxLoan.newNative, Fallible.bind_eq_ok] at h
  obtain ⟨offset, hwrite, h⟩ := h
  cases h
  obtain ⟨front, hfront, -, -, hsample⟩ := writeFrameHeaderUninit_ok (Prod.ext hwrite rfl)
  obtain ⟨⟨rest, rfl⟩, hoffset⟩ := hfront.take
  refine ⟨(congrArg (List.take 4) hsample).trans ?_, hoffset⟩
  rw [List.map_append, List.append_assoc, List.append_assoc]
  exact List.take_left' rfl

theorem fillPayload_headed {β : Type} {loan loan' : TxLoan U β} {payload : List β}
    {magic : List β} (h : loan.fillPayload w payload = .ok loan')
    (hloan : loan.sample.take 4 = magic ∧ 4 ≤ loan.payloadOffset) :
    loan'.sample.take 4 = magic ∧ 4 ≤ loan'.payloadOffset := by
  unfold TxLoan.fillPayload at h
  split at h
  · cases h
  · rename_i stop hstop
    split_ifs at h with hbound
    cases h
    refine ⟨?_, hloan.2⟩
    have hfront : (Bytes.overwrite loan.sample loan.payloadOffset payload).take
        loan.payloadOffset = loan.sample.take loan.payloadOffset :=
      Bytes.take_overwrite (hbound.1.trans hbound.2.1)
    have htake := congrArg (List.take 4) hfront
    rw [List.take_take, List.take_take, min_eq_left hloan.2] at htake
    exact htake.trans hloan.1

theorem map_some_of_assumeInit : ∀ {sample : List MaybeUninit} {bytes : List UInt8},
    assumeInit sample = some bytes → sample = bytes.map some
  | [], bytes, h => by
    cases h
    rfl
  | some b :: sample, bytes, h => by
    obtain ⟨rest, hrest, rfl⟩ := Option.map_eq_some_iff.1 h
    rw [map_some_of_assumeInit hrest, List.map_cons]
  | none :: _, _, h => by cases h

theorem assumePayloadInit_headed {loan : LolaUninitTxLoan U} {loan' : LolaTxLoan U}
    (h : loan.assumePayloadInit = some loan') (hloan : (TxBuffer.uninitTx loan).Headed) :
    (TxBuffer.tx loan').Headed := by
  obtain ⟨sample, hsample, h⟩ := Option.bind_eq_some_iff.1 h
  cases h
  obtain ⟨htake, hoffset⟩ := hloan
  refine ⟨?_, hoffset⟩
  rw [map_some_of_assumeInit hsample, ← List.map_take] at htake
  exact List.map_injective_iff.2 (Option.some_injective _) htake

theorem fill_headed {buffer buffer' : TxBuffer U} {payload : List UInt8}
    (h : buffer.fill w payload = .ok buffer') (hbuffer : buffer.Headed) : buffer'.Headed := by
  cases buffer with
  | tx loan =>
    obtain ⟨loan', hfill, rfl⟩ := Fallible.map_eq_ok.1 h
    exact fillPayload_headed hfill hbuffer
  | uninitTx loan =>
    obtain ⟨loan', hfill, rfl⟩ := Fallible.map_eq_ok.1 h
    exact fillPayload_headed hfill hbuffer

/-- A loan that is headed passes the check of `into_native`. -/
theorem intoNative_of_headed {loan : LolaTxLoan U} (h : (TxBuffer.tx loan).Headed) :
    loan.intoNative = .ok () := by
  have hlen := congrArg List.length h.1
  rw [List.length_take, length_magic] at hlen
  have hge : ¬ loan.sample.length < 4 := by omega
  simp [LolaTxLoan.intoNative, hge, h.1]

/-- A send by the loan's own transport gives the slot back, whatever becomes of the sample. -/
theorem sendValidatedZeroCopy_own {sent : Bool} {transport : UTransportLola}
    {native : NativeTxLoan} {buffer : LolaTxLoan U} (hbuffer : (TxBuffer.tx buffer).Headed)
    (h : Sendable transport.bridge.txPool native.loan) :
    (transport.sendValidatedZeroCopy sent native buffer transport.bridge.txPool).2 =
      TxLoanPool.release native.loan transport.bridge.txPool := by
  simp only [UTransportLola.sendValidatedZeroCopy, intoNative_of_headed hbuffer,
    NativeTransport.send]
  exact send_own h

/-- A send by another transport consumes the loan and leaves its slot in use. -/
theorem sendValidatedZeroCopy_other {sent : Bool} {transport : UTransportLola}
    {native : NativeTxLoan} {buffer : LolaTxLoan U} {pool : TxLoanPool}
    (hbuffer : (TxBuffer.tx buffer).Headed) (h : Sendable pool native.loan)
    (hid : pool.id ≠ transport.bridge.txPool.id) :
    (transport.sendValidatedZeroCopy sent native buffer pool).2 = pool := by
  simp only [UTransportLola.sendValidatedZeroCopy, intoNative_of_headed hbuffer,
    NativeTransport.send]
  exact send_other h hid

end LaidOut

/-- A loan from this transport, or its slots in use as they were. -/
def LoanOutcome (transport : UTransportLola) (result : Except Fault (LiveLoan U) × UTransportLola) :
    Prop :=
  result.2.native = transport.native ∧
    ((∃ loan, result.1 = .ok loan ∧ loan.native.pool = transport.native.ptr ∧
      loan.buffer.Headed ∧
      Lends loan.native.loan transport.bridge.txPool result.2.bridge.txPool ∧
      Sendable result.2.bridge.txPool loan.native.loan) ∨
    ∃ e, result.1 = .error e ∧ SameInUse transport.bridge.txPool result.2.bridge.txPool)

theorem loanWith_outcome
    {newNative : UFrameMetadata U.toUpTypes → ℕ → ℕ → ℕ → ℕ → Except Fault (TxBuffer U)}
    (hnew : ∀ {metadata address sampleLen payloadLen alignment buffer},
      newNative metadata address sampleLen payloadLen alignment = .ok buffer → buffer.Headed)
    (allocation : Allocation) (spec : ValidatedTxLoanSpec U) (transport : UTransportLola) :
    LoanOutcome transport (transport.loanWith w newNative allocation spec) := by
  unfold UTransportLola.loanWith
  split
  · exact ⟨rfl, .inr ⟨_, rfl, .refl _⟩⟩
  · split_ifs with halign
    · exact ⟨rfl, .inr ⟨_, rfl, .refl _⟩⟩
    · split
      · rename_i e bridge hloan
        rcases loanSample_cases hloan with ⟨_, hok, -⟩ | ⟨_, -, hsame⟩
        · cases hok
        · exact ⟨rfl, .inr ⟨e, rfl, hsame⟩⟩
      · rename_i native bridge hloan
        rcases loanSample_cases hloan with ⟨_, hok, hpool, hlends, hsendable⟩ | ⟨_, he, -⟩
        · cases hok
          -- giving the sample back leaves the pool as it was
          have hdropped : SameInUse transport.bridge.txPool (native.drop bridge.txPool) := by
            rw [drop_eq_release hsendable]
            exact hlends.release _
          dsimp only
          split
          · exact ⟨rfl, .inr ⟨_, rfl, hdropped⟩⟩
          · split
            · exact ⟨rfl, .inr ⟨_, rfl, hdropped⟩⟩
            · rename_i buffer hbuffer
              exact ⟨rfl, .inl ⟨_, rfl, hpool, hnew hbuffer, hlends, hsendable⟩⟩
        · cases he

theorem loanValidatedTx_outcome (allocation : Allocation) (spec : ValidatedTxLoanSpec U)
    (transport : UTransportLola) :
    LoanOutcome transport (transport.loanValidatedTx w allocation spec) := by
  refine loanWith_outcome (fun h => ?_) allocation spec transport
  obtain ⟨loan, hloan, rfl⟩ := Fallible.map_eq_ok.1 h
  exact newNative_headed hloan

theorem loanValidatedUninitTx_outcome (allocation : Allocation) (spec : ValidatedTxLoanSpec U)
    (transport : UTransportLola) :
    LoanOutcome transport (transport.loanValidatedUninitTx w allocation spec) := by
  refine loanWith_outcome (fun h => ?_) allocation spec transport
  obtain ⟨loan, hloan, rfl⟩ := Fallible.map_eq_ok.1 h
  exact uninit_newNative_headed hloan

namespace TxLoans

/-- The number of slots in use in the pool of the transport at `t`. -/
def inUse (s : TxLoans U) (t : ℕ) : ℕ := (s.transports[t]?).elim 0 (·.bridge.txPool.used)

/-- The number of loans held that were obtained from the transport at `t`. -/
def live (s : TxLoans U) (t : ℕ) : ℕ := s.loans.countP (·.native.pool = t)

/-- Every transport has as many slots in use as loans are held of it. -/
def Accounted (s : TxLoans U) : Prop := ∀ t, s.inUse t = s.live t

/-- A loan is passed to a transport it was not obtained from. -/
def Crosses (s : TxLoans U) : TxAction U → Prop
  | .send t i _ => ∃ loan, s.loans[i]? = some loan ∧ loan.native.pool ≠ t
  | _ => False

/-- Transports are told apart by their place, and every loan held is one slot in use. -/
structure Inv (s : TxLoans U) : Prop where
  ids : ∀ (t : ℕ) (transport : UTransportLola), s.transports[t]? = some transport →
    transport.native.ptr = t ∧ transport.bridge.txPool.id = t ∧ transport.bridge.txPool.Sound
  lent : ∀ loan ∈ s.loans, ∃ owner, s.transports[loan.native.pool]? = some owner ∧
    Sendable owner.bridge.txPool loan.native.loan
  headed : ∀ loan ∈ s.loans, loan.buffer.Headed
  nodup : (s.loans.map fun loan => (loan.native.pool, loan.native.loan)).Nodup

theorem inv_init : ({} : TxLoans U).Inv where
  ids := by simp
  lent := by simp
  headed := by simp
  nodup := List.nodup_nil

variable {s s' : TxLoans U} {t i : ℕ} {transport : UTransportLola}

theorem inUse_set (ht : s.transports[t]? = some transport) (transport' : UTransportLola)
    (loans : List (LiveLoan U)) (k : ℕ) :
    inUse { s with transports := s.transports.set t transport', loans } k =
      if k = t then transport'.bridge.txPool.used else s.inUse k := by
  simp only [inUse, List.getElem?_set_of_some ht]
  split_ifs <;> rfl

theorem inUse_eq (ht : s.transports[t]? = some transport) :
    s.inUse t = transport.bridge.txPool.used := by
  rw [inUse, ht]
  rfl

/-- A transport whose pool has changed is told apart as before. -/
theorem ids_set {transport' : UTransportLola} (hs : s.Inv)
    (ht : s.transports[t]? = some transport) (hnative : transport'.native = transport.native)
    (hid : transport'.bridge.txPool.id = transport.bridge.txPool.id)
    (hsound : transport.bridge.txPool.Sound → transport'.bridge.txPool.Sound) (k : ℕ)
    (tr : UTransportLola) (hk : (s.transports.set t transport')[k]? = some tr) :
    tr.native.ptr = k ∧ tr.bridge.txPool.id = k ∧ tr.bridge.txPool.Sound := by
  obtain ⟨hptr, hid₀, hsound₀⟩ := hs.ids t transport ht
  rw [List.getElem?_set_of_some ht] at hk
  split_ifs at hk with hkt
  · cases hk
    rw [hnative, hptr, hid, hid₀, hkt]
    exact ⟨rfl, rfl, hsound hsound₀⟩
  · exact hs.ids k tr hk

/-- A loan that the new pool has kept is still lent. -/
theorem lent_set {transport' : UTransportLola} {l : LiveLoan U} (hs : s.Inv)
    (ht : s.transports[t]? = some transport) (hl : l ∈ s.loans)
    (hkeep : l.native.pool = t → Sendable transport.bridge.txPool l.native.loan →
      Sendable transport'.bridge.txPool l.native.loan) :
    ∃ owner, (s.transports.set t transport')[l.native.pool]? = some owner ∧
      Sendable owner.bridge.txPool l.native.loan := by
  obtain ⟨owner, howner, hsendable⟩ := hs.lent l hl
  rw [List.getElem?_set_of_some ht]
  split_ifs with hlt
  · rw [hlt, ht] at howner
    cases howner
    exact ⟨transport', rfl, hkeep hlt hsendable⟩
  · exact ⟨owner, howner, hsendable⟩

/-- A transport that has lent keeps the loans that were held beside the new one. -/
theorem inv_lent {transport' : UTransportLola} {loan : LiveLoan U} (hs : s.Inv)
    (ht : s.transports[t]? = some transport) (hnative : transport'.native = transport.native)
    (hpool : loan.native.pool = t) (hheaded : loan.buffer.Headed)
    (hlends : Lends loan.native.loan transport.bridge.txPool transport'.bridge.txPool)
    (hsendable : Sendable transport'.bridge.txPool loan.native.loan) :
    (s.lend t (.ok loan, transport')).Inv := by
  refine ⟨ids_set hs ht hnative hlends.changed.id hlends.changed.sound, ?_, ?_, ?_⟩
  · intro l hl
    rcases List.mem_append.1 hl with hl | hl
    · exact lent_set hs ht hl fun _ h => (h.lends hlends).2
    · rw [List.mem_singleton.1 hl, hpool]
      refine ⟨transport', ?_, hsendable⟩
      rw [lend, List.getElem?_set_of_some ht, if_pos rfl]
  · intro l hl
    rcases List.mem_append.1 hl with hl | hl
    · exact hs.headed l hl
    · rwa [List.mem_singleton.1 hl]
  · simp only [lend, List.map_append, List.map_cons, List.map_nil]
    refine List.nodup_append.2 ⟨hs.nodup, List.pairwise_singleton _ _, ?_⟩
    intro a ha b hb hab
    obtain ⟨l, hl, rfl⟩ := List.mem_map.1 ha
    rw [List.mem_singleton.1 hb] at hab
    obtain ⟨hpools, hloans⟩ := Prod.mk.inj hab
    obtain ⟨owner, howner, hsend⟩ := hs.lent l hl
    rw [hpools, hpool, ht] at howner
    cases howner
    exact (hsend.lends hlends).1 hloans

/-- A transport that has lent has one more slot in use for the new loan. -/
theorem inv_lend {result : Except Fault (LiveLoan U) × UTransportLola} (hs : s.Inv)
    (ht : s.transports[t]? = some transport) (h : LoanOutcome transport result) :
    (s.lend t result).Inv ∧
      ∀ k, (s.lend t result).inUse k + s.live k = s.inUse k + (s.lend t result).live k := by
  obtain ⟨result, transport'⟩ := result
  obtain ⟨hnative, h⟩ := h
  dsimp only at hnative h
  rcases h with ⟨loan, rfl, hpool, hheaded, hlends, hsendable⟩ | ⟨e, rfl, hsame⟩
  · rw [(hs.ids t transport ht).1] at hpool
    refine ⟨inv_lent hs ht hnative hpool hheaded hlends hsendable, fun k => ?_⟩
    simp only [lend, inUse_set ht, live, List.countP_append, List.countP_singleton, hpool]
    by_cases hk : k = t
    · rw [if_pos hk, hk, inUse_eq ht, hlends.used]
      simp
      omega
    · have hkt : ¬ t = k := fun h => hk h.symm
      simp [hk, hkt]
  · refine ⟨⟨ids_set hs ht hnative hsame.id hsame.sound, fun l hl => ?_, hs.headed, hs.nodup⟩,
      fun k => ?_⟩
    · exact lent_set hs ht hl fun _ h => h.sameInUse hsame
    · simp only [lend, inUse_set ht, live]
      split_ifs with hk
      · rw [hk, inUse_eq ht, hsame.used]
      · rfl

/-- A loan that is gone leaves the others as they were. -/
theorem inv_giveUp {loan : LiveLoan U} {owner : UTransportLola} {pool : TxLoanPool} (hs : s.Inv)
    (hi : s.loans[i]? = some loan) (howner : s.transports[loan.native.pool]? = some owner)
    (hpool : ChangedAt loan.native.loan owner.bridge.txPool pool) :
    (s.giveUp i loan owner pool).Inv := by
  obtain ⟨hlt, rfl⟩ := List.getElem?_eq_some_iff.1 hi
  have hperm := (List.getElem_cons_eraseIdx_perm hlt).map
    fun l : LiveLoan U => (l.native.pool, l.native.loan)
  have hnodup := hperm.nodup_iff.2 hs.nodup
  rw [List.map_cons, List.nodup_cons] at hnodup
  refine ⟨ids_set hs howner rfl hpool.id hpool.sound, fun l hl => ?_,
    fun l hl => hs.headed l (List.mem_of_mem_eraseIdx hl), hnodup.2⟩
  refine lent_set hs howner (List.mem_of_mem_eraseIdx hl) fun hpools hsendable => ?_
  refine hsendable.changedAt hpool fun hloan => hnodup.1 ?_
  rw [← hpools, ← hloan]
  exact List.mem_map_of_mem (f := fun l : LiveLoan U => (l.native.pool, l.native.loan)) hl

theorem live_giveUp {loan : LiveLoan U} (owner : UTransportLola) (pool : TxLoanPool)
    (hi : s.loans[i]? = some loan) (k : ℕ) :
    (s.giveUp i loan owner pool).live k + (if loan.native.pool = k then 1 else 0) = s.live k := by
  obtain ⟨hlt, rfl⟩ := List.getElem?_eq_some_iff.1 hi
  have hcount := (List.getElem_cons_eraseIdx_perm hlt).countP_eq
    fun l : LiveLoan U => decide (l.native.pool = k)
  rw [List.countP_cons] at hcount
  simpa [live, giveUp] using hcount

/-- A slot given back is a slot less in use for the loan that is gone. -/
theorem counts_giveUp {loan : LiveLoan U} {owner : UTransportLola} {pool : TxLoanPool}
    (hi : s.loans[i]? = some loan) (howner : s.transports[loan.native.pool]? = some owner)
    (hused : pool.used + 1 = owner.bridge.txPool.used) (k : ℕ) :
    (s.giveUp i loan owner pool).inUse k + s.live k =
      s.inUse k + (s.giveUp i loan owner pool).live k := by
  have hlive := live_giveUp owner pool hi k
  have hset : (s.giveUp i loan owner pool).inUse k =
      if k = loan.native.pool then pool.used else s.inUse k := inUse_set howner _ _ k
  rw [hset]
  by_cases hk : k = loan.native.pool
  · rw [if_pos hk, hk, inUse_eq howner]
    rw [hk, if_pos rfl] at hlive
    omega
  · rw [if_neg hk]
    rw [if_neg fun h => hk h.symm] at hlive
    omega

/-- A slot that is still in use when its loan is gone is one slot too many. -/
theorem counts_leak {loan : LiveLoan U} {owner : UTransportLola} (hi : s.loans[i]? = some loan)
    (howner : s.transports[loan.native.pool]? = some owner) :
    (s.giveUp i loan owner owner.bridge.txPool).inUse loan.native.pool + s.live loan.native.pool =
      s.inUse loan.native.pool +
        (s.giveUp i loan owner owner.bridge.txPool).live loan.native.pool + 1 := by
  have hlive := live_giveUp owner owner.bridge.txPool hi loan.native.pool
  rw [if_pos rfl] at hlive
  have hused : (s.giveUp i loan owner owner.bridge.txPool).inUse loan.native.pool =
      s.inUse loan.native.pool := by
    rw [inUse_eq howner]
    exact (inUse_set howner _ _ _).trans (if_pos rfl)
  omega

theorem natives_set {loan : LiveLoan U} (hi : s.loans[i]? = some loan) (buffer : TxBuffer U) :
    (s.loans.set i { loan with buffer }).map LiveLoan.native = s.loans.map LiveLoan.native := by
  refine List.ext_getElem? fun k => ?_
  rw [List.getElem?_map, List.getElem?_map, List.getElem?_set_of_some hi]
  split_ifs with hk
  · rw [hk, hi]
    rfl
  · rfl

/-- Writing to a loan changes nothing but what is written. -/
theorem inv_setBuffer {loan : LiveLoan U} {buffer : TxBuffer U} (hs : s.Inv)
    (hi : s.loans[i]? = some loan) (hbuffer : buffer.Headed) :
    { s with loans := s.loans.set i { loan with buffer } }.Inv ∧
      ∀ k, live { s with loans := s.loans.set i { loan with buffer } } k = s.live k := by
  have hnatives := natives_set hi buffer
  refine ⟨⟨hs.ids, fun l hl => ?_, fun l hl => ?_, ?_⟩, fun k => ?_⟩
  · have hmem := List.mem_map_of_mem (f := LiveLoan.native) hl
    rw [hnatives] at hmem
    obtain ⟨l', hl', heq⟩ := List.mem_map.1 hmem
    rw [← heq]
    exact hs.lent l' hl'
  · rcases List.mem_or_eq_of_mem_set hl with hl | rfl
    · exact hs.headed l hl
    · exact hbuffer
  · have hnodup := hs.nodup
    have hcomp (loans : List (LiveLoan U)) :
        loans.map (fun l => (l.native.pool, l.native.loan)) =
          (loans.map LiveLoan.native).map fun native => (native.pool, native.loan) := by
      rw [List.map_map]
      rfl
    rw [hcomp] at hnodup ⊢
    rwa [hnatives]
  · have hcomp (loans : List (LiveLoan U)) : loans.countP (fun l => l.native.pool = k) =
        (loans.map LiveLoan.native).countP fun native => native.pool = k := by
      rw [List.countP_map]
      rfl
    simp only [live]
    rw [hcomp, hcomp, hnatives]

theorem build_pool {created : UpLolaStatusCode} {config : LolaTransportConfig} {id : ℕ}
    (h : UTransportLola.build created config id = .ok transport) :
    transport.native.ptr = id ∧
      transport.bridge.txPool = .new id config.maxSamples { sample := {} } := by
  obtain ⟨-, bridge, hcreate, rfl⟩ := build_ok h
  refine ⟨rfl, ?_⟩
  unfold upLolaTransportCreate at hcreate
  split_ifs at hcreate
  cases hcreate
  rfl

/-- A new transport has nothing in use. -/
theorem inv_build (hs : s.Inv) (hptr : transport.native.ptr = s.transports.length) {max : ℕ}
    (hpool : transport.bridge.txPool = .new s.transports.length max { sample := {} }) :
    { s with transports := s.transports ++ [transport] }.Inv ∧
      ∀ k, inUse { s with transports := s.transports ++ [transport] } k = s.inUse k := by
  refine ⟨⟨fun k tr hk => ?_, fun l hl => ?_, hs.headed, hs.nodup⟩, fun k => ?_⟩
  · rcases List.getElem?_concat_eq_some hk with hk | ⟨rfl, rfl⟩
    · exact hs.ids k tr hk
    · rw [hpool]
      exact ⟨hptr, rfl, sound_new _ _ _⟩
  · obtain ⟨owner, howner, hsendable⟩ := hs.lent l hl
    refine ⟨owner, ?_, hsendable⟩
    rw [List.getElem?_append_left (List.getElem?_eq_some_iff.1 howner).1]
    exact howner
  · cases hk : s.transports[k]? with
    | some tr =>
      have hlt := (List.getElem?_eq_some_iff.1 hk).1
      rw [inUse, List.getElem?_append_left hlt]
      rfl
    | none =>
      rw [inUse, inUse, hk, List.getElem?_append_right (List.getElem?_eq_none_iff.1 hk),
        List.getElem?_singleton]
      split_ifs
      · exact (congrArg Pool.used hpool).trans (used_new _ _ _)
      · rfl

/-- What an action does to the counts: a send to another transport leaves a slot in use behind. -/
theorem step_counts (hs : s.Inv) {a : TxAction U} (h : step w s a = some s') :
    s'.Inv ∧ ((¬ s.Crosses a ∧ ∀ k, s'.inUse k + s.live k = s.inUse k + s'.live k) ∨
      s.Crosses a ∧ ∃ k, s'.inUse k + s.live k = s.inUse k + s'.live k + 1) := by
  cases a with
  | build config created =>
    obtain ⟨transport, hbuild, h⟩ := Option.bind_eq_some_iff.1 h
    cases h
    obtain ⟨hptr, hpool⟩ := build_pool (Fallible.toOption_eq_some.1 hbuild)
    obtain ⟨hinv, hinUse⟩ := inv_build hs hptr hpool
    exact ⟨hinv, .inl ⟨nofun, fun k => by rw [hinUse]; rfl⟩⟩
  | loan t spec allocation =>
    obtain ⟨transport, ht, h⟩ := Option.bind_eq_some_iff.1 h
    cases h
    obtain ⟨hinv, hcounts⟩ := inv_lend hs ht (loanValidatedTx_outcome allocation spec transport)
    exact ⟨hinv, .inl ⟨nofun, hcounts⟩⟩
  | loanUninit t spec allocation =>
    obtain ⟨transport, ht, h⟩ := Option.bind_eq_some_iff.1 h
    cases h
    obtain ⟨hinv, hcounts⟩ := inv_lend hs ht
      (loanValidatedUninitTx_outcome allocation spec transport)
    exact ⟨hinv, .inl ⟨nofun, hcounts⟩⟩
  | fill i payload =>
    obtain ⟨loan, hi, h⟩ := Option.bind_eq_some_iff.1 h
    obtain ⟨buffer, hbuffer, h⟩ := Option.bind_eq_some_iff.1 h
    cases h
    obtain ⟨hinv, hlive⟩ := inv_setBuffer hs hi (fill_headed (Fallible.toOption_eq_some.1 hbuffer)
      (hs.headed loan (List.mem_of_getElem? hi)))
    exact ⟨hinv, .inl ⟨nofun, fun k => by rw [hlive]; rfl⟩⟩
  | assumePayloadInit i =>
    obtain ⟨loan, hi, h⟩ := Option.bind_eq_some_iff.1 h
    have hheaded := hs.headed loan (List.mem_of_getElem? hi)
    cases hbuffer : loan.buffer with
    | tx tx =>
      rw [hbuffer] at h
      cases h
    | uninitTx uninit =>
      rw [hbuffer] at h hheaded
      obtain ⟨tx, htx, h⟩ := Option.bind_eq_some_iff.1 h
      cases h
      obtain ⟨hinv, hlive⟩ := inv_setBuffer hs hi (assumePayloadInit_headed htx hheaded)
      exact ⟨hinv, .inl ⟨nofun, fun k => by rw [hlive]; rfl⟩⟩
  | drop i =>
    obtain ⟨loan, hi, h⟩ := Option.bind_eq_some_iff.1 h
    obtain ⟨owner, howner, h⟩ := Option.bind_eq_some_iff.1 h
    cases h
    obtain ⟨_, howner', hsendable⟩ := hs.lent loan (List.mem_of_getElem? hi)
    obtain rfl := Option.some.inj (howner.symm.trans howner')
    rw [drop_eq_release hsendable]
    exact ⟨inv_giveUp hs hi howner changedAt_release,
      .inl ⟨nofun, counts_giveUp hi howner (used_release_of_sendable hsendable)⟩⟩
  | send t i sent =>
    obtain ⟨loan, hi, h⟩ := Option.bind_eq_some_iff.1 h
    obtain ⟨owner, howner, h⟩ := Option.bind_eq_some_iff.1 h
    obtain ⟨transport, ht, h⟩ := Option.bind_eq_some_iff.1 h
    obtain ⟨_, howner', hsendable⟩ := hs.lent loan (List.mem_of_getElem? hi)
    obtain rfl := Option.some.inj (howner.symm.trans howner')
    have hheaded := hs.headed loan (List.mem_of_getElem? hi)
    cases hbuffer : loan.buffer with
    | uninitTx uninit =>
      rw [hbuffer] at h
      cases h
    | tx buffer =>
      rw [hbuffer] at h hheaded
      cases h
      by_cases hown : loan.native.pool = t
      · rw [hown, ht] at howner
        obtain rfl := Option.some.inj howner
        rw [sendValidatedZeroCopy_own hheaded hsendable]
        rw [← hown] at ht
        refine ⟨inv_giveUp hs hi ht changedAt_release,
          .inl ⟨?_, counts_giveUp hi ht (used_release_of_sendable hsendable)⟩⟩
        rintro ⟨loan', hi', hne⟩
        obtain rfl := Option.some.inj (hi.symm.trans hi')
        exact hne hown
      · have hid : owner.bridge.txPool.id ≠ transport.bridge.txPool.id := by
          rw [(hs.ids _ owner howner).2.1, (hs.ids t transport ht).2.1]
          exact hown
        rw [sendValidatedZeroCopy_other hheaded hsendable hid]
        exact ⟨inv_giveUp hs hi howner (.refl _),
          .inr ⟨⟨loan, hi, hown⟩, loan.native.pool, counts_leak hi howner⟩⟩

/-- In a history of transports built, loans taken, filled, dropped and sent, every transport has as
many slots in use as loans are held of it after each action, exactly when no loan is passed to a
transport it was not obtained from. -/
theorem tx_slot_accounting {actions : List (TxAction U)}
    (h : Run.exec (step w) ({} : TxLoans U) actions = some s) :
    (∀ before after u, actions = before ++ after →
        Run.exec (step w) ({} : TxLoans U) before = some u → u.Accounted) ↔
      ∀ before a after u, actions = before ++ a :: after →
        Run.exec (step w) ({} : TxLoans U) before = some u → ¬ u.Crosses a := by
  refine Run.exec_forall_iff (I := Inv) (fun s a s' hs h => (step_counts hs h).1) ?_
    (fun _ _ => trivial) inv_init (fun _ => rfl) h
  intro s a s' hs hcounts _ h
  obtain ⟨-, ⟨hcross, hk⟩ | ⟨hcross, k, hk⟩⟩ := step_counts hs h
  · refine iff_of_true (fun k => ?_) hcross
    have := hk k
    have := hcounts k
    omega
  · refine iff_of_false (fun haccounted => ?_) (fun hno => hno hcross)
    have := haccounted k
    have := hcounts k
    omega

/-- Two transports with one slot each, and a loan of the first. -/
def plainLoan : List (TxAction plainUpRust) :=
  [.build (plainConfig 1 0 .DropOldestAndReport) .Ok,
    .build (plainConfig 1 0 .DropOldestAndReport) .Ok,
    .loan 0 ⟨plainMetadata topicA, 2, 1⟩ ⟨some ⟨16, none⟩, fun _ => 0⟩, .fill 0 [5, 6]]

/-- The loan is sent by its own transport, which fails, and another loan of it gets no sample. -/
theorem tx_slot_accounting_plain :
    ∃ s, Run.exec (step .w64) {} (plainLoan ++ [.send 0 0 false,
        .loan 0 ⟨plainMetadata topicA, 2, 1⟩ ⟨none, fun _ => 0⟩]) = some s ∧ s.Accounted := by
  have hrun : (Run.exec (step .w64) {} (plainLoan ++ [.send 0 0 false,
      .loan 0 ⟨plainMetadata topicA, 2, 1⟩ ⟨none, fun _ => 0⟩])).isSome = true := by
    decide +kernel
  have hown : (Run.exec (step .w64) {} plainLoan).all
      (fun s => s.loans.all fun loan => loan.native.pool = 0) = true := by
    decide +kernel
  obtain ⟨s, hs⟩ := Option.isSome_iff_exists.1 hrun
  refine ⟨s, hs, (tx_slot_accounting hs).2 ?_ _ [] s (List.append_nil _).symm hs⟩
  intro before a after u heq hu
  rcases before with _ | ⟨_, _ | ⟨_, _ | ⟨_, _ | ⟨_, _ | ⟨_, _ | ⟨_, before⟩⟩⟩⟩⟩⟩ <;>
    first | cases heq | simp [plainLoan] at heq
  case cons.cons.cons.cons.nil.refl =>
    rintro ⟨loan, hi, hne⟩
    rw [plainLoan, hu] at hown
    have hall := List.all_eq_true.1 hown loan (List.mem_of_getElem? hi)
    exact hne (by simpa using hall)
  all_goals
    intro hcrosses
    cases hcrosses

/-- The loan is sent by the other transport. -/
theorem tx_slot_leaks :
    ∃ s, Run.exec (step .w64) {} (plainLoan ++ [.send 1 0 true]) = some s ∧ ¬ s.Accounted := by
  have hrun : (Run.exec (step .w64) {} (plainLoan ++ [.send 1 0 true])).any
      (fun s => s.inUse 0 = 1 ∧ s.live 0 = 0) = true := by
    decide +kernel
  obtain ⟨s, hs, hcounts⟩ := (Option.any_eq_true _ _).1 hrun
  refine ⟨s, hs, fun haccounted => ?_⟩
  obtain ⟨hused, hlive⟩ : s.inUse 0 = 1 ∧ s.live 0 = 0 := by simpa using hcounts
  have := haccounted 0
  omega

end TxLoans

end LolaTransport
