import LolaTransport.Proofs.TxLoans
import LolaTransport.Proofs.WireImage

/-!
# Loans while they are held

What a loan gives out of its sample is expected to be there: the data of the sample, a payload view
of the length asked for, and, once the view has been filled, nothing that was never written.  All of
it holds of every loan in every state of a history (`loans_usable`), whatever is done with others.
-/

namespace LolaTransport

open Bridge SlotPool

variable {U : UpRust} {w : PointerWidth}

section Framed

/-- The sample is the front of a frame, the payload view, and a tail; `written` makes of a byte one
that the writers have written. -/
def TxLoan.Framed {β : Type} (w : PointerWidth) (written : UInt8 → β) (loan : TxLoan U β) : Prop :=
  ∃ (front tail : List UInt8) (view : List β),
    FrameFront w loan.metadata loan.payloadLen loan.payloadOffset front ∧
    view.length = loan.payloadLen ∧ loan.sample = front.map written ++ view ++ tail.map written

def TxBuffer.Framed (w : PointerWidth) : TxBuffer U → Prop
  | .tx loan => TxLoan.Framed w id loan
  | .uninitTx loan => TxLoan.Framed w some loan

def TxBuffer.sampleLen : TxBuffer U → ℕ
  | .tx loan => loan.sample.length
  | .uninitTx loan => loan.sample.length

def TxBuffer.payloadLen : TxBuffer U → ℕ
  | .tx loan => loan.payloadLen
  | .uninitTx loan => loan.payloadLen

/-- What fills the view takes its place. -/
theorem TxLoan.Framed.fill {β : Type} {written : UInt8 → β} {loan : TxLoan U β}
    (h : loan.Framed w written) {payload : List β} (hlen : payload.length = loan.payloadLen) :
    ∃ filled : TxLoan U β, loan.fillPayload w payload = .ok filled ∧ filled.Framed w written ∧
      filled.sample.length = loan.sample.length ∧
      ∃ front tail : List UInt8, front.length = loan.payloadOffset ∧
        filled.sample = front.map written ++ payload ++ tail.map written := by
  obtain ⟨metadata, sample, payloadOffset, payloadLen⟩ := loan
  obtain ⟨front, tail, view, hfront, hview, hsample⟩ := h
  dsimp only at hfront hview hsample hlen
  subst hsample
  have hoff : payloadOffset = (front.map written).length := by
    rw [List.length_map, hfront.length]
  refine ⟨_, fillPayload_middle hoff hview.symm hlen.symm hfront.fits,
    ⟨front, tail, payload, hfront, hlen, rfl⟩, ?_, front, tail, hfront.length, rfl⟩
  simp [hlen, hview]

theorem TxLoan.Framed.of_fill {β : Type} {written : UInt8 → β} {loan filled : TxLoan U β}
    (h : loan.Framed w written) {payload : List β}
    (hfill : loan.fillPayload w payload = .ok filled) :
    filled.Framed w written ∧ filled.sample.length = loan.sample.length := by
  have hlen : payload.length = loan.payloadLen := by
    unfold TxLoan.fillPayload at hfill
    split at hfill
    · cases hfill
    · split_ifs at hfill with hbound
      exact hbound.2.2
  obtain ⟨filled', hfill', hframed, hsample, -⟩ := h.fill hlen
  cases hfill.symm.trans hfill'
  exact ⟨hframed, hsample⟩

theorem newNative_framed {metadata : UFrameMetadata U.toUpTypes}
    {address payloadLen alignment : ℕ} {slot : List MaybeUninit} {loan : LolaTxLoan U}
    (h : LolaTxLoan.newNative U w metadata address slot payloadLen alignment = .ok loan) :
    TxLoan.Framed w id loan ∧ loan.sample.length = slot.length := by
  rw [newNative_eq_newVec] at h
  obtain ⟨offset, hwrite, h⟩ := Fallible.bind_eq_ok.1 h
  cases h
  obtain ⟨front, hfront, -, hroom, hsample⟩ := writeFrameHeader_ok (Prod.ext hwrite rfl)
  rw [List.length_replicate] at hroom
  rw [List.drop_replicate] at hsample
  refine ⟨⟨front, List.replicate (slot.length - (offset + payloadLen)) 0,
    List.replicate payloadLen 0, hfront, List.length_replicate, ?_⟩, ?_⟩
  · refine hsample.trans ?_
    rw [List.map_id, List.map_id, List.append_assoc, List.replicate_append_replicate]
    congr 2
    omega
  · refine (congrArg List.length hsample).trans ?_
    rw [List.length_append, List.length_replicate, hfront.length]
    omega

theorem uninit_newNative_framed {metadata : UFrameMetadata U.toUpTypes}
    {address payloadLen alignment : ℕ} {slot : List MaybeUninit} {loan : LolaUninitTxLoan U}
    (h : LolaUninitTxLoan.newNative U w metadata address slot payloadLen alignment = .ok loan) :
    TxLoan.Framed w some loan ∧ loan.sample.length = slot.length := by
  obtain ⟨offset, hwrite, h⟩ := Fallible.bind_eq_ok.1 h
  cases h
  obtain ⟨front, hfront, -, hroom, hsample⟩ := writeFrameHeaderUninit_ok (Prod.ext hwrite rfl)
  have hview : (Bytes.slice slot offset (offset + payloadLen)).length = payloadLen := by
    rw [Bytes.slice, List.length_take, List.length_drop]
    omega
  refine ⟨⟨front, List.replicate (slot.length - (offset + payloadLen)) 0,
    Bytes.slice slot offset (offset + payloadLen), hfront, hview, ?_⟩, ?_⟩
  · rw [List.map_replicate]
    exact hsample
  · refine (congrArg List.length hsample).trans ?_
    rw [List.length_append, List.length_append, List.length_map, List.length_replicate, hview,
      hfront.length]
    omega

theorem assumePayloadInit_framed {loan : LolaUninitTxLoan U} {loan' : LolaTxLoan U}
    (h : loan.assumePayloadInit = some loan') (hloan : TxLoan.Framed w some loan) :
    TxLoan.Framed w id loan' ∧ loan'.sample.length = loan.sample.length := by
  obtain ⟨sample, hsample, h⟩ := Option.bind_eq_some_iff.1 h
  cases h
  have hbytes := map_some_of_assumeInit hsample
  obtain ⟨front, tail, view, hfront, hview, hparts⟩ := hloan
  obtain ⟨rest, tail', rfl, hrest, htail⟩ := List.append_eq_map_iff.1 (hparts.symm.trans hbytes)
  obtain ⟨front', view', rfl, hfront', rfl⟩ := List.append_eq_map_iff.1 hrest.symm
  obtain rfl : front' = front := List.map_injective_iff.2 (Option.some_injective _) hfront'
  refine ⟨⟨front', tail', view', hfront, by rwa [List.length_map] at hview, ?_⟩, ?_⟩
  · rw [List.map_id, List.map_id]
  · rw [hbytes, List.length_map]

theorem fill_framed {buffer buffer' : TxBuffer U} {payload : List UInt8}
    (h : buffer.fill w payload = .ok buffer') (hbuffer : buffer.Framed w) :
    buffer'.Framed w ∧ buffer'.sampleLen = buffer.sampleLen := by
  cases buffer with
  | tx loan =>
    obtain ⟨loan', hfill, rfl⟩ := Fallible.map_eq_ok.1 h
    exact TxLoan.Framed.of_fill hbuffer hfill
  | uninitTx loan =>
    obtain ⟨loan', hfill, rfl⟩ := Fallible.map_eq_ok.1 h
    exact TxLoan.Framed.of_fill hbuffer hfill

theorem TxLoan.Framed.headed {loan : LolaTxLoan U} (h : TxLoan.Framed w id loan) :
    (TxBuffer.tx loan).Headed := by
  obtain ⟨front, tail, view, hfront, -, hsample⟩ := h
  obtain ⟨⟨rest, rfl⟩, hoffset⟩ := hfront.take
  refine ⟨(congrArg (List.take 4) hsample).trans ?_, hoffset⟩
  rw [List.map_id, List.append_assoc, List.append_assoc]
  exact List.take_left' rfl

theorem payload_middle {m : UFrameMetadata U.toUpTypes} {front payload tail : List UInt8}
    {payloadLen payloadOffset : ℕ} (hoff : payloadOffset = front.length)
    (hlen : payloadLen = payload.length) (hfits : payloadOffset + payloadLen ≤ usizeMax w) :
    LolaTxLoan.payload w (TxLoan.mk m (front ++ payload ++ tail) payloadOffset payloadLen) =
      .ok payload := by
  have hstop : checkedAdd w payloadOffset payloadLen = some (payloadOffset + payloadLen) :=
    checkedAdd_eq_some.2 ⟨hfits, rfl⟩
  have hbound : payloadOffset ≤ payloadOffset + payloadLen ∧
      payloadOffset + payloadLen ≤ (front ++ payload ++ tail).length := by
    simp only [List.length_append]
    omega
  simp only [LolaTxLoan.payload, hstop, if_pos hbound]
  rw [Bytes.slice_middle hoff (by omega)]

end Framed

section Holder

def TxBuffer.metadata : TxBuffer U → UFrameMetadata U.toUpTypes
  | .tx loan => loan.metadata
  | .uninitTx loan => loan.metadata

/-- The loan as one that can be sent, which `assume_payload_init` makes of one that is not
initialized. -/
def TxBuffer.initialized : TxBuffer U → Option (LolaTxLoan U)
  | .tx loan => some loan
  | .uninitTx loan => loan.assumePayloadInit

/-- Filling the view makes of a loan one that can be sent, with that payload. -/
theorem TxBuffer.Framed.fill {buffer : TxBuffer U} (h : buffer.Framed w) {payload : List UInt8}
    (hlen : payload.length = buffer.payloadLen) :
    ∃ filled sent, buffer.fill w payload = .ok filled ∧ filled.initialized = some sent ∧
      sent.intoNative = .ok () ∧ sent.metadata = buffer.metadata ∧
      LolaTxLoan.payload w sent = .ok payload := by
  cases buffer with
  | tx loan =>
    obtain ⟨metadata, sample, payloadOffset, payloadLen⟩ := loan
    obtain ⟨front, tail, view, hfront, hview, hsample⟩ := h
    dsimp only [TxBuffer.payloadLen] at hfront hview hsample hlen
    subst hsample
    have hoff : payloadOffset = (front.map id).length := by
      rw [List.length_map, hfront.length]
    have hfill := fillPayload_middle (m := metadata) (c := tail.map id) hoff hview.symm hlen.symm
      hfront.fits
    refine ⟨_, _, congrArg (Except.map TxBuffer.tx) hfill, rfl, ?_, rfl, ?_⟩
    · exact intoNative_of_headed (TxLoan.Framed.headed ⟨front, tail, payload, hfront, hlen, rfl⟩)
    · exact payload_middle hoff hlen.symm hfront.fits
  | uninitTx loan =>
    obtain ⟨metadata, sample, payloadOffset, payloadLen⟩ := loan
    obtain ⟨front, tail, view, hfront, hview, hsample⟩ := h
    dsimp only [TxBuffer.payloadLen] at hfront hview hsample hlen
    subst hsample
    have hoff : payloadOffset = (front.map some).length := by
      rw [List.length_map, hfront.length]
    have hlen' : payloadLen = (payload.map some).length := by rw [List.length_map, hlen]
    have hfill := fillPayload_middle (m := metadata) (c := tail.map some) hoff hview.symm hlen'
      hfront.fits
    refine ⟨_, ⟨metadata, front ++ payload ++ tail, payloadOffset, payloadLen⟩,
      congrArg (Except.map TxBuffer.uninitTx) hfill, ?_, ?_, rfl, ?_⟩
    · simp only [initialized, TxLoan.assumePayloadInit, ← List.map_append, assumeInit_map_some,
        bind, Option.bind_some, pure]
    · refine intoNative_of_headed (TxLoan.Framed.headed (w := w)
        ⟨front, tail, payload, hfront, hlen, ?_⟩)
      rw [List.map_id, List.map_id]
    · exact payload_middle hfront.length.symm hlen.symm hfront.fits

end Holder

/-- `data_parts` looks at nothing but the loan's own slot. -/
theorem dataParts_congr {loan : NativeTxLoan} {pool pool' : TxLoanPool}
    (h : pool'.slots[loan.loan]? = pool.slots[loan.loan]?) (label : String) :
    loan.dataParts pool' label = loan.dataParts pool label := by
  simp only [NativeTxLoan.dataParts, upLolaTxLoanData, upLolaTxLoanSize, h]

theorem changedAt_destroy {pool : TxLoanPool} {i : ℕ} :
    ChangedAt i pool (upLolaTxLoanDestroy pool i) := by
  unfold upLolaTxLoanDestroy
  split
  · exact .refl _
  · split_ifs
    · exact .refl _
    · exact changedAt_release

/-- A send changes no slot but that of the loan it is given. -/
theorem changedAt_sendValidatedZeroCopy {sent : Bool} {transport : UTransportLola}
    {native : NativeTxLoan} {buffer : LolaTxLoan U} {pool : TxLoanPool} :
    ChangedAt native.loan pool (transport.sendValidatedZeroCopy sent native buffer pool).2 := by
  unfold UTransportLola.sendValidatedZeroCopy
  split
  · exact changedAt_destroy
  · simp only [NativeTransport.send, upLolaTransportSend]
    split
    · exact .refl _
    · split_ifs
      all_goals first | exact .refl _ | exact changedAt_release

/-- The frame of the loan is laid out in the data of its sample. -/
def LiveLoan.Backed (w : PointerWidth) (loan : LiveLoan U) (pool : TxLoanPool) : Prop :=
  loan.buffer.Framed w ∧ ∃ address, loan.native.dataParts pool "LoLa TX loan" =
    .ok (address, loan.buffer.sampleLen)

theorem loanWith_ok
    {newNative : UFrameMetadata U.toUpTypes → ℕ → ℕ → ℕ → ℕ → Except Fault (TxBuffer U)}
    (hnew : ∀ {metadata address sampleLen payloadLen alignment buffer},
      newNative metadata address sampleLen payloadLen alignment = .ok buffer →
        buffer.Framed w ∧ buffer.sampleLen = sampleLen)
    {allocation : Allocation} {spec : ValidatedTxLoanSpec U} {transport transport' : UTransportLola}
    {loan : LiveLoan U}
    (h : transport.loanWith w newNative allocation spec = (.ok loan, transport')) :
    loan.Backed w transport'.bridge.txPool := by
  unfold UTransportLola.loanWith at h
  split at h
  · cases h
  · split_ifs at h with halign
    · cases h
    · split at h
      · cases h
      · dsimp only at h
        split at h
        · cases h
        · rename_i native bridge _ _ address sampleLen hparts
          split at h
          · cases h
          · rename_i buffer hbuffer
            obtain ⟨hframed, hlen⟩ := hnew hbuffer
            cases h
            exact ⟨hframed, address, by rw [hlen]; exact hparts⟩

theorem loanValidatedTx_ok {allocation : Allocation} {spec : ValidatedTxLoanSpec U}
    {transport transport' : UTransportLola} {loan : LiveLoan U}
    (h : transport.loanValidatedTx w allocation spec = (.ok loan, transport')) :
    loan.Backed w transport'.bridge.txPool := by
  refine loanWith_ok (fun h => ?_) h
  obtain ⟨loan, hloan, rfl⟩ := Fallible.map_eq_ok.1 h
  obtain ⟨hframed, hlen⟩ := newNative_framed hloan
  exact ⟨hframed, hlen.trans List.length_replicate⟩

theorem loanValidatedUninitTx_ok {allocation : Allocation} {spec : ValidatedTxLoanSpec U}
    {transport transport' : UTransportLola} {loan : LiveLoan U}
    (h : transport.loanValidatedUninitTx w allocation spec = (.ok loan, transport')) :
    loan.Backed w transport'.bridge.txPool := by
  refine loanWith_ok (fun h => ?_) h
  obtain ⟨loan, hloan, rfl⟩ := Fallible.map_eq_ok.1 h
  obtain ⟨hframed, hlen⟩ := uninit_newNative_framed hloan
  exact ⟨hframed, hlen.trans List.length_replicate⟩

namespace TxLoans

variable {s s' : TxLoans U} {t i : ℕ} {transport : UTransportLola}

/-- Every loan held is backed by its slot. -/
def Backed (w : PointerWidth) (s : TxLoans U) : Prop :=
  ∀ loan ∈ s.loans, ∃ owner, s.transports[loan.native.pool]? = some owner ∧
    loan.Backed w owner.bridge.txPool

/-- A loan whose slot the new pool has kept is backed as before. -/
theorem backed_set {transport' : UTransportLola} {l : LiveLoan U} (hs : s.Backed w)
    (ht : s.transports[t]? = some transport) (hl : l ∈ s.loans)
    (hkeep : l.native.pool = t → transport'.bridge.txPool.slots[l.native.loan]? =
      transport.bridge.txPool.slots[l.native.loan]?) :
    ∃ owner, (s.transports.set t transport')[l.native.pool]? = some owner ∧
      l.Backed w owner.bridge.txPool := by
  obtain ⟨owner, howner, hframed, address, hparts⟩ := hs l hl
  rw [List.getElem?_set_of_some ht]
  split_ifs with hlt
  · rw [hlt, ht] at howner
    cases howner
    exact ⟨transport', rfl, hframed, address, by rwa [dataParts_congr (hkeep hlt)]⟩
  · exact ⟨owner, howner, hframed, address, hparts⟩

theorem backed_lend {result : Except Fault (LiveLoan U) × UTransportLola} (hinv : s.Inv)
    (hs : s.Backed w) (ht : s.transports[t]? = some transport) (h : LoanOutcome transport result)
    (hok : ∀ loan, result.1 = .ok loan → loan.Backed w result.2.bridge.txPool) :
    (s.lend t result).Backed w := by
  obtain ⟨result, transport'⟩ := result
  obtain ⟨-, h⟩ := h
  dsimp only at h hok
  -- a slot that is in use is not the one that is lent
  have hkept : ∀ l ∈ s.loans, l.native.pool = t → transport'.bridge.txPool.slots[l.native.loan]? =
      transport.bridge.txPool.slots[l.native.loan]? := by
    intro l hl hlt
    obtain ⟨owner, howner, hsendable⟩ := hinv.lent l hl
    rw [hlt, ht] at howner
    cases howner
    obtain ⟨slot, hslot, hin, -⟩ := hsendable.inUse
    rcases h with ⟨loan, -, -, -, hlends, -⟩ | ⟨e, -, hsame⟩
    · rw [(hlends.kept hslot hin).2, hslot]
    · rw [hsame.kept _ slot hslot hin, hslot]
  have hold : ∀ l ∈ s.loans, ∃ owner, (s.transports.set t transport')[l.native.pool]? = some owner ∧
      l.Backed w owner.bridge.txPool :=
    fun l hl => backed_set hs ht hl (hkept l hl)
  rcases h with ⟨loan, rfl, hpool, -, -, -⟩ | ⟨e, rfl, -⟩
  · intro l hl
    rcases List.mem_append.1 hl with hl | hl
    · exact hold l hl
    · rw [List.mem_singleton.1 hl, hpool, (hinv.ids t transport ht).1]
      exact ⟨transport', by rw [lend, List.getElem?_set_of_some ht, if_pos rfl], hok loan rfl⟩
  · exact hold

/-- A loan that is gone leaves those behind it that lie in other slots. -/
theorem backed_giveUp {loan : LiveLoan U} {owner : UTransportLola} {pool : TxLoanPool}
    (hinv : s.Inv) (hs : s.Backed w) (hi : s.loans[i]? = some loan)
    (howner : s.transports[loan.native.pool]? = some owner)
    (hpool : ChangedAt loan.native.loan owner.bridge.txPool pool) :
    (s.giveUp i loan owner pool).Backed w := by
  obtain ⟨hlt, rfl⟩ := List.getElem?_eq_some_iff.1 hi
  have hnodup := ((List.getElem_cons_eraseIdx_perm hlt).map
    fun l : LiveLoan U => (l.native.pool, l.native.loan)).nodup_iff.2 hinv.nodup
  rw [List.map_cons, List.nodup_cons] at hnodup
  intro l hl
  refine backed_set hs howner (List.mem_of_mem_eraseIdx hl) fun hpools => ?_
  refine hpool.others _ fun hloan => hnodup.1 ?_
  rw [← hpools, ← hloan]
  exact List.mem_map_of_mem (f := fun l : LiveLoan U => (l.native.pool, l.native.loan)) hl

theorem backed_setBuffer {loan : LiveLoan U} {buffer : TxBuffer U} (hs : s.Backed w)
    (hi : s.loans[i]? = some loan) (hbuffer : buffer.Framed w)
    (hlen : buffer.sampleLen = loan.buffer.sampleLen) :
    Backed w { s with loans := s.loans.set i { loan with buffer } } := by
  intro l hl
  rcases List.mem_or_eq_of_mem_set hl with hl | rfl
  · exact hs l hl
  · obtain ⟨owner, howner, -, address, hparts⟩ := hs loan (List.mem_of_getElem? hi)
    exact ⟨owner, howner, hbuffer, address, by rw [hlen]; exact hparts⟩

theorem backed_step (hinv : s.Inv) (hs : s.Backed w) {a : TxAction U} (h : step w s a = some s') :
    s'.Backed w := by
  cases a with
  | build config created =>
    obtain ⟨transport, -, h⟩ := Option.bind_eq_some_iff.1 h
    cases h
    intro l hl
    obtain ⟨owner, howner, hbacked⟩ := hs l hl
    refine ⟨owner, ?_, hbacked⟩
    rw [List.getElem?_append_left (List.getElem?_eq_some_iff.1 howner).1]
    exact howner
  | loan t spec allocation =>
    obtain ⟨transport, ht, h⟩ := Option.bind_eq_some_iff.1 h
    cases h
    exact backed_lend hinv hs ht (loanValidatedTx_outcome allocation spec transport)
      fun loan hloan => loanValidatedTx_ok (Prod.ext hloan rfl)
  | loanUninit t spec allocation =>
    obtain ⟨transport, ht, h⟩ := Option.bind_eq_some_iff.1 h
    cases h
    exact backed_lend hinv hs ht (loanValidatedUninitTx_outcome allocation spec transport)
      fun loan hloan => loanValidatedUninitTx_ok (Prod.ext hloan rfl)
  | fill i payload =>
    obtain ⟨loan, hi, h⟩ := Option.bind_eq_some_iff.1 h
    obtain ⟨buffer, hbuffer, h⟩ := Option.bind_eq_some_iff.1 h
    cases h
    obtain ⟨owner, -, hframed, -⟩ := hs loan (List.mem_of_getElem? hi)
    obtain ⟨hfilled, hlen⟩ := fill_framed (Fallible.toOption_eq_some.1 hbuffer) hframed
    exact backed_setBuffer hs hi hfilled hlen
  | assumePayloadInit i =>
    obtain ⟨loan, hi, h⟩ := Option.bind_eq_some_iff.1 h
    obtain ⟨owner, -, hframed, -⟩ := hs loan (List.mem_of_getElem? hi)
    cases hbuffer : loan.buffer with
    | tx tx =>
      rw [hbuffer] at h
      cases h
    | uninitTx uninit =>
      rw [hbuffer] at h hframed
      obtain ⟨tx, htx, h⟩ := Option.bind_eq_some_iff.1 h
      cases h
      obtain ⟨hassumed, hlen⟩ := assumePayloadInit_framed htx hframed
      exact backed_setBuffer hs hi hassumed (by rw [hbuffer]; exact hlen)
  | drop i =>
    obtain ⟨loan, hi, h⟩ := Option.bind_eq_some_iff.1 h
    obtain ⟨owner, howner, h⟩ := Option.bind_eq_some_iff.1 h
    cases h
    exact backed_giveUp hinv hs hi howner changedAt_destroy
  | send t i sent =>
    obtain ⟨loan, hi, h⟩ := Option.bind_eq_some_iff.1 h
    obtain ⟨owner, howner, h⟩ := Option.bind_eq_some_iff.1 h
    obtain ⟨transport, ht, h⟩ := Option.bind_eq_some_iff.1 h
    cases hbuffer : loan.buffer with
    | uninitTx uninit =>
      rw [hbuffer] at h
      cases h
    | tx buffer =>
      rw [hbuffer] at h
      cases h
      exact backed_giveUp hinv hs hi howner changedAt_sendValidatedZeroCopy

theorem backed_init : ({} : TxLoans U).Backed w := List.forall_mem_nil _

/-- The data of the loan's sample is there, and its view takes any payload of its length. -/
structure Usable (w : PointerWidth) (s : TxLoans U) (loan : LiveLoan U) : Prop where
  data : ∃ owner, s.transports[loan.native.pool]? = some owner ∧ ∃ address,
    loan.native.dataParts owner.bridge.txPool "LoLa TX loan" = .ok (address, loan.buffer.sampleLen)
  fills : ∀ payload : List UInt8, payload.length = loan.buffer.payloadLen →
    ∃ filled sent, loan.buffer.fill w payload = .ok filled ∧ filled.initialized = some sent ∧
      sent.intoNative = .ok () ∧ sent.metadata = loan.buffer.metadata ∧
      LolaTxLoan.payload w sent = .ok payload

/-- In every state of a history, whatever is done with other loans and transports: no two loans are
of one slot, the data that every loan held expects is there, and whatever fills its payload view can
be sent, with nothing in the sample that was never written. -/
theorem loans_usable {actions : List (TxAction U)}
    (h : Run.exec (step w) ({} : TxLoans U) actions = some s) :
    (s.loans.map fun loan => (loan.native.pool, loan.native.loan)).Nodup ∧
      ∀ loan ∈ s.loans, s.Usable w loan := by
  have hkeeps : s.Inv ∧ s.Backed w :=
    Run.exec_keeps (I := fun s : TxLoans U => s.Inv ∧ s.Backed w)
      (fun s a s' hs hstep => ⟨(step_counts hs.1 hstep).1, backed_step hs.1 hs.2 hstep⟩)
      ⟨inv_init, backed_init⟩ h
  refine ⟨hkeeps.1.nodup, fun loan hloan => ?_⟩
  obtain ⟨owner, howner, hframed, hdata⟩ := hkeeps.2 loan hloan
  exact ⟨⟨owner, howner, hdata⟩, fun payload hlen => hframed.fill hlen⟩

/-- The loan of the first transport is passed to the second, beside one that was never written. -/
theorem loans_usable_plain :
    ∃ s, Run.exec (step .w64) {} (plainLoan ++ [.loanUninit 1 ⟨plainMetadata topicA, 2, 1⟩
        ⟨some ⟨16, none⟩, fun _ => 0⟩, .send 1 0 true]) = some s ∧
      s.loans.length = 1 ∧ ∀ loan ∈ s.loans, s.Usable .w64 loan := by
  have hrun : (Run.exec (step .w64) {} (plainLoan ++ [.loanUninit 1 ⟨plainMetadata topicA, 2, 1⟩
      ⟨some ⟨16, none⟩, fun _ => 0⟩, .send 1 0 true])).any (fun s => s.loans.length = 1) =
      true := by
    decide +kernel
  obtain ⟨s, hs, hlen⟩ := (Option.any_eq_true _ _).1 hrun
  exact ⟨s, hs, of_decide_eq_true hlen, (loans_usable hs).2⟩

end TxLoans

end LolaTransport
