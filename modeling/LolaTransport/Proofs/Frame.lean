import LolaTransport.Proofs.FrameWrites
import LolaTransport.Proofs.PlainUris

/-!
# A frame read back

A successful `writeFrameHeader` or `writeFrameHeaderUninit` leaves the same thing in front of the
payload: `frameHeader`, the encoded metadata and zeros, up to an offset that is past the metadata
and leaves room for the payload (`writeFrameHeader_ok`, `writeFrameHeaderUninit_ok`).
`readFrameHeader` finds the metadata and the payload in any sample that starts so
(`readFrameHeader_frame`).
-/

namespace LolaTransport

variable {U : UpRust} {w : PointerWidth}

variable (U w) in
/-- A writer has laid out a frame for `m` in some sample, which starts with `front`. -/
def StartsFrame (m : UFrameMetadata U.toUpTypes) (payloadLen alignment address offset : ℕ)
    (front : List UInt8) : Prop :=
  (∃ sample sample',
    (writeFrameHeader U w m payloadLen alignment address).run sample = (.ok offset, sample') ∧
      sample'.take front.length = front) ∨
  ∃ sample sample',
    (writeFrameHeaderUninit U w m payloadLen alignment address).run sample =
        (.ok offset, sample') ∧
      sample'.take front.length = front.map some

/-- Up to the payload, a sample starts like the front of the frame, whichever writer wrote it. -/
theorem StartsFrame.front {m : UFrameMetadata U.toUpTypes}
    {payloadLen alignment address offset : ℕ} {front : List UInt8}
    (h : StartsFrame U w m payloadLen alignment address offset front) :
    ∃ start, FrameFront w m payloadLen offset start ∧ PayloadAt w m alignment address offset ∧
      (front.length ≤ offset → front = start.take front.length) := by
  rcases h with ⟨sample, sample', hrun, htake⟩ | ⟨sample, sample', hrun, htake⟩
  · obtain ⟨start, hstart, hat, -, rfl⟩ := writeFrameHeader_ok hrun
    refine ⟨start, hstart, hat, fun hle => ?_⟩
    rw [List.take_append_of_le_length (by rwa [hstart.length])] at htake
    exact htake.symm
  · obtain ⟨start, hstart, hat, -, rfl⟩ := writeFrameHeaderUninit_ok hrun
    refine ⟨start, hstart, hat, fun hle => ?_⟩
    rw [List.append_assoc, List.take_append_of_le_length (by rwa [List.length_map, hstart.length]),
      ← List.map_take] at htake
    exact (List.map_injective_iff.2 (Option.some_injective _) htake).symm

section Reading

theorem sliceOrPanic_middle {a b c : List UInt8} {i j : ℕ} (hi : i = a.length)
    (hj : j = i + b.length) : sliceOrPanic (a ++ b ++ c) i j = .ok b := by
  have hbound : i ≤ j ∧ j ≤ (a ++ b ++ c).length := by
    simp only [List.length_append]
    omega
  rw [sliceOrPanic, if_pos hbound, Bytes.slice_middle hi (by omega)]

@[simp] theorem u32FromLeBytes_u32ToLeBytes (v : UInt32) :
    u32FromLeBytes (u32ToLeBytes v) = .ok v := by
  have hlen : expectLen 4 (u32ToLeBytes v) = .ok (u32ToLeBytes v) := by simp [expectLen]
  rw [u32FromLeBytes, hlen]
  exact congrArg Except.ok (ofLe_u32ToLeBytes v)

theorem indexOrPanic_middle {a c : List UInt8} {b : UInt8} {i : ℕ} (hi : i = a.length) :
    indexOrPanic (a ++ [b] ++ c) i = .ok b := by
  subst hi
  simp [indexOrPanic]

/-- The five header reads on a sample that starts with `frameHeader`. -/
theorem read_frameHeader (ml pl po : UInt32) (rest : List UInt8) :
    sliceOrPanic (frameHeader ml pl po ++ rest) 0 4 = .ok LOLA_FRAME_MAGIC ∧
    indexOrPanic (frameHeader ml pl po ++ rest) 4 = .ok LOLA_FRAME_VERSION ∧
    sliceOrPanic (frameHeader ml pl po ++ rest) 8 12 = .ok (u32ToLeBytes ml) ∧
    sliceOrPanic (frameHeader ml pl po ++ rest) 12 16 = .ok (u32ToLeBytes pl) ∧
    sliceOrPanic (frameHeader ml pl po ++ rest) 16 20 = .ok (u32ToLeBytes po) := by
  have hmagic := sliceOrPanic_middle (a := []) (b := LOLA_FRAME_MAGIC) (i := 0) (j := 4)
    (c := [LOLA_FRAME_VERSION] ++ [0, 0, 0] ++ u32ToLeBytes ml ++ u32ToLeBytes pl ++
      u32ToLeBytes po ++ rest) rfl rfl
  have hversion := indexOrPanic_middle (a := LOLA_FRAME_MAGIC) (b := LOLA_FRAME_VERSION) (i := 4)
    (c := [0, 0, 0] ++ u32ToLeBytes ml ++ u32ToLeBytes pl ++ u32ToLeBytes po ++ rest) rfl
  have hml := sliceOrPanic_middle (a := LOLA_FRAME_MAGIC ++ [LOLA_FRAME_VERSION] ++ [0, 0, 0])
    (b := u32ToLeBytes ml) (c := u32ToLeBytes pl ++ u32ToLeBytes po ++ rest) (i := 8) (j := 12)
    rfl (by simp)
  have hpl := sliceOrPanic_middle
    (a := LOLA_FRAME_MAGIC ++ [LOLA_FRAME_VERSION] ++ [0, 0, 0] ++ u32ToLeBytes ml)
    (b := u32ToLeBytes pl) (c := u32ToLeBytes po ++ rest) (i := 12) (j := 16)
    (by simp) (by simp)
  have hpo := sliceOrPanic_middle
    (a := LOLA_FRAME_MAGIC ++ [LOLA_FRAME_VERSION] ++ [0, 0, 0] ++ u32ToLeBytes ml ++
      u32ToLeBytes pl)
    (b := u32ToLeBytes po) (c := rest) (i := 16) (j := 20) (by simp) (by simp)
  simp only [List.nil_append, List.append_assoc] at hmagic hversion hml hpl hpo
  simp only [frameHeader, List.append_assoc]
  exact ⟨hmagic, hversion, hml, hpl, hpo⟩

/-- A sample that starts with the front of a frame for `m`, followed by at least its payload, is
read as `m` and the place of the payload. -/
theorem readFrameHeader_frame (hU : U.Lawful) {m : UFrameMetadata U.toUpTypes}
    {payloadLen payloadOffset : ℕ} {front rest : List UInt8}
    (hfront : FrameFront w m payloadLen payloadOffset front) (hrest : payloadLen ≤ rest.length) :
    readFrameHeader U w (front ++ rest) = .ok (m, payloadOffset, payloadLen) := by
  obtain ⟨⟨metadata, ml, pl, po, henc, hml, rfl, rfl, rfl⟩, hlen, hfits⟩ := hfront
  simp only [List.length_append, length_frameHeader, List.length_replicate] at hlen
  obtain ⟨rest', hrest'⟩ : ∃ rest', rest' =
      List.replicate (po.toNat - (20 + metadata.length)) 0 ++ rest := ⟨_, rfl⟩
  have hsample : frameHeader ml pl po ++ metadata ++
      List.replicate (po.toNat - (20 + metadata.length)) 0 ++ rest =
      frameHeader ml pl po ++ (metadata ++ rest') := by
    rw [hrest']
    simp only [List.append_assoc]
  have hlen' : (frameHeader ml pl po ++ (metadata ++ rest')).length =
      po.toNat + rest.length := by
    rw [hrest']
    simp only [List.length_append, length_frameHeader, List.length_replicate]
    omega
  have hslice : sliceOrPanic (frameHeader ml pl po ++ (metadata ++ rest')) 20
      (20 + metadata.length) = .ok metadata := by
    rw [← List.append_assoc]
    exact sliceOrPanic_middle (by simp) rfl
  obtain ⟨h1, h2, h3, h4, h5⟩ := read_frameHeader ml pl po (metadata ++ rest')
  rw [hsample]
  generalize frameHeader ml pl po ++ (metadata ++ rest') = sample at *
  have hend : checkedAdd w LOLA_FRAME_HEADER_LEN metadata.length = some (20 + metadata.length) :=
    checkedAdd_eq_some.2 ⟨by simp only [LOLA_FRAME_HEADER_LEN]; omega, rfl⟩
  have hstop : checkedAdd w po.toNat pl.toNat = some (po.toNat + pl.toNat) :=
    checkedAdd_eq_some.2 ⟨hfits, rfl⟩
  have hshort : ¬ sample.length < LOLA_FRAME_HEADER_LEN := by
    simp only [LOLA_FRAME_HEADER_LEN]
    omega
  have hmeta : ¬ 20 + metadata.length > sample.length := by omega
  have hover : ¬ po.toNat < 20 + metadata.length := by omega
  have hpay : ¬ po.toNat + pl.toNat > sample.length := by omega
  rw [show (20 : ℕ) = LOLA_FRAME_HEADER_LEN from rfl] at hslice hend hmeta hover
  simp only [readFrameHeader, h1, h2, h3, h4, h5, u32FromLeBytes_u32ToLeBytes, asUsize_eq, hml,
    if_neg hshort, bind, Except.bind, pure, Except.pure, ne_eq, not_true_eq_false, if_false, hend,
    okOr, if_neg hmeta, hslice, decodeMetadata_encodeMetadata hU henc, if_neg hover, hstop,
    if_neg hpay]

/-- The payload view of a lease is the stretch of its sample the header names. -/
theorem tryContiguousPayload_middle {m : UFrameMetadata U.toUpTypes}
    {front payload tail : List UInt8} {payloadLen payloadOffset : ℕ}
    (hoff : payloadOffset = front.length) (hlen : payloadLen = payload.length)
    (hfits : payloadOffset + payloadLen ≤ usizeMax w) :
    (LolaRxLease.mk m (front ++ payload ++ tail) payloadOffset payloadLen).tryContiguousPayload w =
      some payload := by
  have hstop : checkedAdd w payloadOffset payloadLen = some (payloadOffset + payloadLen) :=
    checkedAdd_eq_some.2 ⟨hfits, rfl⟩
  have hbound : payloadOffset ≤ payloadOffset + payloadLen ∧
      payloadOffset + payloadLen ≤ (front ++ payload ++ tail).length := by
    simp only [List.length_append]
    omega
  simp only [LolaRxLease.tryContiguousPayload, hstop, Option.bind_eq_bind, Option.bind_some,
    if_pos hbound, pure]
  rw [Bytes.slice_middle hoff (by omega)]

theorem fillPayload_middle {β : Type} {m : UFrameMetadata U.toUpTypes}
    {a b c payload : List β} {payloadLen payloadOffset : ℕ}
    (hoff : payloadOffset = a.length) (hb : payloadLen = b.length)
    (hlen : payloadLen = payload.length) (hfits : payloadOffset + payloadLen ≤ usizeMax w) :
    (TxLoan.mk m (a ++ b ++ c) payloadOffset payloadLen).fillPayload w payload =
      .ok ⟨m, a ++ payload ++ c, payloadOffset, payloadLen⟩ := by
  have hstop : checkedAdd w payloadOffset payloadLen = some (payloadOffset + payloadLen) :=
    checkedAdd_eq_some.2 ⟨hfits, rfl⟩
  have hbound : payloadOffset ≤ payloadOffset + payloadLen ∧
      payloadOffset + payloadLen ≤ (a ++ b ++ c).length ∧ payload.length = payloadLen := by
    simp only [List.length_append]
    omega
  simp only [TxLoan.fillPayload, hstop, if_pos hbound, Bytes.overwrite_middle hoff
    (hlen.symm.trans hb)]

end Reading

section RoundTrip

/-- `sample` is read as `m` with its payload at `payloadOffset`, and the view a lease gives of it is
`payload`. -/
def ReadsAs (w : PointerWidth) (sample : List UInt8) (m : UFrameMetadata U.toUpTypes)
    (payloadOffset : ℕ) (payload : List UInt8) : Prop :=
  readFrameHeader U w sample = .ok (m, payloadOffset, payload.length) ∧
    (LolaRxLease.mk m sample payloadOffset payload.length).tryContiguousPayload w = some payload

theorem FrameFront.readsAs (hU : U.Lawful) {m : UFrameMetadata U.toUpTypes}
    {front payload : List UInt8} {payloadOffset : ℕ}
    (hfront : FrameFront w m payload.length payloadOffset front) (tail : List UInt8) :
    ReadsAs w (front ++ payload ++ tail) m payloadOffset payload := by
  constructor
  · rw [List.append_assoc]
    exact readFrameHeader_frame hU hfront (by simp)
  · exact tryContiguousPayload_middle hfront.length.symm rfl hfront.fits

/-- What a header is written in front of is read as its payload. -/
theorem readsAs_written (hU : U.Lawful) {m : UFrameMetadata U.toUpTypes} {s : List UInt8}
    {payloadLen alignment address offset : ℕ}
    (h : ((writeFrameHeader U w m payloadLen alignment address).run s).1 = .ok offset) :
    ReadsAs w ((writeFrameHeader U w m payloadLen alignment address).run s).2 m offset
      ((s.drop offset).take payloadLen) := by
  obtain ⟨front, hfront, -, hroom, hsample⟩ := writeFrameHeader_ok (Prod.ext h rfl)
  have hlength : ((s.drop offset).take payloadLen).length = payloadLen := by
    rw [List.length_take, List.length_drop]
    omega
  rw [← hlength] at hfront
  have hreads := hfront.readsAs hU ((s.drop offset).drop payloadLen)
  rwa [List.append_assoc, List.take_append_drop, ← hsample] at hreads

/-- A frame laid out by either writer and filled through the loan's payload view is read back as
the metadata and the payload that went in. -/
theorem frame_round_trip (hU : U.Lawful) (m : UFrameMetadata U.toUpTypes) (payload : List UInt8)
    (alignment address : ℕ) :
    (∀ sample sample' offset,
      (writeFrameHeader U w m payload.length alignment address).run sample =
        (.ok offset, sample') →
      ∃ sent : LolaTxLoan U,
        (TxLoan.mk m sample' offset payload.length).fillPayload w payload = .ok sent ∧
        ReadsAs w sent.sample m offset payload) ∧
    (∀ sample sample' offset,
      (writeFrameHeaderUninit U w m payload.length alignment address).run sample =
        (.ok offset, sample') →
      ∃ (filled : LolaUninitTxLoan U) (sent : LolaTxLoan U),
        (TxLoan.mk m sample' offset payload.length).fillPayload w (payload.map some) =
          .ok filled ∧
        filled.assumePayloadInit = some sent ∧ ReadsAs w sent.sample m offset payload) := by
  constructor
  · intro sample sample' offset h
    obtain ⟨front, hfront, -, hle, rfl⟩ := writeFrameHeader_ok h
    have hsplit : front ++ sample.drop offset = front ++ (sample.drop offset).take payload.length ++
        sample.drop (offset + payload.length) := by
      rw [List.append_assoc, ← List.drop_drop, List.take_append_drop]
    rw [hsplit]
    have hview : payload.length = ((sample.drop offset).take payload.length).length := by
      rw [List.length_take, List.length_drop]
      omega
    exact ⟨_, fillPayload_middle hfront.length.symm hview rfl hfront.fits, hfront.readsAs hU _⟩
  · intro sample sample' offset h
    obtain ⟨front, hfront, -, hle, rfl⟩ := writeFrameHeaderUninit_ok h
    have hview : payload.length =
        (Bytes.slice sample offset (offset + payload.length)).length := by
      rw [Bytes.slice, List.length_take, List.length_drop]
      omega
    obtain ⟨tail, htail⟩ : ∃ tail : List UInt8, tail =
      List.replicate (sample.length - (offset + payload.length)) 0 := ⟨_, rfl⟩
    have htail' : List.replicate (sample.length - (offset + payload.length)) (some (0 : UInt8)) =
        tail.map some := by
      rw [htail, List.map_replicate]
    rw [htail']
    refine ⟨_, ⟨m, front ++ payload ++ tail, offset, payload.length⟩,
      fillPayload_middle (by simp [hfront.length]) hview (by simp) hfront.fits, ?_,
      hfront.readsAs hU tail⟩
    simp only [TxLoan.assumePayloadInit, ← List.map_append, assumeInit_map_some, bind,
      Option.bind_some, pure]

/-- Two payload bytes in samples of 60, the one dirty and the other never written. -/
theorem frame_round_trip_plain :
    (∃ sample' sent, (writeFrameHeader plainUpRust .w64 (plainMetadata topicA) 2 8 16).run
        (List.replicate 60 9) = (.ok 56, sample') ∧
      (TxLoan.mk (plainMetadata topicA) sample' 56 2).fillPayload .w64 [5, 6] = .ok sent ∧
      ReadsAs .w64 sent.sample (plainMetadata topicA) 56 [5, 6]) ∧
    (∃ sample' filled sent,
      (writeFrameHeaderUninit plainUpRust .w64 (plainMetadata topicA) 2 8 16).run
        (List.replicate 60 none) = (.ok 56, sample') ∧
      (TxLoan.mk (plainMetadata topicA) sample' 56 2).fillPayload .w64 [some 5, some 6] =
        .ok filled ∧
      filled.assumePayloadInit = some sent ∧
      ReadsAs .w64 sent.sample (plainMetadata topicA) 56 [5, 6]) := by
  have hinit : ((writeFrameHeader plainUpRust .w64 (plainMetadata topicA) 2 8 16).run
      (List.replicate 60 9)).1 = .ok 56 := by decide +kernel
  have huninit : ((writeFrameHeaderUninit plainUpRust .w64 (plainMetadata topicA) 2 8 16).run
      (List.replicate 60 none)).1 = .ok 56 := by decide +kernel
  have h := frame_round_trip plainUpRust_lawful (w := .w64) (plainMetadata topicA) [5, 6] 8 16
  generalize hrun : (writeFrameHeader plainUpRust .w64 (plainMetadata topicA) 2 8 16).run
    (List.replicate 60 9) = r at hinit
  generalize hrun' : (writeFrameHeaderUninit plainUpRust .w64 (plainMetadata topicA) 2 8 16).run
    (List.replicate 60 none) = r' at huninit
  obtain ⟨out, sample'⟩ := r
  obtain ⟨out', sample''⟩ := r'
  subst hinit huninit
  obtain ⟨sent, hfill, hreads⟩ := h.1 _ _ _ hrun
  obtain ⟨filled, sent', hfill', hassume, hreads'⟩ := h.2 _ _ _ hrun'
  exact ⟨⟨sample', sent, rfl, hfill, hreads⟩,
    ⟨sample'', filled, sent', rfl, hfill', hassume, hreads'⟩⟩

end RoundTrip

end LolaTransport
