import LolaTransport.Proofs.PlainFrames
import LolaTransport.Proofs.Rejects
import LolaTransport.Proofs.Spelling

/-!
# The format of a frame

A sample holds a frame if it is the parts of one end to end (`FrameParts`): a header with three
reserved bytes, metadata that decodes, padding, the payload, and a tail.  These are the samples that
`readFrameHeader` accepts (`fromSample_iff`), so nothing in the reserved bytes, the padding and the
tail is ever looked at, and a frame is cut off exactly where its payload is.
-/

namespace LolaTransport

open Fallible (Ends)

variable {U : UpRust} {w : PointerWidth}

/-- The parts of a sample that holds a frame, and that the header says where they are. -/
structure FrameParts (w : PointerWidth) where
  reserved : List UInt8
  metadataLen : UInt32
  payloadLen : UInt32
  payloadOffset : UInt32
  metadata : List UInt8
  padding : List UInt8
  payload : List UInt8
  tail : List UInt8
  length_reserved : reserved.length = 3
  length_metadata : metadata.length = metadataLen.toNat
  length_payload : payload.length = payloadLen.toNat
  starts : 20 + metadata.length + padding.length = payloadOffset.toNat
  fits : payloadOffset.toNat + payload.length ≤ usizeMax w

namespace FrameParts

def header (p : FrameParts w) : List UInt8 :=
  LOLA_FRAME_MAGIC ++ [LOLA_FRAME_VERSION] ++ p.reserved ++ u32ToLeBytes p.metadataLen ++
    u32ToLeBytes p.payloadLen ++ u32ToLeBytes p.payloadOffset

def bytes (p : FrameParts w) : List UInt8 :=
  p.header ++ p.metadata ++ p.padding ++ p.payload ++ p.tail

theorem length_header (p : FrameParts w) : p.header.length = 20 := by
  simp [header, p.length_reserved]

/-- What comes in front of the payload. -/
def front (p : FrameParts w) : List UInt8 := p.header ++ p.metadata ++ p.padding

theorem length_front (p : FrameParts w) : p.front.length = p.payloadOffset.toNat := by
  rw [front, List.length_append, List.length_append, p.length_header, p.starts]

theorem length_bytes (p : FrameParts w) :
    p.bytes.length = p.payloadOffset.toNat + p.payload.length + p.tail.length := by
  rw [bytes, List.length_append, List.length_append, ← p.length_front, front]

/-- The five header reads. -/
theorem read_header (p : FrameParts w) (rest : List UInt8) :
    sliceOrPanic (p.header ++ rest) 0 4 = .ok LOLA_FRAME_MAGIC ∧
    indexOrPanic (p.header ++ rest) 4 = .ok LOLA_FRAME_VERSION ∧
    sliceOrPanic (p.header ++ rest) 8 12 = .ok (u32ToLeBytes p.metadataLen) ∧
    sliceOrPanic (p.header ++ rest) 12 16 = .ok (u32ToLeBytes p.payloadLen) ∧
    sliceOrPanic (p.header ++ rest) 16 20 = .ok (u32ToLeBytes p.payloadOffset) := by
  obtain ⟨reserved, ml, pl, po, -, -, -, -, hreserved, -, -, -, -⟩ := p
  have hmagic := sliceOrPanic_middle (a := []) (b := LOLA_FRAME_MAGIC) (i := 0) (j := 4)
    (c := [LOLA_FRAME_VERSION] ++ reserved ++ u32ToLeBytes ml ++ u32ToLeBytes pl ++
      u32ToLeBytes po ++ rest) rfl rfl
  have hversion := indexOrPanic_middle (a := LOLA_FRAME_MAGIC) (b := LOLA_FRAME_VERSION) (i := 4)
    (c := reserved ++ u32ToLeBytes ml ++ u32ToLeBytes pl ++ u32ToLeBytes po ++ rest) rfl
  have hml := sliceOrPanic_middle (a := LOLA_FRAME_MAGIC ++ [LOLA_FRAME_VERSION] ++ reserved)
    (b := u32ToLeBytes ml) (c := u32ToLeBytes pl ++ u32ToLeBytes po ++ rest) (i := 8) (j := 12)
    (by simp [hreserved]) (by simp)
  have hpl := sliceOrPanic_middle
    (a := LOLA_FRAME_MAGIC ++ [LOLA_FRAME_VERSION] ++ reserved ++ u32ToLeBytes ml)
    (b := u32ToLeBytes pl) (c := u32ToLeBytes po ++ rest) (i := 12) (j := 16)
    (by simp [hreserved]) (by simp)
  have hpo := sliceOrPanic_middle
    (a := LOLA_FRAME_MAGIC ++ [LOLA_FRAME_VERSION] ++ reserved ++ u32ToLeBytes ml ++
      u32ToLeBytes pl)
    (b := u32ToLeBytes po) (c := rest) (i := 16) (j := 20) (by simp [hreserved]) (by simp)
  simp only [List.nil_append, List.append_assoc] at hmagic hversion hml hpl hpo
  simp only [header, List.append_assoc]
  exact ⟨hmagic, hversion, hml, hpl, hpo⟩

/-- The reader finds the parts again. -/
theorem readFrameHeader_bytes (p : FrameParts w) {m : UFrameMetadata U.toUpTypes}
    (hm : decodeMetadata U w p.metadata = .ok m) :
    readFrameHeader U w p.bytes = .ok (m, p.payloadOffset.toNat, p.payload.length) := by
  have hlen := p.length_bytes
  have hstarts := p.starts
  have hml := p.length_metadata
  have hbytes : p.bytes = p.header ++ (p.metadata ++ (p.padding ++ p.payload ++ p.tail)) := by
    simp only [bytes, List.append_assoc]
  have hslice : sliceOrPanic p.bytes 20 (20 + p.metadata.length) = .ok p.metadata := by
    rw [hbytes, ← List.append_assoc]
    exact sliceOrPanic_middle p.length_header.symm rfl
  obtain ⟨h1, h2, h3, h4, h5⟩ := p.read_header (p.metadata ++ (p.padding ++ p.payload ++ p.tail))
  rw [← hbytes] at h1 h2 h3 h4 h5
  have hend : checkedAdd w LOLA_FRAME_HEADER_LEN p.metadata.length =
      some (20 + p.metadata.length) := by
    have hfits := p.fits
    exact checkedAdd_eq_some.2 ⟨by simp only [LOLA_FRAME_HEADER_LEN]; omega, rfl⟩
  have hstop : checkedAdd w p.payloadOffset.toNat p.payload.length =
      some (p.payloadOffset.toNat + p.payload.length) := checkedAdd_eq_some.2 ⟨p.fits, rfl⟩
  have hshort : ¬ p.bytes.length < LOLA_FRAME_HEADER_LEN := by
    simp only [LOLA_FRAME_HEADER_LEN]
    omega
  have hmeta : ¬ 20 + p.metadata.length > p.bytes.length := by omega
  have hover : ¬ p.payloadOffset.toNat < 20 + p.metadata.length := by omega
  have hpay : ¬ p.payloadOffset.toNat + p.payload.length > p.bytes.length := by omega
  rw [show (20 : ℕ) = LOLA_FRAME_HEADER_LEN from rfl] at hslice hend hmeta hover
  simp only [readFrameHeader, h1, h2, h3, h4, h5, u32FromLeBytes_u32ToLeBytes, asUsize_eq, ← hml,
    ← p.length_payload, if_neg hshort, bind, Except.bind, pure, Except.pure, ne_eq,
    not_true_eq_false, if_false, hend, okOr, if_neg hmeta, hslice, hm, if_neg hover, hstop,
    if_neg hpay]

end FrameParts

theorem u32FromLeBytes_ok {bytes : List UInt8} {v : UInt32} (h : u32FromLeBytes bytes = .ok v) :
    u32ToLeBytes v = bytes := by
  simp only [u32FromLeBytes, Fallible.bind_eq_ok] at h
  obtain ⟨taken, htaken, h⟩ := h
  obtain ⟨rfl, hlen⟩ := expectLen_ok htaken
  cases h
  exact u32ToLeBytes_ofLe hlen

/-- The stretches of a sample that its header tells apart, end to end. -/
theorem slices_append (sample : List UInt8) {metadataEnd payloadOffset payloadEnd : ℕ}
    (hmeta : 20 ≤ metadataEnd) (hover : metadataEnd ≤ payloadOffset)
    (hstop : payloadOffset ≤ payloadEnd) :
    Bytes.slice sample 0 4 ++ Bytes.slice sample 4 5 ++ Bytes.slice sample 5 8 ++
      Bytes.slice sample 8 12 ++ Bytes.slice sample 12 16 ++ Bytes.slice sample 16 20 ++
      Bytes.slice sample 20 metadataEnd ++ Bytes.slice sample metadataEnd payloadOffset ++
      Bytes.slice sample payloadOffset payloadEnd ++ sample.drop payloadEnd = sample := by
  rw [Bytes.slice_append_slice (by omega) (by omega),
    Bytes.slice_append_slice (by omega) (by omega),
    Bytes.slice_append_slice (by omega) (by omega), Bytes.slice_append_slice (by omega) (by omega),
    Bytes.slice_append_slice (by omega) (by omega), Bytes.slice_append_slice (by omega) hmeta,
    Bytes.slice_append_slice (by omega) hover, Bytes.slice_append_slice (by omega) hstop,
    Bytes.slice_append_drop sample (Nat.zero_le _), List.drop_zero]

/-- What the reader accepts has the parts of a frame. -/
theorem readFrameHeader_parts (sample : List UInt8) :
    Ends IsInvalid (fun r => ∃ p : FrameParts w, p.bytes = sample ∧
      decodeMetadata U w p.metadata = .ok r.1 ∧ r.2 = (p.payloadOffset.toNat, p.payload.length))
      (readFrameHeader U w sample) := by
  unfold readFrameHeader
  split_ifs with hshort
  · rfl
  have hlen : 20 ≤ sample.length := by
    simp only [LOLA_FRAME_HEADER_LEN] at hshort
    omega
  obtain ⟨message, hinvalid⟩ := invalidMagic_error sample (by omega)
  rw [hinvalid, sliceOrPanic_of_le (show 0 ≤ 4 by omega) (by omega),
    indexOrPanic_of_lt (show 4 < sample.length by omega),
    sliceOrPanic_of_le (show 8 ≤ 12 by omega) (by omega),
    sliceOrPanic_of_le (show 12 ≤ 16 by omega) (by omega),
    sliceOrPanic_of_le (show 16 ≤ 20 by omega) (by omega)]
  refine Ends.bind (Q := (· = Bytes.slice sample 0 4)) rfl ?_
  rintro _ rfl
  split_ifs with hmagic
  · rfl
  refine Ends.bind (Q := (· = sample[4])) rfl ?_
  rintro _ rfl
  split_ifs with hversion
  · rfl
  refine Ends.bind (Q := (· = Bytes.slice sample 8 12)) rfl ?_
  rintro _ rfl
  refine (u32FromLeBytes_rejects rfl (by omega)).eq_ok.bind fun ml hml => ?_
  refine Ends.bind (Q := (· = Bytes.slice sample 12 16)) rfl ?_
  rintro _ rfl
  refine (u32FromLeBytes_rejects rfl (by omega)).eq_ok.bind fun pl hpl => ?_
  refine Ends.bind (Q := (· = Bytes.slice sample 16 20)) rfl ?_
  rintro _ rfl
  refine (u32FromLeBytes_rejects rfl (by omega)).eq_ok.bind fun po hpo => ?_
  refine (okOr_ends _ _).bind fun metadataEnd hend => ?_
  by_cases hoverrun : metadataEnd > sample.length
  · rw [if_pos hoverrun]
    rfl
  rw [if_neg hoverrun]
  rw [checkedAdd_eq_some, asUsize_eq] at hend
  obtain ⟨-, rfl⟩ := hend
  rw [sliceOrPanic_of_le (Nat.le_add_right _ _) (by omega)]
  refine Ends.bind (Q := (· = Bytes.slice sample LOLA_FRAME_HEADER_LEN
    (LOLA_FRAME_HEADER_LEN + ml.toNat))) rfl ?_
  rintro _ rfl
  refine (decodeMetadata_rejects _).eq_ok.bind fun m hm => ?_
  split_ifs with hoverlap
  · rfl
  refine (okOr_ends _ _).bind fun payloadEnd hstop => ?_
  obtain ⟨hmax, rfl⟩ := checkedAdd_eq_some.1 hstop
  split_ifs with hlong
  · rfl
  rw [asUsize_eq] at hoverlap
  rw [asUsize_eq, asUsize_eq] at hmax hlong
  simp only [LOLA_FRAME_HEADER_LEN] at hoverrun hoverlap hm
  have hover := Nat.le_of_not_lt hoverlap
  have hwithin := Nat.le_of_not_lt hlong
  have hpayload : (Bytes.slice sample po.toNat (po.toNat + pl.toNat)).length = pl.toNat := by
    rw [Bytes.length_slice hwithin]
    omega
  refine ⟨{
    reserved := Bytes.slice sample 5 8
    metadataLen := ml
    payloadLen := pl
    payloadOffset := po
    metadata := Bytes.slice sample 20 (20 + ml.toNat)
    padding := Bytes.slice sample (20 + ml.toNat) po.toNat
    payload := Bytes.slice sample po.toNat (po.toNat + pl.toNat)
    tail := sample.drop (po.toNat + pl.toNat)
    length_reserved := Bytes.length_slice (by omega)
    length_metadata := by rw [Bytes.length_slice (by omega)]; omega
    length_payload := hpayload
    starts := by rw [Bytes.length_slice (by omega), Bytes.length_slice (by omega)]; omega
    fits := by rw [hpayload]; exact hmax }, ?_, hm.2,
    Prod.ext (asUsize_eq w po) ((asUsize_eq w pl).trans hpayload.symm)⟩
  · have hfirst : [LOLA_FRAME_VERSION] = Bytes.slice sample 4 5 := by
      rw [Bytes.slice, List.drop_eq_getElem_cons (by omega), not_not.1 hversion]
      rfl
    rw [FrameParts.bytes, FrameParts.header, hfirst, u32FromLeBytes_ok hml.2,
      u32FromLeBytes_ok hpl.2, u32FromLeBytes_ok hpo.2, ← not_not.1 hmagic]
    exact slices_append sample (by omega) hover (Nat.le_add_right _ _)

section Leases

/-- The metadata and the payload that a lease gives out. -/
def LolaRxLease.frame (w : PointerWidth) (lease : LolaRxLease U) :
    UFrameMetadata U.toUpTypes × Option (List UInt8) :=
  (lease.metadata, lease.tryContiguousPayload w)

namespace FrameParts

/-- The lease of the frame in a sample. -/
def lease (p : FrameParts w) (m : UFrameMetadata U.toUpTypes) : LolaRxLease U where
  metadata := m
  sample := p.bytes
  payloadOffset := p.payloadOffset.toNat
  payloadLen := p.payload.length

theorem tryContiguousPayload_lease (p : FrameParts w) (m : UFrameMetadata U.toUpTypes) :
    (p.lease m).tryContiguousPayload w = some p.payload :=
  tryContiguousPayload_middle p.length_front.symm rfl p.fits

theorem frame_lease (p : FrameParts w) (m : UFrameMetadata U.toUpTypes) :
    (p.lease m).frame w = (m, some p.payload) := by
  rw [LolaRxLease.frame, tryContiguousPayload_lease]
  rfl

/-- Samples that start with the same header have their parts in the same places. -/
theorem places_eq_of_header {p q : FrameParts w} (h : q.header = p.header) :
    q.payloadOffset = p.payloadOffset ∧ q.payload.length = p.payload.length ∧
      q.metadata.length = p.metadata.length := by
  obtain ⟨-, -, hml, hpl, hpo⟩ := p.read_header []
  obtain ⟨-, -, hml', hpl', hpo'⟩ := q.read_header []
  rw [h] at hml' hpl' hpo'
  have hback {a b : UInt32} (hab : u32ToLeBytes a = u32ToLeBytes b) : a = b := by
    rw [← ofLe_u32ToLeBytes a, hab, ofLe_u32ToLeBytes]
  rw [q.length_payload, p.length_payload, q.length_metadata, p.length_metadata,
    hback (Except.ok.inj (hpl'.symm.trans hpl)), hback (Except.ok.inj (hml'.symm.trans hml)),
    hback (Except.ok.inj (hpo'.symm.trans hpo))]
  exact ⟨rfl, rfl, rfl⟩

theorem take_header (p : FrameParts w) : p.bytes.take 20 = p.header := by
  rw [bytes, List.append_assoc, List.append_assoc, List.append_assoc]
  exact List.take_left' p.length_header

/-- No other metadata and payload make up the same sample. -/
theorem parts_eq_of_bytes {p q : FrameParts w} (h : q.bytes = p.bytes) :
    q.metadata = p.metadata ∧ q.payload = p.payload := by
  have hheader : q.header = p.header := by rw [← q.take_header, ← p.take_header, h]
  obtain ⟨hoffset, hpayload, hmetadata⟩ := places_eq_of_header hheader
  have hpadding : q.padding.length = p.padding.length := by
    have hp := p.starts
    have hq := q.starts
    rw [hoffset] at hq
    omega
  simp only [bytes, List.append_assoc] at h
  have hrest := (List.append_inj h (by rw [hheader])).2
  have hrest' := List.append_inj hrest hmetadata
  exact ⟨hrest'.1, (List.append_inj (List.append_inj hrest'.2 hpadding).2 hpayload).1⟩

end FrameParts

/-- A sample is received as a lease exactly when it is the parts of a frame end to end, its metadata
decodes and the transport's validation lets the frame pass; the lease is that frame's. -/
theorem fromSample_iff {sample : List UInt8} {lease : LolaRxLease U} :
    LolaRxLease.fromSample U w sample = .ok lease ↔
      ∃ (p : FrameParts w) (m : UFrameMetadata U.toUpTypes), p.bytes = sample ∧
        decodeMetadata U w p.metadata = .ok m ∧ U.validateFrameView m p.payload = .ok () ∧
        lease = p.lease m := by
  constructor
  · intro h
    obtain ⟨⟨m, payloadOffset, payloadLen⟩, hread, h⟩ := Fallible.bind_eq_ok.1 h
    obtain ⟨p, rfl, hm, hplace⟩ := (readFrameHeader_parts sample).of_ok hread
    cases hplace
    have hview := p.tryContiguousPayload_lease m
    dsimp only [FrameParts.lease] at hview
    dsimp only at h
    rw [hview] at h
    dsimp only at h
    cases hvalid : U.validateFrameView m p.payload with
    | error status =>
      rw [hvalid] at h
      cases h
    | ok _ =>
      rw [hvalid] at h
      cases h
      exact ⟨p, m, rfl, hm, hvalid, rfl⟩
  · rintro ⟨p, m, rfl, hm, hvalid, rfl⟩
    have hview := p.tryContiguousPayload_lease m
    dsimp only [FrameParts.lease] at hview
    simp only [LolaRxLease.fromSample, p.readFrameHeader_bytes hm, bind, Except.bind, hview, hvalid]
    rfl

/-- Cut anywhere past its payload, and with anything behind it, a sample is received as the same
frame; cut anywhere before the end of its payload, it is an invalid argument. -/
theorem fromSample_take {sample : List UInt8} {lease : LolaRxLease U}
    (h : LolaRxLease.fromSample U w sample = .ok lease) (n : ℕ) :
    (lease.payloadOffset + lease.payloadLen ≤ n → ∀ more, ∃ lease',
      LolaRxLease.fromSample U w (sample.take n ++ more) = .ok lease' ∧
        lease'.frame w = lease.frame w) ∧
    (n < lease.payloadOffset + lease.payloadLen → ∃ e,
      LolaRxLease.fromSample U w (sample.take n) = .error e ∧ IsInvalid e) := by
  obtain ⟨p, m, rfl, hm, hvalid, rfl⟩ := fromSample_iff.1 h
  dsimp only [FrameParts.lease]
  constructor
  · intro hn more
    obtain ⟨tail, htail⟩ : ∃ tail, p.bytes.take n ++ more =
        p.header ++ p.metadata ++ p.padding ++ p.payload ++ tail := by
      have hlen : (p.header ++ p.metadata ++ p.padding ++ p.payload).length ≤ n := by
        have hfront := p.length_front
        rw [FrameParts.front] at hfront
        rwa [List.length_append, hfront]
      rw [FrameParts.bytes, List.take_append, List.take_of_length_le hlen, List.append_assoc]
      exact ⟨_, rfl⟩
    exact ⟨_, fromSample_iff.2 ⟨{ p with tail := tail }, m, htail.symm, hm, hvalid, rfl⟩,
      (FrameParts.frame_lease _ m).trans (p.frame_lease m).symm⟩
  · intro hn
    cases hread : readFrameHeader U w (p.bytes.take n) with
    | error e =>
      exact ⟨e, by rw [LolaRxLease.fromSample, hread]; rfl,
        (readFrameHeader_parts (p.bytes.take n)).of_error hread⟩
    | ok r =>
      -- its header is the same, so its payload would be too
      obtain ⟨q, hq, -⟩ := (readFrameHeader_parts (p.bytes.take n)).of_ok hread
      have hlen := q.length_bytes
      have hstarts := q.starts
      rw [hq, List.length_take] at hlen
      have hheader : q.header = p.header := by
        rw [← q.take_header, ← p.take_header, hq, List.take_take, min_eq_left (by omega)]
      obtain ⟨hoffset, hpayload, -⟩ := FrameParts.places_eq_of_header hheader
      rw [hoffset, hpayload] at hlen
      omega

/-- What the reserved bytes, the padding and the tail hold, and how much of them there is, makes no
difference to the frame that is received. -/
theorem fromSample_unread {p q : FrameParts w} {lease : LolaRxLease U}
    (hmetadata : q.metadata = p.metadata) (hpayload : q.payload = p.payload)
    (h : LolaRxLease.fromSample U w p.bytes = .ok lease) : ∃ lease',
      LolaRxLease.fromSample U w q.bytes = .ok lease' ∧ lease'.frame w = lease.frame w := by
  obtain ⟨p', m, hbytes, hm, hvalid, rfl⟩ := fromSample_iff.1 h
  obtain ⟨hmetadata', hpayload'⟩ := FrameParts.parts_eq_of_bytes hbytes
  rw [hmetadata', ← hmetadata] at hm
  rw [hpayload', ← hpayload] at hvalid
  refine ⟨_, fromSample_iff.2 ⟨q, m, rfl, hm, hvalid, rfl⟩, ?_⟩
  rw [FrameParts.frame_lease, FrameParts.frame_lease, hpayload', hpayload]

/-- Sample `A` with a nine behind its padding. -/
theorem fromSample_unread_plain : ∃ (p q : FrameParts .w64) (lease : LolaRxLease plainUpRust),
    p.bytes = sampleA ∧ q.tail = [9] ∧
      LolaRxLease.fromSample plainUpRust .w64 q.bytes = .ok lease ∧
      lease.frame .w64 = leaseA.frame .w64 := by
  obtain ⟨p, m, hp, -⟩ := fromSample_iff.1 fromSample_sampleA
  obtain ⟨lease, hlease, hframe⟩ := fromSample_unread (p := p) (q := { p with tail := [9] }) rfl rfl
    (hp.symm ▸ fromSample_sampleA)
  exact ⟨p, _, lease, hp, rfl, hlease, hframe⟩

theorem fromSample_take_plain :
    (∃ lease, LolaRxLease.fromSample plainUpRust .w64 (sampleA.take 56 ++ [9]) = .ok lease ∧
      lease.frame .w64 = leaseA.frame .w64) ∧
    ∃ e, LolaRxLease.fromSample plainUpRust .w64 (sampleA.take 55) = .error e ∧ IsInvalid e :=
  ⟨(fromSample_take fromSample_sampleA 56).1 (le_refl 56) [9],
    (fromSample_take fromSample_sampleA 55).2 (Nat.lt_succ_self 55)⟩

end Leases

end LolaTransport
