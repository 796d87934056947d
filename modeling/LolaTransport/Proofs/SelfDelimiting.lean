import LolaTransport.Proofs.Rejects
import LolaTransport.Proofs.Spelling

/-!
# Metadata ends where its fields end

What is taken of the metadata is decided by the bytes taken, so no accepted bytes go on to other
accepted bytes.  A frame whose header gives its metadata any other length is therefore rejected:
what is then decoded either stops short of the metadata or runs past it.
-/

namespace LolaTransport

variable {U : UpRust} {w : PointerWidth}

theorem eq_nil_of_decodeMetadata_append {bytes rest : List UInt8}
    {m m' : UFrameMetadata U.toUpTypes} (h : decodeMetadata U w bytes = .ok m)
    (h' : decodeMetadata U w (bytes ++ rest) = .ok m') : rest = [] :=
  takeMetadata_spelled.nil_of_append (decodeMetadata_ok h) (decodeMetadata_ok h')

/-- The field `metadata_len` of the header is replaced. -/
def withMetadataLen (metadataLen : UInt32) (sample : List UInt8) : List UInt8 :=
  Bytes.overwrite sample 8 (u32ToLeBytes metadataLen)

theorem withMetadataLen_frameHeader (v ml pl po : UInt32) (rest : List UInt8) :
    withMetadataLen v (frameHeader ml pl po ++ rest) = frameHeader v pl po ++ rest := by
  have h := Bytes.overwrite_middle (i := 8)
    (a := LOLA_FRAME_MAGIC ++ [LOLA_FRAME_VERSION] ++ [0, 0, 0]) (b := u32ToLeBytes ml)
    (c := u32ToLeBytes pl ++ u32ToLeBytes po ++ rest) (d := u32ToLeBytes v) rfl (by simp)
  simpa only [withMetadataLen, frameHeader, List.append_assoc] using h

theorem metadataLen_frameHeader (ml pl po : UInt32) (rest : List UInt8) :
    u32FromLeBytes (Bytes.slice (frameHeader ml pl po ++ rest) 8 12) = .ok ml := by
  obtain ⟨-, -, hslice, -⟩ := read_frameHeader ml pl po rest
  have hle : 12 ≤ (frameHeader ml pl po ++ rest).length := by
    rw [List.length_append, length_frameHeader]
    omega
  rw [sliceOrPanic_of_le (by omega) hle] at hslice
  rw [Except.ok.inj hslice, u32FromLeBytes_u32ToLeBytes]

/-- The header and the metadata are the same in every frame for `m`. -/
theorem StartsFrame.eq {m : UFrameMetadata U.toUpTypes} {payloadLen alignment address offset : ℕ}
    {metadata front : List UInt8} (henc : encodeMetadata U m = .ok metadata)
    (h : StartsFrame U w m payloadLen alignment address offset front)
    (hlen : front.length = 20 + metadata.length) :
    ∃ ml pl po : UInt32, ml.toNat = metadata.length ∧
      front = frameHeader ml pl po ++ metadata := by
  obtain ⟨start, hstart, -, htake⟩ := h.front
  obtain ⟨metadata', ml, pl, po, henc', hml, -, -, rfl⟩ := hstart.eq
  cases henc.symm.trans henc'
  have hle : front.length ≤ offset := by
    have hstart := hstart.length
    simp only [List.length_append, length_frameHeader] at hstart
    omega
  refine ⟨ml, pl, po, hml, (htake hle).trans ?_⟩
  rw [hlen]
  exact List.take_left' (by simp)

/-- With any other length for its metadata in the header, nothing is read. -/
theorem readFrameHeader_otherLen {m m' : UFrameMetadata U.toUpTypes} {v pl po : UInt32}
    {metadata rest : List UInt8} (hdecode : decodeMetadata U w metadata = .ok m)
    (hv : v.toNat ≠ metadata.length) {payloadOffset payloadLen : ℕ} :
    readFrameHeader U w (frameHeader v pl po ++ (metadata ++ rest)) ≠
      .ok (m', payloadOffset, payloadLen) := by
  intro h
  obtain ⟨⟨ml, hfield, hpast, hmeta⟩, -, hwithin⟩ := (readFrameHeader_ends _).of_ok h
  obtain rfl := Except.ok.inj ((metadataLen_frameHeader v pl po _).symm.trans hfield)
  have hle : v.toNat ≤ (metadata ++ rest).length := by
    rw [List.length_append, length_frameHeader] at hwithin
    dsimp only [LOLA_FRAME_HEADER_LEN] at hpast hwithin
    omega
  have hslice : Bytes.slice (frameHeader v pl po ++ (metadata ++ rest)) LOLA_FRAME_HEADER_LEN
      (LOLA_FRAME_HEADER_LEN + v.toNat) = (metadata ++ rest).take v.toNat := by
    have hheader : (frameHeader v pl po).length = LOLA_FRAME_HEADER_LEN :=
      length_frameHeader v pl po
    rw [Bytes.slice, Nat.add_sub_cancel_left, List.drop_left' hheader]
  rw [hslice] at hmeta
  rcases Nat.lt_or_gt_of_ne hv with hlt | hgt
  · -- what is decoded stops short of the metadata
    rw [List.take_append_of_le_length hlt.le] at hmeta
    rw [← List.take_append_drop v.toNat metadata] at hdecode
    have hnil := eq_nil_of_decodeMetadata_append hmeta hdecode
    rw [List.drop_eq_nil_iff] at hnil
    omega
  · rw [List.take_append, List.take_of_length_le hgt.le] at hmeta
    have hnil := congrArg List.length (eq_nil_of_decodeMetadata_append hdecode hmeta)
    rw [List.length_append] at hle
    rw [List.length_take, List.length_nil] at hnil
    omega

/-- No accepted bytes are continued by accepted bytes; and in a frame that a writer has laid out,
whatever follows the metadata, the only length the header can give the metadata is its own. -/
theorem metadata_self_delimiting (U : UpRust) (w : PointerWidth) :
    (∀ bytes rest m m', decodeMetadata U w bytes = .ok m →
      decodeMetadata U w (bytes ++ rest) = .ok m' → rest = []) ∧
    (U.Lawful → ∀ m payloadLen alignment address offset metadata front,
      encodeMetadata U m = .ok metadata →
      StartsFrame U w m payloadLen alignment address offset front →
      front.length = 20 + metadata.length →
      (∃ metadataLen, u32FromLeBytes (Bytes.slice front 8 12) = .ok metadataLen ∧
        metadataLen.toNat = metadata.length) ∧
      ∀ (v : UInt32) (rest : List UInt8), v.toNat ≠ metadata.length →
        ∃ e, readFrameHeader U w (withMetadataLen v (front ++ rest)) = .error e ∧
          e.code? = some .INVALID_ARGUMENT) := by
  refine ⟨fun bytes rest m m' h h' => eq_nil_of_decodeMetadata_append h h', ?_⟩
  intro hU m payloadLen alignment address offset metadata front henc hstarts hlen
  obtain ⟨ml, pl, po, hml, rfl⟩ := hstarts.eq henc hlen
  constructor
  · exact ⟨ml, metadataLen_frameHeader ml pl po metadata, hml⟩
  · intro v rest hv
    rw [List.append_assoc, withMetadataLen_frameHeader]
    cases hread : readFrameHeader U w (frameHeader v pl po ++ (metadata ++ rest)) with
    | error e => exact ⟨e, rfl, (readFrameHeader_ends _).of_error hread⟩
    | ok r =>
      obtain ⟨m', payloadOffset, payloadLen'⟩ := r
      exact absurd hread
        (readFrameHeader_otherLen (decodeMetadata_encodeMetadata hU henc) hv)

/-- A header that leaves the last byte of the metadata out. -/
theorem metadata_self_delimiting_plain :
    ∃ e, readFrameHeader plainUpRust .w64 (withMetadataLen 35 sampleA) = .error e ∧
      e.code? = some .INVALID_ARGUMENT := by
  have henc : encodeMetadata plainUpRust (plainMetadata topicA) =
      .ok (metadataBytes plainUpRust (plainMetadata topicA)) :=
    encodeMetadata_eq_ok.2 ⟨⟨by decide, by decide, by decide, by decide, by decide⟩, rfl⟩
  have hlen : (sampleA.take 56).length = 56 := by decide +kernel
  have hlen' : (metadataBytes plainUpRust (plainMetadata topicA)).length = 36 := by decide +kernel
  have hrun : ((writeFrameHeader plainUpRust .w64 (plainMetadata topicA) 0 1 0).run
      (List.replicate 64 0)).1 = .ok 56 := by decide +kernel
  have hstarts : StartsFrame plainUpRust .w64 (plainMetadata topicA) 0 1 0 56
      (sampleA.take 56) := .inl ⟨_, sampleA, Prod.ext hrun rfl, by rw [hlen]⟩
  have h := ((metadata_self_delimiting plainUpRust .w64).2 plainUpRust_lawful _ _ _ _ _ _ _ henc
    hstarts (by rw [hlen, hlen'])).2 35 (sampleA.drop 56) (by rw [hlen']; decide)
  rwa [List.take_append_drop] at h

end LolaTransport
