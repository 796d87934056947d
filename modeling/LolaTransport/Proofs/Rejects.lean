import LolaTransport.Lib.Fallible
import LolaTransport.Proofs.PlainFrames

/-!
# What does not decode is an invalid argument

On any bytes `readFrameHeader` returns, and no slice, conversion or `expect` in it panics: each is
behind a check that fails with `INVALID_ARGUMENT`.  So a received sample is a lease or an
`INVALID_ARGUMENT` (`fromSample_rejects`), and the payload of a lease lies in its sample.
-/

namespace LolaTransport

open Fallible (Ends EndsOn)

variable {U : UpRust} {w : PointerWidth}

/-- An `INVALID_ARGUMENT`, which is not a panic. -/
def IsInvalid (e : Fault) : Prop := e.code? = some .INVALID_ARGUMENT

/-- `x` fails only with `INVALID_ARGUMENT`. -/
abbrev Rejects {α : Type} (x : Except Fault α) : Prop := Ends IsInvalid (fun _ => True) x

/-- `take` fails only with `INVALID_ARGUMENT`, on any bytes. -/
abbrev RejectsOn {α : Type} (take : Take α) : Prop := EndsOn IsInvalid (fun _ => True) take

theorem okOr_ends {α : Type} (o : Option α) (message : String) :
    Ends IsInvalid (fun a => o = some a) (okOr o .INVALID_ARGUMENT message) := by
  cases o <;> rfl

theorem orInvalid_rejects {α : Type} (what : String) (x : Except String α) :
    Rejects (orInvalid what x) := by
  cases x with
  | error e => rfl
  | ok a => trivial

section Metadata

theorem takeU8_rejects : RejectsOn takeU8
  | [] => rfl
  | _ :: _ => trivial

theorem takeBytes_ends (len : ℕ) :
    EndsOn IsInvalid (fun bytes => bytes.length = len) (takeBytes len) := by
  intro src
  unfold takeBytes splitAtOrPanic
  split_ifs with hshort hle
  · rfl
  · exact List.length_take_of_le hle
  · omega

theorem expectLen_rejects {len : ℕ} {bytes : List UInt8} (h : bytes.length = len) :
    Rejects (expectLen len bytes) := by
  rw [expectLen, if_pos h]
  trivial

theorem takeU64_rejects : RejectsOn takeU64 :=
  (takeBytes_ends 8).bind fun _ h => (EndsOn.lift (expectLen_rejects h)).bind fun _ _ =>
    .pure trivial

theorem takeU32_rejects : RejectsOn takeU32 :=
  (takeBytes_ends 4).bind fun _ h => (EndsOn.lift (expectLen_rejects h)).bind fun _ _ =>
    .pure trivial

theorem takeOptional_rejects {α : Type} {take : Take α} (h : RejectsOn take) :
    RejectsOn (takeOptional take) := by
  refine takeU8_rejects.bind fun flag _ => ?_
  split
  · exact .pure trivial
  · exact h.bind fun _ _ => .pure trivial
  · exact .throw rfl

theorem okOr_rejects {α : Type} (o : Option α) (message : String) :
    Rejects (okOr o .INVALID_ARGUMENT message) := by
  cases o with
  | none => rfl
  | some a => trivial

theorem takeString_rejects : RejectsOn (takeString w) :=
  takeU32_rejects.bind fun _ _ => (EndsOn.lift (okOr_rejects _ _)).bind fun _ _ =>
    (takeBytes_ends _).bind fun _ _ => .lift (okOr_rejects _ _)

theorem takeUuid_rejects : RejectsOn (takeUuid U) :=
  takeU64_rejects.bind fun _ _ => takeU64_rejects.bind fun _ _ => .lift (orInvalid_rejects _ _)

theorem byteToMessageType_rejects (b : UInt8) : Rejects (byteToMessageType b) := by
  unfold byteToMessageType
  split
  all_goals first | rfl | trivial

theorem byteToPriority_rejects (b : UInt8) : Rejects (byteToPriority b) := by
  unfold byteToPriority
  split
  all_goals first | rfl | trivial

theorem decodePayloadEncoding_rejects : RejectsOn (decodePayloadEncoding U w) := by
  refine takeU8_rejects.bind fun kind _ => ?_
  split
  · exact takeU8_rejects.bind fun _ _ => (EndsOn.lift (okOr_rejects _ _)).bind fun _ _ =>
      .pure trivial
  · exact takeString_rejects.bind fun _ _ => takeString_rejects.bind fun _ _ =>
      .lift (orInvalid_rejects _ _)
  · exact .throw rfl

theorem takeSink_rejects : RejectsOn (takeSink U w) := by
  refine takeString_rejects.bind fun sink _ => ?_
  split_ifs
  · exact .pure trivial
  · exact (EndsOn.lift (orInvalid_rejects _ _)).bind fun _ _ => .pure trivial

theorem takeEncoding_rejects : RejectsOn (takeEncoding U w) := by
  refine takeU8_rejects.bind fun flag _ => ?_
  split
  · exact .pure trivial
  · exact decodePayloadEncoding_rejects.bind fun _ _ => .pure trivial
  · exact .throw rfl

theorem takeOptionalCode_rejects : RejectsOn (takeOptionalCode U) :=
  takeOptional_rejects (takeU8_rejects.bind fun _ _ => .lift (okOr_rejects _ _))

theorem takeMetadata_rejects : RejectsOn (takeMetadata U w) :=
  takeUuid_rejects.bind fun _ _ =>
  takeU8_rejects.bind fun _ _ => (EndsOn.lift (byteToMessageType_rejects _)).bind fun _ _ =>
  takeU8_rejects.bind fun _ _ => (EndsOn.lift (byteToPriority_rejects _)).bind fun _ _ =>
  (takeOptional_rejects takeU32_rejects).bind fun _ _ =>
  takeString_rejects.bind fun _ _ => (EndsOn.lift (orInvalid_rejects _ _)).bind fun _ _ =>
  takeSink_rejects.bind fun _ _ =>
  takeEncoding_rejects.bind fun _ _ =>
  (takeOptional_rejects takeUuid_rejects).bind fun _ _ =>
  (takeOptional_rejects takeString_rejects).bind fun _ _ =>
  (takeOptional_rejects takeString_rejects).bind fun _ _ =>
  (takeOptional_rejects takeU32_rejects).bind fun _ _ =>
  takeOptionalCode_rejects.bind fun _ _ => .pure trivial

theorem decodeMetadata_rejects (bytes : List UInt8) : Rejects (decodeMetadata U w bytes) := by
  refine (takeMetadata_rejects bytes).bind fun p _ => ?_
  obtain ⟨metadata, remaining⟩ := p
  dsimp only
  split_ifs
  · rfl
  · trivial

end Metadata

section Frames

theorem sliceOrPanic_of_le {sample : List UInt8} {i j : ℕ} (hij : i ≤ j)
    (hj : j ≤ sample.length) : sliceOrPanic sample i j = .ok (Bytes.slice sample i j) := by
  rw [sliceOrPanic, if_pos ⟨hij, hj⟩]

theorem indexOrPanic_of_lt {sample : List UInt8} {i : ℕ} (hi : i < sample.length) :
    indexOrPanic sample i = .ok sample[i] := by
  rw [indexOrPanic, List.getElem?_eq_getElem hi]

theorem u32FromLeBytes_rejects {sample : List UInt8} {i j : ℕ} (hlen : j = i + 4)
    (hj : j ≤ sample.length) : Rejects (u32FromLeBytes (Bytes.slice sample i j)) := by
  refine (expectLen_rejects ?_).bind fun _ _ => trivial
  rw [Bytes.slice, List.length_take, List.length_drop]
  omega

/-- A wrong magic is reported, with its four bytes. -/
theorem invalidMagic_error (sample : List UInt8) (h : 4 ≤ sample.length) :
    ∃ message, invalidMagic sample = .error (failWithCode .INVALID_ARGUMENT message) := by
  simp only [invalidMagic, indexOrPanic_of_lt (show 0 < sample.length by omega),
    indexOrPanic_of_lt (show 1 < sample.length by omega),
    indexOrPanic_of_lt (show 2 < sample.length by omega),
    indexOrPanic_of_lt (show 3 < sample.length by omega)]
  exact ⟨_, rfl⟩

/-- The metadata, the payload's place and its length are found in `sample`: the metadata behind the
header, as long as the header says, and the payload behind the metadata. -/
structure FoundIn (w : PointerWidth) (sample : List UInt8)
    (r : UFrameMetadata U.toUpTypes × ℕ × ℕ) : Prop where
  metadata : ∃ metadataLen, u32FromLeBytes (Bytes.slice sample 8 12) = .ok metadataLen ∧
    LOLA_FRAME_HEADER_LEN + metadataLen.toNat ≤ r.2.1 ∧
    decodeMetadata U w (Bytes.slice sample LOLA_FRAME_HEADER_LEN
      (LOLA_FRAME_HEADER_LEN + metadataLen.toNat)) = .ok r.1
  fits : r.2.1 + r.2.2 ≤ usizeMax w
  within : r.2.1 + r.2.2 ≤ sample.length

/-- What `readFrameHeader` accepts is found in the sample. -/
theorem readFrameHeader_ends (sample : List UInt8) :
    Ends IsInvalid (FoundIn w sample) (readFrameHeader U w sample) := by
  unfold readFrameHeader
  split_ifs with hshort
  · rfl
  have hlen : 20 ≤ sample.length := by
    simp only [LOLA_FRAME_HEADER_LEN] at hshort
    omega
  obtain ⟨message, hmagic⟩ := invalidMagic_error sample (by omega)
  rw [hmagic, sliceOrPanic_of_le (show 0 ≤ 4 by omega) (by omega),
    indexOrPanic_of_lt (show 4 < sample.length by omega),
    sliceOrPanic_of_le (show 8 ≤ 12 by omega) (by omega),
    sliceOrPanic_of_le (show 12 ≤ 16 by omega) (by omega),
    sliceOrPanic_of_le (show 16 ≤ 20 by omega) (by omega)]
  refine Ends.bind (Q := (· = Bytes.slice sample 0 4)) rfl fun magic _ => ?_
  split_ifs
  · rfl
  refine Ends.bind (Q := (· = sample[4])) rfl fun version _ => ?_
  split_ifs
  · rfl
  refine Ends.bind (Q := (· = Bytes.slice sample 8 12)) rfl ?_
  rintro _ rfl
  refine (u32FromLeBytes_rejects rfl (by omega)).eq_ok.bind fun ml hml => ?_
  refine Ends.bind (Q := (· = Bytes.slice sample 12 16)) rfl ?_
  rintro _ rfl
  refine (u32FromLeBytes_rejects rfl (by omega)).bind fun pl _ => ?_
  refine Ends.bind (Q := (· = Bytes.slice sample 16 20)) rfl ?_
  rintro _ rfl
  refine (u32FromLeBytes_rejects rfl (by omega)).bind fun po _ => ?_
  refine (okOr_ends _ _).bind fun metadataEnd hend => ?_
  by_cases hoverrun : metadataEnd > sample.length
  · rw [if_pos hoverrun]
    rfl
  rw [if_neg hoverrun]
  rw [checkedAdd_eq_some, asUsize_eq] at hend
  obtain ⟨-, rfl⟩ := hend
  rw [sliceOrPanic_of_le (Nat.le_add_right _ _) (by omega)]
  refine Ends.bind (Q := (· = Bytes.slice sample LOLA_FRAME_HEADER_LEN
    (LOLA_FRAME_HEADER_LEN + ml.toNat))) rfl ?_
  rintro _ rfl
  refine (decodeMetadata_rejects _).eq_ok.bind fun m hm => ?_
  split_ifs with hoverlap
  · rfl
  refine (okOr_ends _ _).bind fun payloadEnd hstop => ?_
  obtain ⟨hmax, rfl⟩ := checkedAdd_eq_some.1 hstop
  split_ifs with hlong
  · rfl
  · exact ⟨⟨ml, hml.2, Nat.le_of_not_lt hoverlap, hm.2⟩, hmax, Nat.le_of_not_gt hlong⟩

/-- The payload view of a frame that is found in its sample. -/
theorem FoundIn.tryContiguousPayload {sample : List UInt8} {m : UFrameMetadata U.toUpTypes}
    {payloadOffset payloadLen : ℕ} (h : FoundIn w sample (m, payloadOffset, payloadLen)) :
    (LolaRxLease.mk m sample payloadOffset payloadLen).tryContiguousPayload w =
      some (Bytes.slice sample payloadOffset (payloadOffset + payloadLen)) := by
  have hstop : checkedAdd w payloadOffset payloadLen = some (payloadOffset + payloadLen) :=
    checkedAdd_eq_some.2 ⟨h.fits, rfl⟩
  have hbound : payloadOffset ≤ payloadOffset + payloadLen ∧
      payloadOffset + payloadLen ≤ sample.length := ⟨Nat.le_add_right _ _, h.within⟩
  simp only [LolaRxLease.tryContiguousPayload, hstop, Option.bind_eq_bind, Option.bind_some,
    if_pos hbound, pure]

/-- No bytes make the readers panic, and the payload of a frame that is accepted lies in the sample,
past the header and the metadata, where both views of its lease find it. -/
theorem hostile_samples_safe (U : UpRust) (w : PointerWidth) (sample : List UInt8) :
    Rejects (readFrameHeader U w sample) ∧ Rejects (decodeMetadata U w sample) ∧
    ∀ m payloadOffset payloadLen,
      readFrameHeader U w sample = .ok (m, payloadOffset, payloadLen) →
      let lease := LolaRxLease.mk m sample payloadOffset payloadLen
      let view := Bytes.slice sample payloadOffset (payloadOffset + payloadLen)
      (∃ metadataLen, u32FromLeBytes (Bytes.slice sample 8 12) = .ok metadataLen ∧
        20 + metadataLen.toNat ≤ payloadOffset) ∧
      payloadOffset + payloadLen ≤ usizeMax w ∧ payloadOffset + payloadLen ≤ sample.length ∧
      lease.contiguousPayload w = .ok view ∧ lease.loanedContiguousPayload w = .ok view := by
  have hends := readFrameHeader_ends (U := U) (w := w) sample
  refine ⟨hends.mono fun _ _ => trivial, decodeMetadata_rejects sample, ?_⟩
  intro m payloadOffset payloadLen h
  have hfound := hends.of_ok h
  obtain ⟨metadataLen, hfield, hpast, -⟩ := hfound.metadata
  refine ⟨⟨metadataLen, hfield, hpast⟩, hfound.fits, hfound.within, ?_, ?_⟩
  · rw [LolaRxLease.contiguousPayload, hfound.tryContiguousPayload]
  · rw [LolaRxLease.loanedContiguousPayload, hfound.tryContiguousPayload]

/-- A sample of 64 bytes with a payload of two in it, and six behind that. -/
def plainPayloadSample : List UInt8 :=
  ((writeFrameHeader plainUpRust .w64 (plainMetadata topicA) 2 1 0).run (List.replicate 64 7)).2

theorem readsAs_plainPayloadSample :
    ReadsAs .w64 plainPayloadSample (plainMetadata topicA) 56 [7, 7] :=
  readsAs_written plainUpRust_lawful (by decide +kernel)

/-- On a 64-bit target. -/
theorem hostile_samples_safe_plain :
    (LolaRxLease.mk (plainMetadata topicA) plainPayloadSample 56 2).contiguousPayload .w64 =
        .ok [7, 7] ∧
      (LolaRxLease.mk (plainMetadata topicA) plainPayloadSample 56 2).loanedContiguousPayload .w64 =
        .ok [7, 7] := by
  obtain ⟨-, -, -, hview, hloaned⟩ := (hostile_samples_safe plainUpRust .w64
    plainPayloadSample).2.2 _ _ _ readsAs_plainPayloadSample.1
  have hpayload : Bytes.slice plainPayloadSample 56 (56 + ([7, 7] : List UInt8).length) =
      [7, 7] := by
    decide +kernel
  rw [hpayload] at hview hloaned
  exact ⟨hview, hloaned⟩

/-- A received sample is a lease or an `INVALID_ARGUMENT`. -/
theorem fromSample_rejects (hU : U.RejectsAsInvalid) (sample : List UInt8) :
    Rejects (LolaRxLease.fromSample U w sample) := by
  refine (readFrameHeader_ends sample).bind fun r hr => ?_
  obtain ⟨metadata, payloadOffset, payloadLen⟩ := r
  dsimp only
  rw [hr.tryContiguousPayload]
  dsimp only
  cases hview : U.validateFrameView metadata
      (Bytes.slice sample payloadOffset (payloadOffset + payloadLen)) with
  | ok _ => trivial
  | error status => exact congrArg some (hU _ _ _ hview)

/-- Samples that do not decode are invalid arguments. -/
def FrameCodec.RejectsAsInvalid {Φ S F : Type} (C : FrameCodec Φ S F) : Prop :=
  ∀ s e, C.decode s = .error e → e.code? = some .INVALID_ARGUMENT

theorem lolaFrames_rejectsAsInvalid (hU : U.RejectsAsInvalid) :
    (lolaFrames U w).RejectsAsInvalid :=
  fun sample _ he => (fromSample_rejects hU sample).of_error he

end Frames

end LolaTransport
