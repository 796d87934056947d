import LolaTransport.Proofs.PlainFrames
import LolaTransport.TxLoans

/-!
# A payload stays aligned where it is received

The offset of the payload is found by aligning an address of the sender's, and is then used with an
address of the receiver's.  Both are multiples of the sample alignment, which the alignment of the
payload divides: so the offset is the same whatever the address, and is itself a multiple.
-/

namespace LolaTransport

open Fallible (bind_eq_ok)

variable {U : UpRust} {w : PointerWidth}

theorem isPowerOfTwo_iff {n : ℕ} : isPowerOfTwo n = true ↔ ∃ k, n = 2 ^ k := by
  simp only [isPowerOfTwo, decide_eq_true_eq]
  constructor
  · rintro ⟨-, h⟩
    exact ⟨_, h.symm⟩
  · rintro ⟨k, rfl⟩
    exact ⟨Nat.two_pow_pos k |>.ne', by rw [Nat.log2_two_pow]⟩

/-- Of two powers of two the smaller divides the larger. -/
theorem dvd_of_isPowerOfTwo {p a : ℕ} (hp : isPowerOfTwo p = true) (ha : isPowerOfTwo a = true)
    (h : p ≤ a) : p ∣ a := by
  obtain ⟨i, rfl⟩ := isPowerOfTwo_iff.1 hp
  obtain ⟨j, rfl⟩ := isPowerOfTwo_iff.1 ha
  exact pow_dvd_pow 2 ((Nat.pow_le_pow_iff_right (by decide)).1 h)

/-- An address that the checks of a sample accept. -/
theorem validateSampleParts_ok {data len expectedLen alignment : ℕ} {label : String}
    (h : validateSampleParts data len expectedLen alignment label = .ok ()) :
    isPowerOfTwo alignment = true ∧ alignment ∣ data := by
  unfold validateSampleParts at h
  split_ifs at h with hnull hlen hpower haligned
  simp only [Bool.or_eq_true, decide_eq_true_eq, Bool.not_eq_true', not_or,
    Bool.not_eq_false] at hpower
  exact ⟨hpower.2, Nat.dvd_of_mod_eq_zero (by simpa using haligned)⟩

theorem validateAlignment_ok {alignment : ℕ} (h : validateAlignment alignment = .ok ()) :
    isPowerOfTwo alignment = true := by
  unfold validateAlignment at h
  split_ifs at h with hbad
  simp only [Bool.or_eq_true, decide_eq_true_eq, Bool.not_eq_true', not_or,
    Bool.not_eq_false] at hbad
  exact hbad.2

/-- What a frame's header says of where its payload starts. -/
theorem StartsFrame.payloadOffset {m : UFrameMetadata U.toUpTypes}
    {payloadLen alignment address offset : ℕ} {header : List UInt8} (hlen : header.length = 20)
    (h : StartsFrame U w m payloadLen alignment address offset header) :
    PayloadAt w m alignment address offset ∧ ∃ field,
      u32FromLeBytes (Bytes.slice header 16 20) = .ok field ∧ field.toNat = offset := by
  obtain ⟨start, hstart, hat, htake⟩ := h.front
  obtain ⟨metadata, ml, pl, po, -, -, -, hpo, rfl⟩ := hstart.eq
  have hle : 20 ≤ offset := by
    have hlength := hstart.length
    simp only [List.length_append, length_frameHeader] at hlength
    omega
  have hheader : header = frameHeader ml pl po := by
    rw [htake (hlen.trans_le hle), hlen, List.append_assoc, List.take_left' (by simp)]
  obtain ⟨-, -, -, -, hfield⟩ := read_frameHeader ml pl po []
  rw [List.append_nil, ← hheader] at hfield
  unfold sliceOrPanic at hfield
  split_ifs at hfield
  rw [Except.ok.inj hfield]
  exact ⟨hat, po, u32FromLeBytes_u32ToLeBytes po, hpo⟩

/-- Whatever the addresses of the samples, a payload whose alignment a loan admits has the same
offset in the frame and starts at a multiple of its alignment where the frame is received. -/
theorem alignment_survives_remapping {m : UFrameMetadata U.toUpTypes}
    {payloadLen p sampleAlignment : ℕ} (hp : validateAlignment p = .ok ())
    (hadmitted : ¬ p > sampleAlignment)
    {address address' received len len' len'' size size' size'' : ℕ} {label label' label'' : String}
    (haddress : validateSampleParts address len size sampleAlignment label = .ok ())
    (haddress' : validateSampleParts address' len' size' sampleAlignment label' = .ok ())
    (hreceived : validateSampleParts received len'' size'' sampleAlignment label'' = .ok ())
    {offset offset' : ℕ} {header header' : List UInt8}
    (hlen : header.length = 20) (hlen' : header'.length = 20)
    (hframe : StartsFrame U w m payloadLen p address offset header)
    (hframe' : StartsFrame U w m payloadLen p address' offset' header') :
    (∃ field, u32FromLeBytes (Bytes.slice header 16 20) = .ok field ∧
      u32FromLeBytes (Bytes.slice header' 16 20) = .ok field ∧ field.toNat = offset) ∧
    p ∣ received + offset := by
  obtain ⟨⟨metadata, henc, hoff⟩, field, hfield, hstored⟩ := hframe.payloadOffset hlen
  obtain ⟨⟨metadata', henc', hoff'⟩, field', hfield', hstored'⟩ := hframe'.payloadOffset hlen'
  cases henc.symm.trans henc'
  obtain ⟨hsample, hdvd⟩ := validateSampleParts_ok haddress
  obtain ⟨-, hdvd'⟩ := validateSampleParts_ok haddress'
  obtain ⟨-, hdvd''⟩ := validateSampleParts_ok hreceived
  have hpsample : p ∣ sampleAlignment :=
    dvd_of_isPowerOfTwo (validateAlignment_ok hp) hsample (Nat.le_of_not_lt hadmitted)
  obtain ⟨-, hsum, hge, hlt⟩ := payloadOffsetForLen_ok hoff
  obtain ⟨-, hsum', hge', hlt'⟩ := payloadOffsetForLen_ok hoff'
  have hoffset : p ∣ offset := (Nat.dvd_add_right (hpsample.trans hdvd)).1 hsum
  have hoffset' : p ∣ offset' := (Nat.dvd_add_right (hpsample.trans hdvd')).1 hsum'
  have hsame : offset = offset' :=
    (Align.eq_up hoffset hge hlt).trans (Align.eq_up hoffset' hge' hlt').symm
  have hfields : field = field' := UInt32.toNat_inj.1 (by omega)
  exact ⟨⟨field, hfield, hfields ▸ hfield', hstored⟩,
    Nat.dvd_add (hpsample.trans hdvd'') hoffset⟩

/-- A payload aligned to 8 in samples aligned to 16, laid out at 32 by the one writer and at 64 by
the other, and received at 16. -/
theorem alignment_survives_remapping_plain : ∃ header header' : List UInt8,
    (∃ field, u32FromLeBytes (Bytes.slice header 16 20) = .ok field ∧
      u32FromLeBytes (Bytes.slice header' 16 20) = .ok field ∧ field.toNat = 56) ∧
    8 ∣ 16 + 56 := by
  have hinit : ((writeFrameHeader plainUpRust .w64 (plainMetadata topicA) 2 8 32).run
      (List.replicate 60 9)).1 = .ok 56 := by
    decide +kernel
  have huninit : ((writeFrameHeaderUninit plainUpRust .w64 (plainMetadata topicA) 2 8 64).run
      (List.replicate 60 none)).1 = .ok 56 := by
    decide +kernel
  rcases hrun : (writeFrameHeader plainUpRust .w64 (plainMetadata topicA) 2 8 32).run
    (List.replicate 60 9) with ⟨out, sample⟩
  rcases hrun' : (writeFrameHeaderUninit plainUpRust .w64 (plainMetadata topicA) 2 8 64).run
    (List.replicate 60 none) with ⟨out', sample'⟩
  rw [hrun] at hinit
  rw [hrun'] at huninit
  subst hinit huninit
  obtain ⟨start, hstart, -, -, hsample⟩ := writeFrameHeader_ok hrun
  obtain ⟨start', hstart', -, -, hsample'⟩ := writeFrameHeaderUninit_ok hrun'
  have hlen : (start.take 20).length = 20 := by simp [hstart.length]
  have hlen' : (start'.take 20).length = 20 := by simp [hstart'.length]
  have hframe : StartsFrame plainUpRust .w64 (plainMetadata topicA) 2 8 32 56 (start.take 20) :=
    .inl ⟨_, _, hrun, by
      rw [hlen, hsample, List.take_append_of_le_length (by simp [hstart.length])]⟩
  have hframe' : StartsFrame plainUpRust .w64 (plainMetadata topicA) 2 8 64 56 (start'.take 20) :=
    .inr ⟨_, _, hrun', by
      rw [hlen', hsample', List.append_assoc,
        List.take_append_of_le_length (by simp [hstart'.length]), List.map_take]⟩
  have haddress : validateSampleParts 32 60 60 16 "LoLa TX loan" = .ok () := by decide
  have haddress' : validateSampleParts 64 60 60 16 "LoLa TX loan" = .ok () := by decide
  have hreceived : validateSampleParts 16 60 60 16 "LoLa RX sample" = .ok () := by decide
  exact ⟨start.take 20, start'.take 20, alignment_survives_remapping (by decide) (by decide)
    haddress haddress' hreceived hlen hlen' hframe hframe'⟩

end LolaTransport
