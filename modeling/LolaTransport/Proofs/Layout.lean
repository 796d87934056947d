import LolaTransport.Proofs.FrameWrites
import LolaTransport.Proofs.Rejects

/-!
# When a frame can be laid out

`FrameLayout` says, with no reference to the code, when a frame for given metadata, payload and
sample exists and where its payload goes.  Each writer returns that offset exactly then, and leaves
the sample as it is when it fails (`transmit_layout_exact`).

The two make the last three checks in different orders, and so fail differently on a request that
fails two of them (`writers_fail_alike`).
-/

namespace LolaTransport

open Fallible (Ends bind_eq_ok)

variable {U : UpRust} {w : PointerWidth}

section Checks

theorem appendString_rejects (dst : List UInt8) (s : String) : Rejects (appendString dst s) :=
  (okOr_rejects _ _).bind fun _ _ => trivial

theorem writeOptionalString_rejects (dst : List UInt8) (value : Option String) :
    Rejects (writeOptionalString dst value) := by
  rcases value with _ | value
  · trivial
  · exact appendString_rejects _ _

theorem writeEncoding_rejects (bytes : List UInt8)
    (encoding : Option (PayloadEncoding U.toUpTypes)) :
    Rejects (writeEncoding U bytes encoding) := by
  rcases encoding with _ | format | custom
  · trivial
  · trivial
  · exact (appendString_rejects _ _).bind fun _ _ => appendString_rejects _ _

theorem encodeMetadata_rejects (m : UFrameMetadata U.toUpTypes) : Rejects (encodeMetadata U m) :=
  (appendString_rejects _ _).bind fun _ _ => (appendString_rejects _ _).bind fun _ _ =>
    (writeEncoding_rejects _ _).bind fun _ _ => (writeOptionalString_rejects _ _).bind fun _ _ =>
      (writeOptionalString_rejects _ _).bind fun _ _ => trivial

theorem alignUp_rejects (value alignment : ℕ) : Rejects (alignUp w value alignment) := by
  unfold alignUp
  by_cases hpower : (alignment = 0 || !isPowerOfTwo alignment) = true
  · rw [if_pos hpower]
    rfl
  · rw [if_neg hpower]
    by_cases hzero : value % alignment = 0
    · simp only [if_pos hzero]
      trivial
    · simp only [if_neg hzero]
      exact okOr_rejects _ _

theorem payloadOffsetForLen_rejects (metadataLen alignment address : ℕ) :
    Rejects (payloadOffsetForLen w metadataLen alignment address) :=
  (okOr_rejects _ _).bind fun _ _ => (okOr_rejects _ _).bind fun _ _ =>
    (alignUp_rejects _ _).bind fun _ _ => okOr_rejects _ _

theorem framePlan_rejects (m : UFrameMetadata U.toUpTypes) (payloadLen alignment address : ℕ) :
    Rejects (framePlan U w m payloadLen alignment address) :=
  (encodeMetadata_rejects m).bind fun _ _ => (okOr_rejects _ _).bind fun _ _ =>
    (okOr_rejects _ _).bind fun _ _ => (payloadOffsetForLen_rejects _ _ _).bind fun _ _ => trivial

theorem IsInvalid.ne_panicked {e : Fault} (h : IsInvalid e) : e ≠ .panicked := by
  rintro rfl
  simp [IsInvalid, Fault.code?] at h

theorem initChecks_error {sampleLen payloadLen : ℕ} {plan : FramePlan} {e : Fault}
    (h : initChecks w sampleLen payloadLen plan = .error e) : e ≠ .panicked := by
  rw [initChecks_eq] at h
  split_ifs at h
  all_goals
    cases h
    simp [frameTooLarge, failWithCode]

theorem uninitChecks_error {sampleLen payloadLen : ℕ} {plan : FramePlan} {e : Fault}
    (h : uninitChecks w sampleLen payloadLen plan = .error e) : e ≠ .panicked := by
  rw [uninitChecks_eq] at h
  split_ifs at h
  all_goals
    cases h
    simp [frameTooLarge, failWithCode]

end Checks

section Layout

variable (U w) in
/-- A frame for `m` in a sample at `address` has its payload at `offset`, and the numbers up to
there can be represented. -/
structure PayloadPlace (m : UFrameMetadata U.toUpTypes)
    (payloadLen alignment address offset : ℕ) : Prop where
  alignment_power : isPowerOfTwo alignment = true
  metadata_fits : ∃ metadata, encodeMetadata U m = .ok metadata ∧ metadata.length ≤ u32Max ∧
    IsLeast {o | 20 + metadata.length ≤ o ∧ alignment ∣ address + o} offset
  payload_fits : payloadLen ≤ u32Max
  address_fits : address + offset ≤ usizeMax w

variable (U w) in
/-- A sample of `sampleLen` bytes at `address` can take a frame for `m` with its payload at
`offset`. -/
structure FrameLayout (m : UFrameMetadata U.toUpTypes)
    (sampleLen payloadLen alignment address offset : ℕ) : Prop
    extends PayloadPlace U w m payloadLen alignment address offset where
  offset_fits : offset ≤ u32Max
  total_fits : offset + payloadLen ≤ usizeMax w
  room : offset + payloadLen ≤ sampleLen

/-- The checks both writers begin with pass exactly when there is a place for the payload. -/
theorem payloadPlace_iff {m : UFrameMetadata U.toUpTypes}
    {payloadLen alignment address offset : ℕ} :
    PayloadPlace U w m payloadLen alignment address offset ↔
      ∃ plan, framePlan U w m payloadLen alignment address = .ok plan ∧
        plan.payloadOffset = offset := by
  simp only [framePlan_eq_ok, payloadOffsetForLen_eq_ok]
  constructor
  · rintro ⟨hpower, ⟨metadata, henc, hml, hleast⟩, hpl, haddress⟩
    have hlen : ∀ n ≤ u32Max, (UInt32.ofNat n).toNat = n := by
      intro n hn
      exact (u32TryFrom_eq_some.1 (by rw [u32TryFrom, if_pos hn])).2
    exact ⟨⟨metadata, .ofNat metadata.length, .ofNat payloadLen, offset⟩,
      ⟨henc, ⟨hml, hlen _ hml⟩, ⟨hpl, hlen _ hpl⟩, hpower, hleast, haddress⟩, rfl⟩
  · rintro ⟨plan, ⟨henc, ⟨hml, -⟩, ⟨hpl, -⟩, hpower, hleast, haddress⟩, rfl⟩
    exact ⟨hpower, ⟨_, henc, hml, hleast⟩, hpl, haddress⟩

theorem frameLayout_iff {m : UFrameMetadata U.toUpTypes}
    {sampleLen payloadLen alignment address offset : ℕ} :
    FrameLayout U w m sampleLen payloadLen alignment address offset ↔
      ∃ plan, framePlan U w m payloadLen alignment address = .ok plan ∧
        plan.Fits w sampleLen payloadLen ∧ plan.payloadOffset = offset := by
  constructor
  · rintro ⟨hplace, hoff, htotal, hroom⟩
    obtain ⟨plan, hplan, rfl⟩ := payloadPlace_iff.1 hplace
    exact ⟨plan, hplan, ⟨hoff, htotal, hroom⟩, rfl⟩
  · rintro ⟨plan, hplan, hfits, rfl⟩
    exact ⟨payloadPlace_iff.2 ⟨plan, hplan, rfl⟩, hfits.offset, hfits.noOverflow, hfits.room⟩

/-- On every sample `write` returns `offset` exactly when `Layout` says so of the sample's length;
it does not panic, and leaves the sample alone when it fails; and what lies in the payload range
stays as it was. -/
structure WritesLayout {β : Type} (Layout : ℕ → ℕ → Prop) (payloadLen : ℕ)
    (write : OnSample β ℕ) : Prop where
  returns : ∀ s offset, (∃ t, write.run s = (.ok offset, t)) ↔ Layout s.length offset
  fails : ∀ s e t, write.run s = (.error e, t) → e ≠ .panicked ∧ t = s
  keeps : ∀ s offset t, write.run s = (.ok offset, t) → t.length = s.length ∧
    Bytes.slice t offset (offset + payloadLen) = Bytes.slice s offset (offset + payloadLen)

/-- A writer does so if all it does before its checks have passed is to check. -/
theorem writesLayout_of_run {β : Type} {m : UFrameMetadata U.toUpTypes}
    {payloadLen alignment address : ℕ} {write : OnSample β ℕ}
    {checks : ℕ → FramePlan → Except Fault FramePlan} {put : FramePlan → List β → List β}
    (hrun : ∀ s, write.run s = OnSample.checked s (fun plan => (.ok plan.payloadOffset, put plan s))
      (framePlan U w m payloadLen alignment address >>= checks s.length))
    (hok : ∀ n plan plan', checks n plan = .ok plan' ↔ plan.Fits w n payloadLen ∧ plan' = plan)
    (herror : ∀ n plan e, checks n plan = .error e → e ≠ .panicked)
    (hput : ∀ s plan, plan.front.length = plan.payloadOffset →
      plan.payloadOffset + payloadLen ≤ s.length → (put plan s).length = s.length ∧
        Bytes.slice (put plan s) plan.payloadOffset (plan.payloadOffset + payloadLen) =
          Bytes.slice s plan.payloadOffset (plan.payloadOffset + payloadLen)) :
    WritesLayout (FrameLayout U w m · payloadLen alignment address) payloadLen write := by
  have hpassed : ∀ s offset t, write.run s = (.ok offset, t) → ∃ plan,
      framePlan U w m payloadLen alignment address = .ok plan ∧ plan.Fits w s.length payloadLen ∧
        plan.payloadOffset = offset ∧ t = put plan s := by
    intro s offset t h
    rw [hrun] at h
    obtain ⟨plan', hchecks, hwritten⟩ := OnSample.checked_eq_ok h
    obtain ⟨plan, hplan, hchecks⟩ := bind_eq_ok.1 hchecks
    obtain ⟨hfits, rfl⟩ := (hok _ _ _).1 hchecks
    cases hwritten
    exact ⟨_, hplan, hfits, rfl, rfl⟩
  refine ⟨fun s offset => ?_, fun s e t h => ?_, fun s offset t h => ?_⟩
  · rw [frameLayout_iff]
    constructor
    · rintro ⟨t, h⟩
      obtain ⟨plan, hplan, hfits, hoffset, -⟩ := hpassed s offset t h
      exact ⟨plan, hplan, hfits, hoffset⟩
    · rintro ⟨plan, hplan, hfits, rfl⟩
      rw [hrun, bind_eq_ok.2 ⟨plan, hplan, (hok _ _ _).2 ⟨hfits, rfl⟩⟩]
      exact ⟨_, rfl⟩
  · have hplan := framePlan_rejects (w := w) m payloadLen alignment address
    rw [hrun] at h
    rcases hmade : framePlan U w m payloadLen alignment address with e' | plan
    · rw [hmade] at h hplan
      cases h
      exact ⟨hplan.ne_panicked, rfl⟩
    · rw [hmade] at h
      rcases hchecked : checks s.length plan with e' | plan'
      · simp only [bind, Except.bind, hchecked] at h
        cases h
        exact ⟨herror _ _ _ hchecked, rfl⟩
      · simp only [bind, Except.bind, hchecked] at h
        cases (Prod.mk.inj h).1
  · obtain ⟨plan, hplan, hfits, rfl, rfl⟩ := hpassed s offset t h
    exact hput s plan (FramePlan.frameFront hplan hfits).1.length hfits.room

theorem writeFrameHeader_writesLayout (m : UFrameMetadata U.toUpTypes)
    (payloadLen alignment address : ℕ) :
    WritesLayout (FrameLayout U w m · payloadLen alignment address) payloadLen
      (writeFrameHeader U w m payloadLen alignment address) := by
  refine writesLayout_of_run run_writeFrameHeader (fun _ _ _ => initChecks_eq_ok)
    (fun _ _ _ => initChecks_error) fun s plan hfront hroom => ⟨?_, ?_⟩
  · simp only [List.length_append, hfront, List.length_drop]
    omega
  · rw [Bytes.slice, Bytes.slice, List.drop_left' hfront]

theorem writeFrameHeaderUninit_writesLayout (m : UFrameMetadata U.toUpTypes)
    (payloadLen alignment address : ℕ) :
    WritesLayout (FrameLayout U w m · payloadLen alignment address) payloadLen
      (writeFrameHeaderUninit U w m payloadLen alignment address) := by
  refine writesLayout_of_run run_writeFrameHeaderUninit (fun _ _ _ => uninitChecks_eq_ok)
    (fun _ _ _ => uninitChecks_error) fun s plan hfront hroom => ?_
  have hlen : (Bytes.slice s plan.payloadOffset (plan.payloadOffset + payloadLen)).length =
      payloadLen := by
    simp only [Bytes.slice, List.length_take, List.length_drop]
    omega
  constructor
  · simp only [List.length_append, List.length_map, hfront, hlen, List.length_replicate]
    omega
  · exact Bytes.slice_middle (by simp [hfront]) (by simp [hfront, hlen])

/-- Each writer lays a frame out exactly when there is a layout, at the least aligned offset past
the metadata, and touches nothing when there is none. -/
theorem transmit_layout_exact (m : UFrameMetadata U.toUpTypes)
    (payloadLen alignment address : ℕ) :
    WritesLayout (FrameLayout U w m · payloadLen alignment address) payloadLen
        (writeFrameHeader U w m payloadLen alignment address) ∧
      WritesLayout (FrameLayout U w m · payloadLen alignment address) payloadLen
        (writeFrameHeaderUninit U w m payloadLen alignment address) :=
  ⟨writeFrameHeader_writesLayout m payloadLen alignment address,
    writeFrameHeaderUninit_writesLayout m payloadLen alignment address⟩

end Layout

section Orders

/-- If one of the two fails, then both do, with one code. -/
def FailAlike (r r' : Except Fault ℕ) : Prop :=
  (∃ e, r = .error e) ∨ (∃ e, r' = .error e) →
    ∃ e e' code, r = .error e ∧ r' = .error e' ∧ e.code? = some code ∧ e'.code? = some code

theorem failAlike_error {e e' : Fault} {code : UCode} (h : e.code? = some code) :
    FailAlike (.error e) (.error e') ↔ e'.code? = some code := by
  constructor
  · intro halike
    obtain ⟨_, _, code', ⟨rfl⟩, ⟨rfl⟩, hcode, hcode'⟩ := halike (.inl ⟨e, rfl⟩)
    rw [hcode', ← hcode, h]
  · intro h' _
    exact ⟨e, e', code, rfl, rfl, h, h'⟩

/-- The checks that are left fail alike unless the offset is past `u32::MAX` and the frame past the
end of the sample: then one order comes to the offset first, the other to the end. -/
theorem checks_fail_alike {sampleLen payloadLen : ℕ} {plan : FramePlan} :
    FailAlike ((initChecks w sampleLen payloadLen plan).map (·.payloadOffset))
        ((uninitChecks w sampleLen payloadLen plan).map (·.payloadOffset)) ↔
      ¬ (u32Max < plan.payloadOffset ∧ plan.payloadOffset + payloadLen ≤ usizeMax w ∧
        sampleLen < plan.payloadOffset + payloadLen) := by
  rw [initChecks_eq, uninitChecks_eq]
  by_cases hoff : plan.payloadOffset ≤ u32Max
  · have hgood : ¬ u32Max < plan.payloadOffset := Nat.not_lt.2 hoff
    simp only [if_pos hoff, hgood, false_and, not_false_eq_true, iff_true]
    split_ifs
    · simp [FailAlike, Except.map]
    · exact (failAlike_error rfl).2 rfl
    · exact (failAlike_error rfl).2 rfl
  · have hbad : u32Max < plan.payloadOffset := Nat.lt_of_not_le hoff
    simp only [if_neg hoff, hbad, true_and]
    split_ifs with hmax hroom
    · exact iff_of_true ((failAlike_error rfl).2 rfl) (by omega)
    · refine iff_of_false (fun halike => ?_) (by omega)
      cases (failAlike_error rfl).1 halike
    · exact iff_of_true ((failAlike_error rfl).2 rfl) (by omega)

theorem checked_fst {β : Type} (s : List β) (x : Except Fault FramePlan)
    (put : FramePlan → List β) :
    (OnSample.checked s (fun plan => (.ok plan.payloadOffset, put plan)) x).1 =
      x.map (·.payloadOffset) := by
  rcases x with e | plan
  · rfl
  · rfl

/-- Whatever fails on the one path fails on the other with the same code, unless the payload has a
place whose offset a `u32` cannot hold and at which the frame also runs out of the sample. -/
theorem writers_fail_alike (m : UFrameMetadata U.toUpTypes) (payloadLen alignment address : ℕ)
    {s : List UInt8} {s' : List MaybeUninit} (hlen : s.length = s'.length) :
    FailAlike ((writeFrameHeader U w m payloadLen alignment address).run s).1
        ((writeFrameHeaderUninit U w m payloadLen alignment address).run s').1 ↔
      ¬ ∃ offset, PayloadPlace U w m payloadLen alignment address offset ∧ u32Max < offset ∧
        offset + payloadLen ≤ usizeMax w ∧ s.length < offset + payloadLen := by
  rw [run_writeFrameHeader, run_writeFrameHeaderUninit, ← hlen, checked_fst, checked_fst]
  have hrejects := framePlan_rejects (w := w) m payloadLen alignment address
  rcases hmade : framePlan U w m payloadLen alignment address with e | plan
  · rw [hmade] at hrejects
    refine iff_of_true ((failAlike_error hrejects).2 hrejects) ?_
    rintro ⟨offset, hplace, -⟩
    obtain ⟨plan, hplan, -⟩ := payloadPlace_iff.1 hplace
    cases hmade.symm.trans hplan
  · refine checks_fail_alike.trans (not_congr ⟨fun h => ?_, fun h => ?_⟩)
    · exact ⟨_, payloadPlace_iff.2 ⟨plan, hmade, rfl⟩, h⟩
    · obtain ⟨offset, hplace, h⟩ := h
      obtain ⟨plan', hplan', rfl⟩ := payloadPlace_iff.1 hplace
      cases hmade.symm.trans hplan'
      exact h

/-- A sample that is too small, on either path. -/
theorem writers_fail_alike_plain :
    FailAlike ((writeFrameHeader plainUpRust .w32 (plainMetadata topicA) 2 8 16).run
        (List.replicate 40 9)).1
      ((writeFrameHeaderUninit plainUpRust .w32 (plainMetadata topicA) 2 8 16).run
        (List.replicate 40 none)).1 := by
  refine (writers_fail_alike (plainMetadata topicA) 2 8 16 (by simp)).2 ?_
  rintro ⟨offset, hplace, hoff, -⟩
  have haddress := hplace.address_fits
  have hmax : usizeMax .w32 = u32Max := rfl
  omega

/-- Aligned to `2 ^ 33` the payload starts past what a `u32` holds, and past the sample. -/
theorem writers_fail_alike_oversized :
    ¬ FailAlike ((writeFrameHeader plainUpRust .w64 (plainMetadata topicA) 0 (2 ^ 33) 16).run
          (List.replicate 64 0)).1
        ((writeFrameHeaderUninit plainUpRust .w64 (plainMetadata topicA) 0 (2 ^ 33) 16).run
          (List.replicate 64 none)).1 := by
  have hinit : ((writeFrameHeader plainUpRust .w64 (plainMetadata topicA) 0 (2 ^ 33) 16).run
      (List.replicate 64 0)).1 =
        .error (failWithCode .INVALID_ARGUMENT "LoLa payload offset is too large") := by
    decide +kernel
  have huninit : ((writeFrameHeaderUninit plainUpRust .w64 (plainMetadata topicA) 0 (2 ^ 33) 16).run
      (List.replicate 64 none)).1 = .error (frameTooLarge (2 ^ 33 - 16) 64) := by
    decide +kernel
  rw [hinit, huninit, failAlike_error rfl]
  decide

end Orders

end LolaTransport
