import LolaTransport.Frame
import LolaTransport.Lib.Align
import LolaTransport.Proofs.Metadata

/-!
# What the writers do to a sample

Both writers first check, without touching the sample, what is to be written and where the payload
goes (`framePlan`, then `initChecks` or `uninitChecks`), and once the checks have passed every write
succeeds.  So a run is one equation: the checks' error and the sample as it was, or the front of
the frame in front of the payload (`run_writeFrameHeader`, `run_writeFrameHeaderUninit`).
-/

namespace LolaTransport

open Fallible (bind_eq_ok)

variable {U : UpRust} {w : PointerWidth}

section Offset

theorem pos_of_isPowerOfTwo {n : ℕ} (h : isPowerOfTwo n = true) : 0 < n := by
  simp only [isPowerOfTwo, decide_eq_true_eq] at h
  omega

theorem alignUp_eq_ok {value alignment aligned : ℕ} (hvalue : value ≤ usizeMax w) :
    alignUp w value alignment = .ok aligned ↔
      isPowerOfTwo alignment = true ∧ aligned = Align.up alignment value ∧
        aligned ≤ usizeMax w := by
  unfold alignUp
  by_cases hpower : isPowerOfTwo alignment = true
  · have hpos := pos_of_isPowerOfTwo hpower
    have hgood : ¬ (alignment = 0 || !isPowerOfTwo alignment) = true := by
      simp [hpower, hpos.ne']
    rw [if_neg hgood]
    by_cases hzero : value % alignment = 0
    · simp only [if_pos hzero, Except.ok.injEq, hpower, Align.up_eq_self hzero hpos, true_and]
      constructor
      · rintro rfl
        exact ⟨rfl, hvalue⟩
      · exact fun h => h.1.symm
    · simp only [if_neg hzero, okOr_eq_ok, checkedAdd_eq_some, hpower,
        Align.up_eq_add hzero hpos, true_and]
      constructor
      · rintro ⟨hmax, rfl⟩
        exact ⟨rfl, hmax⟩
      · rintro ⟨rfl, hmax⟩
        exact ⟨hmax, rfl⟩
  · simp [hpower]

/-- The payload goes to the first offset past the metadata with an aligned address. -/
theorem payloadOffsetForLen_eq_ok {metadataLen alignment address offset : ℕ} :
    payloadOffsetForLen w metadataLen alignment address = .ok offset ↔
      isPowerOfTwo alignment = true ∧
        IsLeast {o | 20 + metadataLen ≤ o ∧ alignment ∣ address + o} offset ∧
        address + offset ≤ usizeMax w := by
  simp only [payloadOffsetForLen, bind_eq_ok, okOr_eq_ok, checkedAdd_eq_some,
    LOLA_FRAME_HEADER_LEN, checkedSub]
  constructor
  · rintro ⟨_, ⟨-, rfl⟩, _, ⟨hmax, rfl⟩, aligned, haligned, hoffset⟩
    obtain ⟨hpower, rfl, hfits⟩ := (alignUp_eq_ok hmax).1 haligned
    split_ifs at hoffset with hle
    cases hoffset
    have hle' := Align.le_up (n := address + (20 + metadataLen)) (pos_of_isPowerOfTwo hpower)
    exact ⟨hpower, Align.isLeast_offset (pos_of_isPowerOfTwo hpower), by omega⟩
  · rintro ⟨hpower, hleast, hfits⟩
    have hup := (Align.isLeast_offset_iff (pos_of_isPowerOfTwo hpower)).1 hleast
    have hge : 20 + metadataLen ≤ offset := hleast.1.1
    have hmax : address + (20 + metadataLen) ≤ usizeMax w := by omega
    refine ⟨_, ⟨by omega, rfl⟩, _, ⟨hmax, rfl⟩, _,
      (alignUp_eq_ok hmax).2 ⟨hpower, hup, hfits⟩, ?_⟩
    rw [if_pos (by omega), Nat.add_sub_cancel_left]

/-- The payload starts at an aligned address, less than the alignment past the metadata. -/
theorem payloadOffsetForLen_ok {metadataLen alignment address offset : ℕ}
    (h : payloadOffsetForLen w metadataLen alignment address = .ok offset) :
    isPowerOfTwo alignment = true ∧ alignment ∣ address + offset ∧ 20 + metadataLen ≤ offset ∧
      offset < 20 + metadataLen + alignment := by
  obtain ⟨hpower, hleast, -⟩ := payloadOffsetForLen_eq_ok.1 h
  have hpos := pos_of_isPowerOfTwo hpower
  have hup := (Align.isLeast_offset_iff hpos).1 hleast
  have hlt := Align.up_lt (n := address + (20 + metadataLen)) hpos
  exact ⟨hpower, hleast.1.2, hleast.1.1, by omega⟩

end Offset

namespace OnSample

variable {β α γ δ : Type}

@[simp] theorem run_ofExcept (x : Except Fault α) (s : List β) : (ofExcept x).run s = (x, s) := rfl

@[simp] theorem run_get (s : List β) : (get : OnSample β (List β)).run s = (.ok s, s) := rfl

@[simp] theorem run_set (s t : List β) : (set t : OnSample β PUnit).run s = (.ok ⟨⟩, t) := rfl

@[simp] theorem run_modify (s : List β) (f : List β → List β) :
    (modify f : OnSample β PUnit).run s = (.ok ⟨⟩, f s) := rfl

theorem run_bind_of_ok {x : OnSample β α} {f : α → OnSample β γ} {s t : List β} {a : α}
    (h : x.run s = (.ok a, t)) : (x >>= f).run s = (f a).run t := by
  have h' : StateT.run (ExceptT.run x) s = (.ok a, t) := h
  simp only [OnSample.run, ExceptT.run_bind, StateT.run_bind, h']
  rfl

theorem ofExcept_bind (x : Except Fault α) (f : α → Except Fault γ) :
    (ofExcept (x >>= f) : OnSample β γ) = ofExcept x >>= fun a => ofExcept (f a) := by
  rcases x with e | a
  · rfl
  · rfl

/-- What checks that leave `s` as it is come to, and `k` once they have passed. -/
def checked (s : List β) (k : α → Except Fault γ × List β) :
    Except Fault α → Except Fault γ × List β
  | .error e => (.error e, s)
  | .ok a => k a

/-- A check in a run, and the same check in a sequence of checks. -/
theorem run_ofExcept_bind {x : Except Fault α} {f : α → OnSample β γ} {g : α → Except Fault δ}
    {k : δ → Except Fault γ × List β} {s : List β}
    (h : ∀ a, x = .ok a → (f a).run s = checked s k (g a)) :
    (ofExcept x >>= f).run s = checked s k (x >>= g) := by
  rcases x with e | a
  · rfl
  · exact h a rfl

/-- A run that ends in a value has passed its checks. -/
theorem checked_eq_ok {x : Except Fault α} {k : α → Except Fault γ × List β} {s t : List β} {c : γ}
    (h : checked s k x = (.ok c, t)) : ∃ a, x = .ok a ∧ k a = (.ok c, t) := by
  rcases x with e | a
  · cases (Prod.mk.inj h).1
  · exact ⟨a, rfl, h⟩

end OnSample

section Writes

theorem copyFromSlice_middle {a b c s : List UInt8} {i j : ℕ} (hi : i = a.length)
    (hj : j = i + s.length) (hb : s.length = b.length) :
    copyFromSlice (a ++ b ++ c) i j s = .ok (a ++ s ++ c) := by
  have hbound : i ≤ j ∧ j ≤ (a ++ b ++ c).length ∧ s.length = j - i := by
    simp only [List.length_append]
    omega
  rw [copyFromSlice, if_pos hbound, Bytes.overwrite_middle hi hb]

theorem setOrPanic_middle {a c : List UInt8} {b v : UInt8} {i : ℕ} (hi : i = a.length) :
    setOrPanic (a ++ [b] ++ c) i v = .ok (a ++ [v] ++ c) := by
  have hbound : i < (a ++ [b] ++ c).length := by
    simp only [List.length_append, List.length_singleton]
    omega
  have hlen : [v].length = [b].length := rfl
  rw [setOrPanic, if_pos hbound, Bytes.overwrite_middle hi hlen]

@[simp] theorem length_magic : LOLA_FRAME_MAGIC.length = 4 := rfl

/-- The 20 bytes in front of the metadata. -/
def frameHeader (metadataLen payloadLen payloadOffset : UInt32) : List UInt8 :=
  LOLA_FRAME_MAGIC ++ [LOLA_FRAME_VERSION] ++ [0, 0, 0] ++ u32ToLeBytes metadataLen ++
    u32ToLeBytes payloadLen ++ u32ToLeBytes payloadOffset

@[simp] theorem length_frameHeader (metadataLen payloadLen payloadOffset : UInt32) :
    (frameHeader metadataLen payloadLen payloadOffset).length = 20 := by
  simp [frameHeader]

/-- Over a zeroed header the six writes leave `frameHeader` and the metadata, and nothing else
changed. -/
theorem writeHeaderFields_zeros {mid tail metadataBytes : List UInt8} {ml pl po : UInt32}
    (hmid : metadataBytes.length = mid.length) :
    writeHeaderFields (List.replicate 20 0 ++ mid ++ tail) ml pl po metadataBytes =
      .ok (frameHeader ml pl po ++ metadataBytes ++ tail) := by
  have h1 : copyFromSlice (List.replicate 20 0 ++ mid ++ tail) 0 4 LOLA_FRAME_MAGIC =
      .ok ([] ++ LOLA_FRAME_MAGIC ++ (List.replicate 16 0 ++ mid ++ tail)) :=
    copyFromSlice_middle (a := []) (b := List.replicate 4 0) (s := LOLA_FRAME_MAGIC)
      (c := List.replicate 16 0 ++ mid ++ tail) rfl rfl rfl
  have h2 : setOrPanic ([] ++ LOLA_FRAME_MAGIC ++ (List.replicate 16 0 ++ mid ++ tail)) 4
      LOLA_FRAME_VERSION = .ok (LOLA_FRAME_MAGIC ++ [LOLA_FRAME_VERSION] ++
        (List.replicate 15 0 ++ mid ++ tail)) :=
    setOrPanic_middle (a := LOLA_FRAME_MAGIC) (b := 0)
      (c := List.replicate 15 0 ++ mid ++ tail) rfl
  have h3 : copyFromSlice (LOLA_FRAME_MAGIC ++ [LOLA_FRAME_VERSION] ++
      (List.replicate 15 0 ++ mid ++ tail)) 8 12 (u32ToLeBytes ml) =
      .ok (LOLA_FRAME_MAGIC ++ [LOLA_FRAME_VERSION] ++ [0, 0, 0] ++ u32ToLeBytes ml ++
        (List.replicate 8 0 ++ mid ++ tail)) :=
    copyFromSlice_middle (a := LOLA_FRAME_MAGIC ++ [LOLA_FRAME_VERSION] ++ [0, 0, 0])
      (b := List.replicate 4 0) (c := List.replicate 8 0 ++ mid ++ tail) rfl
      (by simp) (by simp)
  have h4 : copyFromSlice (LOLA_FRAME_MAGIC ++ [LOLA_FRAME_VERSION] ++ [0, 0, 0] ++
      u32ToLeBytes ml ++ (List.replicate 8 0 ++ mid ++ tail)) 12 16 (u32ToLeBytes pl) =
      .ok (LOLA_FRAME_MAGIC ++ [LOLA_FRAME_VERSION] ++ [0, 0, 0] ++ u32ToLeBytes ml ++
        u32ToLeBytes pl ++ (List.replicate 4 0 ++ mid ++ tail)) := by
    have h := copyFromSlice_middle (s := u32ToLeBytes pl) (i := 12) (j := 16)
      (a := LOLA_FRAME_MAGIC ++ [LOLA_FRAME_VERSION] ++ [0, 0, 0] ++ u32ToLeBytes ml)
      (b := List.replicate 4 0) (c := List.replicate 4 0 ++ mid ++ tail)
      (by simp) (by simp) (by simp)
    rwa [List.append_assoc _ (List.replicate 4 0)] at h
  have h5 : copyFromSlice (LOLA_FRAME_MAGIC ++ [LOLA_FRAME_VERSION] ++ [0, 0, 0] ++
      u32ToLeBytes ml ++ u32ToLeBytes pl ++ (List.replicate 4 0 ++ mid ++ tail)) 16 20
      (u32ToLeBytes po) = .ok (frameHeader ml pl po ++ (mid ++ tail)) := by
    have h := copyFromSlice_middle (s := u32ToLeBytes po) (i := 16) (j := 20)
      (a := LOLA_FRAME_MAGIC ++ [LOLA_FRAME_VERSION] ++ [0, 0, 0] ++ u32ToLeBytes ml ++
        u32ToLeBytes pl)
      (b := List.replicate 4 0) (c := mid ++ tail)
      (by simp) (by simp) (by simp)
    rwa [List.append_assoc _ (List.replicate 4 0), ← List.append_assoc (List.replicate 4 0)] at h
  have h6 : copyFromSlice (frameHeader ml pl po ++ (mid ++ tail)) LOLA_FRAME_HEADER_LEN
      (LOLA_FRAME_HEADER_LEN + metadataBytes.length) metadataBytes =
      .ok (frameHeader ml pl po ++ metadataBytes ++ tail) := by
    rw [← List.append_assoc]
    exact copyFromSlice_middle (by simp [LOLA_FRAME_HEADER_LEN]) rfl hmid
  simp only [writeHeaderFields, bind_eq_ok]
  exact ⟨_, h1, _, h2, _, h3, _, h4, _, h5, h6⟩

end Writes

section Checks

/-- What a writer knows when it starts to check for room: the encoded metadata, its length and the
payload's, and where the payload goes. -/
structure FramePlan where
  metadata : List UInt8
  metadataLen : UInt32
  payloadLen : UInt32
  payloadOffset : ℕ

/-- What goes in front of the payload: the header, the metadata, and zeros. -/
def FramePlan.front (plan : FramePlan) : List UInt8 :=
  frameHeader plan.metadataLen plan.payloadLen (UInt32.ofNat plan.payloadOffset) ++
    plan.metadata ++ List.replicate (plan.payloadOffset - (20 + plan.metadata.length)) 0

variable (U w) in
/-- What both writers begin with. -/
def framePlan (metadata : UFrameMetadata U.toUpTypes)
    (payloadLen payloadAlignment sampleAddress : ℕ) : Except Fault FramePlan := do
  let metadataBytes ← encodeMetadata U metadata
  let metadataLen ← okOr (u32TryFrom metadataBytes.length) .INVALID_ARGUMENT
    "LoLa metadata is too large"
  let payloadLenU32 ← okOr (u32TryFrom payloadLen) .INVALID_ARGUMENT "LoLa payload is too large"
  let payloadOffset ← payloadOffsetForLen w metadataBytes.length payloadAlignment sampleAddress
  return ⟨metadataBytes, metadataLen, payloadLenU32, payloadOffset⟩

variable (w) in
/-- The checks that are left to `write_frame_header`. -/
def initChecks (sampleLen payloadLen : ℕ) (plan : FramePlan) : Except Fault FramePlan := do
  let _ ← okOr (u32TryFrom plan.payloadOffset) .INVALID_ARGUMENT "LoLa payload offset is too large"
  let totalLen ← okOr (checkedAdd w plan.payloadOffset payloadLen) .INVALID_ARGUMENT
    "LoLa frame layout overflow"
  if totalLen > sampleLen then throw (frameTooLarge totalLen sampleLen)
  return plan

variable (w) in
/-- The checks that are left to `write_frame_header_uninit`: the same, in another order. -/
def uninitChecks (sampleLen payloadLen : ℕ) (plan : FramePlan) : Except Fault FramePlan := do
  let totalLen ← okOr (checkedAdd w plan.payloadOffset payloadLen) .INVALID_ARGUMENT
    "LoLa frame layout overflow"
  if totalLen > sampleLen then throw (frameTooLarge totalLen sampleLen)
  let _ ← okOr (u32TryFrom plan.payloadOffset) .INVALID_ARGUMENT "LoLa payload offset is too large"
  return plan

theorem framePlan_eq_ok {m : UFrameMetadata U.toUpTypes} {payloadLen alignment address : ℕ}
    {plan : FramePlan} :
    framePlan U w m payloadLen alignment address = .ok plan ↔
      encodeMetadata U m = .ok plan.metadata ∧
      (plan.metadata.length ≤ u32Max ∧ plan.metadataLen.toNat = plan.metadata.length) ∧
      (payloadLen ≤ u32Max ∧ plan.payloadLen.toNat = payloadLen) ∧
      payloadOffsetForLen w plan.metadata.length alignment address = .ok plan.payloadOffset := by
  simp only [framePlan, bind_eq_ok, okOr_eq_ok, u32TryFrom_eq_some, pure, Except.pure,
    Except.ok.injEq]
  constructor
  · rintro ⟨metadata, henc, ml, hml, pl, hpl, off, hoff, rfl⟩
    exact ⟨henc, hml, hpl, hoff⟩
  · rintro ⟨henc, hml, hpl, hoff⟩
    exact ⟨_, henc, _, hml, _, hpl, _, hoff, rfl⟩

/-- What is left to check once the plan is made. -/
structure FramePlan.Fits (w : PointerWidth) (sampleLen payloadLen : ℕ) (plan : FramePlan) :
    Prop where
  offset : plan.payloadOffset ≤ u32Max
  noOverflow : plan.payloadOffset + payloadLen ≤ usizeMax w
  room : plan.payloadOffset + payloadLen ≤ sampleLen

theorem initChecks_eq {sampleLen payloadLen : ℕ} {plan : FramePlan} :
    initChecks w sampleLen payloadLen plan =
      if plan.payloadOffset ≤ u32Max then
        if plan.payloadOffset + payloadLen ≤ usizeMax w then
          if plan.payloadOffset + payloadLen ≤ sampleLen then .ok plan
          else .error (frameTooLarge (plan.payloadOffset + payloadLen) sampleLen)
        else .error (failWithCode .INVALID_ARGUMENT "LoLa frame layout overflow")
      else .error (failWithCode .INVALID_ARGUMENT "LoLa payload offset is too large") := by
  unfold initChecks u32TryFrom checkedAdd
  by_cases hoff : plan.payloadOffset ≤ u32Max
  · by_cases hmax : plan.payloadOffset + payloadLen ≤ usizeMax w
    · simp only [if_pos hoff, if_pos hmax, okOr, bind, Except.bind, gt_iff_lt, ← Nat.not_le,
        ite_not]
      split_ifs with hroom
      all_goals rfl
    · simp only [if_pos hoff, if_neg hmax]
      rfl
  · simp only [if_neg hoff]
    rfl

theorem uninitChecks_eq {sampleLen payloadLen : ℕ} {plan : FramePlan} :
    uninitChecks w sampleLen payloadLen plan =
      if plan.payloadOffset + payloadLen ≤ usizeMax w then
        if plan.payloadOffset + payloadLen ≤ sampleLen then
          if plan.payloadOffset ≤ u32Max then .ok plan
          else .error (failWithCode .INVALID_ARGUMENT "LoLa payload offset is too large")
        else .error (frameTooLarge (plan.payloadOffset + payloadLen) sampleLen)
      else .error (failWithCode .INVALID_ARGUMENT "LoLa frame layout overflow") := by
  unfold uninitChecks u32TryFrom checkedAdd
  by_cases hmax : plan.payloadOffset + payloadLen ≤ usizeMax w
  · simp only [if_pos hmax, okOr, bind, Except.bind, gt_iff_lt, ← Nat.not_le, ite_not]
    split_ifs with hroom hoff
    all_goals rfl
  · simp only [if_neg hmax]
    rfl

theorem initChecks_eq_ok {sampleLen payloadLen : ℕ} {plan plan' : FramePlan} :
    initChecks w sampleLen payloadLen plan = .ok plan' ↔
      plan.Fits w sampleLen payloadLen ∧ plan' = plan := by
  rw [initChecks_eq]
  constructor
  · intro h
    split_ifs at h with hoff hmax hroom
    exact ⟨⟨hoff, hmax, hroom⟩, (Except.ok.inj h).symm⟩
  · rintro ⟨⟨hoff, hmax, hroom⟩, rfl⟩
    rw [if_pos hoff, if_pos hmax, if_pos hroom]

theorem uninitChecks_eq_ok {sampleLen payloadLen : ℕ} {plan plan' : FramePlan} :
    uninitChecks w sampleLen payloadLen plan = .ok plan' ↔
      plan.Fits w sampleLen payloadLen ∧ plan' = plan := by
  rw [uninitChecks_eq]
  constructor
  · intro h
    split_ifs at h with hmax hroom hoff
    exact ⟨⟨hoff, hmax, hroom⟩, (Except.ok.inj h).symm⟩
  · rintro ⟨⟨hoff, hmax, hroom⟩, rfl⟩
    rw [if_pos hmax, if_pos hroom, if_pos hoff]

end Checks

section Runs

/-- The header fields, written over a zeroed prefix, make it the front of the frame. -/
theorem writeHeaderFields_front (plan : FramePlan) (tail : List UInt8)
    (hge : 20 + plan.metadata.length ≤ plan.payloadOffset) :
    writeHeaderFields (List.replicate plan.payloadOffset 0 ++ tail) plan.metadataLen
      plan.payloadLen (UInt32.ofNat plan.payloadOffset) plan.metadata =
        .ok (plan.front ++ tail) := by
  have hsplit : List.replicate plan.payloadOffset (0 : UInt8) ++ tail =
      List.replicate 20 0 ++ List.replicate plan.metadata.length 0 ++
        (List.replicate (plan.payloadOffset - (20 + plan.metadata.length)) 0 ++ tail) := by
    rw [← List.append_assoc, List.replicate_append_replicate, List.replicate_append_replicate]
    congr 2
    omega
  rw [hsplit, writeHeaderFields_zeros (by simp), FramePlan.front, List.append_assoc _ _ tail]

theorem FramePlan.length_front (plan : FramePlan)
    (hge : 20 + plan.metadata.length ≤ plan.payloadOffset) :
    plan.front.length = plan.payloadOffset := by
  simp only [FramePlan.front, List.length_append, length_frameHeader, List.length_replicate]
  omega

theorem u32TryFrom_eq_ofNat {n : ℕ} {v : UInt32} (h : u32TryFrom n = some v) :
    v = UInt32.ofNat n := by
  unfold u32TryFrom at h
  split_ifs at h
  exact (Option.some.inj h).symm

/-- `write_frame_header` fails in its checks, which leave the sample as it is, or writes the front
of the frame. -/
theorem run_writeFrameHeader {m : UFrameMetadata U.toUpTypes} {payloadLen alignment address : ℕ}
    (s : List UInt8) :
    (writeFrameHeader U w m payloadLen alignment address).run s =
      OnSample.checked s
        (fun plan => (.ok plan.payloadOffset, plan.front ++ s.drop plan.payloadOffset))
        (framePlan U w m payloadLen alignment address >>= initChecks w s.length payloadLen) := by
  simp only [framePlan, initChecks, bind_assoc, pure_bind]
  refine OnSample.run_ofExcept_bind fun metadata _ => ?_
  refine OnSample.run_ofExcept_bind fun ml _ => ?_
  refine OnSample.run_ofExcept_bind fun pl _ => ?_
  refine OnSample.run_ofExcept_bind fun off hoff => ?_
  refine OnSample.run_ofExcept_bind fun po hpo => ?_
  refine OnSample.run_ofExcept_bind fun total htotal => ?_
  obtain ⟨-, rfl⟩ := checkedAdd_eq_some.1 (okOr_eq_ok.1 htotal)
  have hge : 20 + metadata.length ≤ off := (payloadOffsetForLen_ok hoff).2.2.1
  rw [OnSample.run_bind_of_ok (OnSample.run_get s)]
  by_cases hlarge : off + payloadLen > s.length
  · simp only [if_pos hlarge]
    rfl
  · simp only [if_neg hlarge]
    have hfill : (fillZero off).run s = (.ok (), List.replicate off 0 ++ s.drop off) := by
      rw [fillZero, OnSample.run_bind_of_ok (OnSample.run_get s), if_pos (by omega),
        OnSample.run_set]
      simp [Bytes.overwrite]
    have hwrite := writeHeaderFields_front ⟨metadata, ml, pl, off⟩ (s.drop off) hge
    rw [OnSample.run_bind_of_ok hfill, OnSample.run_bind_of_ok (OnSample.run_get _),
      u32TryFrom_eq_ofNat (okOr_eq_ok.1 hpo), hwrite,
      OnSample.run_bind_of_ok (OnSample.run_ofExcept _ _)]
    rfl

theorem assumeInit_map_some : ∀ bytes : List UInt8, assumeInit (bytes.map some) = some bytes
  | [] => rfl
  | b :: bytes => by simp [assumeInit, assumeInit_map_some bytes]

theorem initializeUninitRange_of_le {s : List MaybeUninit} {start stop : ℕ} (hstart : start ≤ stop)
    (hstop : stop ≤ s.length) : (initializeUninitRange start stop).run s =
      (.ok (), Bytes.overwrite s start (List.replicate (stop - start) (some 0))) := by
  rw [initializeUninitRange, OnSample.run_bind_of_ok (OnSample.run_get s),
    if_pos ⟨hstart, hstop⟩]
  rfl

/-- The prefix of a sample that starts with initialized bytes is those bytes. -/
theorem initializedPrefixMut_map_some {bytes : List UInt8} {tail : List MaybeUninit} {stop : ℕ}
    (hstop : stop = bytes.length) : (initializedPrefixMut stop).run (bytes.map some ++ tail) =
      (.ok bytes, bytes.map some ++ tail) := by
  have hle : stop ≤ (bytes.map some ++ tail).length := by simp [hstop]
  have htake : (bytes.map some ++ tail).take stop = bytes.map some :=
    List.take_left' (by simp [hstop])
  rw [initializedPrefixMut, OnSample.run_bind_of_ok (OnSample.run_get _), if_pos hle, htake,
    assumeInit_map_some]
  rfl

/-- `write_frame_header_uninit` fails in its checks, which leave the sample as it is, or writes the
front of the frame and zeros behind the payload range. -/
theorem run_writeFrameHeaderUninit {m : UFrameMetadata U.toUpTypes}
    {payloadLen alignment address : ℕ} (s : List MaybeUninit) :
    (writeFrameHeaderUninit U w m payloadLen alignment address).run s =
      OnSample.checked s
        (fun plan => (.ok plan.payloadOffset, plan.front.map some ++
          Bytes.slice s plan.payloadOffset (plan.payloadOffset + payloadLen) ++
          List.replicate (s.length - (plan.payloadOffset + payloadLen)) (some 0)))
        (framePlan U w m payloadLen alignment address >>=
          uninitChecks w s.length payloadLen) := by
  simp only [framePlan, uninitChecks, bind_assoc, pure_bind]
  refine OnSample.run_ofExcept_bind fun metadata _ => ?_
  refine OnSample.run_ofExcept_bind fun ml _ => ?_
  refine OnSample.run_ofExcept_bind fun pl _ => ?_
  rw [OnSample.run_bind_of_ok (OnSample.run_get s)]
  simp only [frameLayoutBounds, OnSample.ofExcept_bind, bind_assoc]
  refine OnSample.run_ofExcept_bind fun off hoff => ?_
  refine OnSample.run_ofExcept_bind fun total htotal => ?_
  obtain ⟨-, rfl⟩ := checkedAdd_eq_some.1 (okOr_eq_ok.1 htotal)
  by_cases hlarge : off + payloadLen > s.length
  · simp only [if_pos hlarge]
    rfl
  simp only [if_neg hlarge]
  refine (OnSample.run_bind_of_ok (a := (off, off + payloadLen)) (t := s) rfl).trans ?_
  refine OnSample.run_ofExcept_bind fun po hpo => ?_
  have hle : off + payloadLen ≤ s.length := Nat.le_of_not_lt hlarge
  have hge : 20 + metadata.length ≤ off := (payloadOffsetForLen_ok hoff).2.2.1
  -- The sample after the first range, and after the one behind the payload.
  obtain ⟨zeros, hzeros⟩ : ∃ zeros, zeros = List.replicate off (0 : UInt8) := ⟨_, rfl⟩
  have hlen : (zeros.map some).length = off := by simp [hzeros]
  have hfirst : Bytes.overwrite s 0 (List.replicate (off - 0) (some 0)) =
      zeros.map some ++ s.drop off := by
    rw [Bytes.overwrite_prefix, Nat.sub_zero, List.length_replicate, hzeros, List.map_replicate]
  have hsecond : Bytes.overwrite (zeros.map some ++ s.drop off) (off + payloadLen)
      (List.replicate (s.length - (off + payloadLen)) (some 0)) = zeros.map some ++
        (Bytes.slice s off (off + payloadLen) ++
          List.replicate (s.length - (off + payloadLen)) (some 0)) := by
    rw [Bytes.overwrite_suffix (by simp [hlen]; omega), List.take_append, hlen,
      List.take_of_length_le (by omega), Bytes.slice, List.append_assoc]
  have hwrite := writeHeaderFields_front ⟨metadata, ml, pl, off⟩ [] hge
  have hfront := FramePlan.length_front ⟨metadata, ml, pl, off⟩ hge
  simp only [List.append_nil, ← hzeros] at hwrite hfront
  rw [u32TryFrom_eq_ofNat (okOr_eq_ok.1 hpo),
    OnSample.run_bind_of_ok (initializeUninitRange_of_le (Nat.zero_le _) (by omega)), hfirst,
    htotal, OnSample.run_bind_of_ok (OnSample.run_ofExcept _ _),
    OnSample.run_bind_of_ok (initializeUninitRange_of_le hle (by simp [hlen]; omega)), hsecond,
    OnSample.run_bind_of_ok (initializedPrefixMut_map_some (by simp [hzeros])), hwrite,
    OnSample.run_bind_of_ok (OnSample.run_ofExcept _ _),
    OnSample.run_bind_of_ok (OnSample.run_modify _ _), Bytes.overwrite_prefix, List.length_map,
    hfront, List.drop_left' hlen, ← List.append_assoc]
  rfl

end Runs

section Image

/-- `front` is what lies in front of the payload in a frame for `m`: the header, the metadata, and
zeros up to `payloadOffset`. -/
structure FrameFront (w : PointerWidth) (m : UFrameMetadata U.toUpTypes)
    (payloadLen payloadOffset : ℕ) (front : List UInt8) : Prop where
  eq : ∃ (metadata : List UInt8) (ml pl po : UInt32), encodeMetadata U m = .ok metadata ∧
    ml.toNat = metadata.length ∧ pl.toNat = payloadLen ∧ po.toNat = payloadOffset ∧
    front = frameHeader ml pl po ++ metadata ++
      List.replicate (payloadOffset - (20 + metadata.length)) 0
  length : front.length = payloadOffset
  fits : payloadOffset + payloadLen ≤ usizeMax w

/-- The payload of a frame for `m` goes to `offset`. -/
def PayloadAt (w : PointerWidth) (m : UFrameMetadata U.toUpTypes) (alignment address offset : ℕ) :
    Prop :=
  ∃ metadata, encodeMetadata U m = .ok metadata ∧
    payloadOffsetForLen w metadata.length alignment address = .ok offset

/-- The front a writer writes, and where it puts the payload. -/
theorem FramePlan.frameFront {m : UFrameMetadata U.toUpTypes}
    {payloadLen alignment address sampleLen : ℕ} {plan : FramePlan}
    (hplan : framePlan U w m payloadLen alignment address = .ok plan)
    (hfits : plan.Fits w sampleLen payloadLen) :
    FrameFront w m payloadLen plan.payloadOffset plan.front ∧
      PayloadAt w m alignment address plan.payloadOffset := by
  obtain ⟨henc, ⟨-, hml⟩, ⟨-, hpl⟩, hoff⟩ := framePlan_eq_ok.1 hplan
  have hpo : u32TryFrom plan.payloadOffset = some (UInt32.ofNat plan.payloadOffset) := by
    rw [u32TryFrom, if_pos hfits.offset]
  exact ⟨⟨⟨_, _, _, _, henc, hml, hpl, (u32TryFrom_eq_some.1 hpo).2, rfl⟩,
    FramePlan.length_front _ (payloadOffsetForLen_ok hoff).2.2.1, hfits.noOverflow⟩, _, henc, hoff⟩

/-- A successful `write_frame_header` leaves the front of a frame, and the sample as it was from
the payload on. -/
theorem writeFrameHeader_ok {m : UFrameMetadata U.toUpTypes} {s t : List UInt8}
    {payloadLen alignment address offset : ℕ}
    (h : (writeFrameHeader U w m payloadLen alignment address).run s = (.ok offset, t)) :
    ∃ front, FrameFront w m payloadLen offset front ∧ PayloadAt w m alignment address offset ∧
      offset + payloadLen ≤ s.length ∧ t = front ++ s.drop offset := by
  rw [run_writeFrameHeader] at h
  obtain ⟨plan', hchecks, hrun⟩ := OnSample.checked_eq_ok h
  obtain ⟨plan, hplan, hchecks⟩ := bind_eq_ok.1 hchecks
  obtain ⟨hfits, rfl⟩ := initChecks_eq_ok.1 hchecks
  obtain ⟨hfront, hat⟩ := FramePlan.frameFront hplan hfits
  cases hrun
  exact ⟨_, hfront, hat, hfits.room, rfl⟩

/-- A successful `write_frame_header_uninit` leaves the front of a frame, the payload range as it
was, and zeros behind it. -/
theorem writeFrameHeaderUninit_ok {m : UFrameMetadata U.toUpTypes} {s t : List MaybeUninit}
    {payloadLen alignment address offset : ℕ}
    (h : (writeFrameHeaderUninit U w m payloadLen alignment address).run s = (.ok offset, t)) :
    ∃ front, FrameFront w m payloadLen offset front ∧ PayloadAt w m alignment address offset ∧
      offset + payloadLen ≤ s.length ∧
        t = front.map some ++ Bytes.slice s offset (offset + payloadLen) ++
          List.replicate (s.length - (offset + payloadLen)) (some 0) := by
  rw [run_writeFrameHeaderUninit] at h
  obtain ⟨plan', hchecks, hrun⟩ := OnSample.checked_eq_ok h
  obtain ⟨plan, hplan, hchecks⟩ := bind_eq_ok.1 hchecks
  obtain ⟨hfits, rfl⟩ := uninitChecks_eq_ok.1 hchecks
  obtain ⟨hfront, hat⟩ := FramePlan.frameFront hplan hfits
  cases hrun
  exact ⟨_, hfront, hat, hfits.room, rfl⟩

end Image

end LolaTransport
