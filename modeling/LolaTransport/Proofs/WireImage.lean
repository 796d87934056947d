import LolaTransport.Proofs.Frame
import LolaTransport.Sys

/-!
# One wire image

A frame is transmitted from a loan whose bytes are initialized from the start, or from one whose
payload range is left to the caller to initialize.  Either way the sample that is sent holds the
header, the metadata, zeros up to the payload, the payload, and zeros to its end, whatever its slot
held before.
-/

namespace LolaTransport

open Fallible (bind_eq_ok)

variable {U : UpRust} {w : PointerWidth}

/-- A sample of `sampleLen` bytes with a frame of this metadata and payload. -/
def wireImage (metadata payload : List UInt8) (payloadOffset sampleLen : ℕ) : List UInt8 :=
  frameHeader (.ofNat metadata.length) (.ofNat payload.length) (.ofNat payloadOffset) ++
    metadata ++ List.replicate (payloadOffset - (20 + metadata.length)) 0 ++ payload ++
    List.replicate (sampleLen - (payloadOffset + payload.length)) 0

variable (U w) in
/-- `sample` is what is sent of a loan made by `LolaTxLoan::new_vec` or `new_native` and filled with
`payload`. -/
inductive SentInit (m : UFrameMetadata U.toUpTypes) (payload : List UInt8)
    (sampleLen alignment address : ℕ) : List UInt8 → Prop
  | vec {loan sent : LolaTxLoan U}
      (hnew : LolaTxLoan.newVec U w m address sampleLen payload.length alignment = .ok loan)
      (hfill : loan.fillPayload w payload = .ok sent) :
      SentInit m payload sampleLen alignment address sent.sample
  | native {loan sent : LolaTxLoan U} (slot : List MaybeUninit) (hslot : slot.length = sampleLen)
      (hnew : LolaTxLoan.newNative U w m address slot payload.length alignment = .ok loan)
      (hfill : loan.fillPayload w payload = .ok sent) :
      SentInit m payload sampleLen alignment address sent.sample

variable (U w) in
/-- `sample` is what is sent of a loan made by `LolaUninitTxLoan::new_vec` or `new_native`, whose
payload range has been initialized with `payload`. -/
inductive SentUninit (m : UFrameMetadata U.toUpTypes) (payload : List UInt8)
    (sampleLen alignment address : ℕ) : List UInt8 → Prop
  | vec {loan filled : LolaUninitTxLoan U} {sent : LolaTxLoan U}
      (hnew : LolaUninitTxLoan.newVec U w m address sampleLen payload.length alignment = .ok loan)
      (hfill : loan.fillPayload w (payload.map some) = .ok filled)
      (hassume : filled.assumePayloadInit = some sent) :
      SentUninit m payload sampleLen alignment address sent.sample
  | native {loan filled : LolaUninitTxLoan U} {sent : LolaTxLoan U} (slot : List MaybeUninit)
      (hslot : slot.length = sampleLen)
      (hnew : LolaUninitTxLoan.newNative U w m address slot payload.length alignment = .ok loan)
      (hfill : loan.fillPayload w (payload.map some) = .ok filled)
      (hassume : filled.assumePayloadInit = some sent) :
      SentUninit m payload sampleLen alignment address sent.sample

/-- A slot that has been initialized is like a new allocation. -/
theorem newNative_eq_newVec (m : UFrameMetadata U.toUpTypes) (address : ℕ)
    (slot : List MaybeUninit) (payloadLen alignment : ℕ) :
    LolaTxLoan.newNative U w m address slot payloadLen alignment =
      LolaTxLoan.newVec U w m address slot.length payloadLen alignment := by
  have hzero : Bytes.overwrite slot 0 (List.replicate (slot.length - 0) (some (0 : UInt8))) =
      (List.replicate slot.length (0 : UInt8)).map some := by
    simp [Bytes.overwrite]
  have hrun := initializeUninitRange_of_le (Nat.zero_le _) (Nat.le_refl slot.length)
  rw [hzero] at hrun
  rw [LolaTxLoan.newNative, LolaTxLoan.newVec, hrun]
  dsimp only [bind, Except.bind]
  rw [assumeInit_map_some]

/-- Where the payload goes, and that the sample has room for it. -/
structure LaidOut (w : PointerWidth) (m : UFrameMetadata U.toUpTypes) (payload : List UInt8)
    (sampleLen alignment address : ℕ) (sample : List UInt8) : Prop where
  image : ∃ metadata offset, encodeMetadata U m = .ok metadata ∧
    payloadOffsetForLen w metadata.length alignment address = .ok offset ∧
    offset + payload.length ≤ sampleLen ∧
    sample = wireImage metadata payload offset sampleLen

theorem laidOut_of_front {m : UFrameMetadata U.toUpTypes} {payload front : List UInt8}
    {sampleLen alignment address offset : ℕ} (hfront : FrameFront w m payload.length offset front)
    (hat : PayloadAt w m alignment address offset) (hle : offset + payload.length ≤ sampleLen) :
    LaidOut w m payload sampleLen alignment address
      (front ++ payload ++ List.replicate (sampleLen - (offset + payload.length)) 0) := by
  obtain ⟨metadata, henc, hoff⟩ := hat
  obtain ⟨metadata', ml, pl, po, henc', hml, hpl, hpo, rfl⟩ := hfront.eq
  cases henc.symm.trans henc'
  refine ⟨metadata, offset, henc, hoff, hle, ?_⟩
  rw [wireImage, ← hml, ← hpl, ← hpo, UInt32.ofNat_toNat, UInt32.ofNat_toNat, UInt32.ofNat_toNat]

theorem sentInit_laidOut {m : UFrameMetadata U.toUpTypes} {payload sample : List UInt8}
    {sampleLen alignment address : ℕ}
    (h : SentInit U w m payload sampleLen alignment address sample) :
    LaidOut w m payload sampleLen alignment address sample := by
  have hvec {loan sent : LolaTxLoan U}
      (hnew : LolaTxLoan.newVec U w m address sampleLen payload.length alignment = .ok loan)
      (hfill : loan.fillPayload w payload = .ok sent) :
      LaidOut w m payload sampleLen alignment address sent.sample := by
    rcases hrun :
      (writeFrameHeader U w m payload.length alignment address).run (.replicate sampleLen 0) with
        ⟨written, after⟩
    rw [LolaTxLoan.newVec, hrun] at hnew
    obtain ⟨offset, hwritten, hnew⟩ := bind_eq_ok.1 hnew
    cases hwritten
    cases hnew
    obtain ⟨front, hfront, hat, hle, rfl⟩ := writeFrameHeader_ok hrun
    rw [List.length_replicate] at hle
    have hrest : (List.replicate sampleLen (0 : UInt8)).drop offset =
        List.replicate payload.length 0 ++
          List.replicate (sampleLen - (offset + payload.length)) 0 := by
      rw [List.drop_replicate, List.replicate_append_replicate]
      congr 1
      omega
    rw [hrest, ← List.append_assoc, fillPayload_middle hfront.length.symm (by simp) rfl
      hfront.fits] at hfill
    cases hfill
    exact laidOut_of_front hfront hat hle
  cases h with
  | vec hnew hfill => exact hvec hnew hfill
  | native slot hslot hnew hfill =>
    rw [newNative_eq_newVec, hslot] at hnew
    exact hvec hnew hfill

theorem sentUninit_laidOut {m : UFrameMetadata U.toUpTypes} {payload sample : List UInt8}
    {sampleLen alignment address : ℕ}
    (h : SentUninit U w m payload sampleLen alignment address sample) :
    LaidOut w m payload sampleLen alignment address sample := by
  have hnative {loan filled : LolaUninitTxLoan U} {sent : LolaTxLoan U} {slot : List MaybeUninit}
      (hslot : slot.length = sampleLen)
      (hnew : LolaUninitTxLoan.newNative U w m address slot payload.length alignment = .ok loan)
      (hfill : loan.fillPayload w (payload.map some) = .ok filled)
      (hassume : filled.assumePayloadInit = some sent) :
      LaidOut w m payload sampleLen alignment address sent.sample := by
    rcases hrun :
      (writeFrameHeaderUninit U w m payload.length alignment address).run slot with
        ⟨written, after⟩
    rw [LolaUninitTxLoan.newNative, hrun] at hnew
    obtain ⟨offset, hwritten, hnew⟩ := bind_eq_ok.1 hnew
    cases hwritten
    cases hnew
    obtain ⟨front, hfront, hat, hle, rfl⟩ := writeFrameHeaderUninit_ok hrun
    rw [hslot] at hle hfill
    have hview : payload.length =
        (Bytes.slice slot offset (offset + payload.length)).length := by
      rw [Bytes.slice, List.length_take, List.length_drop]
      omega
    rw [fillPayload_middle (by simp [hfront.length]) hview (by simp) hfront.fits] at hfill
    cases hfill
    obtain ⟨bytes, hbytes, hassume⟩ := Option.bind_eq_some_iff.1 hassume
    cases hassume
    rw [← List.map_replicate, ← List.map_append, ← List.map_append, assumeInit_map_some] at hbytes
    cases hbytes
    exact laidOut_of_front hfront hat hle
  cases h with
  | vec hnew hfill hassume => exact hnative List.length_replicate hnew hfill hassume
  | native slot hslot hnew hfill hassume => exact hnative hslot hnew hfill hassume

/-- What is sent of a loan that was initialized from the start and of one that was not is the same,
byte for byte, and nothing in it is left of what their slots held before. -/
theorem tx_paths_agree {m : UFrameMetadata U.toUpTypes} {payload sample sample' : List UInt8}
    {sampleLen alignment address : ℕ}
    (h : SentInit U w m payload sampleLen alignment address sample)
    (h' : SentUninit U w m payload sampleLen alignment address sample') :
    sample = sample' ∧ ∃ metadata offset, encodeMetadata U m = .ok metadata ∧
      payloadOffsetForLen w metadata.length alignment address = .ok offset ∧
      offset + payload.length ≤ sampleLen ∧
      sample = wireImage metadata payload offset sampleLen := by
  obtain ⟨metadata, offset, henc, hoff, hle, himage⟩ := (sentInit_laidOut h).image
  obtain ⟨metadata', offset', henc', hoff', -, himage'⟩ := (sentUninit_laidOut h').image
  cases henc.symm.trans henc'
  cases hoff.symm.trans hoff'
  exact ⟨himage.trans himage'.symm, metadata, offset, henc, hoff, hle, himage⟩

/-- Two payload bytes, from a slot full of nines and from a new allocation. -/
theorem tx_paths_agree_plain : ∃ sample,
    SentInit plainUpRust .w64 (plainMetadata topicA) [5, 6] 60 8 16 sample ∧
      SentUninit plainUpRust .w64 (plainMetadata topicA) [5, 6] 60 8 16 sample := by
  have hinit : ((LolaTxLoan.newNative plainUpRust .w64 (plainMetadata topicA) 16
      (.replicate 60 (some 9)) 2 8) >>= fun loan => loan.fillPayload .w64 [5, 6]).toOption.isSome =
        true := by
    decide +kernel
  have huninit : (((LolaUninitTxLoan.newVec plainUpRust .w64 (plainMetadata topicA) 16 60 2 8) >>=
      fun loan => loan.fillPayload .w64 [some 5, some 6]).toOption.bind
        (·.assumePayloadInit)).isSome = true := by
    decide +kernel
  obtain ⟨sent, hsent⟩ := Option.isSome_iff_exists.1 hinit
  obtain ⟨loan, hnew, hfill⟩ := bind_eq_ok.1 (Fallible.toOption_eq_some.1 hsent)
  obtain ⟨sent', hsent'⟩ := Option.isSome_iff_exists.1 huninit
  obtain ⟨filled, hfilled, hassume⟩ := Option.bind_eq_some_iff.1 hsent'
  obtain ⟨loan', hnew', hfill'⟩ := bind_eq_ok.1 (Fallible.toOption_eq_some.1 hfilled)
  have hsentInit : SentInit plainUpRust .w64 (plainMetadata topicA) [5, 6] 60 8 16 _ :=
    .native (.replicate 60 (some 9)) List.length_replicate hnew hfill
  have hsentUninit : SentUninit plainUpRust .w64 (plainMetadata topicA) [5, 6] 60 8 16 _ :=
    .vec hnew' hfill' hassume
  rw [(tx_paths_agree hsentInit hsentUninit).1] at hsentInit
  exact ⟨_, hsentInit, hsentUninit⟩

end LolaTransport
