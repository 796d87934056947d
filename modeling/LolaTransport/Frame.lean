import LolaTransport.Metadata

/-!
# Frames in fixed-size samples

A frame is a 20-byte header, the encoded metadata, zeros up to the aligned payload offset, and the
payload; the sample may be longer.  `writeFrameHeader` lays a frame out in a sample whose bytes
are initialized, `writeFrameHeaderUninit` in one whose bytes need not be, and `readFrameHeader`
checks a received sample and finds the payload in it.

The writers work on the sample in place, so they are computations over the sample as a state:
what a failed call leaves behind is the state it ends in.
-/

namespace LolaTransport

variable (U : UpRust) (w : PointerWidth)

def LOLA_FRAME_MAGIC : List UInt8 := [85, 76, 79, 76]

def LOLA_FRAME_VERSION : UInt8 := 1

def LOLA_FRAME_HEADER_LEN : ℕ := 20

/-! ## Slices -/

/-- `sample[i..j]`, which panics out of bounds. -/
def sliceOrPanic (sample : List UInt8) (i j : ℕ) : Except Fault (List UInt8) :=
  if i ≤ j ∧ j ≤ sample.length then .ok (Bytes.slice sample i j) else .error .panicked

/-- `sample[i]`, which panics out of bounds. -/
def indexOrPanic (sample : List UInt8) (i : ℕ) : Except Fault UInt8 :=
  match sample[i]? with
  | some byte => .ok byte
  | none => .error .panicked

/-- `dst[i..j].copy_from_slice(src)`, which panics out of bounds or on a length mismatch. -/
def copyFromSlice (dst : List UInt8) (i j : ℕ) (src : List UInt8) : Except Fault (List UInt8) :=
  if i ≤ j ∧ j ≤ dst.length ∧ src.length = j - i then .ok (Bytes.overwrite dst i src)
  else .error .panicked

/-- `dst[i] = value`, which panics out of bounds. -/
def setOrPanic (dst : List UInt8) (i : ℕ) (value : UInt8) : Except Fault (List UInt8) :=
  if i < dst.length then .ok (Bytes.overwrite dst i [value]) else .error .panicked

/-! ## Layout -/

def alignUp (value alignment : ℕ) : Except Fault ℕ :=
  if alignment = 0 || !isPowerOfTwo alignment then
    .error (failWithCode .INVALID_ARGUMENT
      "LoLa payload alignment must be a non-zero power of two")
  else
    let remainder := value % alignment
    if remainder = 0 then .ok value
    else okOr (checkedAdd w value (alignment - remainder)) .INVALID_ARGUMENT
      "LoLa frame layout overflow"

def payloadOffsetForLen (metadataLen payloadAlignment sampleAddress : ℕ) : Except Fault ℕ := do
  let metadataEnd ← okOr (checkedAdd w LOLA_FRAME_HEADER_LEN metadataLen) .INVALID_ARGUMENT
    "LoLa metadata layout overflow"
  let absoluteMetadataEnd ← okOr (checkedAdd w sampleAddress metadataEnd) .INVALID_ARGUMENT
    "LoLa metadata layout overflow"
  let absolutePayload ← alignUp w absoluteMetadataEnd payloadAlignment
  okOr (checkedSub absolutePayload sampleAddress) .INVALID_ARGUMENT
    "LoLa payload layout overflow"

def frameTooLarge (totalLen sampleLen : ℕ) : Fault :=
  failWithCode .RESOURCE_EXHAUSTED
    s!"LoLa frame requires {totalLen} bytes but sample has {sampleLen} bytes"

def frameLayoutBounds (sampleLen metadataLen payloadLen payloadAlignment sampleAddress : ℕ) :
    Except Fault (ℕ × ℕ) := do
  let payloadOffset ← payloadOffsetForLen w metadataLen payloadAlignment sampleAddress
  let totalLen ← okOr (checkedAdd w payloadOffset payloadLen) .INVALID_ARGUMENT
    "LoLa frame layout overflow"
  if totalLen > sampleLen then throw (frameTooLarge totalLen sampleLen)
  return (payloadOffset, totalLen)

/-! ## Writing -/

/-- A computation on a sample of `β`s in place; a fault leaves the sample as it is by then. -/
abbrev OnSample (β : Type) := ExceptT Fault (StateM (List β))

def OnSample.ofExcept {β α : Type} (x : Except Fault α) : OnSample β α := ExceptT.mk (pure x)

/-- The outcome on `sample`, and the sample afterwards. -/
def OnSample.run {β α : Type} (x : OnSample β α) (sample : List β) : Except Fault α × List β :=
  StateT.run (ExceptT.run x) sample

/-- The header fields and the metadata, written into `dst` one after another. -/
def writeHeaderFields (dst : List UInt8) (metadataLen payloadLen payloadOffset : UInt32)
    (metadataBytes : List UInt8) : Except Fault (List UInt8) := do
  let dst ← copyFromSlice dst 0 4 LOLA_FRAME_MAGIC
  let dst ← setOrPanic dst 4 LOLA_FRAME_VERSION
  let dst ← copyFromSlice dst 8 12 (u32ToLeBytes metadataLen)
  let dst ← copyFromSlice dst 12 16 (u32ToLeBytes payloadLen)
  let dst ← copyFromSlice dst 16 20 (u32ToLeBytes payloadOffset)
  let metadataEnd := LOLA_FRAME_HEADER_LEN + metadataBytes.length
  copyFromSlice dst LOLA_FRAME_HEADER_LEN metadataEnd metadataBytes

/-- `sample[..end].fill(0)`, which panics out of bounds. -/
def fillZero (stop : ℕ) : OnSample UInt8 Unit := do
  let sample ← get
  if stop ≤ sample.length then set (Bytes.overwrite sample 0 (List.replicate stop 0))
  else throw .panicked

def writeFrameHeader (metadata : UFrameMetadata U.toUpTypes)
    (payloadLen payloadAlignment sampleAddress : ℕ) : OnSample UInt8 ℕ := do
  let metadataBytes ← .ofExcept (encodeMetadata U metadata)
  let metadataLen ← .ofExcept (okOr (u32TryFrom metadataBytes.length) .INVALID_ARGUMENT
    "LoLa metadata is too large")
  let payloadLenU32 ← .ofExcept (okOr (u32TryFrom payloadLen) .INVALID_ARGUMENT
    "LoLa payload is too large")
  let payloadOffset ← .ofExcept
    (payloadOffsetForLen w metadataBytes.length payloadAlignment sampleAddress)
  let payloadOffsetU32 ← .ofExcept (okOr (u32TryFrom payloadOffset) .INVALID_ARGUMENT
    "LoLa payload offset is too large")
  let totalLen ← .ofExcept (okOr (checkedAdd w payloadOffset payloadLen) .INVALID_ARGUMENT
    "LoLa frame layout overflow")
  let sampleLen := (← get).length
  if totalLen > sampleLen then throw (frameTooLarge totalLen sampleLen)
  fillZero payloadOffset
  let written ← .ofExcept
    (writeHeaderFields (← get) metadataLen payloadLenU32 payloadOffsetU32 metadataBytes)
  set written
  return payloadOffset

/-- `MaybeUninit<u8>`: `none` is a byte that was never written. -/
abbrev MaybeUninit := Option UInt8

/-- The bytes of a slice of which every byte has been written. -/
def assumeInit : List MaybeUninit → Option (List UInt8)
  | [] => some []
  | some byte :: bytes => (assumeInit bytes).map (byte :: ·)
  | none :: _ => none

def initializeUninitRange (start stop : ℕ) : OnSample MaybeUninit Unit := do
  let sample ← get
  if start ≤ stop ∧ stop ≤ sample.length then
    set (Bytes.overwrite sample start (List.replicate (stop - start) (some 0)))
  else throw (failWithCode .INVALID_ARGUMENT "LoLa initialization range is invalid")

/-- The prefix `..end` as initialized bytes.  Were one of them not, the cast would be undefined
behaviour, which is a panic here. -/
def initializedPrefixMut (stop : ℕ) : OnSample MaybeUninit (List UInt8) := do
  let sample ← get
  if stop ≤ sample.length then
    match assumeInit (sample.take stop) with
    | some bytes => return bytes
    | none => throw .panicked
  else throw (failWithCode .INVALID_ARGUMENT "LoLa prefix range is invalid")

def writeFrameHeaderUninit (metadata : UFrameMetadata U.toUpTypes)
    (payloadLen payloadAlignment sampleAddress : ℕ) : OnSample MaybeUninit ℕ := do
  let metadataBytes ← .ofExcept (encodeMetadata U metadata)
  let metadataLen ← .ofExcept (okOr (u32TryFrom metadataBytes.length) .INVALID_ARGUMENT
    "LoLa metadata is too large")
  let payloadLenU32 ← .ofExcept (okOr (u32TryFrom payloadLen) .INVALID_ARGUMENT
    "LoLa payload is too large")
  let sampleLen := (← get).length
  let (payloadOffset, _) ← .ofExcept
    (frameLayoutBounds w sampleLen metadataBytes.length payloadLen payloadAlignment sampleAddress)
  let payloadOffsetU32 ← .ofExcept (okOr (u32TryFrom payloadOffset) .INVALID_ARGUMENT
    "LoLa payload offset is too large")
  initializeUninitRange 0 payloadOffset
  let payloadEnd ← .ofExcept (okOr (checkedAdd w payloadOffset payloadLen) .INVALID_ARGUMENT
    "LoLa frame layout overflow")
  initializeUninitRange payloadEnd sampleLen
  let initialized ← initializedPrefixMut payloadOffset
  let written ← .ofExcept
    (writeHeaderFields initialized metadataLen payloadLenU32 payloadOffsetU32 metadataBytes)
  -- `initialized` aliases the prefix of the sample: what it now holds is what the sample holds.
  modify (Bytes.overwrite · 0 (written.map some))
  return payloadOffset

/-! ## Reading -/

/-- `u32::from_le_bytes`, of a slice of four bytes. -/
def u32FromLeBytes (bytes : List UInt8) : Except Fault UInt32 := do
  let bytes ← expectLen 4 bytes
  return UInt32.ofNat (Bytes.ofLe bytes)

/-- `{:02X}`. -/
def hexByte (byte : UInt8) : String :=
  let digits := (Nat.toDigits 16 byte.toNat).map Char.toUpper
  String.ofList (List.replicate (2 - digits.length) '0' ++ digits)

def invalidMagic (sample : List UInt8) : Except Fault Unit := do
  let b0 ← indexOrPanic sample 0
  let b1 ← indexOrPanic sample 1
  let b2 ← indexOrPanic sample 2
  let b3 ← indexOrPanic sample 3
  throw (failWithCode .INVALID_ARGUMENT
    s!"invalid LoLa frame magic: {hexByte b0} {hexByte b1} {hexByte b2} {hexByte b3}")

def readFrameHeader (sample : List UInt8) : Except Fault (UFrameMetadata U.toUpTypes × ℕ × ℕ) := do
  if sample.length < LOLA_FRAME_HEADER_LEN then
    throw (failWithCode .INVALID_ARGUMENT "LoLa sample is shorter than frame header")
  if (← sliceOrPanic sample 0 4) ≠ LOLA_FRAME_MAGIC then
    invalidMagic sample
  if (← indexOrPanic sample 4) ≠ LOLA_FRAME_VERSION then
    throw (failWithCode .INVALID_ARGUMENT "unsupported LoLa frame version")
  let metadataLen := asUsize w (← u32FromLeBytes (← sliceOrPanic sample 8 12))
  let payloadLen := asUsize w (← u32FromLeBytes (← sliceOrPanic sample 12 16))
  let payloadOffset := asUsize w (← u32FromLeBytes (← sliceOrPanic sample 16 20))
  let metadataEnd ← okOr (checkedAdd w LOLA_FRAME_HEADER_LEN metadataLen) .INVALID_ARGUMENT
    "LoLa metadata layout overflow"
  if metadataEnd > sample.length then
    throw (failWithCode .INVALID_ARGUMENT "LoLa metadata range is outside sample bounds")
  let metadata ← decodeMetadata U w (← sliceOrPanic sample LOLA_FRAME_HEADER_LEN metadataEnd)
  if payloadOffset < metadataEnd then
    throw (failWithCode .INVALID_ARGUMENT "LoLa payload overlaps metadata")
  let payloadEnd ← okOr (checkedAdd w payloadOffset payloadLen) .INVALID_ARGUMENT
    "LoLa payload layout overflow"
  if payloadEnd > sample.length then
    throw (failWithCode .INVALID_ARGUMENT "LoLa payload range is outside sample bounds")
  return (metadata, payloadOffset, payloadLen)

/-! ## Loans and leases -/

/-- A transmit loan: a sample, initialized or not, and where the payload goes in it. -/
structure TxLoan (β : Type) where
  metadata : UFrameMetadata U.toUpTypes
  sample : List β
  payloadOffset : ℕ
  payloadLen : ℕ

abbrev LolaTxLoan := TxLoan U UInt8

abbrev LolaUninitTxLoan := TxLoan U MaybeUninit

variable {U} in
/-- What fills the view `payload_mut` (or `payload_uninit_mut`) gives out; the view is the only
part of the sample a loan gives out, and asking for it panics when it is out of bounds. -/
def TxLoan.fillPayload {β : Type} (loan : TxLoan U β) (payload : List β) :
    Except Fault (TxLoan U β) :=
  match checkedAdd w loan.payloadOffset loan.payloadLen with
  | none => .error .panicked
  | some stop =>
    if loan.payloadOffset ≤ stop ∧ stop ≤ loan.sample.length ∧ payload.length = loan.payloadLen then
      .ok { loan with sample := Bytes.overwrite loan.sample loan.payloadOffset payload }
    else .error .panicked

variable {U} in
/-- `payload`, which expects that the view is in bounds. -/
def LolaTxLoan.payload (loan : LolaTxLoan U) : Except Fault (List UInt8) :=
  match checkedAdd w loan.payloadOffset loan.payloadLen with
  | none => .error .panicked
  | some stop =>
    if loan.payloadOffset ≤ stop ∧ stop ≤ loan.sample.length then
      .ok (Bytes.slice loan.sample loan.payloadOffset stop)
    else .error .panicked

variable {U} in
/-- `assume_payload_init`, which is undefined on a sample that is not initialized. -/
def TxLoan.assumePayloadInit (loan : LolaUninitTxLoan U) : Option (LolaTxLoan U) := do
  let sample ← assumeInit loan.sample
  return { loan with sample }

/-- `LolaTxLoan::new_vec`, on an allocation at `address`. -/
def LolaTxLoan.newVec (metadata : UFrameMetadata U.toUpTypes)
    (address sampleSize payloadLen payloadAlignment : ℕ) : Except Fault (LolaTxLoan U) := do
  let (written, sample) :=
    (writeFrameHeader U w metadata payloadLen payloadAlignment address).run
      (.replicate sampleSize 0)
  let payloadOffset ← written
  return { metadata, sample, payloadOffset, payloadLen }

/-- `LolaUninitTxLoan::new_vec`, on an allocation at `address`. -/
def LolaUninitTxLoan.newVec (metadata : UFrameMetadata U.toUpTypes)
    (address sampleSize payloadLen payloadAlignment : ℕ) : Except Fault (LolaUninitTxLoan U) := do
  let (written, sample) :=
    (writeFrameHeaderUninit U w metadata payloadLen payloadAlignment address).run
      (.replicate sampleSize none)
  let payloadOffset ← written
  return { metadata, sample, payloadOffset, payloadLen }

/-- A receive lease: a sample and where its payload lies in it. -/
structure LolaRxLease where
  metadata : UFrameMetadata U.toUpTypes
  sample : List UInt8
  payloadOffset : ℕ
  payloadLen : ℕ

variable {U} in
/-- `try_contiguous_payload`: the payload view of a lease. -/
def LolaRxLease.tryContiguousPayload (lease : LolaRxLease U) : Option (List UInt8) := do
  let stop ← checkedAdd w lease.payloadOffset lease.payloadLen
  if lease.payloadOffset ≤ stop ∧ stop ≤ lease.sample.length then
    return Bytes.slice lease.sample lease.payloadOffset stop
  else none

variable {U} in
/-- `contiguous_payload`, which expects that there is a view. -/
def LolaRxLease.contiguousPayload (lease : LolaRxLease U) : Except Fault (List UInt8) :=
  match lease.tryContiguousPayload w with
  | some payload => .ok payload
  | none => .error .panicked

/-- `up_rust::payload::UWireError`, as far as the crate returns it. -/
inductive UWireError
  | NotContiguous
  deriving DecidableEq, Repr

variable {U} in
def LolaRxLease.loanedContiguousPayload (lease : LolaRxLease U) :
    Except UWireError (List UInt8) :=
  match lease.tryContiguousPayload w with
  | some payload => .ok payload
  | none => .error .NotContiguous

/-- `LolaRxLease::from_vec`, and `from_native` on the sample's bytes.  The view handed to the
transport's validation is the lease's own metadata and payload. -/
def LolaRxLease.fromSample (sample : List UInt8) : Except Fault (LolaRxLease U) := do
  let (metadata, payloadOffset, payloadLen) ← readFrameHeader U w sample
  let lease : LolaRxLease U := { metadata, sample, payloadOffset, payloadLen }
  match lease.tryContiguousPayload w with
  | none => throw .panicked
  | some payload =>
    match U.validateFrameView metadata payload with
    | .ok () => return lease
    | .error status => throw (.status status)

end LolaTransport
