import LolaTransport.Bridge
import LolaTransport.Frame

/-!
# The crate's side of the bridge

`NativeTransport`, `NativeSubscriber` and the loans and samples got from them.  A wrapper that is
dropped gives its slot back, also on the way out of a function that returns an error.
-/

namespace LolaTransport

open Bridge

def mapStatus (status : UpLolaStatusCode) (operation : String) : Except Fault Unit :=
  match status with
  | .Ok => .ok ()
  | .InvalidArgument =>
    .error (failWithCode .INVALID_ARGUMENT s!"LoLa bridge failed to {operation}")
  | .NotFound =>
    .error (failWithCode .NOT_FOUND
      s!"LoLa bridge found no sample while trying to {operation}")
  | .ResourceExhausted =>
    .error (failWithCode .RESOURCE_EXHAUSTED
      s!"LoLa bridge exhausted resources while trying to {operation}")
  | .Internal => .error (failWithCode .INTERNAL s!"LoLa bridge failed to {operation}")

/-- `map_status(status, operation)?` after a call with an out-parameter, and the check that it is
not null: an error with the status `Ok` is a null pointer. -/
def mapResult {α : Type} (result : Except UpLolaStatusCode α) (operation what : String) :
    Except Fault α :=
  match result with
  | .ok ptr => .ok ptr
  | .error status => do
    mapStatus status operation
    throw (failWithCode .INTERNAL s!"LoLa bridge returned null {what}")

def validateSampleParts (data len expectedLen expectedAlignment : ℕ) (label : String) :
    Except Fault Unit :=
  if data = 0 then .error (failWithCode .INTERNAL s!"{label} data pointer is null")
  else if len ≠ expectedLen then
    .error (failWithCode .INTERNAL
      s!"{label} length {len} does not match configured sample size {expectedLen}")
  else if expectedAlignment = 0 || !LolaTransport.isPowerOfTwo expectedAlignment then
    .error (failWithCode .INTERNAL
      s!"{label} has invalid configured sample alignment {expectedAlignment}")
  else if data % expectedAlignment ≠ 0 then
    .error (failWithCode .INTERNAL
      s!"{label} data pointer does not satisfy configured sample alignment {expectedAlignment}")
  else .ok ()

/-! ## Transmitting -/

/-- The handle of a bridge transport, by its place among them. -/
structure NativeTransport where
  ptr : ℕ
  sampleSize : ℕ
  sampleAlignment : ℕ
  deriving DecidableEq, Repr

/-- A loan in the pool of the transport `pool`.  `take` leaves no loan behind, only a wrapper that
is dropped without effect, so a wrapper that counts always has its pointer. -/
structure NativeTxLoan where
  pool : ℕ
  loan : ℕ
  expectedLen : ℕ
  expectedAlignment : ℕ
  deriving DecidableEq, Repr

/-- `NativeTransport::new`, and the bridge transport it owns. -/
def NativeTransport.new (created : UpLolaStatusCode) (config : LolaTransportConfig) (id : ℕ) :
    Except Fault (NativeTransport × UpLolaTransport) := do
  let transport ← mapResult (upLolaTransportCreate created config id) "create LoLa transport"
    "transport"
  return ({
    ptr := id
    sampleSize := config.sampleSize
    sampleAlignment := config.sampleAlignment }, transport)

/-- The address and the length of the loaned sample. -/
def NativeTxLoan.dataParts (loan : NativeTxLoan) (pool : TxLoanPool) (label : String) :
    Except Fault (ℕ × ℕ) := do
  let data := upLolaTxLoanData pool loan.loan
  let len := upLolaTxLoanSize pool loan.loan
  validateSampleParts data len loan.expectedLen loan.expectedAlignment label
  return (data, len)

/-- `NativeTxLoan::drop`. -/
def NativeTxLoan.drop (loan : NativeTxLoan) (pool : TxLoanPool) : TxLoanPool :=
  upLolaTxLoanDestroy pool loan.loan

/-- `NativeTxLoan::new`: a loan whose data is not valid is dropped. -/
def NativeTxLoan.new (loan : NativeTxLoan) (pool : TxLoanPool) :
    Except Fault NativeTxLoan × TxLoanPool :=
  match loan.dataParts pool "LoLa TX loan" with
  | .ok _ => (.ok loan, pool)
  | .error e => (.error e, loan.drop pool)

/-- `NativeTransport::loan_sample` on the bridge transport it owns. -/
def NativeTransport.loanSample (w : PointerWidth) (allocation : Allocation)
    (native : NativeTransport) (transport : UpLolaTransport) :
    Except Fault NativeTxLoan × UpLolaTransport :=
  let (reserved, transport) := upLolaTransportReserve w allocation transport
  match mapResult reserved "loan LoLa sample" "TX loan" with
  | .error e => (.error e, transport)
  | .ok ptr =>
    let (loan, pool) := NativeTxLoan.new {
      pool := native.ptr
      loan := ptr
      expectedLen := native.sampleSize
      expectedAlignment := native.sampleAlignment } transport.txPool
    (loan, { transport with txPool := pool })

/-- `NativeTransport::send`, and the pool the loan lies in afterwards. -/
def NativeTransport.send (sent : Bool) (transport : UpLolaTransport) (loan : NativeTxLoan)
    (pool : TxLoanPool) : Except Fault Unit × TxLoanPool :=
  let (status, pool) := upLolaTransportSend sent transport pool loan.loan
  (mapStatus status "send LoLa sample", pool)

section Loans

variable (U : UpRust) (w : PointerWidth)

/-- `LolaTxLoan::new_native` on a sample at `address` whose slot holds `slot`. -/
def LolaTxLoan.newNative (metadata : UFrameMetadata U.toUpTypes) (address : ℕ)
    (slot : List MaybeUninit) (payloadLen payloadAlignment : ℕ) : Except Fault (LolaTxLoan U) := do
  let (initialized, sample) := (initializeUninitRange 0 slot.length).run slot
  initialized
  let some sample := assumeInit sample | throw .panicked
  let (written, sample) :=
    (writeFrameHeader U w metadata payloadLen payloadAlignment address).run sample
  let payloadOffset ← written
  return { metadata, sample, payloadOffset, payloadLen }

/-- `LolaUninitTxLoan::new_native` on a sample at `address` whose slot holds `slot`. -/
def LolaUninitTxLoan.newNative (metadata : UFrameMetadata U.toUpTypes) (address : ℕ)
    (slot : List MaybeUninit) (payloadLen payloadAlignment : ℕ) :
    Except Fault (LolaUninitTxLoan U) := do
  let (written, sample) :=
    (writeFrameHeaderUninit U w metadata payloadLen payloadAlignment address).run slot
  let payloadOffset ← written
  return { metadata, sample, payloadOffset, payloadLen }

variable {U} in
/-- The check that `into_native` makes before it gives out the sample. -/
def LolaTxLoan.intoNative (loan : LolaTxLoan U) : Except Fault Unit :=
  if loan.sample.length < 4 || loan.sample.take 4 ≠ LOLA_FRAME_MAGIC then
    .error (failWithCode .INTERNAL "LoLa TX frame header was not written before send")
  else .ok ()

end Loans

/-! ## Receiving -/

structure NativeSubscriber where
  subscriber : UpLolaSubscriber
  sampleSize : ℕ
  sampleAlignment : ℕ

structure NativeRxSample where
  sample : ℕ
  expectedLen : ℕ
  expectedAlignment : ℕ
  deriving DecidableEq, Repr

def NativeSubscriber.new (found : UpLolaStatusCode) (config : LolaTransportConfig) :
    Except Fault NativeSubscriber := do
  let subscriber ← mapResult (upLolaSubscriberCreate found config) "create LoLa subscriber"
    "subscriber"
  return {
    subscriber
    sampleSize := config.sampleSize
    sampleAlignment := config.sampleAlignment }

/-- The address and the length of the received sample. -/
def NativeRxSample.dataParts (sample : NativeRxSample) (pool : RxSamplePool) (label : String) :
    Except Fault (ℕ × ℕ) := do
  let data := upLolaRxSampleData pool sample.sample
  let len := upLolaRxSampleSize pool sample.sample
  validateSampleParts data len sample.expectedLen sample.expectedAlignment label
  return (data, len)

/-- `NativeRxSample::drop`. -/
def NativeRxSample.drop (sample : NativeRxSample) (pool : RxSamplePool) : RxSamplePool :=
  upLolaRxSampleDestroy pool sample.sample

/-- `NativeRxSample::new`: a sample whose data is not valid is dropped. -/
def NativeRxSample.new (sample : NativeRxSample) (pool : RxSamplePool) :
    Except Fault NativeRxSample × RxSamplePool :=
  match sample.dataParts pool "LoLa RX sample" with
  | .ok _ => (.ok sample, pool)
  | .error e => (.error e, sample.drop pool)

/-- `NativeSubscriber::receive`, and what is left undelivered. -/
def NativeSubscriber.receive (found : UpLolaStatusCode) (works : Bool)
    (undelivered : List (ℕ × SamplePtr)) (native : NativeSubscriber) :
    Except Fault NativeRxSample × List (ℕ × SamplePtr) × NativeSubscriber :=
  let (received, undelivered, subscriber) :=
    upLolaSubscriberReceive found works undelivered native.subscriber
  match mapResult received "receive LoLa sample" "RX sample" with
  | .error e => (.error e, undelivered, { native with subscriber })
  | .ok ptr =>
    let (sample, pool) := NativeRxSample.new {
      sample := ptr
      expectedLen := native.sampleSize
      expectedAlignment := native.sampleAlignment } subscriber.rxPool
    (sample, undelivered, { native with subscriber := { subscriber with rxPool := pool } })

/-! ## Transports -/

/-- A transport, as far as it transmits, and the bridge transport it owns. -/
structure UTransportLola where
  config : LolaTransportConfig
  native : NativeTransport
  bridge : UpLolaTransport

/-- `UTransportLola::build`; `created` is what S-CORE makes of the configuration. -/
def UTransportLola.build (created : UpLolaStatusCode) (config : LolaTransportConfig) (id : ℕ) :
    Except Fault UTransportLola := do
  config.validate
  let (native, bridge) ← NativeTransport.new created config id
  return { config, native, bridge }

end LolaTransport
