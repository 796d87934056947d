import LolaTransport.Lib.Run
import LolaTransport.Sys

/-!
# Transmit loans

Any number of native transports, and callers that take loans from them, fill, drop and send them.
A loan is one slot of the pool of the transport it was obtained from; nothing keeps a caller from
passing it to another transport's send.  Of S-CORE it is assumed that samples allocated and not yet
sent or freed have memory of their own each.
-/

namespace LolaTransport

open Bridge

variable (U : UpRust) (w : PointerWidth)

/-- `ValidatedTxLoanSpec`, as far as it is looked at. -/
structure ValidatedTxLoanSpec where
  metadata : UFrameMetadata U.toUpTypes
  payloadLen : ℕ
  payloadAlignment : ℕ

def validateAlignment (alignment : ℕ) : Except Fault Unit :=
  if alignment = 0 || !LolaTransport.isPowerOfTwo alignment then
    .error (failWithCode .INVALID_ARGUMENT "payload alignment must be a non-zero power of two")
  else .ok ()

/-- What a loan's sample is written as: initialized or not. -/
inductive TxBuffer
  | tx (loan : LolaTxLoan U)
  | uninitTx (loan : LolaUninitTxLoan U)

/-- A loan a caller holds. -/
structure LiveLoan where
  native : NativeTxLoan
  buffer : TxBuffer U

variable {U}

/-- The sample that is loaned is dropped with the error when the frame cannot be laid out in it. -/
def UTransportLola.loanWith
    (newNative : UFrameMetadata U.toUpTypes → ℕ → ℕ → ℕ → ℕ → Except Fault (TxBuffer U))
    (allocation : Allocation) (spec : ValidatedTxLoanSpec U) (transport : UTransportLola) :
    Except Fault (LiveLoan U) × UTransportLola :=
  match validateAlignment spec.payloadAlignment with
  | .error e => (.error e, transport)
  | .ok () =>
    if spec.payloadAlignment > transport.config.sampleAlignment then
      (.error (failWithCode .INVALID_ARGUMENT
        s!"requested payload alignment {spec.payloadAlignment} exceeds LoLa sample alignment {transport.config.sampleAlignment}"),
        transport)
    else
      match transport.native.loanSample w allocation transport.bridge with
      | (.error e, bridge) => (.error e, { transport with bridge })
      | (.ok native, bridge) =>
        let dropped := { bridge with txPool := native.drop bridge.txPool }
        -- `len` and the slices expect the data that `NativeTxLoan::new` has checked
        match native.dataParts bridge.txPool "LoLa TX loan" with
        | .error _ => (.error .panicked, { transport with bridge := dropped })
        | .ok (address, sampleLen) =>
          match newNative spec.metadata address sampleLen spec.payloadLen spec.payloadAlignment with
          | .error e => (.error e, { transport with bridge := dropped })
          | .ok buffer => (.ok { native, buffer }, { transport with bridge })

def UTransportLola.loanValidatedTx :=
  loanWith w fun metadata address sampleLen payloadLen payloadAlignment =>
    (LolaTxLoan.newNative U w metadata address (.replicate sampleLen none) payloadLen
      payloadAlignment).map .tx

def UTransportLola.loanValidatedUninitTx :=
  loanWith w fun metadata address sampleLen payloadLen payloadAlignment =>
    (LolaUninitTxLoan.newNative U w metadata address (.replicate sampleLen none) payloadLen
      payloadAlignment).map .uninitTx

/-- `send_validated_zero_copy` of a loan that lies in `pool`, and that pool afterwards. -/
def UTransportLola.sendValidatedZeroCopy (sent : Bool) (transport : UTransportLola)
    (native : NativeTxLoan) (buffer : LolaTxLoan U) (pool : TxLoanPool) :
    Except Fault Unit × TxLoanPool :=
  match buffer.intoNative with
  | .error e => (.error e, native.drop pool)
  | .ok () => NativeTransport.send sent transport.bridge native pool

/-- What fills the payload view of a loan. -/
def TxBuffer.fill (payload : List UInt8) : TxBuffer U → Except Fault (TxBuffer U)
  | .tx loan => (loan.fillPayload w payload).map .tx
  | .uninitTx loan => (loan.fillPayload w (payload.map some)).map .uninitTx

variable (U) in
inductive TxAction
  | build (config : LolaTransportConfig) (created : UpLolaStatusCode)
  | loan (t : ℕ) (spec : ValidatedTxLoanSpec U) (allocation : Allocation)
  | loanUninit (t : ℕ) (spec : ValidatedTxLoanSpec U) (allocation : Allocation)
  | fill (i : ℕ) (payload : List UInt8)
  | assumePayloadInit (i : ℕ)
  | drop (i : ℕ)
  /-- The loan at `i` is passed to the transport at `t`, whichever it was obtained from. -/
  | send (t i : ℕ) (sent : Bool)

variable (U) in
/-- Transports and the loans callers hold of them. -/
structure TxLoans where
  transports : List UTransportLola := []
  loans : List (LiveLoan U) := []

namespace TxLoans

/-- The transport at `t` has lent, or has failed to. -/
def lend (s : TxLoans U) (t : ℕ) (result : Except Fault (LiveLoan U) × UTransportLola) :
    TxLoans U where
  transports := s.transports.set t result.2
  loans := match result.1 with
    | .ok loan => s.loans ++ [loan]
    | .error _ => s.loans

/-- The loan at `i` is gone, and this is what is left of its pool. -/
def giveUp (s : TxLoans U) (i : ℕ) (loan : LiveLoan U) (owner : UTransportLola)
    (pool : TxLoanPool) : TxLoans U where
  transports := s.transports.set loan.native.pool { owner with bridge.txPool := pool }
  loans := s.loans.eraseIdx i

/-- An action that cannot be taken is one on a transport or a loan that is not there, a write past
the payload view, or the sending of bytes that were never written. -/
def step (s : TxLoans U) : TxAction U → Option (TxLoans U)
  | .build config created => do
    let transport ← (UTransportLola.build created config s.transports.length).toOption
    return { s with transports := s.transports ++ [transport] }
  | .loan t spec allocation => do
    let transport ← s.transports[t]?
    return s.lend t (transport.loanValidatedTx w allocation spec)
  | .loanUninit t spec allocation => do
    let transport ← s.transports[t]?
    return s.lend t (transport.loanValidatedUninitTx w allocation spec)
  | .fill i payload => do
    let loan ← s.loans[i]?
    let buffer ← (loan.buffer.fill w payload).toOption
    return { s with loans := s.loans.set i { loan with buffer } }
  | .assumePayloadInit i => do
    let loan ← s.loans[i]?
    let .uninitTx uninit := loan.buffer | none
    let tx ← uninit.assumePayloadInit
    return { s with loans := s.loans.set i { loan with buffer := .tx tx } }
  | .drop i => do
    let loan ← s.loans[i]?
    let owner ← s.transports[loan.native.pool]?
    return s.giveUp i loan owner (loan.native.drop owner.bridge.txPool)
  | .send t i sent => do
    let loan ← s.loans[i]?
    let owner ← s.transports[loan.native.pool]?
    let transport ← s.transports[t]?
    let .tx buffer := loan.buffer | none
    return s.giveUp i loan owner
      (transport.sendValidatedZeroCopy sent loan.native buffer owner.bridge.txPool).2

end TxLoans

end LolaTransport
