import LolaTransport.Config
import LolaTransport.Lib.PoolLife

/-!
# The native bridge

The calls of the C++ bridge through which the crate gets and gives back samples.  A pointer to a
sample is its address, with `0` for null, and a pointer to a slot its place in its pool; the handles
the crate passes are never null.  What S-CORE answers to a call is an argument of it.
-/

namespace LolaTransport

inductive UpLolaStatusCode
  | Ok
  | InvalidArgument
  | NotFound
  | ResourceExhausted
  | Internal
  deriving DecidableEq, Repr

namespace Bridge

/-! ## Addresses -/

/-- `alignof(std::max_align_t)`. -/
def maxAlign : ℕ := 16

def isPowerOfTwo (value : ℕ) : Bool := value ≠ 0 && value &&& (value - 1) = 0

def alignUp (w : PointerWidth) (value alignment : ℕ) : Option ℕ :=
  if !isPowerOfTwo alignment then none
  else
    let remainder := value % alignment
    if remainder = 0 then some value
    else
      let padding := alignment - remainder
      if value > usizeMax w - padding then none
      else some ((value + padding) % 2 ^ w.bits)

def isSupportedSampleAlignment (alignment : ℕ) : Bool :=
  isPowerOfTwo alignment && alignment ≤ maxAlign

def pointerIsAligned (ptr alignment : ℕ) : Bool :=
  if ptr = 0 || !isSupportedSampleAlignment alignment then false
  else ptr % alignment = 0

def checkedMultiply (w : PointerWidth) (lhs rhs : ℕ) : Option ℕ :=
  if lhs ≠ 0 && rhs > usizeMax w / lhs then none
  else some (lhs * rhs % 2 ^ w.bits)

/-- `SampleAllocateePtr<void>`: the pointer it holds, and the slot of a sample that the LoLa binding
allocated.  It converts to `true` unless the pointer is null. -/
structure SampleAllocateePtr where
  get : ℕ := 0
  referencedSlot : Option ℕ := none
  deriving DecidableEq, Repr

/-- The address of the raw slot of a loaned sample, or null.  `storageData` is what
`EventDataStorage::data()` returns for the storage at an address. -/
def genericSampleData (w : PointerWidth) (storageData : ℕ → ℕ) (sample : SampleAllocateePtr)
    (sampleSize sampleAlignment maxSamples : ℕ) : ℕ :=
  let skeletonSamplePtr := sample.get
  if skeletonSamplePtr = 0 || sampleSize = 0 || maxSamples = 0 ||
      !isSupportedSampleAlignment sampleAlignment then 0
  else
    match sample.referencedSlot with
    | none => if pointerIsAligned skeletonSamplePtr sampleAlignment then skeletonSamplePtr else 0
    | some slotIndex =>
      match alignUp w sampleSize sampleAlignment with
      | none => 0
      | some alignedSampleSize =>
        match checkedMultiply w alignedSampleSize maxSamples with
        | none => 0
        | some totalStorageSize =>
          if slotIndex ≥ maxSamples || slotIndex > usizeMax w / alignedSampleSize then 0
          else
            let slotOffset := slotIndex * alignedSampleSize % 2 ^ w.bits
            if slotOffset > totalStorageSize || sampleSize > totalStorageSize - slotOffset then 0
            else if skeletonSamplePtr < slotOffset then 0
            else
              let rawSlots := storageData (skeletonSamplePtr - slotOffset)
              if rawSlots = 0 then 0
              else if slotOffset > usizeMax w - rawSlots then 0
              else
                let rawSlot := (rawSlots + slotOffset) % 2 ^ w.bits
                if pointerIsAligned rawSlot sampleAlignment then rawSlot else 0

/-! ## Pools -/

/-- What a slot of a pool holds: a sample, its address and its size. -/
structure Held (P : Type) where
  sample : P
  sampleData : ℕ := 0
  sampleSize : ℕ := 0

/-- What `acquire` makes of a slot: the sample it holds stays. -/
def Held.reset {P : Type} (held : Held P) : Held P := { held with sampleData := 0, sampleSize := 0 }

abbrev TxLoanPool := SlotPool.Pool (Held SampleAllocateePtr)

def TxLoanPool.acquire (pool : TxLoanPool) : Option (ℕ × TxLoanPool) :=
  SlotPool.Pool.acquire Held.reset pool

def TxLoanPool.release (loan : ℕ) (pool : TxLoanPool) : TxLoanPool :=
  SlotPool.Pool.release { sample := {} } loan pool

/-- `SamplePtr<void>`: where a received sample lies, and its bytes.  It converts to `true` unless
the pointer is null. -/
structure SamplePtr where
  get : ℕ
  bytes : List UInt8
  deriving DecidableEq, Repr

/-- The pool of received samples, each with a number that no code looks at. -/
abbrev RxSamplePool := SlotPool.Pool (Held (Option (ℕ × SamplePtr)))

def RxSamplePool.acquire (pool : RxSamplePool) : Option (ℕ × RxSamplePool) :=
  SlotPool.Pool.acquire Held.reset pool

def RxSamplePool.release (sample : ℕ) (pool : RxSamplePool) : RxSamplePool :=
  SlotPool.Pool.release { sample := none } sample pool

/-- A pool that has just been made, with the transport it is for. -/
def TxLoanPool.life (id capacity : ℕ) : SlotPool.Life (Held SampleAllocateePtr) where
  pool := .new id capacity { sample := {} }

/-- One step of what the transport, the holders of loans and the calls that give back loans do to
the pool. -/
def TxLoanPool.step : SlotPool.Life (Held SampleAllocateePtr) →
    SlotPool.LifeAction (Held SampleAllocateePtr) →
      Option (SlotPool.Life (Held SampleAllocateePtr)) :=
  SlotPool.Life.step Held.reset { sample := {} }

/-- A pool that has just been made, with the subscriber, or the transport, it is for. -/
def RxSamplePool.life (id capacity : ℕ) : SlotPool.Life (Held (Option (ℕ × SamplePtr))) where
  pool := .new id capacity { sample := none }

def RxSamplePool.step : SlotPool.Life (Held (Option (ℕ × SamplePtr))) →
    SlotPool.LifeAction (Held (Option (ℕ × SamplePtr))) →
      Option (SlotPool.Life (Held (Option (ℕ × SamplePtr)))) :=
  SlotPool.Life.step Held.reset { sample := none }

/-! ## Transmitting -/

structure UpLolaTransport where
  sampleSize : ℕ
  sampleAlignment : ℕ
  maxSamples : ℕ
  txPool : TxLoanPool

/-- `up_lola_transport_create`, of which `created` is what S-CORE makes of a configuration that is
acceptable; `id` tells the transport's pool from others. -/
def upLolaTransportCreate (created : UpLolaStatusCode) (config : LolaTransportConfig) (id : ℕ) :
    Except UpLolaStatusCode UpLolaTransport :=
  if config.sampleSize = 0 || !isSupportedSampleAlignment config.sampleAlignment ||
      config.maxSamples = 0 then .error .InvalidArgument
  else if config.instanceSpecifier.isEmpty || config.serviceType.isEmpty ||
      config.eventName.isEmpty then .error .InvalidArgument
  else if created ≠ .Ok then .error created
  else .ok {
    sampleSize := config.sampleSize
    sampleAlignment := config.sampleAlignment
    maxSamples := config.maxSamples
    txPool := .new id config.maxSamples { sample := {} } }

/-- What S-CORE answers to `Allocate()`, if it does, and where it keeps its storage. -/
structure Allocation where
  sample : Option SampleAllocateePtr
  storageData : ℕ → ℕ

/-- `up_lola_transport_reserve`: a status, or the loan. -/
def upLolaTransportReserve (w : PointerWidth) (allocation : Allocation)
    (transport : UpLolaTransport) : Except UpLolaStatusCode ℕ × UpLolaTransport :=
  match TxLoanPool.acquire transport.txPool with
  | none => (.error .ResourceExhausted, transport)
  | some (loan, pool) =>
    match allocation.sample with
    | none => (.error .ResourceExhausted, { transport with txPool := TxLoanPool.release loan pool })
    | some sample =>
      let sampleData := genericSampleData w allocation.storageData sample transport.sampleSize
        transport.sampleAlignment transport.maxSamples
      let pool := pool.update loan fun _ =>
        { sample, sampleData, sampleSize := transport.sampleSize }
      if sampleData = 0 then
        (.error .Internal, { transport with txPool := TxLoanPool.release loan pool })
      else (.ok loan, { transport with txPool := pool })

def upLolaTxLoanData (pool : TxLoanPool) (loan : ℕ) : ℕ :=
  match pool.slots[loan]? with
  | none => 0
  | some slot =>
    if !slot.inUse || slot.content.sampleData = 0 || slot.content.sample.get = 0 then 0
    else slot.content.sampleData

def upLolaTxLoanSize (pool : TxLoanPool) (loan : ℕ) : ℕ :=
  match pool.slots[loan]? with
  | none => 0
  | some slot => if !slot.inUse then 0 else slot.content.sampleSize

/-- `up_lola_tx_loan_destroy` of the loan at this place of its pool. -/
def upLolaTxLoanDestroy (pool : TxLoanPool) (loan : ℕ) : TxLoanPool :=
  match pool.slots[loan]? with
  | none => pool
  | some slot => if slot.pool = none then pool else TxLoanPool.release loan pool

/-- `up_lola_transport_send` of a loan, and the pool the loan lies in afterwards; `sent` is whether
S-CORE could send it. -/
def upLolaTransportSend (sent : Bool) (transport : UpLolaTransport) (pool : TxLoanPool)
    (loan : ℕ) : UpLolaStatusCode × TxLoanPool :=
  match pool.slots[loan]? with
  | none => (.InvalidArgument, pool)
  | some slot =>
    if !slot.inUse || slot.pool ≠ some transport.txPool.id || slot.content.sampleData = 0 ||
        slot.content.sample.get = 0 then (.InvalidArgument, pool)
    else (if sent then .Ok else .Internal, TxLoanPool.release loan pool)

/-! ## Receiving -/

structure UpLolaSubscriber where
  sampleSize : ℕ
  sampleAlignment : ℕ
  maxSamples : ℕ
  rxPool : RxSamplePool
  subscribed : Bool := false

/-- `ensure_proxy_locked`, of which `found` is what discovery and subscription come to. -/
def ensureProxyLocked (found : UpLolaStatusCode) (subscriber : UpLolaSubscriber) :
    UpLolaStatusCode × UpLolaSubscriber :=
  if subscriber.subscribed then (.Ok, subscriber)
  else if found ≠ .Ok then (found, subscriber)
  else (.Ok, { subscriber with subscribed := true })

def upLolaSubscriberCreate (found : UpLolaStatusCode) (config : LolaTransportConfig) :
    Except UpLolaStatusCode UpLolaSubscriber :=
  if config.sampleSize = 0 || !isSupportedSampleAlignment config.sampleAlignment ||
      config.maxSamples = 0 then .error .InvalidArgument
  else if config.instanceSpecifier.isEmpty || config.eventName.isEmpty then
    .error .InvalidArgument
  else
    match ensureProxyLocked found {
      sampleSize := config.sampleSize
      sampleAlignment := config.sampleAlignment
      maxSamples := config.maxSamples
      rxPool := .new 0 config.maxSamples { sample := none } } with
    | (.Ok, subscriber) => .ok subscriber
    | (status, _) => .error status

/-- What `GetNewSamples(callback, 1)` hands over and what it leaves, unless it fails. -/
def getNewSamples (works : Bool) (undelivered : List (ℕ × SamplePtr)) :
    Option (Option (ℕ × SamplePtr)) × List (ℕ × SamplePtr) :=
  if works then (some undelivered.head?, undelivered.tail) else (none, undelivered)

/-- `up_lola_subscriber_receive`: a status or the sample, and what is left undelivered. -/
def upLolaSubscriberReceive (found : UpLolaStatusCode) (works : Bool)
    (undelivered : List (ℕ × SamplePtr)) (subscriber : UpLolaSubscriber) :
    Except UpLolaStatusCode ℕ × List (ℕ × SamplePtr) × UpLolaSubscriber :=
  let (proxyStatus, subscriber) := ensureProxyLocked found subscriber
  if proxyStatus ≠ .Ok then (.error proxyStatus, undelivered, subscriber)
  else
    match getNewSamples works undelivered with
    | (none, undelivered) => (.error .Internal, undelivered, subscriber)
    | (some none, undelivered) => (.error .NotFound, undelivered, subscriber)
    | (some (some received), undelivered) =>
      if received.2.get = 0 then (.error .NotFound, undelivered, subscriber)
      else
        match RxSamplePool.acquire subscriber.rxPool with
        | none => (.error .ResourceExhausted, undelivered, subscriber)
        | some (sample, pool) =>
          let pool := pool.update sample fun _ => {
            sample := some received
            sampleData := received.2.get
            sampleSize := subscriber.sampleSize }
          if received.2.get = 0 || !pointerIsAligned received.2.get subscriber.sampleAlignment then
            (.error .Internal, undelivered,
              { subscriber with rxPool := RxSamplePool.release sample pool })
          else (.ok sample, undelivered, { subscriber with rxPool := pool })

def upLolaRxSampleData (pool : RxSamplePool) (sample : ℕ) : ℕ :=
  match pool.slots[sample]? with
  | none => 0
  | some slot =>
    if !slot.inUse || slot.content.sampleData = 0 || slot.content.sample.all (·.2.get = 0) then 0
    else slot.content.sampleData

def upLolaRxSampleSize (pool : RxSamplePool) (sample : ℕ) : ℕ :=
  match pool.slots[sample]? with
  | none => 0
  | some slot => if !slot.inUse then 0 else slot.content.sampleSize

/-- `up_lola_rx_sample_destroy` of the sample at this place of its pool. -/
def upLolaRxSampleDestroy (pool : RxSamplePool) (sample : ℕ) : RxSamplePool :=
  match pool.slots[sample]? with
  | none => pool
  | some slot => if slot.pool = none then pool else RxSamplePool.release sample pool

end Bridge

end LolaTransport
