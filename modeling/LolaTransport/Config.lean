import LolaTransport.Status

/-!
# Configuration

`LolaTransportConfig` and the checks it must pass before a transport is built from it.
-/

namespace LolaTransport

/-- What a pull receive does with a mismatched sample when the queue is full. -/
inductive LolaPullMismatchQueueFullPolicy
  | DropOldestAndReport
  | RejectNewestAndReport
  deriving DecidableEq, Repr

structure LolaTransportConfig where
  localAuthority : String
  instanceSpecifier : String
  serviceType : String
  eventName : String
  sampleSize : ℕ
  sampleAlignment : ℕ
  maxSamples : ℕ
  pullMismatchQueueCapacity : ℕ := 64
  pullMismatchQueueFullPolicy : LolaPullMismatchQueueFullPolicy := .DropOldestAndReport
  mwComConfigPath : Option String := none
  deriving DecidableEq, Repr

def validateNonEmpty (field value : String) : Except Fault Unit :=
  if value.isEmpty then
    .error (failWithCode .INVALID_ARGUMENT s!"LoLa {field} must be non-empty")
  else .ok ()

def LolaTransportConfig.validate (config : LolaTransportConfig) : Except Fault Unit := do
  validateNonEmpty "local_authority" config.localAuthority
  validateNonEmpty "instance_specifier" config.instanceSpecifier
  validateNonEmpty "service_type" config.serviceType
  validateNonEmpty "event_name" config.eventName
  if config.sampleSize = 0 then
    throw (failWithCode .INVALID_ARGUMENT "LoLa sample_size must be greater than zero")
  if config.sampleAlignment = 0 || !isPowerOfTwo config.sampleAlignment then
    throw (failWithCode .INVALID_ARGUMENT
      "LoLa sample_alignment must be a non-zero power of two")
  if config.maxSamples = 0 then
    throw (failWithCode .INVALID_ARGUMENT "LoLa max_samples must be greater than zero")

end LolaTransport
