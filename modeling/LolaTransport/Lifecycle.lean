import LolaTransport.Bridge
import LolaTransport.Lib.Objects

/-!
# What the bridge makes of S-CORE

Transports and subscribers are made and destroyed, and discover their events, while the process goes
on; the first of them that is given a configuration of S-CORE's runtime starts it.  Of S-CORE the
model has the proxies and the skeletons that there are, of which the bridge has to close what it has
opened, and must not use what it has destroyed.  A proxy is open while its event is subscribed to,
and a skeleton while its service is offered.  What comes of discovery here is what `Bridge` has as
an argument.
-/

namespace LolaTransport

open Objects

/-- What S-CORE and the file system answer while a call of the bridge runs. -/
structure Answers where
  /-- Whether `InstanceSpecifier::Create` takes the name. -/
  instanceSpecifier : String → Bool
  /-- The handles that `FindService` finds, unless it fails. -/
  findService : String → Option (List ℕ)
  createProxy : ℕ → Bool
  /-- The events of the service of a handle. -/
  proxyEvents : ℕ → List String
  /-- Whether a proxy's event can be subscribed to for so many samples. -/
  subscribe : ℕ → String → ℕ → Bool
  /-- Whether there can be a skeleton with an event of this name, size and alignment. -/
  createSkeleton : String → String → ℕ → ℕ → Bool
  skeletonEvents : List String
  offerService : Bool
  readable : String → Bool
  writable : String → Bool
  tmpdir : Option String
  pid : ℕ

namespace Lifecycle

/-! ## The runtime -/

/-- What the process has of the runtime: what it was initialized with, and the environment variable
`MW_LOG_CONFIG_FILE`. -/
structure Runtime where
  initialized : Bool := false
  runtimeConfigurations : List String := []
  logConfigFile : Option String := none
  deriving DecidableEq, Repr

/-- The `logging.json` beside the configuration, if it can be read. -/
def siblingLoggingConfigPath (answers : Answers) (configPath : String) : Option String :=
  if configPath.isEmpty then none
  else
    let directory := (configPath.toList.reverse.dropWhile fun c => c ≠ '/' && c ≠ '\\').reverse
    let loggingPath := String.ofList directory ++ "logging.json"
    if answers.readable loggingPath then some loggingPath else none

def writeDefaultLoggingConfig (answers : Answers) : Option String :=
  let tmpdir :=
    match answers.tmpdir with
    | some dir => if dir.isEmpty then "/tmp" else dir
    | none => "/tmp"
  let separator := if tmpdir.toList.getLast? = some '/' then "" else "/"
  let loggingPath := tmpdir ++ separator ++ "up_lola_logging_" ++ toString answers.pid ++ ".json"
  if answers.writable loggingPath then some loggingPath else none

/-- `setenv` without overwriting. -/
def Runtime.setLogConfigFile (path : String) (runtime : Runtime) : Runtime :=
  if runtime.logConfigFile.isSome then runtime else { runtime with logConfigFile := some path }

def configureLogging (answers : Answers) (configPath : String) (runtime : Runtime) : Runtime :=
  if runtime.logConfigFile.any fun existing => !existing.isEmpty then runtime
  else
    let loggingPath :=
      match siblingLoggingConfigPath answers configPath with
      | some path => some path
      | none => writeDefaultLoggingConfig answers
    match loggingPath with
    | some path => runtime.setLogConfigFile path
    | none => runtime

def initializeRuntimeOnce (answers : Answers) (configPath : String) (runtime : Runtime) : Runtime :=
  if configPath.isEmpty then runtime
  else if runtime.initialized then runtime
  else
    let runtime := configureLogging answers configPath runtime
    { runtime with
      runtimeConfigurations := runtime.runtimeConfigurations ++ [configPath]
      initialized := true }

/-! ## Discovery -/

/-- What a transport and a subscriber both have to receive with.  `proxyEvent` is the proxy whose
event is pointed to, with `none` for null. -/
structure Receiving where
  instanceSpecifier : String
  eventName : String
  maxSamples : ℕ
  proxy : Option ℕ := none
  proxyEvent : Option ℕ := none
  subscribed : Bool := false
  deriving DecidableEq, Repr

/-- What is made for a configuration has discovered nothing yet. -/
def Receiving.ofConfig (config : LolaTransportConfig) : Receiving where
  instanceSpecifier := config.instanceSpecifier
  eventName := config.eventName
  maxSamples := config.maxSamples

/-- An optional is reset: the object it holds is destroyed. -/
def reset (object : Option ℕ) (ledger : Ledger) : Ledger :=
  object.elim ledger fun x => ledger.destroy x

/-- What is pointed to is used; it must be there. -/
def deref (pointer : Option ℕ) (ledger : Ledger) : Ledger :=
  pointer.elim ledger.misuse fun x => ledger.use x

/-- `ensure_proxy_locked`, which the transport and the subscriber each have. -/
def Receiving.ensureProxyLocked (answers : Answers) (proxies : Ledger) (r : Receiving) :
    UpLolaStatusCode × Ledger × Receiving :=
  if r.subscribed && r.proxyEvent.isSome then (.Ok, proxies, r)
  else if !answers.instanceSpecifier r.instanceSpecifier then (.InvalidArgument, proxies, r)
  else
    match answers.findService r.instanceSpecifier with
    | none => (.Internal, proxies, r)
    | some [] => (.NotFound, proxies, r)
    | some (handle :: _) =>
      if !answers.createProxy handle then (.Internal, proxies, r)
      else
        let made := proxies.made
        -- `emplace` destroys the proxy there was, if there was one.
        let proxies := (reset r.proxy proxies.make).inspect made
        if r.eventName ∉ answers.proxyEvents handle then
          (.NotFound, proxies.destroy made, { r with proxy := none })
        else if !answers.subscribe handle r.eventName r.maxSamples then
          (.Internal, (proxies.tryOpen made false).destroy made,
            { r with proxy := none, proxyEvent := none, subscribed := false })
        else (.Ok, proxies.tryOpen made true,
          { r with proxy := some made, proxyEvent := some made, subscribed := true })

/-- What `up_lola_transport_receive` and `up_lola_subscriber_receive` make of S-CORE: once the proxy
is there, `GetNewSamples` is called on its event. -/
def Receiving.receive (answers : Answers) (proxies : Ledger) (r : Receiving) :
    UpLolaStatusCode × Ledger × Receiving :=
  let (proxyStatus, proxies, r) := r.ensureProxyLocked answers proxies
  if proxyStatus ≠ .Ok then (proxyStatus, proxies, r)
  else (.Ok, deref r.proxyEvent proxies, r)

/-- What is called before a transport or a subscriber is deleted. -/
def Receiving.unsubscribe (proxies : Ledger) (r : Receiving) : Ledger :=
  match r.proxyEvent with
  | some event => if r.subscribed then proxies.close event else proxies
  | none => proxies

/-- The proxy goes when what has it is deleted. -/
def Receiving.delete (proxies : Ledger) (r : Receiving) : Ledger := reset r.proxy proxies

structure UpLolaSubscriber where
  receiving : Receiving
  sampleSize : ℕ
  sampleAlignment : ℕ
  deriving DecidableEq, Repr

structure UpLolaTransport where
  receiving : Receiving
  serviceType : String
  sampleSize : ℕ
  sampleAlignment : ℕ
  skeleton : Option ℕ := none
  /-- The skeleton whose event is pointed to. -/
  skeletonEvent : Option ℕ := none
  deriving DecidableEq, Repr

/-! ## The process -/

/-- The transports and the subscribers that the process has made, `none` once destroyed, and what
there is of S-CORE. -/
structure Process where
  runtime : Runtime := {}
  proxies : Ledger := {}
  skeletons : Ledger := {}
  transports : List (Option UpLolaTransport) := []
  subscribers : List (Option UpLolaSubscriber) := []
  deriving DecidableEq, Repr

/-- What `up_lola_transport_create` checks first. -/
def transportConfigAccepted (config : LolaTransportConfig) : Bool :=
  !(config.sampleSize = 0 || !Bridge.isSupportedSampleAlignment config.sampleAlignment ||
    config.maxSamples = 0) &&
  !(config.instanceSpecifier.isEmpty || config.serviceType.isEmpty || config.eventName.isEmpty)

/-- The skeleton of a transport: a status, the ledger, and the skeleton that is offered. -/
def createSkeleton (answers : Answers) (config : LolaTransportConfig) (skeletons : Ledger) :
    Except UpLolaStatusCode ℕ × Ledger :=
  if !answers.instanceSpecifier config.instanceSpecifier then (.error .InvalidArgument, skeletons)
  else if !answers.createSkeleton config.instanceSpecifier config.eventName config.sampleSize
      config.sampleAlignment then (.error .Internal, skeletons)
  else
    let made := skeletons.made
    let skeletons := skeletons.make.inspect made
    -- The transport that is given up is deleted, and its skeleton with it.
    if config.eventName ∉ answers.skeletonEvents then (.error .NotFound, skeletons.destroy made)
    else if !answers.offerService then
      (.error .Internal, (skeletons.tryOpen made false).destroy made)
    else (.ok made, skeletons.tryOpen made true)

def upLolaTransportCreate (answers : Answers) (config : LolaTransportConfig) (s : Process) :
    UpLolaStatusCode × Process :=
  if !transportConfigAccepted config then (.InvalidArgument, s)
  else
    let s := { s with
      runtime := initializeRuntimeOnce answers (config.mwComConfigPath.getD "") s.runtime }
    match createSkeleton answers config s.skeletons with
    | (.error status, skeletons) => (status, { s with skeletons })
    | (.ok skeleton, skeletons) => (.Ok, { s with
        skeletons
        transports := s.transports ++ [some {
          receiving := .ofConfig config
          serviceType := config.serviceType
          sampleSize := config.sampleSize
          sampleAlignment := config.sampleAlignment
          skeleton := some skeleton
          skeletonEvent := some skeleton }] })

def upLolaTransportDestroy (transport : UpLolaTransport) (s : Process) : Process :=
  let proxies := transport.receiving.unsubscribe s.proxies
  let skeletons := transport.skeleton.elim s.skeletons fun skeleton => s.skeletons.close skeleton
  { s with
    proxies := transport.receiving.delete proxies
    skeletons := reset transport.skeleton skeletons }

/-- What `up_lola_subscriber_create` checks first. -/
def subscriberConfigAccepted (config : LolaTransportConfig) : Bool :=
  !(config.sampleSize = 0 || !Bridge.isSupportedSampleAlignment config.sampleAlignment ||
    config.maxSamples = 0) &&
  !(config.instanceSpecifier.isEmpty || config.eventName.isEmpty)

def upLolaSubscriberCreate (answers : Answers) (config : LolaTransportConfig) (s : Process) :
    UpLolaStatusCode × Process :=
  if !subscriberConfigAccepted config then (.InvalidArgument, s)
  else
    let s := { s with
      runtime := initializeRuntimeOnce answers (config.mwComConfigPath.getD "") s.runtime }
    match (Receiving.ofConfig config).ensureProxyLocked answers s.proxies with
    | (.Ok, proxies, receiving) => (.Ok, { s with
        proxies
        subscribers := s.subscribers ++ [some {
          receiving
          sampleSize := config.sampleSize
          sampleAlignment := config.sampleAlignment }] })
    | (status, proxies, receiving) => (status, { s with proxies := receiving.delete proxies })

def upLolaSubscriberDestroy (subscriber : UpLolaSubscriber) (s : Process) : Process :=
  let proxies := subscriber.receiving.unsubscribe s.proxies
  { s with proxies := subscriber.receiving.delete proxies }

/-- The calls on transports and subscribers that have not been destroyed.  A reservation and a send
both go to the skeleton's event. -/
inductive Action
  | createTransport (config : LolaTransportConfig) (answers : Answers)
  | transportTransmit (i : ℕ)
  | transportReceive (i : ℕ) (answers : Answers)
  | destroyTransport (i : ℕ)
  | createSubscriber (config : LolaTransportConfig) (answers : Answers)
  | subscriberReceive (i : ℕ) (answers : Answers)
  | destroySubscriber (i : ℕ)

def step (s : Process) : Action → Option Process
  | .createTransport config answers => some (upLolaTransportCreate answers config s).2
  | .transportTransmit i => do
    let transport ← s.transports[i]?.join
    if transport.skeletonEvent.isNone then return s
    else return { s with skeletons := deref transport.skeletonEvent s.skeletons }
  | .transportReceive i answers => do
    let transport ← s.transports[i]?.join
    let (_, proxies, receiving) := transport.receiving.receive answers s.proxies
    return { s with proxies, transports := s.transports.set i (some { transport with receiving }) }
  | .destroyTransport i => do
    let transport ← s.transports[i]?.join
    return upLolaTransportDestroy transport { s with transports := s.transports.set i none }
  | .createSubscriber config answers => some (upLolaSubscriberCreate answers config s).2
  | .subscriberReceive i answers => do
    let subscriber ← s.subscribers[i]?.join
    let (_, proxies, receiving) := subscriber.receiving.receive answers s.proxies
    return { s with
      proxies
      subscribers := s.subscribers.set i (some { subscriber with receiving }) }
  | .destroySubscriber i => do
    let subscriber ← s.subscribers[i]?.join
    return upLolaSubscriberDestroy subscriber { s with subscribers := s.subscribers.set i none }

end Lifecycle

end LolaTransport
