import LolaTransport.Status

/-!
# What the crate uses of `up-rust`

The types and functions of `up-rust` that the codec and the receive path call are the fields of
`UpRust`; the metadata of a frame is built from its types.  What the crate relies on is `Lawful`:
printing and parsing a URI, taking an id apart and rebuilding it, and numbering formats and codes
are each undone by the constructor the decoder calls.  `Stores` is the other way round, for all but
URIs, of which there are many spellings.
-/

namespace LolaTransport

structure UpTypes where
  UUID : Type
  UUri : Type
  UPayloadFormat : Type
  CustomPayloadEncoding : Type
  /-- `UCode`, as `commstatus` carries it. -/
  CommStatus : Type

inductive UMessageType
  | Publish
  | Notification
  | Request
  | Response
  deriving DecidableEq, Repr

inductive UPriority
  | CS0
  | CS1
  | CS2
  | CS3
  | CS4
  | CS5
  | CS6
  deriving DecidableEq, Repr

inductive PayloadEncoding (T : UpTypes)
  | Standard (format : T.UPayloadFormat)
  | Custom (custom : T.CustomPayloadEncoding)

structure UAttributes (T : UpTypes) where
  id : T.UUID
  source : T.UUri
  sink : Option T.UUri
  messageType : UMessageType
  priority : UPriority
  ttl : Option UInt32 := none
  requestId : Option T.UUID := none
  traceparent : Option String := none
  token : Option String := none
  permissionLevel : Option UInt32 := none
  commstatus : Option T.CommStatus := none

structure UFrameMetadata (T : UpTypes) where
  attributes : UAttributes T
  encoding : Option (PayloadEncoding T)

/-- The functions of `up-rust` the crate calls; an error is its `Display` text. -/
structure UpRust extends UpTypes where
  msb : UUID → UInt64
  lsb : UUID → UInt64
  fromU64Pair : UInt64 → UInt64 → Except String UUID
  /-- `UUri::to_uri(include_scheme)`. -/
  toUri : UUri → Bool → String
  uriTryFrom : String → Except String UUri
  /-- `filter.matches(uri)`. -/
  uriMatches : UUri → UUri → Bool
  formatValue : UPayloadFormat → UInt8
  formatFromU8 : UInt8 → Option UPayloadFormat
  customId : CustomPayloadEncoding → String
  customContentType : CustomPayloadEncoding → String
  tryCustom : String → String → Except String (PayloadEncoding toUpTypes)
  codeAsU8 : CommStatus → UInt8
  codeFromU8 : UInt8 → Option CommStatus
  /-- `validate_frame_view_for_transport`, of a frame's metadata and payload. -/
  validateFrameView : UFrameMetadata toUpTypes → List UInt8 → Except UStatus Unit

namespace UpRust

/-- What the encoder writes of a value, the constructor the decoder calls turns back into it. -/
structure Lawful (U : UpRust) : Prop where
  uuid_rebuilt : ∀ id, U.fromU64Pair (U.msb id) (U.lsb id) = .ok id
  uri_rebuilt : ∀ u, U.uriTryFrom (U.toUri u false) = .ok u
  uri_text_ne : ∀ u, U.toUri u false ≠ ""
  format_rebuilt : ∀ f, U.formatFromU8 (U.formatValue f) = some f
  custom_rebuilt : ∀ c, U.tryCustom (U.customId c) (U.customContentType c) = .ok (.Custom c)
  code_rebuilt : ∀ c, U.codeFromU8 (U.codeAsU8 c) = some c

/-- What a constructor the decoder calls makes of a value, the encoder writes back as it was. -/
structure Stores (U : UpRust) : Prop where
  uuid_stored : ∀ msb lsb id, U.fromU64Pair msb lsb = .ok id → U.msb id = msb ∧ U.lsb id = lsb
  format_stored : ∀ b f, U.formatFromU8 b = some f → U.formatValue f = b
  custom_stored : ∀ id contentType e, U.tryCustom id contentType = .ok e →
    ∃ c, e = .Custom c ∧ U.customId c = id ∧ U.customContentType c = contentType
  code_stored : ∀ b c, U.codeFromU8 b = some c → U.codeAsU8 c = b

/-- A frame view that is not fit for transport is an invalid argument. -/
def RejectsAsInvalid (U : UpRust) : Prop :=
  ∀ m p e, U.validateFrameView m p = .error e → e.code = .INVALID_ARGUMENT

end UpRust

end LolaTransport
