import LolaTransport.Lib.Bytes
import LolaTransport.Lib.Reader
import LolaTransport.UpRust

/-!
# The metadata codec

`encodeMetadata` appends the fields of a frame's metadata to a buffer in a fixed order;
`decodeMetadata` takes them off the front of its input in the same order and accepts only an
input it has used up.  Numbers are little-endian, a string is its length as a `u32` and its UTF-8
bytes, an optional field is a flag byte and the field when the flag is 1.  The sink is the
exception: it is a string, and the empty string is its absence.
-/

namespace LolaTransport

variable (U : UpRust)

/-! ## Strings -/

/-- `str::as_bytes`. -/
def asBytes (s : String) : List UInt8 := s.toUTF8.data.toList

/-- `String::from_utf8`. -/
def fromUtf8 (bytes : List UInt8) : Option String := String.fromUTF8? ⟨bytes.toArray⟩

/-! ## Encoding -/

def invalidMetadata (message : String) : Fault := failWithCode .INVALID_ARGUMENT message

def messageTypeToByte : UMessageType → UInt8
  | .Publish => 1
  | .Notification => 2
  | .Request => 3
  | .Response => 4

def priorityToByte : UPriority → UInt8
  | .CS0 => 0
  | .CS1 => 1
  | .CS2 => 2
  | .CS3 => 3
  | .CS4 => 4
  | .CS5 => 5
  | .CS6 => 6

def u32ToLeBytes (value : UInt32) : List UInt8 := Bytes.le 4 value.toNat

def u64ToLeBytes (value : UInt64) : List UInt8 := Bytes.le 8 value.toNat

def writeU64 (dst : List UInt8) (value : UInt64) : List UInt8 := dst ++ u64ToLeBytes value

/-- The flag byte 1 and the value, or the flag byte 0. -/
def writeOptional {α : Type} (write : List UInt8 → α → List UInt8) (dst : List UInt8) :
    Option α → List UInt8
  | some value => write (dst ++ [1]) value
  | none => dst ++ [0]

def writeOptionalU32 (dst : List UInt8) (value : Option UInt32) : List UInt8 :=
  writeOptional (fun dst value => dst ++ u32ToLeBytes value) dst value

def writeOptionalUuid (dst : List UInt8) (value : Option U.UUID) : List UInt8 :=
  writeOptional (fun dst value => writeU64 (writeU64 dst (U.msb value)) (U.lsb value)) dst value

def writeOptionalCode (dst : List UInt8) (value : Option U.CommStatus) : List UInt8 :=
  writeOptional (fun dst value => dst ++ [U.codeAsU8 value]) dst value

def appendString (dst : List UInt8) (value : String) : Except Fault (List UInt8) := do
  let len ← okOr (u32TryFrom (asBytes value).length) .INVALID_ARGUMENT
    "LoLa metadata field is too large"
  return dst ++ u32ToLeBytes len ++ asBytes value

def writeOptionalString (dst : List UInt8) (value : Option String) :
    Except Fault (List UInt8) :=
  match value with
  | some value => appendString (dst ++ [1]) value
  | none => .ok (dst ++ [0])

def encodePayloadEncoding (bytes : List UInt8) (encoding : PayloadEncoding U.toUpTypes) :
    Except Fault (List UInt8) :=
  match encoding with
  | .Standard format => .ok (bytes ++ [0] ++ [U.formatValue format])
  | .Custom custom => do
    let bytes ← appendString (bytes ++ [1]) (U.customId custom)
    appendString bytes (U.customContentType custom)

/-- The presence flag of `metadata.encoding()`, and the encoding. -/
def writeEncoding (bytes : List UInt8) (encoding : Option (PayloadEncoding U.toUpTypes)) :
    Except Fault (List UInt8) :=
  match encoding with
  | some encoding => encodePayloadEncoding U (bytes ++ [1]) encoding
  | none => .ok (bytes ++ [0])

def encodeMetadata (metadata : UFrameMetadata U.toUpTypes) : Except Fault (List UInt8) := do
  let attributes := metadata.attributes
  let bytes := writeU64 [] (U.msb attributes.id)
  let bytes := writeU64 bytes (U.lsb attributes.id)
  let bytes := bytes ++ [messageTypeToByte attributes.messageType]
  let bytes := bytes ++ [priorityToByte attributes.priority]
  let bytes := writeOptionalU32 bytes attributes.ttl
  let bytes ← appendString bytes (U.toUri attributes.source false)
  let bytes ← appendString bytes ((attributes.sink.map (U.toUri · false)).getD "")
  let bytes ← writeEncoding U bytes metadata.encoding
  let bytes := writeOptionalUuid U bytes attributes.requestId
  let bytes ← writeOptionalString bytes attributes.traceparent
  let bytes ← writeOptionalString bytes attributes.token
  let bytes := writeOptionalU32 bytes attributes.permissionLevel
  return writeOptionalCode U bytes attributes.commstatus

/-! ## Decoding -/

/-- A decoding step: it takes bytes off the front of the input, or fails. -/
abbrev Take (α : Type) := Reader UInt8 Fault α

/-- `slice::split_at`, which panics past the end. -/
def splitAtOrPanic (src : List UInt8) (mid : ℕ) : Except Fault (List UInt8 × List UInt8) :=
  if mid ≤ src.length then .ok (src.take mid, src.drop mid) else .error .panicked

/-- `try_into().expect("slice length")`, of a slice into an array of `len` bytes. -/
def expectLen (len : ℕ) (bytes : List UInt8) : Except Fault (List UInt8) :=
  if bytes.length = len then .ok bytes else .error .panicked

/-- `map_err` of an `up-rust` error into an invalid argument. -/
def orInvalid {α : Type} (what : String) : Except String α → Except Fault α
  | .ok a => .ok a
  | .error err => .error (invalidMetadata s!"{what}: {err}")

def takeU8 : Take UInt8 := fun src =>
  match src with
  | value :: remaining => .ok (value, remaining)
  | [] => .error (failWithCode .INVALID_ARGUMENT "invalid LoLa metadata")

def takeBytes (len : ℕ) : Take (List UInt8) := fun src =>
  if src.length < len then .error (failWithCode .INVALID_ARGUMENT "invalid LoLa metadata")
  else splitAtOrPanic src len

def takeU64 : Take UInt64 := do
  let bytes ← takeBytes 8
  let bytes ← expectLen 8 bytes
  return UInt64.ofNat (Bytes.ofLe bytes)

def takeU32 : Take UInt32 := do
  let bytes ← takeBytes 4
  let bytes ← expectLen 4 bytes
  return UInt32.ofNat (Bytes.ofLe bytes)

/-- Nothing after the flag byte 0, the value after the flag byte 1. -/
def takeOptional {α : Type} (take : Take α) : Take (Option α) := do
  match ← takeU8 with
  | 0 => return none
  | 1 => return some (← take)
  | _ => throw (failWithCode .INVALID_ARGUMENT "invalid optional LoLa metadata value")

/-- A string's length is a `u32` that `usize::try_from` takes on either width. -/
def takeString (w : PointerWidth) : Take String := do
  let len ← takeU32
  let len ← okOr (if len.toNat ≤ usizeMax w then some len.toNat else none) .INVALID_ARGUMENT
    "invalid LoLa string length"
  let bytes ← takeBytes len
  okOr (fromUtf8 bytes) .INVALID_ARGUMENT "invalid LoLa metadata string"

def takeUuid : Take U.UUID := do
  let msb ← takeU64
  let lsb ← takeU64
  orInvalid "invalid LoLa UUID" (U.fromU64Pair msb lsb)

def takeOptionalU32 : Take (Option UInt32) := takeOptional takeU32

def takeOptionalUuid : Take (Option U.UUID) := takeOptional (takeUuid U)

def takeOptionalString (w : PointerWidth) : Take (Option String) := takeOptional (takeString w)

def takeOptionalCode : Take (Option U.CommStatus) :=
  takeOptional do
    let value ← takeU8
    okOr (U.codeFromU8 value) .INVALID_ARGUMENT "invalid LoLa status code"

def byteToMessageType (value : UInt8) : Except Fault UMessageType :=
  match value with
  | 1 => .ok .Publish
  | 2 => .ok .Notification
  | 3 => .ok .Request
  | 4 => .ok .Response
  | _ => .error (failWithCode .INVALID_ARGUMENT "invalid LoLa message type")

def byteToPriority (value : UInt8) : Except Fault UPriority :=
  match value with
  | 0 => .ok .CS0
  | 1 => .ok .CS1
  | 2 => .ok .CS2
  | 3 => .ok .CS3
  | 4 => .ok .CS4
  | 5 => .ok .CS5
  | 6 => .ok .CS6
  | _ => .error (failWithCode .INVALID_ARGUMENT "invalid LoLa priority")

def decodePayloadEncoding (w : PointerWidth) : Take (PayloadEncoding U.toUpTypes) := do
  match ← takeU8 with
  | 0 =>
    let value ← takeU8
    let format ← okOr (U.formatFromU8 value) .INVALID_ARGUMENT
      s!"invalid LoLa payload format {value}"
    return .Standard format
  | 1 =>
    let id ← takeString w
    let contentType ← takeString w
    orInvalid "invalid LoLa custom payload encoding" (U.tryCustom id contentType)
  | _ => throw (invalidMetadata "invalid LoLa payload encoding kind")

/-- The sink's text, or no sink when the text is empty. -/
def takeSink (w : PointerWidth) : Take (Option U.UUri) := do
  let sink ← takeString w
  if sink.isEmpty then return none
  else return some (← orInvalid "invalid LoLa sink URI" (U.uriTryFrom sink))

def takeEncoding (w : PointerWidth) : Take (Option (PayloadEncoding U.toUpTypes)) := do
  match ← takeU8 with
  | 0 => return none
  | 1 => return some (← decodePayloadEncoding U w)
  | _ => throw (failWithCode .INVALID_ARGUMENT "invalid LoLa payload encoding presence flag")

/-- The fields of `decode_metadata`, up to its check for trailing bytes.  The builder calls on
`UAttributes` set exactly the optional attributes that were read. -/
def takeMetadata (w : PointerWidth) : Take (UFrameMetadata U.toUpTypes) := do
  let id ← takeUuid U
  let messageType ← byteToMessageType (← takeU8)
  let priority ← byteToPriority (← takeU8)
  let ttl ← takeOptionalU32
  let sourceString ← takeString w
  let source ← orInvalid "invalid LoLa source URI" (U.uriTryFrom sourceString)
  let sink ← takeSink U w
  let encoding ← takeEncoding U w
  let requestId ← takeOptionalUuid U
  let traceparent ← takeOptionalString w
  let token ← takeOptionalString w
  let permissionLevel ← takeOptionalU32
  let commstatus ← takeOptionalCode U
  return ⟨{ id, source, sink, messageType, priority, ttl, requestId, traceparent, token,
            permissionLevel, commstatus }, encoding⟩

def decodeMetadata (w : PointerWidth) (bytes : List UInt8) :
    Except Fault (UFrameMetadata U.toUpTypes) := do
  let (metadata, remaining) ← takeMetadata U w bytes
  if !remaining.isEmpty then
    throw (failWithCode .INVALID_ARGUMENT "trailing LoLa metadata bytes")
  return metadata

end LolaTransport
