import LolaTransport.UpRust

/-!
# An `up-rust` that is its own text

A URI that is its text, an id that is its two halves, and numbers that stand for themselves: the
smallest `UpRust` with everything the crate relies on.  The runs in the proofs are over it.
-/

namespace LolaTransport

def plainTypes : UpTypes where
  UUID := UInt64 × UInt64
  UUri := { text : String // text ≠ "" }
  UPayloadFormat := UInt8
  CustomPayloadEncoding := String × String
  CommStatus := UInt8

def plainUpRust : UpRust where
  toUpTypes := plainTypes
  msb id := id.1
  lsb id := id.2
  fromU64Pair msb lsb := .ok (msb, lsb)
  toUri u _ := u.1
  uriTryFrom text := if h : text ≠ "" then .ok ⟨text, h⟩ else .error "empty URI"
  uriMatches filter u := filter.1 == u.1
  formatValue f := f
  formatFromU8 b := some b
  customId c := c.1
  customContentType c := c.2
  tryCustom id contentType := .ok (.Custom (id, contentType))
  codeAsU8 c := c
  codeFromU8 b := some b
  validateFrameView _ _ := .ok ()

instance : DecidableEq plainUpRust.UUri :=
  inferInstanceAs (DecidableEq { text : String // text ≠ "" })

theorem plainUpRust_lawful : plainUpRust.Lawful where
  uuid_rebuilt _ := rfl
  uri_rebuilt u := dif_pos u.2
  uri_text_ne u := u.2
  format_rebuilt _ := rfl
  custom_rebuilt _ := rfl
  code_rebuilt _ := rfl

theorem plainUpRust_rejectsAsInvalid : plainUpRust.RejectsAsInvalid :=
  fun _ _ _ h => by cases h

def topicA : plainUpRust.UUri := ⟨"a", by decide⟩

def topicB : plainUpRust.UUri := ⟨"b", by decide⟩

/-- A publication from `topic`. -/
def plainMetadata (topic : plainUpRust.UUri) : UFrameMetadata plainUpRust.toUpTypes where
  attributes :=
    { id := ((0, 0) : UInt64 × UInt64), source := topic, sink := none
      messageType := .Publish, priority := .CS1 }
  encoding := some (.Standard (0 : UInt8))

end LolaTransport
