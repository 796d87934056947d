import LolaTransport.Lib.Fallible
import LolaTransport.Metadata

/-!
# Decoding undoes encoding

Each decoding step takes exactly what the encoder wrote for its field and returns the field
(`Reads`), whatever follows, so the steps in the encoder's order take the encoder's whole output.
A successful encoding is `metadataBytes`, the fields' bytes one after another
(`encodeMetadata_eq_ok`).
-/

namespace LolaTransport

open Reader (Reads)
open Fallible (bind_eq_ok)

variable {U : UpRust} {w : PointerWidth}

section Strings

@[simp] theorem fromUtf8_asBytes (s : String) : fromUtf8 (asBytes s) = some s := by
  have h : (⟨(asBytes s).toArray⟩ : ByteArray) = s.toByteArray := by
    simp [asBytes, String.toUTF8_eq_toByteArray]
  rw [fromUtf8, h, String.fromUTF8?, dif_pos s.isValidUTF8]
  rfl

@[simp] theorem length_u32ToLeBytes (v : UInt32) : (u32ToLeBytes v).length = 4 := by
  simp [u32ToLeBytes]

@[simp] theorem length_u64ToLeBytes (v : UInt64) : (u64ToLeBytes v).length = 8 := by
  simp [u64ToLeBytes]

theorem ofLe_u32ToLeBytes (v : UInt32) : UInt32.ofNat (Bytes.ofLe (u32ToLeBytes v)) = v := by
  rw [u32ToLeBytes, Bytes.ofLe_le (by have := v.toNat_lt; omega), UInt32.ofNat_toNat]

theorem ofLe_u64ToLeBytes (v : UInt64) : UInt64.ofNat (Bytes.ofLe (u64ToLeBytes v)) = v := by
  rw [u64ToLeBytes, Bytes.ofLe_le (by have := v.toNat_lt; omega), UInt64.ofNat_toNat]

/-- What `append_string` appends. -/
def stringBytes (s : String) : List UInt8 :=
  u32ToLeBytes ((u32TryFrom (asBytes s).length).getD 0) ++ asBytes s

theorem appendString_eq_ok {dst b : List UInt8} {s : String} :
    appendString dst s = .ok b ↔ (asBytes s).length ≤ u32Max ∧ b = dst ++ stringBytes s := by
  unfold appendString stringBytes
  rw [bind_eq_ok]
  constructor
  · rintro ⟨len, hlen, hb⟩
    rw [okOr_eq_ok] at hlen
    cases hb
    exact ⟨(u32TryFrom_eq_some.1 hlen).1, by simp [hlen]⟩
  · rintro ⟨hle, rfl⟩
    obtain ⟨len, hlen⟩ : ∃ len, u32TryFrom (asBytes s).length = some len := by
      simp [u32TryFrom, hle]
    exact ⟨len, okOr_eq_ok.2 hlen, by rw [hlen, Option.getD_some, ← List.append_assoc]; rfl⟩

end Strings

section Steps

theorem takeU8_reads (b : UInt8) : Reads takeU8 [b] b := fun _ => rfl

theorem takeBytes_reads (bytes : List UInt8) : Reads (takeBytes bytes.length) bytes bytes := by
  intro rest
  simp [takeBytes, splitAtOrPanic]

/-- A computation that takes nothing reads the empty list. -/
theorem lift_reads {α : Type} {x : Except Fault α} {a : α} (h : x = .ok a) :
    Reads (liftM x : Take α) [] a := by
  subst h
  exact fun _ => rfl

theorem takeU64_reads (v : UInt64) : Reads takeU64 (u64ToLeBytes v) v := by
  have hbytes := takeBytes_reads (u64ToLeBytes v)
  rw [length_u64ToLeBytes] at hbytes
  unfold takeU64
  refine hbytes.bind_nil (.nil_bind (lift_reads (a := u64ToLeBytes v) ?_) (.pure ?_))
  · simp [expectLen]
  · exact ofLe_u64ToLeBytes v

theorem takeU32_reads (v : UInt32) : Reads takeU32 (u32ToLeBytes v) v := by
  have hbytes := takeBytes_reads (u32ToLeBytes v)
  rw [length_u32ToLeBytes] at hbytes
  unfold takeU32
  refine hbytes.bind_nil (.nil_bind (lift_reads (a := u32ToLeBytes v) ?_) (.pure ?_))
  · simp [expectLen]
  · exact ofLe_u32ToLeBytes v

theorem takeString_reads (w : PointerWidth) {s : String} (h : (asBytes s).length ≤ u32Max) :
    Reads (takeString w) (stringBytes s) s := by
  obtain ⟨len, hlen⟩ : ∃ len, u32TryFrom (asBytes s).length = some len := by
    simp [u32TryFrom, h]
  have hnat := (u32TryFrom_eq_some.1 hlen).2
  have hmax := h.trans (u32Max_le_usizeMax w)
  have hbytes := takeBytes_reads (asBytes s)
  rw [stringBytes, hlen, Option.getD_some]
  unfold takeString
  refine (takeU32_reads len).bind (.nil_bind (lift_reads (a := (asBytes s).length) ?_)
    (hbytes.bind_nil (lift_reads ?_)))
  · simp [hnat, hmax, okOr]
  · simp [okOr]

/-- The flag byte 1 and the bytes of the value, or the flag byte 0. -/
def optionalBytes {α : Type} (bytes : α → List UInt8) : Option α → List UInt8
  | some value => [1] ++ bytes value
  | none => [0]

theorem takeOptional_reads {α : Type} {take : Take α} {bytes : α → List UInt8} {value : Option α}
    (h : ∀ a, value = some a → Reads take (bytes a) a) :
    Reads (takeOptional take) (optionalBytes bytes value) value := by
  unfold takeOptional optionalBytes
  cases value with
  | none => exact (takeU8_reads 0).bind_nil (.pure rfl)
  | some a => exact (takeU8_reads 1).bind ((h a rfl).bind_nil (.pure rfl))

theorem writeOptional_eq {α : Type} {write : List UInt8 → α → List UInt8}
    {bytes : α → List UInt8} (h : ∀ dst a, write dst a = dst ++ bytes a) (dst : List UInt8)
    (value : Option α) : writeOptional write dst value = dst ++ optionalBytes bytes value := by
  cases value <;> simp [writeOptional, optionalBytes, h]

theorem writeOptionalString_eq_ok {dst b : List UInt8} {value : Option String} :
    writeOptionalString dst value = .ok b ↔
      (∀ s, value = some s → (asBytes s).length ≤ u32Max) ∧
        b = dst ++ optionalBytes stringBytes value := by
  cases value with
  | none => simp [writeOptionalString, optionalBytes, eq_comm]
  | some s => simp [writeOptionalString, optionalBytes, appendString_eq_ok]

end Steps

section Fields

variable (U) in
def uuidBytes (id : U.UUID) : List UInt8 := u64ToLeBytes (U.msb id) ++ u64ToLeBytes (U.lsb id)

theorem takeUuid_reads (hU : U.Lawful) (id : U.UUID) : Reads (takeUuid U) (uuidBytes U id) id := by
  unfold takeUuid uuidBytes
  refine (takeU64_reads _).bind ((takeU64_reads _).bind_nil (lift_reads ?_))
  rw [hU.uuid_rebuilt]
  rfl

theorem byteToMessageType_toByte (t : UMessageType) :
    byteToMessageType (messageTypeToByte t) = .ok t := by
  cases t <;> rfl

theorem byteToPriority_toByte (p : UPriority) : byteToPriority (priorityToByte p) = .ok p := by
  cases p <;> rfl

variable (U) in
def sinkText (sink : Option U.UUri) : String := (sink.map (U.toUri · false)).getD ""

theorem takeSink_reads (hU : U.Lawful) {sink : Option U.UUri}
    (h : (asBytes (sinkText U sink)).length ≤ u32Max) :
    Reads (takeSink U w) (stringBytes (sinkText U sink)) sink := by
  unfold takeSink
  refine (takeString_reads w h).bind_nil ?_
  cases sink with
  | none => exact .pure rfl
  | some u =>
    -- A URI's text is not empty, so it is never taken for the absent sink.
    have hne : (sinkText U (some u)).isEmpty = false := by
      simpa [sinkText] using hU.uri_text_ne u
    rw [if_neg (by simp [hne])]
    refine (lift_reads (a := u) ?_).nil_bind (.pure rfl)
    simp [sinkText, hU.uri_rebuilt, orInvalid]

/-- The texts of an encoding. -/
def encodingTexts (e : PayloadEncoding U.toUpTypes) : List String :=
  match e with
  | .Standard _ => []
  | .Custom custom => [U.customId custom, U.customContentType custom]

variable (U) in
def encodingBytes : PayloadEncoding U.toUpTypes → List UInt8
  | .Standard format => [0] ++ [U.formatValue format]
  | .Custom custom =>
    [1] ++ (stringBytes (U.customId custom) ++ stringBytes (U.customContentType custom))

theorem encodePayloadEncoding_eq_ok {dst b : List UInt8} {e : PayloadEncoding U.toUpTypes} :
    encodePayloadEncoding U dst e = .ok b ↔
      (∀ s ∈ encodingTexts e, (asBytes s).length ≤ u32Max) ∧ b = dst ++ encodingBytes U e := by
  cases e with
  | Standard format => simp [encodePayloadEncoding, encodingTexts, encodingBytes, eq_comm]
  | Custom custom =>
    simp only [encodePayloadEncoding, bind_eq_ok, appendString_eq_ok, encodingTexts,
      encodingBytes, List.forall_mem_cons, List.append_assoc]
    constructor
    · rintro ⟨_, ⟨hid, rfl⟩, hct, rfl⟩
      exact ⟨⟨hid, hct, by simp⟩, by simp⟩
    · rintro ⟨⟨hid, hct, -⟩, rfl⟩
      exact ⟨_, ⟨hid, rfl⟩, hct, by simp⟩

theorem writeEncoding_eq_ok {dst b : List UInt8} {e : Option (PayloadEncoding U.toUpTypes)} :
    writeEncoding U dst e = .ok b ↔
      (∀ e', e = some e' → ∀ s ∈ encodingTexts e', (asBytes s).length ≤ u32Max) ∧
        b = dst ++ optionalBytes (encodingBytes U) e := by
  cases e with
  | none => simp [writeEncoding, optionalBytes, eq_comm]
  | some e => simp [writeEncoding, optionalBytes, encodePayloadEncoding_eq_ok]

theorem decodePayloadEncoding_reads (hU : U.Lawful) {e : PayloadEncoding U.toUpTypes}
    (h : ∀ s ∈ encodingTexts e, (asBytes s).length ≤ u32Max) :
    Reads (decodePayloadEncoding U w) (encodingBytes U e) e := by
  unfold decodePayloadEncoding
  cases e with
  | Standard format =>
    refine (takeU8_reads 0).bind ((takeU8_reads _).bind_nil (.nil_bind (lift_reads ?_) (.pure rfl)))
    simp [hU.format_rebuilt, okOr]
  | Custom custom =>
    have hid := h (U.customId custom) (by simp [encodingTexts])
    have hct := h (U.customContentType custom) (by simp [encodingTexts])
    refine (takeU8_reads 1).bind ((takeString_reads w hid).bind
      ((takeString_reads w hct).bind_nil (lift_reads ?_)))
    simp [hU.custom_rebuilt, orInvalid]

theorem takeEncoding_reads (hU : U.Lawful) {e : Option (PayloadEncoding U.toUpTypes)}
    (h : ∀ e', e = some e' → ∀ s ∈ encodingTexts e', (asBytes s).length ≤ u32Max) :
    Reads (takeEncoding U w) (optionalBytes (encodingBytes U) e) e := by
  unfold takeEncoding optionalBytes
  cases e with
  | none => exact (takeU8_reads 0).bind_nil (.pure rfl)
  | some e =>
    exact (takeU8_reads 1).bind ((decodePayloadEncoding_reads hU (h e rfl)).bind_nil (.pure rfl))

theorem takeOptionalCode_reads (hU : U.Lawful) (c : Option U.CommStatus) :
    Reads (takeOptionalCode U) (optionalBytes (fun c => [U.codeAsU8 c]) c) c := by
  refine takeOptional_reads fun c _ => (takeU8_reads _).bind_nil (lift_reads ?_)
  simp [hU.code_rebuilt, okOr]

end Fields

section Whole

variable (U) in
/-- The fields of `m` in the encoder's order. -/
def metadataBytes (m : UFrameMetadata U.toUpTypes) : List UInt8 :=
  u64ToLeBytes (U.msb m.attributes.id) ++ (u64ToLeBytes (U.lsb m.attributes.id) ++
  ([messageTypeToByte m.attributes.messageType] ++ ([priorityToByte m.attributes.priority] ++
  (optionalBytes u32ToLeBytes m.attributes.ttl ++
  (stringBytes (U.toUri m.attributes.source false) ++
  (stringBytes (sinkText U m.attributes.sink) ++
  (optionalBytes (encodingBytes U) m.encoding ++
  (optionalBytes (uuidBytes U) m.attributes.requestId ++
  (optionalBytes stringBytes m.attributes.traceparent ++
  (optionalBytes stringBytes m.attributes.token ++
  (optionalBytes u32ToLeBytes m.attributes.permissionLevel ++
  optionalBytes (fun c => [U.codeAsU8 c]) m.attributes.commstatus)))))))))))

/-- Every text of `m` has a length that fits a `u32`. -/
structure TextsFit (m : UFrameMetadata U.toUpTypes) : Prop where
  source : (asBytes (U.toUri m.attributes.source false)).length ≤ u32Max
  sink : (asBytes (sinkText U m.attributes.sink)).length ≤ u32Max
  encoding : ∀ e, m.encoding = some e → ∀ s ∈ encodingTexts e, (asBytes s).length ≤ u32Max
  traceparent : ∀ s, m.attributes.traceparent = some s → (asBytes s).length ≤ u32Max
  token : ∀ s, m.attributes.token = some s → (asBytes s).length ≤ u32Max

theorem encodeMetadata_eq_ok {m : UFrameMetadata U.toUpTypes} {bytes : List UInt8} :
    encodeMetadata U m = .ok bytes ↔ TextsFit m ∧ bytes = metadataBytes U m := by
  have hcode (dst : List UInt8) (c : Option U.CommStatus) :
      writeOptionalCode U dst c = dst ++ optionalBytes (fun c => [U.codeAsU8 c]) c :=
    writeOptional_eq (fun _ _ => rfl) dst c
  have hu32 (dst : List UInt8) (v : Option UInt32) :
      writeOptionalU32 dst v = dst ++ optionalBytes u32ToLeBytes v :=
    writeOptional_eq (fun _ _ => rfl) dst v
  have huuid (dst : List UInt8) (v : Option U.UUID) :
      writeOptionalUuid U dst v = dst ++ optionalBytes (uuidBytes U) v :=
    writeOptional_eq (fun dst a => by simp [writeU64, uuidBytes]) dst v
  simp only [encodeMetadata, bind_eq_ok, appendString_eq_ok, writeEncoding_eq_ok,
    writeOptionalString_eq_ok]
  constructor
  · rintro ⟨_, ⟨hsource, rfl⟩, _, ⟨hsink, rfl⟩, _, ⟨hfit, rfl⟩, _, ⟨htrace, rfl⟩, _,
      ⟨htoken, rfl⟩, h⟩
    refine ⟨⟨hsource, hsink, hfit, htrace, htoken⟩, ?_⟩
    cases h
    simp only [hcode, hu32, huuid, writeU64, metadataBytes, sinkText, List.append_assoc,
      List.nil_append]
  · rintro ⟨hm, rfl⟩
    refine ⟨_, ⟨hm.source, rfl⟩, _, ⟨hm.sink, rfl⟩, _, ⟨hm.encoding, rfl⟩, _,
      ⟨hm.traceparent, rfl⟩, _, ⟨hm.token, rfl⟩, ?_⟩
    simp only [hcode, hu32, huuid, writeU64, metadataBytes, sinkText, List.append_assoc,
      List.nil_append]
    rfl

theorem takeMetadata_reads (hU : U.Lawful) {m : UFrameMetadata U.toUpTypes} (hm : TextsFit m) :
    Reads (takeMetadata U w) (metadataBytes U m) m := by
  have huuid (id : U.UUID) (rest : List UInt8) :
      u64ToLeBytes (U.msb id) ++ (u64ToLeBytes (U.lsb id) ++ rest) = uuidBytes U id ++ rest := by
    simp [uuidBytes]
  unfold takeMetadata metadataBytes
  rw [huuid]
  refine (takeUuid_reads hU _).bind ?_
  refine (takeU8_reads _).bind (.nil_bind (lift_reads (byteToMessageType_toByte _)) ?_)
  refine (takeU8_reads _).bind (.nil_bind (lift_reads (byteToPriority_toByte _)) ?_)
  refine (takeOptional_reads fun v _ => takeU32_reads v).bind ?_
  refine (takeString_reads w hm.source).bind (.nil_bind (a := m.attributes.source)
    (lift_reads ?_) ?_)
  · rw [hU.uri_rebuilt]
    rfl
  refine (takeSink_reads hU hm.sink).bind ?_
  refine (takeEncoding_reads hU hm.encoding).bind ?_
  refine (takeOptional_reads fun id _ => takeUuid_reads hU id).bind ?_
  refine (takeOptional_reads fun s hs => takeString_reads w (hm.traceparent s hs)).bind ?_
  refine (takeOptional_reads fun s hs => takeString_reads w (hm.token s hs)).bind ?_
  refine (takeOptional_reads fun v _ => takeU32_reads v).bind ?_
  exact (takeOptionalCode_reads hU _).bind_nil (.pure rfl)

/-- What the encoder writes, the decoder reads back. -/
theorem decodeMetadata_encodeMetadata (hU : U.Lawful) {m : UFrameMetadata U.toUpTypes}
    {bytes : List UInt8} (h : encodeMetadata U m = .ok bytes) :
    decodeMetadata U w bytes = .ok m := by
  obtain ⟨hm, rfl⟩ := encodeMetadata_eq_ok.1 h
  rw [decodeMetadata, (takeMetadata_reads hU hm).run_all]
  rfl

end Whole

end LolaTransport
