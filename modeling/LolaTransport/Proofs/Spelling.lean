import LolaTransport.Proofs.Metadata
import LolaTransport.Proofs.PlainUris

/-!
# What the decoder accepts

Each decoding step accepts exactly what the encoder writes for the value it returns, whatever
follows (`Spelled`), with two exceptions: a URI is taken in any spelling that parses to it, and is
written in one.  So bytes that are accepted as the metadata `m` are `spelling` of `m` with some
texts in the place of its URIs, and the encoder writes the same bytes with its own texts there.

That a step takes the same bytes whatever follows does not depend on `up-rust`; that they are those
the encoder writes does, so this is claimed for an `UpRust` that `Stores` what it is given.
-/

namespace LolaTransport

open Reader (Spelled)

variable {U : UpRust} {w : PointerWidth}

section Strings

theorem asBytes_of_fromUtf8 {bytes : List UInt8} {s : String} (h : fromUtf8 bytes = some s) :
    asBytes s = bytes := by
  unfold fromUtf8 String.fromUTF8? at h
  split_ifs at h
  cases h
  rfl

theorem takeU8_spelled : Spelled takeU8 fun bytes b => bytes = [b]
  | [], _, _, h => by cases h
  | b :: src, _, _, h => by
    cases h
    exact ⟨[b], rfl, takeU8_reads b, rfl⟩

theorem takeBytes_spelled (len : ℕ) :
    Spelled (takeBytes len) fun bytes taken => bytes = taken ∧ taken.length = len := by
  intro src taken rest h
  unfold takeBytes splitAtOrPanic at h
  split_ifs at h with hshort hle
  cases h
  have hlen : (src.take len).length = len := List.length_take_of_le hle
  refine ⟨src.take len, (List.take_append_drop _ _).symm, ?_, rfl, hlen⟩
  have hreads := takeBytes_reads (src.take len)
  rwa [hlen] at hreads

theorem expectLen_ok {len : ℕ} {bytes taken : List UInt8} (h : expectLen len bytes = .ok taken) :
    taken = bytes ∧ bytes.length = len := by
  unfold expectLen at h
  split_ifs at h with hlen
  cases h
  exact ⟨rfl, hlen⟩

/-- A number of `k` bytes is spelled by the bytes that are written for it. -/
theorem takeLe_spelled {α : Type} {k : ℕ} {ofNat : ℕ → α} {toBytes : α → List UInt8}
    (hback : ∀ bytes : List UInt8, bytes.length = k → toBytes (ofNat (Bytes.ofLe bytes)) = bytes) :
    Spelled (do
      let bytes ← takeBytes k
      let bytes ← expectLen k bytes
      return ofNat (Bytes.ofLe bytes) : Take α) fun bytes v => bytes = toBytes v := by
  refine (takeBytes_spelled k).bind ?_
  rintro taken _ ⟨rfl, hlen⟩
  refine (Spelled.lift _).bind ?_
  rintro bytes _ ⟨rfl, h⟩
  obtain ⟨rfl, -⟩ := expectLen_ok h
  refine .pure ?_
  rw [List.append_nil, List.append_nil, hback bytes hlen]

theorem u64ToLeBytes_ofLe {bytes : List UInt8} (h : bytes.length = 8) :
    u64ToLeBytes (UInt64.ofNat (Bytes.ofLe bytes)) = bytes := by
  have hlt := Bytes.ofLe_lt bytes
  have hback := Bytes.le_ofLe bytes
  rw [h] at hlt hback
  have hnat : (UInt64.ofNat (Bytes.ofLe bytes)).toNat = Bytes.ofLe bytes :=
    UInt64.toNat_ofNat_of_lt' (by simpa using hlt)
  rw [u64ToLeBytes, hnat, hback]

theorem u32ToLeBytes_ofLe {bytes : List UInt8} (h : bytes.length = 4) :
    u32ToLeBytes (UInt32.ofNat (Bytes.ofLe bytes)) = bytes := by
  have hlt := Bytes.ofLe_lt bytes
  have hback := Bytes.le_ofLe bytes
  rw [h] at hlt hback
  have hnat : (UInt32.ofNat (Bytes.ofLe bytes)).toNat = Bytes.ofLe bytes :=
    UInt32.toNat_ofNat_of_lt' (by simpa using hlt)
  rw [u32ToLeBytes, hnat, hback]

theorem takeU64_spelled : Spelled takeU64 fun bytes v => bytes = u64ToLeBytes v :=
  takeLe_spelled fun _ => u64ToLeBytes_ofLe

theorem takeU32_spelled : Spelled takeU32 fun bytes v => bytes = u32ToLeBytes v :=
  takeLe_spelled fun _ => u32ToLeBytes_ofLe

theorem takeString_spelled : Spelled (takeString w) fun bytes s =>
    (asBytes s).length ≤ u32Max ∧ bytes = stringBytes s := by
  refine takeU32_spelled.bind ?_
  rintro len _ rfl
  refine (Spelled.lift _).bind ?_
  rintro n _ ⟨rfl, hn⟩
  rw [okOr_eq_ok, Option.ite_none_right_eq_some] at hn
  obtain ⟨-, hn⟩ := hn
  cases hn
  refine (takeBytes_spelled _).bind ?_
  rintro taken _ ⟨rfl, hlen⟩
  refine (Spelled.lift _).mono ?_
  rintro _ s ⟨rfl, hs⟩
  rw [okOr_eq_ok] at hs
  have hbytes := asBytes_of_fromUtf8 hs
  have hfit : (asBytes s).length ≤ u32Max := by
    have hlt := len.toNat_lt
    rw [hbytes, hlen, u32Max]
    omega
  have hfield : u32TryFrom (asBytes s).length = some len :=
    u32TryFrom_eq_some.2 ⟨hfit, by rw [hbytes, hlen]⟩
  refine ⟨hfit, ?_⟩
  rw [stringBytes, hfield, Option.getD_some, hbytes]
  simp

/-- A step whose values are spelled by `bytes`, and meet `Q`, under the assumption `A`. -/
abbrev SpelledBy {α : Type} (A : Prop) (Q : α → Prop) (bytes : α → List UInt8) (take : Take α) :
    Prop := Spelled take fun xs a => A → Q a ∧ xs = bytes a

theorem takeOptional_spelled {α : Type} {A : Prop} {Q : α → Prop} {bytes : α → List UInt8}
    {take : Take α} (h : SpelledBy A Q bytes take) :
    SpelledBy A (fun value => ∀ a, value = some a → Q a) (optionalBytes bytes)
      (takeOptional take) := by
  refine takeU8_spelled.bind ?_
  rintro flag _ rfl
  split
  · refine .pure fun _ => ⟨fun a ha => ?_, rfl⟩
    cases ha
  · refine h.bind fun a xs hxs => .pure fun hA => ?_
    obtain ⟨hQ, rfl⟩ := hxs hA
    refine ⟨fun a' ha => ?_, by rw [List.append_nil]; rfl⟩
    cases ha
    exact hQ
  · exact .throw

end Strings

section Fields

theorem orInvalid_eq_ok {α : Type} {what : String} {x : Except String α} {a : α} :
    orInvalid what x = .ok a ↔ x = .ok a := by
  cases x with
  | error e => simp [orInvalid]
  | ok b => simp [orInvalid]

theorem takeUuid_spelled :
    SpelledBy U.Stores (fun _ => True) (uuidBytes U) (takeUuid U) := by
  refine takeU64_spelled.bind ?_
  rintro msb _ rfl
  refine takeU64_spelled.bind ?_
  rintro lsb _ rfl
  refine (Spelled.lift _).mono ?_
  rintro _ id ⟨rfl, h⟩ hU
  obtain ⟨hmsb, hlsb⟩ := hU.uuid_stored _ _ _ (orInvalid_eq_ok.1 h)
  rw [uuidBytes, hmsb, hlsb, List.append_nil]
  exact ⟨trivial, rfl⟩

theorem toByte_byteToMessageType {b : UInt8} {t : UMessageType}
    (h : byteToMessageType b = .ok t) : messageTypeToByte t = b := by
  unfold byteToMessageType at h
  split at h
  all_goals cases h
  all_goals rfl

theorem toByte_byteToPriority {b : UInt8} {p : UPriority} (h : byteToPriority b = .ok p) :
    priorityToByte p = b := by
  unfold byteToPriority at h
  split at h
  all_goals cases h
  all_goals rfl

theorem decodePayloadEncoding_spelled :
    SpelledBy U.Stores (fun e => ∀ s ∈ encodingTexts e, (asBytes s).length ≤ u32Max)
      (encodingBytes U) (decodePayloadEncoding U w) := by
  refine takeU8_spelled.bind ?_
  rintro kind _ rfl
  split
  · refine takeU8_spelled.bind ?_
    rintro value _ rfl
    refine (Spelled.lift _).bind ?_
    rintro format _ ⟨rfl, h⟩
    refine .pure fun hU => ⟨List.forall_mem_nil _, ?_⟩
    rw [encodingBytes, hU.format_stored _ _ (okOr_eq_ok.1 h)]
    rfl
  · refine takeString_spelled.bind ?_
    rintro id _ ⟨hid, rfl⟩
    refine takeString_spelled.bind ?_
    rintro contentType _ ⟨hct, rfl⟩
    refine (Spelled.lift _).mono ?_
    rintro _ e ⟨rfl, h⟩ hU
    obtain ⟨custom, rfl, rfl, rfl⟩ := hU.custom_stored _ _ _ (orInvalid_eq_ok.1 h)
    refine ⟨?_, by rw [List.append_nil]; rfl⟩
    exact List.forall_mem_cons.2 ⟨hid, List.forall_mem_singleton.2 hct⟩
  · exact .throw

theorem takeEncoding_spelled :
    SpelledBy U.Stores
      (fun e => ∀ e', e = some e' → ∀ s ∈ encodingTexts e', (asBytes s).length ≤ u32Max)
      (optionalBytes (encodingBytes U)) (takeEncoding U w) := by
  refine takeU8_spelled.bind ?_
  rintro flag _ rfl
  split
  · refine .pure fun _ => ⟨fun e he => ?_, rfl⟩
    cases he
  · refine decodePayloadEncoding_spelled.bind fun e xs hxs => .pure fun hU => ?_
    obtain ⟨hfit, rfl⟩ := hxs hU
    refine ⟨fun e' he => ?_, by rw [List.append_nil]; rfl⟩
    cases he
    exact hfit
  · exact .throw

theorem takeOptionalCode_spelled :
    SpelledBy U.Stores (fun _ => True) (optionalBytes fun c => [U.codeAsU8 c])
      (takeOptionalCode U) := by
  have hcode : SpelledBy U.Stores (fun _ => True) (fun c => [U.codeAsU8 c])
      (do
        let value ← takeU8
        okOr (U.codeFromU8 value) .INVALID_ARGUMENT "invalid LoLa status code") := by
    refine takeU8_spelled.bind ?_
    rintro value _ rfl
    refine (Spelled.lift _).mono ?_
    rintro _ c ⟨rfl, h⟩ hU
    refine ⟨trivial, ?_⟩
    dsimp only
    rw [hU.code_stored _ _ (okOr_eq_ok.1 h), List.append_nil]
  exact (takeOptional_spelled hcode).mono fun _ _ h hU => ⟨trivial, (h hU).2⟩

variable (U) in
/-- The sink's text is empty for no sink, and else parses to it. -/
def SinkSpelledBy (sink : String) : Option U.UUri → Prop
  | none => sink = ""
  | some u => U.uriTryFrom sink = .ok u

theorem takeSink_spelled : Spelled (takeSink U w) fun bytes sink =>
    ∃ text, (asBytes text).length ≤ u32Max ∧ SinkSpelledBy U text sink ∧
      bytes = stringBytes text := by
  refine takeString_spelled.bind ?_
  rintro text _ ⟨hfit, rfl⟩
  split_ifs with hempty
  · exact .pure ⟨text, hfit, String.isEmpty_iff.1 hempty, List.append_nil _⟩
  · refine (Spelled.lift _).bind ?_
    rintro u _ ⟨rfl, h⟩
    exact .pure ⟨text, hfit, orInvalid_eq_ok.1 h, by simp⟩

end Fields

section Whole

variable (U) in
/-- The fields in front of the URIs. -/
def metadataHead (m : UFrameMetadata U.toUpTypes) : List UInt8 :=
  uuidBytes U m.attributes.id ++ [messageTypeToByte m.attributes.messageType] ++
    [priorityToByte m.attributes.priority] ++ optionalBytes u32ToLeBytes m.attributes.ttl

variable (U) in
/-- The fields behind the URIs. -/
def metadataTail (m : UFrameMetadata U.toUpTypes) : List UInt8 :=
  optionalBytes (encodingBytes U) m.encoding ++
    optionalBytes (uuidBytes U) m.attributes.requestId ++
    optionalBytes stringBytes m.attributes.traceparent ++
    optionalBytes stringBytes m.attributes.token ++
    optionalBytes u32ToLeBytes m.attributes.permissionLevel ++
    optionalBytes (fun c => [U.codeAsU8 c]) m.attributes.commstatus

variable (U) in
/-- The fields of `m` in the encoder's order, with these texts for its source and its sink. -/
def spelling (m : UFrameMetadata U.toUpTypes) (source sink : String) : List UInt8 :=
  metadataHead U m ++ stringBytes source ++ stringBytes sink ++ metadataTail U m

theorem metadataBytes_eq (m : UFrameMetadata U.toUpTypes) : metadataBytes U m =
    spelling U m (U.toUri m.attributes.source false) (sinkText U m.attributes.sink) := by
  simp only [metadataBytes, spelling, metadataHead, metadataTail, uuidBytes, List.append_assoc]

variable (U) in
/-- The texts parse to the URIs of `m`. -/
structure UrisSpelledBy (m : UFrameMetadata U.toUpTypes) (source sink : String) : Prop where
  source : U.uriTryFrom source = .ok m.attributes.source
  sink : SinkSpelledBy U sink m.attributes.sink

/-- The texts of `m` other than its URIs have lengths that fit a `u32`. -/
structure OtherTextsFit (m : UFrameMetadata U.toUpTypes) : Prop where
  encoding : ∀ e, m.encoding = some e → ∀ s ∈ encodingTexts e, (asBytes s).length ≤ u32Max
  traceparent : ∀ s, m.attributes.traceparent = some s → (asBytes s).length ≤ u32Max
  token : ∀ s, m.attributes.token = some s → (asBytes s).length ≤ u32Max

theorem takeMetadata_spelled : Spelled (takeMetadata U w) fun bytes m =>
    U.Stores → OtherTextsFit m ∧ ∃ source sink, UrisSpelledBy U m source sink ∧
      bytes = spelling U m source sink := by
  refine takeUuid_spelled.bind fun id xid hid => ?_
  refine takeU8_spelled.bind ?_
  rintro bt _ rfl
  refine (Spelled.lift _).bind ?_
  rintro messageType _ ⟨rfl, ht⟩
  refine takeU8_spelled.bind ?_
  rintro bp _ rfl
  refine (Spelled.lift _).bind ?_
  rintro priority _ ⟨rfl, hp⟩
  refine (takeOptional_spelled (A := U.Stores) (Q := fun _ => True)
    (takeU32_spelled.mono fun _ _ h _ => ⟨trivial, h⟩)).bind fun ttl xttl httl => ?_
  refine takeString_spelled.bind ?_
  rintro sourceText _ ⟨-, rfl⟩
  refine (Spelled.lift _).bind ?_
  rintro source _ ⟨rfl, hsource⟩
  refine takeSink_spelled.bind ?_
  rintro sink _ ⟨sinkText, -, hsink, rfl⟩
  refine takeEncoding_spelled.bind fun encoding xenc henc => ?_
  refine (takeOptional_spelled takeUuid_spelled).bind fun requestId xrid hrid => ?_
  have hstring : SpelledBy U.Stores (fun s => (asBytes s).length ≤ u32Max) stringBytes
      (takeString w) := takeString_spelled.mono fun _ _ h _ => h
  refine (takeOptional_spelled hstring).bind fun traceparent xtp htp => ?_
  refine (takeOptional_spelled hstring).bind fun token xtok htok => ?_
  refine (takeOptional_spelled (A := U.Stores) (Q := fun _ => True)
    (takeU32_spelled.mono fun _ _ h _ => ⟨trivial, h⟩)).bind fun level xlev hlev => ?_
  refine takeOptionalCode_spelled.bind fun commstatus xcode hcode => .pure fun hU => ?_
  obtain ⟨-, rfl⟩ := hid hU
  obtain ⟨-, rfl⟩ := httl hU
  obtain ⟨hencoding, rfl⟩ := henc hU
  obtain ⟨-, rfl⟩ := hrid hU
  obtain ⟨htraceparent, rfl⟩ := htp hU
  obtain ⟨htoken, rfl⟩ := htok hU
  obtain ⟨-, rfl⟩ := hlev hU
  obtain ⟨-, rfl⟩ := hcode hU
  refine ⟨⟨hencoding, htraceparent, htoken⟩, sourceText, sinkText,
    ⟨orInvalid_eq_ok.1 hsource, hsink⟩, ?_⟩
  simp only [spelling, metadataHead, metadataTail, toByte_byteToMessageType ht,
    toByte_byteToPriority hp, List.append_assoc, List.nil_append, List.append_nil]

theorem decodeMetadata_ok {bytes : List UInt8} {m : UFrameMetadata U.toUpTypes}
    (h : decodeMetadata U w bytes = .ok m) : takeMetadata U w bytes = .ok (m, []) := by
  obtain ⟨⟨m', remaining⟩, htake, h⟩ := Fallible.bind_eq_ok.1 h
  dsimp only at h
  split_ifs at h with hempty
  · cases h
  · cases h
    obtain rfl : remaining = [] := by simpa using hempty
    exact htake

/-- Accepted bytes are a spelling of the metadata they are decoded to. -/
theorem spelling_of_decodeMetadata (hU : U.Stores) {bytes : List UInt8}
    {m : UFrameMetadata U.toUpTypes} (h : decodeMetadata U w bytes = .ok m) :
    OtherTextsFit m ∧ ∃ source sink, UrisSpelledBy U m source sink ∧
      bytes = spelling U m source sink := by
  obtain ⟨bytes', hbytes, -, hspelled⟩ := takeMetadata_spelled bytes m [] (decodeMetadata_ok h)
  rw [List.append_nil] at hbytes
  subst hbytes
  exact hspelled hU

/-- Whatever is accepted, the encoder writes back but for the texts of the URIs, in whose place it
writes their canonical texts; and this is decoded alike.  So bytes that are decoded alike differ in
the texts of the URIs only. -/
theorem encode_undoes_decode (hU : U.Lawful) (hstores : U.Stores) {bytes bytes' : List UInt8}
    {m : UFrameMetadata U.toUpTypes}
    (hsource : (asBytes (U.toUri m.attributes.source false)).length ≤ u32Max)
    (hsink : (asBytes (sinkText U m.attributes.sink)).length ≤ u32Max)
    (h : decodeMetadata U w bytes = .ok m) (h' : decodeMetadata U w bytes' = .ok m) :
    ∃ canonical source sink source' sink', encodeMetadata U m = .ok canonical ∧
      decodeMetadata U w canonical = .ok m ∧
      canonical = metadataHead U m ++ stringBytes (U.toUri m.attributes.source false) ++
        stringBytes (sinkText U m.attributes.sink) ++ metadataTail U m ∧
      UrisSpelledBy U m source sink ∧
      bytes = metadataHead U m ++ stringBytes source ++ stringBytes sink ++ metadataTail U m ∧
      UrisSpelledBy U m source' sink' ∧
      bytes' = metadataHead U m ++ stringBytes source' ++ stringBytes sink' ++ metadataTail U m ∧
      (U.toUri m.attributes.source false = source → sinkText U m.attributes.sink = sink →
        canonical = bytes) := by
  obtain ⟨hfit, source, sink, huris, hbytes⟩ := spelling_of_decodeMetadata hstores h
  obtain ⟨-, source', sink', huris', hbytes'⟩ := spelling_of_decodeMetadata hstores h'
  have hencode : encodeMetadata U m = .ok (metadataBytes U m) :=
    encodeMetadata_eq_ok.2
      ⟨⟨hsource, hsink, hfit.encoding, hfit.traceparent, hfit.token⟩, rfl⟩
  refine ⟨metadataBytes U m, source, sink, source', sink', hencode,
    decodeMetadata_encodeMetadata hU hencode, metadataBytes_eq m, huris, hbytes, huris', hbytes',
    ?_⟩
  rintro rfl rfl
  rw [metadataBytes_eq, hbytes]

/-- Two URIs, the first of which is spelled `a` or `A`; `capital` is how it is written. -/
def foldingUpRust (capital : Bool) : UpRust where
  toUpTypes := { plainTypes with UUri := Bool }
  msb id := id.1
  lsb id := id.2
  fromU64Pair msb lsb := .ok (msb, lsb)
  toUri u _ := if u then if capital then "A" else "a" else "b"
  uriTryFrom text :=
    if text = "a" ∨ text = "A" then .ok true
    else if text = "b" then .ok false else .error "unknown URI"
  uriMatches filter u := filter == u
  formatValue f := f
  formatFromU8 b := some b
  customId c := c.1
  customContentType c := c.2
  tryCustom id contentType := .ok (.Custom (id, contentType))
  codeAsU8 c := c
  codeFromU8 b := some b
  validateFrameView _ _ := .ok ()

theorem foldingUpRust_lawful (capital : Bool) : (foldingUpRust capital).Lawful where
  uuid_rebuilt _ := rfl
  uri_rebuilt u := by cases capital <;> cases u <;> rfl
  uri_text_ne u := by cases capital <;> cases u <;> decide
  format_rebuilt _ := rfl
  custom_rebuilt _ := rfl
  code_rebuilt _ := rfl

theorem foldingUpRust_stores (capital : Bool) : (foldingUpRust capital).Stores where
  uuid_stored _ _ _ h := by
    cases h
    exact ⟨rfl, rfl⟩
  format_stored _ _ h := (Option.some.inj h).symm
  custom_stored id contentType _ h := by
    cases h
    exact ⟨(id, contentType), rfl, rfl, rfl⟩
  code_stored _ _ h := (Option.some.inj h).symm

/-- A response with everything in it that metadata can have. -/
def foldingMetadata (capital : Bool) : UFrameMetadata (foldingUpRust capital).toUpTypes where
  attributes :=
    { id := ((1, 2) : UInt64 × UInt64), source := true, sink := some false
      messageType := .Response, priority := .CS4, ttl := some 9
      requestId := some ((3, 4) : UInt64 × UInt64), traceparent := some "t", token := some "k"
      permissionLevel := some 5, commstatus := some (6 : UInt8) }
  encoding := some (.Custom (("id", "type") : String × String))

/-- The same metadata with its source spelled in two ways: the encoder writes one of them. -/
theorem encode_undoes_decode_plain :
    metadataBytes (foldingUpRust true) (foldingMetadata true) ≠
        metadataBytes (foldingUpRust false) (foldingMetadata false) ∧
      decodeMetadata (foldingUpRust false) .w64
        (metadataBytes (foldingUpRust true) (foldingMetadata true)) = .ok (foldingMetadata false) ∧
      encodeMetadata (foldingUpRust false) (foldingMetadata false) =
        .ok (metadataBytes (foldingUpRust false) (foldingMetadata false)) ∧
      ∃ source sink, UrisSpelledBy (foldingUpRust false) (foldingMetadata false) source sink ∧
        metadataBytes (foldingUpRust true) (foldingMetadata true) =
          spelling (foldingUpRust false) (foldingMetadata false) source sink := by
  have hencode (capital : Bool) : encodeMetadata (foldingUpRust capital) (foldingMetadata capital) =
      .ok (metadataBytes (foldingUpRust capital) (foldingMetadata capital)) := by
    cases capital <;>
      exact encodeMetadata_eq_ok.2 ⟨⟨by decide, by decide, by decide, by decide, by decide⟩, rfl⟩
  have hdecode (capital : Bool) : decodeMetadata (foldingUpRust capital) .w64
      (metadataBytes (foldingUpRust capital) (foldingMetadata capital)) =
        .ok (foldingMetadata capital) :=
    decodeMetadata_encodeMetadata (foldingUpRust_lawful capital) (hencode capital)
  -- the decoder does not ask how URIs are written
  have hcapital : decodeMetadata (foldingUpRust false) .w64
      (metadataBytes (foldingUpRust true) (foldingMetadata true)) =
        .ok (foldingMetadata false) := by
    have hsame (bytes : List UInt8) : decodeMetadata (foldingUpRust false) .w64 bytes =
        decodeMetadata (foldingUpRust true) .w64 bytes := rfl
    rw [hsame]
    exact hdecode true
  obtain ⟨canonical, -, -, source, sink, h, -, hcanonical, -, -, huris, hbytes, -⟩ :=
    encode_undoes_decode (foldingUpRust_lawful false) (foldingUpRust_stores false)
      (by decide) (by decide) (hdecode false) hcapital
  refine ⟨by decide +kernel, hcapital, ?_, source, sink, huris, hbytes⟩
  rw [h, hcanonical, metadataBytes_eq, spelling]

end Whole

end LolaTransport
