import Mathlib.Data.List.Nodup
import Pharos.Clock
import Pharos.Proto.DateTime
import Pharos.Text.Fields

/-!
# Integration events on the Protobuf wire

`ProtobufEventSerializer` copies an event field by field into an envelope and back.  What prost and
uuid do is a parameter, of which is assumed only that they give back what they wrote.
-/

namespace Pharos

/-- `BTreeMap`, whose entries stand in the order of their keys. -/
abbrev BTreeMap (K V : Type) [Ord K] := Std.ExtTreeMap K V compare

structure CorrelationId where
  value : String
deriving DecidableEq

structure CausationId where
  value : String
deriving DecidableEq

/-- `IntegrationEvent<P>`. -/
structure IntegrationEvent (calendar : Calendar) (P : Type) where
  eventId : Uuid
  eventType : String
  schemaVersion : UInt32
  occurredAt : DateTime calendar
  aggregateId : Option String
  correlationId : Option CorrelationId
  causationId : Option CausationId
  source : String
  tenantId : Option String
  traceId : Option String
  payload : P
  metadata : BTreeMap String String

/-- `IntegrationEventEnvelope`. -/
structure IntegrationEventEnvelope where
  eventId : String
  eventType : String
  schemaVersion : UInt32
  occurredAtMs : I64
  aggregateId : Option String
  correlationId : Option String
  causationId : Option String
  source : String
  tenantId : Option String
  traceId : Option String
  payload : List UInt8
  metadata : BTreeMap String String

/-- `ProtobufSerializationError`, with `D` for `prost::DecodeError`. -/
inductive ProtobufSerializationError (D : Type)
  | decode (error : D)
  | invalidEnvelope (message : String)
  | invalidTimestamp (millis : I64)

/-- `SerializedEvent`. -/
structure SerializedEvent where
  contentType : String
  payload : List UInt8

/-- `APPLICATION_PROTOBUF`. -/
def applicationProtobuf : String := "application/x-protobuf"

/-- What prost does with envelopes and payloads and uuid with ids. -/
structure ProtobufCodec (P D : Type) where
  encodeEnvelope : IntegrationEventEnvelope → List UInt8
  decodeEnvelope : List UInt8 → Except D IntegrationEventEnvelope
  encodePayload : P → List UInt8
  decodePayload : List UInt8 → Except D P
  uuidText : Uuid → String
  parseUuid : String → Except String Uuid

namespace IntegrationEvent

variable {calendar : Calendar} {P : Type}

/-- `with_metadata`. -/
def withMetadata (event : IntegrationEvent calendar P) (key value : String) :
    IntegrationEvent calendar P :=
  { event with metadata := event.metadata.insert key value }

/-- `with_metadata` for one entry after the other. -/
def withEntries (event : IntegrationEvent calendar P) (entries : List (String × String)) :
    IntegrationEvent calendar P :=
  entries.foldl (fun event entry => event.withMetadata entry.1 entry.2) event

/-- The event with its timestamp rounded down to the millisecond. -/
def roundDown (event : IntegrationEvent calendar P) : IntegrationEvent calendar P :=
  { event with occurredAt := event.occurredAt.roundDown }

end IntegrationEvent

/-- `iter().map(clone).collect()` and `into_iter().collect()`: the entries inserted again. -/
def collectMetadata (metadata : BTreeMap String String) : BTreeMap String String :=
  Std.ExtTreeMap.ofList metadata.toList compare

namespace ProtobufCodec

variable {calendar : Calendar} {P D : Type}

/-- `IntegrationEventEnvelope::from_integration_event`. -/
def fromIntegrationEvent (codec : ProtobufCodec P D) (event : IntegrationEvent calendar P) :
    IntegrationEventEnvelope where
  eventId := codec.uuidText event.eventId
  eventType := event.eventType
  schemaVersion := event.schemaVersion
  occurredAtMs := event.occurredAt.timestampMillis
  aggregateId := event.aggregateId
  correlationId := event.correlationId.map CorrelationId.value
  causationId := event.causationId.map CausationId.value
  source := event.source
  tenantId := event.tenantId
  traceId := event.traceId
  payload := codec.encodePayload event.payload
  metadata := collectMetadata event.metadata

/-- `IntegrationEventEnvelope::into_integration_event`. -/
def intoIntegrationEvent (codec : ProtobufCodec P D) (calendar : Calendar)
    (envelope : IntegrationEventEnvelope) :
    Except (ProtobufSerializationError D) (IntegrationEvent calendar P) := do
  let eventId ← (codec.parseUuid envelope.eventId).mapError .invalidEnvelope
  let occurredAt ←
    match DateTime.fromTimestampMillis calendar envelope.occurredAtMs with
    | some occurredAt => .ok occurredAt
    | none => .error (.invalidTimestamp envelope.occurredAtMs)
  let payload ← (codec.decodePayload envelope.payload).mapError .decode
  .ok
    { eventId
      eventType := envelope.eventType
      schemaVersion := envelope.schemaVersion
      occurredAt
      aggregateId := envelope.aggregateId
      correlationId := envelope.correlationId.map CorrelationId.mk
      causationId := envelope.causationId.map CausationId.mk
      source := envelope.source
      tenantId := envelope.tenantId
      traceId := envelope.traceId
      payload
      metadata := collectMetadata envelope.metadata }

/-- `ProtobufEventSerializer::serialize`. -/
def serialize (codec : ProtobufCodec P D) (event : IntegrationEvent calendar P) :
    Except (ProtobufSerializationError D) SerializedEvent :=
  .ok
    { contentType := applicationProtobuf
      payload := codec.encodeEnvelope (codec.fromIntegrationEvent event) }

/-- `ProtobufEventSerializer::deserialize`. -/
def deserialize (codec : ProtobufCodec P D) (calendar : Calendar) (wire : SerializedEvent) :
    Except (ProtobufSerializationError D) (IntegrationEvent calendar P) := do
  let envelope ← (codec.decodeEnvelope wire.payload).mapError .decode
  codec.intoIntegrationEvent calendar envelope

/-- Prost and uuid give back what they wrote of an event. -/
structure Lossless (codec : ProtobufCodec P D) (event : IntegrationEvent calendar P) : Prop where
  envelope : codec.decodeEnvelope (codec.encodeEnvelope (codec.fromIntegrationEvent event)) =
    .ok (codec.fromIntegrationEvent event)
  payload : codec.decodePayload (codec.encodePayload event.payload) = .ok event.payload
  uuid : codec.parseUuid (codec.uuidText event.eventId) = .ok event.eventId

end ProtobufCodec

/-! ## Metadata -/

/-- Inserted again, the entries of a map make the same map. -/
theorem collectMetadata_eq (metadata : BTreeMap String String) :
    collectMetadata metadata = metadata := by
  refine Std.ExtTreeMap.ext_getElem? fun key => ?_
  unfold collectMetadata
  cases found : metadata[key]? with
  | some value =>
    exact Std.ExtTreeMap.getElem?_ofList_of_mem Std.ReflCmp.compare_self
      Std.ExtTreeMap.distinct_keys_toList (Std.ExtTreeMap.mem_toList_iff_getElem?_eq_some.2 found)
  | none =>
    refine Std.ExtTreeMap.getElem?_ofList_of_contains_eq_false ?_
    rw [← Bool.not_eq_true, List.contains_iff_mem, List.mem_map]
    rintro ⟨⟨other, value⟩, listed, rfl⟩
    rw [Std.ExtTreeMap.mem_toList_iff_getElem?_eq_some.1 listed] at found
    cases found

/-- The value the last entry with a key has. -/
def lastValue (entries : List (String × String)) (key : String) : Option String :=
  entries.reverse.lookup key

namespace IntegrationEvent

variable {calendar : Calendar} {P : Type}

theorem withEntries_cons (event : IntegrationEvent calendar P) (entry : String × String)
    (entries : List (String × String)) :
    event.withEntries (entry :: entries) =
      (event.withMetadata entry.1 entry.2).withEntries entries :=
  rfl

/-- The last value of a key stays, else the one the event had. -/
theorem getElem_withEntries (event : IntegrationEvent calendar P)
    (entries : List (String × String)) (key : String) :
    (event.withEntries entries).metadata[key]? =
      (lastValue entries key).or event.metadata[key]? := by
  induction entries generalizing event with
  | nil => rfl
  | cons entry entries ih =>
    obtain ⟨inserted, value⟩ := entry
    have first : (event.withMetadata inserted value).metadata[key]? =
        ([(inserted, value)].lookup key).or event.metadata[key]? := by
      unfold withMetadata
      rw [Std.ExtTreeMap.getElem?_insert, List.lookup_singleton]
      by_cases here : inserted = key
      · simp [here]
      · simp [here, Ne.symm here]
    have last : lastValue ((inserted, value) :: entries) key =
        (lastValue entries key).or ([(inserted, value)].lookup key) := by
      unfold lastValue
      rw [List.reverse_cons, List.lookup_append]
    rw [withEntries_cons, ih, first, last, Option.or_assoc]

/-- Nothing but the metadata of the event is touched. -/
theorem withEntries_eq (event : IntegrationEvent calendar P) (entries : List (String × String)) :
    event.withEntries entries = { event with metadata := (event.withEntries entries).metadata } := by
  induction entries generalizing event with
  | nil => rfl
  | cons entry entries ih =>
    rw [withEntries_cons, ih]
    rfl

/-- Entries that leave every key with the same value make the same event. -/
theorem withEntries_congr (event : IntegrationEvent calendar P)
    {first second : List (String × String)}
    (same : ∀ key, lastValue first key = lastValue second key) :
    event.withEntries first = event.withEntries second := by
  rw [withEntries_eq event first, withEntries_eq event second]
  congr 1
  refine Std.ExtTreeMap.ext_getElem? fun key => ?_
  rw [getElem_withEntries, getElem_withEntries, same]

end IntegrationEvent

/-- In a list with every key once, the order plays no part for what a key is looked up as. -/
theorem lookup_of_perm {first second : List (String × String)} (perm : first.Perm second)
    (distinct : (first.map Prod.fst).Nodup) (key : String) :
    first.lookup key = second.lookup key := by
  induction perm with
  | nil => rfl
  | cons entry _ ih =>
    rw [List.lookup_cons, List.lookup_cons, ih (List.nodup_cons.1 distinct).2]
  | swap x y rest =>
    obtain ⟨xKey, xValue⟩ := x
    obtain ⟨yKey, yValue⟩ := y
    have apart : yKey ≠ xKey := by
      intro same
      exact (List.nodup_cons.1 distinct).1 (List.mem_cons.2 (.inl same))
    simp only [List.lookup_cons]
    by_cases isX : key = xKey
    · have notY : (key == yKey) = false := beq_eq_false_iff_ne.2 (isX ▸ apart.symm)
      rw [notY]
    · rw [beq_eq_false_iff_ne.2 isX]
  | trans perm _ ihFirst ihSecond =>
    rw [ihFirst distinct, ihSecond ((perm.map Prod.fst).nodup_iff.1 distinct)]

/-- The same entries in another order, with every key once, leave every key with the same value. -/
theorem lastValue_of_perm {first second : List (String × String)} (perm : first.Perm second)
    (distinct : (first.map Prod.fst).Nodup) (key : String) :
    lastValue first key = lastValue second key := by
  refine lookup_of_perm ((List.reverse_perm first).trans (perm.trans (List.reverse_perm _).symm)) ?_
    key
  rwa [List.map_reverse, List.nodup_reverse]

/-! ## The round trip -/

namespace ProtobufCodec

variable {calendar : Calendar} {P D : Type}

/-- Milliseconds are all the envelope has of the timestamp. -/
theorem fromIntegrationEvent_roundDown (codec : ProtobufCodec P D)
    (event : IntegrationEvent calendar P) :
    codec.fromIntegrationEvent event.roundDown = codec.fromIntegrationEvent event := by
  unfold fromIntegrationEvent IntegrationEvent.roundDown
  simp only [DateTime.timestampMillis_roundDown]

/-- What is copied into an envelope is copied back, with the timestamp rounded down. -/
theorem intoIntegrationEvent_fromIntegrationEvent {codec : ProtobufCodec P D}
    {event : IntegrationEvent calendar P} (lossless : codec.Lossless event)
    (regular : ¬ event.occurredAt.IsLeapSecond) :
    codec.intoIntegrationEvent calendar (codec.fromIntegrationEvent event) =
      .ok event.roundDown := by
  have correlation : (event.correlationId.map CorrelationId.value).map CorrelationId.mk =
      event.correlationId := by
    cases event.correlationId <;> rfl
  have causation : (event.causationId.map CausationId.value).map CausationId.mk =
      event.causationId := by
    cases event.causationId <;> rfl
  unfold intoIntegrationEvent fromIntegrationEvent
  simp only [lossless.uuid, lossless.payload, collectMetadata_eq, correlation, causation,
    DateTime.fromTimestampMillis_timestampMillis regular]
  rfl

/-- A serialized event is deserialized with its timestamp rounded down. -/
theorem deserialize_serialize {codec : ProtobufCodec P D} {event : IntegrationEvent calendar P}
    (lossless : codec.Lossless event) (regular : ¬ event.occurredAt.IsLeapSecond) :
    (codec.serialize event >>= codec.deserialize calendar) = .ok event.roundDown := by
  calc (codec.serialize event >>= codec.deserialize calendar)
      = (codec.decodeEnvelope
          (codec.encodeEnvelope (codec.fromIntegrationEvent event))).mapError .decode >>=
            codec.intoIntegrationEvent calendar := rfl
    _ = codec.intoIntegrationEvent calendar (codec.fromIntegrationEvent event) := by
        rw [lossless.envelope]
        rfl
    _ = .ok event.roundDown := intoIntegrationEvent_fromIntegrationEvent lossless regular

/-- What is assumed of an event holds of it rounded down, which makes the same envelope. -/
theorem Lossless.roundDown {codec : ProtobufCodec P D} {event : IntegrationEvent calendar P}
    (lossless : codec.Lossless event) : codec.Lossless event.roundDown where
  envelope := by
    rw [fromIntegrationEvent_roundDown]
    exact lossless.envelope
  payload := lossless.payload
  uuid := lossless.uuid

/-- The round trip of an event over the wire. -/
structure RoundTrips (codec : ProtobufCodec P D) (event : IntegrationEvent calendar P) : Prop where
  returns : (codec.serialize event >>= codec.deserialize calendar) = .ok event.roundDown
  stable : (codec.serialize event.roundDown >>= codec.deserialize calendar) = .ok event.roundDown
  reordered : ∀ first second : List (String × String), first.Perm second →
    (first.map Prod.fst).Nodup →
      codec.serialize (event.withEntries first) = codec.serialize (event.withEntries second)
  overwritten : ∀ first second, (∀ key, lastValue first key = lastValue second key) →
    codec.serialize (event.withEntries first) = codec.serialize (event.withEntries second)

/-- Every event other than one at a leap second makes the round trip. -/
theorem envelope_round_trips (codec : ProtobufCodec P D) (event : IntegrationEvent calendar P)
    (lossless : codec.Lossless event) (regular : ¬ event.occurredAt.IsLeapSecond) :
    codec.RoundTrips event where
  returns := deserialize_serialize lossless regular
  stable := by
    have again : event.roundDown.roundDown = event.roundDown := by
      unfold IntegrationEvent.roundDown
      simp only [DateTime.roundDown_roundDown]
    have trip := deserialize_serialize lossless.roundDown
      (DateTime.not_isLeapSecond_roundDown regular)
    rwa [again] at trip
  reordered := fun first second perm distinct => by
    rw [event.withEntries_congr (lastValue_of_perm perm distinct)]
  overwritten := fun first second same => by
    rw [event.withEntries_congr same]

/-! ## An event before the epoch -/

/-- The base-128 digits of a number, the lowest first. -/
def varint (n : Nat) : List UInt8 :=
  if n < 128 then [UInt8.ofNat n] else UInt8.ofNat (n % 128 + 128) :: varint (n / 128)

/-- A length-delimited field. -/
def delimitedField (tag : Nat) (content : List UInt8) : List UInt8 :=
  varint (8 * tag + 2) ++ varint content.length ++ content

/-- A bytes or string field, left out when it is empty. -/
def bytesField (tag : Nat) (content : List UInt8) : List UInt8 :=
  if content = [] then [] else delimitedField tag content

/-- An integer field, left out when it is zero. -/
def varintField (tag n : Nat) : List UInt8 :=
  if n = 0 then [] else varint (8 * tag) ++ varint n

/-- An optional string, which is written when it is there, even empty. -/
def optionalField (tag : Nat) (value : Option String) : List UInt8 :=
  value.elim [] fun s => delimitedField tag (Text.bytes s)

/-- The Protobuf encoding of an envelope. -/
def envelopeBytes (e : IntegrationEventEnvelope) : List UInt8 :=
  bytesField 1 (Text.bytes e.eventId) ++ bytesField 2 (Text.bytes e.eventType) ++
    varintField 3 e.schemaVersion.toNat ++ varintField 4 (e.occurredAtMs.val % 2 ^ 64).toNat ++
    optionalField 5 e.aggregateId ++ optionalField 6 e.correlationId ++
    optionalField 7 e.causationId ++ bytesField 8 (Text.bytes e.source) ++
    optionalField 9 e.tenantId ++ optionalField 10 e.traceId ++ bytesField 11 e.payload ++
    e.metadata.toList.flatMap fun entry =>
      delimitedField 12 (bytesField 1 (Text.bytes entry.1) ++ bytesField 2 (Text.bytes entry.2))

/-- The days of `chrono`, of the years from -262143 to 262142. -/
def chronoCalendar : Calendar where
  firstDay := -96465292
  lastDay := 95026236
  first_fits := by decide
  last_fits := by decide

/-- An event of the last nanosecond before the epoch, with an empty payload. -/
def pastEvent : IntegrationEvent chronoCalendar Unit where
  eventId := 0
  eventType := "OrderPlaced"
  schemaVersion := 1
  occurredAt :=
    { day := -1
      second := 86399
      nano := 999999999
      first_le := by decide
      le_last := by decide
      second_lt := by decide
      nano_lt := by decide }
  aggregateId := some ""
  correlationId := some ⟨"corr-1"⟩
  causationId := none
  source := "orders"
  tenantId := none
  traceId := none
  payload := ()
  metadata := Std.ExtTreeMap.ofList [("shard", "7"), ("region", "us-east-1")] compare

/-- The envelope of `pastEvent`. -/
def pastEnvelope : IntegrationEventEnvelope where
  eventId := "00000000-0000-0000-0000-000000000000"
  eventType := "OrderPlaced"
  schemaVersion := 1
  occurredAtMs := ⟨-1, by decide⟩
  aggregateId := some ""
  correlationId := some "corr-1"
  causationId := none
  source := "orders"
  tenantId := none
  traceId := none
  payload := []
  metadata := pastEvent.metadata

/-- The encoding of every envelope, which is decoded for the one of `pastEvent`. -/
def pastCodec : ProtobufCodec Unit String where
  encodeEnvelope := envelopeBytes
  decodeEnvelope bytes :=
    if bytes = envelopeBytes pastEnvelope then .ok pastEnvelope else .error "invalid wire type"
  encodePayload _ := []
  decodePayload _ := .ok ()
  uuidText _ := "00000000-0000-0000-0000-000000000000"
  parseUuid text :=
    if text = "00000000-0000-0000-0000-000000000000" then .ok 0 else .error "invalid length"

theorem pastEvent_envelope : pastCodec.fromIntegrationEvent pastEvent = pastEnvelope := by
  have millis : pastEvent.occurredAt.timestampMillis = ⟨-1, by decide⟩ := by decide
  unfold fromIntegrationEvent
  rw [millis, collectMetadata_eq]
  rfl

theorem envelope_round_trips_pastEvent : pastCodec.RoundTrips pastEvent := by
  refine envelope_round_trips pastCodec pastEvent ⟨?_, rfl, ?_⟩ (by decide)
  · rw [pastEvent_envelope]
    exact if_pos rfl
  · simp only [pastCodec, if_true]
    rfl

end ProtobufCodec

end Pharos
