import Mathlib.Data.List.Induction
import Pharos.App.Json
import Pharos.Memory.DashMap

/-!
# JSON upcasters

`pharos-app/src/upcast.rs`.  The registry keeps one upcaster for each type and version, and beside
them the highest version that the upcasters of a type reach.  `decode` steps the payload of an
envelope up as long as there is an upcaster, and then compares the version it stopped at with that
memo.  Versions are `u32`; parsing bytes and reading the envelope as an event are left to `serde`.

`Climbs` is what the upcasters of a type do to a payload, one version after the other.  The loop
follows it (`stepUp_climbs`), and it always comes to a stop (`exists_stop`), since no upcaster starts
at the version that the memo names.
-/

namespace Pharos

open Json

/-- An upcaster of payloads. -/
abbrev UpcastFn (ε : Type) := Value → Except ε Value

/-- `UpcastError`, over the errors `ε` of upcasters and `J` of `serde_json`. -/
inductive UpcastError (ε J : Type) where
  | json (error : J)
  | malformedEnvelope
  | versionOutOfRange (version : UInt64)
  | unsupportedVersion (eventType : String) (version knownUpTo : ℕ)
  | transform (eventType : String) (fromVersion : ℕ) (source : ε)
  | gapInChain (eventType : String) (stoppedAt knownUpTo : ℕ)

/-- The upcasters, and the highest version each type's upcasters reach. -/
structure JsonUpcasterRegistry (ε : Type) where
  upcasters : DashMap (String × ℕ) (UpcastFn ε) := ∅
  maxKnownVersion : DashMap String ℕ := ∅

namespace JsonUpcasterRegistry

variable {ε J α : Type}

/-- `JsonUpcasterRegistry::with_upcaster`. -/
def withUpcaster (registry : JsonUpcasterRegistry ε) (eventType : String) (fromVersion : ℕ)
    (upcast : UpcastFn ε) : JsonUpcasterRegistry ε :=
  let reaches := (fromVersion + 1) % 2 ^ 32
  { maxKnownVersion := registry.maxKnownVersion.put eventType
      ((registry.maxKnownVersion.get eventType).elim reaches fun max => Nat.max max reaches)
    upcasters := registry.upcasters.put (eventType, fromVersion) upcast }

/-- `JsonUpcasterRegistry::get`. -/
def get (registry : JsonUpcasterRegistry ε) (eventType : String) (fromVersion : ℕ) :
    Option (UpcastFn ε) := registry.upcasters.get (eventType, fromVersion)

/-- The loop of `decode`: the envelope and the version it stops at, if that takes at most `fuel`
rounds. -/
def stepUp (registry : JsonUpcasterRegistry ε) (eventType : String) :
    ℕ → Members → ℕ → Option (Except (UpcastError ε J) (Members × ℕ))
  | 0, _, _ => none
  | fuel + 1, obj, version =>
      match registry.get eventType version with
      | none => some (.ok (obj, version))
      | some upcast =>
          match obj.get "payload" with
          | none => some (.error .malformedEnvelope)
          | some payload =>
              let obj := obj.remove "payload"
              match upcast payload with
              | .error source => some (.error (.transform eventType version source))
              | .ok upgraded =>
                  let obj := obj.insert "payload" upgraded
                  let version := (version + 1) % 2 ^ 32
                  let obj := obj.insert "schema_version" (.number (.posInt (.ofNat version)))
                  stepUp registry eventType fuel obj version

end JsonUpcasterRegistry

/-- `VersionedJsonCodec` at one event type: its registry, and what `serde` does. -/
structure VersionedJsonCodec (ε J α : Type) where
  registry : JsonUpcasterRegistry ε
  /-- `serde_json::from_slice` -/
  fromSlice : List UInt8 → Except J Value
  /-- `serde_json::from_value` -/
  fromValue : Value → Except J α

namespace VersionedJsonCodec

variable {ε J α : Type}

/-- `Ok(serde_json::from_value(envelope)?)`. -/
def deserialize (codec : VersionedJsonCodec ε J α) (envelope : Value) : Except (UpcastError ε J) α :=
  (codec.fromValue envelope).mapError .json

/-- The end of `decode`: where the loop stopped against what the registry knows. -/
def finish (codec : VersionedJsonCodec ε J α) (eventType : String) (obj : Members) (version : ℕ) :
    Except (UpcastError ε J) α :=
  match codec.registry.maxKnownVersion.get eventType with
  | none => codec.deserialize (.object obj)
  | some knownUpTo =>
      if knownUpTo < version then .error (.unsupportedVersion eventType version knownUpTo)
      else if version < knownUpTo then .error (.gapInChain eventType version knownUpTo)
      else codec.deserialize (.object obj)

/-- `VersionedJsonCodec::decode`, if its loop takes at most `fuel` rounds. -/
def decode (codec : VersionedJsonCodec ε J α) (fuel : ℕ) (wire : List UInt8) :
    Option (Except (UpcastError ε J) α) :=
  match codec.fromSlice wire with
  | .error error => some (.error (.json error))
  | .ok envelope =>
    match envelope.asObject with
    | none => some (.error .malformedEnvelope)
    | some obj =>
      match (obj.get "event_type").bind Value.asStr with
      | none => some (.error .malformedEnvelope)
      | some eventType =>
        match (obj.get "schema_version").bind Value.asU64 with
        | none => some (.error .malformedEnvelope)
        | some rawVersion =>
          if 2 ^ 32 ≤ rawVersion.toNat then some (.error (.versionOutOfRange rawVersion))
          else
            match codec.registry.stepUp eventType fuel obj rawVersion.toNat with
            | none => none
            | some (.error error) => some (.error error)
            | some (.ok (obj, version)) => some (codec.finish eventType obj version)

end VersionedJsonCodec

/-! ## What decoding is meant to do -/

section Meaning

variable {ε J α : Type}

/-- One call of `with_upcaster`. -/
structure Registration (ε : Type) where
  eventType : String
  fromVersion : ℕ
  upcast : UpcastFn ε

/-- The registry after a sequence of calls. -/
def JsonUpcasterRegistry.build (calls : List (Registration ε)) : JsonUpcasterRegistry ε :=
  calls.foldl (fun registry call =>
    registry.withUpcaster call.eventType call.fromVersion call.upcast) {}

/-- The upcaster that was registered last for a version. -/
def lastUpcaster (calls : List (Registration ε)) (eventType : String) (version : ℕ) :
    Option (UpcastFn ε) :=
  (calls.reverse.find? fun call => call.eventType = eventType ∧ call.fromVersion = version).map
    Registration.upcast

/-- One more than the largest version that an upcaster of the type was registered for. -/
def Top (calls : List (Registration ε)) (eventType : String) (top : ℕ) : Prop :=
  (∃ call ∈ calls, call.eventType = eventType ∧ call.fromVersion + 1 = top) ∧
    ∀ call ∈ calls, call.eventType = eventType → call.fromVersion < top

/-- The upcasters of the type take the payload `start` at version `low` to `payload` at version
`version`, one after the other. -/
inductive Climbs (upcaster : ℕ → Option (UpcastFn ε)) (low : ℕ) (start : Option Value) :
    ℕ → Option Value → Prop
  | here : Climbs upcaster low start low start
  | up {version : ℕ} {payload upgraded : Value} {upcast : UpcastFn ε}
      (below : Climbs upcaster low start version (some payload))
      (registered : upcaster version = some upcast) (succeeds : upcast payload = .ok upgraded) :
      Climbs upcaster low start (version + 1) (some upgraded)

/-- `obj'` is the envelope `obj` with another version and payload. -/
structure Rewritten (obj : Members) (version : ℕ) (payload : Option Value) (obj' : Members) :
    Prop where
  version : obj'.get "schema_version" = some (.number (.posInt (.ofNat version)))
  payload : obj'.get "payload" = payload
  rest : ∀ key, key ≠ "schema_version" → key ≠ "payload" → obj'.get key = obj.get key

/-- What decoding the envelope `obj`, of type `eventType` and version `raw`, is to result in. -/
structure Decodes (calls : List (Registration ε)) (deserialize : Value → Except (UpcastError ε J) α)
    (obj : Members) (eventType : String) (raw : UInt64) (result : Except (UpcastError ε J) α) :
    Prop where
  outOfRange : 2 ^ 32 ≤ raw.toNat → result = .error (.versionOutOfRange raw)
  unregistered : raw.toNat < 2 ^ 32 → (∀ call ∈ calls, call.eventType ≠ eventType) →
    result = deserialize (.object obj)
  unsupported : ∀ top, Top calls eventType top → raw.toNat < 2 ^ 32 → top < raw.toNat →
    result = .error (.unsupportedVersion eventType raw.toNat top)
  upcast : ∀ top payload, Top calls eventType top →
    Climbs (lastUpcaster calls eventType) raw.toNat (obj.get "payload") top payload →
    ∃ obj', Rewritten obj top payload obj' ∧ result = deserialize (.object obj')
  gap : ∀ top stopped payload, Top calls eventType top →
    Climbs (lastUpcaster calls eventType) raw.toNat (obj.get "payload") stopped payload →
    stopped < top → lastUpcaster calls eventType stopped = none →
    result = .error (.gapInChain eventType stopped top)
  transform : ∀ stopped payload upcast source,
    Climbs (lastUpcaster calls eventType) raw.toNat (obj.get "payload") stopped (some payload) →
    lastUpcaster calls eventType stopped = some upcast → upcast payload = .error source →
    result = .error (.transform eventType stopped source)
  noPayload : obj.get "payload" = none → raw.toNat < 2 ^ 32 →
    lastUpcaster calls eventType raw.toNat ≠ none → result = .error .malformedEnvelope

end Meaning

/-! ## The registry -/

section Registry

variable {ε : Type} {calls : List (Registration ε)} {eventType : String} {version top : ℕ}

open JsonUpcasterRegistry

theorem build_concat (calls : List (Registration ε)) (call : Registration ε) :
    build (calls ++ [call]) =
      (build calls).withUpcaster call.eventType call.fromVersion call.upcast := by
  unfold build
  rw [List.foldl_append]
  rfl

theorem lastUpcaster_concat (calls : List (Registration ε)) (call : Registration ε)
    (eventType : String) (version : ℕ) :
    lastUpcaster (calls ++ [call]) eventType version =
      if call.eventType = eventType ∧ call.fromVersion = version then some call.upcast
      else lastUpcaster calls eventType version := by
  unfold lastUpcaster
  rw [List.reverse_append, List.reverse_singleton, List.singleton_append, List.find?_cons]
  by_cases same : call.eventType = eventType ∧ call.fromVersion = version
  · rw [if_pos same, decide_eq_true same]
    rfl
  · rw [if_neg same, decide_eq_false same]

/-- The registry keeps the upcaster that was registered last. -/
theorem get_build (calls : List (Registration ε)) (eventType : String) (version : ℕ) :
    (build calls).get eventType version = lastUpcaster calls eventType version := by
  induction calls using List.reverseRecOn with
  | nil => exact DashMap.get_empty _
  | append_singleton calls call ih =>
      rw [build_concat, lastUpcaster_concat, ← ih]
      simp only [JsonUpcasterRegistry.get, withUpcaster, DashMap.get_put, Prod.mk.injEq, eq_comm]

theorem Top.unique {other : ℕ} (first : Top calls eventType top) (second : Top calls eventType other) :
    top = other := by
  obtain ⟨⟨call, listed, same, rfl⟩, bound⟩ := first
  obtain ⟨⟨call', listed', same', rfl⟩, bound'⟩ := second
  have := bound call' listed' same'
  have := bound' call listed same
  omega

/-- The memo of a type is its top, and a type without upcasters has none. -/
theorem maxKnownVersion_build (below : ∀ call ∈ calls, call.fromVersion < 2 ^ 32 - 1)
    (eventType : String) :
    ((build calls).maxKnownVersion.get eventType).elim
      (∀ call ∈ calls, call.eventType ≠ eventType) (Top calls eventType) := by
  induction calls using List.reverseRecOn with
  | nil =>
      have none : (build ([] : List (Registration ε))).maxKnownVersion.get eventType = none :=
        DashMap.get_empty _
      rw [none]
      exact fun _ listed => by cases listed
  | append_singleton calls call ih =>
      obtain ⟨before, now⟩ := List.forall_mem_append.mp below
      have fits : (call.fromVersion + 1) % 2 ^ 32 = call.fromVersion + 1 := by
        have := now call (List.mem_singleton_self _)
        exact Nat.mod_eq_of_lt (by omega)
      have known := ih before
      rw [build_concat]
      simp only [withUpcaster, DashMap.get_put, fits]
      by_cases same : eventType = call.eventType
      · subst same
        rw [if_pos rfl, Option.elim_some]
        cases memo : (build calls).maxKnownVersion.get call.eventType with
        | none =>
            rw [memo, Option.elim_none] at known
            refine ⟨⟨call, by simp, rfl, rfl⟩, List.forall_mem_append.mpr ⟨?_, by simp⟩⟩
            exact fun other listed alike => (known other listed alike).elim
        | some max =>
            rw [memo, Option.elim_some] at known
            obtain ⟨⟨highest, listed, alike, rfl⟩, bound⟩ := known
            simp only [Option.elim_some]
            refine ⟨?_, List.forall_mem_append.mpr
              ⟨fun other listed alike => ?_, List.forall_mem_singleton.mpr fun _ => ?_⟩⟩
            · rcases Nat.le_total (highest.fromVersion + 1) (call.fromVersion + 1) with le | le
              · exact ⟨call, by simp, rfl, (Nat.max_eq_right le).symm⟩
              · exact ⟨highest, by simp [listed], alike, (Nat.max_eq_left le).symm⟩
            · exact Nat.lt_of_lt_of_le (bound other listed alike) (Nat.le_max_left _ _)
            · exact Nat.lt_of_lt_of_le (Nat.lt_succ_self _) (Nat.le_max_right _ _)
      · rw [if_neg same]
        cases memo : (build calls).maxKnownVersion.get eventType with
        | none =>
            rw [memo, Option.elim_none] at known
            refine List.forall_mem_append.mpr ⟨known, List.forall_mem_singleton.mpr ?_⟩
            exact Ne.symm same
        | some max =>
            rw [memo, Option.elim_some] at known
            obtain ⟨⟨highest, listed, alike, rfl⟩, bound⟩ := known
            refine ⟨⟨highest, by simp [listed], alike, rfl⟩,
              List.forall_mem_append.mpr ⟨bound, List.forall_mem_singleton.mpr fun alike => ?_⟩⟩
            exact (same alike.symm).elim

theorem exists_of_lastUpcaster {upcast : UpcastFn ε}
    (registered : lastUpcaster calls eventType version = some upcast) :
    ∃ call ∈ calls, call.eventType = eventType ∧ call.fromVersion = version := by
  obtain ⟨call, found, -⟩ := Option.map_eq_some_iff.mp registered
  exact ⟨call, List.mem_reverse.mp (List.mem_of_find?_eq_some found),
    of_decide_eq_true (List.find?_some (p := fun call : Registration ε => decide
      (call.eventType = eventType ∧ call.fromVersion = version)) found)⟩

/-- No upcaster starts at the top or above. -/
theorem lastUpcaster_of_top_le (known : Top calls eventType top) (above : top ≤ version) :
    lastUpcaster calls eventType version = none := by
  cases registered : lastUpcaster calls eventType version with
  | none => rfl
  | some upcast =>
      obtain ⟨call, listed, same, rfl⟩ := exists_of_lastUpcaster registered
      exact absurd (known.2 call listed same) (Nat.not_lt.mpr above)

theorem Top.lt (below : ∀ call ∈ calls, call.fromVersion < 2 ^ 32 - 1)
    (known : Top calls eventType top) : top < 2 ^ 32 := by
  obtain ⟨⟨call, listed, -, rfl⟩, -⟩ := known
  have := below call listed
  omega

end Registry

/-! ## The loop -/

section Loop

variable {ε J : Type} {calls : List (Registration ε)} {eventType : String} {obj : Members}
  {low version : ℕ} {payload : Option Value}

open JsonUpcasterRegistry

theorem Climbs.le {upcaster : ℕ → Option (UpcastFn ε)} {start : Option Value}
    (climbs : Climbs upcaster low start version payload) : low ≤ version := by
  induction climbs with
  | here => exact Nat.le_refl _
  | up below registered succeeds ih => exact Nat.le_succ_of_le ih

/-- The envelope after one round. -/
theorem rewritten_insert {middle : Members} (before : Rewritten obj low payload middle)
    (version : ℕ) (upgraded : Value) :
    Rewritten obj version (some upgraded) (((middle.remove "payload").insert "payload" upgraded).insert
      "schema_version" (.number (.posInt (.ofNat version)))) := by
  refine ⟨?_, ?_, fun key notVersion notPayload => ?_⟩
  · rw [Members.get_insert, if_pos rfl]
  · rw [Members.get_insert, if_neg (by decide), Members.get_insert, if_pos rfl]
  · rw [Members.get_insert, if_neg notVersion, Members.get_insert, if_neg notPayload,
      Members.get_remove_of_ne _ notPayload, before.rest key notVersion notPayload]

/-- The loop does what the upcasters do, and does not wrap around. -/
theorem stepUp_climbs (below : ∀ call ∈ calls, call.fromVersion < 2 ^ 32 - 1)
    (versioned : obj.get "schema_version" = some (.number (.posInt (.ofNat low))))
    (climbs : Climbs (lastUpcaster calls eventType) low (obj.get "payload") version payload) :
    ∃ steps obj', Rewritten obj version payload obj' ∧ ∀ fuel,
      (stepUp (build calls) eventType (fuel + steps) obj low : Option (Except (UpcastError ε J) _)) =
        stepUp (build calls) eventType fuel obj' version := by
  induction climbs with
  | here => exact ⟨0, obj, ⟨versioned, rfl, fun _ _ _ => rfl⟩, fun fuel => rfl⟩
  | @up version payload upgraded upcast climbed registered succeeds ih =>
      obtain ⟨steps, middle, rewritten, follows⟩ := ih
      obtain ⟨call, listed, -, rfl⟩ := exists_of_lastUpcaster registered
      have fits : (call.fromVersion + 1) % 2 ^ 32 = call.fromVersion + 1 := by
        have := below call listed
        exact Nat.mod_eq_of_lt (by omega)
      refine ⟨steps + 1, _, rewritten_insert rewritten (call.fromVersion + 1) upgraded, fun fuel => ?_⟩
      rw [← Nat.add_assoc, Nat.add_right_comm, follows, stepUp, get_build, registered]
      simp only [rewritten.payload, succeeds, fits]

/-- What stops the loop. -/
def Stops (upcaster : ℕ → Option (UpcastFn ε)) (version : ℕ) : Option Value → Prop
  | none => True
  | some payload => ∀ upcast, upcaster version = some upcast → ∃ source, upcast payload = .error source

/-- Every climb goes on until something stops it. -/
theorem exists_stop {upcaster : ℕ → Option (UpcastFn ε)} {bound : ℕ} {start : Option Value}
    (ends : ∀ version, bound ≤ version → upcaster version = none)
    (climbs : Climbs upcaster low start version payload) :
    ∃ stopped payload, Climbs upcaster low start stopped payload ∧ Stops upcaster stopped payload := by
  induction rest : bound - version generalizing version payload with
  | zero =>
      have none : upcaster version = none := ends version (by omega)
      refine ⟨version, payload, climbs, ?_⟩
      cases payload with
      | none => trivial
      | some payload => exact fun upcast registered => by rw [none] at registered; cases registered
  | succ rest ih =>
      cases payload with
      | none => exact ⟨version, none, climbs, trivial⟩
      | some payload =>
          cases registered : upcaster version with
          | none =>
              refine ⟨version, some payload, climbs, fun upcast found => ?_⟩
              rw [registered] at found
              cases found
          | some upcast =>
              cases result : upcast payload with
              | error source =>
                  refine ⟨version, some payload, climbs, fun other found => ?_⟩
                  rw [registered] at found
                  cases found
                  exact ⟨source, result⟩
              | ok upgraded => exact ih (climbs.up registered result) (by omega)

end Loop

/-! ## Decoding -/

namespace VersionedJsonCodec

variable {ε J α : Type} {codec : VersionedJsonCodec ε J α} {wire : List UInt8} {obj : Members}
  {eventType : String} {raw : UInt64} {calls : List (Registration ε)}

/-- Decoding comes to an end, with this result. -/
def Returns (codec : VersionedJsonCodec ε J α) (wire : List UInt8)
    (result : Except (UpcastError ε J) α) : Prop :=
  ∃ enough, ∀ fuel, enough ≤ fuel → codec.decode fuel wire = some result

theorem Returns.unique {first second : Except (UpcastError ε J) α}
    (returns : codec.Returns wire first) (returns' : codec.Returns wire second) : first = second := by
  obtain ⟨enough, settled⟩ := returns
  obtain ⟨enough', settled'⟩ := returns'
  have same := settled (max enough enough') (Nat.le_max_left _ _)
  rw [settled' (max enough enough') (Nat.le_max_right _ _)] at same
  exact (Option.some.inj same).symm

/-- The wire holds a JSON object with an event type and a schema version. -/
structure Envelope (codec : VersionedJsonCodec ε J α) (wire : List UInt8) (obj : Members)
    (eventType : String) (raw : UInt64) : Prop where
  parsed : codec.fromSlice wire = .ok (.object obj)
  typed : obj.get "event_type" = some (.string eventType)
  versioned : obj.get "schema_version" = some (.number (.posInt raw))

theorem returns_outOfRange (envelope : codec.Envelope wire obj eventType raw)
    (large : 2 ^ 32 ≤ raw.toNat) :
    codec.Returns wire (.error (.versionOutOfRange raw)) := by
  refine ⟨0, fun fuel _ => ?_⟩
  unfold decode
  simp only [envelope.parsed, Value.asObject, envelope.typed, Option.bind_some, Value.asStr,
    envelope.versioned, Value.asU64, if_pos large]

/-- Once the loop is at `stopped`, the next round decides. -/
theorem returns_of_stop (steps : ℕ) (envelope : codec.Envelope wire obj eventType raw) {stopped : ℕ}
    {obj' : Members} {result : Except (UpcastError ε J) α} (small : raw.toNat < 2 ^ 32)
    (follows : ∀ fuel, (codec.registry.stepUp eventType (fuel + steps) obj raw.toNat :
      Option (Except (UpcastError ε J) _)) = codec.registry.stepUp eventType fuel obj' stopped)
    (last : ∀ fuel, (codec.registry.stepUp eventType (fuel + 1) obj' stopped :
      Option (Except (UpcastError ε J) _)) = some (.ok (obj', stopped)) ∧
        result = codec.finish eventType obj' stopped ∨
      ∃ error, codec.registry.stepUp eventType (fuel + 1) obj' stopped = some (.error error) ∧
        result = .error error) : codec.Returns wire result := by
  refine ⟨steps + 1, fun fuel enough => ?_⟩
  obtain ⟨more, rfl⟩ := Nat.exists_eq_add_of_le enough
  have shape : steps + 1 + more = more + 1 + steps := by omega
  unfold decode
  simp only [envelope.parsed, Value.asObject, envelope.typed, Option.bind_some, Value.asStr,
    envelope.versioned, Value.asU64, if_neg (Nat.not_le.mpr small), shape, follows]
  rcases last more with ⟨ended, rfl⟩ | ⟨error, failed, rfl⟩
  · rw [ended]
  · rw [failed]

variable {stopped top : ℕ} {payload : Option Value}

theorem returns_here (built : codec.registry = .build calls)
    (envelope : codec.Envelope wire obj eventType raw) (small : raw.toNat < 2 ^ 32)
    (unregistered : lastUpcaster calls eventType raw.toNat = none) :
    codec.Returns wire (codec.finish eventType obj raw.toNat) := by
  refine returns_of_stop 0 envelope small (fun _ => rfl) fun fuel => .inl ⟨?_, rfl⟩
  rw [JsonUpcasterRegistry.stepUp, built, get_build, unregistered]

/-- The loop stops where no upcaster is registered. -/
theorem returns_of_none (built : codec.registry = .build calls)
    (below : ∀ call ∈ calls, call.fromVersion < 2 ^ 32 - 1)
    (envelope : codec.Envelope wire obj eventType raw) (small : raw.toNat < 2 ^ 32)
    (climbs : Climbs (lastUpcaster calls eventType) raw.toNat (obj.get "payload") stopped payload)
    (unregistered : lastUpcaster calls eventType stopped = none) :
    ∃ obj', Rewritten obj stopped payload obj' ∧
      codec.Returns wire (codec.finish eventType obj' stopped) := by
  have versioned := envelope.versioned
  rw [← UInt64.ofNat_toNat (x := raw)] at versioned
  obtain ⟨steps, obj', rewritten, follows⟩ := stepUp_climbs (J := J) below versioned climbs
  rw [← built] at follows
  refine ⟨obj', rewritten, returns_of_stop steps envelope small follows fun fuel => .inl ⟨?_, rfl⟩⟩
  rw [JsonUpcasterRegistry.stepUp, built, get_build, unregistered]

/-- A registered upcaster that cannot be applied ends the loop with an error. -/
theorem returns_of_error (built : codec.registry = .build calls)
    (below : ∀ call ∈ calls, call.fromVersion < 2 ^ 32 - 1)
    (envelope : codec.Envelope wire obj eventType raw) (small : raw.toNat < 2 ^ 32)
    (climbs : Climbs (lastUpcaster calls eventType) raw.toNat (obj.get "payload") stopped payload)
    {upcast : UpcastFn ε} (registered : lastUpcaster calls eventType stopped = some upcast) :
    (payload = none → codec.Returns wire (.error .malformedEnvelope)) ∧
      ∀ value source, payload = some value → upcast value = .error source →
        codec.Returns wire (.error (.transform eventType stopped source)) := by
  have versioned := envelope.versioned
  rw [← UInt64.ofNat_toNat (x := raw)] at versioned
  obtain ⟨steps, obj', rewritten, follows⟩ := stepUp_climbs (J := J) below versioned climbs
  rw [← built] at follows
  have held := rewritten.payload
  refine ⟨fun missing => ?_, fun value source present fails => ?_⟩
  · refine returns_of_stop steps envelope small follows fun fuel => .inr ⟨_, ?_, rfl⟩
    rw [missing] at held
    rw [JsonUpcasterRegistry.stepUp, built, get_build, registered]
    simp only [held]
  · refine returns_of_stop steps envelope small follows fun fuel => .inr ⟨_, ?_, rfl⟩
    rw [present] at held
    rw [JsonUpcasterRegistry.stepUp, built, get_build, registered]
    simp only [held, fails]

theorem finish_of_unregistered (built : codec.registry = .build calls)
    (below : ∀ call ∈ calls, call.fromVersion < 2 ^ 32 - 1)
    (unregistered : ∀ call ∈ calls, call.eventType ≠ eventType) (version : ℕ) :
    codec.finish eventType obj version = codec.deserialize (.object obj) := by
  have known := maxKnownVersion_build below eventType
  unfold finish
  rw [built]
  cases memo : (JsonUpcasterRegistry.build calls).maxKnownVersion.get eventType with
  | none => rfl
  | some top =>
      rw [memo] at known
      obtain ⟨⟨call, listed, same, -⟩, -⟩ := known
      exact (unregistered call listed same).elim

theorem finish_of_top (built : codec.registry = .build calls)
    (below : ∀ call ∈ calls, call.fromVersion < 2 ^ 32 - 1) (known : Top calls eventType top)
    (obj : Members) (version : ℕ) :
    codec.finish eventType obj version =
      if top < version then .error (.unsupportedVersion eventType version top)
      else if version < top then .error (.gapInChain eventType version top)
      else codec.deserialize (.object obj) := by
  have memoized := maxKnownVersion_build below eventType
  unfold finish
  rw [built]
  cases memo : (JsonUpcasterRegistry.build calls).maxKnownVersion.get eventType with
  | none =>
      rw [memo] at memoized
      obtain ⟨⟨call, listed, same, -⟩, -⟩ := known
      exact (memoized call listed same).elim
  | some max =>
      rw [memo] at memoized
      rw [known.unique memoized]

/-- What decoding returns is what it is meant to return. -/
theorem Returns.decodes {result : Except (UpcastError ε J) α} (returns : codec.Returns wire result)
    (built : codec.registry = .build calls)
    (below : ∀ call ∈ calls, call.fromVersion < 2 ^ 32 - 1)
    (envelope : codec.Envelope wire obj eventType raw) :
    Decodes calls codec.deserialize obj eventType raw result := by
  constructor
  case outOfRange =>
    intro large
    exact returns.unique (returns_outOfRange envelope large)
  case unregistered =>
    intro small unregistered
    have none : lastUpcaster calls eventType raw.toNat = none := by
      cases found : lastUpcaster calls eventType raw.toNat with
      | none => rfl
      | some upcast =>
          obtain ⟨call, listed, same, -⟩ := exists_of_lastUpcaster found
          exact (unregistered call listed same).elim
    rw [← finish_of_unregistered built below unregistered raw.toNat]
    exact returns.unique (returns_here built envelope small none)
  case unsupported =>
    intro top known small above
    have none := lastUpcaster_of_top_le known (Nat.le_of_lt above)
    have finished := finish_of_top built below known obj raw.toNat
    rw [if_pos above] at finished
    rw [← finished]
    exact returns.unique (returns_here built envelope small none)
  case upcast =>
    intro top payload known climbs
    have small := Nat.lt_of_le_of_lt climbs.le (known.lt below)
    have none := lastUpcaster_of_top_le known (Nat.le_refl top)
    obtain ⟨obj', rewritten, returns'⟩ := returns_of_none built below envelope small climbs none
    rw [finish_of_top built below known, if_neg (Nat.lt_irrefl _), if_neg (Nat.lt_irrefl _)]
      at returns'
    exact ⟨obj', rewritten, returns.unique returns'⟩
  case gap =>
    intro top stopped payload known climbs short none
    have small := Nat.lt_trans (Nat.lt_of_le_of_lt climbs.le short) (known.lt below)
    obtain ⟨obj', -, returns'⟩ := returns_of_none built below envelope small climbs none
    rw [finish_of_top built below known, if_neg (Nat.lt_asymm short), if_pos short] at returns'
    exact returns.unique returns'
  case transform =>
    intro stopped payload upcast source climbs registered fails
    obtain ⟨call, listed, -, rfl⟩ := exists_of_lastUpcaster registered
    have small : raw.toNat < 2 ^ 32 := by
      have := below call listed
      have := climbs.le
      omega
    exact returns.unique
      ((returns_of_error built below envelope small climbs registered).2 payload source rfl fails)
  case noPayload =>
    intro missing small registered
    obtain ⟨upcast, found⟩ := Option.ne_none_iff_exists'.mp registered
    exact returns.unique ((returns_of_error built below envelope small .here found).1 missing)

/-- **Versioned decoding meets its specification.**  For every sequence of `with_upcaster` calls
with versions below `u32::MAX`, in any order, with gaps and repetitions, and every envelope on the
wire, decoding comes to an end with the result that it is meant to have. -/
theorem decode_meets (built : codec.registry = .build calls)
    (below : ∀ call ∈ calls, call.fromVersion < 2 ^ 32 - 1)
    (envelope : codec.Envelope wire obj eventType raw) :
    ∃ result, codec.Returns wire result ∧ Decodes calls codec.deserialize obj eventType raw result := by
  have ended : ∃ result, codec.Returns wire result := by
    rcases Nat.lt_or_ge raw.toNat (2 ^ 32) with small | large
    · have ends : ∀ version, 2 ^ 32 ≤ version → lastUpcaster calls eventType version = none := by
        intro version large
        cases found : lastUpcaster calls eventType version with
        | none => rfl
        | some upcast =>
            obtain ⟨call, listed, -, rfl⟩ := exists_of_lastUpcaster found
            have := below call listed
            omega
      have starts : Climbs (lastUpcaster calls eventType) raw.toNat (obj.get "payload") raw.toNat
          (obj.get "payload") := .here
      obtain ⟨stopped, payload, climbs, stops⟩ := exists_stop ends starts
      cases registered : lastUpcaster calls eventType stopped with
      | none =>
          obtain ⟨obj', -, returns⟩ := returns_of_none built below envelope small climbs registered
          exact ⟨_, returns⟩
      | some upcast =>
          have fails := returns_of_error built below envelope small climbs registered
          cases payload with
          | none => exact ⟨_, fails.1 rfl⟩
          | some value =>
              obtain ⟨source, failed⟩ := stops upcast registered
              exact ⟨_, fails.2 value source rfl failed⟩
    · exact ⟨_, returns_outOfRange envelope large⟩
  obtain ⟨result, returns⟩ := ended
  exact ⟨result, returns, returns.decodes built below envelope⟩

/-! ## A shop whose orders have changed twice -/

/-- v1 to v2: `qty` becomes `quantity`. -/
def renameQty : UpcastFn String := fun payload =>
  match payload.asObject with
  | none => .error "payload must be an object"
  | some obj =>
      match obj.get "qty" with
      | none => .ok (.object obj)
      | some qty => .ok (.object ((obj.remove "qty").insert "quantity" qty))

/-- v2 to v3: `currency` with a default. -/
def addCurrency : UpcastFn String := fun payload =>
  match payload.asObject with
  | none => .error "payload must be an object"
  | some obj =>
      match obj.get "currency" with
      | none => .ok (.object (obj.insert "currency" (.string "BRL")))
      | some _ => .ok (.object obj)

/-- Out of order, and one of them twice. -/
def orderUpcasters : List (Registration String) :=
  [⟨"OrderPlaced", 2, addCurrency⟩, ⟨"OrderPlaced", 1, fun _ => .error "cannot upgrade"⟩,
    ⟨"OrderPlaced", 1, renameQty⟩]

def orderText : List UInt8 :=
  "\x7b\"event_type\":\"OrderPlaced\",\"payload\":\x7b\"qty\":3\x7d,\"schema_version\":1\x7d".toUTF8.toList

def orderMembers : Members :=
  [("event_type", .string "OrderPlaced"), ("payload", .object [("qty", .number (.posInt 3))]),
    ("schema_version", .number (.posInt 1))]

/-- An event is read as the members of its envelope. -/
def orderCodec : VersionedJsonCodec String String Members where
  registry := .build orderUpcasters
  fromSlice bytes :=
    if bytes = orderText then .ok (.object orderMembers) else .error "expected value"
  fromValue envelope :=
    match envelope.asObject with
    | none => .error "invalid type"
    | some obj => .ok obj

/-- An order of version 1 is read as one of version 3. -/
theorem decode_meets_order : ∃ obj', orderCodec.Returns orderText (.ok obj') ∧
    Rewritten orderMembers 3 (some (.object [("currency", .string "BRL"),
      ("quantity", .number (.posInt 3))])) obj' := by
  have envelope : orderCodec.Envelope orderText orderMembers "OrderPlaced" 1 :=
    ⟨if_pos rfl, rfl, rfl⟩
  have below : ∀ call ∈ orderUpcasters, call.fromVersion < 2 ^ 32 - 1 := by simp [orderUpcasters]
  obtain ⟨result, returns, decodes⟩ := decode_meets rfl below envelope
  have top : Top orderUpcasters "OrderPlaced" 3 :=
    ⟨⟨_, List.mem_cons_self, rfl, rfl⟩, by simp [orderUpcasters]⟩
  have climbs : Climbs (lastUpcaster orderUpcasters "OrderPlaced") 1 (orderMembers.get "payload") 3
      (some (.object [("currency", .string "BRL"), ("quantity", .number (.posInt 3))])) := by
    have first : Climbs (lastUpcaster orderUpcasters "OrderPlaced") 1 (orderMembers.get "payload") 2
        (some (.object [("quantity", .number (.posInt 3))])) :=
      .up .here (show lastUpcaster orderUpcasters "OrderPlaced" 1 = some renameQty from rfl) rfl
    exact .up first (show lastUpcaster orderUpcasters "OrderPlaced" 2 = some addCurrency from rfl) rfl
  obtain ⟨obj', rewritten, rfl⟩ := decodes.upcast 3 _ top climbs
  exact ⟨obj', returns, rewritten⟩

end VersionedJsonCodec

end Pharos
