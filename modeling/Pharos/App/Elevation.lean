import Pharos.Messaging.Message

/-!
# Tenants and elevations

`pharos-app/src/tenant.rs`, the stamps of `enrichment.rs` and the admission of `elevation.rs`.  An
`Elevation` cannot be built by hand in the source: its fields are private and `Elevator::admit` is the
only place that fills them.  Here a grant carries the kind that it was admitted for.

`Uuid::parse_str` belongs to the `uuid` crate and is a parameter.
-/

namespace Pharos

/-- A validated tenant identifier. -/
structure TenantId where
  value : Uuid
  deriving DecidableEq

/-- The tenant that owns the data and events of the current operation. -/
structure TenantContext where
  tenantId : TenantId
  deriving DecidableEq

/-- A string is not a tenant identifier; the text is that of the parser's error. -/
structure InvalidTenantId where
  source : String
  deriving DecidableEq

/-- `TenantContext::parse`, with `Uuid::parse_str`. -/
def TenantContext.parse (parseStr : String → Except String Uuid) (raw : String) :
    Except InvalidTenantId TenantContext :=
  match parseStr raw with
  | .ok value => .ok ⟨⟨value⟩⟩
  | .error source => .error ⟨source⟩

/-- The header that carries the tenant of a message. -/
def tenantHeader : String := "tenant_id"

/-- `tenant_of`: the tenant stamped on a message, if any. -/
def tenantOf (parseStr : String → Except String Uuid) (message : Message) :
    Except InvalidTenantId (Option TenantContext) :=
  match message.headers.lookup tenantHeader with
  | none => .ok none
  | some raw => (TenantContext.parse parseStr raw).map some

/-- Why code crosses the tenant boundary. -/
structure Purpose where
  name : String
  deriving DecidableEq

/-- How an elevation crosses the boundary. -/
inductive ElevationKind where
  | crossTenant
  | impersonation (tenant : TenantId)
  deriving DecidableEq

/-- A granted crossing of the tenant boundary; `caller` is the place in the code that asked. -/
structure Elevation where
  purpose : Purpose
  actor : Option String
  kind : ElevationKind
  grantedAt : Time
  issuer : ℕ
  caller : String
  deriving DecidableEq

/-- What a policy is asked to decide. -/
structure ElevationRequest where
  purpose : Purpose
  actor : Option String
  kind : ElevationKind
  deriving DecidableEq

/-- Which purposes may cross the boundary, and how; a refusal has a reason. -/
abbrev ElevationPolicy := ElevationRequest → Except String Unit

/-- What became of a request. -/
inductive ElevationOutcome where
  | granted
  | denied (reason : String)
  deriving DecidableEq

/-- One request, as the audit trail sees it. -/
structure ElevationAudit where
  purpose : Purpose
  actor : Option String
  kind : ElevationKind
  outcome : ElevationOutcome
  recordedAt : Time
  caller : String
  deriving DecidableEq

/-- A request that was refused. -/
structure ElevationDenied where
  purpose : Purpose
  reason : String
  deriving DecidableEq

/-- An elevation that was granted for a kind of crossing. -/
structure Grant (kind : ElevationKind) where
  elevation : Elevation
  admitted : elevation.kind = kind
  deriving DecidableEq

/-- The longest actor an elevation carries, in characters. -/
def maxActorLen : ℕ := 256

/-- `char::is_control`. -/
def isControl (c : Char) : Bool := c.toNat ≤ 0x1F || (0x7F ≤ c.toNat && c.toNat ≤ 0x9F)

/-- `char::is_whitespace`: the Unicode property `White_Space`. -/
def isWhitespace (c : Char) : Bool :=
  (0x9 ≤ c.toNat && c.toNat ≤ 0xD) || (0x2000 ≤ c.toNat && c.toNat ≤ 0x200A) ||
    [0x20, 0x85, 0xA0, 0x1680, 0x2028, 0x2029, 0x202F, 0x205F, 0x3000].contains c.toNat

/-- `str::trim`. -/
def trim (text : String) : String :=
  .ofList ((text.toList.dropWhile isWhitespace).reverse.dropWhile isWhitespace).reverse

/-- `is_plain_label`: short and free of control characters. -/
def isPlainLabel (actor : String) : Bool :=
  actor.length ≤ maxActorLen && !actor.toList.any isControl

/-- Grants elevations under a policy; the audit sink is handed what `admit` records. -/
structure Elevator where
  id : ℕ
  policy : ElevationPolicy

namespace Elevator

/-- Whether this elevator granted an elevation. -/
def issued (elevator : Elevator) (elevation : Elevation) : Bool := elevation.issuer == elevator.id

/-- The decision of `Elevator::admit` about a trimmed actor. -/
def decision (elevator : Elevator) (purpose : Purpose) (actor : Option String)
    (kind : ElevationKind) : Except String Unit :=
  match kind, actor with
  | kind, some actor =>
      if isPlainLabel actor then elevator.policy ⟨purpose, some actor, kind⟩
      else .error "the actor is not a plain label"
  | .impersonation _, none => .error "an impersonation needs an actor"
  | .crossTenant, none => elevator.policy ⟨purpose, none, .crossTenant⟩

/-- `Elevator::admit`, at the instant that `Utc::now` read: what is recorded, and the answer. -/
def admission (elevator : Elevator) (now : Time) (caller : String) (purpose : Purpose)
    (actor : Option String) (kind : ElevationKind) :
    ElevationAudit × Except ElevationDenied (Grant kind) :=
  let actor := (actor.map trim).filter fun actor => actor ≠ ""
  let decision := elevator.decision purpose actor kind
  ({ purpose := purpose
     actor := actor.filter isPlainLabel
     kind := kind
     outcome := match decision with
       | .ok () => .granted
       | .error reason => .denied reason
     recordedAt := now
     caller := caller },
    match decision with
    | .ok () => .ok
        { elevation := ⟨purpose, actor, kind, now, elevator.id, caller⟩
          admitted := rfl }
    | .error reason => .error ⟨purpose, reason⟩)

end Elevator

end Pharos
