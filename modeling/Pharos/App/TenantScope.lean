import Pharos.App.Elevation
import Pharos.Async.Scoped

/-!
# The helpers that open tenant scopes

`elevated` and `impersonating` of `pharos-app/src/elevation.rs`, `for_each_tenant` of `tenant_iter.rs`,
`with_message_scope` of `enrichment.rs` and `spawn_scoped` of `tenant_local.rs`.  `CURRENT_TENANT` and
`CURRENT_ELEVATION` are task-locals of `tokio`: unset outside any scope, and swapped in and out around
every poll of a future that has one.

A helper returns a future; `next` is what its caller does with the future's result.
-/

namespace Pharos

open Async

/-- `CURRENT_TENANT` and `CURRENT_ELEVATION` on one thread, if they are set. -/
structure Locals where
  tenant : Option (Option TenantContext) := none
  elevation : Option (Option Elevation) := none
  deriving DecidableEq

namespace Locals

/-- `CURRENT_TENANT.try_with(|tenant| *tenant).ok().flatten()`. -/
def currentTenant (l : Locals) : Option TenantContext := l.tenant.join

/-- `current_elevation`. -/
def currentElevation (l : Locals) : Option Elevation := l.elevation.join

end Locals

/-- The `scope` of one of the two task-locals. -/
inductive LocalScope where
  | tenant (value : Option TenantContext)
  | elevation (value : Option Elevation)
  deriving DecidableEq

/-- A scope swaps its value in, and back out. -/
def LocalScope.scoping : Scoping Locals LocalScope where
  enter
    | .tenant value, l => { l with tenant := some value }
    | .elevation value, l => { l with elevation := some value }
  leave
    | .tenant _, saved, l => { l with tenant := saved.tenant }
    | .elevation _, saved, l => { l with elevation := saved.elevation }
  leave_enter scope l := by
    cases scope with
    | tenant value => rfl
    | elevation value => rfl

/-- `without_elevation`. -/
def withoutElevation : LocalScope := .elevation none

/-- A future that a helper runs. -/
inductive Helper where
  | elevated (grant : Grant .crossTenant)
  | impersonating (tenant : TenantId) (grant : Grant (.impersonation tenant))
  | forEachTenant (tenant : TenantId)
  | withMessageScope (scope : Option TenantContext)
  deriving DecidableEq

/-- The scopes that a helper opens around its work, the outermost first. -/
def Helper.scopes : Helper → List LocalScope
  | .elevated grant => [.elevation (some grant.elevation)]
  | .impersonating tenant grant => [.tenant (some ⟨tenant⟩), .elevation (some grant.elevation)]
  | .forEachTenant tenant => [.tenant (some ⟨tenant⟩), withoutElevation]
  | .withMessageScope scope => [.tenant scope, withoutElevation]

/-- Who started a task: nobody with a scope, or `spawn_scoped` with the tenant it found. -/
inductive TaskRoot where
  | plain
  | spawnScoped (scope : Option TenantContext)
  deriving DecidableEq

def TaskRoot.scopes : TaskRoot → List LocalScope
  | .plain => []
  | .spawnScoped scope => [.tenant scope]

/-- `tokio` with the helpers, and `spawn_scoped` for every task that is spawned. -/
def tenantRunner : Runner Locals Helper TaskRoot where
  helpers := LocalScope.scoping.nested Helper.scopes
  roots := LocalScope.scoping.nested TaskRoot.scopes
  carry l := .spawnScoped l.currentTenant
  plain := .plain
  idle := {}

variable {V : Type}

/-- The code of a future that may use the helpers. -/
abbrev TenantCode (V : Type) := Code Locals Helper V

/-- `Elevator::elevated`: what is recorded at the call, and the future. -/
def Elevator.elevated (elevator : Elevator) (now : Time) (caller : String) (purpose : Purpose)
    (actor : Option String) (work : TenantCode V) (next : Except ElevationDenied V → TenantCode V) :
    ElevationAudit × TenantCode V :=
  let (entry, admitted) := elevator.admission now caller purpose actor .crossTenant
  (entry,
    match admitted with
    | .error denied => next (.error denied)
    | .ok grant => .scope (.elevated grant) work fun output => next (.ok output))

/-- `Elevator::impersonating`: what is recorded at the call, and the future. -/
def Elevator.impersonating (elevator : Elevator) (now : Time) (caller : String) (tenant : TenantId)
    (purpose : Purpose) (actor : String) (work : TenantCode V)
    (next : Except ElevationDenied V → TenantCode V) : ElevationAudit × TenantCode V :=
  let (entry, admitted) := elevator.admission now caller purpose (some actor) (.impersonation tenant)
  (entry,
    match admitted with
    | .error denied => next (.error denied)
    | .ok grant => .scope (.impersonating tenant grant) work fun output => next (.ok output))

/-- `with_message_scope`. -/
def withMessageScope (parseStr : String → Except String Uuid) (message : Message)
    (work : TenantCode V) (next : Except InvalidTenantId V → TenantCode V) : TenantCode V :=
  match tenantOf parseStr message with
  | .error invalid => next (.error invalid)
  | .ok scope => .scope (.withMessageScope scope) work fun output => next (.ok output)

/-- What a pass over the tenants did. -/
structure ForEachReport (E : Type) where
  succeeded : ℕ := 0
  failed : List (TenantId × E) := []

/-- Count one visit. -/
def ForEachReport.add {E : Type} (report : ForEachReport E) (tenant : TenantId) :
    Except E Unit → ForEachReport E
  | .ok () => { report with succeeded := report.succeeded + 1 }
  | .error error => { report with failed := report.failed ++ [(tenant, error)] }

/-- What the closure of `for_each_tenant` does.  It is a `FnMut` and its futures may share state with
it, so a visit may depend on the visits before it. -/
abbrev TenantWork (V : Type) := List (TenantId × V) → TenantId → Build Locals Helper V

/-- The loop of `for_each_tenant`: the closure is called before the scope is opened, and the future
that it builds runs inside. -/
def visitTenants {E : Type} (result : V → Except E Unit) (work : TenantWork V)
    (next : ForEachReport E → TenantCode V) :
    List (TenantId × V) → List TenantId → ForEachReport E → TenantCode V
  | _, [], report => next report
  | visited, tenant :: tenants, report =>
      (work visited tenant).andThen fun future =>
        .scope (.forEachTenant tenant) future fun output =>
          visitTenants result work next (visited ++ [(tenant, output)]) tenants
            (report.add tenant (result output))

/-- `for_each_tenant`: `source` is the code that lists the tenants, in the scope of the caller. -/
def forEachTenant {E F : Type} (source : (Except F (List TenantId) → TenantCode V) → TenantCode V)
    (result : V → Except E Unit) (work : TenantWork V)
    (next : Except F (ForEachReport E) → TenantCode V) : TenantCode V :=
  source fun
    | .error error => next (.error error)
    | .ok tenants => visitTenants result work (fun report => next (.ok report)) [] tenants {}

/-- `FixedTenants`. -/
def fixedTenants {F : Type} (tenants : List TenantId)
    (list : Except F (List TenantId) → TenantCode V) : TenantCode V := list (.ok tenants)

/-- `spawn_scoped`: the new task takes the tenant of the call with it. -/
def spawnScoped (future next : TenantCode V) : TenantCode V := .spawn future next

end Pharos
