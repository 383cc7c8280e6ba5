import Pharos.App.TenantScope

/-!
# What a future sees of tenants and elevations

The innermost helper decides which elevation is seen, and the innermost one other than `elevated`
which tenant; a task's own code sees what the task was started with.  So an impersonation is never
seen without its tenant, nobody sees a cross-tenant elevation but the work that it was granted to,
and a caller gets back what it had.
-/

namespace Pharos

open Async

/-- Whoever impersonates a tenant is in the scope of that tenant. -/
def Locals.Coherent (l : Locals) : Prop :=
  ∀ elevation tenant, l.currentElevation = some elevation →
    elevation.kind = .impersonation tenant → l.currentTenant = some ⟨tenant⟩

namespace Helper

variable (l : Locals)

/-- What a helper's work sees, given what its caller sees. -/
abbrev opened (helper : Helper) : Locals := tenantRunner.helpers.enter helper l

@[simp] theorem currentElevation_elevated (grant : Grant .crossTenant) :
    (opened l (.elevated grant)).currentElevation = some grant.elevation := rfl

@[simp] theorem currentElevation_impersonating (tenant : TenantId)
    (grant : Grant (.impersonation tenant)) :
    (opened l (.impersonating tenant grant)).currentElevation = some grant.elevation := rfl

@[simp] theorem currentElevation_forEachTenant (tenant : TenantId) :
    (opened l (.forEachTenant tenant)).currentElevation = none := rfl

@[simp] theorem currentElevation_withMessageScope (scope : Option TenantContext) :
    (opened l (.withMessageScope scope)).currentElevation = none := rfl

@[simp] theorem currentTenant_impersonating (tenant : TenantId)
    (grant : Grant (.impersonation tenant)) :
    (opened l (.impersonating tenant grant)).currentTenant = some ⟨tenant⟩ := rfl

@[simp] theorem currentTenant_forEachTenant (tenant : TenantId) :
    (opened l (.forEachTenant tenant)).currentTenant = some ⟨tenant⟩ := rfl

@[simp] theorem currentTenant_withMessageScope (scope : Option TenantContext) :
    (opened l (.withMessageScope scope)).currentTenant = scope := rfl

/-- No helper's work sees an impersonation without its tenant, whatever the caller sees. -/
theorem coherent (helper : Helper) : (opened l helper).Coherent := by
  intro elevation tenant elevated kind
  cases helper with
  | elevated grant =>
      rw [currentElevation_elevated] at elevated
      cases elevated
      cases grant.admitted.symm.trans kind
  | impersonating other grant =>
      rw [currentElevation_impersonating] at elevated
      cases elevated
      cases grant.admitted.symm.trans kind
      exact currentTenant_impersonating l tenant grant
  | forEachTenant other => cases elevated
  | withMessageScope scope => cases elevated

/-- A helper's work sees a cross-tenant elevation only if the helper has just been granted it. -/
theorem crossTenant {helper : Helper} {elevation : Elevation}
    (elevated : (opened l helper).currentElevation = some elevation)
    (kind : elevation.kind = .crossTenant) :
    ∃ grant, helper = .elevated grant ∧ grant.elevation = elevation := by
  cases helper with
  | elevated grant => exact ⟨grant, rfl, Option.some.inj elevated⟩
  | impersonating tenant grant =>
      rw [currentElevation_impersonating] at elevated
      cases elevated
      cases grant.admitted.symm.trans kind
  | forEachTenant tenant => cases elevated
  | withMessageScope scope => cases elevated

end Helper

namespace TaskRoot

/-- A task starts without an elevation. -/
theorem currentElevation (root : TaskRoot) :
    (tenantRunner.roots.enter root tenantRunner.idle).currentElevation = none := by
  cases root with
  | plain => rfl
  | spawnScoped scope => rfl

theorem currentTenant_spawnScoped (scope : Option TenantContext) :
    (tenantRunner.roots.enter (.spawnScoped scope) tenantRunner.idle).currentTenant = scope := rfl

end TaskRoot

section Runs

variable {V : Type} {main : List (TenantCode V)} {r : Runtime Locals Helper TaskRoot V}
  {occurrence : Occurrence Locals Helper}

/-- A task's own code sees what the task was started with, and other code what the innermost helper
gives it. -/
theorem seen_cases (reached : tenantRunner.Reaches main r) (happened : occurrence ∈ r.trace) :
    (occurrence.frames = [] ∧ ∃ task, r.tasks[occurrence.task]? = some task ∧
      occurrence.seen = tenantRunner.roots.enter task.root tenantRunner.idle) ∨
    ∃ helper l, occurrence.frames.head? = some helper ∧ occurrence.seen = helper.opened l := by
  obtain ⟨task, found, seen⟩ := ((Runner.kept_of_reaches reached).saw occurrence happened).seen
  cases frames : occurrence.frames with
  | nil =>
      rw [frames] at seen
      exact .inl ⟨rfl, task, found, seen⟩
  | cons helper outer =>
      rw [frames] at seen
      exact .inr ⟨helper, _, rfl, seen⟩

/-- Tenant and elevation scopes, at every point of every run of every program: an impersonation is
seen in the scope of its tenant; the futures of `for_each_tenant` and `with_message_scope` see their
own tenant and no elevation, and a spawned task the tenant of the spawning call and none; a
cross-tenant elevation is seen only in the work it was granted to; and when the future of a helper is
done, the caller sees what it saw at the call. -/
theorem scope_discipline (reached : tenantRunner.Reaches main r) (happened : occurrence ∈ r.trace) :
    (∀ elevation tenant, occurrence.seen.currentElevation = some elevation →
      elevation.kind = .impersonation tenant →
      occurrence.seen.currentTenant = some ⟨tenant⟩) ∧
    (∀ tenant, occurrence.frames.head? = some (.forEachTenant tenant) →
      occurrence.seen.currentTenant = some ⟨tenant⟩ ∧
        occurrence.seen.currentElevation = none) ∧
    (∀ scope, occurrence.frames.head? = some (.withMessageScope scope) →
      occurrence.seen.currentTenant = scope ∧ occurrence.seen.currentElevation = none) ∧
    (∀ spawn ∈ r.trace, spawn.spawned = some occurrence.task → occurrence.frames = [] →
      occurrence.seen.currentTenant = spawn.seen.currentTenant ∧
        occurrence.seen.currentElevation = none) ∧
    (∀ elevation, occurrence.seen.currentElevation = some elevation →
      elevation.kind = .crossTenant →
      ∃ grant, occurrence.frames.head? = some (.elevated grant) ∧ grant.elevation = elevation) ∧
    ∀ helper before, occurrence.doing = .returns helper before → occurrence.seen = before := by
  have kept := Runner.kept_of_reaches reached
  refine ⟨?_, ?_, ?_, ?_, ?_, (kept.saw occurrence happened).returned⟩
  · intro elevation tenant elevated kind
    rcases seen_cases reached happened with ⟨-, task, -, seen⟩ | ⟨helper, l, -, seen⟩
    · rw [seen, TaskRoot.currentElevation] at elevated
      cases elevated
    · rw [seen] at elevated ⊢
      exact helper.coherent l elevation tenant elevated kind
  · intro tenant innermost
    rcases seen_cases reached happened with ⟨nothing, -⟩ | ⟨helper, l, first, seen⟩
    · rw [nothing] at innermost
      cases innermost
    · cases first.symm.trans innermost
      simp [seen]
  · intro scope innermost
    rcases seen_cases reached happened with ⟨nothing, -⟩ | ⟨helper, l, first, seen⟩
    · rw [nothing] at innermost
      cases innermost
    · cases first.symm.trans innermost
      simp [seen]
  · intro spawn spawning spawned nothing
    obtain ⟨task, found, root⟩ := (kept.saw spawn spawning).spawned occurrence.task spawned
    rcases seen_cases reached happened with ⟨-, task', found', seen⟩ | ⟨helper, l, first, -⟩
    · cases found.symm.trans found'
      rw [seen, root]
      exact ⟨TaskRoot.currentTenant_spawnScoped _, TaskRoot.currentElevation _⟩
    · rw [nothing] at first
      cases first
  · intro elevation elevated kind
    rcases seen_cases reached happened with ⟨-, task, -, seen⟩ | ⟨helper, l, first, seen⟩
    · rw [seen, TaskRoot.currentElevation] at elevated
      cases elevated
    · rw [seen] at elevated
      obtain ⟨grant, rfl, same⟩ := helper.crossTenant l elevated kind
      exact ⟨grant, first, same⟩

end Runs

/-- A console that may do anything. -/
def console : Elevator where
  id := 1
  policy := fun _ => .ok ()

/-- The console visits one tenant across the boundary, and spawns a task there. -/
def consoleVisit : TenantCode Unit :=
  (console.elevated 0 "console.rs" ⟨"console"⟩ none
    (forEachTenant (E := Empty) (F := Empty) (fixedTenants [⟨1⟩]) (fun _ => .ok ())
      (fun _ _ => .done (spawnScoped (.look fun _ => .ready ()) (.ready ()))) fun _ => .ready ())
    fun _ => .ready ()).2

theorem scope_discipline_consoleVisit :
    ∃ (r : Runtime Locals Helper TaskRoot Unit) (visit spawn look return' : Occurrence Locals Helper),
      tenantRunner.Reaches [consoleVisit] r ∧ visit ∈ r.trace ∧ spawn ∈ r.trace ∧ look ∈ r.trace ∧
      return' ∈ r.trace ∧
      visit.seen.currentElevation.map Elevation.kind = some .crossTenant ∧
      (∃ grant, visit.frames.head? = some (.elevated grant)) ∧
      spawn.frames.head? = some (.forEachTenant ⟨1⟩) ∧ spawn.seen.currentTenant = some ⟨⟨1⟩⟩ ∧
      spawn.seen.currentElevation = none ∧ spawn.spawned = some look.task ∧
      look.seen.currentTenant = some ⟨⟨1⟩⟩ ∧ look.seen.currentElevation = none ∧
      return'.doing = .returns (.forEachTenant ⟨1⟩) visit.seen ∧ return'.seen = visit.seen := by
  have run : (tenantRunner.exec (tenantRunner.initial [consoleVisit])
      [⟨0, 0, []⟩, ⟨1, 0, []⟩, ⟨0, 0, []⟩, ⟨1, 0, []⟩, ⟨0, 1, []⟩]).any (fun r =>
        decide (∃ visit ∈ r.trace, ∃ spawn ∈ r.trace, ∃ look ∈ r.trace, ∃ return' ∈ r.trace,
          visit.seen.currentElevation.map Elevation.kind = some .crossTenant ∧
          spawn.frames.head? = some (.forEachTenant ⟨1⟩) ∧ spawn.spawned = some look.task ∧
          look.frames = [] ∧ return'.doing = .returns (.forEachTenant ⟨1⟩) visit.seen)) = true := by
    decide +kernel
  obtain ⟨r, reached, facts⟩ := tenantRunner.exists_reaches_of_exec run
  obtain ⟨visit, visits, spawn, spawns, look, looks, return', returns, kind, innermost, spawned,
    nothing, doing⟩ := of_decide_eq_true facts
  obtain ⟨elevation, elevated, crossTenant⟩ := Option.map_eq_some_iff.mp kind
  obtain ⟨-, -, -, -, granted, -⟩ := scope_discipline reached visits
  obtain ⟨-, own, -, -, -, -⟩ := scope_discipline reached spawns
  obtain ⟨-, -, -, carried, -, -⟩ := scope_discipline reached looks
  obtain ⟨-, -, -, -, -, restored⟩ := scope_discipline reached returns
  obtain ⟨grant, frame, -⟩ := granted elevation elevated crossTenant
  obtain ⟨tenant, unelevated⟩ := own _ innermost
  obtain ⟨same, unelevated'⟩ := carried spawn spawns spawned nothing
  exact ⟨r, visit, spawn, look, return', reached, visits, spawns, looks, returns, kind, ⟨grant, frame⟩,
    innermost, tenant, unelevated, spawned, same.trans tenant, unelevated', doing,
    restored _ _ doing⟩

end Pharos
