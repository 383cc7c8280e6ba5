import Pharos.Async.Polls
import Pharos.Tenancy.Scopes

/-!
# The visits of `for_each_tenant`

A pass calls its closure once for each tenant of the list, in order, and runs the future that it
returns in the scope of that tenant and without an elevation.  The closure itself is called before
that scope is opened: what it does before it returns its future sees what the caller of the pass sees.
-/

namespace Pharos

open Async

variable {V E : Type}

/-- How far a visit has come, and what is left of it. -/
inductive VisitStage (V : Type) where
  | building (rest : Build Locals Helper V)
  | running (rest : Running Locals Helper V)
  | done (output : V)

/-- The value of a visit that is done. -/
def VisitStage.output? : VisitStage V → Option V
  | .done output => some output
  | _ => none

/-- What a report lists of a visit. -/
def failureOf (tenant : TenantId) : Except E Unit → Option (TenantId × E)
  | .ok () => none
  | .error error => some (tenant, error)

/-- One visit of a pass, after `visited`: what the closure did before it returned its future, and what
the future did, seen from inside the scope of the visit. -/
structure TenantVisit (V : Type) where
  tenant : TenantId
  visited : List (TenantId × V)
  building : List (Sight Locals Helper) := []
  running : List (Sight Locals Helper) := []
  stage : VisitStage V

/-- The caller holds the scope of the tenant, and no elevation. -/
def Locals.Holds (l : Locals) (tenant : TenantId) : Prop :=
  l.currentTenant = some ⟨tenant⟩ ∧ l.currentElevation = none

namespace TenantVisit

/-- What the future of a visit did and the calls around it, seen by the caller of the pass. -/
def opened (l : Locals) (visit : TenantVisit V) : List (Sight Locals Helper) :=
  match visit.stage with
  | .building _ => []
  | .running _ =>
      ⟨[], l, .calls (.forEachTenant visit.tenant)⟩ ::
        visit.running.map (Sight.inside (.forEachTenant visit.tenant))
  | .done _ =>
      ⟨[], l, .calls (.forEachTenant visit.tenant)⟩ ::
        visit.running.map (Sight.inside (.forEachTenant visit.tenant)) ++
        [⟨[], l, .returns (.forEachTenant visit.tenant) l⟩]

/-- Everything that happened in a visit, seen by the caller of the pass. -/
def sights (l : Locals) (visit : TenantVisit V) : List (Sight Locals Helper) :=
  visit.building ++ visit.opened l

/-- What is left of a pass that is in this visit and goes on with what the visit comes to. -/
def left (l : Locals) (visit : TenantVisit V) (goesOn : V → TenantCode V) :
    Running Locals Helper V :=
  match visit.stage with
  | .building rest =>
      .code (rest.andThen fun future => .scope (.forEachTenant visit.tenant) future goesOn)
  | .running rest => .scope (.forEachTenant visit.tenant) l rest goesOn
  | .done output => .code (goesOn output)

/-- Outside of scopes that it opens itself, the work sees its tenant and no elevation. -/
def Observes (visit : TenantVisit V) : Prop :=
  ∀ sight ∈ visit.building ++ visit.running, sight.frames = [] → sight.seen.Holds visit.tenant

/-- The failure of a visit. -/
def failure (result : V → Except E Unit) (visit : TenantVisit V) : Option (TenantId × E) :=
  visit.stage.output?.bind fun output => failureOf visit.tenant (result output)

/-- Count a visit that is done. -/
def counted (result : V → Except E Unit) (report : ForEachReport E) (visit : TenantVisit V) :
    ForEachReport E :=
  visit.stage.output?.elim report fun output => report.add visit.tenant (result output)

end TenantVisit

/-- `ForEachReport::visited`. -/
def ForEachReport.visited (report : ForEachReport E) : ℕ := report.succeeded + report.failed.length

/-- The visits of a pass over `tenants` after `visited`: all of them, or the last one is under way or
about to begin.  What a visit comes to decides nothing about the visits after it. -/
inductive TenantVisits (work : TenantWork V) (l : Locals) :
    List (TenantId × V) → List TenantId → List (TenantVisit V) → Prop
  | none {visited : List (TenantId × V)} : TenantVisits work l visited [] []
  | building {visited : List (TenantId × V)} {tenant : TenantId} {tenants : List TenantId}
    {sights : List (Sight Locals Helper)} {rest : Build Locals Helper V} :
    (work visited tenant).Does l sights rest →
    TenantVisits work l visited (tenant :: tenants)
      [{ tenant, visited, building := sights, stage := .building rest }]
  | running {visited : List (TenantId × V)} {tenant : TenantId} {tenants : List TenantId}
    {sights : List (Sight Locals Helper)} {rest : Running Locals Helper V} :
    tenantRunner.helpers.Runs (Helper.opened l (.forEachTenant tenant))
      (.code ((work visited tenant).built l)) sights rest →
    TenantVisits work l visited (tenant :: tenants)
      [{ tenant, visited, building := (work visited tenant).sights l, running := sights,
         stage := .running rest }]
  | done {visited : List (TenantId × V)} {tenant : TenantId} {tenants : List TenantId}
    {sights : List (Sight Locals Helper)} {output : V} {visits : List (TenantVisit V)} :
    tenantRunner.helpers.Runs (Helper.opened l (.forEachTenant tenant))
      (.code ((work visited tenant).built l)) sights (.code (.ready output)) →
    TenantVisits work l (visited ++ [(tenant, output)]) tenants visits →
    TenantVisits work l visited (tenant :: tenants)
      ({ tenant, visited, building := (work visited tenant).sights l, running := sights,
         stage := .done output } :: visits)

/-- The pass is in its last visit, which is not done, and makes those to the other tenants after it,
whatever this one comes to. -/
def Underway (result : V → Except E Unit) (work : TenantWork V)
    (next : ForEachReport E → TenantCode V) (l : Locals) (tenants : List TenantId)
    (report : ForEachReport E) (visits : List (TenantVisit V)) (last : Running Locals Helper V) : Prop :=
  ∃ earlier visit remaining, visits = earlier ++ [visit] ∧
    tenants = visits.map TenantVisit.tenant ++ remaining ∧
    (∀ before ∈ earlier, ∃ output, before.stage = .done output) ∧ visit.stage.output? = none ∧
    last = visit.left l fun output =>
      visitTenants result work next (visit.visited ++ [(visit.tenant, output)]) remaining
        ((earlier.foldl (TenantVisit.counted result) report).add visit.tenant (result output))

/-- Every tenant was visited, and every visit is done. -/
structure Completed (tenants : List TenantId) (visits : List (TenantVisit V)) : Prop where
  tenants : visits.map TenantVisit.tenant = tenants
  done : ∀ visit ∈ visits, ∃ output, visit.stage = .done output

/-- The report accounts for every visit, in order. -/
structure Accounts (result : V → Except E Unit) (visits : List (TenantVisit V))
    (report : ForEachReport E) : Prop where
  failed : report.failed = visits.filterMap (TenantVisit.failure result)
  succeeded : report.succeeded = visits.countP fun visit => (visit.failure result).isNone
  visited : report.visited = visits.length

section Passes

variable {l : Locals} {work : TenantWork V} {result : V → Except E Unit}
  {visited : List (TenantId × V)} {tenants : List TenantId} {visits : List (TenantVisit V)}

theorem TenantVisits.tenants_prefix (made : TenantVisits work l visited tenants visits) :
    visits.map TenantVisit.tenant <+: tenants := by
  induction made with
  | none => exact List.nil_prefix
  | building did => exact List.cons_prefix_cons.mpr ⟨rfl, List.nil_prefix⟩
  | running runs => exact List.cons_prefix_cons.mpr ⟨rfl, List.nil_prefix⟩
  | done runs rest ih => exact List.cons_prefix_cons.mpr ⟨rfl, ih⟩

/-- What a closure did in its visit is what it does there, or the beginning of that. -/
theorem TenantVisits.building_prefix (made : TenantVisits work l visited tenants visits) :
    ∀ visit ∈ visits, visit.building <+: (work visit.visited visit.tenant).sights l := by
  induction made with
  | none =>
      intro visit listed
      cases listed
  | building did => exact List.forall_mem_singleton.mpr ⟨_, did.sights_append⟩
  | running runs => exact List.forall_mem_singleton.mpr (List.prefix_refl _)
  | done runs rest ih => exact List.forall_mem_cons.mpr ⟨List.prefix_refl _, ih⟩

/-- A visit observes its tenant exactly if its closure does nothing, or the caller holds the scope of
the tenant already. -/
theorem observes_iff {tenant : TenantId} {stage : VisitStage V}
    {building running : List (Sight Locals Helper)} {rest : Running Locals Helper V}
    (begun : building <+: (work visited tenant).sights l)
    (runs : tenantRunner.helpers.Runs (Helper.opened l (.forEachTenant tenant))
      (.code ((work visited tenant).built l)) running rest) :
    TenantVisit.Observes { tenant, visited, building, running, stage : TenantVisit V } ↔
      building = [] ∨ l.Holds tenant := by
  have outside : ∀ sight ∈ building, sight.frames = [] ∧ sight.seen = l := fun sight did =>
    Build.seen_of_mem_sights (begun.subset did)
  have inside : ∀ sight ∈ running, sight.frames = [] → sight.seen.Holds tenant := by
    intro sight did innermost
    have fits : tenantRunner.helpers.Fits (Helper.opened l (.forEachTenant tenant))
      (.code ((work visited tenant).built l)) := trivial
    rw [runs.seen fits sight did, innermost]
    exact ⟨Helper.currentTenant_forEachTenant l tenant, Helper.currentElevation_forEachTenant l tenant⟩
  constructor
  · intro observes
    rcases building with _ | ⟨sight, others⟩
    · exact .inl rfl
    · obtain ⟨frames, seen⟩ := outside sight List.mem_cons_self
      exact .inr (seen ▸ observes sight (List.mem_append_left _ List.mem_cons_self) frames)
  · intro condition sight did frames
    rcases List.mem_append.mp did with building | running
    · rcases condition with rfl | holds
      · cases building
      · rw [(outside sight building).2]
        exact holds
    · exact inside sight running frames

theorem TenantVisits.observes_iff (made : TenantVisits work l visited tenants visits) :
    (∀ visit ∈ visits, visit.Observes) ↔
      ∀ visit ∈ visits, visit.building = [] ∨ l.Holds visit.tenant := by
  induction made with
  | none => exact ⟨nofun, nofun⟩
  | building did =>
      rw [List.forall_mem_singleton, List.forall_mem_singleton]
      exact Pharos.observes_iff ⟨_, did.sights_append⟩ .none
  | running runs =>
      rw [List.forall_mem_singleton, List.forall_mem_singleton]
      exact Pharos.observes_iff (List.prefix_refl _) runs
  | done runs rest ih =>
      rw [List.forall_mem_cons, List.forall_mem_cons, ih]
      exact and_congr (Pharos.observes_iff (List.prefix_refl _) runs) Iff.rfl

/-! ## The report -/

theorem add_failed (report : ForEachReport E) (tenant : TenantId) (outcome : Except E Unit) :
    (report.add tenant outcome).failed = report.failed ++ (failureOf tenant outcome).toList := by
  cases outcome with
  | ok value => exact (List.append_nil _).symm
  | error error => rfl

theorem add_succeeded (report : ForEachReport E) (tenant : TenantId) (outcome : Except E Unit) :
    (report.add tenant outcome).succeeded =
      report.succeeded + if (failureOf tenant outcome).isNone then 1 else 0 := by
  cases outcome with
  | ok value => rfl
  | error error => rfl

theorem counted_failed (report : ForEachReport E) (visit : TenantVisit V) :
    (visit.counted result report).failed = report.failed ++ (visit.failure result).toList := by
  unfold TenantVisit.counted TenantVisit.failure
  cases visit.stage.output? with
  | none => exact (List.append_nil _).symm
  | some output => exact add_failed report visit.tenant (result output)

theorem counted_succeeded (report : ForEachReport E) {visit : TenantVisit V} {output : V}
    (done : visit.stage = .done output) :
    (visit.counted result report).succeeded =
      report.succeeded + if (visit.failure result).isNone then 1 else 0 := by
  unfold TenantVisit.counted TenantVisit.failure
  rw [done]
  exact add_succeeded report visit.tenant (result output)

theorem foldl_counted_failed (visits : List (TenantVisit V)) (report : ForEachReport E) :
    (visits.foldl (TenantVisit.counted result) report).failed =
      report.failed ++ visits.filterMap (TenantVisit.failure result) := by
  induction visits generalizing report with
  | nil => exact (List.append_nil _).symm
  | cons visit visits ih =>
      rw [List.foldl_cons, ih, counted_failed, List.append_assoc, List.filterMap_cons]
      cases visit.failure result with
      | none => rfl
      | some failed => rfl

theorem foldl_counted_succeeded {visits : List (TenantVisit V)}
    (done : ∀ visit ∈ visits, ∃ output, visit.stage = .done output) (report : ForEachReport E) :
    (visits.foldl (TenantVisit.counted result) report).succeeded =
      report.succeeded + visits.countP fun visit => (visit.failure result).isNone := by
  induction visits generalizing report with
  | nil => rfl
  | cons visit visits ih =>
      obtain ⟨⟨output, first⟩, others⟩ := List.forall_mem_cons.mp done
      rw [List.foldl_cons, ih others, counted_succeeded report first, List.countP_cons]
      omega

theorem Completed.accounts (completed : Completed tenants visits) :
    Accounts result visits (visits.foldl (TenantVisit.counted result) {}) := by
  have failed : (visits.foldl (TenantVisit.counted result) {}).failed =
      [] ++ visits.filterMap (TenantVisit.failure result) :=
    foldl_counted_failed visits {}
  have succeeded : (visits.foldl (TenantVisit.counted result) {}).succeeded =
      0 + visits.countP fun visit => (visit.failure result).isNone :=
    foldl_counted_succeeded completed.done {}
  refine ⟨failed, succeeded.trans (Nat.zero_add _), ?_⟩
  -- a visit either failed or succeeded
  have split : (visits.filterMap (TenantVisit.failure result)).length =
      visits.countP fun visit => ¬ (visit.failure result).isNone := by
    rw [List.length_filterMap_eq_countP]
    refine List.countP_congr fun visit _ => ?_
    cases visit.failure result with
    | none => exact ⟨nofun, nofun⟩
    | some failed => exact ⟨fun _ => rfl, fun _ => rfl⟩
  rw [ForEachReport.visited, failed, succeeded, List.nil_append, split, Nat.zero_add]
  exact (List.length_eq_countP_add_countP _).symm

/-! ## The runs of a pass -/

section Under

variable {next : ForEachReport E → TenantCode V} {report : ForEachReport E}
  {last : Running Locals Helper V}

/-- The first visit is under way. -/
theorem Underway.first {visit : TenantVisit V} (still : visit.stage.output? = none)
    (left : last = visit.left l fun output =>
      visitTenants result work next (visit.visited ++ [(visit.tenant, output)]) tenants
        (report.add visit.tenant (result output))) :
    Underway result work next l (visit.tenant :: tenants) report [visit] last :=
  ⟨[], visit, tenants, rfl, rfl, by simp, still, left⟩

/-- Earlier visits change nothing about the one that is under way. -/
theorem Underway.cons {visit : TenantVisit V} {output : V} (done : visit.stage = .done output)
    (under : Underway result work next l tenants (report.add visit.tenant (result output)) visits
      last) :
    Underway result work next l (visit.tenant :: tenants) report (visit :: visits) last := by
  obtain ⟨earlier, current, remaining, rfl, rfl, dones, still, left⟩ := under
  refine ⟨visit :: earlier, current, remaining, rfl, rfl,
    List.forall_mem_cons.mpr ⟨⟨output, done⟩, dones⟩, still, ?_⟩
  have counted : visit.counted result report = report.add visit.tenant (result output) := by
    unfold TenantVisit.counted
    rw [done]
    rfl
  rw [left, List.foldl_cons, counted]

/-- A pass that is under way has not returned. -/
theorem Underway.value?_eq_none
    (under : Underway result work next l tenants report visits last) : last.value? = none := by
  obtain ⟨earlier, visit, remaining, -, -, -, still, rfl⟩ := under
  unfold TenantVisit.left
  cases stage : visit.stage with
  | building rest => exact Build.value?_andThen_scope rest _ _
  | running rest => rfl
  | done output =>
      rw [stage] at still
      cases still

end Under

/-- A run of the loop is a sequence of visits, the last of which is under way, or all of them and what
comes after them. -/
theorem visits_of_runs {next : ForEachReport E → TenantCode V} {report : ForEachReport E}
    {sights : List (Sight Locals Helper)} {last : Running Locals Helper V}
    (runs : tenantRunner.helpers.Runs l
      (.code (visitTenants result work next visited tenants report)) sights last) :
    ∃ visits, TenantVisits work l visited tenants visits ∧
      (sights = visits.flatMap (TenantVisit.sights l) ∧
          Underway result work next l tenants report visits last ∨
        ∃ rest, Completed tenants visits ∧ sights = visits.flatMap (TenantVisit.sights l) ++ rest ∧
          tenantRunner.helpers.Runs l (.code (next (visits.foldl (TenantVisit.counted result) report)))
            rest last) := by
  induction tenants generalizing visited report sights with
  | nil => exact ⟨[], .none, .inr ⟨sights, ⟨rfl, by simp⟩, rfl, runs⟩⟩
  | cons tenant tenants ih =>
      rw [visitTenants] at runs
      rcases runs.of_andThen with ⟨rest, did, left⟩ | ⟨called, rfl, calls⟩
      · exact ⟨_, .building did, .inl ⟨by simp [TenantVisit.sights, TenantVisit.opened],
          .first rfl left⟩⟩
      · rcases calls.of_scope with ⟨rfl, left⟩ |
          ⟨inner, mid, inside, ⟨rfl, left⟩ | ⟨output, later, rfl, rfl, goes⟩⟩
        · -- the future is built, and its scope is not yet open
          exact ⟨_, .building (.built l _), .inl ⟨by simp [TenantVisit.sights, TenantVisit.opened],
            .first rfl left⟩⟩
        · exact ⟨_, .running inside, .inl ⟨by simp [TenantVisit.sights, TenantVisit.opened],
            .first rfl left⟩⟩
        · obtain ⟨visits, made, outcome⟩ := ih goes
          refine ⟨_, .done inside made, ?_⟩
          rcases outcome with ⟨rfl, under⟩ | ⟨rest, completed, rfl, after⟩
          · exact .inl ⟨by simp [TenantVisit.sights, TenantVisit.opened], under.cons rfl⟩
          · refine .inr ⟨rest, ⟨congrArg _ completed.tenants, ?_⟩,
              by simp [TenantVisit.sights, TenantVisit.opened], after⟩
            exact List.forall_mem_cons.mpr ⟨⟨output, rfl⟩, completed.done⟩

/-- What a task of a runtime does from the point on where it calls `for_each_tenant` is a sequence of
visits, the last of which is under way, or all of them and what comes after them. -/
theorem visits_of_later {F : Type} {main : List (TenantCode V)}
    {r r' : Runtime Locals Helper TaskRoot V} (reached : tenantRunner.Reaches main r)
    (later : Relation.ReflTransGen (fun r r' => ∃ turn, tenantRunner.step r turn = some r') r r')
    {number : ℕ} {root : TaskRoot} {next : Except F (ForEachReport E) → TenantCode V}
    (calls : r.tasks[number]? =
      some ⟨root, .code (forEachTenant (fixedTenants tenants) result work next)⟩) :
    let l := tenantRunner.roots.enter root tenantRunner.idle
    let goesOn := fun report => next (.ok report)
    ∃ task sights visits, r'.tasks[number]? = some task ∧
      sightsOf r'.trace number = sightsOf r.trace number ++ sights ∧
      TenantVisits work l [] tenants visits ∧
      (sights = visits.flatMap (TenantVisit.sights l) ∧
          Underway result work goesOn l tenants {} visits task.body ∨
        ∃ rest, Completed tenants visits ∧ sights = visits.flatMap (TenantVisit.sights l) ++ rest ∧
          tenantRunner.helpers.Runs l (.code (goesOn (visits.foldl (TenantVisit.counted result) {})))
            rest task.body) := by
  intro l goesOn
  obtain ⟨task, sights, found, -, did, runs⟩ :=
    Runner.runs_of_later (Runner.kept_of_reaches reached) later calls
  have passes : tenantRunner.helpers.Runs l (.code (visitTenants result work goesOn [] tenants {}))
      sights task.body := runs
  obtain ⟨visits, made, outcome⟩ := visits_of_runs passes
  exact ⟨task, sights, visits, found, did, made, outcome⟩

/-- Every run of `for_each_tenant`, whatever its caller sees, is a sequence of visits: the listed
tenants are visited once each and in order, and until all of them were the pass is under way,
whatever a visit came to; the report accounts for all of them; and the work of each visit sees its
tenant and no elevation exactly if its closure does nothing before it returns its future, or the
caller sees that tenant and no elevation itself. -/
theorem for_each_tenant_visits {F : Type} {next : Except F (ForEachReport E) → TenantCode V}
    {sights : List (Sight Locals Helper)} {last : Running Locals Helper V}
    (runs : tenantRunner.helpers.Runs l
      (.code (forEachTenant (fixedTenants tenants) result work next)) sights last) :
    ∃ visits, TenantVisits work l [] tenants visits ∧ visits.map TenantVisit.tenant <+: tenants ∧
      (sights = visits.flatMap (TenantVisit.sights l) ∧ last.value? = none ∧
          Underway result work (fun report => next (.ok report)) l tenants {} visits last ∨
        ∃ rest report, Completed tenants visits ∧ Accounts result visits report ∧
          sights = visits.flatMap (TenantVisit.sights l) ++ rest ∧
          tenantRunner.helpers.Runs l (.code (next (.ok report))) rest last) ∧
      ((∀ visit ∈ visits, visit.Observes) ↔
        ∀ visit ∈ visits, visit.building = [] ∨ l.Holds visit.tenant) := by
  have passes : tenantRunner.helpers.Runs l
      (.code (visitTenants result work (fun report => next (.ok report)) [] tenants {})) sights last :=
    runs
  obtain ⟨visits, made, outcome⟩ := visits_of_runs passes
  refine ⟨visits, made, made.tenants_prefix, ?_, made.observes_iff⟩
  rcases outcome with ⟨short, under⟩ | ⟨rest, completed, split, after⟩
  · exact .inl ⟨short, under.value?_eq_none, under⟩
  · exact .inr ⟨rest, _, completed, completed.accounts, split, after⟩

end Passes

/-- Work whose first visit fails. -/
def failsFirst (output : ℕ × List (TenantId × String)) : Except String Unit :=
  if output.1 = 1 then .error "boom" else .ok ()

/-- A pass over two tenants, the first of which fails, that ends with what is in its report. -/
def twoVisits : TenantCode (ℕ × List (TenantId × String)) :=
  forEachTenant (F := String) (fixedTenants [⟨1⟩, ⟨2⟩]) failsFirst
    (fun visited _ => .done (.look fun _ => .ready (visited.length + 1, [])))
    fun
      | .ok report => .ready (report.succeeded, report.failed)
      | .error _ => .ready (0, [])

/-- Both visits take place, and the report says that the first of them failed. -/
theorem for_each_tenant_visits_twoVisits :
    ∃ sights visits report,
      tenantRunner.helpers.Runs {} (.code twoVisits) sights (.code (.ready (1, [(⟨1⟩, "boom")]))) ∧
      sights = visits.flatMap (TenantVisit.sights {}) ∧ Completed [⟨1⟩, ⟨2⟩] visits ∧
      Accounts failsFirst visits report ∧ report.succeeded = 1 ∧
      report.failed = [(⟨1⟩, "boom")] ∧ ∀ visit ∈ visits, visit.Observes := by
  have runs : tenantRunner.helpers.Runs {} (.code twoVisits) _ (.code (.ready (1, [(⟨1⟩, "boom")]))) :=
    .poll [] rfl (.poll [] rfl (.poll [] rfl
      (.poll [] rfl (.poll [] rfl (.poll [] rfl .none)))))
  obtain ⟨visits, made, -, outcome, observes⟩ := for_each_tenant_visits runs
  have eager : ∀ visit ∈ visits, visit.building = [] := fun visit listed =>
    List.prefix_nil.mp (made.building_prefix visit listed)
  rcases outcome with ⟨-, unfinished, -⟩ | ⟨rest, ⟨succeeded, failed⟩, completed, accounts, split, after⟩
  · cases unfinished
  · cases after with
    | none =>
        refine ⟨_, visits, _, runs, split.trans (List.append_nil _), completed, accounts, rfl, rfl, ?_⟩
        exact observes.mpr fun visit listed => .inl (eager visit listed)
    | poll path did rest => cases did

/-- A closure that spawns a task before it returns its future. -/
def eagerWork : TenantWork Unit := fun _ _ => .spawn (.ready ()) (.done (.ready ()))

/-- A pass over one tenant with that closure. -/
def eagerVisit : TenantCode Unit :=
  forEachTenant (E := Empty) (F := Empty) (fixedTenants [⟨1⟩]) (fun _ => .ok ()) eagerWork
    fun _ => .ready ()

/-- Called from the scope of another tenant, the closure sees that tenant, and the task that it spawned
takes it along. -/
theorem closure_outside_scope :
    ∃ (l : Locals) (sight : Sight Locals Helper) (visits : List (TenantVisit Unit))
      (last : Running Locals Helper Unit),
      l.currentTenant = some ⟨⟨2⟩⟩ ∧ tenantRunner.helpers.Runs l (.code eagerVisit) [sight] last ∧
      TenantVisits eagerWork l [] [⟨1⟩] visits ∧ [sight] = visits.flatMap (TenantVisit.sights l) ∧
      sight.doing = .spawns ∧ tenantRunner.carry sight.seen = .spawnScoped (some ⟨⟨2⟩⟩) ∧
      ¬ ∀ visit ∈ visits, visit.Observes := by
  refine ⟨{ tenant := some (some ⟨⟨2⟩⟩) }, _, _, _, rfl, .poll [] rfl .none,
    .building (.spawn .none), rfl, rfl, rfl, fun observes => ?_⟩
  have seen := observes _ List.mem_cons_self _ List.mem_cons_self rfl
  exact absurd seen.1 (by decide)

end Pharos
