import Pharos.Async.Window
import Pharos.Saga.Rounds
import Pharos.Saga.Serializable

/-!
# Conflicts of the saga runner

`SagaRunnerError::Conflict` is documented as sustained contention on one saga.  A round of `handle`
loses its save only to a write of the same row since its load, except when the saga answers `Start`
for an instance that exists: that save asks for version 0 and always loses.

`Tracked` counts: the races a call has lost are at most the writes of others during the call, and
one more write has happened as soon as the snapshot of the round is out of date.
-/

namespace Pharos

namespace SagaRunner

open Async

variable {I St E C ε : Type}

/-- The saga answered `Start` for an instance that is running. -/
def Restarts (event : SagaEvent I St E C ε) : Prop :=
  ∃ decision ∈ decides event, (∃ inst ∈ decision.1, ¬ inst.Terminal) ∧ decision.2.isStart

instance : DecidablePred (@Restarts I St E C ε) := fun event =>
  inferInstanceAs (Decidable (∃ decision ∈ decides event, _))

/-- The call ended in a conflict. -/
def Conflicted : RunnerM I St E C ε (SagaReturn ε) → Prop
  | .ret (.handled (.error (.conflict _ _))) => True
  | _ => False

instance : DecidablePred (@Conflicted I St E C ε)
  | .ret (.handled (.error (.conflict _ _))) => .isTrue trivial
  | .ret (.handled (.error (.saga _))) | .ret (.handled (.error (.store _))) |
    .ret (.handled (.error (.enqueue _))) | .ret (.handled (.error (.failed _))) |
    .ret (.handled (.ok _)) | .ret (.swept _) | .await _ _ => .isFalse not_false

theorem exists_of_conflicted {program : RunnerM I St E C ε (SagaReturn ε)}
    (conflicted : Conflicted program) :
    ∃ expected actual, program = .ret (.handled (.error (.conflict expected actual))) := by
  unfold Conflicted at conflicted
  split at conflicted
  · exact ⟨_, _, rfl⟩
  · exact conflicted.elim

/-- The saves that a call lost. -/
def lostRace : SagaEvent I St E C ε → Bool
  | ⟨_, .save _, .error _⟩ => true
  | _ => false

/-- What the call loaded last, until it tries to save it. -/
def snapshot : List (SagaEvent I St E C ε) → Option (Option (SagaInstance I St))
  | [] => none
  | ⟨_, .load _, .ok current⟩ :: _ => some current
  | ⟨_, .save _, _⟩ :: _ => none
  | _ :: past => snapshot past

/-- The saga never restarted an instance, and every load answered with the row it was asked for. -/
def Steady (past : List (SagaEvent I St E C ε)) : Prop :=
  ∀ event ∈ past, ¬ Restarts event ∧
    ∀ choice id (inst : SagaInstance I St), event = ⟨choice, .load id, .ok (some inst)⟩ → inst.id = id

/-- What a call of `handle` for `id` does: it loads `id`, and it saves under the version it loaded. -/
def Tries (id : I) (past : List (SagaEvent I St E C ε)) : SagaOp I St E → Prop
  | .load loaded => loaded = id
  | .save inst => Steady past → ∃ current, snapshot past = some current ∧ inst.id = id ∧
      inst.version = current.elim 0 SagaInstance.version
  | .claimDue _ _ _ => False
  | _ => True

/-- How many of the operations were writes of `id` by others than task `i`. -/
def contention [DecidableEq I] (id : I) (i : ℕ) (entries : List (SagaEntry I St E C ε)) : ℕ :=
  entries.countP fun entry => entry.task ≠ i ∧ Raises id entry.event

variable {runner : SagaRunner I St E C ε} {past : List (SagaEvent I St E C ε)} {id : I} {event : E}

/-! ## One call -/

theorem Steady.of_append (later : List (SagaEvent I St E C ε)) (steady : Steady (later ++ past)) :
    Steady past := fun event member => steady event (List.mem_append_right _ member)

theorem snapshot_clocks {clocks : List (SagaEvent I St E C ε)}
    (read : ∀ event ∈ clocks, event.op = .utcNow) : snapshot (clocks ++ past) = snapshot past := by
  induction clocks with
  | nil => rfl
  | cons event clocks ih =>
      obtain ⟨now, before⟩ := List.forall_mem_cons.mp read
      obtain ⟨choice, op, reply⟩ := event
      cases now
      exact ih before

/-- A round that reports a conflict has lost a save. -/
theorem Applied.lost_of_conflict {current : Option (SagaInstance I St)}
    {transition : SagaTransition St C} {round : List (SagaEvent I St E C ε)}
    {result : RunnerResult ε Unit} (applied : runner.Applied id current transition round result)
    {expected : ℕ} {actual : Option ℕ} (conflict : result = .error (.conflict expected actual)) :
    0 < round.countP lostRace := by
  cases applied with
  | ignored nothing => cases conflict
  | lost read writes choice error =>
      rw [List.countP_cons_of_pos rfl]
      exact Nat.succ_pos _
  | saved read writes choice mailed enqueued =>
      exact (enqueued.outcome_ne_conflict transition expected actual conflict).elim
  | unrecorded nothing mailed enqueued =>
      exact (enqueued.outcome_ne_conflict transition expected actual conflict).elim

theorem mails_tries (past : List (SagaEvent I St E C ε)) (op : SagaOp I St E) (mails : Mails op) :
    Tries id past op := by
  cases op with
  | utcNow | nowV7 | insert _ => trivial
  | load _ | react _ _ | onTimeout _ | save _ | claimDue _ _ _ => exact mails.elim

/-- A call that gives up has lost as many races as it had rounds. -/
theorem handleAttempts_obeys (retries : ℕ) (lastConflict : Option (ℕ × Option ℕ))
    (bound : Steady past → maxConflictRetries ≤ past.countP lostRace + retries) :
    (runner.handleAttempts id event retries lastConflict).Obeys (Tries id)
      (fun past' result => ∀ expected actual, result = .error (.conflict expected actual) →
        Steady past' → maxConflictRetries ≤ past'.countP lostRace)
      past := by
  induction retries generalizing past lastConflict with
  | zero => exact fun _ _ _ => bound
  | succ retries ih =>
      unfold handleAttempts
      refine .call (S := sagaSignature I St E C ε) rfl fun loading loaded => ?_
      rcases loaded with error | current
      · exact fun _ _ h => by cases h
      refine .call (S := sagaSignature I St E C ε) trivial fun reacting reaction => ?_
      rcases reaction with error | transition
      · exact fun _ _ h => by cases h
      dsimp only
      split
      · exact fun _ _ h => by cases h
      split
      · exact fun _ _ h => by cases h
      · next running =>
        have ready : ∀ clocks now inst, (∀ event ∈ clocks, event.op = .utcNow) →
            transition.written id current now = some inst →
            Tries id (clocks ++ ⟨reacting, .react current event, .ok transition⟩ ::
              ⟨loading, .load id, .ok current⟩ :: past) (.save inst) := by
          intro clocks now inst read writes steady
          have faithful := steady.of_append clocks
          have same : ∀ c ∈ current, c.id = id := by
            intro c member
            cases member
            exact (faithful _ (List.mem_cons_of_mem _ List.mem_cons_self)).2 loading id c rfl
          have continues : transition.isStart → current = none := by
            intro starts
            cases current with
            | none => rfl
            | some c =>
                have restarts := (faithful _ List.mem_cons_self).1
                have starting := fun terminal => running ⟨c, rfl, terminal⟩
                exact (restarts ⟨_, rfl, ⟨c, rfl, starting⟩, starts⟩).elim
          obtain ⟨own, version⟩ := version_of_written transition writes same continues
          exact ⟨current, snapshot_clocks read, own, version⟩
        refine .bind (applyTransition_obeys transition mails_tries ready) fun past' result facts => ?_
        obtain ⟨round, rfl, applied⟩ := facts
        -- only a reported conflict leads to another round
        rcases result with error | _
        · cases error with
          | conflict expected actual =>
              refine ih _ fun steady => ?_
              have lost := applied.lost_of_conflict rfl
              have before := bound ((steady.of_append round).of_append [_, _])
              rw [List.countP_append, List.countP_cons, List.countP_cons]
              omega
          | saga _ | store _ | enqueue _ | failed _ => exact fun _ _ h => by cases h
        · exact fun _ _ h => by cases h

/-- What the calls of the runner do. -/
def Trying (runner : SagaRunner I St E C ε) : SagaCall E → List (SagaEvent I St E C ε) →
    SagaOp I St E → Prop
  | .handle event, past, op => ∀ id ∈ runner.saga.idFor event, Tries id past op
  | .runDueTimeouts _ _ _, _, _ => True

/-- A call that ends in a conflict was for some saga and has lost every round. -/
def GaveUp (runner : SagaRunner I St E C ε) : SagaCall E → List (SagaEvent I St E C ε) →
    SagaReturn ε → Prop
  | .handle event, past, value => ∀ expected actual,
      value = .handled (.error (.conflict expected actual)) →
        ∃ id, runner.saga.idFor event = some id ∧
          (Steady past → maxConflictRetries ≤ past.countP lostRace)
  | .runDueTimeouts _ _ _, _, _ => True

theorem body_tries (call : SagaCall E) :
    (runner.body call).Obeys (runner.Trying call) (runner.GaveUp call) [] := by
  cases call with
  | handle event =>
      have handled : (runner.handle event).Obeys (runner.Trying (.handle event))
          (fun past' result => ∀ expected actual, result = .error (.conflict expected actual) →
            ∃ id, runner.saga.idFor event = some id ∧
              (Steady past' → maxConflictRetries ≤ past'.countP lostRace)) [] := by
        unfold handle
        split
        · exact fun _ _ h => by cases h
        · next id found =>
          have same : runner.Trying (.handle event) = Tries id := by
            funext past op
            simp [Trying, found]
          rw [same]
          refine (handleAttempts_obeys maxConflictRetries none fun _ => Nat.le_add_left _ _).mono ?_
          intro past' result gaveUp expected actual conflict
          exact ⟨id, found, gaveUp expected actual conflict⟩
      refine .bind handled fun past' result gaveUp expected actual returned => ?_
      cases returned
      exact gaveUp expected actual rfl
  | runDueTimeouts now lease limit =>
      exact (Program.Obeys.of_true (runner.body (.runDueTimeouts now lease limit)) []).mono
        fun _ _ _ => trivial

/-! ## Many calls -/

section Runs

variable [DecidableEq I] {C' : SagaPool I St E C ε → Action (SagaChoice I) (SagaCall E) → Prop}
  {p q : SagaPool I St E C ε}

theorem keyed_serve {s s' : SagaShared I St} {choice : SagaChoice I} {op : SagaOp I St E}
    {reply : op.Reply C ε} (keyed : s.store.Keyed)
    (served : runner.serve s choice op = some (s', reply)) : s'.store.Keyed := by
  cases op with
  | save inst =>
      cases served
      exact keyed.save inst
  | claimDue now lease limit =>
      simp only [serve] at served
      split at served
      · next iterated =>
        cases served
        exact keyed.claimDue iterated now lease limit
      · cases served
  | insert message =>
      simp only [serve] at served
      split at served <;> cases served <;> exact keyed
  | load _ | react _ _ | onTimeout _ | utcNow | nowV7 =>
      cases served
      exact keyed

theorem keyed_of_reaches (reached : runner.system.Reaches C' p q) (keyed : p.shared.store.Keyed) :
    q.shared.store.Keyed := by
  refine reached.invariant (P := fun q => q.shared.store.Keyed) keyed fun _ keyed _ stepped => ?_
  obtain ⟨arrival, shared, args, rfl, arrived, rfl⟩ |
    ⟨i, choice, t, op, next, shared, reply, rfl, found, awaits, served, rfl⟩ :=
    System.step_cases stepped
  · cases arrived
    exact keyed
  · exact keyed_serve keyed served

/-- Every load answers with the row it was asked for. -/
theorem steady_of_reaches (reached : runner.system.Reaches C' p q) (idle : p.tasks = [])
    (keyed : p.shared.store.Keyed)
    {t : Task (sagaSignature I St E C ε) (SagaChoice I) (SagaCall E) (SagaReturn ε)}
    (started : t ∈ q.tasks) (unrestarted : ∀ event ∈ t.past, ¬ Restarts event) :
    Steady t.past := by
  have faithful := reached.forall_tasks (Q := fun _ past => ∀ event ∈ past,
    ∀ choice id (inst : SagaInstance I St),
      (event : SagaEvent I St E C ε) = ⟨choice, .load id, .ok (some inst)⟩ → inst.id = id)
    idle (fun _ _ none => by cases none) ?_
  · exact fun event member => ⟨unrestarted event member, faithful t started event member⟩
  · intro q i u op next choice shared reply before _ _ _ served known event member
    rcases List.mem_cons.mp member with rfl | old
    · intro choice' id inst same
      cases same
      obtain ⟨-, answered⟩ := Prod.mk.inj (Option.some.inj served)
      exact (keyed_of_reaches before keyed id inst (Except.ok.inj answered)).1
    · exact known event old

theorem contention_concat (id : I) (i : ℕ) (entries : List (SagaEntry I St E C ε))
    (entry : SagaEntry I St E C ε) :
    contention id i (entries ++ [entry]) =
      contention id i entries + if entry.task ≠ i ∧ Raises id entry.event then 1 else 0 := by
  unfold contention
  simp [List.countP_append, List.countP_singleton]

theorem contention_during_le (q : SagaPool I St E C ε) (id : I) (i : ℕ) :
    contention id i (q.during i) ≤ contention id i (q.since i) :=
  (q.during_prefix i).sublist.countP_le

/-- Every lost race is paid for by a write of another task, and one more has happened once the
snapshot of the round is out of date. -/
structure Tracked (id : I) (i : ℕ) (past : List (SagaEvent I St E C ε))
    (q : SagaPool I St E C ε) : Prop where
  paid : past.countP lostRace ≤ contention id i (q.during i)
  current : ∀ current, snapshot past = some current →
    versionOf q.shared id = current.elim 0 SagaInstance.version ∨
      past.countP lostRace + 1 ≤ contention id i (q.since i)

/-- A save that lost found another version than it expected. -/
theorem versionOf_ne_of_lost {s s' : SagaShared I St} {choice : SagaChoice I}
    {inst : SagaInstance I St} {error : SagaSaveError InMemorySagaStoreError}
    (served : runner.serve s choice (.save inst) = some (s', .error error)) :
    versionOf s inst.id ≠ inst.version := by
  intro same
  simp only [serve, Option.some.injEq, Prod.mk.injEq] at served
  have lost := served.2
  unfold versionOf at same
  unfold InMemorySagaStore.save at lost
  cases found : s.store.get inst.id with
  | none =>
      rw [found, Option.elim_none] at same
      simp [found, ← same] at lost
  | some row =>
      rw [found, Option.elim_some] at same
      simp [found, same] at lost

variable {i : ℕ} {t : Task (sagaSignature I St E C ε) (SagaChoice I) (SagaCall E) (SagaReturn ε)}
  {choice : SagaChoice I} {op : SagaOp I St E}
  {next : op.Reply C ε → RunnerM I St E C ε (SagaReturn ε)} {shared : SagaShared I St}
  {reply : op.Reply C ε}

/-- The next operation of the call itself. -/
theorem Tracked.own (tracked : Tracked id i t.past q) (keyed : q.shared.store.Keyed)
    (tries : Tries id t.past op) (steady : Steady t.past)
    (served : runner.serve q.shared choice op = some (shared, reply)) :
    Tracked id i (⟨choice, op, reply⟩ :: t.past)
      (q.advance i t ⟨choice, op, reply⟩ shared (next reply)) := by
  have since : ∀ event : SagaEvent I St E C ε, contention id i
      (q.since i ++ [⟨i, t.args, t.past, q.shared, event⟩]) = contention id i (q.since i) := by
    intro event
    simp [contention_concat]
  have paid := tracked.paid.trans (contention_during_le q id i)
  cases op with
  | save inst =>
      obtain ⟨current, known, rfl, version⟩ := tries steady
      refine ⟨?_, fun _ none => by cases none⟩
      rw [Pool.during_advance_self, since]
      cases reply with
      | error error =>
          have stale := versionOf_ne_of_lost served
          rw [List.countP_cons_of_pos rfl]
          exact (tracked.current current known).resolve_left fun same => stale (same.trans version.symm)
      | ok _ =>
          rw [List.countP_cons_of_neg Bool.false_ne_true]
          exact paid
  | load loaded =>
      cases tries
      cases served
      refine ⟨?_, fun current known => .inl ?_⟩
      · rw [Pool.during_advance_self, since, List.countP_cons_of_neg Bool.false_ne_true]
        exact paid
      · cases known
        rfl
  | claimDue now lease limit => exact tries.elim
  | react _ _ | onTimeout _ | utcNow | nowV7 | insert _ =>
      have same : shared.store.get id = q.shared.store.get id := by
        rcases serve_row keyed served id with ⟨raises, -⟩ | ⟨-, same⟩
        · exact raises.elim
        · exact same
      refine ⟨?_, fun current known => ?_⟩
      · rw [Pool.during_advance_self, since, List.countP_cons_of_neg Bool.false_ne_true]
        exact paid
      · rw [Pool.since_advance_self, since, List.countP_cons_of_neg Bool.false_ne_true,
          Pool.advance_shared, versionOf, same]
        exact tracked.current current known

/-- An operation of another task. -/
theorem Tracked.other {j : ℕ} {past : List (SagaEvent I St E C ε)} (tracked : Tracked id j past q)
    (keyed : q.shared.store.Keyed) (distinct : i ≠ j)
    (begun : past ≠ [] → q.since j ≠ [])
    (served : runner.serve q.shared choice op = some (shared, reply)) :
    Tracked id j past (q.advance i t ⟨choice, op, reply⟩ shared (next reply)) := by
  refine ⟨?_, fun current known => ?_⟩
  · rw [Pool.during_advance distinct]
    exact tracked.paid
  · have acted : past ≠ [] := by
      rintro rfl
      cases known
    rw [Pool.since_advance (begun acted), contention_concat]
    rcases serve_row keyed served id with ⟨raises, -⟩ | ⟨-, same⟩
    · right
      have paid := tracked.paid.trans (contention_during_le q id j)
      rw [if_pos ⟨distinct, raises⟩]
      omega
    · rw [Pool.advance_shared, versionOf, same]
      exact (tracked.current current known).imp_right (Nat.le_add_right_of_le ·)

theorem tracked_of_reaches (reached : runner.system.Reaches C' p q) (idle : p.tasks = [])
    (fresh : p.trace = []) (keyed : p.shared.store.Keyed) (found : q.tasks[i]? = some t)
    (handles : t.args = .handle event) (names : runner.saga.idFor event = some id)
    (steady : Steady t.past) : Tracked id i t.past q := by
  refine reached.invariant (P := fun q => ∀ (i : ℕ) t, q.tasks[i]? = some t →
    t.args = .handle event → Steady t.past → Tracked id i t.past q) ?_ ?_ i t found handles steady
  · intro i t found
    rw [idle] at found
    cases found
  · intro q r action before known _ stepped j u at_j handles steady
    have keyed := keyed_of_reaches before keyed
    obtain ⟨arrival, shared, args, rfl, arrived, rfl⟩ |
      ⟨i, choice, t, op, next, shared, reply, rfl, found, awaits, served, rfl⟩ :=
      System.step_cases stepped
    · cases arrived
      rcases Pool.getElem?_start at_j with old | ⟨-, a, -, rfl⟩
      · exact ⟨(known j u old handles steady).paid, (known j u old handles steady).current⟩
      · exact ⟨Nat.zero_le _, fun _ none => by cases none⟩
    · rcases Pool.getElem?_advance found at_j with ⟨rfl, rfl⟩ | ⟨distinct, old⟩
      · have tries := before.obeys_op idle body_tries found awaits
        have steady := steady.of_append [_]
        rw [show t.args = .handle event from handles] at tries
        exact (known j t found handles steady).own keyed (tries id names) steady served
      · exact (known j u old handles steady).other keyed (Ne.symm distinct)
          (before.since_ne_nil idle fresh old) served

/-- **A conflict means contention, unless the saga restarts.**  From any stored state and under any
interleaving: a `handle` whose saga never answered `Start` for a running instance ends in a conflict
only if other calls saved or claimed its instance `MAX_CONFLICT_RETRIES` times during the call. -/
theorem conflict_contended (reached : runner.system.Reaches System.Any p q) (idle : p.tasks = [])
    (fresh : p.trace = []) (keyed : p.shared.store.Keyed) (found : q.tasks[i]? = some t)
    (handles : t.args = .handle event) (unrestarted : ∀ event ∈ t.past, ¬ Restarts event)
    (conflicted : Conflicted t.rest) :
    ∃ id, runner.saga.idFor event = some id ∧ maxConflictRetries ≤ contention id i (q.during i) := by
  have steady := steady_of_reaches reached idle keyed (List.mem_of_getElem? found) unrestarted
  obtain ⟨expected, actual, returned⟩ := exists_of_conflicted conflicted
  have obeys := reached.obeys idle body_tries t (List.mem_of_getElem? found)
  rw [returned, handles] at obeys
  obtain ⟨id, names, lost⟩ := obeys expected actual rfl
  have tracked := tracked_of_reaches reached idle fresh keyed found handles names steady
  exact ⟨id, names, (lost steady).trans tracked.paid⟩

end Runs

/-! ## Two runs -/

/-- Saga 7 exists; a call adding 2 loads it eight times, and each time a call adding 3 goes first. -/
def contendedRun : List (Action (SagaChoice ℕ) (SagaCall (ℕ × ℕ))) :=
  [.arrive (.handle (7, 1)), .arrive (.handle (7, 2))] ++ List.replicate 7 (.step 0 {}) ++
    (List.range 8).flatMap fun round =>
      [.arrive (.handle (7, 3)), .step 1 {}] ++ List.replicate 7 (.step (round + 2) {}) ++
        List.replicate 3 (.step 1 {})

theorem conflict_contended_tally : ∃ q : SagaPool ℕ ℕ (ℕ × ℕ) ℕ String,
    tally.system.Reaches System.Any initial q ∧ (∃ t ∈ q.tasks[1]?, Conflicted t.rest) ∧
      ∃ id, tally.saga.idFor (7, 2) = some id ∧ maxConflictRetries ≤ contention id 1 (q.during 1) := by
  have run : (tally.system.exec initial contendedRun).any (fun q =>
      decide (∃ t ∈ q.tasks[1]?, t.args = .handle (7, 2) ∧
        (∀ event ∈ t.past, ¬ Restarts event) ∧ Conflicted t.rest)) = true := by decide +kernel
  obtain ⟨q, reached, facts⟩ :=
    System.exists_reaches_of_exec (System.along_any tally.system initial contendedRun) run
  obtain ⟨t, found, handles, unrestarted, conflicted⟩ := of_decide_eq_true facts
  exact ⟨q, reached, ⟨t, found, conflicted⟩, conflict_contended reached rfl rfl
    InMemorySagaStore.keyed_empty found handles unrestarted conflicted⟩

/-- A saga that always starts. -/
def restarting : SagaRunner ℕ ℕ (ℕ × ℕ) ℕ String where
  saga :=
    { idFor := fun event => some event.1
      react := fun _ event => .ok (.start event.2 [] none) }
  mapCommand command := { messageId := command, topic := "restarting" }

/-- One call starts saga 7; after it has returned, a second one starts it again, all alone. -/
def quietRun : List (Action (SagaChoice ℕ) (SagaCall (ℕ × ℕ))) :=
  [.arrive (.handle (7, 1))] ++ List.replicate 4 (.step 0 {}) ++
    [.arrive (.handle (7, 2))] ++ List.replicate 32 (.step 1 {})

/-- The second call ends in a conflict, and nobody else did anything during it. -/
theorem restarting_conflicts_alone : ∃ q : SagaPool ℕ ℕ (ℕ × ℕ) ℕ String,
    restarting.system.Reaches System.Any initial q ∧
      ∃ t ∈ q.tasks[1]?, t.args = .handle (7, 2) ∧ Conflicted t.rest ∧
        contention 7 1 (q.during 1) = 0 ∧ ∀ entry ∈ q.during 1, entry.task = 1 := by
  have run : (restarting.system.exec initial quietRun).any (fun q =>
      decide (∃ t ∈ q.tasks[1]?, t.args = .handle (7, 2) ∧ Conflicted t.rest ∧
        contention 7 1 (q.during 1) = 0 ∧ ∀ entry ∈ q.during 1, entry.task = 1)) = true := by
    decide +kernel
  obtain ⟨q, reached, facts⟩ :=
    System.exists_reaches_of_exec (System.along_any restarting.system initial quietRun) run
  exact ⟨q, reached, of_decide_eq_true facts⟩

end SagaRunner

end Pharos
