import Pharos.Saga.Contention

/-!
# Timeout sweeps of the saga runner

A sweep claims a batch of due instances and fires them one after the other.  It is documented to be
aborted only by saga, store or dispatch errors, but a save that loses a race aborts it as well, and
the rest of the batch is not evaluated.

`Spares i` is a run in which nobody else writes what sweep `i` has claimed and not saved yet.  On
such a run the claimed versions stay the stored ones (`Reserved`), so that no save of the sweep is
lost, and a sweep that loses no save fires its whole batch (`runDueTimeouts_obeys`).
-/

namespace Pharos

namespace SagaRunner

open Async

variable {I St E C ε : Type}

/-- The saga, the outbox or the store reported an error of its own. -/
def Fails : SagaEvent I St E C ε → Prop
  | ⟨_, .onTimeout _, .error _⟩ => True
  | ⟨_, .insert _, .error _⟩ => True
  | ⟨_, .claimDue _ _ _, .error _⟩ => True
  | _ => False

instance : DecidablePred (@Fails I St E C ε)
  | ⟨_, .onTimeout _, .error _⟩ | ⟨_, .insert _, .error _⟩ |
    ⟨_, .claimDue _ _ _, .error _⟩ => .isTrue trivial
  | ⟨_, .onTimeout _, .ok _⟩ | ⟨_, .insert _, .ok _⟩ | ⟨_, .claimDue _ _ _, .ok _⟩ |
    ⟨_, .load _, _⟩ | ⟨_, .react _ _, _⟩ | ⟨_, .utcNow, _⟩ | ⟨_, .nowV7, _⟩ |
    ⟨_, .save _, _⟩ => .isFalse not_false

/-- `on_timeout` answered `Start`. -/
def StartsAnew : SagaEvent I St E C ε → Prop
  | ⟨_, .onTimeout _, .ok transition⟩ => transition.isStart
  | _ => False

instance : DecidablePred (@StartsAnew I St E C ε)
  | ⟨_, .onTimeout _, .ok transition⟩ => inferInstanceAs (Decidable (transition.isStart = true))
  | ⟨_, .onTimeout _, .error _⟩ | ⟨_, .insert _, _⟩ | ⟨_, .claimDue _ _ _, _⟩ |
    ⟨_, .load _, _⟩ | ⟨_, .react _ _, _⟩ | ⟨_, .utcNow, _⟩ | ⟨_, .nowV7, _⟩ |
    ⟨_, .save _, _⟩ => .isFalse not_false

/-- The instances that a sweep has claimed and not tried to save yet. -/
def outstanding : List (SagaEvent I St E C ε) → List (SagaInstance I St)
  | [] => []
  | ⟨_, .claimDue _ _ _, .ok due⟩ :: _ => due
  | ⟨_, .save _, _⟩ :: past => (outstanding past).tail
  | _ :: past => outstanding past

/-- What a sweep persists for a claimed instance: an ignored timeout only clears the deadline. -/
def timedOut (inst : SagaInstance I St) (now : Time) : SagaTransition St C → Option (SagaInstance I St)
  | .ignore => some { inst with deadline := none, updatedAt := now }
  | transition => transition.written inst.id (some inst) now

/-- The sweep evaluated `inst`, saved what came out and enqueued its commands; latest first. -/
def Fired (runner : SagaRunner I St E C ε) (inst : SagaInstance I St)
    (round : List (SagaEvent I St E C ε)) : Prop :=
  ∃ firing transition clocks now persisted saving mail,
    round = mail ++ ⟨saving, .save persisted, .ok ()⟩ :: clocks ++
      [⟨firing, .onTimeout inst, .ok transition⟩] ∧
    timedOut inst now transition = some persisted ∧
    accepted mail = transition.commands.map runner.mapCommand ∧
    (∀ event ∈ clocks, event.op = .utcNow) ∧ ∀ event ∈ mail, Mails event.op

/-- A sweep that fired every instance of the batch it claimed, in order, and returned their number. -/
def Swept (runner : SagaRunner I St E C ε) (now : Time) (lease : ChronoDuration) (limit : ℕ)
    (past : List (SagaEvent I St E C ε)) (result : RunnerResult ε ℕ) : Prop :=
  ∃ choice due, ∃ rounds : List (List (SagaEvent I St E C ε)),
    past = rounds.reverse.flatten ++ [⟨choice, .claimDue now lease limit, .ok due⟩] ∧
      List.Forall₂ runner.Fired due rounds ∧ result = .ok due.length

/-- What a sweep does: it saves the claimed instances in their order, each under its own version. -/
def Sweeps (past : List (SagaEvent I St E C ε)) : SagaOp I St E → Prop
  | .save inst => (∀ event ∈ past, ¬ StartsAnew event) →
      ∃ claimed rest, outstanding past = claimed :: rest ∧ inst.id = claimed.id ∧
        inst.version = claimed.version
  | _ => True

/-- No operation reported an error, and no save was lost. -/
def Untroubled (past : List (SagaEvent I St E C ε)) : Prop :=
  ∀ event ∈ past, ¬ Fails event ∧ lostRace event = false

variable {runner : SagaRunner I St E C ε} {past : List (SagaEvent I St E C ε)}

/-! ## One sweep -/

theorem fails_of_refused {event : SagaEvent I St E C ε} (refusal : Refused event) : Fails event := by
  unfold Refused at refusal
  split at refusal
  · trivial
  · exact refusal.elim

theorem outstanding_mail {mail : List (SagaEvent I St E C ε)}
    (mailed : ∀ event ∈ mail, Mails event.op) :
    outstanding (mail ++ past) = outstanding past := by
  induction mail with
  | nil => rfl
  | cons event mail ih =>
      obtain ⟨now, before⟩ := List.forall_mem_cons.mp mailed
      obtain ⟨choice, op, reply⟩ := event
      cases op with
      | utcNow | nowV7 | insert _ => exact ih before
      | load _ | react _ _ | onTimeout _ | save _ | claimDue _ _ _ => exact now.elim

theorem mails_sweeps (past : List (SagaEvent I St E C ε)) (op : SagaOp I St E) (mails : Mails op) :
    Sweeps past op := by
  cases op with
  | save _ => exact mails.elim
  | utcNow | nowV7 | insert _ | load _ | react _ _ | onTimeout _ | claimDue _ _ _ => trivial

theorem mails_of_read {clocks : List (SagaEvent I St E C ε)}
    (read : ∀ event ∈ clocks, event.op = .utcNow) : ∀ event ∈ clocks, Mails event.op := by
  intro event member
  rw [read event member]
  trivial

/-- A claimed instance is persisted under its own id and version, unless it is started anew. -/
theorem version_of_timedOut {inst persisted : SagaInstance I St} {now : Time}
    {transition : SagaTransition St C} (writes : timedOut inst now transition = some persisted)
    (continues : ¬ transition.isStart) :
    persisted.id = inst.id ∧ persisted.version = inst.version := by
  cases transition with
  | ignore =>
      cases writes
      exact ⟨rfl, rfl⟩
  | start state commands deadline => exact (continues rfl).elim
  | advance state commands deadline | complete state commands | fail reason commands =>
      cases writes
      exact ⟨rfl, rfl⟩

theorem timedOut_of_written {inst persisted : SagaInstance I St} {now : Time}
    {transition : SagaTransition St C} (acts : ¬ transition.isIgnore)
    (writes : transition.written inst.id (some inst) now = some persisted) :
    timedOut inst now transition = some persisted := by
  cases transition with
  | ignore => exact (acts rfl).elim
  | start _ _ _ | advance _ _ _ | complete _ _ | fail _ _ => exact writes

/-- A round after which the sweep goes on has fired its instance. -/
theorem Applied.fired {inst : SagaInstance I St} {transition : SagaTransition St C}
    {round : List (SagaEvent I St E C ε)} {result : RunnerResult ε Unit}
    (applied : runner.Applied inst.id (some inst) transition round result)
    (acts : ¬ transition.isIgnore)
    (continues : result = .ok () ∨ ∃ reason, result = .error (.failed reason))
    (firing : SagaChoice I) (past : List (SagaEvent I St E C ε)) :
    runner.Fired inst (round ++ [⟨firing, .onTimeout inst, .ok transition⟩]) ∧
      outstanding (round ++ ⟨firing, .onTimeout inst, .ok transition⟩ :: past) =
        (outstanding past).tail := by
  cases applied with
  | ignored nothing => exact (acts (nothing ▸ rfl)).elim
  | lost read writes choice error =>
      cases error <;> rcases continues with same | ⟨reason, same⟩ <;> cases same
  | @saved clocks mail now persisted sent read writes choice mailed enqueued =>
      have fires := timedOut_of_written acts writes
      cases enqueued with
      | all accepts whole =>
          refine ⟨⟨firing, transition, clocks, now, persisted, choice, mail, rfl, fires, accepts, read,
            mailed⟩, ?_⟩
          rw [List.append_assoc, List.cons_append, outstanding_mail mailed, outstanding,
            outstanding_mail (mails_of_read read)]
          rfl
      | refused member refusal error =>
          cases transition <;> rcases continues with same | ⟨reason, same⟩ <;> cases same
  | unrecorded nothing mailed enqueued =>
      cases transition with
      | ignore => exact (acts rfl).elim
      | start _ _ _ | advance _ _ _ | complete _ _ | fail _ _ => cases nothing 0

/-- A round that aborts the sweep was troubled. -/
theorem Applied.troubled {inst : SagaInstance I St} {transition : SagaTransition St C}
    {round : List (SagaEvent I St E C ε)} {error : SagaRunnerError ε InMemorySagaStoreError}
    (applied : runner.Applied inst.id (some inst) transition round (.error error))
    (aborts : ∀ reason, error ≠ .failed reason) : ¬ Untroubled round := by
  intro untroubled
  generalize reported : (Except.error error : RunnerResult ε Unit) = result at applied
  have stopped : ∀ {mail : List (SagaEvent I St E C ε)} {sent : RunnerResult ε Unit},
      runner.Enqueued transition.commands mail sent → .error error = transition.outcome sent →
      ∃ event ∈ mail, Fails event := by
    intro mail sent enqueued same
    cases enqueued with
    | all accepts whole =>
        cases transition with
        | fail reason commands =>
            cases same
            exact (aborts reason rfl).elim
        | ignore | start _ _ _ | advance _ _ _ | complete _ _ => cases same
    | refused member refusal error => exact ⟨_, member, fails_of_refused refusal⟩
  cases applied with
  | ignored nothing => cases reported
  | lost read writes choice error => cases (untroubled _ List.mem_cons_self).2
  | saved read writes choice mailed enqueued =>
      obtain ⟨event, member, fails⟩ := stopped enqueued reported
      exact (untroubled event (List.mem_append_left _ member)).1 fails
  | unrecorded nothing mailed enqueued =>
      obtain ⟨event, member, fails⟩ := stopped enqueued reported
      exact (untroubled event member).1 fails

/-- The loop of a sweep saves what it has claimed; if nothing troubles it, it fires all of it. -/
theorem fireTimeouts_obeys (due : List (SagaInstance I St)) (processed : ℕ)
    (pending : outstanding past = due) :
    (runner.fireTimeouts due processed).Obeys Sweeps
      (fun past' result => Untroubled past' →
        ∃ rounds : List (List (SagaEvent I St E C ε)), past' = rounds.reverse.flatten ++ past ∧
          List.Forall₂ runner.Fired due rounds ∧ result = .ok (processed + due.length))
      past := by
  induction due generalizing past processed with
  | nil => exact fun _ => ⟨[], rfl, .nil, rfl⟩
  | cons inst due ih =>
      -- what is left of the sweep, once this round fired `inst`
      have goesOn : ∀ round : List (SagaEvent I St E C ε), runner.Fired inst round →
          outstanding (round ++ past) = due →
          (runner.fireTimeouts due (processed + 1)).Obeys Sweeps
            (fun past' result => Untroubled past' →
              ∃ rounds : List (List (SagaEvent I St E C ε)),
                past' = rounds.reverse.flatten ++ past ∧
                  List.Forall₂ runner.Fired (inst :: due) rounds ∧
                  result = .ok (processed + (inst :: due).length))
            (round ++ past) := by
        intro round fired left
        refine (ih (processed + 1) left).mono fun past' result fires untroubled => ?_
        obtain ⟨rounds, rfl, all, rfl⟩ := fires untroubled
        refine ⟨round :: rounds, by simp, .cons fired all, ?_⟩
        rw [List.length_cons, Nat.add_right_comm, Nat.add_assoc]
      unfold fireTimeouts
      refine .call (S := sagaSignature I St E C ε) trivial fun firing answer => ?_
      rcases answer with error | transition
      · intro untroubled
        exact ((untroubled _ List.mem_cons_self).1 trivial).elim
      dsimp only
      split
      · next ignored =>
        have nothing : transition = .ignore := by
          cases transition with
          | ignore => rfl
          | start _ _ _ | advance _ _ _ | complete _ _ | fail _ _ => cases ignored
        subst nothing
        refine .call (S := sagaSignature I St E C ε) trivial fun clock now => ?_
        refine .call (S := sagaSignature I St E C ε)
          (fun _ => ⟨inst, due, pending, rfl, rfl⟩) fun saving reply => ?_
        rcases reply with error | _
        · intro untroubled
          cases (untroubled _ List.mem_cons_self).2
        · refine goesOn [⟨saving, .save _, .ok ()⟩, ⟨clock, .utcNow, now⟩,
            ⟨firing, .onTimeout inst, .ok .ignore⟩] ?_ (congrArg List.tail pending)
          refine ⟨firing, .ignore, [⟨clock, .utcNow, now⟩], now, _, saving, [], rfl, rfl, rfl, ?_, ?_⟩
          · intro event member
            rw [List.mem_singleton.mp member]
          · exact fun _ none => by cases none
      · next acts =>
        have ready : ∀ clocks now persisted, (∀ event ∈ clocks, event.op = .utcNow) →
            transition.written inst.id (some inst) now = some persisted →
            Sweeps (clocks ++ ⟨firing, .onTimeout inst, .ok transition⟩ :: past)
              (.save persisted) := by
          intro clocks now persisted read writes unstarted
          have continues : ¬ transition.isStart := fun starts =>
            unstarted _ (List.mem_append_right _ List.mem_cons_self) starts
          have fires := timedOut_of_written acts writes
          refine ⟨inst, due, ?_, version_of_timedOut fires continues⟩
          rw [outstanding_mail (mails_of_read read)]
          exact pending
        refine .bind (applyTransition_obeys transition mails_sweeps ready) fun past' result facts => ?_
        obtain ⟨round, rfl, applied⟩ := facts
        have fired := fun continues => applied.fired acts continues firing past
        have next := goesOn (round ++ [⟨firing, .onTimeout inst, .ok transition⟩])
        rw [List.append_assoc, List.singleton_append] at next
        rcases result with error | _
        · cases error with
          | failed reason =>
              obtain ⟨fires, left⟩ := fired (.inr ⟨reason, rfl⟩)
              exact next fires (left.trans (congrArg List.tail pending))
          | saga _ | store _ | enqueue _ | conflict _ _ =>
              intro untroubled
              refine (applied.troubled (fun _ same => by cases same) fun event member => ?_).elim
              exact untroubled event (List.mem_append_left _ member)
        · obtain ⟨fires, left⟩ := fired (.inl rfl)
          exact next fires (left.trans (congrArg List.tail pending))

theorem runDueTimeouts_obeys (now : Time) (lease : ChronoDuration) (limit : ℕ) :
    (runner.runDueTimeouts now lease limit).Obeys Sweeps
      (fun past result => Untroubled past → runner.Swept now lease limit past result) [] := by
  unfold runDueTimeouts
  refine .call (S := sagaSignature I St E C ε) trivial fun choice claim => ?_
  rcases claim with error | due
  · intro untroubled
    exact ((untroubled _ List.mem_cons_self).1 trivial).elim
  · refine (fireTimeouts_obeys due 0 rfl).mono fun past' result fires untroubled => ?_
    obtain ⟨rounds, rfl, all, rfl⟩ := fires untroubled
    exact ⟨choice, due, rounds, rfl, all, by rw [Nat.zero_add]⟩

/-- What the sweeps among the calls do. -/
def Sweeping : SagaCall E → List (SagaEvent I St E C ε) → SagaOp I St E → Prop
  | .handle _, _, _ => True
  | .runDueTimeouts _ _ _, past, op => Sweeps past op

/-- A sweep that nothing troubled has fired its batch. -/
def Finishes (runner : SagaRunner I St E C ε) :
    SagaCall E → List (SagaEvent I St E C ε) → SagaReturn ε → Prop
  | .handle _, _, _ => True
  | .runDueTimeouts now lease limit, past, value =>
      Untroubled past → ∃ result, value = .swept result ∧ runner.Swept now lease limit past result

theorem body_sweeps (call : SagaCall E) :
    (runner.body call).Obeys (Sweeping call) (runner.Finishes call) [] := by
  cases call with
  | handle event =>
      exact (Program.Obeys.of_true (runner.body (.handle event)) []).mono fun _ _ _ => trivial
  | runDueTimeouts now lease limit =>
      refine .bind (runDueTimeouts_obeys now lease limit) fun past result swept untroubled => ?_
      exact ⟨result, rfl, swept untroubled⟩

/-! ## Many calls -/

section Runs

variable [DecidableEq I]

/-- The step is one of sweep `i`, or it writes nothing that sweep `i` has claimed and not saved. -/
def Spares (runner : SagaRunner I St E C ε) (i : ℕ) :
    SagaPool I St E C ε → Action (SagaChoice I) (SagaCall E) → Prop
  | _, .arrive _ => True
  | q, .step j choice => j = i ∨ ∀ t ∈ q.tasks[i]?,
      ∀ r ∈ runner.system.step q (.step j choice), ∀ entry ∈ r.trace.getLast?,
        ∀ inst ∈ outstanding t.past, ¬ Raises inst.id entry.event

instance (i : ℕ) (q : SagaPool I St E C ε) :
    (action : Action (SagaChoice I) (SagaCall E)) → Decidable (runner.Spares i q action)
  | .arrive _ => .isTrue trivial
  | .step j choice => inferInstanceAs (Decidable (j = i ∨ ∀ t ∈ q.tasks[i]?,
      ∀ r ∈ runner.system.step q (.step j choice), ∀ entry ∈ r.trace.getLast?,
        ∀ inst ∈ outstanding t.past, ¬ Raises inst.id entry.event))

/-- What the sweep claimed and has not saved is stored under the version it claimed, and it has lost
no save. -/
structure Reserved (past : List (SagaEvent I St E C ε)) (s : SagaShared I St) : Prop where
  distinct : ((outstanding past).map SagaInstance.id).Nodup
  stored : ∀ inst ∈ outstanding past, versionOf s inst.id = inst.version
  won : ∀ event ∈ past, lostRace event = false

variable {s s' : SagaShared I St} {choice : SagaChoice I} {op : SagaOp I St E}
  {reply : op.Reply C ε}

/-- An operation of another call that writes none of it. -/
theorem Reserved.spared (reserved : Reserved past s) (keyed : s.store.Keyed)
    (served : runner.serve s choice op = some (s', reply))
    (spares : ∀ inst ∈ outstanding past,
      ¬ Raises (E := E) (C := C) (ε := ε) inst.id ⟨choice, op, reply⟩) : Reserved past s' := by
  refine ⟨reserved.distinct, fun inst claimed => ?_, reserved.won⟩
  rcases serve_row keyed served inst.id with ⟨raises, -⟩ | ⟨-, same⟩
  · exact (spares inst claimed raises).elim
  · rw [versionOf, same]
    exact reserved.stored inst claimed

/-- The next operation of the sweep itself. -/
theorem Reserved.own (reserved : Reserved past s) (keyed : s.store.Keyed) (sweeps : Sweeps past op)
    (unstarted : ∀ event ∈ past, ¬ StartsAnew event)
    (served : runner.serve s choice op = some (s', reply)) :
    Reserved (⟨choice, op, reply⟩ :: past) s' := by
  cases op with
  | claimDue now lease limit =>
      simp only [serve] at served
      split at served
      · next iterated =>
        cases served
        refine ⟨?_, fun inst claimed => ?_, List.forall_mem_cons.mpr ⟨rfl, reserved.won⟩⟩
        · exact (InMemorySagaStore.dueBatch_claimDue keyed iterated).distinct
        · rw [versionOf, InMemorySagaStore.get_of_claimed keyed iterated claimed]
          rfl
      · cases served
  | save inst =>
      obtain ⟨claimed, rest, pending, same, version⟩ := sweeps unstarted
      have distinct := reserved.distinct
      have stored := reserved.stored
      rw [pending] at distinct stored
      rw [List.map_cons, List.nodup_cons] at distinct
      have left : outstanding (⟨choice, .save inst, reply⟩ :: past) = rest :=
        congrArg List.tail pending
      refine ⟨?_, ?_, ?_⟩
      · rw [left]
        exact distinct.2
      · rw [left]
        intro other member
        have apart : inst.id ≠ other.id := by
          rw [same]
          exact fun alike => distinct.1 (alike ▸ List.mem_map_of_mem member)
        have kept : s'.store.get other.id = s.store.get other.id := by
          rcases serve_row keyed served other.id with ⟨raises, -⟩ | ⟨-, kept⟩
          · cases reply with
            | error error => exact raises.elim
            | ok _ => exact (apart raises).elim
          · exact kept
        rw [versionOf, kept]
        exact stored other (List.mem_cons_of_mem _ member)
      · refine List.forall_mem_cons.mpr ⟨?_, reserved.won⟩
        cases reply with
        | error error =>
            refine (versionOf_ne_of_lost served ?_).elim
            rw [same, version]
            exact stored claimed List.mem_cons_self
        | ok _ => rfl
  | load _ | react _ _ | onTimeout _ | utcNow | nowV7 | insert _ =>
      have spared := reserved.spared keyed served fun _ _ raises => raises
      exact ⟨spared.distinct, spared.stored, List.forall_mem_cons.mpr ⟨rfl, spared.won⟩⟩

variable {p q : SagaPool I St E C ε} {i : ℕ}
  {t : Task (sagaSignature I St E C ε) (SagaChoice I) (SagaCall E) (SagaReturn ε)} {now : Time}
  {lease : ChronoDuration} {limit : ℕ}

theorem reserved_of_reaches (reached : runner.system.Reaches (runner.Spares i) p q)
    (idle : p.tasks = []) (keyed : p.shared.store.Keyed) (found : q.tasks[i]? = some t)
    (sweeps : t.args = .runDueTimeouts now lease limit)
    (unstarted : ∀ event ∈ t.past, ¬ StartsAnew event) : Reserved t.past q.shared := by
  refine reached.invariant (P := fun q => ∀ t, q.tasks[i]? = some t →
    t.args = .runDueTimeouts now lease limit → (∀ event ∈ t.past, ¬ StartsAnew event) →
    Reserved t.past q.shared) ?_ ?_ t found sweeps unstarted
  · intro t found
    rw [idle] at found
    cases found
  · intro q r action before known side stepped u at_i sweeps unstarted
    have keyed := keyed_of_reaches before keyed
    have taken := stepped
    obtain ⟨arrival, shared, args, rfl, arrived, rfl⟩ |
      ⟨j, choice, t, op, next, shared, reply, rfl, found, awaits, served, rfl⟩ :=
      System.step_cases stepped
    · cases arrived
      rcases Pool.getElem?_start at_i with old | ⟨-, a, -, rfl⟩
      · exact known u old sweeps unstarted
      · exact ⟨List.nodup_nil, fun _ none => (by cases none), fun _ none => (by cases none)⟩
    · rcases Pool.getElem?_advance found at_i with ⟨rfl, rfl⟩ | ⟨distinct, old⟩
      · have obeys := before.obeys_op idle body_sweeps found awaits
        rw [show t.args = .runDueTimeouts now lease limit from sweeps] at obeys
        have unstarted := (List.forall_mem_cons.mp unstarted).2
        exact (known t found sweeps unstarted).own keyed obeys unstarted served
      · have spares := side.resolve_left (Ne.symm distinct) u old _ taken _
          (by rw [Pool.advance_trace, List.getLast?_concat]; rfl)
        exact (known u old sweeps unstarted).spared keyed served spares

/-- Every operation can be served. -/
theorem exists_serve (runner : SagaRunner I St E C ε) (s : SagaShared I St) (op : SagaOp I St E) :
    ∃ choice out, runner.serve s choice op = some out := by
  cases op with
  | claimDue now lease limit =>
      exact ⟨{ order := s.store.keys }, _, if_pos (List.Perm.refl _)⟩
  | insert message => exact ⟨{}, _, rfl⟩
  | load _ | react _ _ | onTimeout _ | utcNow | nowV7 | save _ => exact ⟨{}, _, rfl⟩

/-- **A sweep finishes its batch unless it loses a race.**  From any stored state and under any
interleaving in which no other call writes an instance between its claim by the sweep and the
sweep's own save of it: a sweep whose `on_timeout` never answers `Start`, and to which the saga, the
store and the outbox report no error, can go on until it has returned, and then it has fired every
instance it claimed and returns their number. -/
theorem sweep_completes (reached : runner.system.Reaches (runner.Spares i) p q)
    (idle : p.tasks = []) (keyed : p.shared.store.Keyed) (found : q.tasks[i]? = some t)
    (sweeps : t.args = .runDueTimeouts now lease limit)
    (unstarted : ∀ event ∈ t.past, ¬ StartsAnew event)
    (unfailed : ∀ event ∈ t.past, ¬ Fails event) :
    (¬ t.Finished → ∃ choice r, runner.system.step q (.step i choice) = some r) ∧
      ∀ value, t.rest = .ret value →
        ∃ result, value = .swept result ∧ runner.Swept now lease limit t.past result := by
  have reserved := reserved_of_reaches reached idle keyed found sweeps unstarted
  refine ⟨fun running => ?_, fun value returned => ?_⟩
  · cases rest : t.rest with
    | ret value => exact (running (by rw [Task.Finished, rest]; trivial)).elim
    | await op next =>
        obtain ⟨choice, out, served⟩ := exists_serve runner q.shared op
        exact ⟨choice, _, System.step_of_serve found rest served⟩
  · have obeys := reached.obeys idle body_sweeps t (List.mem_of_getElem? found)
    rw [returned, sweeps] at obeys
    exact obeys fun event member => ⟨unfailed event member, reserved.won event member⟩

end Runs

/-! ## Two runs -/

/-- Sagas 7 and 8 are started, and a sweep claims both. -/
def claimBoth : List (Action (SagaChoice ℕ) (SagaCall (ℕ × ℕ))) :=
  [.arrive (.handle (7, 1))] ++ List.replicate 7 (.step 0 {}) ++
    [.arrive (.handle (8, 1))] ++ List.replicate 7 (.step 1 {}) ++
    [.arrive (.runDueTimeouts 5 10 10), .step 2 { order := [7, 8] }]

/-- Saga 9 starts while the sweep goes on. -/
def sparedSweep : List (Action (SagaChoice ℕ) (SagaCall (ℕ × ℕ))) :=
  claimBoth ++ [.arrive (.handle (9, 1))] ++ List.replicate 7 (.step 3 {}) ++
    List.replicate 6 (.step 2 {})

theorem sweep_completes_spared : ∃ q : SagaPool ℕ ℕ (ℕ × ℕ) ℕ String,
    tally.system.Reaches (tally.Spares 2) initial q ∧ ∃ t ∈ q.tasks[2]?, t.Finished ∧
      ∀ value, t.rest = .ret value →
        ∃ result, value = .swept result ∧ tally.Swept 5 10 10 t.past result := by
  have along : tally.system.Along (tally.Spares 2) initial sparedSweep := by decide +kernel
  have run : (tally.system.exec initial sparedSweep).any (fun q =>
      decide (∃ t ∈ q.tasks[2]?, t.args = .runDueTimeouts 5 10 10 ∧
        (∀ event ∈ t.past, ¬ StartsAnew event) ∧ (∀ event ∈ t.past, ¬ Fails event) ∧
        t.Finished)) = true := by decide +kernel
  obtain ⟨q, reached, facts⟩ := System.exists_reaches_of_exec along run
  obtain ⟨t, found, sweeps, unstarted, unfailed, finished⟩ := of_decide_eq_true facts
  exact ⟨q, reached, t, found, finished, (sweep_completes reached rfl
    InMemorySagaStore.keyed_empty found sweeps unstarted unfailed).2⟩

/-- The sweep ended in a conflict. -/
def Aborted : RunnerM I St E C ε (SagaReturn ε) → Prop
  | .ret (.swept (.error (.conflict _ _))) => True
  | _ => False

instance : DecidablePred (@Aborted I St E C ε)
  | .ret (.swept (.error (.conflict _ _))) => .isTrue trivial
  | .ret (.swept (.error (.saga _))) | .ret (.swept (.error (.store _))) |
    .ret (.swept (.error (.enqueue _))) | .ret (.swept (.error (.failed _))) |
    .ret (.swept (.ok _)) | .ret (.handled _) | .await _ _ => .isFalse not_false

/-- The instance whose timeout was evaluated. -/
def evaluated : SagaEvent I St E C ε → Option I
  | ⟨_, .onTimeout inst, _⟩ => some inst.id
  | _ => none

/-- An event for saga 7 is handled after the sweep has claimed it. -/
def racedSweep : List (Action (SagaChoice ℕ) (SagaCall (ℕ × ℕ))) :=
  claimBoth ++ [.arrive (.handle (7, 2))] ++ List.replicate 7 (.step 3 {}) ++
    List.replicate 3 (.step 2 {})

/-- The sweep is aborted over saga 7, and saga 8, which it claimed too, is never evaluated. -/
theorem tally_sweep_aborted : ∃ q : SagaPool ℕ ℕ (ℕ × ℕ) ℕ String,
    tally.system.Reaches System.Any initial q ∧
      ∃ t ∈ q.tasks[2]?, t.args = .runDueTimeouts 5 10 10 ∧
        (∀ event ∈ t.past, ¬ Fails event ∧ ¬ StartsAnew event) ∧ Aborted t.rest ∧
        (∃ inst ∈ outstanding t.past, inst.id = 8) ∧ 8 ∉ t.past.filterMap evaluated := by
  have run : (tally.system.exec initial racedSweep).any (fun q =>
      decide (∃ t ∈ q.tasks[2]?, t.args = .runDueTimeouts 5 10 10 ∧
        (∀ event ∈ t.past, ¬ Fails event ∧ ¬ StartsAnew event) ∧ Aborted t.rest ∧
        (∃ inst ∈ outstanding t.past, inst.id = 8) ∧ 8 ∉ t.past.filterMap evaluated)) = true := by
    decide +kernel
  obtain ⟨q, reached, facts⟩ :=
    System.exists_reaches_of_exec (System.along_any tally.system initial racedSweep) run
  exact ⟨q, reached, of_decide_eq_true facts⟩

end SagaRunner

end Pharos
