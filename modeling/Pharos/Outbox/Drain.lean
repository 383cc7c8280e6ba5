import Pharos.Async.Progress
import Pharos.Outbox.Order
import Pharos.Outbox.Relay

/-!
# The outbox drains

A run of the dispatcher that is begun when a row is due makes at least one publish call, and no row
is published more often than its budget allows.  So there is a bound on how many such runs there
can be, whatever else happens (`Rounds.bounded`).  And no state is a dead end: from every one a
dispatcher whose publisher accepts can bring all rows to an end (`exists_settled`).
-/

namespace Pharos

namespace OutboxDispatcher

open Async

/-! ## A bound on the calls -/

/-- Where no key occurs more than `bound` times, there are no more elements than the keys allow. -/
theorem length_le_mul_keys {α β : Type} [DecidableEq β] {bound : ℕ} (key : α → β)
    {l : List α} {keys : List β} (all : ∀ x ∈ l, key x ∈ keys)
    (few : ∀ k, (l.filter fun x => decide (key x = k)).length ≤ bound) :
    l.length ≤ bound * keys.length := by
  induction keys generalizing l with
  | nil =>
      have none : l = [] := List.eq_nil_iff_forall_not_mem.mpr fun x member => by
        cases all x member
      simp [none]
  | cons k keys ih =>
      have split := List.length_eq_length_filter_add (l := l) fun x => decide (key x = k)
      have first := few k
      have rest := ih (l := l.filter fun x => !decide (key x = k)) (fun x member => ?_)
        fun k' => ?_
      · rw [List.length_cons, Nat.mul_succ]
        omega
      · obtain ⟨listed, other⟩ := List.mem_filter.mp member
        rcases List.mem_cons.mp (all x listed) with same | later
        · simp [same] at other
        · exact later
      · refine Nat.le_trans (List.Sublist.length_le ?_) (few k')
        exact List.filter_sublist.filter _

section Bound

variable {config : DispatchConfig} {p q : DispatchPool} {claimLease : ChronoDuration}
  (reached : (system config).Reaches (Delivering config) (initial claimLease) p)

include reached

/-- No more publish calls than the budgets of all rows allow. -/
theorem calls_le : p.shared.calls.length ≤ config.retry.budget * (rows p.shared).length := by
  have ledger := ledger_of_reaches reached
  have c := consistent_of_reaches (single_of_delivering reached)
  rw [← List.length_map OutboxMessage.id]
  refine length_le_mul_keys (fun call : PublishCall => call.record.id) (fun call made => ?_)
    fun id => ?_
  · obtain ⟨row, found⟩ := ledger.called call made
    have same := InMemoryOutboxRepository.id_of_get found
    exact List.mem_map.mpr ⟨row, mem_rows.mpr (same.symm ▸ found), same⟩
  · obtain ⟨status, account⟩ := ledger.account c id
    have few := account.length_le
    rwa [outcomesOf, List.length_map] at few

/-- A run that is over has made a call for each of its lanes. -/
theorem called_of_over (finished : Over p) {m : OutboxMessage}
    (claimed : m ∈ p.shared.run.claimed) :
    p.shared.run.calls ≠ [] := by
  have c := consistent_of_reaches (single_of_delivering reached)
  obtain ⟨lane, member, inLane⟩ := exists_lane claimed
  obtain ⟨n, done, rest, stage, at_, -, stopped⟩ := c.allEnded finished.1 finished.2 member
  have made : laneCalls p.shared lane ≠ [] := by
    rw [at_.calls]
    cases done with
    | cons first done => simp
    | nil =>
        cases rest with
        | nil =>
            rw [at_.split] at inLane
            cases inLane
        | cons head behind =>
            rcases stopped with none | ⟨error, rfl | rfl⟩
            · cases none
            · simp [Stage.calls]
            · simp [Stage.calls]
  rintro none
  rw [laneCalls, none] at made
  exact made rfl

end Bound

/-! ## Runs that make progress -/

section Rounds

variable {config : DispatchConfig} {p q : DispatchPool} {claimLease : ChronoDuration}

/-- A claim with a due row takes at least one. -/
theorem claimed_ne_nil {s : OutboxShared} {limit : ℕ} {now : Time} {order : List Uuid}
    (iterated : order.Perm s.repo.store.keys) (room : 0 < limit) {row : OutboxMessage}
    (listed : row ∈ rows s) (due : InMemoryOutboxRepository.Due now row) :
    (claimBatch s limit now order).run.claimed ≠ [] := by
  have answered : (s.repo.pending order now limit).2 =
      .ok (claimBatch s limit now order).run.claimed := rfl
  have ids := InMemoryOutboxRepository.map_id_pending iterated answered
  have found := mem_rows.mp listed
  have visited : row.id ∈ order := iterated.mem_iff.mpr (DashMap.mem_keys.mpr ⟨row, found⟩)
  have entry : (row.id, row.createdAt) ∈ s.repo.dueEntries order now :=
    InMemoryOutboxRepository.mem_dueEntries.mpr ⟨visited, row, found, due, rfl⟩
  intro none
  rw [none, List.map_nil, eq_comm, List.map_eq_nil_iff, InMemoryOutboxRepository.candidates,
    List.take_eq_nil_iff] at ids
  rcases ids with none | none
  · omega
  · have kept := (List.perm_insertionSort InMemoryOutboxRepository.NotAfter _).mem_iff.mpr entry
    rw [none] at kept
    cases kept

/-- While a run lasts, the calls of earlier ones and its batch are fixed. -/
theorem same_run (reached : (system config).Reaches (Delivering config) (initial claimLease) p)
    (later : (system config).Reaches (Delivering config) p q) : p.shared.runs ≤ q.shared.runs ∧
      (q.shared.runs = p.shared.runs → q.shared.earlier = p.shared.earlier ∧
        q.shared.run.claimed = p.shared.run.claimed) := by
  refine later.invariant (P := fun q : DispatchPool => p.shared.runs ≤ q.shared.runs ∧
    (q.shared.runs = p.shared.runs → q.shared.earlier = p.shared.earlier ∧
      q.shared.run.claimed = p.shared.run.claimed)) ⟨le_rfl, fun _ => ⟨rfl, rfl⟩⟩ ?_
  intro q r action before kept side stepped
  have c := consistent_of_reaches (single_of_delivering (reached.trans before))
  rcases shared_cases c side.1 stepped with ⟨message, -, -, eq⟩ |
    ⟨limit, now, order, -, -, -, -, eq⟩ | ⟨lane, waiting, -, -, eq⟩ |
    ⟨i, choice, lane, op, reply, -, -, -, -, -, effect⟩
  · rw [eq]
    exact kept
  · rw [eq]
    refine ⟨Nat.le_succ_of_le kept.1, fun same => ?_⟩
    have begun : q.shared.runs + 1 = p.shared.runs := same
    have := kept.1
    omega
  · rw [eq]
    exact kept
  · rw [effect.runs, effect.earlier, effect.claimed]
    exact kept

/-- A run that was begun when a row was due and is over has made a publish call. -/
theorem calls_lt_of_run {p₁ : DispatchPool} {limit : ℕ} {now : Time} {order : List Uuid}
    {row : OutboxMessage}
    (reached : (system config).Reaches (Delivering config) (initial claimLease) p)
    (room : 0 < limit) (listed : row ∈ rows p.shared) (due : InMemoryOutboxRepository.Due now row)
    (side : Delivering config p (.arrive (.dispatch limit now order)))
    (claims : (system config).step p (.arrive (.dispatch limit now order)) = some p₁)
    (later : (system config).Reaches (Delivering config) p₁ q)
    (sameRun : q.shared.runs = p₁.shared.runs) (finished : Over q) :
    p.shared.calls.length < q.shared.calls.length := by
  have reached₁ := reached.tail ⟨_, side, claims⟩
  obtain ⟨-, frame⟩ := same_run reached₁ later
  obtain ⟨earlier, claimed⟩ := frame sameRun
  obtain ⟨iterated, rfl⟩ : order.Perm p.shared.repo.store.keys ∧
      p₁ = { p with shared := claimBatch p.shared limit now order } := by
    simp only [System.step, system, arrive] at claims
    split at claims
    · next iterated =>
      rw [Option.map_some, Pool.start_nil, Option.some.injEq] at claims
      exact ⟨iterated, claims.symm⟩
    · cases claims
  obtain ⟨m, member⟩ := List.exists_mem_of_ne_nil _ (claimed_ne_nil iterated room listed due)
  have made := called_of_over (reached₁.trans later) finished (claimed ▸ member)
  have calls : q.shared.calls = p.shared.calls ++ q.shared.run.calls :=
    congrArg (· ++ q.shared.run.calls) earlier
  have := List.length_pos_iff.mpr made
  rw [calls, List.length_append]
  omega

/-- From `p` on there were `n` runs of the dispatcher that were begun when a row was due and that
are over; anything may have happened between them. -/
inductive Rounds (config : DispatchConfig) (p : DispatchPool) : ℕ → DispatchPool → Prop where
  | none : Rounds config p 0 p
  | between {n : ℕ} {q r : DispatchPool} (earlier : Rounds config p n q)
      (later : (system config).Reaches (Delivering config) q r) : Rounds config p n r
  | round {n : ℕ} {q q₁ r : DispatchPool} {limit : ℕ} {now : Time} {order : List Uuid}
      {row : OutboxMessage} (earlier : Rounds config p n q) (room : 0 < limit)
      (listed : row ∈ rows q.shared) (due : InMemoryOutboxRepository.Due now row)
      (side : Delivering config q (.arrive (.dispatch limit now order)))
      (claims : (system config).step q (.arrive (.dispatch limit now order)) = some q₁)
      (later : (system config).Reaches (Delivering config) q₁ r)
      (sameRun : r.shared.runs = q₁.shared.runs) (finished : Over r) : Rounds config p (n + 1) r

theorem Rounds.reaches {n : ℕ} (rounds : Rounds config p n q) :
    (system config).Reaches (Delivering config) p q := by
  induction rounds with
  | none => exact .refl
  | between _ later ih => exact ih.trans later
  | round _ _ _ _ side claims later _ _ ih => exact (ih.tail ⟨_, side, claims⟩).trans later

theorem Rounds.calls {n : ℕ} (rounds : Rounds config p n q)
    (reached : (system config).Reaches (Delivering config) (initial claimLease) p) :
    n + p.shared.calls.length ≤ q.shared.calls.length := by
  induction rounds with
  | none => omega
  | between earlier later ih =>
      have grown := calls_prefix (single_of_delivering (reached.trans earlier.reaches))
        (later.mono fun _ _ side => side.1)
      have := grown.length_le
      omega
  | round earlier room listed due side claims later sameRun finished ih =>
      have more := calls_lt_of_run (reached.trans earlier.reaches) room listed due side claims later
        sameRun finished
      omega

end Rounds

/-! ## No dead end -/

/-- Nothing is inserted, and the publisher accepts what it is given. -/
def Undisturbed : Action DispatchChoice OutboxArrival → Prop
  | .arrive (.insert _) => False
  | .arrive (.dispatch _ _ _) | .arrive .nextLane => True
  | .step _ choice => choice.published = .ok ()

def Draining (config : DispatchConfig) (p : DispatchPool)
    (action : Action DispatchChoice OutboxArrival) : Prop :=
  Delivering config p action ∧ Undisturbed action

section Draining

variable {config : DispatchConfig} {p q : DispatchPool} {claimLease : ChronoDuration}

theorem delivering_of_draining (later : (system config).Reaches (Draining config) p q) :
    (system config).Reaches (Delivering config) p q :=
  later.mono fun _ _ side => side.1

/-- What an undisturbed dispatcher keeps: the rows, and that calls succeed. -/
theorem draining_kept (reached : (system config).Reaches (Delivering config) (initial claimLease) p)
    (later : (system config).Reaches (Draining config) p q) :
    (rows q.shared).length = (rows p.shared).length ∧
      ∃ more, q.shared.calls = p.shared.calls ++ more ∧ ∀ call ∈ more, call.outcome = .ok () := by
  refine later.invariant (P := fun q : DispatchPool =>
    (rows q.shared).length = (rows p.shared).length ∧
      ∃ more, q.shared.calls = p.shared.calls ++ more ∧ ∀ call ∈ more, call.outcome = .ok ())
    ⟨rfl, [], (List.append_nil _).symm, by simp⟩ ?_
  intro q r action before kept side stepped
  obtain ⟨same, more, grown, accepted⟩ := kept
  have noInsert : ∀ message, action ≠ .arrive (.insert message) := fun message inserts => by
    rw [inserts] at side
    exact side.2
  have perm := rows_perm_of_step
    (single_of_delivering (reached.trans (delivering_of_draining before))) side.1.1 stepped noInsert
  refine ⟨?_, ?_⟩
  · rw [← List.length_map OutboxMessage.message, perm.length_eq, List.length_map, same]
  · obtain ⟨arrival, shared, args, rfl, arrived, rfl⟩ |
      ⟨i, choice, t, op, next, shared, reply, rfl, found, awaits, served, rfl⟩ :=
      System.step_cases stepped
    · exact ⟨more, (calls_of_arrive arrived).trans grown, accepted⟩
    · refine ⟨more ++ (callMade choice op).toList, ?_, fun call made => ?_⟩
      · rw [Pool.advance_shared, calls_of_serve served, grown, List.append_assoc]
      · rcases List.mem_append.mp made with old | new
        · exact accepted call old
        · cases op with
          | publish record =>
              rw [List.mem_singleton.mp new]
              exact side.2
          | recordAttempt _ | markPublished _ | decideFor _ _ | markFailed _ _ | scheduleRetry _ _
          | yield _ _ => cases new

/-- One operation of a lane, with a publisher that accepts. -/
def LaneStep (config : DispatchConfig) (p : DispatchPool)
    (action : Action DispatchChoice OutboxArrival) : Prop :=
  Draining config p action ∧ ∃ i choice, action = .step i choice

theorem answers_laneStep (config : DispatchConfig) :
    (system config).Answers (LaneStep config) {} where
  serves shared op := by
    cases op <;> exact ⟨_, _, rfl⟩
  allowed _ i := ⟨⟨⟨trivial, trivial⟩, rfl⟩, i, {}, rfl⟩

/-- The lanes do not change which of them wait, nor the run. -/
theorem waiting_of_laneSteps (later : (system config).Reaches (LaneStep config) p q) :
    q.shared.run.waiting = p.shared.run.waiting ∧ q.shared.runs = p.shared.runs := by
  refine later.invariant (P := fun q : DispatchPool =>
    q.shared.run.waiting = p.shared.run.waiting ∧ q.shared.runs = p.shared.runs) ⟨rfl, rfl⟩ ?_
  intro q r action _ kept side stepped
  obtain ⟨arrival, shared, args, rfl, -, -⟩ |
    ⟨i, choice, t, op, next, shared, reply, rfl, found, awaits, served, rfl⟩ :=
    System.step_cases stepped
  · obtain ⟨-, i, choice, none⟩ := side
    cases none
  · cases op <;>
    · cases served
      exact kept

/-- The pool after the start of its next lane. -/
def laneBegins (p : DispatchPool) (lane : List OutboxMessage)
    (waiting : List (List OutboxMessage)) : DispatchPool :=
  p.start body { p.shared with run := { p.shared.run with waiting := waiting } }
    [⟨p.shared.runs, lane⟩]

theorem step_nextLane {lane : List OutboxMessage} {waiting : List (List OutboxMessage)}
    (waits : p.shared.run.waiting = lane :: waiting) :
    (system config).step p (.arrive .nextLane) = some (laneBegins p lane waiting) := by
  simp only [System.step, system, arrive, waits, Option.map_some]
  rfl

/-- A run in progress can be brought to its end. -/
theorem exists_over (p : DispatchPool) : ∃ q, (system config).Reaches (Draining config) p q ∧
    Over q ∧ q.shared.runs = p.shared.runs := by
  generalize waits : p.shared.run.waiting = waiting
  induction waiting generalizing p with
  | nil =>
      obtain ⟨q, later, quiescent⟩ := System.exists_quiescent (answers_laneStep config) p
      obtain ⟨same, run⟩ := waiting_of_laneSteps later
      exact ⟨q, later.mono fun _ _ side => side.1, ⟨quiescent, same.trans waits⟩, run⟩
  | cons lane waiting ih =>
      -- the lanes that have begun end first, so there is room for the next one
      obtain ⟨q, later, quiescent⟩ := System.exists_quiescent (answers_laneStep config) p
      obtain ⟨same, run⟩ := waiting_of_laneSteps later
      have idle : active q = 0 := List.countP_eq_zero.mpr fun t started => by
        simp [quiescent t started]
      have room : active q < max 1 config.concurrency := by omega
      obtain ⟨last, ended, finished, run'⟩ := ih (laneBegins q lane waiting) rfl
      refine ⟨last, ?_, finished, run'.trans run⟩
      have begins := @step_nextLane config q lane waiting (same.trans waits)
      exact ((later.mono fun _ _ side => side.1).tail
        ⟨.arrive .nextLane, ⟨⟨room, trivial⟩, trivial⟩, begins⟩).trans ended

/-- From every state all rows can be brought to an end. -/
theorem exists_settled
    (reached : (system config).Reaches (Delivering config) (initial claimLease) p) :
    ∃ q, (system config).Reaches (Draining config) p q ∧ Over q ∧
      ∀ row ∈ rows q.shared, row.status ≠ .pending := by
  -- each run that claims something makes a call, and the calls are bounded
  generalize left : config.retry.budget * (rows p.shared).length - p.shared.calls.length = n
  induction n using Nat.strong_induction_on generalizing p with
  | _ n ih =>
    obtain ⟨q, ended, finished, -⟩ := @exists_over config p
    have reachedQ := reached.trans (delivering_of_draining ended)
    by_cases settled : ∀ row ∈ rows q.shared, row.status ≠ .pending
    · exact ⟨q, ended, finished, settled⟩
    push Not at settled
    obtain ⟨row, listed, pending⟩ := settled
    have due : InMemoryOutboxRepository.Due row.nextAttemptAt row := ⟨pending, le_rfl⟩
    have side : Delivering config q
        (.arrive (.dispatch 1 row.nextAttemptAt q.shared.repo.store.keys)) := ⟨finished, trivial⟩
    obtain ⟨q₁, claims⟩ : ∃ q₁, (system config).step q
        (.arrive (.dispatch 1 row.nextAttemptAt q.shared.repo.store.keys)) = some q₁ := by
      simp only [System.step, system, arrive, if_pos (List.Perm.refl _), Option.map_some]
      exact ⟨_, rfl⟩
    obtain ⟨r, run, finished', sameRun⟩ := @exists_over config q₁
    have more := calls_lt_of_run reachedQ Nat.one_pos listed due side claims
      (delivering_of_draining run) sameRun finished'
    have whole := (ended.tail ⟨_, ⟨side, trivial⟩, claims⟩).trans run
    have reachedR := reached.trans (delivering_of_draining whole)
    obtain ⟨same, -⟩ := draining_kept reached whole
    have bound := calls_le reachedR
    have grown := calls_prefix (single_of_delivering reached)
      ((delivering_of_draining ended).mono fun _ _ side => side.1)
    have := grown.length_le
    obtain ⟨last, later, overLast, done⟩ := ih _ (by rw [same] at bound ⊢; omega) reachedR rfl
    exact ⟨last, whole.trans later, overLast, done⟩

/-- What is pending between two runs is published by the time that nothing is pending, if the
publisher accepts all of it. -/
theorem published_of_settled
    (reached : (system config).Reaches (Delivering config) (initial claimLease) p)
    (finished : Over p) (later : (system config).Reaches (Draining config) p q) (finished' : Over q)
    (settled : ∀ row ∈ rows q.shared, row.status ≠ .pending) {row : OutboxMessage}
    (listed : row ∈ rows p.shared) (pending : row.status = .pending) :
    IsPublished q.shared row := by
  have reached' := reached.trans (delivering_of_draining later)
  have single := single_of_delivering reached
  have isOpen := ((ledger_of_reaches reached).accounted (consistent_of_reaches single) finished.1
    finished.2 (mem_rows.mp listed)).isOpen pending
  obtain ⟨row', found, -⟩ := stored_of_reaches single (later.mono fun _ _ side => side.1.1)
    (mem_rows.mp listed)
  have own : row'.id = row.id := InMemoryOutboxRepository.id_of_get found
  have account := ((ledger_of_reaches reached').accounted
    (consistent_of_reaches (single_of_delivering reached')) finished'.1 finished'.2 found).2
  obtain ⟨-, more, grown, accepted⟩ := draining_kept reached later
  have outcomes : outcomesOf q.shared row.id = outcomesOf p.shared row.id ++
      (more.filter fun call => decide (call.record.id = row.id)).map PublishCall.outcome := by
    rw [outcomesOf, callsOf, grown, List.filter_append, List.map_append]
    rfl
  have fine : ∀ outcome ∈ (more.filter fun call => decide (call.record.id = row.id)).map
      PublishCall.outcome, outcome = .ok () := by
    intro outcome member
    obtain ⟨call, made, rfl⟩ := List.mem_map.mp member
    exact accepted call (List.mem_filter.mp made).1
  rcases account.status_cases with still | published | failed
  · exact (settled row' (mem_rows.mpr (own.symm ▸ found)) still).elim
  · exact ⟨row', found, published⟩
  · -- the failures are those there were before, and they did not exhaust the budget
    exfalso
    rw [account.failed_iff, outcomes] at failed
    rcases failed with ⟨outcome, member, poison⟩ | spent
    · rcases List.mem_append.mp member with old | new
      · exact isOpen.not_poison old poison
      · rw [fine outcome new] at poison
        exact poison
    · have none : ((more.filter fun call => decide (call.record.id = row.id)).map
          PublishCall.outcome).countP IsFailure = 0 :=
        List.countP_eq_zero.mpr fun outcome member => by simp [fine outcome member, IsFailure]
      rw [List.countP_append, isOpen.countP_eq, none] at spent
      have := isOpen.length_lt
      omega

/-- **The outbox drains.**  Of the runs with a positive limit that are begun when a row is due there
can be no more than the budgets of the rows allow, whatever is inserted under fresh ids and whatever
fails in between.  And from every state, if nothing more is inserted and the publisher accepts, the
dispatcher can go on until no row is pending; what was pending between two runs is published then. -/
theorem outbox_drains
    (reached : (system config).Reaches (Delivering config) (initial claimLease) p) :
    (∀ n q, Rounds config p n q →
      n + p.shared.calls.length ≤ config.retry.budget * (rows q.shared).length) ∧
    ∃ q, (system config).Reaches (Draining config) p q ∧ Over q ∧
      (∀ row ∈ rows q.shared, row.status ≠ .pending) ∧
      (Over p → ∀ row ∈ rows p.shared, row.status = .pending → IsPublished q.shared row) := by
  constructor
  · intro n q rounds
    have grown := rounds.calls reached
    have bound := calls_le (reached.trans rounds.reaches)
    omega
  · obtain ⟨q, later, finished, settled⟩ := exists_settled reached
    exact ⟨q, later, finished, settled, fun finished' row listed pending =>
      published_of_settled reached finished' later finished settled listed pending⟩

end Draining

/-- Three messages are inserted, and the run over them refuses the first. -/
def refusedFirst : List (Action DispatchChoice OutboxArrival) :=
  inserts ++ .arrive (.dispatch 10 0 [1, 2, 3]) :: bothLanes

/-- Messages 1 and 2 are still pending after that run. -/
theorem outbox_drains_refusedFirst : ∃ p q : DispatchPool,
    (system twoLanes).Reaches (Delivering twoLanes) (initial 30) p ∧
    ((rows p.shared).filter fun row => row.status = .pending).length = 2 ∧
    (system twoLanes).Reaches (Draining twoLanes) p q ∧
    ∀ row ∈ rows p.shared, row.status = .pending → IsPublished q.shared row := by
  have along : (system twoLanes).Along (Delivering twoLanes) (initial 30) refusedFirst := by
    decide +kernel
  obtain ⟨p, reached, found⟩ := System.exists_reaches_of_exec
    (f := fun p : DispatchPool => decide (p.Quiescent ∧ p.shared.run.waiting = [] ∧
      ((rows p.shared).filter fun row => row.status = .pending).length = 2)) along
    (by decide +kernel)
  obtain ⟨quiescent, allDone, two⟩ := of_decide_eq_true found
  obtain ⟨q, later, -, -, published⟩ := (outbox_drains reached).2
  exact ⟨p, q, reached, two, later, published ⟨quiescent, allDone⟩⟩

end OutboxDispatcher

end Pharos
