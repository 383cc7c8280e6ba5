import Pharos.Outbox.Run

/-!
# Accounting of deliveries

`Account` is the life of one message in terms of the outcomes of its publish calls: it
is pending as long as they were transient failures within the retry budget, published
after one success, and failed after a poison error or when the budget is used up.

`Ledger` says that the rows agree with it: for a message the run in progress has claimed,
the claimed row accounts for the calls of earlier runs, and where its lane is says the
rest; for every other row the stored row accounts for all calls.
-/

namespace Pharos

namespace OutboxDispatcher

open Async

/-! ## The life of one message -/

/-- Transient failures only, and the policy has granted another attempt. -/
def Open (policy : RetryPolicy) (outcomes : List (Except MessagingError Unit)) : Prop :=
  (∀ outcome ∈ outcomes, ∃ error, outcome = .error error ∧ error.failureKind = .transient) ∧
    (outcomes = [] ∨ outcomes.length < policy.maxAttempts)

/-- The status a message has after its publish calls had these outcomes. -/
inductive Account (policy : RetryPolicy) :
    OutboxStatus → List (Except MessagingError Unit) → Prop
  | pending {outcomes : List (Except MessagingError Unit)} :
      Open policy outcomes → Account policy .pending outcomes
  | published {failures : List (Except MessagingError Unit)} :
      Open policy failures → Account policy .published (failures ++ [Except.ok ()])
  | failed {failures : List (Except MessagingError Unit)} {error : MessagingError} :
      Open policy failures →
      (error.failureKind = .poison ∨ policy.maxAttempts ≤ failures.length + 1) →
      Account policy .failed (failures ++ [Except.error error])

/-- The outcome is a failure. -/
def IsFailure : Except MessagingError Unit → Bool
  | .ok _ => false
  | .error _ => true

/-- The outcome is a poison error. -/
def IsPoison : Except MessagingError Unit → Prop
  | .ok _ => False
  | .error error => error.failureKind = .poison

section Account

variable {policy : RetryPolicy} {status : OutboxStatus}
  {outcomes : List (Except MessagingError Unit)}

theorem Open.length_lt (isOpen : Open policy outcomes) : outcomes.length < policy.budget := by
  unfold RetryPolicy.budget
  rcases isOpen.2 with rfl | lt
  · rw [List.length_nil]
    omega
  · omega

theorem Open.not_poison (isOpen : Open policy outcomes) {outcome : Except MessagingError Unit}
    (member : outcome ∈ outcomes) : ¬ IsPoison outcome := by
  obtain ⟨error, rfl, transient⟩ := isOpen.1 outcome member
  intro poison
  cases transient.symm.trans poison

theorem Open.not_ok (isOpen : Open policy outcomes) : .ok () ∉ outcomes := by
  intro member
  obtain ⟨error, eq, -⟩ := isOpen.1 _ member
  cases eq

theorem Open.countP_eq (isOpen : Open policy outcomes) :
    outcomes.countP IsFailure = outcomes.length := by
  refine List.countP_eq_length.mpr fun outcome member => ?_
  obtain ⟨error, rfl, -⟩ := isOpen.1 outcome member
  rfl

theorem Account.status_cases (account : Account policy status outcomes) :
    status = .pending ∨ status = .published ∨ status = .failed := by
  cases account with
  | pending => exact .inl rfl
  | published => exact .inr (.inl rfl)
  | failed => exact .inr (.inr rfl)

/-- No message is published more often than the policy allows. -/
theorem Account.length_le (account : Account policy status outcomes) :
    outcomes.length ≤ policy.budget := by
  cases account with
  | pending isOpen => exact isOpen.length_lt.le
  | published isOpen | failed isOpen _ =>
      rw [List.length_append, List.length_singleton]
      exact isOpen.length_lt

theorem Account.published_iff (account : Account policy status outcomes) :
    status = .published ↔ outcomes.getLast? = some (.ok ()) := by
  cases account with
  | pending isOpen =>
      refine ⟨fun h => (by cases h), fun last => ?_⟩
      exact (isOpen.not_ok (List.mem_of_getLast? last)).elim
  | published isOpen => simp
  | failed isOpen _ => simp

theorem Account.failed_iff (account : Account policy status outcomes) :
    status = .failed ↔ (∃ outcome ∈ outcomes, IsPoison outcome) ∨
      policy.budget ≤ outcomes.countP IsFailure := by
  cases account with
  | pending isOpen =>
      refine ⟨fun h => (by cases h), ?_⟩
      rintro (⟨outcome, member, poison⟩ | spent)
      · exact (isOpen.not_poison member poison).elim
      · rw [isOpen.countP_eq] at spent
        exact absurd isOpen.length_lt (not_lt.mpr spent)
  | @published failures isOpen =>
      refine ⟨fun h => (by cases h), ?_⟩
      rintro (⟨outcome, member, poison⟩ | spent)
      · rcases List.mem_append.mp member with earlier | last
        · exact (isOpen.not_poison earlier poison).elim
        · rw [List.mem_singleton] at last
          rw [last] at poison
          exact poison.elim
      · rw [List.countP_append, isOpen.countP_eq] at spent
        exact absurd isOpen.length_lt (not_lt.mpr spent)
  | @failed failures error isOpen stops =>
      refine ⟨fun _ => ?_, fun _ => rfl⟩
      rcases stops with poison | spent
      · exact .inl ⟨.error error, List.mem_append_right _ List.mem_cons_self, poison⟩
      · refine .inr ?_
        rw [List.countP_append, isOpen.countP_eq]
        exact max_le (Nat.le_add_left _ _) spent

/-- Nothing follows a success. -/
theorem Account.ok_last (account : Account policy status outcomes)
    {before after : List (Except MessagingError Unit)}
    (split : outcomes = before ++ .ok () :: after) : after = [] := by
  have single : ∀ (failures : List (Except MessagingError Unit)) last, Open policy failures →
      failures ++ [last] = before ++ .ok () :: after → after = [] := by
    intro failures last isOpen eq
    rcases List.eq_nil_or_concat after with rfl | ⟨front, final, rfl⟩
    · rfl
    · rw [List.concat_eq_append, ← List.cons_append, ← List.append_assoc] at eq
      obtain ⟨same, -⟩ := List.append_inj' eq rfl
      refine (isOpen.not_ok ?_).elim
      rw [same]
      exact List.mem_append_right _ List.mem_cons_self
  cases account with
  | pending isOpen =>
      refine (isOpen.not_ok ?_).elim
      rw [split]
      exact List.mem_append_right _ List.mem_cons_self
  | published isOpen | failed isOpen _ => exact single _ _ isOpen split

end Account

/-! ## The calls of one message -/

/-- Every publish call ever made for `id`. -/
def callsOf (s : OutboxShared) (id : Uuid) : List PublishCall :=
  s.calls.filter fun call => call.record.id = id

/-- The outcomes of all publish calls for `id`. -/
def outcomesOf (s : OutboxShared) (id : Uuid) : List (Except MessagingError Unit) :=
  (callsOf s id).map PublishCall.outcome

/-- The publish calls of earlier runs for `id`. -/
def earlierOf (s : OutboxShared) (id : Uuid) : List (Except MessagingError Unit) :=
  (s.earlier.filter fun call => call.record.id = id).map PublishCall.outcome

/-- The publish calls of the run in progress for `id`. -/
def runCallsOf (s : OutboxShared) (id : Uuid) : List PublishCall :=
  s.run.calls.filter fun call => call.record.id = id

theorem outcomesOf_eq (s : OutboxShared) (id : Uuid) :
    outcomesOf s id = earlierOf s id ++ (runCallsOf s id).map PublishCall.outcome := by
  unfold outcomesOf callsOf OutboxShared.calls
  rw [List.filter_append, List.map_append]
  rfl

theorem filter_id_eq {l : List OutboxMessage} {m : OutboxMessage}
    (nodup : (l.map OutboxMessage.id).Nodup) (member : m ∈ l) :
    l.filter (fun x => decide (x.id = m.id)) = [m] := by
  induction l with
  | nil => cases member
  | cons head l ih =>
      rw [List.map_cons, List.nodup_cons] at nodup
      rcases List.mem_cons.mp member with rfl | later
      · rw [List.filter_cons_of_pos (by simp), List.filter_eq_nil_iff.mpr]
        intro x inTail same
        exact nodup.1 (of_decide_eq_true same ▸ List.mem_map_of_mem inTail)
      · rw [List.filter_cons_of_neg, ih nodup.2 later]
        intro same
        exact nodup.1 (of_decide_eq_true same ▸ List.mem_map_of_mem later)

theorem filter_id_eq_nil {l : List OutboxMessage} {id : Uuid}
    (absent : id ∉ l.map OutboxMessage.id) : l.filter (fun x => decide (x.id = id)) = [] :=
  List.filter_eq_nil_iff.mpr fun _ member same =>
    absent (of_decide_eq_true same ▸ List.mem_map_of_mem member)

section Calls

variable {config : DispatchConfig} {s : OutboxShared} {lane done rest : List OutboxMessage}
  {m : OutboxMessage} {stage : Stage}

/-- The run's calls for a message of a lane are those its lane made. -/
theorem LaneAt.runCallsOf_eq (at_ : LaneAt config s lane done rest stage) (inLane : m ∈ lane) :
    runCallsOf s m.id = (done.filter fun x => decide (x.id = m.id)).map (⟨·, .ok ()⟩) ++
      (rest.head?.elim [] stage.calls).filter fun call => decide (call.record.id = m.id) := by
  have own : runCallsOf s m.id =
      (laneCalls s lane).filter fun call => decide (call.record.id = m.id) := by
    unfold runCallsOf laneCalls
    rw [List.filter_filter]
    refine List.filter_congr fun call _ => ?_
    by_cases same : call.record.id = m.id
    · simpa [same] using ⟨m, inLane, rfl⟩
    · simp [same]
  rw [own, at_.calls, List.filter_append, List.filter_map]
  rfl

theorem stage_calls_filter_of_ne {x : OutboxMessage} (distinct : x.id ≠ m.id) :
    (stage.calls x).filter (fun call => decide (call.record.id = m.id)) = [] := by
  cases stage <;> simp [Stage.calls, distinct]

theorem stage_calls_filter_self :
    (stage.calls m).filter (fun call => decide (call.record.id = m.id)) = stage.calls m := by
  cases stage <;> simp [Stage.calls]

/-- Where a message of a lane is, what it stores, and what was published of it. -/
theorem LaneAt.message (at_ : LaneAt config s lane done rest stage)
    (nodup : (lane.map OutboxMessage.id).Nodup) (inLane : m ∈ lane) :
    (Delivered s m ∧ runCallsOf s m.id = [⟨m, .ok ()⟩]) ∨
    (m ∈ rest.head? ∧ RowAt config s m stage ∧ runCallsOf s m.id = stage.calls m) ∨
    (s.repo.get m.id = some m ∧ runCallsOf s m.id = []) := by
  have calls := at_.runCallsOf_eq inLane
  rw [at_.split, List.map_append, List.nodup_append] at nodup
  obtain ⟨nodupDone, nodupRest, apart⟩ := nodup
  rw [at_.split, List.mem_append] at inLane
  have notDone : m ∈ rest → m.id ∉ done.map OutboxMessage.id := fun inRest listed =>
    apart m.id listed m.id (List.mem_map_of_mem inRest) rfl
  rcases inLane with inDone | inRest
  · refine .inl ⟨at_.delivered m inDone, ?_⟩
    rw [calls, filter_id_eq nodupDone inDone]
    cases rest with
    | nil => rfl
    | cons head behind =>
        have distinct : head.id ≠ m.id := fun same =>
          apart m.id (List.mem_map_of_mem inDone) head.id List.mem_cons_self same.symm
        simp only [List.head?_cons, Option.elim_some, stage_calls_filter_of_ne distinct]
        rfl
  · cases rest with
    | nil => cases inRest
    | cons head behind =>
        rw [filter_id_eq_nil (notDone inRest)] at calls
        simp only [List.head?_cons, Option.elim_some, List.map_nil, List.nil_append] at calls
        rcases List.mem_cons.mp inRest with rfl | later
        · refine .inr (.inl ⟨rfl, at_.head m rfl, ?_⟩)
          rw [calls, stage_calls_filter_self]
        · refine .inr (.inr ⟨at_.behind m later, ?_⟩)
          have distinct : head.id ≠ m.id := fun same =>
            (List.nodup_cons.mp nodupRest).1 (same ▸ List.mem_map_of_mem later)
          rw [calls, stage_calls_filter_of_ne distinct]

end Calls

/-! ## The ledger -/

/-- The row accounts for these outcomes. -/
def Accounted (policy : RetryPolicy) (row : OutboxMessage)
    (outcomes : List (Except MessagingError Unit)) : Prop :=
  row.attempts = outcomes.length ∧ Account policy row.status outcomes

/-- Rows agree with the publish calls. -/
structure Ledger (config : DispatchConfig) (s : OutboxShared) : Prop where
  claimed : ∀ m ∈ s.run.claimed, Accounted config.retry m (earlierOf s m.id)
  others : ∀ id row, id ∉ s.run.claimed.map OutboxMessage.id → s.repo.get id = some row →
    Accounted config.retry row (outcomesOf s id)
  called : ∀ call ∈ s.calls, ∃ row, s.repo.get call.record.id = some row

section Ledger

variable {config : DispatchConfig} {s : OutboxShared} {lane done rest : List OutboxMessage}
  {m row : OutboxMessage} {stage : Stage} {outcomes : List (Except MessagingError Unit)}

theorem Accounted.isOpen (accounted : Accounted config.retry row outcomes)
    (pending : row.status = .pending) : Open config.retry outcomes := by
  obtain ⟨-, account⟩ := accounted
  rw [pending] at account
  cases account with
  | pending isOpen => exact isOpen

theorem Accounted.published (accounted : Accounted config.retry m outcomes)
    (pending : m.status = .pending) {now now' : Time} :
    Accounted config.retry ((m.recordAttempt now).markPublished now') (outcomes ++ [.ok ()]) := by
  refine ⟨?_, .published (accounted.isOpen pending)⟩
  rw [List.length_append, List.length_singleton, ← accounted.1]
  rfl

theorem Accounted.failed (accounted : Accounted config.retry m outcomes)
    (pending : m.status = .pending) {now now' : Time} {error : MessagingError} {drawn : Duration}
    (decided : config.retry.decideFor (m.attempts + 1) error.failureKind drawn = .deadLetter) :
    Accounted config.retry ((m.recordAttempt now).markFailed now' error.toText)
      (outcomes ++ [.error error]) := by
  refine ⟨?_, .failed (accounted.isOpen pending) ?_⟩
  · rw [List.length_append, List.length_singleton, ← accounted.1]
    rfl
  · cases kind : error.failureKind with
    | poison => exact .inl rfl
    | transient =>
        rw [kind] at decided
        refine .inr ?_
        rw [← accounted.1]
        exact RetryPolicy.decide_eq_deadLetter.mp decided

theorem Accounted.postponed (accounted : Accounted config.retry m outcomes)
    (pending : m.status = .pending) {now next updated : Time} {error : MessagingError}
    {drawn delay : Duration}
    (decided : config.retry.decideFor (m.attempts + 1) error.failureKind drawn =
      .retryAfter delay) :
    Accounted config.retry { m.recordAttempt now with nextAttemptAt := next, updatedAt := updated }
      (outcomes ++ [.error error]) := by
  have isOpen := accounted.isOpen pending
  have transient : error.failureKind = .transient := by
    cases kind : error.failureKind with
    | transient => rfl
    | poison =>
        rw [kind] at decided
        cases decided
  rw [transient] at decided
  have within : m.attempts + 1 < config.retry.maxAttempts := by
    by_contra spent
    have dead : config.retry.decide (m.attempts + 1) drawn = .deadLetter :=
      RetryPolicy.decide_eq_deadLetter.mpr (not_lt.mp spent)
    cases dead.symm.trans decided
  refine ⟨?_, ?_⟩
  · rw [List.length_append, List.length_singleton, ← accounted.1]
    rfl
  · show Account config.retry m.status (outcomes ++ [.error error])
    rw [pending]
    refine .pending ⟨fun outcome member => ?_, .inr ?_⟩
    · rcases List.mem_append.mp member with earlier | last
      · exact isOpen.1 outcome earlier
      · rw [List.mem_singleton] at last
        exact ⟨error, last, transient⟩
    · rw [List.length_append, List.length_singleton, ← accounted.1]
      exact within

/-- The outcomes after a run that claimed `m`, wherever its lane is: still a life of a message. -/
theorem Open.exists_account (isOpen : Open config.retry outcomes)
    (outcome : Except MessagingError Unit) :
    ∃ status, Account config.retry status (outcomes ++ [outcome]) := by
  cases outcome with
  | ok _ => exact ⟨_, .published isOpen⟩
  | error error =>
      by_cases stops : error.failureKind = .poison ∨
          config.retry.maxAttempts ≤ outcomes.length + 1
      · exact ⟨_, .failed isOpen stops⟩
      · rw [not_or, not_le] at stops
        refine ⟨_, .pending ⟨fun o member => ?_, .inr ?_⟩⟩
        · rcases List.mem_append.mp member with earlier | last
          · exact isOpen.1 o earlier
          · rw [List.mem_singleton] at last
            refine ⟨error, last, ?_⟩
            cases kind : error.failureKind with
            | transient => rfl
            | poison => exact (stops.1 kind).elim
        · rw [List.length_append, List.length_singleton]
          exact stops.2

variable {p : DispatchPool}

/-- The lane of a claimed message. -/
theorem exists_lane {batch : List OutboxMessage} (claimed : m ∈ batch) :
    ∃ lane ∈ lanes batch, m ∈ lane :=
  List.mem_flatten.mp ((lanes_perm batch).mem_iff.mpr claimed)

/-- Between runs, every row accounts for all publish calls of its message. -/
theorem Ledger.accounted (ledger : Ledger config p.shared) (c : Consistent config p)
    (quiescent : p.Quiescent) (allDone : p.shared.run.waiting = []) {id : Uuid}
    (stored : p.shared.repo.get id = some row) :
    Accounted config.retry row (outcomesOf p.shared id) := by
  by_cases listed : id ∈ p.shared.run.claimed.map OutboxMessage.id
  · obtain ⟨m, claimed, rfl⟩ := List.mem_map.mp listed
    obtain ⟨lane, member, inLane⟩ := exists_lane claimed
    obtain ⟨n, done, rest, stage, at_, -, stopped⟩ := c.allEnded quiescent allDone member
    have before := ledger.claimed m claimed
    have pending := c.book.pending m claimed
    rw [outcomesOf_eq]
    rcases at_.message ((lanes_apart c.book.nodup).1 lane member) inLane with
      ⟨⟨now, now', found⟩, calls⟩ | ⟨isHead, found, calls⟩ | ⟨found, calls⟩
    · rw [stored] at found
      cases found
      rw [calls]
      exact before.published pending
    · rw [calls]
      rcases stopped with rfl | ⟨error, rfl | rfl⟩
      · cases isHead
      · obtain ⟨⟨drawn, delay, decided⟩, now, next, updated, found⟩ := found
        rw [stored] at found
        cases found
        exact before.postponed pending decided
      · obtain ⟨⟨drawn, decided⟩, now, now', found⟩ := found
        rw [stored] at found
        cases found
        exact before.failed pending decided
    · rw [stored] at found
      cases found
      rw [calls, List.map_nil, List.append_nil]
      exact before
  · exact ledger.others id row listed stored

/-- At any time, the publish calls of a message are those of a life of a message. -/
theorem Ledger.account (ledger : Ledger config p.shared) (c : Consistent config p) (id : Uuid) :
    ∃ status, Account config.retry status (outcomesOf p.shared id) := by
  by_cases listed : id ∈ p.shared.run.claimed.map OutboxMessage.id
  · obtain ⟨m, claimed, rfl⟩ := List.mem_map.mp listed
    obtain ⟨lane, member, inLane⟩ := exists_lane claimed
    obtain ⟨done, rest, stage, at_⟩ := c.laneAt member
    have isOpen := (ledger.claimed m claimed).isOpen (c.book.pending m claimed)
    rw [outcomesOf_eq]
    rcases at_.message ((lanes_apart c.book.nodup).1 lane member) inLane with
      ⟨-, calls⟩ | ⟨-, -, calls⟩ | ⟨-, calls⟩
    · rw [calls]
      exact isOpen.exists_account (.ok ())
    · rw [calls]
      cases stage with
      | untouched | recorded => exact ⟨_, .pending (by simpa [Stage.calls] using isOpen)⟩
      | accepted => exact isOpen.exists_account (.ok ())
      | refused error | postponed error | failed error =>
          exact isOpen.exists_account (.error error)
    · rw [calls, List.map_nil, List.append_nil]
      exact ⟨_, .pending isOpen⟩
  · cases stored : p.shared.repo.get id with
    | some row => exact ⟨_, (ledger.others id row listed stored).2⟩
    | none =>
        have none : outcomesOf p.shared id = [] := by
          unfold outcomesOf callsOf
          rw [List.map_eq_nil_iff, List.filter_eq_nil_iff]
          intro call member same
          obtain ⟨row, found⟩ := ledger.called call member
          rw [of_decide_eq_true same, stored] at found
          cases found
        rw [none]
        exact ⟨_, .pending ⟨fun _ member => (by cases member), .inl rfl⟩⟩

end Ledger

/-! ## Whole runs -/

/-- An inserted record is as `OutboxMessage::new` makes it: pending, without attempts. -/
def InsertsNew : Action DispatchChoice OutboxArrival → Prop
  | .arrive (.insert record) => record.status = .pending ∧ record.attempts = 0
  | _ => True

instance : DecidablePred InsertsNew
  | .arrive (.insert record) =>
      inferInstanceAs (Decidable (record.status = .pending ∧ record.attempts = 0))
  | .arrive (.dispatch _ _ _) | .arrive .nextLane | .step _ _ => .isTrue trivial

/-- A single dispatcher over a repository into which new messages are inserted. -/
def Delivering (config : DispatchConfig) (p : DispatchPool)
    (action : Action DispatchChoice OutboxArrival) : Prop :=
  Single config p action ∧ InsertsNew action

instance (config : DispatchConfig) (p : DispatchPool)
    (action : Action DispatchChoice OutboxArrival) : Decidable (Delivering config p action) :=
  inferInstanceAs (Decidable (Single config p action ∧ InsertsNew action))

section Runs

variable {config : DispatchConfig} {p q : DispatchPool} {claimLease : ChronoDuration}

theorem Ledger.insert {s : OutboxShared} (ledger : Ledger config s) {record : OutboxMessage}
    (fresh : s.repo.get record.id = none) (pending : record.status = .pending)
    (untried : record.attempts = 0) :
    Ledger config { s with repo := s.repo.write record } := by
  have present : ∀ other row, s.repo.get other = some row →
      (s.repo.write record).get other = some row := by
    intro other row found
    refine (InMemoryOutboxRepository.get_write_of_ne fun same => ?_).trans found
    rw [same, fresh] at found
    cases found
  refine ⟨ledger.claimed, fun other row outside stored => ?_, fun call member => ?_⟩
  · rw [InMemoryOutboxRepository.get_write] at stored
    split at stored
    · next same =>
      cases stored
      subst same
      have none : outcomesOf s record.id = [] := by
        unfold outcomesOf callsOf
        rw [List.map_eq_nil_iff, List.filter_eq_nil_iff]
        intro call member same
        obtain ⟨row, found⟩ := ledger.called call member
        rw [of_decide_eq_true same, fresh] at found
        cases found
      show Accounted config.retry record (outcomesOf s record.id)
      rw [none]
      refine ⟨untried, ?_⟩
      rw [pending]
      exact .pending ⟨fun _ member => (by cases member), .inl rfl⟩
    · exact ledger.others other row outside stored
  · obtain ⟨row, found⟩ := ledger.called call member
    exact ⟨row, present _ row found⟩

/-- A new run starts from rows that account for all calls so far. -/
theorem Ledger.dispatch (ledger : Ledger config p.shared) (c : Consistent config p)
    {limit : ℕ} {now : Time} {order : List Uuid} (iterated : order.Perm p.shared.repo.store.keys)
    (quiescent : p.Quiescent) (allDone : p.shared.run.waiting = []) :
    Ledger config (claimBatch p.shared limit now order) := by
  have answered : (p.shared.repo.pending order now limit).2 =
      .ok (claimBatch p.shared limit now order).run.claimed := rfl
  have calls : (claimBatch p.shared limit now order).calls = p.shared.calls :=
    List.append_nil _
  refine ⟨fun m member => ?_, fun id row outside stored => ?_, fun call member => ?_⟩
  · obtain ⟨row, found, -, eq⟩ := InMemoryOutboxRepository.mem_pending iterated answered member
    have accounted := ledger.accounted c quiescent allDone found
    rw [eq]
    rw [eq] at accounted
    exact accounted
  · rw [show outcomesOf (claimBatch p.shared limit now order) id = outcomesOf p.shared id by
      unfold outcomesOf callsOf; rw [calls]]
    refine ledger.accounted c quiescent allDone ?_
    rw [← stored]
    exact (InMemoryOutboxRepository.pending_get_of_not_mem iterated answered outside).symm
  · rw [calls] at member
    obtain ⟨row, found⟩ := ledger.called call member
    by_cases listed : call.record.id ∈
        (claimBatch p.shared limit now order).run.claimed.map OutboxMessage.id
    · obtain ⟨m, claimed, same⟩ := List.mem_map.mp listed
      rw [← same]
      exact ⟨m, InMemoryOutboxRepository.pending_get_of_mem iterated answered claimed⟩
    · exact ⟨row, (InMemoryOutboxRepository.pending_get_of_not_mem iterated answered
        listed).trans found⟩

/-- An operation of a lane concerns claimed messages only. -/
theorem Ledger.step {s s' : OutboxShared} (ledger : Ledger config s) {lane : List OutboxMessage}
    {event : DispatchEvent} (member : lane ∈ lanes s.run.claimed)
    (stored : ∀ m ∈ s.run.claimed, ∃ row, s.repo.get m.id = some row ∧ row.Follows m)
    (effect : Effect lane s s' event) : Ledger config s' := by
  obtain ⟨added, grown, own⟩ := effect.calls
  have calls : s'.calls = s.calls ++ added := by
    unfold OutboxShared.calls
    rw [effect.earlier, grown, List.append_assoc]
  have inBatch : ∀ m ∈ lane, m.id ∈ s.run.claimed.map OutboxMessage.id := fun m inLane =>
    List.mem_map_of_mem (mem_of_mem_lanes member inLane)
  refine ⟨fun m claimed => ?_, fun id row outside found => ?_, fun call made => ?_⟩
  · rw [effect.claimed] at claimed
    unfold earlierOf
    rw [effect.earlier]
    exact ledger.claimed m claimed
  · rw [effect.claimed] at outside
    rw [effect.rows id fun m inLane same => outside (same ▸ inBatch m inLane)] at found
    have foreign : added.filter (fun call => decide (call.record.id = id)) = [] := by
      refine List.filter_eq_nil_iff.mpr fun call made same => outside ?_
      exact of_decide_eq_true same ▸ inBatch _ (own call made)
    have outcomes : outcomesOf s' id = outcomesOf s id := by
      unfold outcomesOf callsOf
      rw [calls, List.filter_append, foreign, List.append_nil]
    rw [outcomes]
    exact ledger.others id row outside found
  · rw [calls] at made
    have before : ∃ row, s.repo.get call.record.id = some row := by
      rcases List.mem_append.mp made with old | new
      · exact ledger.called call old
      · obtain ⟨row, found, -⟩ := stored _ (mem_of_mem_lanes member (own call new))
        exact ⟨row, found⟩
    obtain ⟨row, found⟩ := before
    obtain ⟨row', found', -⟩ := effect.stored _ row found
    exact ⟨row', found'⟩

theorem single_of_delivering
    (reached : (system config).Reaches (Delivering config) (initial claimLease) p) :
    (system config).Reaches (Single config) (initial claimLease) p :=
  reached.mono fun _ _ side => side.1

/-- The ledger is right in every state a delivering dispatcher reaches. -/
theorem ledger_of_reaches
    (reached : (system config).Reaches (Delivering config) (initial claimLease) p) :
    Ledger config p.shared := by
  refine reached.invariant (P := fun p : DispatchPool => Ledger config p.shared) ?_ ?_
  · exact ⟨fun _ member => (by cases member), fun _ _ _ found => (by cases found),
      fun _ member => by cases member⟩
  · intro q r action before ledger side stepped
    have c := consistent_of_reaches (single_of_delivering before)
    rcases shared_cases c side.1 stepped with ⟨record, rfl, fresh, eq⟩ |
      ⟨limit, now, order, -, iterated, quiescent, allDone, eq⟩ | ⟨first, waiting, -, -, eq⟩ |
      ⟨i, choice, lane, op, reply, -, -, member, -, -, effect⟩
    · rw [eq]
      exact ledger.insert fresh side.2.1 side.2.2
    · rw [eq]
      exact ledger.dispatch c iterated quiescent allDone
    · rw [eq]
      exact ⟨ledger.claimed, ledger.others, ledger.called⟩
    · exact ledger.step member c.book.stored effect

/-- No message is lost: its row stays, with the message it was inserted with. -/
theorem stored_of_reaches
    (reached : (system config).Reaches (Single config) (initial claimLease) p)
    (later : (system config).Reaches (Single config) p q) {id : Uuid} {row : OutboxMessage}
    (stored : p.shared.repo.get id = some row) :
    ∃ row', q.shared.repo.get id = some row' ∧ row'.Follows row := by
  refine later.invariant (P := fun q : DispatchPool =>
    ∃ row', q.shared.repo.get id = some row' ∧ row'.Follows row) ⟨row, stored, rfl, rfl⟩ ?_
  intro q r action before kept side stepped
  obtain ⟨row', found, follows⟩ := kept
  have c := consistent_of_reaches (reached.trans before)
  rcases shared_cases c side stepped with ⟨record, rfl, fresh, eq⟩ |
    ⟨limit, now, order, -, iterated, -, -, eq⟩ | ⟨first, waiting, -, -, eq⟩ |
    ⟨i, choice, lane, op, reply, -, -, -, -, -, effect⟩
  · rw [eq]
    refine ⟨row', (InMemoryOutboxRepository.get_write_of_ne fun same => ?_).trans found, follows⟩
    rw [same, fresh] at found
    cases found
  · rw [eq]
    have answered : (q.shared.repo.pending order now limit).2 =
        .ok (claimBatch q.shared limit now order).run.claimed := rfl
    by_cases listed : id ∈
        (claimBatch q.shared limit now order).run.claimed.map OutboxMessage.id
    · obtain ⟨m, claimed, rfl⟩ := List.mem_map.mp listed
      obtain ⟨source, found', -, eq'⟩ :=
        InMemoryOutboxRepository.mem_pending iterated answered claimed
      rw [found] at found'
      cases found'
      refine ⟨m, InMemoryOutboxRepository.pending_get_of_mem iterated answered claimed, ?_⟩
      rw [eq']
      exact follows
    · exact ⟨row', (InMemoryOutboxRepository.pending_get_of_not_mem iterated answered
        listed).trans found, follows⟩
  · rw [eq]
    exact ⟨row', found, follows⟩
  · obtain ⟨row'', found', follows'⟩ := effect.stored id row' found
    exact ⟨row'', found', follows'.trans follows⟩

/-- Publish calls are never taken back. -/
theorem calls_prefix (reached : (system config).Reaches (Single config) (initial claimLease) p)
    (later : (system config).Reaches (Single config) p q) : p.shared.calls <+: q.shared.calls := by
  refine later.invariant (P := fun q : DispatchPool => p.shared.calls <+: q.shared.calls)
    (List.prefix_refl _) ?_
  intro q r action before grown side stepped
  have c := consistent_of_reaches (reached.trans before)
  rcases shared_cases c side stepped with ⟨record, rfl, fresh, eq⟩ |
    ⟨limit, now, order, -, iterated, -, -, eq⟩ | ⟨first, waiting, -, -, eq⟩ |
    ⟨i, choice, lane, op, reply, -, -, -, -, -, effect⟩
  · rw [eq]
    exact grown
  · have same : (claimBatch q.shared limit now order).calls = q.shared.calls := List.append_nil _
    rw [eq, same]
    exact grown
  · rw [eq]
    exact grown
  · obtain ⟨added, calls, -⟩ := effect.calls
    refine grown.trans ⟨added, ?_⟩
    unfold OutboxShared.calls
    rw [effect.earlier, calls, List.append_assoc]

/-- A row is marked as published only after a publish call for it succeeded. -/
theorem Ledger.last_ok {row : OutboxMessage} (ledger : Ledger config p.shared)
    (c : Consistent config p) {id : Uuid} (stored : p.shared.repo.get id = some row)
    (published : row.status = .published) :
    (outcomesOf p.shared id).getLast? = some (.ok ()) := by
  by_cases listed : id ∈ p.shared.run.claimed.map OutboxMessage.id
  · obtain ⟨m, claimed, rfl⟩ := List.mem_map.mp listed
    obtain ⟨lane, member, inLane⟩ := exists_lane claimed
    obtain ⟨done, rest, stage, at_⟩ := c.laneAt member
    have pending := c.book.pending m claimed
    rcases at_.message ((lanes_apart c.book.nodup).1 lane member) inLane with
      ⟨-, calls⟩ | ⟨-, found, -⟩ | ⟨found, -⟩
    · rw [outcomesOf_eq, calls]
      simp
    · exfalso
      have kept : row.status = m.status ∨ row.status = .failed := by
        cases stage with
        | untouched =>
            rw [show p.shared.repo.get m.id = some m from found] at stored
            cases stored
            exact .inl rfl
        | recorded | accepted | refused error =>
            obtain ⟨now, found⟩ := found
            rw [stored] at found
            cases found
            exact .inl rfl
        | postponed error =>
            obtain ⟨-, now, next, updated, found⟩ := found
            rw [stored] at found
            cases found
            exact .inl rfl
        | failed error =>
            obtain ⟨-, now, now', found⟩ := found
            rw [stored] at found
            cases found
            exact .inr rfl
      rw [pending, published] at kept
      rcases kept with h | h <;> cases h
    · rw [stored] at found
      cases found
      cases pending.symm.trans published
  · exact (ledger.others id row listed stored).2.published_iff.mp published

/-- The message is not in the middle of a run: no run has it, or the run is over. -/
def AtRest (p : DispatchPool) (id : Uuid) : Prop :=
  id ∉ p.shared.run.claimed.map OutboxMessage.id ∨ p.Quiescent ∧ p.shared.run.waiting = []

/-- Outbox delivery accounting.  For a single dispatcher, in every state it reaches: for no
message are there more publish calls than the retry budget, and none after one that succeeded;
every stored message that is not in the middle of a run has as many recorded attempts as
publish calls, is published iff its last publish call succeeded, is failed iff a call was
refused as poison or the failed calls reached the budget, and is pending otherwise; and in
every later state it is still stored, and if it was published then nothing more is published of
it. -/
theorem delivery_accounted
    (reached : (system config).Reaches (Delivering config) (initial claimLease) p) :
    (∀ id, (outcomesOf p.shared id).length ≤ max 1 config.retry.maxAttempts ∧
      ∀ before after, outcomesOf p.shared id = before ++ .ok () :: after → after = []) ∧
    (∀ id row, p.shared.repo.get id = some row → AtRest p id →
      row.attempts = (outcomesOf p.shared id).length ∧
      (row.status = .published ↔ (outcomesOf p.shared id).getLast? = some (.ok ())) ∧
      (row.status = .failed ↔ (∃ outcome ∈ outcomesOf p.shared id, IsPoison outcome) ∨
        max 1 config.retry.maxAttempts ≤ (outcomesOf p.shared id).countP IsFailure) ∧
      (row.status = .pending ∨ row.status = .published ∨ row.status = .failed)) ∧
    ∀ q, (system config).Reaches (Delivering config) p q → ∀ id row,
      p.shared.repo.get id = some row →
        (∃ row', q.shared.repo.get id = some row' ∧ row'.Follows row) ∧
        (row.status = .published → outcomesOf q.shared id = outcomesOf p.shared id) := by
  have single := single_of_delivering reached
  have c := consistent_of_reaches single
  have ledger := ledger_of_reaches reached
  refine ⟨fun id => ?_, fun id row stored rest => ?_, fun q later id row stored => ⟨?_, ?_⟩⟩
  · obtain ⟨status, account⟩ := ledger.account c id
    exact ⟨account.length_le, fun before after split => account.ok_last split⟩
  · have accounted : Accounted config.retry row (outcomesOf p.shared id) := by
      rcases rest with outside | ⟨quiescent, allDone⟩
      · exact ledger.others id row outside stored
      · exact ledger.accounted c quiescent allDone stored
    obtain ⟨attempts, account⟩ := accounted
    exact ⟨attempts, account.published_iff, account.failed_iff, account.status_cases⟩
  · exact stored_of_reaches single (later.mono fun _ _ side => side.1) stored
  · intro published
    -- the calls grow, but nothing can follow the success they ended with
    obtain ⟨more, grown⟩ := calls_prefix single (later.mono fun _ _ side => side.1)
    have outcomes : outcomesOf q.shared id = outcomesOf p.shared id ++
        (more.filter fun call => decide (call.record.id = id)).map PublishCall.outcome := by
      unfold outcomesOf callsOf
      rw [← grown, List.filter_append, List.map_append]
    obtain ⟨front, last⟩ := List.getLast?_eq_some_iff.mp (ledger.last_ok c stored published)
    have reachedQ := reached.trans later
    obtain ⟨status, account⟩ := (ledger_of_reaches reachedQ).account
      (consistent_of_reaches (single_of_delivering reachedQ)) id
    rw [outcomes, last, List.append_assoc] at account
    have none : (more.filter fun call => decide (call.record.id = id)).map
        PublishCall.outcome = [] := account.ok_last rfl
    rw [outcomes, none, List.append_nil]

end Runs

/-- Message 1 is refused once and published by the next run. -/
def refusedOnce : List (Action DispatchChoice OutboxArrival) :=
  [.arrive (.insert (keyed 1 0 none)), .arrive (.dispatch 10 0 [1]), .arrive .nextLane, .step 0 {},
    .step 0 { published := .error (.publish "down") }, .step 0 {}, .step 0 {}, .step 0 {},
    .arrive (.dispatch 10 1000000000 [1]), .arrive .nextLane, .step 1 {}, .step 1 {}, .step 1 {},
    .step 1 {}]

theorem delivery_accounted_refusedOnce : ∃ p : DispatchPool,
    (system twoLanes).Reaches (Delivering twoLanes) (initial 30) p ∧ ∃ row,
      p.shared.repo.get 1 = some row ∧ row.status = .published ∧
      row.attempts = (outcomesOf p.shared 1).length ∧ row.attempts = 2 := by
  have run : (((system twoLanes).exec (initial 30) refusedOnce).any fun p =>
      decide (p.Quiescent ∧ p.shared.run.waiting = []) && (p.shared.repo.get 1).any fun row =>
        decide (row.status = .published ∧ row.attempts = 2)) = true := by
    decide +kernel
  obtain ⟨p, reached, found⟩ := System.exists_reaches_of_exec
    (C := Delivering twoLanes) (by decide +kernel) run
  simp only [Bool.and_eq_true, Option.any_eq_true, decide_eq_true_eq] at found
  obtain ⟨rest, row, stored, published, twice⟩ := found
  have accounted := (delivery_accounted reached).2.1 1 row stored (.inr rest)
  exact ⟨p, reached, row, stored, published, accounted.1, twice⟩

end OutboxDispatcher

end Pharos
