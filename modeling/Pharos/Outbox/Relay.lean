import Pharos.Outbox.Accounting

/-!
# The dispatcher between its neighbours

What the systems on either side of a single dispatcher rely on: rows come from inserts alone and
keep their messages, and every publish call is for the message of a stored row.  Between two runs
the calls that succeeded are the published rows, one for one (`accepted_perm_published`).
-/

namespace Pharos

namespace OutboxDispatcher

open Async

/-- The stored rows. -/
def rows (s : OutboxShared) : List OutboxMessage := s.repo.store.entries.map Sigma.snd

/-- The publish calls that succeeded. -/
def acceptedCalls (s : OutboxShared) : List PublishCall :=
  s.calls.filter fun call => decide (call.outcome = .ok ())

/-- The messages of the rows that are not published. -/
def undelivered (s : OutboxShared) : List Message :=
  ((rows s).filter fun row => !decide (row.status = .published)).map OutboxMessage.message

theorem mem_rows {s : OutboxShared} {row : OutboxMessage} :
    row ∈ rows s ↔ s.repo.get row.id = some row := by
  unfold rows
  rw [List.mem_map]
  constructor
  · rintro ⟨⟨id, row⟩, listed, rfl⟩
    have found : s.repo.get id = some row := AList.mem_lookup_iff.mpr listed
    have same := InMemoryOutboxRepository.id_of_get found
    rwa [← same] at found
  · intro found
    exact ⟨⟨row.id, row⟩, AList.mem_lookup_iff.mp found, rfl⟩

/-- No two rows share an id. -/
theorem nodup_ids (s : OutboxShared) : ((rows s).map OutboxMessage.id).Nodup := by
  have same : (rows s).map OutboxMessage.id = s.repo.store.entries.keys := by
    unfold rows List.keys
    rw [List.map_map]
    refine List.map_congr_left fun entry listed => ?_
    exact InMemoryOutboxRepository.id_of_get (AList.mem_lookup_iff.mpr listed)
  rw [same]
  exact s.repo.store.nodupKeys

theorem mem_acceptedCalls {s : OutboxShared} {call : PublishCall} :
    call ∈ acceptedCalls s ↔ call ∈ s.calls ∧ call.outcome = .ok () := by
  simp [acceptedCalls]

/-- The publish call an operation makes. -/
def callMade (choice : DispatchChoice) : DispatchOp → Option PublishCall
  | .publish record => some ⟨record, choice.published⟩
  | _ => none

theorem calls_of_arrive {s s' : OutboxShared} {arrival : OutboxArrival}
    {lanes : List DispatchLane} (arrived : arrive s arrival = some (s', lanes)) :
    s'.calls = s.calls := by
  cases arrival with
  | insert message =>
      cases arrived
      rfl
  | dispatch limit now order =>
      simp only [arrive] at arrived
      split at arrived
      · cases arrived
        exact List.append_nil _
      · cases arrived
  | nextLane =>
      simp only [arrive] at arrived
      split at arrived
      · cases arrived
      · cases arrived
        rfl

theorem calls_of_serve {config : DispatchConfig} {s s' : OutboxShared} {choice : DispatchChoice}
    {op : DispatchOp} {reply : op.Reply} (served : serve config s choice op = some (s', reply)) :
    s'.calls = s.calls ++ (callMade choice op).toList := by
  cases op with
  | publish record =>
      cases served
      exact (List.append_assoc _ _ _).symm
  | recordAttempt _ | markPublished _ | decideFor _ _ | markFailed _ _ | scheduleRetry _ _
  | yield _ _ =>
      cases served
      exact (List.append_nil _).symm

/-- Two lists with the same keys, each key once, are the same up to order in whatever is looked up
by the key. -/
theorem map_perm_of_keys {α β γ : Type} {l : List α} {l' : List β} {key : α → Uuid}
    {key' : β → Uuid} {f : α → γ} {f' : β → γ} (lookup : Uuid → Option γ)
    (nodup : (l.map key).Nodup) (nodup' : (l'.map key').Nodup)
    (same : ∀ k, k ∈ l.map key ↔ k ∈ l'.map key') (found : ∀ x ∈ l, lookup (key x) = some (f x))
    (found' : ∀ y ∈ l', lookup (key' y) = some (f' y)) : (l.map f).Perm (l'.map f') := by
  have keys := ((List.perm_ext_iff_of_nodup nodup nodup').mpr same).map lookup
  have left : (l.map key).map lookup = (l.map f).map some := by
    rw [List.map_map, List.map_map]
    exact List.map_congr_left found
  have right : (l'.map key').map lookup = (l'.map f').map some := by
    rw [List.map_map, List.map_map]
    exact List.map_congr_left found'
  rw [left, right] at keys
  exact (List.map_perm_map_iff (Option.some_injective γ)).mp keys

section Steps

variable {config : DispatchConfig} {p q : DispatchPool} {claimLease : ChronoDuration}
  {action : Action DispatchChoice OutboxArrival}

/-- The arrival of a row. -/
theorem step_insert (p : DispatchPool) (message : OutboxMessage) :
    (system config).step p (.arrive (.insert message)) =
      some { p with shared := { p.shared with repo := p.shared.repo.write message } } :=
  congrArg some (Pool.start_nil p body _)

/-- Apart from inserts, a step adds no row and changes no message. -/
theorem row_of_step (c : Consistent config p) (single : Single config p action)
    (stepped : (system config).step p action = some q)
    (noInsert : ∀ message, action ≠ .arrive (.insert message)) {id : Uuid} {row : OutboxMessage}
    (found : q.shared.repo.get id = some row) :
    ∃ old, p.shared.repo.get id = some old ∧ row.message = old.message := by
  rcases shared_cases c single stepped with ⟨message, inserts, -, -⟩ |
    ⟨limit, now, order, -, iterated, -, -, eq⟩ | ⟨lane, waiting, -, -, eq⟩ |
    ⟨i, choice, lane, op, reply, -, -, member, -, -, effect⟩
  · exact (noInsert message inserts).elim
  · rw [eq] at found
    have answered : (p.shared.repo.pending order now limit).2 =
        .ok (claimBatch p.shared limit now order).run.claimed := rfl
    by_cases listed : id ∈
        (claimBatch p.shared limit now order).run.claimed.map OutboxMessage.id
    · obtain ⟨m, claimed, rfl⟩ := List.mem_map.mp listed
      obtain ⟨source, found', -, eq'⟩ :=
        InMemoryOutboxRepository.mem_pending iterated answered claimed
      have stored := InMemoryOutboxRepository.pending_get_of_mem iterated answered claimed
      cases found.symm.trans stored
      refine ⟨source, found', ?_⟩
      rw [eq']
      rfl
    · exact ⟨row, (InMemoryOutboxRepository.pending_get_of_not_mem iterated answered
        listed).symm.trans found, rfl⟩
  · rw [eq] at found
    exact ⟨row, found, rfl⟩
  · by_cases inLane : ∃ m ∈ lane, m.id = id
    · obtain ⟨m, own, rfl⟩ := inLane
      obtain ⟨old, stored, -⟩ := c.book.stored m (mem_of_mem_lanes member own)
      obtain ⟨row', found', follows⟩ := effect.stored m.id old stored
      cases found.symm.trans found'
      exact ⟨old, stored, follows.1⟩
    · rw [effect.rows id fun m own same => inLane ⟨m, own, same⟩] at found
      exact ⟨row, found, rfl⟩

/-- The rows after the arrival of a new one. -/
theorem rows_write {s : OutboxShared} {message : OutboxMessage}
    (fresh : s.repo.get message.id = none) :
    rows { s with repo := s.repo.write message } = message :: rows s := by
  have absent : message.id ∉ s.repo.store.entries.keys := AList.lookup_eq_none.mp fresh
  have entries : (s.repo.write message).store.entries =
      ⟨message.id, message⟩ :: s.repo.store.entries := by
    refine AList.entries_insert.trans ?_
    rw [List.kerase_of_notMem_keys absent]
  unfold rows
  rw [entries]
  rfl

/-- Apart from inserts, a step keeps every row and its message. -/
theorem message_of_step
    (reached : (system config).Reaches (Single config) (initial claimLease) p)
    (single : Single config p action) (stepped : (system config).step p action = some q)
    (noInsert : ∀ message, action ≠ .arrive (.insert message)) (id : Uuid) :
    (q.shared.repo.get id).map OutboxMessage.message =
      (p.shared.repo.get id).map OutboxMessage.message := by
  cases stored : p.shared.repo.get id with
  | some row =>
      obtain ⟨row', found, follows⟩ :=
        stored_of_reaches reached (.single ⟨action, single, stepped⟩) stored
      rw [found]
      exact congrArg some follows.1
  | none =>
      cases found : q.shared.repo.get id with
      | none => rfl
      | some row =>
          obtain ⟨old, stored', -⟩ :=
            row_of_step (consistent_of_reaches reached) single stepped noInsert found
          rw [stored] at stored'
          cases stored'

/-- Apart from inserts, a step keeps the messages of the rows. -/
theorem rows_perm_of_step
    (reached : (system config).Reaches (Single config) (initial claimLease) p)
    (single : Single config p action) (stepped : (system config).step p action = some q)
    (noInsert : ∀ message, action ≠ .arrive (.insert message)) :
    ((rows q.shared).map OutboxMessage.message).Perm
      ((rows p.shared).map OutboxMessage.message) := by
  have same := message_of_step reached single stepped noInsert
  refine map_perm_of_keys (fun id => (p.shared.repo.get id).map OutboxMessage.message)
    (nodup_ids q.shared) (nodup_ids p.shared) (fun id => ?_) (fun row listed => ?_)
    (fun row listed => ?_)
  · have stored : ∀ s : OutboxShared, id ∈ (rows s).map OutboxMessage.id ↔
        ((s.repo.get id).map OutboxMessage.message).isSome = true := by
      intro s
      rw [Option.isSome_map, Option.isSome_iff_exists, List.mem_map]
      constructor
      · rintro ⟨row, listed, rfl⟩
        exact ⟨row, mem_rows.mp listed⟩
      · rintro ⟨row, found⟩
        have own := InMemoryOutboxRepository.id_of_get found
        exact ⟨row, mem_rows.mpr (own.symm ▸ found), own⟩
    rw [stored, stored, same]
  · rw [← same, mem_rows.mp listed]
    rfl
  · simp only [mem_rows.mp listed, Option.map_some]

/-- Every publish call is for the message of a stored row. -/
theorem called_message
    (reached : (system config).Reaches (Single config) (initial claimLease) p) :
    ∀ call ∈ p.shared.calls,
      ∃ row, p.shared.repo.get call.record.id = some row ∧ row.message = call.record.message := by
  refine reached.invariant (P := fun p : DispatchPool => ∀ call ∈ p.shared.calls,
    ∃ row, p.shared.repo.get call.record.id = some row ∧ row.message = call.record.message)
    (fun _ made => by cases made) ?_
  intro q r action before all side stepped call made
  have c := consistent_of_reaches before
  have kept : call ∈ q.shared.calls →
      ∃ row, r.shared.repo.get call.record.id = some row ∧ row.message = call.record.message := by
    intro old
    obtain ⟨row, found, same⟩ := all call old
    obtain ⟨row', found', follows⟩ :=
      stored_of_reaches before (.single ⟨action, side, stepped⟩) found
    exact ⟨row', found', follows.1.trans same⟩
  rcases shared_cases c side stepped with ⟨message, -, -, eq⟩ |
    ⟨limit, now, order, -, -, -, -, eq⟩ | ⟨lane, waiting, -, -, eq⟩ |
    ⟨i, choice, lane, op, reply, -, -, member, -, -, effect⟩
  · rw [eq] at made
    exact kept made
  · rw [eq] at made
    refine kept ?_
    rwa [show (claimBatch q.shared limit now order).calls = q.shared.calls from
      List.append_nil _] at made
  · rw [eq] at made
    exact kept made
  · obtain ⟨added, grown, own⟩ := effect.calls
    rw [OutboxShared.calls, effect.earlier, grown, ← List.append_assoc] at made
    rcases List.mem_append.mp made with old | new
    · exact kept old
    · obtain ⟨row, found, follows⟩ :=
        c.book.stored _ (mem_of_mem_lanes member (own call new))
      obtain ⟨row', found', follows'⟩ := effect.stored _ row found
      exact ⟨row', found', follows'.1.trans follows.1⟩

/-- Without poison a message fails only when its whole budget was refused. -/
theorem Account.spent {policy : RetryPolicy} {outcomes : List (Except MessagingError Unit)}
    (account : Account policy .failed outcomes) (harmless : ∀ outcome ∈ outcomes, ¬ IsPoison outcome) :
    outcomes.length = policy.budget ∧ .ok () ∉ outcomes := by
  have le := account.length_le
  cases account with
  | @failed failures error isOpen stops =>
      constructor
      · rcases stops with poison | spent
        · exact (harmless _ (List.mem_append_right _ List.mem_cons_self) poison).elim
        · rw [List.length_append, List.length_singleton] at le ⊢
          have budget : policy.budget = max 1 policy.maxAttempts := rfl
          omega
      · simp [isOpen.not_ok]

variable (reached : (system config).Reaches (Delivering config) (initial claimLease) p)

include reached

/-- No message is accepted twice. -/
theorem nodup_accepted : ((acceptedCalls p.shared).map (·.record.id)).Nodup := by
  have ledger := ledger_of_reaches reached
  have c := consistent_of_reaches (single_of_delivering reached)
  -- of two accepted calls for one id the earlier would not be the last outcome of the id
  rw [List.nodup_iff_pairwise_ne, List.pairwise_map, acceptedCalls, List.pairwise_filter]
  rw [List.pairwise_iff_forall_sublist]
  intro first second twice ok ok' same
  obtain ⟨status, account⟩ := ledger.account c second.record.id
  have both := (twice.filter fun call => decide (call.record.id = second.record.id)).map
    PublishCall.outcome
  have outcomes : List.Sublist [.ok (), .ok ()] (outcomesOf p.shared second.record.id) := by
    have pair : ([first, second].filter fun call =>
        decide (call.record.id = second.record.id)).map PublishCall.outcome =
        [.ok (), .ok ()] := by
      simp [same, of_decide_eq_true ok, of_decide_eq_true ok']
    rw [← pair]
    exact both
  obtain ⟨front, back, split, first', last'⟩ := List.cons_sublist_iff.mp outcomes
  obtain ⟨before, after, inFront⟩ := List.append_of_mem first'
  have nothing := account.ok_last (split.trans (by rw [inFront, List.append_assoc, List.cons_append]))
  rw [List.append_eq_nil_iff] at nothing
  rw [nothing.2] at last'
  cases last'

/-- At rest the accepted calls are the published rows, one for one. -/
theorem accepted_perm_published (quiescent : p.Quiescent) (allDone : p.shared.run.waiting = []) :
    ((acceptedCalls p.shared).map (·.record.message)).Perm
      (((rows p.shared).filter fun row => decide (row.status = .published)).map
        OutboxMessage.message) := by
  have ledger := ledger_of_reaches reached
  have single := single_of_delivering reached
  have c := consistent_of_reaches single
  have settled : ∀ {id row}, p.shared.repo.get id = some row →
      (row.status = .published ↔ .ok () ∈ outcomesOf p.shared id) := by
    intro id row found
    have accounted := ledger.accounted c quiescent allDone found
    rw [accounted.2.published_iff]
    refine ⟨fun last => List.mem_of_getLast? last, fun ok => ?_⟩
    obtain ⟨before, after, split⟩ := List.append_of_mem ok
    rw [split, accounted.2.ok_last split]
    exact List.getLast?_concat
  refine map_perm_of_keys (fun id => (p.shared.repo.get id).map OutboxMessage.message)
    (nodup_accepted reached) ((nodup_ids p.shared).sublist (List.filter_sublist.map _))
    (fun id => ?_) (fun call listed => ?_) (fun row listed => ?_)
  · simp only [List.mem_map, mem_acceptedCalls, List.mem_filter, mem_rows, decide_eq_true_eq]
    constructor
    · rintro ⟨call, ⟨made, ok⟩, rfl⟩
      obtain ⟨row, found, -⟩ := called_message single call made
      have same := InMemoryOutboxRepository.id_of_get found
      refine ⟨row, ⟨same.symm ▸ found, (settled found).mpr ?_⟩, same⟩
      exact List.mem_map.mpr ⟨call, List.mem_filter.mpr ⟨made, decide_eq_true rfl⟩, ok⟩
    · rintro ⟨row, ⟨found, published⟩, rfl⟩
      obtain ⟨call, listed, ok⟩ := List.mem_map.mp ((settled found).mp published)
      obtain ⟨made, same⟩ := List.mem_filter.mp listed
      exact ⟨call, ⟨made, ok⟩, of_decide_eq_true same⟩
  · obtain ⟨row, found, same⟩ := called_message single call (mem_acceptedCalls.mp listed).1
    simp only [found, Option.map_some, same]
  · simp only [mem_rows.mp (List.mem_filter.mp listed).1, Option.map_some]

/-- At rest what was accepted and what is not published are the rows. -/
theorem accepted_append_undelivered (quiescent : p.Quiescent)
    (allDone : p.shared.run.waiting = []) :
    ((acceptedCalls p.shared).map (·.record.message) ++ undelivered p.shared).Perm
      ((rows p.shared).map OutboxMessage.message) := by
  refine ((accepted_perm_published reached quiescent allDone).append_right _).trans ?_
  rw [undelivered, ← List.map_append]
  exact (List.filter_append_perm _ _).map _

/-- At rest a failed row spent its budget, unless one of its errors was a poison. -/
theorem failed_spent (quiescent : p.Quiescent) (allDone : p.shared.run.waiting = [])
    {row : OutboxMessage} (listed : row ∈ rows p.shared) (failed : row.status = .failed)
    (harmless : ∀ outcome ∈ outcomesOf p.shared row.id, ¬ IsPoison outcome) :
    (outcomesOf p.shared row.id).length = config.retry.budget ∧
      .ok () ∉ outcomesOf p.shared row.id := by
  have accounted := (ledger_of_reaches reached).accounted
    (consistent_of_reaches (single_of_delivering reached)) quiescent allDone (mem_rows.mp listed)
  exact Account.spent (failed ▸ accounted.2) harmless

/-- At rest a failed row met a poison error or spent its budget. -/
theorem givenUp_of_failed (quiescent : p.Quiescent) (allDone : p.shared.run.waiting = [])
    {row : OutboxMessage} (listed : row ∈ rows p.shared) (failed : row.status = .failed) :
    (∃ outcome ∈ outcomesOf p.shared row.id, IsPoison outcome) ∨
      (outcomesOf p.shared row.id).length = config.retry.budget ∧
        .ok () ∉ outcomesOf p.shared row.id := by
  by_cases poisoned : ∃ outcome ∈ outcomesOf p.shared row.id, IsPoison outcome
  · exact .inl poisoned
  · apply Or.inr
    apply failed_spent reached quiescent allDone listed failed
    intro outcome member poison
    exact poisoned ⟨outcome, member, poison⟩

end Steps

end OutboxDispatcher

end Pharos
