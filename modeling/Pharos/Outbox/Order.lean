import Pharos.Outbox.Accounting

/-!
# Order of delivery across runs

Within a run a lane stops at its first failure.  Across runs nothing holds the later
messages of a key back: while an earlier one waits out its backoff, a later one that is
due is claimed and published.  `keyOrder_violated` is such a run.

The order is kept as long as no message overtakes in the claim: whenever a message is due,
every pending message of its key before it is due as well, and a message is not inserted
before one of its key that has left or is leaving (`keyOrder_of_reaches`).
-/

namespace Pharos

namespace OutboxDispatcher

open Async

/-- The records whose publish calls succeeded, in the order of the calls. -/
def acceptedOf (calls : List PublishCall) : List OutboxMessage :=
  calls.filterMap fun call =>
    match call.outcome with
    | .ok _ => some call.record
    | .error _ => none

/-- Everything ever published, in order. -/
def accepted (s : OutboxShared) : List OutboxMessage := acceptedOf s.calls

/-- The messages share a partition key. -/
def SameKey (a b : OutboxMessage) : Prop :=
  a.message.key = b.message.key ∧ a.message.key ≠ none

instance (a b : OutboxMessage) : Decidable (SameKey a b) :=
  inferInstanceAs (Decidable (a.message.key = b.message.key ∧ a.message.key ≠ none))

/-- The successful publishes of each key happen in the order of creation. -/
def InOrder (s : OutboxShared) : Prop :=
  ∀ key, (withKey key (accepted s)).Pairwise OutboxMessage.Before

/-- No message is published while an earlier one of its key is pending. -/
def NotOvertaken (s : OutboxShared) : Prop :=
  ∀ b ∈ accepted s, ∀ id row, s.repo.get id = some row → SameKey row b → row.Before b →
    row.status ≠ .pending ∨ ∃ a ∈ accepted s, a.id = id

/-- All lanes of the run have ended. -/
def Over (p : DispatchPool) : Prop := p.Quiescent ∧ p.shared.run.waiting = []

/-- Messages of its key that come after the new one are neither published nor in the middle of
a run. -/
def InsertsInOrder (p : DispatchPool) (record : OutboxMessage) : Prop :=
  ∀ id row, p.shared.repo.get id = some row → SameKey row record → record.Before row →
    row.status ≠ .published ∧ AtRest p id

/-- When a message is due, every pending message of its key before it is due. -/
def DueInOrder (p : DispatchPool) (now : Time) : Prop :=
  ∀ id row, p.shared.repo.get id = some row → InMemoryOutboxRepository.Due now row →
    ∀ id' row', p.shared.repo.get id' = some row' → SameKey row' row → row'.Before row →
      row'.status = .pending → InMemoryOutboxRepository.Due now row'

/-- A single dispatcher, and no message overtakes an earlier one of its key in the claim. -/
def KeyOrdered (config : DispatchConfig) (p : DispatchPool)
    (action : Action DispatchChoice OutboxArrival) : Prop :=
  Single config p action ∧
    match action with
    | .arrive (.insert record) => InsertsInOrder p record
    | .arrive (.dispatch _ now _) => DueInOrder p now
    | _ => True

instance (p : DispatchPool) (id : Uuid) : Decidable (AtRest p id) :=
  inferInstanceAs (Decidable (_ ∨ _))

instance (p : DispatchPool) (record : OutboxMessage) : Decidable (InsertsInOrder p record) :=
  DashMap.decidableForallGet _ fun id row => SameKey row record → record.Before row →
    row.status ≠ .published ∧ AtRest p id

instance (p : DispatchPool) (now : Time) : Decidable (DueInOrder p now) :=
  have : ∀ row : OutboxMessage, Decidable (∀ id' row', p.shared.repo.get id' = some row' →
      SameKey row' row → row'.Before row → row'.status = .pending →
      InMemoryOutboxRepository.Due now row') := fun row =>
    DashMap.decidableForallGet _ fun _ row' => SameKey row' row → row'.Before row →
      row'.status = .pending → InMemoryOutboxRepository.Due now row'
  DashMap.decidableForallGet _ fun _ row => InMemoryOutboxRepository.Due now row →
    ∀ id' row', p.shared.repo.get id' = some row' → SameKey row' row → row'.Before row →
      row'.status = .pending → InMemoryOutboxRepository.Due now row'

instance (config : DispatchConfig) (p : DispatchPool) :
    ∀ action, Decidable (KeyOrdered config p action)
  | .arrive (.insert record) =>
      inferInstanceAs (Decidable (Single config p (.arrive (.insert record)) ∧
        InsertsInOrder p record))
  | .arrive (.dispatch limit now order) =>
      inferInstanceAs (Decidable (Single config p (.arrive (.dispatch limit now order)) ∧
        DueInOrder p now))
  | .arrive .nextLane => inferInstanceAs (Decidable (Single config p (.arrive .nextLane) ∧ True))
  | .step i choice => inferInstanceAs (Decidable (Single config p (.step i choice) ∧ True))

/-! ## The claim order -/

section Before

variable {a b c : OutboxMessage}

theorem before_total (a b : OutboxMessage) : a.Before b ∨ a.id = b.id ∨ b.Before a := by
  rcases lt_trichotomy a.createdAt b.createdAt with lt | same | gt
  · exact .inl (.inl lt)
  · rcases lt_trichotomy a.id b.id with lt | eq | gt
    · exact .inl (.inr ⟨same, lt⟩)
    · exact .inr (.inl eq)
    · exact .inr (.inr (.inr ⟨same.symm, gt⟩))
  · exact .inr (.inr (.inl gt))

theorem before_congr_left (follows : a.Follows b) (same : a.id = b.id) :
    a.Before c ↔ b.Before c := by
  unfold OutboxMessage.Before
  rw [follows.2, same]

theorem before_congr_right (follows : a.Follows b) (same : a.id = b.id) :
    c.Before a ↔ c.Before b := by
  unfold OutboxMessage.Before
  rw [follows.2, same]

theorem sameKey_congr_left (follows : a.Follows b) : SameKey a c ↔ SameKey b c := by
  unfold SameKey
  rw [follows.1]

theorem sameKey_congr_right (follows : a.Follows b) : SameKey c a ↔ SameKey c b := by
  unfold SameKey
  rw [follows.1]

end Before

theorem acceptedOf_append (calls more : List PublishCall) :
    acceptedOf (calls ++ more) = acceptedOf calls ++ acceptedOf more :=
  List.filterMap_append

theorem mem_acceptedOf {calls : List PublishCall} {b : OutboxMessage} :
    b ∈ acceptedOf calls ↔ ⟨b, .ok ()⟩ ∈ calls := by
  unfold acceptedOf
  rw [List.mem_filterMap]
  constructor
  · rintro ⟨⟨record, outcome⟩, member, found⟩
    cases outcome with
    | ok _ =>
        cases found
        exact member
    | error error => cases found
  · intro member
    exact ⟨_, member, rfl⟩

/-! ## The invariant -/

/-- What keeps the order: everything published by earlier runs is marked so; while a run is in
progress, a pending message before a claimed one of its key is claimed too. -/
structure Ordered (p : DispatchPool) : Prop where
  inOrder : InOrder p.shared
  notOvertaken : NotOvertaken p.shared
  marked : ∀ b ∈ acceptedOf p.shared.earlier,
    b.id ∉ p.shared.run.claimed.map OutboxMessage.id ∧
      ∃ row, p.shared.repo.get b.id = some row ∧ row.status = .published ∧ row.Follows b
  closed : ¬ Over p → ∀ m ∈ p.shared.run.claimed, ∀ id row,
    id ∉ p.shared.run.claimed.map OutboxMessage.id → p.shared.repo.get id = some row →
    SameKey row m → row.Before m → row.status ≠ .pending
  sorted : p.shared.run.claimed.Pairwise OutboxMessage.Before

section Ordered

variable {config : DispatchConfig} {p q : DispatchPool} {b : OutboxMessage}

theorem mem_accepted {s : OutboxShared} :
    b ∈ accepted s ↔ b ∈ acceptedOf s.earlier ∨ ⟨b, .ok ()⟩ ∈ s.run.calls := by
  unfold accepted OutboxShared.calls
  rw [acceptedOf_append, List.mem_append]
  exact or_congr_right mem_acceptedOf

/-- When the run is over, what it published is marked so. -/
theorem Consistent.marked (c : Consistent config p) (allDone : Over p)
    (called : ⟨b, .ok ()⟩ ∈ p.shared.run.calls) :
    ∃ row, p.shared.repo.get b.id = some row ∧ row.status = .published ∧ row.Follows b := by
  have claimed : b ∈ p.shared.run.claimed := c.book.calls _ called
  obtain ⟨lane, member, inLane⟩ := exists_lane claimed
  obtain ⟨n, done, rest, stage, at_, -, stopped⟩ := c.allEnded allDone.1 allDone.2 member
  have own : ⟨b, .ok ()⟩ ∈ runCallsOf p.shared b.id :=
    List.mem_filter.mpr ⟨called, decide_eq_true rfl⟩
  rcases at_.message ((lanes_apart c.book.nodup).1 lane member) inLane with
    ⟨⟨now, now', found⟩, -⟩ | ⟨isHead, -, calls⟩ | ⟨-, calls⟩
  · exact ⟨_, found, rfl, rfl, rfl⟩
  · rw [calls] at own
    rcases stopped with rfl | ⟨error, rfl | rfl⟩
    · cases isHead
    · simp [Stage.calls] at own
    · simp [Stage.calls] at own
  · rw [calls] at own
    cases own

theorem Ordered.accepted_row (o : Ordered p) (c : Consistent config p)
    (member : b ∈ accepted p.shared) :
    ∃ row, p.shared.repo.get b.id = some row ∧ row.Follows b := by
  rcases mem_accepted.mp member with earlier | called
  · obtain ⟨-, row, found, -, follows⟩ := o.marked b earlier
    exact ⟨row, found, follows⟩
  · exact c.book.stored b (c.book.calls _ called)

/-- A published message that is not in the middle of a run is marked so. -/
theorem Ordered.published_atRest (o : Ordered p) (c : Consistent config p)
    (member : b ∈ accepted p.shared) (rest : AtRest p b.id) :
    ∃ row, p.shared.repo.get b.id = some row ∧ row.status = .published := by
  rcases mem_accepted.mp member with earlier | called
  · obtain ⟨-, row, found, published, -⟩ := o.marked b earlier
    exact ⟨row, found, published⟩
  · rcases rest with outside | allDone
    · exact (outside (List.mem_map_of_mem (c.book.calls _ called))).elim
    · obtain ⟨row, found, published, -⟩ := c.marked allDone called
      exact ⟨row, found, published⟩

theorem Ordered.insert (o : Ordered p) (c : Consistent config p) {record : OutboxMessage}
    (fresh : p.shared.repo.get record.id = none) (inOrder : InsertsInOrder p record) :
    Ordered { p with shared := { p.shared with repo := p.shared.repo.write record } } := by
  have present : ∀ id row, p.shared.repo.get id = some row →
      (p.shared.repo.write record).get id = some row := by
    intro id row found
    refine (InMemoryOutboxRepository.get_write_of_ne fun same => ?_).trans found
    rw [same, fresh] at found
    cases found
  refine ⟨o.inOrder, ?_, ?_, ?_, o.sorted⟩
  · intro b member id row stored sameKey before
    rw [InMemoryOutboxRepository.get_write] at stored
    split at stored
    · -- the new message cannot come before one that was published
      next same =>
      cases stored
      exfalso
      obtain ⟨row, found, follows⟩ := o.accepted_row c member
      have sameId : row.id = b.id := InMemoryOutboxRepository.id_of_get found
      have allowed := inOrder b.id row found
        ⟨((sameKey_congr_right follows).mpr sameKey).1.symm, follows.1 ▸ sameKey.1 ▸ sameKey.2⟩
        ((before_congr_right follows sameId).mpr before)
      obtain ⟨row', found', published⟩ := o.published_atRest c member allowed.2
      rw [found] at found'
      cases found'
      exact allowed.1 published
    · exact o.notOvertaken b member id row stored sameKey before
  · intro b earlier
    obtain ⟨outside, row, found, published, follows⟩ := o.marked b earlier
    exact ⟨outside, row, present b.id row found, published, follows⟩
  · intro unfinished m claimed id row outside stored sameKey before
    rw [InMemoryOutboxRepository.get_write] at stored
    split at stored
    · next same =>
      cases stored
      exfalso
      obtain ⟨row, found, follows⟩ := c.book.stored m claimed
      have sameId : row.id = m.id := InMemoryOutboxRepository.id_of_get found
      have allowed := inOrder m.id row found
        ⟨((sameKey_congr_right follows).mpr sameKey).1.symm, follows.1 ▸ sameKey.1 ▸ sameKey.2⟩
        ((before_congr_right follows sameId).mpr before)
      rcases allowed.2 with out | allDone
      · exact out (List.mem_map_of_mem claimed)
      · exact unfinished allDone
    · exact o.closed unfinished m claimed id row outside stored sameKey before

theorem Ordered.dispatch (o : Ordered p) (c : Consistent config p) {limit : ℕ} {now : Time}
    {order : List Uuid} (iterated : order.Perm p.shared.repo.store.keys) (allDone : Over p)
    (due : DueInOrder p now) :
    Ordered { p with shared := claimBatch p.shared limit now order } := by
  have answered : (p.shared.repo.pending order now limit).2 =
      .ok (claimBatch p.shared limit now order).run.claimed := rfl
  have same : accepted (claimBatch p.shared limit now order) = accepted p.shared :=
    congrArg acceptedOf (List.append_nil _)
  have kept : ∀ {id}, id ∉ (claimBatch p.shared limit now order).run.claimed.map OutboxMessage.id →
      (claimBatch p.shared limit now order).repo.get id = p.shared.repo.get id := fun outside =>
    InMemoryOutboxRepository.pending_get_of_not_mem iterated answered outside
  refine ⟨?_, ?_, ?_, ?_, InMemoryOutboxRepository.pairwise_pending iterated answered⟩
  · intro key
    show (withKey key (accepted (claimBatch p.shared limit now order))).Pairwise _
    rw [same]
    exact o.inOrder key
  · intro b member id row stored sameKey before
    show _ ∨ ∃ a ∈ accepted (claimBatch p.shared limit now order), a.id = id
    change b ∈ accepted (claimBatch p.shared limit now order) at member
    rw [same] at member
    rw [same]
    by_cases listed : id ∈
        (claimBatch p.shared limit now order).run.claimed.map OutboxMessage.id
    · obtain ⟨m, claimed, rfl⟩ := List.mem_map.mp listed
      obtain ⟨source, found, isDue, eq⟩ :=
        InMemoryOutboxRepository.mem_pending iterated answered claimed
      have stored' : (claimBatch p.shared limit now order).repo.get m.id = some m :=
        InMemoryOutboxRepository.pending_get_of_mem iterated answered claimed
      obtain rfl : m = row := Option.some.inj (stored'.symm.trans stored)
      have follows : m.Follows source := by
        rw [eq]
        exact ⟨rfl, rfl⟩
      have sameId : m.id = source.id := (InMemoryOutboxRepository.id_of_get found).symm
      rcases o.notOvertaken b member m.id source found ((sameKey_congr_left follows).mp sameKey)
        ((before_congr_left follows sameId).mp before) with final | published
      · exact (final isDue.1).elim
      · exact .inr published
    · exact o.notOvertaken b member id row ((kept listed).symm.trans stored) sameKey before
  · intro b earlier
    obtain ⟨row, found, published⟩ := o.published_atRest c earlier (.inr allDone)
    obtain ⟨row', found', follows⟩ := o.accepted_row c earlier
    rw [found] at found'
    cases found'
    have outside : b.id ∉
        (claimBatch p.shared limit now order).run.claimed.map OutboxMessage.id := by
      intro listed
      obtain ⟨m, claimed, sameId⟩ := List.mem_map.mp listed
      obtain ⟨source, source_found, isDue, -⟩ :=
        InMemoryOutboxRepository.mem_pending iterated answered claimed
      rw [sameId, found] at source_found
      cases source_found
      cases published.symm.trans isDue.1
    exact ⟨outside, row, (kept outside).trans found, published, follows⟩
  · intro _ m claimed id row outside stored sameKey before pending
    obtain ⟨source, found, isDue, eq⟩ :=
      InMemoryOutboxRepository.mem_pending iterated answered claimed
    have follows : source.Follows m := by
      rw [eq]
      exact ⟨rfl, rfl⟩
    have sameId : source.id = m.id := InMemoryOutboxRepository.id_of_get found
    have stored' := (kept outside).symm.trans stored
    have rowDue := due m.id source found isDue id row stored'
      ((sameKey_congr_right follows).mpr sameKey)
      ((before_congr_right follows sameId).mpr before) pending
    exact outside (InMemoryOutboxRepository.pending_closed iterated answered claimed stored' rowDue
      before)

/-- The messages of the lane before the one it is at are those of its key before it. -/
theorem LaneAt.mem_done {s : OutboxShared} {batch lane done behind : List OutboxMessage}
    {m m' : OutboxMessage} {stage : Stage}
    (at_ : LaneAt config s lane done (m :: behind) stage) (member : lane ∈ lanes batch)
    (sorted : batch.Pairwise OutboxMessage.Before) (claimed : m' ∈ batch) (sameKey : SameKey m' m)
    (before : m'.Before m) : m' ∈ done := by
  have inLane : m' ∈ lane := by
    rcases mem_lanes member with ⟨single, keyless, rfl⟩ | ⟨key, rfl⟩
    · have isSingle := List.mem_singleton.mp at_.mem
      exact (sameKey.2 (sameKey.1.trans (isSingle ▸ keyless))).elim
    · have routed := of_decide_eq_true (List.mem_filter.mp at_.mem).2
      exact List.mem_filter.mpr ⟨claimed, decide_eq_true (sameKey.1.trans routed)⟩
  have laneSorted : lane.Pairwise OutboxMessage.Before := by
    rcases mem_lanes member with ⟨single, -, rfl⟩ | ⟨key, rfl⟩
    · exact List.pairwise_singleton _ _
    · exact sorted.filter _
  rw [at_.split] at inLane laneSorted
  rcases List.mem_append.mp inLane with inDone | inRest
  · exact inDone
  · exfalso
    rcases List.mem_cons.mp inRest with rfl | later
    · exact OutboxMessage.Before.irrefl _ before
    · have after := (List.pairwise_cons.mp (List.pairwise_append.mp laneSorted).2.1).1 m' later
      exact OutboxMessage.Before.asymm before after

/-- What is still pending and unpublished stays behind what was published. -/
theorem NotOvertaken.kept {s s' : OutboxShared} {lane batch : List OutboxMessage}
    {event : DispatchEvent} (holds : NotOvertaken s) (effect : Effect lane s s' event)
    (member : lane ∈ lanes batch) (pending : ∀ m ∈ batch, m.status = .pending)
    (stored : ∀ m ∈ batch, ∃ row, s.repo.get m.id = some row ∧ row.Follows m)
    (grown : ∀ a ∈ accepted s, a ∈ accepted s') {b : OutboxMessage} (published : b ∈ accepted s)
    {id : Uuid} {row' : OutboxMessage} (found' : s'.repo.get id = some row')
    (sameKey : SameKey row' b) (before : row'.Before b) :
    row'.status ≠ .pending ∨ ∃ a ∈ accepted s', a.id = id := by
  cases found : s.repo.get id with
  | none =>
      -- a lane does not create rows
      have same := effect.rows id fun m inLane eq => by
        obtain ⟨row, found'', -⟩ := stored m (mem_of_mem_lanes member inLane)
        rw [eq, found] at found''
        cases found''
      rw [same, found] at found'
      cases found'
  | some row =>
      obtain ⟨row'', found'', follows⟩ := effect.stored id row found
      rw [found'] at found''
      cases found''
      have sameId : row'.id = row.id :=
        (InMemoryOutboxRepository.id_of_get found').trans
          (InMemoryOutboxRepository.id_of_get found).symm
      rcases holds b published id row found ((sameKey_congr_left follows).mp sameKey)
        ((before_congr_left follows sameId).mp before) with final | ⟨a, taken, eq⟩
      · have same := effect.settled (fun m inLane => pending m (mem_of_mem_lanes member inLane))
          id row found final
        rw [found'] at same
        cases same
        exact .inl final
      · exact .inr ⟨a, grown a taken, eq⟩

/-- Only a publish call that succeeds adds to what was published. -/
theorem serve_accepted {s s' : OutboxShared} {choice : DispatchChoice} {op : DispatchOp}
    {reply : op.Reply} (served : serve config s choice op = some (s', reply)) :
    accepted s' = accepted s ∨ ∃ record, op = .publish record ∧ s'.repo = s.repo ∧
      accepted s' = accepted s ++ [record] := by
  cases op with
  | publish record =>
      have grown : accepted s' = accepted s ++ acceptedOf [⟨record, choice.published⟩] := by
        cases served
        unfold accepted OutboxShared.calls
        rw [← acceptedOf_append, List.append_assoc]
      have same : s'.repo = s.repo := by
        cases served
        rfl
      cases outcome : choice.published with
      | ok _ =>
          refine .inr ⟨record, rfl, same, ?_⟩
          rw [grown, outcome]
          rfl
      | error error =>
          refine .inl ?_
          rw [grown, outcome]
          exact List.append_nil _
  | _ =>
      cases served
      exact .inl rfl

/-- The message about to be published was not published before. -/
theorem Ordered.unpublished (o : Ordered p) (c : Consistent config p)
    {lane done behind : List OutboxMessage} {record : OutboxMessage}
    (member : lane ∈ lanes p.shared.run.claimed)
    (at_ : LaneAt config p.shared lane done (record :: behind) .recorded) :
    ∀ a ∈ accepted p.shared, a.id ≠ record.id := by
  intro a published same
  have claimed : record ∈ p.shared.run.claimed := mem_of_mem_lanes member at_.mem
  rcases mem_accepted.mp published with earlier | called
  · exact (o.marked a earlier).1 (same ▸ List.mem_map_of_mem claimed)
  · have own : ⟨a, .ok ()⟩ ∈ runCallsOf p.shared record.id :=
      List.mem_filter.mpr ⟨called, decide_eq_true same⟩
    obtain ⟨now, found⟩ := at_.head record rfl
    rcases at_.message ((lanes_apart c.book.nodup).1 lane member) at_.mem with
      ⟨⟨at₁, at₂, found'⟩, -⟩ | ⟨-, -, calls⟩ | ⟨-, calls⟩
    · rw [found] at found'
      have pending : record.status = .published :=
        congrArg OutboxMessage.status (Option.some.inj found')
      cases (c.book.pending record claimed).symm.trans pending
    · rw [calls] at own
      cases own
    · rw [calls] at own
      cases own

/-- When a message is about to be published, the earlier ones of its key are settled. -/
theorem Ordered.settled_before (o : Ordered p) (unfinished : ¬ Over p)
    {lane done behind : List OutboxMessage} {record : OutboxMessage} {stage : Stage}
    (member : lane ∈ lanes p.shared.run.claimed)
    (at_ : LaneAt config p.shared lane done (record :: behind) stage) {id : Uuid}
    {row : OutboxMessage} (c : Consistent config p) (stored : p.shared.repo.get id = some row)
    (sameKey : SameKey row record) (before : row.Before record) : row.status ≠ .pending := by
  have claimed : record ∈ p.shared.run.claimed := mem_of_mem_lanes member at_.mem
  by_cases listed : id ∈ p.shared.run.claimed.map OutboxMessage.id
  · obtain ⟨m, claimed', rfl⟩ := List.mem_map.mp listed
    obtain ⟨row', found, follows⟩ := c.book.stored m claimed'
    obtain rfl : row' = row := Option.some.inj (found.symm.trans stored)
    have sameId : row'.id = m.id := InMemoryOutboxRepository.id_of_get stored
    have inDone : m ∈ done := at_.mem_done member o.sorted claimed'
      ((sameKey_congr_left follows).mp sameKey) ((before_congr_left follows sameId).mp before)
    obtain ⟨now, now', delivered⟩ := at_.delivered m inDone
    rw [stored] at delivered
    cases delivered
    exact fun pending => by cases pending
  · exact o.closed unfinished record claimed id row listed stored sameKey before

/-- A message is published after everything of its key that was published comes before it. -/
theorem Ordered.after_accepted (o : Ordered p) (c : Consistent config p)
    {lane done behind : List OutboxMessage} {record : OutboxMessage}
    (member : lane ∈ lanes p.shared.run.claimed)
    (at_ : LaneAt config p.shared lane done (record :: behind) .recorded) :
    ∀ a ∈ accepted p.shared, SameKey a record → a.Before record := by
  intro a published sameKey
  have fresh := o.unpublished c member at_
  rcases before_total a record with before | same | after
  · exact before
  · exact (fresh a published same).elim
  · -- otherwise `a` went first while `record` was pending
    exfalso
    obtain ⟨now, found⟩ := at_.head record rfl
    have pending := c.book.pending record (mem_of_mem_lanes member at_.mem)
    rcases o.notOvertaken a published record.id _ found ⟨sameKey.1.symm, sameKey.1 ▸ sameKey.2⟩
      after with final | ⟨a', published', same⟩
    · exact final pending
    · exact fresh a' published' same

theorem InOrder.concat {s s' : OutboxShared} {record : OutboxMessage} (holds : InOrder s)
    (grown : accepted s' = accepted s ++ [record])
    (after : ∀ a ∈ accepted s, SameKey a record → a.Before record) : InOrder s' := by
  intro key
  rw [grown, withKey_append]
  refine List.pairwise_append.mpr ⟨holds key, (List.pairwise_singleton _ _).filter _, ?_⟩
  intro a first b second
  obtain ⟨published, routed⟩ := List.mem_filter.mp first
  obtain ⟨single, routed'⟩ := List.mem_filter.mp second
  have key_a := of_decide_eq_true routed
  have key_b := of_decide_eq_true routed'
  rw [List.mem_singleton] at single
  subst single
  exact after a published ⟨key_a.trans key_b.symm, fun keyless => by cases key_a.symm.trans keyless⟩

theorem Ordered.step (o : Ordered p) (c : Consistent config p) (running : ¬ p.Quiescent)
    {lane : List OutboxMessage} {choice : DispatchChoice} {op : DispatchOp} {reply : op.Reply}
    (member : lane ∈ lanes p.shared.run.claimed) (ready : Ready config p.shared lane op)
    (served : serve config p.shared choice op = some (q.shared, reply))
    (effect : Effect lane p.shared q.shared ⟨choice, op, reply⟩) : Ordered q := by
  have unfinished : ¬ Over p := fun allDone => running allDone.1
  have outer : ∀ {id}, id ∉ p.shared.run.claimed.map OutboxMessage.id →
      q.shared.repo.get id = p.shared.repo.get id := fun outside =>
    effect.rows _ fun m inLane same =>
      outside (same ▸ List.mem_map_of_mem (mem_of_mem_lanes member inLane))
  have kept : (∀ a ∈ accepted p.shared, a ∈ accepted q.shared) → ∀ b ∈ accepted p.shared,
      ∀ id row, q.shared.repo.get id = some row → SameKey row b → row.Before b →
      row.status ≠ .pending ∨ ∃ a ∈ accepted q.shared, a.id = id := fun grown _ published _ _ =>
    o.notOvertaken.kept effect member c.book.pending c.book.stored grown published
  have orders : InOrder q.shared ∧ NotOvertaken q.shared := by
    rcases serve_accepted served with same | ⟨record, rfl, sameRepo, grown⟩
    · refine ⟨fun key => ?_, fun b published => ?_⟩
      · rw [same]
        exact o.inOrder key
      · rw [same] at published
        exact kept (fun a member => same ▸ member) b published
    · obtain ⟨done, behind, at_⟩ := ready
      refine ⟨o.inOrder.concat grown (o.after_accepted c member at_), fun b published => ?_⟩
      rw [grown, List.mem_append, List.mem_singleton] at published
      rcases published with old | rfl
      · exact kept (fun a member => grown ▸ List.mem_append_left _ member) b old
      · intro id row stored sameKey before
        rw [sameRepo] at stored
        exact .inl (o.settled_before unfinished member at_ c stored sameKey before)
  refine ⟨orders.1, orders.2, ?_, ?_, ?_⟩
  · rw [effect.earlier, effect.claimed]
    intro b earlier
    obtain ⟨outside, row, found, published, follows⟩ := o.marked b earlier
    exact ⟨outside, row, (outer outside).trans found, published, follows⟩
  · rw [effect.claimed]
    intro _ m claimed id row outside stored
    exact o.closed unfinished m claimed id row outside ((outer outside).symm.trans stored)
  · rw [effect.claimed]
    exact o.sorted

/-- Every state that a single dispatcher reaches without overtaking is in order. -/
theorem ordered_of_reaches {claimLease : ChronoDuration}
    (reached : (system config).Reaches (KeyOrdered config) (initial claimLease) p) :
    Ordered p := by
  refine reached.invariant ?_ ?_
  · exact ⟨fun _ => .nil, fun _ member => (by cases member), fun _ member => (by cases member),
      fun _ _ member => (by cases member), .nil⟩
  · intro p q action before o side stepped
    have c := consistent_of_reaches (before.mono fun _ _ side => side.1)
    rcases shared_cases c side.1 stepped with ⟨record, rfl, fresh, rfl⟩ |
      ⟨limit, now, order, rfl, iterated, quiescent, allDone, rfl⟩ |
      ⟨first, waiting, rfl, waits, eq⟩ |
      ⟨i, choice, lane, op, reply, rfl, running, member, ready, served, effect⟩
    · exact o.insert c fresh side.2
    · exact o.dispatch c iterated ⟨quiescent, allDone⟩ side.2
    · -- a lane begins: nothing else changes
      have unfinished : ¬ Over p := fun allDone => by cases waits.symm.trans allDone.2
      refine ⟨?_, ?_, ?_, fun _ => ?_, ?_⟩
      all_goals rw [eq]
      · exact o.inOrder
      · exact o.notOvertaken
      · exact o.marked
      · exact o.closed unfinished
      · exact o.sorted
    · exact o.step c running member ready served effect

/-- Per-key order across runs.  A single dispatcher whose claims never pass over a pending
message of a key to take a later one, and for which no message is inserted before one of its
key that has left or is leaving, publishes the messages of each key in the order of
creation; and whenever a message is published, every earlier one of its key was published
before or is marked permanently failed. -/
theorem keyOrder_of_reaches {claimLease : ChronoDuration}
    (reached : (system config).Reaches (KeyOrdered config) (initial claimLease) p) :
    InOrder p.shared ∧ NotOvertaken p.shared :=
  ⟨(ordered_of_reaches reached).inOrder, (ordered_of_reaches reached).notOvertaken⟩

end Ordered

/-- Messages 1 and 2 share a key; message 1 is refused, then both are published. -/
def refusedTogether : List (Action DispatchChoice OutboxArrival) :=
  [.arrive (.insert (keyed 1 0 (some "a"))), .arrive (.insert (keyed 2 1 (some "a"))),
    .arrive (.dispatch 10 1 [1, 2]), .arrive .nextLane, .step 0 {},
    .step 0 { published := .error (.publish "down") }, .step 0 {}, .step 0 {}, .step 0 {},
    .arrive (.dispatch 10 1000000000 [1, 2]), .arrive .nextLane, .step 1 {}, .step 1 {},
    .step 1 {}, .step 1 {}, .step 1 {}, .step 1 {}, .step 1 {}]

theorem keyOrder_refusedTogether : ∃ p : DispatchPool,
    (system twoLanes).Reaches (KeyOrdered twoLanes) (initial 30) p ∧
      (accepted p.shared).map OutboxMessage.id = [1, 2] ∧
      (withKey "a" (accepted p.shared)).Pairwise OutboxMessage.Before := by
  have run : (((system twoLanes).exec (initial 30) refusedTogether).any fun p =>
      decide ((accepted p.shared).map OutboxMessage.id = [1, 2])) = true := by
    decide +kernel
  obtain ⟨p, reached, found⟩ := System.exists_reaches_of_exec
    (C := KeyOrdered twoLanes) (by decide +kernel) run
  exact ⟨p, reached, of_decide_eq_true found, (keyOrder_of_reaches reached).1 "a"⟩

/-- Message 1 is refused and waits out its backoff; message 2 of the same key is inserted and
published by the next run, message 1 by the one after. -/
def overtaking : List (Action DispatchChoice OutboxArrival) :=
  [.arrive (.insert (keyed 1 0 (some "a"))), .arrive (.dispatch 10 0 [1]), .arrive .nextLane,
    .step 0 {}, .step 0 { published := .error (.publish "down") }, .step 0 {}, .step 0 {},
    .step 0 {}, .arrive (.insert (keyed 2 1 (some "a"))), .arrive (.dispatch 10 1 [1, 2]),
    .arrive .nextLane, .step 1 {}, .step 1 {}, .step 1 {}, .step 1 {},
    .arrive (.dispatch 10 1000000000 [1, 2]), .arrive .nextLane, .step 2 {}, .step 2 {},
    .step 2 {}, .step 2 {}]

/-- One transient failure is enough to reverse the order of a key. -/
theorem keyOrder_violated : ∃ p : DispatchPool,
    (system twoLanes).Reaches (Delivering twoLanes) (initial 30) p ∧
      (accepted p.shared).map OutboxMessage.id = [2, 1] ∧ ¬ InOrder p.shared := by
  have run : (((system twoLanes).exec (initial 30) overtaking).any fun p =>
      decide ((accepted p.shared).map OutboxMessage.id = [2, 1] ∧
        ¬ (withKey "a" (accepted p.shared)).Pairwise OutboxMessage.Before)) = true := by
    decide +kernel
  obtain ⟨p, reached, found⟩ := System.exists_reaches_of_exec
    (C := Delivering twoLanes) (by decide +kernel) run
  obtain ⟨order, reversed⟩ := of_decide_eq_true found
  exact ⟨p, reached, order, fun inOrder => reversed (inOrder "a")⟩

end OutboxDispatcher

end Pharos
