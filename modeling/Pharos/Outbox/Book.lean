import Pharos.Outbox.Outline

/-!
# The book of the run in progress

`Book` ties the lanes of the run in progress to the batch it claimed: the lanes that
began and those that wait are the partition of the batch, so no two of them share a
message, and every lane is where its outline says.  Every step of a single dispatcher
keeps it (`consistent_of_reaches`).
-/

namespace Pharos

namespace OutboxDispatcher

open Async

/-! ## Lanes of one batch share no message -/

/-- No message of one lane has the id of a message of the other. -/
def Apart (lane lane' : List OutboxMessage) : Prop :=
  ∀ m ∈ lane, ∀ m' ∈ lane', m.id ≠ m'.id

theorem Apart.symm {lane lane' : List OutboxMessage} (apart : Apart lane lane') :
    Apart lane' lane :=
  fun m member m' member' same => apart m' member' m member same.symm

theorem lanes_apart {batch : List OutboxMessage} (nodup : (batch.map OutboxMessage.id).Nodup) :
    (∀ lane ∈ lanes batch, (lane.map OutboxMessage.id).Nodup) ∧
      (lanes batch).Pairwise Apart := by
  have flat := ((lanes_perm batch).map OutboxMessage.id).nodup_iff.mpr nodup
  rw [List.map_flatten, List.nodup_flatten] at flat
  obtain ⟨each, pairs⟩ := flat
  refine ⟨fun lane member => each _ (List.mem_map_of_mem member), ?_⟩
  rw [List.pairwise_map] at pairs
  refine pairs.imp fun disjoint m member m' member' same => ?_
  exact disjoint (List.mem_map_of_mem member) (same ▸ List.mem_map_of_mem member')

theorem mem_of_mem_lanes {batch lane : List OutboxMessage} {m : OutboxMessage}
    (member : lane ∈ lanes batch) (inLane : m ∈ lane) : m ∈ batch :=
  (lanes_perm batch).mem_iff.mp (List.mem_flatten.mpr ⟨lane, member, inLane⟩)

/-! ## What one operation of a lane does to the shared state -/

section Effect

variable {config : DispatchConfig} {s s' : OutboxShared} {lane other : List OutboxMessage}
  {choice : DispatchChoice} {op : DispatchOp} {reply : op.Reply}

/-- Everything outside the lane stays as it is. -/
structure Effect (lane : List OutboxMessage) (s s' : OutboxShared) (event : DispatchEvent) :
    Prop where
  runs : s'.runs = s.runs
  earlier : s'.earlier = s.earlier
  claimed : s'.run.claimed = s.run.claimed
  waiting : s'.run.waiting = s.run.waiting
  rows : ∀ id, (∀ m ∈ lane, m.id ≠ id) → s'.repo.get id = s.repo.get id
  stored : ∀ id row, s.repo.get id = some row →
    ∃ row', s'.repo.get id = some row' ∧ row'.Follows row
  settled : (∀ m ∈ lane, m.status = .pending) → ∀ id row, s.repo.get id = some row →
    row.status ≠ .pending → s'.repo.get id = some row
  calls : ∃ added, s'.run.calls = s.run.calls ++ added ∧ ∀ call ∈ added, call.record ∈ lane
  outcomes : s'.run.outcomes = s.run.outcomes ++ (yielded event).toList

theorem effect_of_touches {m old : OutboxMessage} {repo : InMemoryOutboxRepository}
    {event : DispatchEvent} (own : m ∈ lane) (found : s.repo.get m.id = some old)
    (unsettled : old.status = m.status) (touches : s.repo.Touches repo m.id)
    (silent : yielded event = none) : Effect lane s { s with repo := repo } event where
  runs := rfl
  earlier := rfl
  claimed := rfl
  waiting := rfl
  rows id outside := touches.1 id fun same => outside m own same.symm
  stored := touches.2
  settled pending id row stored final := by
    refine (touches.1 id fun same => final ?_).trans stored
    rw [same, found] at stored
    cases stored
    exact unsettled.trans (pending m own)
  calls := ⟨[], (List.append_nil _).symm, fun _ member => by cases member⟩
  outcomes := by simp [silent]

theorem LaneAt.mem {done behind : List OutboxMessage} {m : OutboxMessage} {stage : Stage}
    (at_ : LaneAt config s lane done (m :: behind) stage) : m ∈ lane :=
  at_.split ▸ List.mem_append_right _ List.mem_cons_self

theorem serve_effect (ready : Ready config s lane op)
    (served : serve config s choice op = some (s', reply)) :
    Effect lane s s' ⟨choice, op, reply⟩ := by
  cases op with
  | recordAttempt id =>
      obtain ⟨done, m, behind, rfl, at_⟩ := ready
      cases served
      exact effect_of_touches at_.mem (at_.head m rfl) rfl
        (InMemoryOutboxRepository.touches_update (fun _ => rfl) fun _ => ⟨rfl, rfl⟩) rfl
  | publish record =>
      obtain ⟨done, behind, at_⟩ := ready
      cases served
      refine ⟨rfl, rfl, rfl, rfl, fun _ _ => rfl, fun _ row found => ⟨row, found, rfl, rfl⟩,
        fun _ _ _ found _ => found,
        ⟨_, rfl, fun call member => ?_⟩, by simp [yielded]⟩
      rw [List.mem_singleton] at member
      exact member ▸ at_.mem
  | markPublished id =>
      obtain ⟨done, m, behind, rfl, at_⟩ := ready
      obtain ⟨recorded, found⟩ := at_.head m rfl
      cases served
      exact effect_of_touches at_.mem found rfl
        (InMemoryOutboxRepository.touches_update (fun _ => rfl) fun _ => ⟨rfl, rfl⟩) rfl
  | decideFor attempt failure =>
      obtain ⟨done, m, behind, error, -, -, at_⟩ := ready
      obtain ⟨recorded, found⟩ := at_.head m rfl
      cases served
      exact effect_of_touches at_.mem found rfl (.refl _ _) rfl
  | markFailed id text =>
      obtain ⟨done, m, behind, error, rfl, -, -, at_⟩ := ready
      obtain ⟨recorded, found⟩ := at_.head m rfl
      cases served
      exact effect_of_touches at_.mem found rfl
        (InMemoryOutboxRepository.touches_update (fun _ => rfl) fun _ => ⟨rfl, rfl⟩) rfl
  | scheduleRetry id delay =>
      obtain ⟨done, m, behind, error, rfl, -, at_⟩ := ready
      obtain ⟨recorded, found⟩ := at_.head m rfl
      cases served
      exact effect_of_touches at_.mem found rfl InMemoryOutboxRepository.touches_scheduleRetry rfl
  | yield published errors =>
      cases served
      exact ⟨rfl, rfl, rfl, rfl, fun _ _ => rfl, fun _ row found => ⟨row, found, rfl, rfl⟩,
        fun _ _ _ found _ => found,
        ⟨[], (List.append_nil _).symm, fun _ member => by cases member⟩, rfl⟩

/-- An operation of one lane leaves every other lane where it is. -/
theorem Effect.sameLane {event : DispatchEvent} (effect : Effect lane s s' event)
    (apart : Apart lane other) : SameLane other s s' := by
  refine ⟨fun m member => effect.rows m.id fun m' member' => apart m' member' m member, ?_⟩
  obtain ⟨added, calls, own⟩ := effect.calls
  have foreign : added.filter
      (fun call => decide (call.record.id ∈ other.map OutboxMessage.id)) = [] := by
    rw [List.filter_eq_nil_iff]
    intro call member listed
    obtain ⟨m, inOther, same⟩ := List.mem_map.mp (of_decide_eq_true listed)
    exact apart call.record (own call member) m inOther same.symm
  unfold laneCalls
  rw [calls, List.filter_append, foreign, List.append_nil]

end Effect

/-! ## The book of the run in progress -/

abbrev LaneTask := Task dispatchSignature DispatchChoice DispatchLane Unit

/-- The lanes of a run that have begun, in order. -/
def begun (run : ℕ) (tasks : List LaneTask) : List (List OutboxMessage) :=
  (tasks.filter fun t => t.args.run = run).map (·.args.messages)

/-- The outcomes that lanes of a run have yielded. -/
def reported (run : ℕ) (tasks : List LaneTask) : List (ℕ × List OutboxDispatchError) :=
  tasks.flatMap fun t => if t.args.run = run then yields t.past else []

theorem begun_concat {run : ℕ} (tasks : List LaneTask) {t : LaneTask} (current : t.args.run = run) :
    begun run (tasks ++ [t]) = begun run tasks ++ [t.args.messages] := by
  simp [begun, current]

/-- The lanes do not change when one of them performs an operation. -/
theorem begun_set {run i : ℕ} {tasks : List LaneTask} {t : LaneTask}
    (found : tasks[i]? = some t) (t' : LaneTask) (same : t'.args = t.args) :
    begun run (tasks.set i t') = begun run tasks := by
  induction tasks generalizing i with
  | nil => rfl
  | cons head tasks ih =>
      cases i with
      | zero =>
          cases found
          simp only [begun, List.set_cons_zero, List.filter_cons, same]
          split <;> simp [same]
      | succ i =>
          have rest := ih (by simpa using found)
          simp only [begun, List.set_cons_succ, List.filter_cons] at rest ⊢
          split <;> simp [rest]

/-- What holds between the lanes and the batch of the run in progress. -/
structure Book (config : DispatchConfig) (p : DispatchPool) : Prop where
  le : ∀ t ∈ p.tasks, t.args.run ≤ p.shared.runs
  inFlight : ∀ t ∈ p.tasks, ¬ t.Finished → t.args.run = p.shared.runs
  partition : begun p.shared.runs p.tasks ++ p.shared.run.waiting = lanes p.shared.run.claimed
  nodup : (p.shared.run.claimed.map OutboxMessage.id).Nodup
  pending : ∀ m ∈ p.shared.run.claimed, m.status = .pending
  stored : ∀ m ∈ p.shared.run.claimed,
    ∃ row, p.shared.repo.get m.id = some row ∧ row.Follows m
  waiting : ∀ lane ∈ p.shared.run.waiting, LaneAt config p.shared lane [] lane .untouched
  calls : ∀ call ∈ p.shared.run.calls, call.record ∈ p.shared.run.claimed
  outcomes : p.shared.run.outcomes.Perm (reported p.shared.runs p.tasks)

/-- Every lane keeps to its outline, and the book is right. -/
structure Consistent (config : DispatchConfig) (p : DispatchPool) : Prop where
  holds : (outline config).Holds (system config)
    (fun lane past s _ => Yielded config lane past s) p
  book : Book config p

section Book

variable {config : DispatchConfig} {p : DispatchPool} {t u : LaneTask}

theorem Book.mem_lanes (book : Book config p) (started : t ∈ p.tasks)
    (current : t.args.run = p.shared.runs) : t.args.messages ∈ lanes p.shared.run.claimed := by
  rw [← book.partition]
  refine List.mem_append_left _ (List.mem_map.mpr ⟨t, ?_, rfl⟩)
  exact List.mem_filter.mpr ⟨started, decide_eq_true current⟩

theorem Book.mem_claimed (book : Book config p) (started : t ∈ p.tasks)
    (current : t.args.run = p.shared.runs) {m : OutboxMessage} (inLane : m ∈ t.args.messages) :
    m ∈ p.shared.run.claimed :=
  mem_of_mem_lanes (book.mem_lanes started current) inLane

/-- Two lanes of the run in progress share no message. -/
theorem Book.apart (book : Book config p) {i j : ℕ} (at_i : p.tasks[i]? = some t)
    (at_j : p.tasks[j]? = some u) (distinct : i ≠ j) (current : t.args.run = p.shared.runs)
    (current' : u.args.run = p.shared.runs) : Apart t.args.messages u.args.messages := by
  have pairs := (lanes_apart book.nodup).2
  rw [← book.partition, List.pairwise_append] at pairs
  have pairs := List.pairwise_filter.mp (List.pairwise_map.mp pairs.1)
  rw [List.pairwise_iff_getElem] at pairs
  obtain ⟨i_lt, rfl⟩ := List.getElem?_eq_some_iff.mp at_i
  obtain ⟨j_lt, rfl⟩ := List.getElem?_eq_some_iff.mp at_j
  rcases Nat.lt_or_gt_of_ne distinct with before | after
  · exact pairs i j i_lt j_lt before (decide_eq_true current) (decide_eq_true current')
  · exact (pairs j i j_lt i_lt after (decide_eq_true current') (decide_eq_true current)).symm

/-- A lane that has begun and a lane that waits share no message. -/
theorem Book.apart_waiting (book : Book config p) (started : t ∈ p.tasks)
    (current : t.args.run = p.shared.runs) {lane : List OutboxMessage}
    (waits : lane ∈ p.shared.run.waiting) : Apart t.args.messages lane := by
  have pairs := (lanes_apart book.nodup).2
  rw [← book.partition, List.pairwise_append] at pairs
  refine pairs.2.2 _ (List.mem_map.mpr ⟨t, ?_, rfl⟩) lane waits
  exact List.mem_filter.mpr ⟨started, decide_eq_true current⟩

end Book

/-! ## Every step keeps the book -/

section Steps

variable {config : DispatchConfig} {p : DispatchPool}

theorem outline_refl (lane : DispatchLane) (s : OutboxShared) :
    (outline config).rely lane s s :=
  fun current => ⟨current, fun _ _ => rfl, rfl⟩

theorem outline_trans {lane : DispatchLane} {s s' s'' : OutboxShared}
    (first : (outline config).rely lane s s') (second : (outline config).rely lane s' s'') :
    (outline config).rely lane s s'' := by
  intro current
  obtain ⟨middle, rows', calls'⟩ := second current
  obtain ⟨before, rows, calls⟩ := first middle
  exact ⟨before, fun m member => (rows' m member).trans (rows m member), calls'.trans calls⟩

/-- Inserting under a fresh id. -/
theorem Consistent.insert (c : Consistent config p) {message : OutboxMessage}
    (fresh : p.shared.repo.get message.id = none) :
    Consistent config
      { p with shared := { p.shared with repo := (p.shared.repo.insert message).1 } } := by
  have other : ∀ m ∈ p.shared.run.claimed, m.id ≠ message.id := by
    intro m member same
    obtain ⟨row, found, -⟩ := c.book.stored m member
    rw [same, fresh] at found
    cases found
  have same : ∀ lane, (∀ m ∈ lane, m ∈ p.shared.run.claimed) →
      SameLane lane p.shared { p.shared with repo := (p.shared.repo.insert message).1 } :=
    fun lane inside => ⟨fun m member =>
      InMemoryOutboxRepository.get_write_of_ne (other m (inside m member)), rfl⟩
  constructor
  · rw [← Pool.start_nil p body]
    refine c.holds.start trivial outline_refl outline_trans ?_ (fun _ member => by cases member)
    intro j u at_j current
    exact ⟨current, same _ fun m inLane =>
      c.book.mem_claimed (List.mem_of_getElem? at_j) current inLane⟩
  · refine ⟨c.book.le, c.book.inFlight, c.book.partition, c.book.nodup, c.book.pending, ?_, ?_,
      c.book.calls, c.book.outcomes⟩
    · intro m member
      obtain ⟨row, found, follows⟩ := c.book.stored m member
      exact ⟨row, (InMemoryOutboxRepository.get_write_of_ne (other m member)).trans found, follows⟩
    · intro lane waits
      refine (same lane fun m inLane => ?_).laneAt (c.book.waiting lane waits)
      exact mem_of_mem_lanes (c.book.partition ▸ List.mem_append_right _ waits) inLane

/-- A run claims its batch, when no lane of an earlier one is left. -/
theorem Consistent.dispatch (c : Consistent config p) {limit : ℕ} {now : Time} {order : List Uuid}
    (iterated : order.Perm p.shared.repo.store.keys) (quiescent : p.Quiescent) :
    Consistent config { p with shared := claimBatch p.shared limit now order } := by
  have answered : (p.shared.repo.pending order now limit).2 =
      .ok (claimBatch p.shared limit now order).run.claimed := rfl
  have older : ∀ t ∈ p.tasks, t.args.run ≠ p.shared.runs + 1 := fun t started same => by
    have := c.book.le t started
    omega
  have none : (p.tasks.filter fun t => t.args.run = p.shared.runs + 1) = [] :=
    List.filter_eq_nil_iff.mpr fun t started same => older t started (of_decide_eq_true same)
  constructor
  · rw [← Pool.start_nil p body]
    refine c.holds.start trivial outline_refl outline_trans ?_ (fun _ member => by cases member)
    intro j u at_j current
    exact (older u (List.mem_of_getElem? at_j) current).elim
  · refine ⟨?_, ?_, ?_, ?_, ?_, ?_, ?_, ?_, ?_⟩
    · exact fun t started => Nat.le_succ_of_le (c.book.le t started)
    · exact fun t started unfinished => (unfinished (quiescent t started)).elim
    · show begun (p.shared.runs + 1) p.tasks ++ _ = _
      unfold begun
      rw [none]
      rfl
    · exact InMemoryOutboxRepository.nodup_pending iterated answered
    · intro m member
      obtain ⟨row, -, due, eq⟩ := InMemoryOutboxRepository.mem_pending iterated answered member
      rw [eq]
      exact due.1
    · intro m member
      exact ⟨m, InMemoryOutboxRepository.pending_get_of_mem iterated answered member, rfl, rfl⟩
    · intro lane waits
      have claimed : ∀ m ∈ lane, (claimBatch p.shared limit now order).repo.get m.id = some m :=
        fun m inLane => InMemoryOutboxRepository.pending_get_of_mem iterated answered
          (mem_of_mem_lanes waits inLane)
      refine ⟨rfl, fun _ member => (by cases member), fun m member => ?_, fun m member => ?_, ?_⟩
      · exact claimed m (List.mem_of_mem_head? member)
      · exact claimed m (List.mem_of_mem_tail member)
      · cases lane <;> rfl
    · intro call member
      cases member
    · refine .of_eq (List.flatMap_eq_nil_iff.mpr fun t started => ?_).symm
      exact if_neg (older t started)

/-- The next lane begins. -/
theorem Consistent.nextLane (c : Consistent config p) {lane : List OutboxMessage}
    {waiting : List (List OutboxMessage)} (next : p.shared.run.waiting = lane :: waiting) :
    Consistent config (p.start body
      { p.shared with run := { p.shared.run with waiting := waiting } }
      [⟨p.shared.runs, lane⟩]) := by
  have waits : lane ∈ p.shared.run.waiting := next ▸ List.mem_cons_self
  have inLanes : lane ∈ lanes p.shared.run.claimed :=
    c.book.partition ▸ List.mem_append_right _ waits
  have fresh := c.book.waiting lane waits
  have unmoved : ∀ {l done rest stage}, LaneAt config p.shared l done rest stage →
      LaneAt config { p.shared with run := { p.shared.run with waiting := waiting } }
        l done rest stage := SameLane.laneAt ⟨fun _ _ => rfl, rfl⟩
  constructor
  · refine c.holds.start trivial outline_refl outline_trans ?_ ?_
    · intro j u at_j current
      exact ⟨current, fun _ _ => rfl, rfl⟩
    · intro a member
      rw [List.mem_singleton] at member
      subst member
      exact body_keeps ((lanes_apart c.book.nodup).1 lane inLanes) (unmoved fresh)
  · refine ⟨?_, ?_, ?_, c.book.nodup, c.book.pending, c.book.stored, ?_, c.book.calls, ?_⟩
    · intro t started
      rcases List.mem_append.mp started with old | new
      · exact c.book.le t old
      · obtain rfl := List.mem_singleton.mp new
        exact le_rfl
    · intro t started unfinished
      rcases List.mem_append.mp started with old | new
      · exact c.book.inFlight t old unfinished
      · obtain rfl := List.mem_singleton.mp new
        rfl
    · have partition := c.book.partition
      rw [next] at partition
      refine Eq.trans ?_ partition
      have grown : begun p.shared.runs (p.tasks ++
          [⟨⟨p.shared.runs, lane⟩, [], body ⟨p.shared.runs, lane⟩⟩]) =
            begun p.shared.runs p.tasks ++ [lane] := begun_concat p.tasks rfl
      show begun p.shared.runs (p.tasks ++ [_]) ++ waiting = _
      exact (congrArg (· ++ waiting) grown).trans (List.append_assoc _ _ _)
    · intro other member
      exact unmoved (c.book.waiting other (next ▸ List.mem_cons_of_mem _ member))
    · show p.shared.run.outcomes.Perm (reported p.shared.runs (p.tasks ++ [_]))
      unfold reported
      rw [List.flatMap_append, List.flatMap_singleton, if_pos rfl]
      exact c.book.outcomes.trans (.of_eq (List.append_nil _).symm)

/-- A lane performs its next operation. -/
theorem Consistent.step (c : Consistent config p) {i : ℕ}
    {t : LaneTask} {op : DispatchOp}
    {next : op.Reply → DispatchM Unit} (found : p.tasks[i]? = some t)
    (awaits : t.rest = .await op next) {choice : DispatchChoice} {s' : OutboxShared}
    {reply : op.Reply} (served : serve config p.shared choice op = some (s', reply)) :
    Consistent config (p.advance i t ⟨choice, op, reply⟩ s' (next reply)) := by
  have started : t ∈ p.tasks := List.mem_of_getElem? found
  have current : t.args.run = p.shared.runs := by
    refine c.book.inFlight t started fun finished => ?_
    rw [Task.Finished, awaits] at finished
    exact finished
  obtain ⟨quiet, ready⟩ := c.holds.pre found awaits
  have effect := serve_effect (ready current) served
  have inside : ∀ u ∈ p.tasks.set i ⟨t.args, ⟨choice, op, reply⟩ :: t.past, next reply⟩,
      ∃ u' ∈ p.tasks, u'.args = u.args ∧ (u'.Finished → u.Finished) := by
    intro u member
    rcases List.mem_or_eq_of_mem_set member with old | rfl
    · exact ⟨u, old, rfl, id⟩
    · refine ⟨t, started, rfl, fun finished => ?_⟩
      rw [Task.Finished, awaits] at finished
      exact finished.elim
  constructor
  · refine c.holds.advance found awaits trivial served trivial outline_refl outline_trans ?_
    intro j u distinct at_j current'
    rw [effect.runs] at current'
    exact ⟨current', effect.sameLane (c.book.apart found at_j distinct.symm current current')⟩
  · refine ⟨?_, ?_, ?_, ?_, ?_, ?_, ?_, ?_, ?_⟩
    · intro u member
      obtain ⟨u', old, same, -⟩ := inside u member
      rw [← same, Pool.advance_shared, effect.runs]
      exact c.book.le u' old
    · intro u member unfinished
      obtain ⟨u', old, same, still⟩ := inside u member
      rw [← same, Pool.advance_shared, effect.runs]
      exact c.book.inFlight u' old fun finished => unfinished (still finished)
    · have lanesKept : begun p.shared.runs
          (p.tasks.set i ⟨t.args, ⟨choice, op, reply⟩ :: t.past, next reply⟩) =
            begun p.shared.runs p.tasks := begun_set found _ rfl
      rw [Pool.advance_shared, effect.runs, effect.waiting, effect.claimed, Pool.advance_tasks,
        lanesKept]
      exact c.book.partition
    · rw [Pool.advance_shared, effect.claimed]
      exact c.book.nodup
    · rw [Pool.advance_shared, effect.claimed]
      exact c.book.pending
    · rw [Pool.advance_shared, effect.claimed]
      intro m member
      obtain ⟨row, stored, follows⟩ := c.book.stored m member
      obtain ⟨row', stored', follows'⟩ := effect.stored m.id row stored
      exact ⟨row', stored', follows'.trans follows⟩
    · rw [Pool.advance_shared, effect.waiting]
      intro lane waits
      exact (effect.sameLane (c.book.apart_waiting started current waits)).laneAt
        (c.book.waiting lane waits)
    · rw [Pool.advance_shared, effect.claimed]
      obtain ⟨added, calls, own⟩ := effect.calls
      rw [calls]
      intro call member
      rcases List.mem_append.mp member with old | new
      · exact c.book.calls call old
      · exact c.book.mem_claimed started current (own call new)
    · rw [Pool.advance_shared, effect.runs, effect.outcomes]
      refine (c.book.outcomes.append_right _).trans (flatMap_set_perm found _ ?_).symm
      simp only [current, if_true, quiet, List.nil_append]
      simp only [yields, List.filterMap_cons] at quiet ⊢
      rw [quiet]
      cases yielded ⟨choice, op, reply⟩ <;> rfl

/-- Every reachable state of a single dispatcher is consistent. -/
theorem consistent_of_reaches {claimLease : ChronoDuration}
    (reached : (system config).Reaches (Single config) (initial claimLease) p) :
    Consistent config p := by
  refine reached.invariant ?_ fun {q r action} _ c side stepped => ?_
  · refine ⟨⟨trivial, fun _ _ found => by cases found⟩, ?_⟩
    exact ⟨fun _ member => (by cases member), fun _ member => (by cases member), rfl, .nil,
      fun _ member => (by cases member), fun _ member => (by cases member),
      fun _ member => (by cases member), fun _ member => (by cases member), .nil⟩
  · obtain ⟨arrival, shared, args, rfl, arrived, rfl⟩ |
      ⟨i, choice, t, op, next, shared, reply, rfl, found, awaits, served, rfl⟩ :=
      System.step_cases stepped
    · cases arrival with
      | insert message =>
          cases arrived
          rw [Pool.start_nil]
          exact c.insert side
      | dispatch limit now order =>
          simp only [system, arrive] at arrived
          split at arrived
          · next iterated =>
            cases arrived
            rw [Pool.start_nil]
            exact c.dispatch iterated side.1
          · cases arrived
      | nextLane =>
          simp only [system, arrive] at arrived
          split at arrived
          · cases arrived
          · next lane waiting waits =>
            cases arrived
            exact c.nextLane waits
    · exact c.step found awaits served

/-- What a step of a single dispatcher does to the shared state. -/
theorem shared_cases {q : DispatchPool} {action : Action DispatchChoice OutboxArrival}
    (c : Consistent config p) (single : Single config p action)
    (stepped : (system config).step p action = some q) :
    (∃ message, action = .arrive (.insert message) ∧ p.shared.repo.get message.id = none ∧
      q = { p with shared := { p.shared with repo := p.shared.repo.write message } }) ∨
    (∃ limit now order, action = .arrive (.dispatch limit now order) ∧
      order.Perm p.shared.repo.store.keys ∧ p.Quiescent ∧ p.shared.run.waiting = [] ∧
      q = { p with shared := claimBatch p.shared limit now order }) ∨
    (∃ lane waiting, action = .arrive .nextLane ∧ p.shared.run.waiting = lane :: waiting ∧
      q.shared = { p.shared with run := { p.shared.run with waiting := waiting } }) ∨
    (∃ i choice lane op reply, action = .step i choice ∧ ¬ p.Quiescent ∧
      lane ∈ lanes p.shared.run.claimed ∧ Ready config p.shared lane op ∧
      serve config p.shared choice op = some (q.shared, reply) ∧
      Effect lane p.shared q.shared ⟨choice, op, reply⟩) := by
  obtain ⟨arrival, shared, args, rfl, arrived, rfl⟩ |
    ⟨i, choice, t, op, next, shared, reply, rfl, found, awaits, served, rfl⟩ :=
    System.step_cases stepped
  · cases arrival with
    | insert message =>
        cases arrived
        rw [Pool.start_nil]
        exact .inl ⟨message, rfl, single, rfl⟩
    | dispatch limit now order =>
        simp only [system, arrive] at arrived
        split at arrived
        · next iterated =>
          cases arrived
          rw [Pool.start_nil]
          exact .inr (.inl ⟨limit, now, order, rfl, iterated, single.1, single.2, rfl⟩)
        · cases arrived
    | nextLane =>
        simp only [system, arrive] at arrived
        split at arrived
        · cases arrived
        · next lane waiting waits =>
          cases arrived
          exact .inr (.inr (.inl ⟨lane, waiting, rfl, waits, rfl⟩))
  · have started : t ∈ p.tasks := List.mem_of_getElem? found
    have unfinished : ¬ t.Finished := fun finished => by
      rw [Task.Finished, awaits] at finished
      exact finished
    have current : t.args.run = p.shared.runs := c.book.inFlight t started unfinished
    have ready := (c.holds.pre found awaits).2 current
    exact .inr (.inr (.inr ⟨i, choice, t.args.messages, op, reply, rfl,
      fun quiescent => unfinished (quiescent t started),
      c.book.mem_lanes started current, ready, served, serve_effect ready served⟩))

end Steps

end OutboxDispatcher

end Pharos
