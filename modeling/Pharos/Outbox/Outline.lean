import Pharos.Async.Outline
import Pharos.Outbox.Lanes

/-!
# The proof outline of a lane

A lane owns the rows of its messages: no other lane of its run touches them.  `LaneAt`
says where a lane is: the messages it delivered, and the stage of the message it is at;
everything behind that message is as it was claimed.  Each operation of a lane is
annotated with the stage it finds (`Ready`), and the rely condition is that the rows
and the publish calls of the lane's own messages stay as they are while its run lasts.
-/

namespace Pharos

namespace OutboxDispatcher

open Async

/-- How far the dispatch of one message has come. -/
inductive Stage where
  | untouched
  | recorded
  | accepted
  | refused (error : MessagingError)
  | postponed (error : MessagingError)
  | failed (error : MessagingError)

/-- The publish calls made for a message at a stage. -/
def Stage.calls (m : OutboxMessage) : Stage → List PublishCall
  | .untouched | .recorded => []
  | .accepted => [⟨m, .ok ()⟩]
  | .refused error | .postponed error | .failed error => [⟨m, .error error⟩]

/-- The stage a publish call leads to. -/
def Stage.ofOutcome : Except MessagingError Unit → Stage
  | .ok () => .accepted
  | .error error => .refused error

/-- The stored row of the claimed message `m` at a stage. -/
def RowAt (config : DispatchConfig) (s : OutboxShared) (m : OutboxMessage) : Stage → Prop
  | .untouched => s.repo.get m.id = some m
  | .recorded | .accepted | .refused _ => ∃ now, s.repo.get m.id = some (m.recordAttempt now)
  | .postponed error => (∃ drawn delay, config.retry.decideFor (m.attempts + 1) error.failureKind
        drawn = .retryAfter delay) ∧
      ∃ now next updated, s.repo.get m.id =
        some { m.recordAttempt now with nextAttemptAt := next, updatedAt := updated }
  | .failed error => (∃ drawn, config.retry.decideFor (m.attempts + 1) error.failureKind
        drawn = .deadLetter) ∧
      ∃ now now', s.repo.get m.id = some ((m.recordAttempt now).markFailed now' error.toText)

/-- The message was published and marked so. -/
def Delivered (s : OutboxShared) (m : OutboxMessage) : Prop :=
  ∃ now now', s.repo.get m.id = some ((m.recordAttempt now).markPublished now')

/-- The publish calls of the run for messages of `lane`. -/
def laneCalls (s : OutboxShared) (lane : List OutboxMessage) : List PublishCall :=
  s.run.calls.filter fun call => decide (call.record.id ∈ lane.map OutboxMessage.id)

/-- The lane delivered `done` and is at the given stage of the first message of `rest`. -/
structure LaneAt (config : DispatchConfig) (s : OutboxShared)
    (lane done rest : List OutboxMessage) (stage : Stage) : Prop where
  split : lane = done ++ rest
  delivered : ∀ m ∈ done, Delivered s m
  head : ∀ m ∈ rest.head?, RowAt config s m stage
  behind : ∀ m ∈ rest.tail, s.repo.get m.id = some m
  calls : laneCalls s lane = done.map (⟨·, .ok ()⟩) ++ rest.head?.elim [] stage.calls

/-- The lane is over: everything was delivered, or it stopped at the first message that was
not. -/
def Ended (config : DispatchConfig) (s : OutboxShared) (lane : List OutboxMessage)
    (published : ℕ) : Prop :=
  ∃ done rest stage, LaneAt config s lane done rest stage ∧ published = done.length ∧
    (rest = [] ∨ ∃ error, stage = .postponed error ∨ stage = .failed error)

/-- What an operation of a lane finds. -/
def Ready (config : DispatchConfig) (s : OutboxShared) (lane : List OutboxMessage) :
    DispatchOp → Prop
  | .recordAttempt id => ∃ done m behind, m.id = id ∧
      LaneAt config s lane done (m :: behind) .untouched
  | .publish record => ∃ done behind, LaneAt config s lane done (record :: behind) .recorded
  | .markPublished id => ∃ done m behind, m.id = id ∧
      LaneAt config s lane done (m :: behind) .accepted
  | .decideFor attempt failure => ∃ done m behind error, m.attempts + 1 = attempt ∧
      error.failureKind = failure ∧ LaneAt config s lane done (m :: behind) (.refused error)
  | .markFailed id text => ∃ done m behind error, m.id = id ∧ error.toText = text ∧
      (∃ drawn, config.retry.decideFor (m.attempts + 1) error.failureKind drawn = .deadLetter) ∧
      LaneAt config s lane done (m :: behind) (.refused error)
  | .scheduleRetry id delay => ∃ done m behind error, m.id = id ∧
      (∃ drawn, config.retry.decideFor (m.attempts + 1) error.failureKind drawn =
        .retryAfter delay) ∧
      LaneAt config s lane done (m :: behind) (.refused error)
  | .yield published _ => Ended config s lane published

/-- The rows and the publish calls of `lane` are the same. -/
def SameLane (lane : List OutboxMessage) (s s' : OutboxShared) : Prop :=
  (∀ m ∈ lane, s'.repo.get m.id = s.repo.get m.id) ∧ laneCalls s' lane = laneCalls s lane

/-- The outcome an operation yielded to the run. -/
def yielded : DispatchEvent → Option (ℕ × List OutboxDispatchError)
  | ⟨_, .yield published errors, _⟩ => some (published, errors)
  | _ => none

/-- The outcomes a lane yielded. -/
def yields (past : List DispatchEvent) : List (ℕ × List OutboxDispatchError) :=
  past.filterMap yielded

/-- The annotations are about the run in progress: a lane knows nothing about later runs,
and a lane in flight belongs to the run in progress. -/
def outline (config : DispatchConfig) :
    Outline dispatchSignature OutboxShared DispatchChoice DispatchLane where
  inv _ := True
  rely lane s s' := lane.run = s'.runs → lane.run = s.runs ∧ SameLane lane.messages s s'
  allowed _ := True
  pre lane past s op := yields past = [] ∧
    (lane.run = s.runs → Ready config s lane.messages op)

/-- What a lane leaves behind. -/
def Yielded (config : DispatchConfig) (lane : DispatchLane) (past : List DispatchEvent)
    (s : OutboxShared) : Prop :=
  ∃ published errors, yields past = [(published, errors)] ∧
    (lane.run = s.runs → Ended config s lane.messages published)

/-! ## What a lane's own operations do to it -/

section LaneAt

variable {config : DispatchConfig} {s s' : OutboxShared}
  {lane done rest behind : List OutboxMessage} {m : OutboxMessage} {stage stage' : Stage}

theorem laneCalls_concat (s : OutboxShared) (call : PublishCall) (lane : List OutboxMessage) :
    laneCalls { s with run := { s.run with calls := s.run.calls ++ [call] } } lane =
      laneCalls s lane ++ if call.record.id ∈ lane.map OutboxMessage.id then [call] else [] := by
  unfold laneCalls
  rw [List.filter_append]
  split
  · next own => rw [List.filter_cons_of_pos (by simpa using own), List.filter_nil]
  · next other => rw [List.filter_cons_of_neg (by simpa using other), List.filter_nil]

theorem SameLane.laneAt (same : SameLane lane s s') (at_ : LaneAt config s lane done rest stage) :
    LaneAt config s' lane done rest stage := by
  have inDone : ∀ m ∈ done, m ∈ lane := fun m member => at_.split ▸ List.mem_append_left _ member
  have inRest : ∀ m ∈ rest, m ∈ lane := fun m member => at_.split ▸ List.mem_append_right _ member
  refine ⟨at_.split, fun m member => ?_, fun m member => ?_, fun m member => ?_, ?_⟩
  · unfold Delivered
    rw [same.1 m (inDone m member)]
    exact at_.delivered m member
  · have row := at_.head m member
    have eq := same.1 m (inRest m (List.mem_of_mem_head? member))
    cases stage <;> simpa only [RowAt, eq] using row
  · rw [same.1 m (inRest m (List.mem_of_mem_tail member))]
    exact at_.behind m member
  · rw [same.2]
    exact at_.calls

/-- Rows of the lane other than the one it is at are untouched by a write to that one. -/
theorem LaneAt.write (at_ : LaneAt config s lane done (m :: behind) stage)
    (nodup : (lane.map OutboxMessage.id).Nodup) (row : OutboxMessage) (same : row.id = m.id) :
    (∀ d ∈ done, (s.repo.write row).get d.id = s.repo.get d.id) ∧
      ∀ b ∈ behind, (s.repo.write row).get b.id = s.repo.get b.id := by
  rw [at_.split, List.map_append, List.map_cons, List.nodup_append] at nodup
  obtain ⟨-, tail, apart⟩ := nodup
  rw [List.nodup_cons] at tail
  refine ⟨fun d member => ?_, fun b member => ?_⟩
  · refine InMemoryOutboxRepository.get_write_of_ne fun eq => ?_
    exact apart d.id (List.mem_map_of_mem member) m.id List.mem_cons_self (eq.trans same)
  · refine InMemoryOutboxRepository.get_write_of_ne fun eq => tail.1 ?_
    rw [← same, ← eq]
    exact List.mem_map_of_mem member

/-- The message the lane is at moves to another stage without a publish call. -/
theorem LaneAt.advance (at_ : LaneAt config s lane done (m :: behind) stage)
    (nodup : (lane.map OutboxMessage.id).Nodup) {row : OutboxMessage} (same : row.id = m.id)
    (moved : RowAt config { s with repo := s.repo.write row } m stage')
    (silent : stage'.calls m = stage.calls m) :
    LaneAt config { s with repo := s.repo.write row } lane done (m :: behind) stage' := by
  have others := at_.write nodup row same
  refine ⟨at_.split, fun d member => ?_, fun h member => ?_, fun b member => ?_, ?_⟩
  · unfold Delivered
    rw [others.1 d member]
    exact at_.delivered d member
  · cases member
    exact moved
  · exact (others.2 b member).trans (at_.behind b member)
  · exact at_.calls.trans (by simp [silent])

/-- The message the lane is at is marked as published, and the lane goes on to the next. -/
theorem LaneAt.deliver (at_ : LaneAt config s lane done (m :: behind) .accepted)
    (nodup : (lane.map OutboxMessage.id).Nodup) {now now' : Time} :
    LaneAt config { s with repo := s.repo.write ((m.recordAttempt now).markPublished now') } lane
      (done ++ [m]) behind .untouched := by
  have others := at_.write nodup ((m.recordAttempt now).markPublished now') rfl
  refine ⟨by simp [at_.split], fun d member => ?_, fun b member => ?_, fun b member => ?_, ?_⟩
  · rcases List.mem_append.mp member with earlier | last
    · unfold Delivered
      rw [others.1 d earlier]
      exact at_.delivered d earlier
    · rw [List.mem_singleton] at last
      subst last
      exact ⟨now, now', InMemoryOutboxRepository.get_write_self _⟩
  · have inBehind := List.mem_of_mem_head? member
    exact (others.2 b inBehind).trans (at_.behind b inBehind)
  · have inBehind := List.mem_of_mem_tail member
    exact (others.2 b inBehind).trans (at_.behind b inBehind)
  · refine at_.calls.trans ?_
    cases behind <;> simp [Stage.calls]

/-- The message the lane is at is handed to the publisher. -/
theorem LaneAt.call (at_ : LaneAt config s lane done (m :: behind) .recorded)
    {outcome : Except MessagingError Unit} (moved : RowAt config s m stage')
    (called : stage'.calls m = [⟨m, outcome⟩]) :
    LaneAt config { s with run := { s.run with calls := s.run.calls ++ [⟨m, outcome⟩] } } lane done
      (m :: behind) stage' := by
  have own : m.id ∈ lane.map OutboxMessage.id := by
    rw [at_.split]
    exact List.mem_map_of_mem (List.mem_append_right _ List.mem_cons_self)
  refine ⟨at_.split, at_.delivered, fun h member => ?_, at_.behind, ?_⟩
  · cases member
    cases stage' <;> exact moved
  · rw [laneCalls_concat, if_pos own, at_.calls, List.head?_cons, Option.elim_some,
      Option.elim_some, called]
    simp only [Stage.calls, List.append_nil]

/-! Each operation takes the lane from the stage it is annotated with to the next. -/

variable {choice : DispatchChoice} {error : MessagingError}

theorem serve_runs {op : DispatchOp} {reply : op.Reply}
    (served : serve config s choice op = some (s', reply)) : s'.runs = s.runs := by
  cases op <;> cases served <;> rfl

theorem LaneAt.recordAttempt {reply : Except OutboxError Unit}
    (at_ : LaneAt config s lane done (m :: behind) .untouched)
    (nodup : (lane.map OutboxMessage.id).Nodup)
    (served : serve config s choice (.recordAttempt m.id) = some (s', reply)) :
    reply = .ok () ∧ LaneAt config s' lane done (m :: behind) .recorded := by
  have stored : s.repo.get m.id = some m := at_.head m rfl
  simp only [serve, InMemoryOutboxRepository.recordAttempt,
    InMemoryOutboxRepository.update_eq stored] at served
  cases served
  exact ⟨rfl, at_.advance nodup rfl
    ⟨choice.now, InMemoryOutboxRepository.get_write_self (m.recordAttempt choice.now)⟩ rfl⟩

theorem LaneAt.publish {reply : Except MessagingError Unit}
    (at_ : LaneAt config s lane done (m :: behind) .recorded)
    (served : serve config s choice (.publish m) = some (s', reply)) :
    LaneAt config s' lane done (m :: behind) (.ofOutcome reply) := by
  have row := at_.head m rfl
  cases served
  refine at_.call ?_ ?_
  · cases choice.published <;> exact row
  · cases choice.published <;> rfl

theorem LaneAt.markPublished {reply : Except OutboxError Unit}
    (at_ : LaneAt config s lane done (m :: behind) .accepted)
    (nodup : (lane.map OutboxMessage.id).Nodup)
    (served : serve config s choice (.markPublished m.id) = some (s', reply)) :
    reply = .ok () ∧ LaneAt config s' lane (done ++ [m]) behind .untouched := by
  obtain ⟨now, stored⟩ := at_.head m rfl
  simp only [serve, InMemoryOutboxRepository.markPublished,
    InMemoryOutboxRepository.update_eq stored] at served
  cases served
  exact ⟨rfl, at_.deliver nodup⟩

theorem LaneAt.markFailed {reply : Except OutboxError Unit}
    (at_ : LaneAt config s lane done (m :: behind) (.refused error))
    (nodup : (lane.map OutboxMessage.id).Nodup)
    (decided : ∃ drawn, config.retry.decideFor (m.attempts + 1) error.failureKind drawn =
      .deadLetter)
    (served : serve config s choice (.markFailed m.id error.toText) = some (s', reply)) :
    LaneAt config s' lane done (m :: behind) (.failed error) := by
  obtain ⟨now, stored⟩ := at_.head m rfl
  simp only [serve, InMemoryOutboxRepository.markFailed,
    InMemoryOutboxRepository.update_eq stored] at served
  cases served
  exact at_.advance nodup rfl ⟨decided, now, choice.now,
    InMemoryOutboxRepository.get_write_self ((m.recordAttempt now).markFailed _ _)⟩ rfl

theorem LaneAt.scheduleRetry {reply : Except OutboxError Unit} {delay : Duration}
    (at_ : LaneAt config s lane done (m :: behind) (.refused error))
    (nodup : (lane.map OutboxMessage.id).Nodup)
    (decided : ∃ drawn, config.retry.decideFor (m.attempts + 1) error.failureKind drawn =
      .retryAfter delay)
    (served : serve config s choice (.scheduleRetry m.id delay) = some (s', reply)) :
    LaneAt config s' lane done (m :: behind) (.postponed error) := by
  obtain ⟨drawn, decided⟩ := decided
  obtain ⟨now, stored⟩ := at_.head m rfl
  simp only [serve, InMemoryOutboxRepository.scheduleRetry, stored] at served
  split at served
  · -- a delay out of range leaves the row as it is, with its lease
    cases served
    refine ⟨at_.split, at_.delivered, fun h member => ?_, at_.behind, at_.calls⟩
    cases member
    exact ⟨⟨drawn, delay, decided⟩, now, m.nextAttemptAt, now, stored⟩
  · cases served
    exact at_.advance nodup rfl ⟨⟨drawn, delay, decided⟩, now, _, choice.now',
      InMemoryOutboxRepository.get_write_self
        { m.recordAttempt now with nextAttemptAt := _, updatedAt := choice.now' }⟩ rfl

end LaneAt

/-! ## The walk through a lane -/

section Walk

variable {config : DispatchConfig} {α : Type} {lane : DispatchLane}
  {post : List DispatchEvent → OutboxShared → α → Prop} {past : List DispatchEvent}
  {s : OutboxShared} {known : Prop} {done rest behind : List OutboxMessage} {m : OutboxMessage}
  {stage : Stage}

/-- `program` keeps to the outline of its lane. -/
abbrev Keeps (config : DispatchConfig) (lane : DispatchLane)
    (post : List DispatchEvent → OutboxShared → α → Prop) (program : DispatchM α)
    (past : List DispatchEvent) (s : OutboxShared) : Prop :=
  Safe (serve config) (outline config) lane post program past s

/-- While its run lasts, the lane is where `LaneAt` says, and `known` holds. -/
def Holding (config : DispatchConfig) (lane : DispatchLane) (s : OutboxShared) (known : Prop)
    (done rest : List OutboxMessage) (stage : Stage) : Prop :=
  lane.run = s.runs → known ∧ LaneAt config s lane.messages done rest stage

theorem keeps_op {op : DispatchOp} {next} (quiet : yields past = [])
    (held : Holding config lane s known done rest stage)
    (ready : ∀ s, LaneAt config s lane.messages done rest stage →
      Ready config s lane.messages op)
    (after : ∀ s' choice s'' reply, Holding config lane s' known done rest stage →
      serve config s' choice op = some (s'', reply) →
        Keeps config lane post (next reply) (⟨choice, op, reply⟩ :: past) s'') :
    Keeps config lane post (await op >>= next) past s := by
  have moved : ∀ s', (outline config).rely lane s s' →
      Holding config lane s' known done rest stage := by
    intro s' rely current
    obtain ⟨before, same⟩ := rely current
    obtain ⟨knows, at_⟩ := held before
    exact ⟨knows, same.laneAt at_⟩
  refine Safe.call (fun s' _ rely =>
    ⟨quiet, fun current => ready s' (moved s' rely current).2⟩) ?_
  intro s' choice s'' reply _ rely _ served
  exact after s' choice s'' reply (moved s' rely) served

/-- The operation took the lane to another stage. -/
theorem Holding.serve {s' : OutboxShared} {choice : DispatchChoice} {op : DispatchOp}
    {reply : op.Reply} {known' : Prop} {done' rest' : List OutboxMessage} {stage' : Stage}
    (held : Holding config lane s known done rest stage)
    (served : serve config s choice op = some (s', reply))
    (next : LaneAt config s lane.messages done rest stage →
      known' ∧ LaneAt config s' lane.messages done' rest' stage') :
    Holding config lane s' (known ∧ known') done' rest' stage' := by
  intro current
  obtain ⟨knows, at_⟩ := held (current.trans (serve_runs served))
  obtain ⟨knows', at'⟩ := next at_
  exact ⟨⟨knows, knows'⟩, at'⟩

theorem Holding.mono {known' : Prop} (held : Holding config lane s known done rest stage)
    (weaker : known → known') : Holding config lane s known' done rest stage :=
  fun current => (held current).imp weaker id

/-- What `dispatch_one` establishes for the message the lane is at. -/
def Tried (config : DispatchConfig) (lane : DispatchLane) (known : Prop)
    (done : List OutboxMessage) (m : OutboxMessage) (behind : List OutboxMessage)
    (past : List DispatchEvent) (s : OutboxShared) (published : ℕ) : Bool → Prop
  | true => yields past = [] ∧
      Holding config lane s (known ∧ published = 1) (done ++ [m]) behind .untouched
  | false => yields past = [] ∧ ∃ stage, (∃ error, stage = .postponed error ∨ stage = .failed error) ∧
      Holding config lane s (known ∧ published = 0) done (m :: behind) stage

theorem dispatchOne_keeps (nodup : (lane.messages.map OutboxMessage.id).Nodup)
    (quiet : yields past = [])
    (held : Holding config lane s known done (m :: behind) .untouched) :
    Keeps config lane
      (fun past' s' out => Tried config lane known done m behind past' s' out.1 out.2.2)
      (dispatchOne m) past s := by
  unfold dispatchOne
  refine keeps_op quiet held (fun s at_ => ⟨done, m, behind, rfl, at_⟩) ?_
  intro s₁ c₁ s₂ counted held₁ served
  have recorded := held₁.serve served fun at_ => at_.recordAttempt nodup served
  cases counted with
  | error error =>
    -- the row of a claimed message is there while its run lasts
    refine ⟨quiet, .failed (.publish ""), ⟨_, .inr rfl⟩, fun current => ?_⟩
    cases (recorded current).1.2
  | ok _ =>
    refine keeps_op quiet recorded (fun s at_ => ⟨done, behind, at_⟩) ?_
    intro s₃ c₃ s₄ outcome held₃ served
    have called := (held₃.mono And.left).serve served fun at_ => ⟨trivial, at_.publish served⟩
    cases outcome with
    | ok _ =>
      refine keeps_op quiet called (fun s at_ => ⟨done, m, behind, rfl, at_⟩) ?_
      intro s₅ c₅ s₆ marked held₅ served
      have delivered := (held₅.mono And.left).serve served fun at_ => at_.markPublished nodup served
      cases marked with
      | ok _ => exact ⟨quiet, delivered.mono fun knows => ⟨knows.1, rfl⟩⟩
      | error error => exact ⟨quiet, fun current => by cases (delivered current).1.2⟩
    | error error =>
      refine keeps_op quiet called (fun s at_ => ⟨done, m, behind, error, rfl, rfl, at_⟩) ?_
      intro s₅ c₅ s₆ decision held₅ served
      have decided : config.retry.decideFor (m.attempts + 1) error.failureKind c₅.drawn =
          decision := by
        cases served
        rfl
      have refused : Holding config lane s₆ known done (m :: behind) (.refused error) := by
        cases served
        exact held₅.mono And.left
      cases decision with
      | deadLetter =>
        refine keeps_op quiet refused
          (fun s at_ => ⟨done, m, behind, error, rfl, rfl, ⟨_, decided⟩, at_⟩) ?_
        intro s₇ c₇ s₈ marked held₇ served
        have failed := held₇.serve served fun at_ =>
          ⟨trivial, at_.markFailed nodup ⟨_, decided⟩ served⟩
        cases marked <;>
          exact ⟨quiet, _, ⟨error, .inr rfl⟩, failed.mono fun knows => ⟨knows.1, rfl⟩⟩
      | retryAfter delay =>
        refine keeps_op quiet refused
          (fun s at_ => ⟨done, m, behind, error, rfl, ⟨_, decided⟩, at_⟩) ?_
        intro s₇ c₇ s₈ scheduled held₇ served
        have postponed := held₇.serve served fun at_ =>
          ⟨trivial, at_.scheduleRetry nodup ⟨_, decided⟩ served⟩
        cases scheduled <;>
          exact ⟨quiet, _, ⟨error, .inl rfl⟩, postponed.mono fun knows => ⟨knows.1, rfl⟩⟩

/-- A lane counts what it delivered and stops at the first message it could not deliver. -/
theorem dispatchLane_keeps (nodup : (lane.messages.map OutboxMessage.id).Nodup) (published : ℕ)
    (errors : List OutboxDispatchError) (quiet : yields past = [])
    (held : Holding config lane s (published = done.length) done rest .untouched) :
    Keeps config lane
      (fun past' s' out => yields past' = [] ∧
        (lane.run = s'.runs → Ended config s' lane.messages out.1))
      (dispatchLane rest published errors) past s := by
  induction rest generalizing past s done published errors with
  | nil =>
      refine ⟨quiet, fun current => ?_⟩
      obtain ⟨count, at_⟩ := held current
      exact ⟨done, [], .untouched, at_, count, .inl rfl⟩
  | cons m behind ih =>
      unfold dispatchLane
      refine Safe.bind (dispatchOne_keeps nodup quiet held) ?_
      rintro past' s' ⟨p, e, delivered⟩ tried
      cases delivered with
      | true =>
          refine ih _ _ tried.1 (tried.2.mono fun ⟨count, one⟩ => ?_)
          dsimp only at one
          rw [count, one, List.length_append, List.length_singleton]
      | false =>
          obtain ⟨quiet', stage, stopped, held'⟩ := tried
          refine ⟨quiet', fun current => ?_⟩
          obtain ⟨⟨count, none⟩, at_⟩ := held' current
          dsimp only at none
          exact ⟨done, m :: behind, stage, at_, by rw [count, none, Nat.add_zero], .inr stopped⟩

/-- A lane that starts with its messages as they were claimed keeps to its outline. -/
theorem body_keeps (nodup : (lane.messages.map OutboxMessage.id).Nodup)
    (fresh : LaneAt config s lane.messages [] lane.messages .untouched) :
    Keeps config lane (fun past' s' _ => Yielded config lane past' s') (body lane) [] s := by
  unfold body
  refine Safe.bind (dispatchLane_keeps nodup 0 [] rfl fun _ => ⟨rfl, fresh⟩) ?_
  rintro past s₁ ⟨published, errors⟩ ⟨quiet, ended⟩
  intro s₂ _ rely
  have still : lane.run = s₂.runs → Ended config s₂ lane.messages published := by
    intro current
    obtain ⟨before, same⟩ := rely current
    obtain ⟨done, rest, stage, at_, count, stopped⟩ := ended before
    exact ⟨done, rest, stage, same.laneAt at_, count, stopped⟩
  refine ⟨⟨quiet, still⟩, fun choice s₃ reply _ served => ?_⟩
  refine ⟨published, errors, ?_, fun current => ?_⟩
  · simp only [yields, List.filterMap_cons, yielded]
    exact congrArg _ quiet
  · obtain ⟨done, rest, stage, at_, count, stopped⟩ := still (current.trans (serve_runs served))
    cases served
    exact ⟨done, rest, stage, ⟨at_.split, at_.delivered, fun h member => by
      have row := at_.head h member
      cases stage <;> exact row, at_.behind, at_.calls⟩, count, stopped⟩

end Walk

end OutboxDispatcher

end Pharos
