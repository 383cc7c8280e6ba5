import Pharos.Async.Outline
import Pharos.Saga.Runner

/-!
# The runner's proof outline

What holds whenever a runner call touches the store or the outbox, for any number
of concurrent calls.  A task's own past determines everything a specification
needs: the transition it computed last (`decision`), the batch of messages an event
of it commits to (`batch`), and the messages it still owes the outbox (`owed`).

The central annotation is `Persists`: a `save` writes the effect of the transition
that was computed last, that transition was computed from an observed snapshot of
the row, and the snapshot was running.  The rely condition is `Async.Later` on every
row, so the snapshot is still the stored row whenever its version is.
-/

namespace Pharos

namespace SagaRunner

open Async

variable {I St E C ε : Type}

/-! ## What a task's past says -/

/-- The transition an event computed, and the instance it was computed from. -/
def decides : SagaEvent I St E C ε → Option (Option (SagaInstance I St) × SagaTransition St C)
  | ⟨_, .react current _, .ok transition⟩ => some (current, transition)
  | ⟨_, .onTimeout inst, .ok transition⟩ => some (some inst, transition)
  | _ => none

/-- The transition the task computed last. -/
def decision (past : List (SagaEvent I St E C ε)) :
    Option (Option (SagaInstance I St) × SagaTransition St C) :=
  past.findSome? decides

variable (runner : SagaRunner I St E C ε)

/-- The messages the task commits to enqueue with `event`: those of the transition a
successful save persisted, or of a failure that found no instance to persist. -/
def batch (past : List (SagaEvent I St E C ε)) : SagaEvent I St E C ε → Option (List Message)
  | ⟨_, .save _, .ok ()⟩ =>
      some (((decision past).elim [] (·.2.commands)).map runner.mapCommand)
  | ⟨_, .react none _, .ok (.fail _ commands)⟩ => some (commands.map runner.mapCommand)
  | _ => none

/-- The batches the task committed to, latest first. -/
def batches : List (SagaEvent I St E C ε) → List (List Message)
  | [] => []
  | event :: past => (runner.batch past event).toList ++ batches past

/-- The messages the task has committed to and not enqueued yet; a refused insert
abandons the rest of its batch. -/
def owed : List (SagaEvent I St E C ε) → List Message
  | [] => []
  | event :: past =>
      match runner.batch past event with
      | some messages => messages
      | none =>
          match event with
          | ⟨_, .insert _, .ok ()⟩ => (owed past).tail
          | ⟨_, .insert _, .error _⟩ => []
          | _ => owed past

/-! ## The annotations -/

/-- Every stored row carries its own key, has been written, and holds no deadline once
it is terminal. -/
def StoreInv [DecidableEq I] (s : SagaShared I St) : Prop :=
  ∀ id inst, s.store.get id = some inst →
    inst.id = id ∧ 0 < inst.version ∧ (inst.Terminal → inst.deadline = none)

/-- Every row only moves forward. -/
def Moves [DecidableEq I] (s s' : SagaShared I St) : Prop :=
  ∀ id, Later SagaInstance.version (s.store.get id) (s'.store.get id)

/-- `current` was read from the row of `id` at some earlier time: it has the version, the
state and the status the row had then. -/
def Observed [DecidableEq I] (s : SagaShared I St) (id : I) :
    Option (SagaInstance I St) → Prop
  | none => Later SagaInstance.version none (s.store.get id)
  | some inst => inst.id = id ∧ ∃ row : SagaInstance I St,
      Later SagaInstance.version (some row) (s.store.get id) ∧
        row.version = inst.version ∧ row.view = inst.view

/-- The call computed `transition` from `current` with the saga's own code. -/
def Computed (call : SagaCall E) (current : Option (SagaInstance I St))
    (transition : SagaTransition St C) : Prop :=
  (∃ event, call = .handle event ∧ runner.saga.react current event = .ok transition) ∨
    ∃ now lease limit inst, call = .runDueTimeouts now lease limit ∧ current = some inst ∧
      runner.saga.onTimeout inst = .ok transition

/-- `inst` is the effect of the transition computed last, from an observed running
snapshot, under the version of that snapshot or as a new instance. -/
structure Persists [DecidableEq I] (call : SagaCall E) (past : List (SagaEvent I St E C ε))
    (s : SagaShared I St) (inst : SagaInstance I St)
    (current : Option (SagaInstance I St)) (transition : SagaTransition St C) : Prop where
  decided : decision past = some (current, transition)
  computed : runner.Computed call current transition
  observed : Observed s inst.id current
  running : ∀ c ∈ current, ¬ c.Terminal
  effect : some inst.view = transition.apply (current.map SagaInstance.view)
  version : inst.version = 0 ∨ ∃ c ∈ current, inst.version = c.version
  noDeadline : inst.Terminal → inst.deadline = none

/-- A `handle` call commits to at most one batch, a sweep to one per instance. -/
def Uncommitted (call : SagaCall E) (past : List (SagaEvent I St E C ε)) : Prop :=
  runner.owed past = [] ∧ ∀ event, call = .handle event → runner.batches past = []

/-- What holds when a runner call performs an operation. -/
def pre [DecidableEq I] (call : SagaCall E) (past : List (SagaEvent I St E C ε))
    (s : SagaShared I St) : SagaOp I St E → Prop
  | .react _ event => call = .handle event ∧ runner.Uncommitted call past
  | .save inst => runner.Uncommitted call past ∧
      ∃ current transition, runner.Persists call past s inst current transition
  | .insert message => ∃ rest, runner.owed past = message.message :: rest
  | _ => True

def outline [DecidableEq I] :
    Outline (sagaSignature I St E C ε) (SagaShared I St) (SagaChoice I) (SagaCall E) where
  inv := StoreInv
  rely _ := Moves
  allowed _ := True
  pre := runner.pre

variable {runner} [DecidableEq I] {s s' : SagaShared I St} {call : SagaCall E}
  {past : List (SagaEvent I St E C ε)}

theorem Moves.trans {s s' s'' : SagaShared I St} (first : Moves s s') (second : Moves s' s'') :
    Moves s s'' := fun id => (first id).trans (second id)

theorem Observed.moved {id : I} {current : Option (SagaInstance I St)}
    (observed : Observed s id current) (moved : Moves s s') : Observed s' id current := by
  cases current with
  | none => exact Later.trans observed (moved id)
  | some inst =>
      rcases observed with ⟨same, row, later, version, view⟩
      exact ⟨same, row, later.trans (moved id), version, view⟩

/-- The row a compare-and-set finds under the expected version is the one that was read. -/
theorem Persists.stored_view {inst : SagaInstance I St} {current : Option (SagaInstance I St)}
    {transition : SagaTransition St C} (inv : StoreInv s)
    (persists : runner.Persists call past s inst current transition)
    (matched : s.store.get inst.id = none ∧ inst.version = 0 ∨
      ∃ stored, s.store.get inst.id = some stored ∧ stored.version = inst.version) :
    (s.store.get inst.id).map SagaInstance.view = current.map SagaInstance.view := by
  have observed := persists.observed
  rcases matched with ⟨absent, -⟩ | ⟨stored, found, same⟩
  · cases current with
    | none => rw [absent]
    | some c =>
        rcases observed with ⟨-, row, later, -, -⟩
        rw [absent] at later
        exact later.elim
  · have written : 0 < stored.version := (inv _ _ found).2.1
    rcases persists.version with zero | ⟨c, member, version⟩
    · omega
    · cases current with
      | none => cases member
      | some c' =>
          cases member
          rcases observed with ⟨-, row, later, rowVersion, rowView⟩
          rw [found] at later
          have unchanged : row = stored := later.eq_of_version_eq (by omega)
          rw [found, Option.map_some, Option.map_some, ← unchanged, rowView]

/-! ## What every operation keeps -/

theorem serve_moves {choice : SagaChoice I} {op : SagaOp I St E} {reply : op.Reply C ε}
    (served : runner.serve s choice op = some (s', reply)) : Moves s s' := by
  intro id
  cases op with
  | save inst =>
      cases served
      exact InMemorySagaStore.save_later s.store inst id
  | claimDue now lease limit =>
      simp only [serve] at served
      split at served
      · next iterated =>
        cases served
        exact InMemorySagaStore.claimDue_later iterated id
      · cases served
  | insert message =>
      simp only [serve] at served
      split at served <;> cases served <;> exact .refl _
  | load _ | react _ _ | onTimeout _ | utcNow | nowV7 =>
      cases served
      exact .refl _

theorem StoreInv.put (inv : StoreInv s) (inst : SagaInstance I St) (written : 0 < inst.version)
    (noDeadline : inst.Terminal → inst.deadline = none) :
    StoreInv { s with store := s.store.put inst.id inst } := by
  intro id row found
  simp only [DashMap.get_put] at found
  split at found
  · next same =>
    cases found
    exact ⟨same.symm, written, noDeadline⟩
  · exact inv id row found

theorem serve_inv {choice : SagaChoice I} {op : SagaOp I St E} {reply : op.Reply C ε}
    (inv : StoreInv s) (ready : runner.pre call past s op)
    (served : runner.serve s choice op = some (s', reply)) : StoreInv s' := by
  cases op with
  | save inst =>
      cases served
      rcases ready with ⟨-, current, transition, persists⟩
      rcases InMemorySagaStore.save_cases s.store inst with ⟨expected, actual, eq⟩ | ⟨row, eq⟩
      · rw [eq]
        exact inv
      · rw [eq]
        exact inv.put { inst with version := inst.version + 1 } (Nat.succ_pos _)
          persists.noDeadline
  | claimDue now lease limit =>
      simp only [serve] at served
      split at served
      · next iterated =>
        cases served
        intro id row found
        simp only [InMemorySagaStore.claimDue_get iterated] at found
        split at found
        · next member =>
          rcases InMemorySagaStore.due_of_mem_dueIds member with ⟨entry, stored, due⟩
          rw [stored] at found
          cases found
          exact ⟨(inv id entry stored).1, Nat.succ_pos _, fun terminal => (terminal due.1).elim⟩
        · exact inv id row found
      · cases served
  | insert message =>
      simp only [serve] at served
      split at served <;> cases served <;> exact inv
  | load _ | react _ _ | onTimeout _ | utcNow | nowV7 =>
      cases served
      exact inv

/-! ## One rule for each operation -/

section Rules

variable {α : Type} {post : List (SagaEvent I St E C ε) → SagaShared I St → α → Prop}

/-- `program` keeps to the runner's outline. -/
abbrev Keeps (runner : SagaRunner I St E C ε) (call : SagaCall E)
    (post : List (SagaEvent I St E C ε) → SagaShared I St → α → Prop)
    (program : RunnerM I St E C ε α) (past : List (SagaEvent I St E C ε))
    (s : SagaShared I St) : Prop :=
  Safe runner.serve runner.outline call post program past s

/-- An operation that only reads: a load, a clock, or the saga's own code. -/
theorem keeps_read {op : SagaOp I St E} {next}
    {answer : SagaShared I St → SagaChoice I → op.Reply C ε}
    (reads : ∀ s choice, runner.serve s choice op = some (s, answer s choice))
    (ready : ∀ s, runner.pre call past s op)
    (rest : ∀ s' choice, StoreInv s' → Moves s s' →
      runner.Keeps call post (next (answer s' choice))
        (⟨choice, op, answer s' choice⟩ :: past) s') :
    runner.Keeps call post (await op >>= next) past s := by
  refine Safe.call (fun s' _ _ => ready s') ?_
  intro s' choice s'' reply inv moved _ served
  rw [reads] at served
  cases served
  exact rest s' choice inv moved

theorem keeps_save {inst : SagaInstance I St} {current : Option (SagaInstance I St)}
    {transition : SagaTransition St C} {next} (uncommitted : runner.Uncommitted call past)
    (persists : runner.Persists call past s inst current transition)
    (won : ∀ s' choice, Moves s s' → runner.Keeps call post (next (.ok ()))
      (⟨choice, .save inst, .ok ()⟩ :: past) s')
    (lost : ∀ s' choice error, runner.Keeps call post (next (.error error))
      (⟨choice, .save inst, .error error⟩ :: past) s') :
    runner.Keeps call post (await (.save inst) >>= next) past s := by
  refine Safe.call (fun s' _ moved => ⟨uncommitted, current, transition,
    { persists with observed := persists.observed.moved moved }⟩) ?_
  intro s' choice s'' reply inv moved _ served
  cases reply with
  | ok _ => exact won s'' choice (moved.trans (serve_moves served))
  | error error => exact lost s'' choice error

theorem keeps_insert {message : OutboxMessage} {rest : List Message} {next}
    (owes : runner.owed past = message.message :: rest)
    (accepted : ∀ s' choice, runner.Keeps call post (next (.ok ()))
      (⟨choice, .insert message, .ok ()⟩ :: past) s')
    (refused : ∀ s' choice error, runner.Keeps call post (next (.error error))
      (⟨choice, .insert message, .error error⟩ :: past) s') :
    runner.Keeps call post (await (.insert message) >>= next) past s := by
  refine Safe.call (fun _ _ _ => ⟨rest, owes⟩) ?_
  intro s' choice s'' reply inv moved _ served
  cases reply with
  | ok _ => exact accepted s'' choice
  | error error => exact refused s'' choice error

theorem keeps_claimDue {now : Time} {lease : ChronoDuration} {limit : ℕ} {next}
    (rest : ∀ s' choice due,
      (∀ inst ∈ due, Observed s' inst.id (some inst) ∧ ¬ inst.Terminal) →
        runner.Keeps call post (next (.ok due))
          (⟨choice, .claimDue now lease limit, .ok due⟩ :: past) s') :
    runner.Keeps call post (await (.claimDue now lease limit) >>= next) past s := by
  refine Safe.call (fun _ _ _ => trivial) ?_
  intro s' choice s'' reply inv moved _ served
  simp only [serve] at served
  split at served
  · next iterated =>
    cases served
    refine rest _ choice _ fun inst claimed => ?_
    rcases InMemorySagaStore.mem_claimDue iterated claimed with
      ⟨id, entry, member, found, due, rfl⟩
    have same : entry.id = id := (inv id entry found).1
    refine ⟨⟨rfl, { entry with deadline := some (now + lease), version := entry.version + 1 },
      ?_, rfl, rfl⟩, fun terminal => terminal due.1⟩
    subst same
    rw [InMemorySagaStore.claimDue_get iterated, if_pos member, found]
    exact Later.refl (some _)
  · cases served

end Rules

/-! ## The walk through the runner -/

section Walk

variable {α : Type}

/-- Between two points of a task nothing was committed and nothing enqueued. -/
def Silent (runner : SagaRunner I St E C ε) (past past' : List (SagaEvent I St E C ε)) : Prop :=
  runner.owed past' = runner.owed past ∧ runner.batches past' = runner.batches past ∧
    decision past' = decision past

theorem newMessages_keeps (messages : List Message) :
    runner.Keeps call
      (fun past' _ made => made.map OutboxMessage.message = messages ∧ runner.Silent past past')
      (newMessages messages) past s := by
  induction messages generalizing past s with
  | nil => exact ⟨rfl, rfl, rfl, rfl⟩
  | cons message messages ih =>
      unfold newMessages
      refine keeps_read (fun _ _ => rfl) (fun _ => trivial) fun s₁ clock _ _ => ?_
      refine keeps_read (fun _ _ => rfl) (fun _ => trivial) fun s₂ ids _ _ => ?_
      refine Safe.bind ih fun past' s₃ made found => ?_
      rcases found with ⟨images, owed, batches, decided⟩
      refine ⟨?_, owed, batches, decided⟩
      rw [List.map_cons, images]
      rfl

theorem insertMany_keeps {messages : List OutboxMessage}
    (owes : runner.owed past = messages.map OutboxMessage.message) :
    runner.Keeps call
      (fun past' _ _ => runner.owed past' = [] ∧ runner.batches past' = runner.batches past)
      (insertMany messages) past s := by
  induction messages generalizing past s with
  | nil => exact ⟨owes, rfl⟩
  | cons message messages ih =>
      unfold insertMany
      refine keeps_insert owes (fun s' choice => ?_) fun s' choice error => ⟨rfl, rfl⟩
      have owesRest : runner.owed (⟨choice, .insert message, .ok ()⟩ :: past) =
          messages.map OutboxMessage.message := by
        simp only [owed, batch, owes, List.map_cons, List.tail_cons]
      have paid := ih (s := s') owesRest
      exact paid

/-- `enqueue_all` pays exactly what the task owes. -/
theorem enqueueAll_keeps {commands : List C}
    (owes : runner.owed past = commands.map runner.mapCommand) :
    runner.Keeps call
      (fun past' _ result => runner.owed past' = [] ∧ runner.batches past' = runner.batches past ∧
        ∀ expected actual, result ≠ .error (.conflict expected actual))
      (runner.enqueueAll commands) past s := by
  unfold enqueueAll
  cases commands with
  | nil => exact ⟨owes, rfl, fun _ _ h => by cases h⟩
  | cons command commands =>
      refine Safe.bind (newMessages_keeps _) fun past₁ s₁ messages made => ?_
      rcases made with ⟨images, owed, batches, -⟩
      refine Safe.bind (insertMany_keeps (by rw [owed, owes, images])) ?_
      intro past₂ s₂ result paid
      rw [batches] at paid
      cases result with
      | ok _ => exact ⟨paid.1, paid.2, fun _ _ h => by cases h⟩
      | error error => exact ⟨paid.1, paid.2, fun _ _ h => by cases h⟩

/-- The task has paid what it owes, and a lost race committed it to nothing. -/
def Settled (runner : SagaRunner I St E C ε) (before : List (List Message))
    (past : List (SagaEvent I St E C ε)) (result : RunnerResult ε Unit) : Prop :=
  runner.owed past = [] ∧
    ∀ expected actual, result = .error (.conflict expected actual) → runner.batches past = before

/-- Save, then pay: a won race owes the transition's commands, a lost one nothing. -/
theorem saveThen_keeps (current : Option (SagaInstance I St))
    (transition : SagaTransition St C) {inst : SagaInstance I St}
    {next : RunnerM I St E C ε (RunnerResult ε Unit)}
    (uncommitted : runner.Uncommitted call past)
    (persists : runner.Persists call past s inst current transition)
    (pays : ∀ past' s', runner.owed past' = transition.commands.map runner.mapCommand →
      runner.Keeps call
        (fun past'' _ result => runner.owed past'' = [] ∧
          ∀ expected actual, result ≠ .error (.conflict expected actual)) next past' s') :
    runner.Keeps call (fun past' _ result => runner.Settled (runner.batches past) past' result)
      (saveThen inst next) past s := by
  unfold saveThen
  refine keeps_save uncommitted persists (fun s' choice _ => ?_) fun s' choice error => ?_
  · have owes : runner.owed (⟨choice, .save inst, .ok ()⟩ :: past) =
        transition.commands.map runner.mapCommand := by
      simp only [owed, batch, persists.decided, Option.elim_some]
    exact (pays _ s' owes).mono fun past' s'' result paid =>
      ⟨paid.1, fun expected actual eq => (paid.2 expected actual eq).elim⟩
  · exact ⟨uncommitted.1, fun _ _ _ => rfl⟩

/-- The compensating commands of a failure are paid before it is reported. -/
theorem compensate_keeps {reason : String} {commands : List C}
    (owes : runner.owed past = commands.map runner.mapCommand) :
    runner.Keeps call
      (fun past' _ result => runner.owed past' = [] ∧
        ∀ expected actual, result ≠ .error (.conflict expected actual))
      (runner.compensate reason commands) past s := by
  unfold compensate
  refine Safe.bind (enqueueAll_keeps owes) fun past' s' result paid => ?_
  cases result with
  | ok _ => exact ⟨paid.1, fun _ _ h => by cases h⟩
  | error error => exact ⟨paid.1, paid.2.2⟩

/-- `apply_transition` writes the effect of the transition under the snapshot's version. -/
theorem applyTransition_keeps {id : I} {current : Option (SagaInstance I St)}
    {transition : SagaTransition St C} (decided : decision past = some (current, transition))
    (computed : runner.Computed call current transition) (observed : Observed s id current)
    (running : ∀ c ∈ current, ¬ c.Terminal) (uncommitted : runner.Uncommitted call past)
    (present : ∀ reason commands, transition = .fail reason commands → current ≠ none) :
    runner.Keeps call (fun past' _ result => runner.Settled (runner.batches past) past' result)
      (runner.applyTransition id current transition) past s := by
  have pays : ∀ (commands : List C) past' s',
      runner.owed past' = commands.map runner.mapCommand →
      runner.Keeps call (fun past'' _ result => runner.owed past'' = [] ∧
        ∀ expected actual, result ≠ .error (.conflict expected actual))
        (runner.enqueueAll commands) past' s' := fun commands past' s' owes =>
    (enqueueAll_keeps owes).mono fun _ _ _ paid => ⟨paid.1, paid.2.2⟩
  unfold applyTransition
  cases transition with
  | ignore => exact ⟨uncommitted.1, fun _ _ _ => rfl⟩
  | start state commands deadline =>
      refine keeps_read (fun _ _ => rfl) (fun _ => trivial) fun s₁ clock _ moved => ?_
      refine saveThen_keeps current (.start state commands deadline) uncommitted ?_ (pays commands)
      exact ⟨decided, computed, observed.moved moved, running, rfl,
        .inl rfl, fun terminal => (terminal rfl).elim⟩
  | advance state commands deadline =>
      unfold currentOrRunning
      cases current with
      | none =>
          refine keeps_read (fun _ _ => rfl) (fun _ => trivial) fun s₁ clock _ moved => ?_
          refine keeps_read (fun _ _ => rfl) (fun _ => trivial) fun s₂ clock' _ moved' => ?_
          refine saveThen_keeps none (.advance state commands deadline) uncommitted ?_ (pays commands)
          exact ⟨decided, computed,
            (observed.moved moved).moved moved', running, rfl, .inl rfl,
            fun terminal => (terminal rfl).elim⟩
      | some c =>
          refine keeps_read (fun _ _ => rfl) (fun _ => trivial) fun s₁ clock _ moved => ?_
          rcases observed with ⟨rfl, row⟩
          have observed : Observed s c.id (some c) := ⟨rfl, row⟩
          refine saveThen_keeps (some c) (.advance state commands deadline) uncommitted ?_ (pays commands)
          exact ⟨decided, computed, observed.moved moved, running,
            rfl, .inr ⟨c, rfl, rfl⟩, fun terminal => (terminal rfl).elim⟩
  | complete state commands =>
      unfold currentOrRunning
      cases current with
      | none =>
          refine keeps_read (fun _ _ => rfl) (fun _ => trivial) fun s₁ clock _ moved => ?_
          refine keeps_read (fun _ _ => rfl) (fun _ => trivial) fun s₂ clock' _ moved' => ?_
          refine saveThen_keeps none (.complete state commands) uncommitted ?_ (pays commands)
          exact ⟨decided, computed,
            (observed.moved moved).moved moved', running, rfl, .inl rfl,
            fun _ => rfl⟩
      | some c =>
          refine keeps_read (fun _ _ => rfl) (fun _ => trivial) fun s₁ clock _ moved => ?_
          rcases observed with ⟨rfl, row⟩
          have observed : Observed s c.id (some c) := ⟨rfl, row⟩
          refine saveThen_keeps (some c) (.complete state commands) uncommitted ?_ (pays commands)
          exact ⟨decided, computed, observed.moved moved, running,
            rfl, .inr ⟨c, rfl, rfl⟩, fun _ => rfl⟩
  | fail reason commands =>
      cases current with
      | none => exact (present reason commands rfl rfl).elim
      | some c =>
          refine keeps_read (fun _ _ => rfl) (fun _ => trivial) fun s₁ clock _ moved => ?_
          rcases observed with ⟨rfl, row⟩
          have observed : Observed s c.id (some c) := ⟨rfl, row⟩
          refine saveThen_keeps (some c) (.fail reason commands) uncommitted ?_
            fun past' s' owes => compensate_keeps owes
          exact ⟨decided, computed, observed.moved moved, running,
            rfl, .inr ⟨c, rfl, rfl⟩, fun _ => rfl⟩

theorem observed_get (inv : StoreInv s) (id : I) : Observed s id (s.store.get id) := by
  unfold Observed
  cases found : s.store.get id with
  | none => trivial
  | some inst => exact ⟨(inv id inst found).1, inst, .refl _, rfl, rfl⟩

omit [DecidableEq I] in
/-- A reaction commits to a batch only when it fails without an instance. -/
theorem batch_react (past : List (SagaEvent I St E C ε)) (choice : SagaChoice I)
    (current : Option (SagaInstance I St)) (event : E) (transition : SagaTransition St C) :
    (∃ reason commands, current = none ∧ transition = .fail reason commands) ∨
      ((∀ reason commands, transition = .fail reason commands → current ≠ none) ∧
        runner.batch past ⟨choice, .react current event, .ok transition⟩ = none) := by
  cases current with
  | none =>
      cases transition with
      | fail reason commands => exact .inl ⟨reason, commands, rfl, rfl⟩
      | ignore | start _ _ _ | advance _ _ _ | complete _ _ =>
          exact .inr ⟨fun _ _ h => (by cases h), rfl⟩
  | some inst => exact .inr ⟨fun _ _ _ h => (by cases h), rfl⟩

/-- How `handle` goes on after one round. -/
def retried (runner : SagaRunner I St E C ε) (id : I) (event : E) (retries : ℕ) :
    RunnerResult ε Unit → RunnerM I St E C ε (RunnerResult ε Unit)
  | .ok () => pure (.ok ())
  | .error (.conflict expected actual) =>
      runner.handleAttempts id event retries (some (expected, actual))
  | .error other => pure (.error other)

/-- Each round of `handle` starts from a fresh snapshot and leaves nothing owed; a call
that gives up over conflicts committed to nothing. -/
theorem handleAttempts_keeps {id : I} {event : E} (retries : ℕ)
    (lastConflict : Option (ℕ × Option ℕ))
    (uncommitted : runner.Uncommitted (.handle event) past) :
    runner.Keeps (.handle event) (fun past' _ result => runner.Settled [] past' result)
      (runner.handleAttempts id event retries lastConflict) past s := by
  induction retries generalizing past s lastConflict with
  | zero => exact ⟨uncommitted.1, fun _ _ _ => uncommitted.2 event rfl⟩
  | succ retries ih =>
      unfold handleAttempts
      refine keeps_read (fun _ _ => rfl) (fun _ => trivial) fun s₁ loading inv _ => ?_
      have observed := observed_get inv id
      simp only [InMemorySagaStore.load]
      generalize s₁.store.get id = current at observed ⊢
      refine keeps_read (fun _ _ => rfl) (fun _ => ⟨rfl, uncommitted⟩) fun s₂ reacting _ moved => ?_
      generalize reaction : runner.saga.react current event = answer
      cases answer with
      | error error =>
          cases current <;> exact ⟨uncommitted.1, fun _ _ h => by cases h⟩
      | ok transition =>
          -- only a reported conflict leads to another round, and it committed to nothing
          have again : ∀ past' s' (result : RunnerResult ε Unit), runner.owed past' = [] →
              (∀ expected actual, result = .error (.conflict expected actual) →
                runner.batches past' = []) →
              runner.Keeps (.handle event) (fun past'' _ result => runner.Settled [] past'' result)
                (runner.retried id event retries result) past' s' := by
            intro past' s' result paid free
            rcases result with error | _
            · cases error with
              | conflict expected actual =>
                  exact ih _ ⟨paid, fun _ _ => free expected actual rfl⟩
              | saga _ | store _ | enqueue _ | failed _ => exact ⟨paid, fun _ _ h => by cases h⟩
            · exact ⟨paid, fun _ _ h => by cases h⟩
          rcases runner.batch_react past reacting current event transition with
            ⟨reason, commands, rfl, rfl⟩ | ⟨present, silent⟩
          · refine Safe.bind (compensate_keeps rfl) fun past' s' result paid => ?_
            exact again past' s' result paid.1 fun e a conflict => (paid.2 e a conflict).elim
          · have uncommitted' : runner.Uncommitted (.handle event)
                (⟨reacting, .react current event, .ok transition⟩ :: past) := by
              refine ⟨?_, fun event' handles => ?_⟩
              · simp only [owed, silent]
                exact uncommitted.1
              · simp only [batches, silent]
                exact uncommitted.2 event' handles
            dsimp only
            split
            · exact ⟨uncommitted'.1, fun _ _ h => by cases h⟩
            · split
              · exact ⟨uncommitted'.1, fun _ _ h => by cases h⟩
              · next running =>
                refine Safe.bind (applyTransition_keeps rfl (.inl ⟨event, rfl, reaction⟩)
                  (observed.moved moved) (fun c member terminal => running ⟨c, member, terminal⟩)
                  uncommitted' present) fun past' s' result settled => ?_
                refine again past' s' result settled.1 fun e a conflict => ?_
                rw [settled.2 e a conflict]
                exact uncommitted'.2 event rfl

/-- A sweep fires each claimed instance against the snapshot it claimed. -/
theorem fireTimeouts_keeps {now : Time} {lease : ChronoDuration} {limit : ℕ}
    (due : List (SagaInstance I St)) (processed : ℕ) (paid : runner.owed past = [])
    (claimed : ∀ inst ∈ due, Observed s inst.id (some inst) ∧ ¬ inst.Terminal) :
    runner.Keeps (.runDueTimeouts now lease limit) (fun past' _ _ => runner.owed past' = [])
      (runner.fireTimeouts due processed) past s := by
  induction due generalizing past s processed with
  | nil => exact paid
  | cons inst due ih =>
      unfold fireTimeouts
      refine keeps_read (fun _ _ => rfl) (fun _ => trivial) fun s₁ firing _ moved => ?_
      generalize timeout : runner.saga.onTimeout inst = answer
      cases answer with
      | error error => exact paid
      | ok transition =>
          have observed := (claimed inst List.mem_cons_self).1.moved moved
          have running : ∀ c ∈ some inst, ¬ c.Terminal := by
            intro c member
            cases member
            exact (claimed inst List.mem_cons_self).2
          have uncommitted : runner.Uncommitted (.runDueTimeouts now lease limit)
              (⟨firing, .onTimeout inst, .ok transition⟩ :: past) :=
            ⟨paid, fun _ handles => by cases handles⟩
          have computed : runner.Computed (.runDueTimeouts now lease limit) (some inst)
              transition := .inr ⟨now, lease, limit, inst, rfl, rfl, timeout⟩
          have rest : ∀ s', Moves s s' →
              ∀ later ∈ due, Observed s' later.id (some later) ∧ ¬ later.Terminal := by
            intro s' moved' later member
            have known := claimed later (List.mem_cons_of_mem _ member)
            exact ⟨known.1.moved moved', known.2⟩
          dsimp only
          split
          · next ignored =>
            refine keeps_read (fun _ _ => rfl) (fun _ => trivial) fun s₂ clock _ moved' => ?_
            cases transition with
            | ignore =>
                refine keeps_save uncommitted ⟨rfl, computed, observed.moved moved', running, rfl,
                  .inr ⟨inst, rfl, rfl⟩, fun _ => rfl⟩ (fun s₃ saving moved'' => ?_)
                  fun _ _ _ => paid
                exact ih _ rfl (rest s₃ ((moved.trans moved').trans moved''))
            | start _ _ _ | advance _ _ _ | complete _ _ | fail _ _ => cases ignored
          · have applied := applyTransition_keeps rfl computed observed running uncommitted
              fun _ _ _ h => by cases h
            refine Safe.bind (Safe.track Moves.trans (fun _ _ _ served => serve_moves served)
              applied moved) fun past' s' result settled => ?_
            rcases settled with ⟨⟨paid', -⟩, moved'⟩
            rcases result with error | _
            · cases error with
              | failed reason => exact ih _ paid' (rest s' moved')
              | saga _ | store _ | enqueue _ | conflict _ _ => exact paid'
            · exact ih _ paid' (rest s' moved')

/-- A returned call has paid what it owes, and one that reports a conflict committed to
nothing. -/
def Returned (runner : SagaRunner I St E C ε) (past : List (SagaEvent I St E C ε))
    (value : SagaReturn ε) : Prop :=
  runner.owed past = [] ∧
    ∀ expected actual, value = .handled (.error (.conflict expected actual)) →
      runner.batches past = []

/-- Every call of the runner keeps to the outline. -/
theorem body_keeps (call : SagaCall E) :
    runner.Keeps call (fun past' _ value => runner.Returned past' value)
      (runner.body call) [] s := by
  cases call with
  | handle event =>
      have handled : runner.Keeps (.handle event)
          (fun past' _ result => runner.Settled [] past' result) (runner.handle event) [] s := by
        unfold handle
        split
        · exact ⟨rfl, fun _ _ _ => rfl⟩
        · exact handleAttempts_keeps _ _ ⟨rfl, fun _ _ => rfl⟩
      refine Safe.bind handled fun past' s' result settled => ?_
      exact ⟨settled.1, fun e a eq => settled.2 e a (by cases eq; rfl)⟩
  | runDueTimeouts now lease limit =>
      have swept : runner.Keeps (.runDueTimeouts now lease limit)
          (fun past' _ _ => runner.owed past' = []) (runner.runDueTimeouts now lease limit) [] s := by
        unfold runDueTimeouts
        exact keeps_claimDue fun s' choice due claimed => fireTimeouts_keeps due 0 rfl claimed
      exact Safe.bind swept fun past' s' result paid => ⟨paid, fun _ _ eq => by cases eq⟩

end Walk

/-- Any number of concurrent calls keep to the outline. -/
theorem outline_uniform (runner : SagaRunner I St E C ε) :
    runner.outline.Uniform runner.system fun _ past _ value => runner.Returned past value where
  refl _ _ _ := .refl _
  trans := Moves.trans
  serve inv ready _ served := ⟨serve_inv inv ready served, fun _ => serve_moves served⟩
  arrive inv arrived := by
    cases arrived
    exact ⟨inv, fun _ _ => .refl _, fun call _ => body_keeps call⟩

/-- Every reachable configuration keeps to the outline. -/
theorem outline_holds {p : SagaPool I St E C ε} (reached : runner.system.Reaches System.Any initial p) :
    runner.outline.Holds runner.system (fun _ past _ value => runner.Returned past value) p := by
  refine runner.outline_uniform.holds ⟨fun _ _ found => ?_, fun _ _ found => ?_⟩
    (reached.mono fun _ action _ => ?_)
  · cases found
  · cases found
  · cases action <;> trivial

end SagaRunner

end Pharos
