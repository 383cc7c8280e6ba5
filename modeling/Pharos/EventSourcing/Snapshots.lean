import Pharos.EventSourcing.Streams

/-!
# Snapshots and the full replay

A snapshot is `Sound` when it is the fold of as many stored events as its version says.  Streams
that are not deleted only grow, so a snapshot that was sound once stays so, however late it is
written or read and whatever it is written over; and a replay from a sound snapshot ends where
the replay of the whole stream does.  `snapshotted_of_reaches` carries this through a run, for
the snapshots that the store may return, those that a task has read, and those that it is
about to write.
-/

namespace Pharos

namespace EventSourcing

open Async

/-! ## Replays -/

section Replay

variable {I St E : Type} (kind : EventSourced I St E)

/-- The replay of events that are numbered from where it starts. -/
theorem replay_eq (start : Aggregate St E × ℕ) {events : List (StoredEvent E)}
    (consecutive : events.map StoredEvent.sequence = List.range' (start.2 + 1) events.length) :
    replay kind start events =
      ({ start.1 with state := (events.map StoredEvent.event).foldl kind.apply start.1.state },
        start.2 + events.length) := by
  induction events generalizing start with
  | nil => rfl
  | cons stored events ih =>
      rw [List.map_cons, List.length_cons, List.range'_succ] at consecutive
      obtain ⟨first, rest⟩ := List.cons.inj consecutive
      have unfolded : replay kind start (stored :: events) = replay kind
        ({ start.1 with state := kind.apply start.1.state stored.event }, stored.sequence) events := rfl
      rw [unfolded, ih _ (first ▸ rest), first, List.length_cons]
      simp only [List.map_cons, List.foldl_cons, Prod.mk.injEq, true_and]
      omega

/-- What a numbered stream is replayed to. -/
def replayed (stream : List (StoredEvent E)) : Option (Aggregate St E) :=
  if stream.isEmpty then none
  else some { state := kind.fold (stream.map StoredEvent.event), version := stream.length }

theorem rehydrated_default {stream : List (StoredEvent E)} (numbered : Numbered stream) :
    rehydrated kind ({ state := kind.default }, 0) stream = replayed kind stream := by
  have consecutive : stream.map StoredEvent.sequence = List.range' (0 + 1) stream.length := numbered
  have ended := replay_eq kind ({ state := kind.default }, 0) consecutive
  unfold rehydrated replayed
  rw [ended]
  simp only [true_and, Nat.zero_add]
  rfl

variable [DecidableEq I]

/-- The snapshot is the fold of as many stored events as its version says. -/
structure Sound (kind : EventSourced I St E) (store : InMemoryEventStore I E) (id : I)
    (snapshot : Snapshot (Aggregate St E)) : Prop where
  drained : snapshot.state.pending = []
  positive : 0 < snapshot.version
  stored : snapshot.version ≤ (store.load id).length
  folded : snapshot.state.state = kind.fold ((store.events id).take snapshot.version)

variable {kind} {store store' : InMemoryEventStore I E} {id : I}
  {snapshot : Snapshot (Aggregate St E)} {aggregate : Aggregate St E}

/-- A snapshot of a stream stays sound while the stream grows. -/
theorem Sound.mono (sound : Sound kind store id snapshot)
    (grown : store.events id <+: store'.events id) : Sound kind store' id snapshot := by
  have length : (store.load id).length ≤ (store'.load id).length := by
    have longer := grown.length_le
    rwa [InMemoryEventStore.length_events, InMemoryEventStore.length_events] at longer
  obtain ⟨added, extended⟩ := grown
  refine ⟨sound.drained, sound.positive, sound.stored.trans length, ?_⟩
  rw [sound.folded, ← extended, List.take_append_of_le_length]
  rw [InMemoryEventStore.length_events]
  exact sound.stored

/-- From a sound snapshot the tail of the stream leads where the whole stream does. -/
theorem Sound.rehydrated_eq (sound : Sound kind store id snapshot) :
    rehydrated kind (snapshot.state, snapshot.version)
        ((store.load id).filter fun stored => decide (snapshot.version < stored.sequence)) =
      replayed kind (store.load id) := by
  have numbered := store.numbered_load id
  have positive := sound.positive
  have stored := sound.stored
  have whole : (store.load id).isEmpty = false := by
    rw [List.isEmpty_eq_false_iff_exists_mem, ← List.length_pos_iff_exists_mem]
    omega
  have started : ¬ (snapshot.version = 0 ∧ ((store.load id).drop snapshot.version).isEmpty) :=
    fun both => by omega
  have consecutive : ((store.load id).drop snapshot.version).map StoredEvent.sequence =
      List.range' (snapshot.version + 1) ((store.load id).drop snapshot.version).length := by
    rw [List.map_drop, numbered, List.drop_range', List.length_drop, Nat.mul_one, Nat.add_comm]
  have split : (store.events id).take snapshot.version ++ (store.events id).drop snapshot.version =
    store.events id := List.take_append_drop _ _
  rw [numbered.filter_eq_drop, rehydrated, if_neg started,
    replay_eq kind (snapshot.state, snapshot.version) consecutive, replayed,
    whole, if_neg Bool.false_ne_true]
  congr 1
  simp only [Aggregate.setVersion, Aggregate.mk.injEq, sound.drained, and_true]
  refine ⟨?_, ?_⟩
  · have folded := kind.fold_append ((store.events id).take snapshot.version)
      ((store.events id).drop snapshot.version)
    rw [split] at folded
    rw [sound.folded, List.map_drop]
    exact folded.symm
  · rw [List.length_drop]
    omega

end Replay

/-! ## Runs without deletes -/

section Runs

variable {I St E β χ : Type} [DecidableEq I] (kind : EventSourced I St E)

/-- The state of the aggregate is the fold of the stored events up to its version, followed by
its pending events. -/
def Replayable (store : InMemoryEventStore I E) (aggregate : Aggregate St E) : Prop :=
  aggregate.state = kind.fold
    ((store.events (kind.id aggregate.state)).take aggregate.version ++ aggregate.pending)

instance [DecidableEq St] (store : InMemoryEventStore I E) (aggregate : Aggregate St E) :
    Decidable (Replayable kind store aggregate) :=
  inferInstanceAs (Decidable (aggregate.state = kind.fold
    ((store.events (kind.id aggregate.state)).take aggregate.version ++ aggregate.pending)))

/-- The aggregate that a snapshotting save has not appended yet. -/
def unsaved (t : Async.Task (streamSignature I St E) (StreamChoice χ) (StreamCall I St E)
    (StreamReturn St E)) : Option (Aggregate St E) :=
  match t.args, t.past with
  | .snapshotSave _ aggregate, [] => some aggregate
  | _, _ => none

/-- No stream is deleted, and every aggregate is replayable when it is appended. -/
def Replays (p : StreamPool I St E β χ) : Action (StreamChoice χ) (StreamCall I St E) → Prop
  | .arrive (.delete _) => False
  | .arrive _ => True
  | .step i _ => ∀ aggregate ∈ p.tasks[i]?.bind unsaved, Replayable kind p.shared.store aggregate

instance [DecidableEq St] (p : StreamPool I St E β χ) :
    DecidablePred (Replays kind p)
  | .arrive (.delete _) => .isFalse id
  | .arrive (.save _) | .arrive (.find _) | .arrive (.snapshotSave _ _) | .arrive (.snapshotFind _)
  | .arrive (.append _ _ _) | .arrive (.loadAfter _ _) => .isTrue trivial
  | .step i _ => inferInstanceAs (Decidable (∀ aggregate ∈ p.tasks[i]?.bind unsaved,
      Replayable kind p.shared.store aggregate))

/-- The snapshots that a task can vouch for, by one thing it did. -/
inductive Vouches : StreamCall I St E → StreamEvent I St E χ → I → Snapshot (Aggregate St E) → Prop
  | loaded {call : StreamCall I St E} {choice : StreamChoice χ} {id : I}
      {snapshot : Snapshot (Aggregate St E)} :
      Vouches call ⟨choice, .loadSnapshot id, .ok (some snapshot)⟩ id snapshot
  | saved {repository : SnapshottingEventSourcedRepository} {aggregate : Aggregate St E}
      {choice : StreamChoice χ} (grown : aggregate.version < (saved aggregate).version) :
      Vouches (.snapshotSave repository aggregate) ⟨choice, appendOf kind aggregate, .ok ()⟩
        (kind.id aggregate.state) ⟨saved aggregate, (saved aggregate).version⟩

/-- Every snapshot that is stored, was read or will be written is sound. -/
structure Snapshotted (snapshots : SnapshotStore I (Aggregate St E) β χ)
    (p : StreamPool I St E β χ) : Prop where
  held : ∀ id snapshot, snapshots.Holds p.shared.snapshots id snapshot →
    Sound kind p.shared.store id snapshot
  vouched : ∀ t ∈ p.tasks, ∀ event ∈ t.past, ∀ id snapshot, Vouches kind t.args event id snapshot →
    Sound kind p.shared.store id snapshot

variable {kind} {snapshots : SnapshotStore I (Aggregate St E) β χ} {s s' : StreamShared I E β}
  {choice : StreamChoice χ} {op : StreamOp I St E} {reply : op.Reply} {id : I}
  {snapshot : Snapshot (Aggregate St E)} {aggregate : Aggregate St E}

/-- A snapshot gets into the store by being saved. -/
theorem holds_of_serve (served : serve snapshots s choice op = some (s', reply))
    (held : snapshots.Holds s'.snapshots id snapshot) :
    snapshots.Holds s.snapshots id snapshot ∨ op = .saveSnapshot id snapshot := by
  cases op with
  | loadSnapshot other =>
      cases served
      exact .inl (snapshots.holds_of_load held)
  | saveSnapshot other saved =>
      cases served
      rcases snapshots.holds_of_save held with before | ⟨rfl, rfl⟩
      · exact .inl before
      · exact .inr rfl
  | _ =>
      cases served
      exact .inl held

/-- Only a delete makes a stream lose events. -/
theorem isPrefix_of_serve (served : serve snapshots s choice op = some (s', reply))
    (kept : deletedId ⟨choice, op, reply⟩ ≠ some id) :
    s.store.events id <+: s'.store.events id := by
  rw [serve_events id served]
  cases op with
  | append other expected batch =>
      rcases serve_append served with ⟨-, error, rfl⟩ | ⟨rfl, -⟩
      · exact List.prefix_refl _
      · simp only [extend]
        split
        · exact List.prefix_append _ _
        · exact List.prefix_refl _
  | deleteStream other =>
      have here : other ≠ id := fun same => kept (congrArg some same)
      exact ⟨[], by rw [List.append_nil, extend, if_neg here]⟩
  | _ => exact List.prefix_refl _

/-- The snapshot of an aggregate that was replayable when it was appended. -/
theorem sound_saved {reply : Except RepositoryError Unit}
    (served : serve snapshots s choice (appendOf kind aggregate) = some (s', reply))
    (accepted : reply = .ok ()) (replayable : Replayable kind s.store aggregate)
    (grown : aggregate.version < (saved aggregate).version) :
    Sound kind s'.store (kind.id aggregate.state)
      ⟨saved aggregate, (saved aggregate).version⟩ := by
  have appended : appendedAs (⟨choice, appendOf kind aggregate, reply⟩ : StreamEvent I St E χ) =
      some (kind.id aggregate.state, aggregate.version, aggregate.pending) := by
    rw [accepted]
    rfl
  obtain ⟨before, after⟩ := length_of_appendedAs served appended
  have events := serve_events (kind.id aggregate.state) served
  simp only [accepted, extend, if_pos] at events
  have whole : (s.store.events (kind.id aggregate.state)).take aggregate.version =
      s.store.events (kind.id aggregate.state) := by
    apply List.take_of_length_le
    rw [InMemoryEventStore.length_events, before]
  refine ⟨rfl, Nat.zero_lt_of_lt grown, le_of_eq after.symm, ?_⟩
  have all : (s'.store.events (kind.id aggregate.state)).take (saved aggregate).version =
      s'.store.events (kind.id aggregate.state) := by
    apply List.take_of_length_le
    rw [InMemoryEventStore.length_events, after]
    exact le_refl _
  unfold Replayable at replayable
  rw [whole, ← events] at replayable
  rw [all]
  exact replayable

variable {p : StreamPool I St E β χ} {i : ℕ}
  {t : Async.Task (streamSignature I St E) (StreamChoice χ) (StreamCall I St E) (StreamReturn St E)}

/-- No task of the run deletes. -/
theorem not_deletes_of_reaches
    (reached : (system kind snapshots).Reaches (Replays kind) (initial snapshots) p) :
    ∀ t ∈ p.tasks, ∀ id, t.args ≠ .delete id := by
  refine reached.forall_args (Q := fun call => ∀ id, call ≠ .delete id) rfl ?_
  intro q arrival shared args side arrived call among id same
  cases arrived
  rw [List.mem_singleton.mp among] at same
  subst same
  exact side

section Step

variable (reached : (system kind snapshots).Reaches (Replays kind) (initial snapshots) p)
  (found : p.tasks[i]? = some t) {next : op.Reply → StreamM I St E (StreamReturn St E)}
  (rest : t.rest = .await op next) (served : serve snapshots p.shared choice op = some (s', reply))

include reached found rest served

theorem grows_of_reaches (id : I) : p.shared.store.events id <+: s'.store.events id := by
  refine isPrefix_of_serve served fun deleted => ?_
  have awaits := awaits_of_reaches reached found rest
  have kept := not_deletes_of_reaches reached t (List.mem_of_getElem? found)
  cases op with
  | deleteStream other =>
      generalize t.args = call at awaits kept
      generalize t.past = past at awaits
      cases awaits
      exact kept other rfl
  | _ => cases deleted

/-- What a task saves as a snapshot, and what it can vouch for after its step, is sound. -/
theorem sound_of_vouches (holds : Snapshotted kind snapshots p)
    (side : Replays kind p (.step i choice))
    (vouches : Vouches kind t.args ⟨choice, op, reply⟩ id snapshot) :
    Sound kind s'.store id snapshot := by
  have grown := grows_of_reaches reached found rest served id
  have replayable : ∀ aggregate, unsaved t = some aggregate →
      Replayable kind p.shared.store aggregate := by
    intro aggregate same
    refine side aggregate ?_
    rw [found]
    exact same
  have awaits := awaits_of_reaches reached found rest
  unfold unsaved at replayable
  generalize t.args = call at vouches awaits replayable
  generalize t.past = past at awaits replayable
  cases vouches with
  | loaded =>
      have loaded : snapshots.load p.shared.snapshots choice.snapshot id =
          (s'.snapshots, .ok (some snapshot)) := by
        obtain ⟨rfl, answered⟩ := Prod.mk.inj (Option.some.inj served)
        exact Prod.ext rfl answered
      exact (holds.held id snapshot (snapshots.load_holds loaded)).mono grown
  | @saved _ aggregate _ larger =>
      have first : past = [] := by
        generalize same : appendOf kind aggregate = op at awaits
        cases awaits with
        | saves saves => rfl
        | snapshots larger => cases same
      rw [first] at replayable
      exact sound_saved served rfl (replayable _ rfl) larger

end Step

theorem snapshotted_of_reaches
    (reached : (system kind snapshots).Reaches (Replays kind) (initial snapshots) p) :
    Snapshotted kind snapshots p := by
  refine reached.invariant (P := Snapshotted kind snapshots) ?_ ?_
  · exact ⟨fun id snapshot held => (snapshots.holds_empty id snapshot held).elim,
      fun t started => (by cases started)⟩
  · intro q r action before holds side stepped
    obtain ⟨arrival, shared, args, rfl, arrived, rfl⟩ |
      ⟨i, choice, t, op, next, shared, reply, rfl, found, awaits, served, rfl⟩ :=
      System.step_cases stepped
    · obtain rfl := shared_of_arrive arrived
      refine ⟨holds.held, fun t started event did => ?_⟩
      rcases Pool.mem_start started with old | ⟨a, -, rfl⟩
      · exact holds.vouched t old event did
      · cases did
    · have grown := grows_of_reaches before found awaits served
      refine ⟨fun id snapshot held => ?_, fun u started event did id snapshot vouches => ?_⟩
      · rcases holds_of_serve served held with old | rfl
        · exact (holds.held id snapshot old).mono (grown id)
        · -- a save vouches for the snapshot it writes
          have own := holds.vouched t (List.mem_of_getElem? found)
          have awaited := awaits_of_reaches before found awaits
          generalize t.args = call at awaited own
          generalize t.past = past at awaited own
          cases awaited with
          | snapshots larger =>
              exact (own _ (List.mem_singleton_self _) _ _ (.saved larger)).mono (grown _)
      · rcases List.mem_or_eq_of_mem_set started with old | rfl
        · exact (holds.vouched u old event did id snapshot vouches).mono (grown id)
        · rcases List.mem_cons.mp did with rfl | earlier
          · exact sound_of_vouches before found awaits served holds side vouches
          · exact (holds.vouched t (List.mem_of_getElem? found) event earlier id snapshot
              vouches).mono (grown id)

/-- The plain repository reads the whole stream. -/
theorem eval_findById : (EventSourcedRepository.findById kind id).eval (respond snapshots choice) s =
    (s, .ok (replayed kind (s.store.load id))) := by
  rw [findById_eq, Program.eval_call, ← rehydrated_default kind (s.store.numbered_load id)]
  rfl

/-- A snapshotting find that starts from nothing or from a sound snapshot. -/
theorem rehydrated_startOf {store : InMemoryEventStore I E}
    {loaded : Except String (Option (Snapshot (Aggregate St E)))}
    (sound : ∀ snapshot, loaded = .ok (some snapshot) → Sound kind store id snapshot) :
    rehydrated kind (startOf kind loaded) ((store.load id).filter fun stored =>
      decide ((startOf kind loaded).2 < stored.sequence)) = replayed kind (store.load id) := by
  have whole : rehydrated kind ({ state := kind.default }, 0) ((store.load id).filter fun stored =>
      decide (0 < stored.sequence)) = replayed kind (store.load id) := by
    rw [(store.numbered_load id).filter_eq_drop, List.drop_zero]
    exact rehydrated_default kind (store.numbered_load id)
  cases loaded with
  | error error => exact whole
  | ok found =>
      cases found with
      | none => exact whole
      | some snapshot => exact (sound snapshot rfl).rehydrated_eq

/-- Task `i` read the stream of `id` once, and `result` is what the plain repository would have
returned in that instant. -/
def FoundAt (kind : EventSourced I St E) (snapshots : SnapshotStore I (Aggregate St E) β χ)
    (p : StreamPool I St E β χ) (i : ℕ) (id : I)
    (result : Except String (Option (Aggregate St E))) : Prop :=
  ∃ entry ∈ p.trace, entry.task = i ∧ entry.event.op = .load id ∧ ∀ choice,
    ((EventSourcedRepository.findById kind id).eval (respond snapshots choice) entry.before).2 = result

/-- Every entry of the trace met a state in which what its task vouched for is sound. -/
theorem sound_before
    (reached : (system kind snapshots).Reaches (Replays kind) (initial snapshots) p) :
    ∀ entry ∈ p.trace, ∀ event ∈ entry.past, ∀ id snapshot,
      Vouches kind entry.args event id snapshot → Sound kind entry.before.store id snapshot := by
  refine reached.forall_trace rfl ?_
  intro q i t op next choice shared reply before found _ _ _
  exact (snapshotted_of_reaches before).vouched t (List.mem_of_getElem? found)

/-- What a snapshotting find returned. -/
theorem foundAt_of_returned
    (reached : (system kind snapshots).Reaches (Replays kind) (initial snapshots) p)
    (found : p.tasks[i]? = some t) (called : t.args = .snapshotFind id) {value : StreamReturn St E}
    (rest : t.rest = .ret value) :
    ∃ result, value = .found result ∧ FoundAt kind snapshots p i id result := by
  have returned := returned_of_reaches reached found rest
  rw [called] at returned
  generalize did : t.past = past at returned
  cases returned with
  | saved saves _ => cases saves
  | refused saves => cases saves
  | @rehydrated _ choice choice' loaded events =>
      obtain ⟨entry, inTrace, task, args, before, same⟩ := reached.exists_entry rfl found
        ⟨[], did.symm⟩
      have read := (faithful_of_reaches reached entry inTrace).loaded _ _ _ same
      have sound : ∀ snapshot, loaded = .ok (some snapshot) →
          Sound kind entry.before.store id snapshot := by
        rintro snapshot rfl
        have earlier : ⟨choice, .loadSnapshot id, .ok (some snapshot)⟩ ∈ entry.past := by
          rw [before]
          exact List.mem_singleton_self _
        exact sound_before reached entry inTrace _ earlier id snapshot .loaded
      refine ⟨_, rfl, entry, inTrace, task, congrArg Event.op same, fun choice => ?_⟩
      rw [eval_findById, Except.ok.inj read, rehydrated_startOf sound]

/-- A snapshotting find awaits two operations, and both can always be performed. -/
theorem snapshotFind_proceeds
    (reached : (system kind snapshots).Reaches (Replays kind) (initial snapshots) p)
    (found : p.tasks[i]? = some t) (called : t.args = .snapshotFind id)
    (running : ∀ value, t.rest ≠ .ret value) :
    t.past.length < 2 ∧ ∀ choice, ∃ q, (system kind snapshots).step p (.step i choice) = some q := by
  cases rest : t.rest with
  | ret value => exact (running value rest).elim
  | await op next =>
      have awaits := awaits_of_reaches reached found rest
      refine ⟨?_, fun choice => ⟨_, System.step_of_serve found rest rfl⟩⟩
      rw [called] at awaits
      generalize t.past = past at awaits
      cases awaits with
      | saves saves => cases saves
      | loadsSnapshot => exact Nat.zero_lt_two
      | loadsTail => exact Nat.one_lt_two

/-- Snapshotting refines the full replay.  Any number of clients save and find through
snapshotting repositories with any intervals, over a snapshot store whose saves and loads may fail,
take effect late or replace newer snapshots; no stream is deleted, and every saved aggregate is the
fold of the events stored up to its version and of its pending ones.  Then every find returns after
two operations, with what the full replay would have returned when it read the stream, and nothing
pending. -/
theorem snapshots_refine_replay
    (reached : (system kind snapshots).Reaches (Replays kind) (initial snapshots) p)
    (found : p.tasks[i]? = some t) (called : t.args = .snapshotFind id) :
    (t.past.length < 2 ∧
      ∀ choice, ∃ q, (system kind snapshots).step p (.step i choice) = some q) ∨
    (∃ result, t.rest = .ret (.found result) ∧ FoundAt kind snapshots p i id result ∧
      ∀ aggregate, result = .ok (some aggregate) → aggregate.pending = []) := by
  by_cases running : ∀ value, t.rest ≠ .ret value
  · exact .inl (snapshotFind_proceeds reached found called running)
  · simp only [not_forall, not_not] at running
    obtain ⟨value, rest⟩ := running
    obtain ⟨result, rfl, foundAt⟩ := foundAt_of_returned reached found called rest
    refine .inr ⟨result, rest, foundAt, ?_⟩
    rintro aggregate rfl
    obtain ⟨entry, -, -, task, same⟩ := foundAt
    have replay := same entry.event.choice
    rw [eval_findById] at replay
    obtain ⟨-, full⟩ := Option.ite_none_left_eq_some.mp (Except.ok.inj replay)
    rw [← Option.some.inj full]

end Runs

/-- An account with a deposit on top of what is stored. -/
def deposited (balance version amount : ℕ) : Aggregate (ℕ × ℕ) (ℕ × ℕ) where
  state := (1, balance + amount)
  version := version
  pending := [(1, amount)]

/-- The first save writes its snapshot late, over that of the second; a find reads this stale
snapshot before a third save, whose snapshot is lost, and the stream after it. -/
def staleSnapshot : List AccountAction :=
  [.arrive (.snapshotSave (.new 1) (opened 5)), .arrive (.snapshotSave (.new 0) (deposited 5 1 2)),
    .arrive (.snapshotFind 1), .arrive (.snapshotSave (.new 3) (deposited 7 2 3)),
    .step 0 { snapshot := {} }, .step 1 { snapshot := {} }, .step 1 { snapshot := {} },
    .step 0 { snapshot := {} }, .step 2 { snapshot := {} }, .step 3 { snapshot := {} },
    .step 3 { snapshot := { save := some "unavailable" } }, .step 2 { snapshot := {} }]

theorem snapshots_refine_replay_stale : ∃ p : AccountPool,
    accounts.Reaches (Replays account) (initial InMemorySnapshotStore.store) p ∧
    FoundAt account InMemorySnapshotStore.store p 2 1
      (.ok (some { state := (1, 10), version := 3 })) := by
  have run : ((accounts.exec (initial InMemorySnapshotStore.store) staleSnapshot).any fun p =>
      p.tasks[2]?.any fun t => decide (t.args = .snapshotFind 1 ∧
        t.rest.result = some (.found (.ok (some { state := (1, 10), version := 3 }))))) = true := by
    decide +kernel
  obtain ⟨p, reached, found⟩ := System.exists_reaches_of_exec
    (C := Replays account) (by decide +kernel) run
  obtain ⟨t, at_, holds⟩ := (Option.any_eq_true _ _).mp found
  obtain ⟨called, returned⟩ := of_decide_eq_true holds
  have rest := Program.eq_ret_of_result returned
  refine ⟨p, reached, ?_⟩
  rcases snapshots_refine_replay reached at_ called with ⟨-, running⟩ | ⟨result, ended, foundAt, -⟩
  · obtain ⟨q, stepped⟩ := running { snapshot := {} }
    simp [System.step, at_, rest] at stepped
  · rw [rest] at ended
    cases ended
    exact foundAt

end EventSourcing

end Pharos
