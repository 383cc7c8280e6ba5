import Pharos.EventSourcing.Repository

/-!
# The integrity of event streams

A stream is what its trace says: `history` adds every batch that was appended and forgets
everything at a delete, and `events_eq_history` says that the store holds exactly that, under
any interleaving of saves, raw appends and deletes.  An append succeeds only on a stream of the
expected length, and a batch that is not empty makes the stream longer, so of the appends
that expect one version at most one succeeds between two deletes.
-/

namespace Pharos

namespace EventSourcing

open Async

section Streams

variable {I St E β χ : Type} [DecidableEq I]

/-- The stream, the expected version and the batch of an append that succeeded. -/
def appendedAs : StreamEvent I St E χ → Option (I × ℕ × List E)
  | ⟨_, .append id expected events, .ok ()⟩ => some (id, expected, events)
  | _ => none

/-- The stream that was deleted. -/
def deletedId : StreamEvent I St E χ → Option I
  | ⟨_, .deleteStream id, _⟩ => some id
  | _ => none

/-- What an operation makes of the events of a stream. -/
def extend (id : I) (stream : List E) : StreamEvent I St E χ → List E
  | ⟨_, .append other _ events, .ok ()⟩ => if other = id then stream ++ events else stream
  | ⟨_, .deleteStream other, _⟩ => if other = id then [] else stream
  | _ => stream

/-- The batches appended to a stream since it was last deleted, one after the other. -/
def history (id : I) (trace : List (StreamEntry I St E β χ)) : List E :=
  trace.foldl (fun stream entry => extend id stream entry.event) []

/-- The entry adds a batch that is not empty to the stream of `id`, expecting `version`. -/
def Extends (id : I) (version : ℕ) (entry : StreamEntry I St E β χ) : Prop :=
  ∃ events, appendedAs entry.event = some (id, version, events) ∧ events ≠ []

/-- The entry deletes the stream of `id`. -/
def Deletes (id : I) (entry : StreamEntry I St E β χ) : Prop := deletedId entry.event = some id

/-- Of the appends that expect one version, with no delete between them, one succeeds. -/
def OncePerVersion (earlier : List (StreamEntry I St E β χ)) (entry : StreamEntry I St E β χ) :
    Prop :=
  ∀ id version, Extends id version entry → ¬ Since (Extends id version) (Deletes id) earlier

variable {kind : EventSourced I St E} {snapshots : SnapshotStore I (Aggregate St E) β χ}
  {s s' : StreamShared I E β} {choice : StreamChoice χ} {op : StreamOp I St E} {reply : op.Reply}
  {id : I}

/-- An append is refused and changes nothing, or adds to a stream of the expected length. -/
theorem serve_append {expected : ℕ} {batch : List E} {reply : Except RepositoryError Unit}
    (served : serve snapshots s choice (.append id expected batch : StreamOp I St E) =
      some (s', reply)) :
    (s' = s ∧ ∃ error, reply = .error error) ∨
    (reply = .ok () ∧ (s.store.load id).length = expected ∧ ∀ other, s'.store.load other =
      if other = id then s.store.load id ++ numberFrom expected batch else s.store.load other) := by
  cases answered : s.store.append id expected batch with
  | mk store result =>
      simp only [serve, respond, answered, Option.some.injEq, Prod.mk.injEq] at served
      obtain ⟨rfl, rfl⟩ := served
      rcases InMemoryEventStore.append_cases answered with ⟨rfl, actual, refused⟩ | accepted
      · exact .inl ⟨rfl, _, refused⟩
      · exact .inr accepted

/-- Every operation changes the streams as the trace will say. -/
theorem serve_events (id : I) (served : serve snapshots s choice op = some (s', reply)) :
    s'.store.events id = extend id (s.store.events id) ⟨choice, op, reply⟩ := by
  cases op with
  | append other expected batch =>
      rcases serve_append served with ⟨rfl, error, rfl⟩ | ⟨rfl, -, loads⟩
      · rfl
      · simp only [InMemoryEventStore.events, extend, loads]
        by_cases here : other = id
        · subst here
          rw [if_pos rfl, if_pos rfl, List.map_append, map_event_numberFrom]
        · rw [if_neg (Ne.symm here), if_neg here]
  | deleteStream other =>
      cases served
      simp only [InMemoryEventStore.events, extend, InMemoryEventStore.load_deleteStream]
      by_cases here : other = id
      · subst here
        rw [if_pos rfl, if_pos rfl, List.map_nil]
      · rw [if_neg (Ne.symm here), if_neg here]
  | _ =>
      cases served
      rfl

/-- An append succeeds on a stream of the expected length. -/
theorem length_of_appendedAs (served : serve snapshots s choice op = some (s', reply))
    {expected : ℕ} {batch : List E}
    (appended : appendedAs ⟨choice, op, reply⟩ = some (id, expected, batch)) :
    (s.store.load id).length = expected ∧
      (s'.store.load id).length = expected + batch.length := by
  cases op with
  | append other version events =>
      rcases serve_append served with ⟨-, error, rfl⟩ | ⟨rfl, length, loads⟩
      · cases appended
      · cases appended
        rw [loads, if_pos rfl, List.length_append, length_numberFrom, length]
        exact ⟨rfl, rfl⟩
  | _ => cases appended

/-- An append of a batch that is refused, or empty, changes no stream. -/
theorem load_of_idle {expected : ℕ} {batch : List E} {reply : Except RepositoryError Unit}
    (served : serve snapshots s choice (.append id expected batch : StreamOp I St E) =
      some (s', reply)) (idle : reply ≠ .ok () ∨ batch = []) (other : I) :
    s'.store.load other = s.store.load other := by
  rcases serve_append served with ⟨rfl, -⟩ | ⟨accepted, -, loads⟩
  · rfl
  · rcases idle with refused | rfl
    · exact (refused accepted).elim
    · rw [loads]
      split
      · next here =>
        rw [here]
        exact List.append_nil _
      · rfl

/-- Streams only shrink by being deleted. -/
theorem length_le_of_serve (served : serve snapshots s choice op = some (s', reply))
    (kept : deletedId ⟨choice, op, reply⟩ ≠ some id) :
    (s.store.load id).length ≤ (s'.store.load id).length := by
  cases op with
  | append other expected batch =>
      rcases serve_append served with ⟨rfl, -⟩ | ⟨-, -, loads⟩
      · exact le_refl _
      · rw [loads]
        split
        · next here =>
          rw [here, List.length_append]
          omega
        · exact le_refl _
  | deleteStream other =>
      cases served
      have here : id ≠ other := fun same => kept (congrArg some same.symm)
      rw [InMemoryEventStore.load_deleteStream, if_neg here]
  | _ =>
      cases served
      exact le_refl _

/-! ## Whole runs -/

variable {C : StreamPool I St E β χ → Action (StreamChoice χ) (StreamCall I St E) → Prop}
  {p : StreamPool I St E β χ}

/-- The stored events are the batches that were appended. -/
theorem events_eq_history (reached : (system kind snapshots).Reaches C (initial snapshots) p)
    (id : I) : p.shared.store.events id = history id p.trace := by
  refine reached.invariant (P := fun p : StreamPool I St E β χ =>
    p.shared.store.events id = history id p.trace) rfl ?_
  intro q r action _ same _ stepped
  obtain ⟨arrival, shared, args, rfl, arrived, rfl⟩ |
    ⟨i, choice, t, op, next, shared, reply, rfl, found, awaits, served, rfl⟩ :=
    System.step_cases stepped
  · obtain rfl := shared_of_arrive arrived
    exact same
  · rw [Pool.advance_shared, Pool.advance_trace, serve_events id served, same, history, history,
      List.foldl_append]
    rfl

/-- A version that was extended lies behind the end of the stream until it is deleted. -/
theorem lt_length_of_since (reached : (system kind snapshots).Reaches C (initial snapshots) p)
    {version : ℕ} (since : Since (Extends id version) (Deletes id) p.trace) :
    version < (p.shared.store.load id).length := by
  revert since
  refine reached.invariant (P := fun p : StreamPool I St E β χ =>
    Since (Extends id version) (Deletes id) p.trace → version < (p.shared.store.load id).length)
    (fun since => (not_since_nil since).elim) ?_
  intro q r action _ bound _ stepped since
  obtain ⟨arrival, shared, args, rfl, arrived, rfl⟩ |
    ⟨i, choice, t, op, next, shared, reply, rfl, found, awaits, served, rfl⟩ :=
    System.step_cases stepped
  · obtain rfl := shared_of_arrive arrived
    exact bound since
  · rcases since.concat with ⟨batch, appended, nonempty⟩ | ⟨earlier, kept⟩
    · have length := (length_of_appendedAs served appended).2
      have positive := List.length_pos_iff.mpr nonempty
      rw [Pool.advance_shared]
      omega
    · exact (bound earlier).trans_le (length_le_of_serve served kept)

theorem oncePerVersion_of_reaches
    (reached : (system kind snapshots).Reaches C (initial snapshots) p) :
    Throughout OncePerVersion p.trace := by
  refine reached.throughout rfl ?_
  intro q i t op next choice shared reply before _ _ _ served id version extends_ since
  obtain ⟨batch, appended, -⟩ := extends_
  have behind := lt_length_of_since before since
  have length := (length_of_appendedAs served appended).1
  omega

/-- Every append that succeeded met a stream of the expected length, every load returned the
stream as it was, and a save appends its own batch at its own version. -/
structure Faithful (kind : EventSourced I St E) (entry : StreamEntry I St E β χ) : Prop where
  appended : ∀ id expected batch, appendedAs entry.event = some (id, expected, batch) →
    (entry.before.store.load id).length = expected
  loaded : ∀ choice id reply, entry.event = ⟨choice, .load id, reply⟩ →
    reply = .ok (entry.before.store.load id)
  saves : ∀ aggregate id expected batch, saving entry.args = some aggregate →
    entry.event.op = .append id expected batch →
      id = kind.id aggregate.state ∧ expected = aggregate.version ∧ batch = aggregate.pending

theorem faithful_of_reaches (reached : (system kind snapshots).Reaches C (initial snapshots) p) :
    ∀ entry ∈ p.trace, Faithful kind entry := by
  refine reached.forall_trace rfl ?_
  intro q i t op next choice shared reply before found rest _ served
  refine ⟨fun id expected batch appended => (length_of_appendedAs served appended).1, ?_, ?_⟩
  · rintro choice' id reply' same
    cases same
    cases served
    rfl
  · rintro aggregate id expected batch saves same
    have awaits : Awaits kind t.args t.past op := awaits_of_reaches before found rest
    have here : op = .append id expected batch := same
    subst here
    generalize t.args = call at awaits saves
    generalize t.past = past at awaits
    cases awaits with
    | saves saves' =>
        cases saves'.symm.trans saves
        exact ⟨rfl, rfl, rfl⟩
    | appends => cases saves

/-- The entry is an append that was refused or had nothing to add. -/
def Idles (entry : StreamEntry I St E β χ) : Prop :=
  ∃ choice id expected batch reply, entry.event = ⟨choice, .append id expected batch, reply⟩ ∧
    (reply ≠ .ok () ∨ batch = [])

theorem load_of_idles {q : StreamPool I St E β χ} {action : Action (StreamChoice χ) (StreamCall I St E)}
    {entry : StreamEntry I St E β χ} (stepped : (system kind snapshots).step p action = some q)
    (last : q.trace = p.trace ++ [entry]) (idles : Idles entry) (id : I) :
    q.shared.store.load id = p.shared.store.load id := by
  obtain ⟨arrival, shared, args, rfl, arrived, rfl⟩ |
    ⟨i, choice, t, op, next, shared, reply, rfl, found, awaits, served, rfl⟩ :=
    System.step_cases stepped
  · simp at last
  · obtain ⟨choice', id', expected, batch, reply', same, idle⟩ := idles
    rw [Pool.advance_trace, List.append_cancel_left_eq] at last
    cases last
    cases same
    have answered : serve snapshots p.shared choice (.append id' expected batch : StreamOp I St E) =
      some (shared, reply') := served
    exact load_of_idle answered idle id

/-- The aggregate a successful save left behind: its version is the length of its stream after
the append, and nothing is pending. -/
def SavedAt (p : StreamPool I St E β χ) (kind : EventSourced I St E) (i : ℕ)
    (before after : Aggregate St E) : Prop :=
  after.state = before.state ∧ after.pending = [] ∧ ∃ entry ∈ p.trace, entry.task = i ∧
    appendedAs entry.event = some (kind.id before.state, before.version, before.pending) ∧
    after.version =
      (entry.before.store.load (kind.id before.state)).length + before.pending.length

/-- What a finished `load_after` returned. -/
def LoadedAt (p : StreamPool I St E β χ) (i : ℕ) (id : I) (after : ℕ)
    (value : StreamReturn St E) : Prop :=
  ∃ entry ∈ p.trace, entry.task = i ∧ entry.event.op = .load id ∧
    value = .loaded (.ok ((entry.before.store.load id).filter fun stored =>
      decide (after < stored.sequence))) ∧
    ((entry.before.store.load id).filter fun stored => decide (after < stored.sequence)) =
      (entry.before.store.load id).drop after

section Returns

variable (reached : (system kind snapshots).Reaches C (initial snapshots) p) {i : ℕ}
  {t : Async.Task (streamSignature I St E) (StreamChoice χ) (StreamCall I St E) (StreamReturn St E)}
  (found : p.tasks[i]? = some t)

include reached found

theorem savedAt_of_returned {before after : Aggregate St E} (saves : saving t.args = some before)
    (rest : t.rest = .ret (.saved after (.ok ()))) : SavedAt p kind i before after := by
  have returned := returned_of_reaches reached found rest
  generalize t.args = call at saves returned
  generalize did : t.past = past at returned
  cases returned with
  | saved saves' appended =>
      cases saves'.symm.trans saves
      rw [← did] at appended
      obtain ⟨entry, inTrace, task, -, same⟩ := reached.mem_trace rfl rfl found appended
      have appended : appendedAs entry.event =
          some (kind.id before.state, before.version, before.pending) := by
        rw [same]
        rfl
      refine ⟨rfl, rfl, entry, inTrace, task, appended, ?_⟩
      rw [(faithful_of_reaches reached entry inTrace).appended _ _ _ appended]
      rfl

theorem loadedAt_of_returned {id : I} {after : ℕ} {value : StreamReturn St E}
    (called : t.args = .loadAfter id after) (rest : t.rest = .ret value) :
    LoadedAt p i id after value := by
  have returned := returned_of_reaches reached found rest
  rw [called] at returned
  generalize did : t.past = past at returned
  cases returned with
  | saved saves _ => cases saves
  | refused saves => cases saves
  | @loaded _ _ choice events =>
      have loaded : ⟨choice, .load id, .ok events⟩ ∈ t.past := did ▸ List.mem_singleton_self _
      obtain ⟨entry, inTrace, task, -, same⟩ := reached.mem_trace rfl rfl found loaded
      have read := (faithful_of_reaches reached entry inTrace).loaded _ _ _ same
      cases read
      refine ⟨entry, inTrace, task, congrArg Event.op same, rfl, ?_⟩
      exact (entry.before.store.numbered_load id).filter_eq_drop after

end Returns

/-- Stream integrity, for any number of clients and any interleaving of their saves, appends,
deletes and loads: every stream is numbered 1 to n and is the concatenation of the batches
appended since its last delete; between two deletes at most one batch that is not empty is
appended at an expected version; an append that is refused, or that has nothing to add, changes
no stream; a save appends its own pending events at its own version, and a successful one
leaves an aggregate with nothing pending at the version its append brought the stream to; and
`load_after` returns the events behind the given sequence. -/
theorem streams_intact (reached : (system kind snapshots).Reaches C (initial snapshots) p) :
    (∀ id, (p.shared.store.load id).map StoredEvent.sequence =
      List.range' 1 (p.shared.store.load id).length) ∧
    (∀ id, (p.shared.store.load id).map StoredEvent.event = history id p.trace) ∧
    Throughout OncePerVersion p.trace ∧
    (∀ action q entry, (system kind snapshots).step p action = some q →
      q.trace = p.trace ++ [entry] → Idles entry →
      ∀ id, q.shared.store.load id = p.shared.store.load id) ∧
    (∀ entry ∈ p.trace, ∀ aggregate id expected batch, saving entry.args = some aggregate →
      entry.event.op = .append id expected batch →
        id = kind.id aggregate.state ∧ expected = aggregate.version ∧ batch = aggregate.pending) ∧
    (∀ i t before after, p.tasks[i]? = some t → saving t.args = some before →
      t.rest = .ret (.saved after (.ok ())) → SavedAt p kind i before after) ∧
    (∀ i t id after value, p.tasks[i]? = some t → t.args = .loadAfter id after →
      t.rest = .ret value → LoadedAt p i id after value) := by
  have faithful := faithful_of_reaches reached
  refine ⟨p.shared.store.numbered_load, events_eq_history reached, oncePerVersion_of_reaches reached,
    fun action q entry => load_of_idles, fun entry member => (faithful entry member).saves, ?_, ?_⟩
  · intro i t before after found saves rest
    exact savedAt_of_returned reached found saves rest
  · intro i t id after value found called rest
    exact loadedAt_of_returned reached found called rest

end Streams

/-- Two clients open the same account; the second is refused, and a raw append adds a deposit. -/
def rivals : List AccountAction :=
  [.arrive (.save (opened 5)), .arrive (.save (opened 7)), .arrive (.append 1 1 [(1, 2), (1, 3)]),
    .step 0 { snapshot := {} }, .step 1 { snapshot := {} }, .step 2 { snapshot := {} }]

theorem streams_intact_rivals : ∃ p : AccountPool,
    accounts.Reaches System.Any (initial InMemorySnapshotStore.store) p ∧
    (p.shared.store.load 1).map StoredEvent.sequence = [1, 2, 3] ∧
    history 1 p.trace = [(1, 5), (1, 2), (1, 3)] ∧
    SavedAt p account 0 (opened 5) { state := (1, 5), version := 1 } := by
  have run : ((accounts.exec (initial InMemorySnapshotStore.store) rivals).any fun p =>
      decide ((p.shared.store.load 1).length = 3 ∧
        (p.shared.store.load 1).map StoredEvent.event = [(1, 5), (1, 2), (1, 3)]) &&
        p.tasks[0]?.any fun t => decide (saving t.args = some (opened 5) ∧
          t.rest.result = some (.saved { state := (1, 5), version := 1 } (.ok ())))) = true := by
    decide +kernel
  obtain ⟨p, reached, found⟩ := System.exists_reaches_of_exec
    (C := System.Any) (System.along_any _ _ _) run
  simp only [Bool.and_eq_true, Option.any_eq_true, decide_eq_true_eq] at found
  obtain ⟨⟨length, events⟩, t, at_, saves, returned⟩ := found
  obtain ⟨numbered, concatenated, -, -, -, saved, -⟩ := streams_intact reached
  refine ⟨p, reached, ?_, (concatenated 1).symm.trans events, ?_⟩
  · rw [numbered 1, length]
    rfl
  · exact saved 0 t (opened 5) _ at_ saves (Program.eq_ret_of_result returned)

end EventSourcing

end Pharos
