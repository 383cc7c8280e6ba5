import Pharos.EventSourcing.Deletion

/-!
# How much a find replays

`SnapshottingEventSourcedRepository::save` refreshes the snapshot when the batch crosses a multiple
of `snapshot_every`, however many multiples it crosses.  The latest snapshot and the head of the
stream therefore always lie between the same two multiples, and the tail that `find_by_id` replays
on top of the snapshot is shorter than the interval.
-/

namespace Pharos

namespace EventSourcing

open Async

/-- Two numbers between the same multiples of `k` are less than `k` apart. -/
theorem sub_lt_of_div_eq {k low high : ℕ} (positive : 0 < k) (same : low / k = high / k) :
    high - low < k := by
  have above : high < k * (high / k) + k := Nat.lt_mul_div_succ high positive
  have below : k * (low / k) ≤ low := Nat.mul_div_le low k
  rw [same] at below
  omega

section Tail

variable {I St E σ : Type} [DecidableEq I]

/-- Stores that work: `stream` and `latest` are what they hold.  An append that is refused changes
nothing; one that is accepted adds the batch, numbered on, and unless the batch is empty the stream
had the expected length.  A snapshot newer than the latest becomes the latest. -/
structure WorkingStores (handle : σ → (op : StreamOp I St E) → σ × op.Reply)
    (stream : σ → I → List (StoredEvent E)) (latest : σ → I → Option (Snapshot (Aggregate St E))) :
    Prop where
  load : ∀ s id, handle s (.load id) = (s, .ok (stream s id))
  loadSnapshot : ∀ s id, handle s (.loadSnapshot id) = (s, .ok (latest s id))
  append_refused : ∀ {s s' id expected batch error},
    handle s (.append id expected batch) = (s', .error error) → stream s' = stream s
  append_accepted : ∀ {s s' id expected batch},
    handle s (.append id expected batch) = (s', .ok ()) →
      (batch ≠ [] → (stream s id).length = expected) ∧ ∀ other, stream s' other =
        if other = id then stream s id ++ numberFrom (stream s id).length batch
        else stream s other
  append_latest : ∀ {s s' id expected batch reply},
    handle s (.append id expected batch) = (s', reply) → latest s' = latest s
  save_latest : ∀ {s s' id snapshot reply},
    handle s (.saveSnapshot id snapshot) = (s', reply) →
      (∀ older, latest s id = some older → older.version < snapshot.version) →
        latest s' id = some snapshot
  save_other : ∀ {s s' id snapshot reply other},
    handle s (.saveSnapshot id snapshot) = (s', reply) → other ≠ id →
      latest s' other = latest s other
  save_stream : ∀ {s s' id snapshot reply},
    handle s (.saveSnapshot id snapshot) = (s', reply) → stream s' = stream s

/-- The version of the latest snapshot, `0` without one. -/
def covered {A : Type} : Option (Snapshot A) → ℕ
  | some snapshot => snapshot.version
  | none => 0

/-- The events recorded after the latest snapshot. -/
def replayTail {A : Type} (latest : Option (Snapshot A)) (stream : List (StoredEvent E)) :
    List (StoredEvent E) :=
  stream.filter fun stored => decide (covered latest < stored.sequence)

variable (handle : σ → (op : StreamOp I St E) → σ × op.Reply) (kind : EventSourced I St E)
  (repository : SnapshottingEventSourcedRepository)

/-- The stores after some saves, one after the other. -/
def afterSaves (saves : List (Aggregate St E)) (s : σ) : σ :=
  saves.foldl (fun s aggregate => ((repository.save kind aggregate).eval handle s).1) s

/-- The latest snapshot is of an earlier version of the stream, between the same multiples of the
interval as its head. -/
structure Covers {A : Type} (latest : Option (Snapshot A)) (stream : List (StoredEvent E)) :
    Prop where
  numbered : Numbered stream
  earlier : covered latest ≤ stream.length
  between : covered latest / repository.snapshotEvery = stream.length / repository.snapshotEvery

variable {handle kind repository} {stream : σ → I → List (StoredEvent E)}
  {latest : σ → I → Option (Snapshot (Aggregate St E))} {s s' : σ} {id : I}
  {aggregate : Aggregate St E}

theorem Covers.length_replayTail_lt {A : Type} {latest : Option (Snapshot A)}
    {stream : List (StoredEvent E)} (covers : Covers repository latest stream) :
    (replayTail latest stream).length < repository.snapshotEvery := by
  unfold replayTail
  rw [covers.numbered.filter_eq_drop, List.length_drop]
  exact sub_lt_of_div_eq repository.positive covers.between

/-- A find replays the events recorded after the latest snapshot. -/
theorem WorkingStores.find_replays_tail (working : WorkingStores handle stream latest) :
    (SnapshottingEventSourcedRepository.findById kind id).eval handle s =
      (s, .ok (rehydrated kind (startOf kind (.ok (latest s id)))
        (replayTail (latest s id) (stream s id)))) := by
  have version : (startOf kind (.ok (latest s id))).2 = covered (latest s id) := by
    cases latest s id with
    | none => rfl
    | some snapshot => rfl
  rw [snapshotFindById_eq, Program.eval_call, working.loadSnapshot]
  dsimp only
  rw [Program.eval_call, working.load, version]
  rfl

/-! ## One save -/

/-- A snapshot of the whole stream. -/
theorem covers_head {A : Type} {snapshot : Snapshot A} {stream : List (StoredEvent E)}
    (numbered : Numbered stream) (head : snapshot.version = stream.length) :
    Covers repository (some snapshot) stream :=
  ⟨numbered, le_of_eq head, congrArg (· / repository.snapshotEvery) head⟩

/-- The snapshot stays good until the stream crosses a multiple of the interval. -/
theorem Covers.grow {A : Type} {latest : Option (Snapshot A)} {stream : List (StoredEvent E)}
    (covers : Covers repository latest stream) {batch : List E}
    (within : stream.length / repository.snapshotEvery =
      (stream.length + batch.length) / repository.snapshotEvery) :
    Covers repository latest (stream ++ numberFrom stream.length batch) := by
  refine ⟨numbered_append covers.numbered batch, ?_, ?_⟩
  · rw [List.length_append]
    exact Nat.le_add_right_of_le covers.earlier
  · rw [List.length_append, length_numberFrom, covers.between, within]

/-- A batch that is not due crosses no multiple of the interval: it is empty, or the stream had the
expected length. -/
theorem within_of_not_due (idle : ¬ Due repository aggregate) {length : ℕ}
    (expected : aggregate.pending ≠ [] → length = aggregate.version) :
    length / repository.snapshotEvery =
      (length + aggregate.pending.length) / repository.snapshotEvery := by
  by_cases none : aggregate.pending = []
  · rw [none]
    rfl
  · rw [expected none]
    have grows : aggregate.version / repository.snapshotEvery ≤
        (saved aggregate).version / repository.snapshotEvery :=
      Nat.div_le_div_right (Nat.le_add_right _ _)
    exact le_antisymm grows (Nat.not_lt.mp idle)

theorem Due.pending_ne_nil (due : Due repository aggregate) : aggregate.pending ≠ [] := by
  intro none
  have grown := due.grown
  simp only [saved, none, List.length_nil] at grown
  exact absurd grown (Nat.lt_irrefl _)

/-- After an accepted append that crosses a multiple, the snapshot of the aggregate is one of the
whole stream. -/
theorem WorkingStores.covers_due (working : WorkingStores handle stream latest)
    (appended : handle s (appendOf kind aggregate) = (s', .ok ())) (due : Due repository aggregate)
    (covers : Covers repository (latest s (kind.id aggregate.state))
      (stream s (kind.id aggregate.state))) {after : σ} {reply : Except String Unit}
    (written : handle s' (.saveSnapshot (kind.id aggregate.state)
      ⟨saved aggregate, (saved aggregate).version⟩) = (after, reply)) :
    Covers repository (latest after (kind.id aggregate.state))
      (stream after (kind.id aggregate.state)) := by
  obtain ⟨expected, streams⟩ := working.append_accepted appended
  have before := expected due.pending_ne_nil
  have now : stream after (kind.id aggregate.state) = stream s (kind.id aggregate.state) ++
      numberFrom (stream s (kind.id aggregate.state)).length aggregate.pending := by
    rw [working.save_stream written, streams, if_pos rfl]
  have replaced : latest after (kind.id aggregate.state) =
      some ⟨saved aggregate, (saved aggregate).version⟩ := by
    refine working.save_latest written fun older found => ?_
    have earlier := covers.earlier
    rw [working.append_latest appended] at found
    rw [found, before] at earlier
    exact Nat.lt_of_le_of_lt earlier due.grown
  rw [replaced, now]
  refine covers_head (numbered_append covers.numbered _) ?_
  rw [List.length_append, length_numberFrom, before]
  rfl

theorem WorkingStores.covers_save (working : WorkingStores handle stream latest)
    (covers : Covers repository (latest s id) (stream s id)) :
    Covers repository (latest ((repository.save kind aggregate).eval handle s).1 id)
      (stream ((repository.save kind aggregate).eval handle s).1 id) := by
  rw [snapshotSave_eq, Program.eval_call]
  cases appended : handle s (appendOf kind aggregate) with
  | mk s' reply =>
  cases reply with
  | error error =>
      show Covers repository (latest s' id) (stream s' id)
      rw [working.append_latest appended, working.append_refused appended]
      exact covers
  | ok done =>
      obtain ⟨expected, streams⟩ := working.append_accepted appended
      have unwritten := working.append_latest appended
      by_cases due : Due repository aggregate
      · simp only [if_pos due]
        rw [Program.eval_call]
        cases written : handle s' (.saveSnapshot (kind.id aggregate.state)
            ⟨saved aggregate, (saved aggregate).version⟩) with
        | mk after reply =>
        show Covers repository (latest after id) (stream after id)
        by_cases here : id = kind.id aggregate.state
        · subst here
          exact working.covers_due appended due covers written
        · rw [working.save_other written here, working.save_stream written, unwritten, streams,
            if_neg here]
          exact covers
      · simp only [if_neg due]
        show Covers repository (latest s' id) (stream s' id)
        rw [unwritten, streams]
        split
        · next here =>
          subst here
          exact covers.grow (within_of_not_due due expected)
        · exact covers

/-! ## Any number of saves -/

theorem WorkingStores.covers_afterSaves (working : WorkingStores handle stream latest)
    (saves : List (Aggregate St E)) (covers : Covers repository (latest s id) (stream s id)) :
    Covers repository (latest (afterSaves handle kind repository saves s) id)
      (stream (afterSaves handle kind repository saves s) id) := by
  induction saves generalizing s with
  | nil => exact covers
  | cons aggregate saves ih => exact ih (working.covers_save covers)

theorem covers_nothing {A : Type} : Covers (E := E) repository (none : Option (Snapshot A)) [] :=
  ⟨rfl, Nat.zero_le _, rfl⟩

/-- Snapshots bound the tail.  For every event store and snapshot store that work, every
`snapshot_every` and all saves one after the other, of aggregates of any version and with any
pending events: after them, an id that started without events and without a snapshot has fewer
than `snapshot_every` (at least 1) events recorded after its latest snapshot, which are those that a
find replays, and no snapshot of a version beyond its stream. -/
theorem replay_tail_bounded (working : WorkingStores handle stream latest)
    (kind : EventSourced I St E) (snapshotEvery : ℕ) (saves : List (Aggregate St E))
    (empty : stream s id = []) (unsnapshotted : latest s id = none) :
    let after := afterSaves handle kind (.new snapshotEvery) saves s
    (replayTail (latest after id) (stream after id)).length < max snapshotEvery 1 ∧
      covered (latest after id) ≤ (stream after id).length ∧
      (SnapshottingEventSourcedRepository.findById kind id).eval handle after =
        (after, .ok (rehydrated kind (startOf kind (.ok (latest after id)))
          (replayTail (latest after id) (stream after id)))) := by
  have start : Covers (.new snapshotEvery) (latest s id) (stream s id) := by
    rw [empty, unsnapshotted]
    exact covers_nothing
  have covers : Covers (.new snapshotEvery)
      (latest (afterSaves handle kind (.new snapshotEvery) saves s) id)
      (stream (afterSaves handle kind (.new snapshotEvery) saves s) id) :=
    working.covers_afterSaves saves start
  exact ⟨covers.length_replayTail_lt, covers.earlier, working.find_replays_tail⟩

end Tail

/-- The in-memory stores work. -/
theorem workingStores_answer {I St E : Type} [DecidableEq I] :
    WorkingStores answer (fun (s : Stores I St E) id => s.store.load id)
      (fun s id => DashMap.get s.snapshots id) where
  load _ _ := rfl
  loadSnapshot _ _ := rfl
  append_refused := by
    intro s s' id expected batch error answered
    rcases serve_append (congrArg some answered) with ⟨rfl, -⟩ | ⟨accepted, -⟩
    · rfl
    · cases accepted
  append_accepted := by
    intro s s' id expected batch answered
    rcases serve_append (congrArg some answered) with ⟨-, error, refused⟩ | ⟨-, length, loads⟩
    · cases refused
    · refine ⟨fun _ => length, fun other => ?_⟩
      rw [length, loads]
  append_latest := by
    intro s s' id expected batch reply answered
    cases answered
    rfl
  save_latest := by
    intro s s' id snapshot reply answered _
    cases answered
    exact DashMap.get_put_self ..
  save_other := by
    intro s s' id snapshot reply other answered distinct
    cases answered
    exact DashMap.get_put_of_ne distinct
  save_stream := by
    intro s s' id snapshot reply answered
    cases answered
    rfl

/-- An account with any pending deposits on top of what is stored. -/
def depositing (version : ℕ) (amounts : List ℕ) : Aggregate (ℕ × ℕ) (ℕ × ℕ) where
  state := (1, amounts.sum)
  version := version
  pending := amounts.map fun amount => (1, amount)

/-- A first event, seven over two multiples of three, none, one at a stale version, two over the
third multiple, and one more. -/
def batches : List (Aggregate (ℕ × ℕ) (ℕ × ℕ)) :=
  [depositing 0 [5], depositing 1 [1, 2, 3, 4, 5, 6, 7], depositing 8 [], depositing 1 [9],
    depositing 8 [1, 2], depositing 10 [4]]

theorem replay_tail_bounded_batches :
    let after := afterSaves answer account (.new 3) batches { store := .new, snapshots := ∅ }
    (after.store.load 1).length = 11 ∧ covered (DashMap.get after.snapshots 1) = 10 ∧
      (replayTail (DashMap.get after.snapshots 1) (after.store.load 1)).length < 3 := by
  let fresh : Stores ℕ (ℕ × ℕ) (ℕ × ℕ) := { store := .new, snapshots := ∅ }
  have empty : fresh.store.load 1 = [] := rfl
  have unsnapshotted : DashMap.get fresh.snapshots 1 = none := rfl
  have bounded := replay_tail_bounded workingStores_answer account 3 batches empty unsnapshotted
  exact ⟨by decide +kernel, by decide +kernel, bounded.1⟩

end EventSourcing

end Pharos
