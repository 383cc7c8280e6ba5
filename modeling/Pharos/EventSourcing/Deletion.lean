import Pharos.EventSourcing.Snapshots

/-!
# Deleting what was snapshotted

`SnapshottingEventSourcedRepository::delete` deletes the stream and leaves the snapshot.  Over a
sequence of calls on one repository and the in-memory stores, a find is the full replay for as
long as every delete meets an id without a snapshot; the first delete of an id that has one is
followed by a find that still returns the aggregate.
-/

namespace Pharos

namespace EventSourcing

open Async

/-- A call on a snapshotting repository. -/
inductive SnapshottingCall (I St E : Type) where
  | save (aggregate : Aggregate St E)
  | delete (id : I)
  | find (id : I)

section Deletion

variable {I St E : Type} [DecidableEq I]

/-- The in-memory stores. -/
abbrev Stores (I St E : Type) [DecidableEq I] :=
  StreamShared I E (InMemorySnapshotStore I (Aggregate St E))

/-- How the in-memory stores answer. -/
abbrev answer (s : Stores I St E) (op : StreamOp I St E) : Stores I St E × op.Reply :=
  respond InMemorySnapshotStore.store { snapshot := {} } s op

variable (kind : EventSourced I St E) (repository : SnapshottingEventSourcedRepository)

/-- The stores after one call. -/
def perform (s : Stores I St E) : SnapshottingCall I St E → Stores I St E
  | .save aggregate => ((repository.save kind aggregate).eval answer s).1
  | .delete id => ((SnapshottingEventSourcedRepository.delete id).eval answer s).1
  | .find id => ((SnapshottingEventSourcedRepository.findById kind id).eval answer s).1

/-- The stores after some calls, from empty ones. -/
def performed (calls : List (SnapshottingCall I St E)) : Stores I St E :=
  calls.foldl (perform kind repository) { store := .new, snapshots := ∅ }

/-- What a snapshotting find returns. -/
def finds (s : Stores I St E) (id : I) : Except String (Option (Aggregate St E)) :=
  ((SnapshottingEventSourcedRepository.findById kind id).eval answer s).2

/-- What a find of the plain repository over the same streams returns. -/
def replays (s : Stores I St E) (id : I) : Except String (Option (Aggregate St E)) :=
  ((EventSourcedRepository.findById kind id).eval answer s).2

/-- Every aggregate is replayable when it is saved. -/
def Lawful : List (SnapshottingCall I St E) → SnapshottingCall I St E → Prop
  | earlier, .save aggregate => Replayable kind (performed kind repository earlier).store aggregate
  | _, _ => True

instance [DecidableEq St] (earlier : List (SnapshottingCall I St E)) :
    DecidablePred (Lawful kind repository earlier)
  | .save aggregate => inferInstanceAs
      (Decidable (Replayable kind (performed kind repository earlier).store aggregate))
  | .delete _ | .find _ => .isTrue trivial

/-- A deleted id has no snapshot. -/
def Unsnapshotted : List (SnapshottingCall I St E) → SnapshottingCall I St E → Prop
  | earlier, .delete id => DashMap.get (performed kind repository earlier).snapshots id = none
  | _, _ => True

instance [DecidableEq St] [DecidableEq E] (earlier : List (SnapshottingCall I St E)) :
    DecidablePred (Unsnapshotted kind repository earlier)
  | .delete id => inferInstanceAs
      (Decidable (DashMap.get (performed kind repository earlier).snapshots id = none))
  | .save _ | .find _ => .isTrue trivial

/-- The call saves an aggregate with this id. -/
def SavesId (id : I) (call : SnapshottingCall I St E) : Prop :=
  ∃ aggregate, call = .save aggregate ∧ kind.id aggregate.state = id

/-- A deleted id is not found until it is saved again, and whatever is found is what the full
replay finds. -/
structure Agrees (calls : List (SnapshottingCall I St E)) : Prop where
  gone : ∀ id, Since (· = .delete id) (SavesId kind id) calls →
    finds kind (performed kind repository calls) id = .ok none
  same : ∀ id, finds kind (performed kind repository calls) id =
    replays kind (performed kind repository calls) id

variable {kind repository} {s : Stores I St E} {id : I} {aggregate : Aggregate St E}
  {calls : List (SnapshottingCall I St E)} {call : SnapshottingCall I St E}

theorem performed_concat : performed kind repository (calls ++ [call]) =
    perform kind repository (performed kind repository calls) call := by
  unfold performed
  rw [List.foldl_append]
  rfl

theorem replays_eq : replays kind s id = .ok (replayed kind (s.store.load id)) := by
  unfold replays
  rw [eval_findById]

/-- A find reads both stores and changes neither. -/
theorem eval_snapshotFindById :
    (SnapshottingEventSourcedRepository.findById kind id).eval answer s =
      (s, .ok (rehydrated kind (startOf kind (.ok (DashMap.get s.snapshots id)))
        ((s.store.load id).filter fun stored => decide
          ((startOf kind (.ok (DashMap.get s.snapshots id))).2 < stored.sequence)))) := by
  rw [snapshotFindById_eq]
  rfl

variable (kind repository s aggregate) in
/-- All that a save can do: nothing, or an append, or an append and the snapshot. -/
theorem save_cases :
    perform kind repository s (.save aggregate) = s ∨
    ∃ s', serve InMemorySnapshotStore.store s { snapshot := {} } (appendOf kind aggregate) =
      some (s', .ok ()) ∧
      ((¬ Due repository aggregate ∧ perform kind repository s (.save aggregate) = s') ∨
        (Due repository aggregate ∧ perform kind repository s (.save aggregate) =
          { s' with snapshots := (DashMap.put s'.snapshots (kind.id aggregate.state)
            ⟨saved aggregate, (saved aggregate).version⟩) })) := by
  have unfolded : perform kind repository s (.save aggregate) =
    ((repository.save kind aggregate).eval answer s).1 := rfl
  rw [snapshotSave_eq, Program.eval_call] at unfolded
  cases answered : answer s (appendOf kind aggregate) with
  | mk s' reply =>
      rw [answered] at unfolded
      have served : serve InMemorySnapshotStore.store s { snapshot := {} } (appendOf kind aggregate) =
        some (s', reply) := congrArg some answered
      cases reply with
      | error error =>
          rcases serve_append served with ⟨rfl, -⟩ | ⟨accepted, -⟩
          · exact .inl unfolded
          · cases accepted
      | ok done =>
          refine .inr ⟨s', served, ?_⟩
          by_cases due : Due repository aggregate
          · simp only [if_pos due] at unfolded
            exact .inr ⟨due, unfolded⟩
          · simp only [if_neg due] at unfolded
            exact .inl ⟨due, unfolded⟩

theorem perform_find : perform kind repository s (.find id) = s :=
  congrArg Prod.fst eval_snapshotFindById

theorem snapshots_of_append {s' : Stores I St E} {reply : Except RepositoryError Unit}
    (served : serve InMemorySnapshotStore.store s { snapshot := {} } (appendOf kind aggregate) =
      some (s', reply)) : s'.snapshots = s.snapshots := by
  cases served
  rfl

/-- A save leaves the streams of other ids alone. -/
theorem load_save (other : id ≠ kind.id aggregate.state) :
    (perform kind repository s (.save aggregate)).store.load id = s.store.load id := by
  have appends {s' : Stores I St E}
      (served : serve InMemorySnapshotStore.store s { snapshot := {} } (appendOf kind aggregate) =
        some (s', .ok ())) : s'.store.load id = s.store.load id := by
    rcases serve_append served with ⟨-, error, refused⟩ | ⟨-, -, loads⟩
    · cases refused
    · rw [loads, if_neg other]
  rcases save_cases kind repository s aggregate with
    idle | ⟨s', served, ⟨-, short⟩ | ⟨-, long⟩⟩
  · rw [idle]
  · rw [short, appends served]
  · rw [long, appends served]

/-- A snapshot was there before the call, or is that of the aggregate the call saved. -/
theorem get_perform {snapshot : Snapshot (Aggregate St E)}
    (found : DashMap.get (perform kind repository s call).snapshots id = some snapshot) :
    DashMap.get s.snapshots id = some snapshot ∨
    ∃ aggregate, call = .save aggregate ∧ Due repository aggregate ∧ kind.id aggregate.state = id ∧
      snapshot = ⟨saved aggregate, (saved aggregate).version⟩ := by
  cases call with
  | save aggregate =>
      rcases save_cases kind repository s aggregate with
        idle | ⟨s', served, ⟨-, short⟩ | ⟨due, long⟩⟩
      · rw [idle] at found
        exact .inl found
      · rw [short, snapshots_of_append served] at found
        exact .inl found
      · rw [long, DashMap.get_put, snapshots_of_append served] at found
        split at found
        · next here =>
          cases found
          exact .inr ⟨aggregate, rfl, due, here.symm, rfl⟩
        · exact .inl found
  | delete other => exact .inl found
  | find other =>
      rw [perform_find] at found
      exact .inl found

/-- Snapshots are of a positive version. -/
theorem positive_performed (calls : List (SnapshottingCall I St E)) {snapshot}
    (found : DashMap.get (performed kind repository calls).snapshots id = some snapshot) :
    0 < snapshot.version := by
  induction calls using List.reverseRecOn with
  | nil => cases found
  | append_singleton calls call ih =>
      rw [performed_concat] at found
      rcases get_perform found with before | ⟨aggregate, -, due, -, rfl⟩
      · exact ih before
      · exact Nat.zero_lt_of_lt due.grown

/-- A find that starts from a snapshot finds something. -/
theorem finds_ne_none {snapshot : Snapshot (Aggregate St E)}
    (found : DashMap.get s.snapshots id = some snapshot) (positive : 0 < snapshot.version) :
    finds kind s id ≠ .ok none := by
  intro none
  unfold finds at none
  rw [eval_snapshotFindById, found] at none
  have started : snapshot.version ≠ 0 := Nat.ne_of_gt positive
  have missing := Except.ok.inj none
  simp only [rehydrated, startOf, started, false_and, if_false] at missing
  cases missing

/-- The stream of a deleted id stays empty until the id is saved. -/
theorem load_of_deleted (deleted : Since (· = .delete id) (SavesId kind id) calls) :
    (performed kind repository calls).store.load id = [] := by
  induction calls using List.reverseRecOn with
  | nil => exact (not_since_nil deleted).elim
  | append_singleton calls call ih =>
      rw [performed_concat]
      rcases deleted.concat with rfl | ⟨earlier, unsaved⟩
      · show ((performed kind repository calls).store.deleteStream id).1.load id = []
        rw [InMemoryEventStore.load_deleteStream, if_pos rfl]
      · have before := ih earlier
        cases call with
        | save aggregate =>
            have other : id ≠ kind.id aggregate.state := fun same => unsaved ⟨aggregate, rfl, same.symm⟩
            rw [load_save other, before]
        | delete other =>
            show ((performed kind repository calls).store.deleteStream other).1.load id = []
            rw [InMemoryEventStore.load_deleteStream]
            split
            · rfl
            · exact before
        | find other => rw [perform_find, before]

/-! ## When snapshots survive deletion -/

/-- Every stored snapshot is sound. -/
def AllSound (kind : EventSourced I St E) (s : Stores I St E) : Prop :=
  ∀ id snapshot, DashMap.get s.snapshots id = some snapshot → Sound kind s.store id snapshot

theorem allSound_save (sound : AllSound kind s) (replayable : Replayable kind s.store aggregate) :
    AllSound kind (perform kind repository s (.save aggregate)) := by
  intro id snapshot found
  have kept {s' : Stores I St E}
      (served : serve InMemorySnapshotStore.store s { snapshot := {} } (appendOf kind aggregate) =
        some (s', .ok ())) (before : DashMap.get s.snapshots id = some snapshot) :
      Sound kind s'.store id snapshot :=
    (sound id snapshot before).mono (isPrefix_of_serve served fun deleted => by cases deleted)
  rcases save_cases kind repository s aggregate with
    idle | ⟨s', served, ⟨-, short⟩ | ⟨due, long⟩⟩
  · rw [idle] at found ⊢
    exact sound id snapshot found
  · rw [short] at found ⊢
    rw [snapshots_of_append served] at found
    exact kept served found
  · rw [long] at found ⊢
    rw [DashMap.get_put, snapshots_of_append served] at found
    show Sound kind s'.store id snapshot
    split at found
    · next here =>
      cases found
      rw [here]
      exact sound_saved served rfl replayable due.grown
    · exact kept served found

/-- A delete keeps the snapshots of the other ids sound. -/
theorem allSound_delete (sound : AllSound kind s) (none : DashMap.get s.snapshots id = none) :
    AllSound kind (perform kind repository s (.delete id)) := by
  intro other snapshot found
  have before : DashMap.get s.snapshots other = some snapshot := found
  have distinct : other ≠ id := by
    rintro rfl
    rw [none] at before
    cases before
  refine (sound other snapshot before).mono ?_
  have same : (perform kind repository s (.delete id)).store.events other = s.store.events other := by
    show ((s.store.deleteStream id).1.load other).map _ = (s.store.load other).map _
    rw [InMemoryEventStore.load_deleteStream, if_neg distinct]
  exact ⟨[], by rw [List.append_nil, same]⟩

theorem allSound_performed (lawful : Throughout (Lawful kind repository) calls)
    (unsnapshotted : Throughout (Unsnapshotted kind repository) calls) :
    ∀ earlier, earlier <+: calls → AllSound kind (performed kind repository earlier) := by
  intro earlier
  induction earlier using List.reverseRecOn with
  | nil =>
      intro _ id snapshot found
      cases found
  | append_singleton earlier call ih =>
      rintro ⟨later, split⟩
      rw [List.append_assoc] at split
      have before := ih ⟨_, split⟩
      have replayable := lawful earlier call later split.symm
      have none := unsnapshotted earlier call later split.symm
      rw [performed_concat]
      cases call with
      | save aggregate => exact allSound_save before replayable
      | delete id => exact allSound_delete before none
      | find id =>
          rw [perform_find]
          exact before

theorem agrees_of_allSound (sound : AllSound kind (performed kind repository calls)) :
    Agrees kind repository calls := by
  have same (id : I) : finds kind (performed kind repository calls) id =
      replays kind (performed kind repository calls) id := by
    rw [replays_eq, finds, eval_snapshotFindById]
    refine congrArg Except.ok (rehydrated_startOf fun snapshot found => ?_)
    exact sound id snapshot (Except.ok.inj found)
  refine ⟨fun id deleted => ?_, same⟩
  rw [same, replays_eq, load_of_deleted deleted]
  rfl

/-- A snapshotting repository agrees with the full replay after every call, and finds nothing
under a deleted id until it is saved again, if and only if no id is deleted that has a snapshot. -/
theorem agrees_iff_unsnapshotted (repository : SnapshottingEventSourcedRepository)
    (calls : List (SnapshottingCall I St E)) (lawful : Throughout (Lawful kind repository) calls) :
    (∀ earlier, earlier <+: calls → Agrees kind repository earlier) ↔
      Throughout (Unsnapshotted kind repository) calls := by
  constructor
  · intro agrees earlier call later split
    cases call with
    | save aggregate => trivial
    | find id => trivial
    | delete id =>
        -- right after the delete the snapshot would still be found
        have now : Agrees kind repository (earlier ++ [.delete id]) := by
          refine agrees _ ⟨later, ?_⟩
          rw [split, List.append_assoc]
          rfl
        have gone := now.gone id ⟨earlier, _, [], rfl, rfl, fun _ after => by cases after⟩
        show DashMap.get (performed kind repository earlier).snapshots id = none
        cases found : DashMap.get (performed kind repository earlier).snapshots id with
        | none => rfl
        | some snapshot =>
            have kept : DashMap.get
                (performed kind repository (earlier ++ [.delete id])).snapshots id = some snapshot := by
              rw [performed_concat]
              exact found
            exact (finds_ne_none kept (positive_performed earlier found) gone).elim
  · intro unsnapshotted earlier already
    exact agrees_of_allSound (allSound_performed lawful unsnapshotted earlier already)

end Deletion

/-- The account is deleted before the fifth event and opened again. -/
def reopened : List (SnapshottingCall ℕ (ℕ × ℕ) (ℕ × ℕ)) :=
  [.save (opened 5), .delete 1, .find 1, .save (opened 7)]

theorem agrees_iff_unsnapshotted_reopened :
    finds account (performed account (.new 5) reopened) 1 =
        .ok (some { state := (1, 7), version := 1 }) ∧
      Agrees account (.new 5) reopened := by
  have lawful : Throughout (Lawful account (.new 5)) reopened :=
    ((((throughout_nil _).concat (by decide)).concat (by decide)).concat (by decide)).concat
      (by decide)
  have unsnapshotted : Throughout (Unsnapshotted account (.new 5)) reopened :=
    ((((throughout_nil _).concat (by decide)).concat (by decide)).concat (by decide)).concat
      (by decide)
  refine ⟨by decide, ?_⟩
  exact (agrees_iff_unsnapshotted (.new 5) reopened lawful).mpr unsnapshotted reopened
    (List.prefix_refl _)

/-- The account is deleted after its first snapshot. -/
def snapshottedThenDeleted : List (SnapshottingCall ℕ (ℕ × ℕ) (ℕ × ℕ)) :=
  [.save (opened 5), .delete 1]

/-- The deleted account is still found. -/
theorem deleted_still_found :
    Throughout (Lawful account (.new 1)) snapshottedThenDeleted ∧
    finds account (performed account (.new 1) snapshottedThenDeleted) 1 =
      .ok (some { state := (1, 5), version := 1 }) ∧
    replays account (performed account (.new 1) snapshottedThenDeleted) 1 = .ok none ∧
    ¬ Agrees account (.new 1) snapshottedThenDeleted := by
  have found : finds account (performed account (.new 1) snapshottedThenDeleted) 1 =
    .ok (some { state := (1, 5), version := 1 }) := by decide
  have replay : replays account (performed account (.new 1) snapshottedThenDeleted) 1 =
    .ok none := by decide
  refine ⟨((throughout_nil _).concat (by decide)).concat (by decide), found, replay, ?_⟩
  intro agrees
  have same := agrees.same 1
  rw [found, replay] at same
  cases same

end EventSourcing

end Pharos
