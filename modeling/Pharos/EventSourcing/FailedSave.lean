import Pharos.EventSourcing.Deletion

/-!
# Saves that fail

Both event-sourced repositories drain the pending events before the append and do not put them
back when the append is refused, so `save_and_publish`, which promises that a failed save keeps
them, loses them too.  Nothing is lost exactly when the append goes through or nothing was
pending.
-/

namespace Pharos

namespace EventSourcing

open Async

section FailedSave

variable {I St E σ ε : Type}

/-- If `save` fails with one of the errors `Failed`, the aggregate keeps its version and its pending
events, and another `save` is the same call as the one that failed. -/
def LosesNothing (handle : σ → (op : StreamOp I St E) → σ × op.Reply) (Failed : ε → Prop)
    (save : Aggregate St E → StreamM I St E (Aggregate St E × Except ε Unit)) (s : σ)
    (aggregate : Aggregate St E) : Prop :=
  ∀ after error, ((save aggregate).eval handle s).2 = (after, .error error) → Failed error →
    after.pending = aggregate.pending ∧ after.version = aggregate.version ∧
      save after = save aggregate

/-- The errors of `save_and_publish` that come from the save step. -/
def SaveFailed (error : ApplicationError) : Prop := ∃ source, error = mapRepositoryError source

/-- `EventBus::publish`, as the calls await it. -/
abbrev publish (event : E) : StreamM I St E (Except EventBusError Unit) :=
  StreamM.await (.publish event)

variable {handle : σ → (op : StreamOp I St E) → σ × op.Reply} {kind : EventSourced I St E}
  {repository : SnapshottingEventSourcedRepository} {s : σ} {aggregate : Aggregate St E}

/-- A call that fails its save step exactly when its append is refused, and then drops the pending
events. -/
structure Drains (handle : σ → (op : StreamOp I St E) → σ × op.Reply) (kind : EventSourced I St E)
    (Failed : ε → Prop) (save : Aggregate St E → StreamM I St E (Aggregate St E × Except ε Unit))
    (s : σ) (aggregate : Aggregate St E) : Prop where
  refused : ∀ source, (handle s (appendOf kind aggregate)).2 = .error source →
    ∃ error, Failed error ∧
      ((save aggregate).eval handle s).2 = ({ aggregate with pending := [] }, .error error)
  accepted : (handle s (appendOf kind aggregate)).2 = .ok () →
    ∀ error, ((save aggregate).eval handle s).2.2 = .error error → ¬ Failed error

/-- Nothing is lost if and only if the append is accepted or nothing was pending. -/
theorem Drains.losesNothing_iff {Failed : ε → Prop}
    {save : Aggregate St E → StreamM I St E (Aggregate St E × Except ε Unit)}
    (drains : Drains handle kind Failed save s aggregate) :
    LosesNothing handle Failed save s aggregate ↔
      (handle s (appendOf kind aggregate)).2 = .ok () ∨ aggregate.pending = [] := by
  cases outcome : (handle s (appendOf kind aggregate)).2 with
  | ok done =>
      refine ⟨fun _ => .inl rfl, fun _ after error ended failed => ?_⟩
      exact (drains.accepted outcome error (congrArg Prod.snd ended) failed).elim
  | error source =>
      obtain ⟨error, failed, ended⟩ := drains.refused source outcome
      constructor
      · intro kept
        obtain ⟨pending, -⟩ := kept _ error ended failed
        exact .inr pending.symm
      · rintro (accepted | none) after other ended' -
        · cases accepted
        · have same : { aggregate with pending := [] } = aggregate := by rw [← none]
          rw [ended, same] at ended'
          cases ended'
          exact ⟨rfl, rfl, rfl⟩

theorem drains_save :
    Drains handle kind (fun _ => True) (EventSourcedRepository.save kind) s aggregate := by
  refine ⟨fun source refused => ⟨source, trivial, ?_⟩, fun accepted error failed => ?_⟩
  · rw [save_eq, Program.eval_call, refused]
    rfl
  · rw [save_eq, Program.eval_call, accepted] at failed
    cases failed

theorem drains_snapshotSave :
    Drains handle kind (fun _ => True) (repository.save kind) s aggregate := by
  refine ⟨fun source refused => ⟨source, trivial, ?_⟩, fun accepted error failed => ?_⟩
  · rw [snapshotSave_eq, Program.eval_call, refused]
    rfl
  · rw [snapshotSave_eq, Program.eval_call, accepted] at failed
    by_cases due : Due repository aggregate
    · simp only [if_pos due] at failed
      cases failed
    · simp only [if_neg due] at failed
      cases failed

/-- Publishing comes after the save step and does not fail it. -/
theorem drains_saveAndPublish {save : SaveM (streamSignature I St E) St E}
    (drains : Drains handle kind (fun _ => True) save s aggregate) :
    Drains handle kind SaveFailed (saveAndPublish save publish) s aggregate := by
  refine ⟨fun source refused => ?_, fun accepted error failed => ?_⟩
  · obtain ⟨error, -, ended⟩ := drains.refused source refused
    refine ⟨mapRepositoryError error, ⟨error, rfl⟩, ?_⟩
    rw [saveAndPublish_of_error (congrArg Prod.snd ended), ended]
  · rintro ⟨source, rfl⟩
    cases ended : ((save aggregate).eval handle s).2.2 with
    | error other => exact drains.accepted accepted other ended trivial
    | ok done => exact saveAndPublish_of_ok ended source failed

/-- For every aggregate, every event store and every event bus: each of the two event-sourced saves,
and `save_and_publish` over each of them, loses nothing on a failed save step if and only if the
append is accepted or nothing was pending. -/
theorem failed_save_loses_nothing_iff (handle : σ → (op : StreamOp I St E) → σ × op.Reply)
    (kind : EventSourced I St E) (repository : SnapshottingEventSourcedRepository) (s : σ)
    (aggregate : Aggregate St E) :
    let Kept := (handle s (appendOf kind aggregate)).2 = .ok () ∨ aggregate.pending = []
    (LosesNothing handle (fun _ => True) (EventSourcedRepository.save kind) s aggregate ↔ Kept) ∧
    (LosesNothing handle (fun _ => True) (repository.save kind) s aggregate ↔ Kept) ∧
    (LosesNothing handle SaveFailed
      (saveAndPublish (EventSourcedRepository.save kind) publish) s aggregate ↔ Kept) ∧
    (LosesNothing handle SaveFailed
      (saveAndPublish (repository.save kind) publish) s aggregate ↔ Kept) :=
  ⟨drains_save.losesNothing_iff, drains_snapshotSave.losesNothing_iff,
    (drains_saveAndPublish drains_save).losesNothing_iff,
    (drains_saveAndPublish drains_snapshotSave).losesNothing_iff⟩

end FailedSave

/-- A second client opens an account that exists: the conflict is reported, the deposit is gone. -/
theorem conflict_loses_pending :
    let s := performed account (.new 5) [.save (opened 5)]
    ((EventSourcedRepository.save account (opened 7)).eval answer s).2 =
      ({ state := (1, 7), version := 0 }, .error (.concurrencyConflict 0 (some 1))) ∧
    (opened 7).pending = [(1, 7)] ∧
    ¬ LosesNothing answer (fun _ => True) (EventSourcedRepository.save account) s (opened 7) := by
  have ended : ((EventSourcedRepository.save account (opened 7)).eval answer
      (performed account (.new 5) [.save (opened 5)])).2 =
    ({ state := (1, 7), version := 0 }, .error (.concurrencyConflict 0 (some 1))) := by decide
  refine ⟨ended, rfl, fun kept => ?_⟩
  obtain ⟨pending, -⟩ := kept _ _ ended trivial
  cases pending

end EventSourcing

end Pharos
