import Pharos.Saga.Leases
import Pharos.Saga.Outline

/-!
# Serializability of saga updates

Whatever the interleaving, the stored state and status of a saga are the left fold
of the transitions that were saved, in the order of the saves, and each of these
transitions was computed from exactly what the fold had reached.  The version of a
row counts its saves and claims.

`serve_row` says what one operation does to one row.  `History` is the invariant
over the trace; a step extends it by what `serve_row` and the `Persists` annotation
of the runner's outline say about its entry.
-/

namespace Pharos

namespace SagaRunner

open Async

variable {I St E C ε : Type} [DecidableEq I]

/-- The transition that the operation of `entry` persisted for `id`. -/
def persisted (id : I) (entry : SagaEntry I St E C ε) : Option (SagaTransition St C) :=
  match entry.event with
  | ⟨_, .save inst, .ok ()⟩ =>
      if inst.id = id then (decision entry.past).map Prod.snd else none
  | _ => none

/-- The operation saved or claimed the row of `id`. -/
def Raises (id : I) : SagaEvent I St E C ε → Prop
  | ⟨_, .save inst, .ok ()⟩ => inst.id = id
  | ⟨_, .claimDue _ _ _, .ok due⟩ => ∃ inst ∈ due, inst.id = id
  | _ => False

instance decidableRaises (id : I) : DecidablePred (@Raises I St E C ε id)
  | ⟨_, .save inst, .ok ()⟩ => inferInstanceAs (Decidable (inst.id = id))
  | ⟨_, .claimDue _ _ _, .ok due⟩ => inferInstanceAs (Decidable (∃ inst ∈ due, inst.id = id))
  | ⟨_, .save _, .error _⟩ | ⟨_, .claimDue _ _ _, .error _⟩ | ⟨_, .load _, _⟩ |
    ⟨_, .react _ _, _⟩ | ⟨_, .onTimeout _, _⟩ | ⟨_, .utcNow, _⟩ | ⟨_, .nowV7, _⟩ |
    ⟨_, .insert _, _⟩ => .isFalse not_false

/-- The version of the row of `id`, 0 when there is none. -/
def versionOf (s : SagaShared I St) (id : I) : ℕ := (s.store.get id).elim 0 SagaInstance.version

/-- The stored state and status of `id`. -/
def viewOf (s : SagaShared I St) (id : I) : Option (St × SagaStatus) :=
  (s.store.get id).map SagaInstance.view

/-- The fold of the transitions persisted for `id`, in the order of their saves. -/
def replay (id : I) (trace : List (SagaEntry I St E C ε)) : Option (St × SagaStatus) :=
  (trace.filterMap (persisted id)).foldl SagaTransition.apply none

/-- The entry saved `id`, with a transition computed from the row it replaced, which was
the fold of the saves before it. -/
def SavesOnTop (runner : SagaRunner I St E C ε) (id : I)
    (earlier : List (SagaEntry I St E C ε)) (entry : SagaEntry I St E C ε) : Prop :=
  ∀ choice inst, entry.event = ⟨choice, .save inst, .ok ()⟩ → inst.id = id →
    ∃ current transition, persisted id entry = some transition ∧
      runner.Computed entry.args current transition ∧
      current.map SagaInstance.view = viewOf entry.before id ∧
      viewOf entry.before id = replay id earlier

/-- The row of `id` is what its saves left, each on top of the one before. -/
structure History (runner : SagaRunner I St E C ε) (id : I) (p : SagaPool I St E C ε) :
    Prop where
  stored : viewOf p.shared id = replay id p.trace
  saves : Throughout (runner.SavesOnTop id) p.trace

variable {runner : SagaRunner I St E C ε} {s s' : SagaShared I St} {call : SagaCall E}
  {past : List (SagaEvent I St E C ε)}

/-! ## One operation, one row -/

theorem StoreInv.keyed (inv : StoreInv s) : s.store.Keyed := by
  intro id row found
  obtain ⟨same, written, -⟩ := inv id row found
  exact ⟨same, written⟩

/-- An operation that neither saves nor claims a row leaves it as it is; one that does
raises its version by one. -/
theorem serve_row {choice : SagaChoice I} {op : SagaOp I St E} {reply : op.Reply C ε}
    (keyed : s.store.Keyed) (served : runner.serve s choice op = some (s', reply)) (id : I) :
    Raises (E := E) (C := C) (ε := ε) id ⟨choice, op, reply⟩ ∧
        versionOf s' id = versionOf s id + 1 ∨
      ¬ Raises (E := E) (C := C) (ε := ε) id ⟨choice, op, reply⟩ ∧
        s'.store.get id = s.store.get id := by
  cases op with
  | save inst =>
      cases served
      rcases InMemorySagaStore.save_cases s.store inst with ⟨expected, actual, eq⟩ | ⟨row, eq⟩
      · simp only [eq]
        exact .inr ⟨not_false, trivial⟩
      · simp only [eq]
        by_cases same : inst.id = id
        · subst same
          refine .inl ⟨rfl, ?_⟩
          rcases row with ⟨absent, fresh⟩ | ⟨stored, found, same⟩
          · simp [versionOf, absent, fresh]
          · simp [versionOf, found, same]
        · exact .inr ⟨same, DashMap.get_put_of_ne (Ne.symm same)⟩
  | claimDue now lease limit =>
      simp only [serve] at served
      split at served
      · next iterated =>
        cases served
        by_cases member : id ∈ s.store.dueIds choice.order now limit
        · rcases InMemorySagaStore.due_of_mem_dueIds member with ⟨entry, found, due⟩
          have claimed : { entry with version := entry.version + 1 } ∈
              (s.store.claimDue choice.order now lease limit).2 :=
            InMemorySagaStore.claimed_of_mem_dueIds iterated member found
          refine .inl ⟨⟨_, claimed, (keyed id entry found).1⟩, ?_⟩
          simp [versionOf, InMemorySagaStore.claimDue_get iterated, member, found]
        · refine .inr ⟨?_, ?_⟩
          · rintro ⟨inst, claimed, same⟩
            rcases InMemorySagaStore.mem_claimDue iterated claimed with
              ⟨other, entry, picked, found, -, rfl⟩
            have own : entry.id = other := (keyed other entry found).1
            exact member (same ▸ own ▸ picked)
          · simp [InMemorySagaStore.claimDue_get iterated, member]
      · cases served
  | insert message =>
      simp only [serve] at served
      split at served <;> cases served <;> exact .inr ⟨not_false, rfl⟩
  | load _ | react _ _ | onTimeout _ | utcNow | nowV7 =>
      cases served
      exact .inr ⟨not_false, rfl⟩

/-- Only a successful save changes the state or the status of a row. -/
theorem serve_view {choice : SagaChoice I} {op : SagaOp I St E} {reply : op.Reply C ε}
    (served : runner.serve s choice op = some (s', reply)) (id : I) :
    (∃ inst : SagaInstance I St,
      (⟨choice, op, reply⟩ : SagaEvent I St E C ε) = ⟨choice, .save inst, .ok ()⟩ ∧
      inst.id = id ∧
      (s.store.get id = none ∧ inst.version = 0 ∨
        ∃ stored, s.store.get id = some stored ∧ stored.version = inst.version) ∧
      viewOf s' id = some inst.view) ∨
    ((∀ choice' (inst : SagaInstance I St),
        (⟨choice, op, reply⟩ : SagaEvent I St E C ε) = ⟨choice', .save inst, .ok ()⟩ →
          inst.id ≠ id) ∧
      viewOf s' id = viewOf s id) := by
  cases op with
  | save inst =>
      cases served
      rcases InMemorySagaStore.save_cases s.store inst with ⟨expected, actual, eq⟩ | ⟨row, eq⟩
      · simp only [eq]
        exact .inr ⟨fun _ _ same => (by cases same), trivial⟩
      · simp only [eq]
        by_cases same : inst.id = id
        · subst same
          refine .inl ⟨inst, rfl, rfl, row, ?_⟩
          simp [viewOf, SagaInstance.view]
        · refine .inr ⟨fun _ _ event => ?_, ?_⟩
          · cases event
            exact same
          · simp only [viewOf, DashMap.get_put_of_ne (Ne.symm same)]
  | claimDue now lease limit =>
      simp only [serve] at served
      split at served
      · next iterated =>
        cases served
        refine .inr ⟨fun _ _ same => (by cases same), ?_⟩
        simp only [viewOf, InMemorySagaStore.claimDue_get iterated]
        split
        · rw [Option.map_map]
          rfl
        · rfl
      · cases served
  | insert message =>
      simp only [serve] at served
      split at served <;> cases served <;> exact .inr ⟨fun _ _ same => (by cases same), rfl⟩
  | load _ | react _ _ | onTimeout _ | utcNow | nowV7 =>
      cases served
      exact .inr ⟨fun _ _ same => (by cases same), rfl⟩

/-! ## Whole runs -/

theorem persisted_eq_none {id : I} {entry : SagaEntry I St E C ε}
    (other : ∀ choice (inst : SagaInstance I St),
      entry.event = ⟨choice, .save inst, .ok ()⟩ → inst.id ≠ id) : persisted id entry = none := by
  unfold persisted
  split
  · next choice inst same => exact if_neg (other choice inst same)
  · rfl

theorem replay_concat (id : I) (trace : List (SagaEntry I St E C ε))
    (entry : SagaEntry I St E C ε) :
    replay id (trace ++ [entry]) =
      (persisted id entry).elim (replay id trace) (SagaTransition.apply (replay id trace)) := by
  unfold replay
  rw [List.filterMap_append, List.foldl_append]
  cases found : persisted id entry <;> simp [found]

/-- The history of a row is kept by every step of every call. -/
theorem History.step {p q : SagaPool I St E C ε} {action : Action (SagaChoice I) (SagaCall E)}
    {id : I} (reached : runner.system.Reaches System.Any initial p)
    (history : runner.History id p) (stepped : runner.system.step p action = some q) :
    runner.History id q := by
  obtain ⟨arrival, shared, args, rfl, arrived, rfl⟩ |
    ⟨i, choice, t, op, next, shared, reply, rfl, found, awaits, served, rfl⟩ :=
    System.step_cases stepped
  · cases arrived
    exact ⟨history.stored, history.saves⟩
  · have holds := outline_holds reached
    have ready := holds.pre found awaits
    rcases serve_view served id with ⟨inst, same, rfl, matched, view⟩ | ⟨other, view⟩
    · cases same
      rcases ready with ⟨-, current, transition, persists⟩
      have onTop := persists.stored_view holds.inv matched
      have kept : persisted inst.id
          (⟨i, t.args, t.past, p.shared, ⟨choice, .save inst, .ok ()⟩⟩ : SagaEntry I St E C ε) =
          some transition := by
        simp only [persisted, if_true, persists.decided, Option.map_some]
      refine ⟨?_, history.saves.concat ?_⟩
      · rw [Pool.advance_shared, view, Pool.advance_trace, replay_concat, kept, Option.elim_some,
          ← history.stored, persists.effect, ← onTop]
        rfl
      · intro choice' inst' event _
        cases event
        exact ⟨current, transition, kept, persists.computed, onTop.symm, history.stored⟩
    · refine ⟨?_, history.saves.concat fun choice' inst' event same => ?_⟩
      · rw [Pool.advance_shared, view, Pool.advance_trace, replay_concat,
          persisted_eq_none other, Option.elim_none]
        exact history.stored
      · exact (other choice' inst' event same).elim

/-- Every reachable configuration has a serial history for every row. -/
theorem history_of_reaches {p : SagaPool I St E C ε}
    (reached : runner.system.Reaches System.Any initial p) (id : I) : runner.History id p :=
  reached.invariant ⟨rfl, throughout_nil _⟩ fun before history _ stepped =>
    history.step before stepped

/-- What one step of the run does to the row of `id`: its version goes up by exactly one
with a save or a claim of it, and otherwise the row is untouched. -/
theorem step_row {p q : SagaPool I St E C ε} {action : Action (SagaChoice I) (SagaCall E)}
    (reached : runner.system.Reaches System.Any initial p)
    (stepped : runner.system.step p action = some q) (id : I) :
    (∃ entry : SagaEntry I St E C ε, q.trace = p.trace ++ [entry] ∧ Raises id entry.event ∧
      versionOf q.shared id = versionOf p.shared id + 1) ∨
    ((∀ entry : SagaEntry I St E C ε, q.trace = p.trace ++ [entry] → ¬ Raises id entry.event) ∧
      q.shared.store.get id = p.shared.store.get id) := by
  obtain ⟨arrival, shared, args, rfl, arrived, rfl⟩ |
    ⟨i, choice, t, op, next, shared, reply, rfl, found, awaits, served, rfl⟩ :=
    System.step_cases stepped
  · cases arrived
    refine .inr ⟨fun entry same => ?_, rfl⟩
    simp at same
  · have keyed := (outline_holds reached).inv.keyed
    rcases serve_row keyed served id with ⟨raises, version⟩ | ⟨keeps, row⟩
    · exact .inl ⟨_, rfl, raises, version⟩
    · refine .inr ⟨fun entry same => ?_, row⟩
      rw [Pool.advance_trace, List.append_cancel_left_eq, List.singleton_inj] at same
      subst same
      exact keeps

omit [DecidableEq I] in
/-- A successful save commits the task to a batch. -/
theorem batches_append_save_ne {choice : SagaChoice I} {inst : SagaInstance I St}
    (later : List (SagaEvent I St E C ε)) :
    runner.batches (later ++ ⟨choice, .save inst, .ok ()⟩ :: past) ≠ [] := by
  induction later with
  | nil => simp [batches, batch]
  | cons event later ih =>
      intro none
      exact ih (List.append_eq_nil_iff.mp none).2

theorem shared_eq_of_failed_save {p q : SagaPool I St E C ε}
    {action : Action (SagaChoice I) (SagaCall E)} (stepped : runner.system.step p action = some q)
    {entry : SagaEntry I St E C ε} (traced : q.trace = p.trace ++ [entry])
    {choice : SagaChoice I} {inst : SagaInstance I St}
    {error : SagaSaveError InMemorySagaStoreError}
    (failed : entry.event = ⟨choice, .save inst, .error error⟩) : q.shared = p.shared := by
  obtain ⟨arrival, shared, args, rfl, arrived, rfl⟩ |
    ⟨i, choice', t, op, next, shared, reply, rfl, found, awaits, served, rfl⟩ :=
    System.step_cases stepped
  · simp at traced
  · rw [Pool.advance_trace, List.append_cancel_left_eq, List.singleton_inj] at traced
    subst traced
    cases failed
    simp only [system, serve, Option.some.injEq, Prod.mk.injEq] at served
    obtain ⟨rfl, refused⟩ := served
    rcases InMemorySagaStore.save_cases p.shared.store inst with ⟨_, _, eq⟩ | ⟨_, eq⟩
    · rw [Pool.advance_shared, eq]
    · rw [eq] at refused
      cases refused

/-- A call that gave up over version conflicts saved nothing. -/
theorem not_saved_of_conflict {p : SagaPool I St E C ε}
    (reached : runner.system.Reaches System.Any initial p)
    {t : Task (sagaSignature I St E C ε) (SagaChoice I) (SagaCall E) (SagaReturn ε)}
    (started : t ∈ p.tasks) {expected : ℕ} {actual : Option ℕ}
    (returned : t.rest = .ret (.handled (.error (.conflict expected actual))))
    (choice : SagaChoice I) (inst : SagaInstance I St) :
    ⟨choice, .save inst, .ok ()⟩ ∉ t.past := by
  obtain ⟨i, found⟩ := List.getElem?_of_mem started
  obtain ⟨s, -, settled⟩ := (outline_holds reached).post_of_ret found returned
  have none : runner.batches t.past = [] := settled.2 expected actual rfl
  intro saved
  obtain ⟨later, earlier, split⟩ := List.append_of_mem saved
  rw [split] at none
  exact batches_append_save_ne later none

/-- Saga serializability.  In every configuration that any interleaving of `handle` calls
and timeout sweeps reaches: the stored state and status of every saga are the fold of the
saved transitions in the order of the saves, each computed by the saga on exactly what was
stored before its save; a `handle` that ended in a conflict saved nothing, and neither did a
save that reported one; and a version goes up by one at every save and every claim of its
row and never otherwise. -/
theorem saga_serializable {p : SagaPool I St E C ε}
    (reached : runner.system.Reaches System.Any initial p) :
    (∀ id, runner.History id p) ∧
    (∀ t ∈ p.tasks, ∀ expected actual,
      t.rest = .ret (.handled (.error (.conflict expected actual))) →
        ∀ choice (inst : SagaInstance I St), ⟨choice, .save inst, .ok ()⟩ ∉ t.past) ∧
    ∀ action q, runner.system.step p action = some q →
      (∀ (entry : SagaEntry I St E C ε) choice (inst : SagaInstance I St) error,
        q.trace = p.trace ++ [entry] → entry.event = ⟨choice, .save inst, .error error⟩ →
        q.shared = p.shared) ∧
      ∀ id,
        (∃ entry : SagaEntry I St E C ε, q.trace = p.trace ++ [entry] ∧ Raises id entry.event ∧
          versionOf q.shared id = versionOf p.shared id + 1) ∨
        ((∀ entry : SagaEntry I St E C ε, q.trace = p.trace ++ [entry] →
            ¬ Raises id entry.event) ∧
          q.shared.store.get id = p.shared.store.get id) := by
  refine ⟨history_of_reaches reached, ?_, ?_⟩
  · intro t started expected actual returned
    exact not_saved_of_conflict reached started returned
  · intro action q stepped
    refine ⟨?_, step_row reached stepped⟩
    intro entry choice inst error traced failed
    exact shared_eq_of_failed_save stepped traced failed

/-- Two calls that read the same version of saga 7: one loses, retries and is folded in. -/
theorem saga_serializable_race : ∃ p : SagaPool ℕ ℕ (ℕ × ℕ) ℕ String,
    tally.system.Reaches System.Any initial p ∧ viewOf p.shared 7 = some (6, .running) ∧
      versionOf p.shared 7 = 3 ∧ tally.History 7 p := by
  obtain ⟨p, reached, found⟩ := System.exists_reaches_of_exec (C := System.Any)
    (p := (initial : SagaPool ℕ ℕ (ℕ × ℕ) ℕ String))
    (f := fun p => decide (viewOf p.shared 7 = some (6, .running) ∧ versionOf p.shared 7 = 3))
    (System.along_any tally.system initial tallyRace) (by decide)
  have stored := of_decide_eq_true found
  exact ⟨p, reached, stored.1, stored.2, (saga_serializable reached).1 7⟩

end SagaRunner

end Pharos
