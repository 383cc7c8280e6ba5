import Pharos.Memory.SagaStore

/-!
# Timeout claims of the in-memory saga store

Every call of the store holds its lock, so any number of callers make one sequence of calls.  A run
is such a sequence from the empty store, with what each call returned.

Three facts carry the guarantees of a claim.  It hands out the due rows in the order of their
deadlines, up to its limit (`dueBatch_claimDue`).  The deadline of a claimed row stays at or beyond
the end of the lease until the row is saved (`leased_of_run`).  And the version of a row never goes
down and is raised by the claim, which is what a save on an older version runs into.
-/

namespace Pharos

namespace InMemorySagaStore

variable {I St : Type} [DecidableEq I]

/-- A call of the store, with what it returned. -/
inductive StoreCall (I St : Type) where
  | load (id : I) (found : Option (SagaInstance I St))
  | save (inst : SagaInstance I St) (result : Except (SagaSaveError InMemorySagaStoreError) Unit)
  | claimDue (now : Time) (lease : ChronoDuration) (limit : ℕ) (claimed : List (SagaInstance I St))

/-- The call is made on `store` and leaves the other store behind; a claim asks for a lease. -/
inductive Calls (store : InMemorySagaStore I St) : StoreCall I St → InMemorySagaStore I St → Prop
  | load (id : I) : Calls store (.load id (store.get id)) store
  | save (inst : SagaInstance I St) :
      Calls store (.save inst (store.save inst).2) (store.save inst).1
  | claimDue {order : List I} (iterated : order.Perm store.keys) (now : Time)
      {lease : ChronoDuration} (positive : 0 < lease) (limit : ℕ) :
      Calls store (.claimDue now lease limit (store.claimDue order now lease limit).2)
        (store.claimDue order now lease limit).1

/-- A sequence of calls. -/
inductive Run (store : InMemorySagaStore I St) : List (StoreCall I St) → InMemorySagaStore I St → Prop
  | nil : Run store [] store
  | concat {calls : List (StoreCall I St)} {mid after : InMemorySagaStore I St}
      {call : StoreCall I St} (run : Run store calls mid) (last : Calls mid call after) :
      Run store (calls ++ [call]) after

/-- The call saved the row of `id`. -/
def StoreCall.Saved (id : I) : StoreCall I St → Prop
  | .save inst (.ok ()) => inst.id = id
  | _ => False

/-- The call wrote the row of `id`: it saved it or claimed it. -/
def StoreCall.Wrote (id : I) : StoreCall I St → Prop
  | .save inst (.ok ()) => inst.id = id
  | .claimDue _ _ _ claimed => id ∈ claimed.map SagaInstance.id
  | _ => False

/-- The version under which a saga is saved that was read from `store`. -/
def readVersion (store : InMemorySagaStore I St) (id : I) : ℕ :=
  (store.get id).elim 0 SagaInstance.version

/-- Every row stands under its own id and has been written. -/
def Keyed (store : InMemorySagaStore I St) : Prop :=
  ∀ id row, store.get id = some row → row.id = id ∧ 0 < row.version

/-- `claimed` is what a claim at `now` hands out: due rows with their old deadline and their new
version, the soonest deadlines first, and as many as there are up to `limit`. -/
structure DueBatch (store : InMemorySagaStore I St) (now : Time) (limit : ℕ)
    (claimed : List (SagaInstance I St)) : Prop where
  bounded : claimed.length ≤ limit
  distinct : (claimed.map SagaInstance.id).Nodup
  due : ∀ inst ∈ claimed, ∃ row, store.get inst.id = some row ∧ Due now row ∧
    inst = { row with version := row.version + 1 }
  sorted : claimed.Pairwise fun a b => ∀ soon ∈ a.deadline, ∀ late ∈ b.deadline, soon ≤ late
  complete : ∀ id row, store.get id = some row → Due now row → id ∉ claimed.map SagaInstance.id →
    claimed.length = limit ∧
      ∀ inst ∈ claimed, ∀ soon ∈ inst.deadline, ∀ late ∈ row.deadline, soon ≤ late

/-! ## One claim -/

section Claim

variable {store : InMemorySagaStore I St} {order : List I} {now : Time} {lease : ChronoDuration}
  {limit : ℕ}

/-- What the loop hands out, in its order. -/
theorem claimAll_snd {due : List I} (nodup : due.Nodup) (store : InMemorySagaStore I St) :
    (claimAll now lease due store).2 =
      due.filterMap fun id => (store.get id).map fun row => { row with version := row.version + 1 } := by
  induction due generalizing store with
  | nil => rfl
  | cons head due ih =>
      rw [List.nodup_cons] at nodup
      unfold claimAll
      split
      · next absent => rw [ih nodup.2, List.filterMap_cons_none (by rw [absent]; rfl)]
      · next row found =>
        have others : ∀ id ∈ due, (store.put head
            { row with deadline := some (now + lease), version := row.version + 1 }).get id =
              store.get id := by
          intro id member
          exact DashMap.get_put_of_ne fun same => nodup.1 (same ▸ member)
        rw [List.filterMap_cons_some (by rw [found]; rfl)]
        simp only [ih nodup.2]
        refine congrArg (_ :: ·) (List.filterMap_congr fun id member => ?_)
        rw [others id member]

/-- The order in which `claim_due` sorts. -/
abbrev SoonerOrSame (store : InMemorySagaStore I St) (now : Time) (a b : I) : Prop :=
  store.dueAt now a ≤ store.dueAt now b

theorem dueAt_of_get (now : Time) {id : I} {row : SagaInstance I St}
    (found : store.get id = some row) {deadline : Time} (due : deadline ∈ row.deadline) :
    store.dueAt now id = deadline := by
  rw [dueAt, found, Option.bind_some, Option.mem_def.mp due]
  rfl

theorem sorted_dueIds (store : InMemorySagaStore I St) (order : List I) (now : Time) (limit : ℕ) :
    (store.dueIds order now limit).Pairwise (SoonerOrSame store now) := by
  have : Std.Total (SoonerOrSame store now) := ⟨fun a b => le_total _ _⟩
  have : IsTrans I (SoonerOrSame store now) := ⟨fun _ _ _ => le_trans⟩
  exact (List.pairwise_insertionSort (SoonerOrSame store now) _).sublist (List.take_sublist _ _)

/-- A due row that is not picked comes after those that are, and the limit is used up. -/
theorem dueIds_complete (iterated : order.Perm store.keys) {id : I} {row : SagaInstance I St}
    (found : store.get id = some row) (due : Due now row)
    (skipped : id ∉ store.dueIds order now limit) :
    (store.dueIds order now limit).length = limit ∧
      ∀ other ∈ store.dueIds order now limit, SoonerOrSame store now other id := by
  have : Std.Total (SoonerOrSame store now) := ⟨fun a b => le_total _ _⟩
  have : IsTrans I (SoonerOrSame store now) := ⟨fun _ _ _ => le_trans⟩
  unfold dueIds at skipped ⊢
  generalize entries : order.filter (fun id => (store.get id).any fun row => decide (Due now row)) =
    candidates at skipped ⊢
  have sorted := List.pairwise_insertionSort (SoonerOrSame store now) candidates
  have listed : id ∈ candidates.insertionSort (SoonerOrSame store now) := by
    rw [List.mem_insertionSort, ← entries, List.mem_filter]
    exact ⟨iterated.mem_iff.mpr (DashMap.mem_keys.mpr ⟨row, found⟩),
      by rw [found]; exact decide_eq_true due⟩
  rw [← List.take_append_drop limit (candidates.insertionSort _), List.pairwise_append] at sorted
  rw [← List.take_append_drop limit (candidates.insertionSort _), List.mem_append] at listed
  have dropped := listed.resolve_left skipped
  refine ⟨?_, fun other kept => sorted.2.2 other kept id dropped⟩
  have longer : limit < (candidates.insertionSort (SoonerOrSame store now)).length := by
    by_contra short
    rw [List.drop_of_length_le (Nat.le_of_not_lt short)] at dropped
    cases dropped
  rw [List.length_take]
  exact Nat.min_eq_left (Nat.le_of_lt longer)

/-- Every picked row is stored, so the loop hands one copy out for each. -/
theorem claimDue_snd (iterated : order.Perm store.keys) :
    (store.claimDue order now lease limit).2 = (store.dueIds order now limit).filterMap fun id =>
      (store.get id).map fun row => { row with version := row.version + 1 } :=
  claimAll_snd (nodup_dueIds iterated) store

theorem map_id_claimDue (keyed : Keyed store) (iterated : order.Perm store.keys) (now : Time)
    (lease : ChronoDuration) (limit : ℕ) :
    (store.claimDue order now lease limit).2.map SagaInstance.id = store.dueIds order now limit := by
  rw [claimDue_snd iterated, List.map_filterMap]
  refine (List.filterMap_congr fun id member => ?_).trans List.filterMap_some
  obtain ⟨row, found, -⟩ := due_of_mem_dueIds member
  rw [found]
  exact congrArg some (keyed id row found).1

/-- A claim hands out a due batch. -/
theorem dueBatch_claimDue (keyed : Keyed store) (iterated : order.Perm store.keys) :
    DueBatch store now limit (store.claimDue order now lease limit).2 := by
  have ids := map_id_claimDue keyed iterated now lease limit
  have due : ∀ inst ∈ (store.claimDue order now lease limit).2, ∃ row,
      store.get inst.id = some row ∧ Due now row ∧ inst = { row with version := row.version + 1 } := by
    intro inst claimed
    obtain ⟨id, row, -, found, due, rfl⟩ := mem_claimDue iterated claimed
    exact ⟨row, (keyed id row found).1.symm ▸ found, due, rfl⟩
  have deadlines : ∀ inst ∈ (store.claimDue order now lease limit).2, ∀ deadline ∈ inst.deadline,
      store.dueAt now inst.id = deadline := by
    intro inst claimed deadline set
    obtain ⟨row, found, -, same⟩ := due inst claimed
    rw [same] at set
    exact dueAt_of_get now found set
  refine ⟨?_, ?_, due, ?_, ?_⟩
  · rw [← List.length_map, ids]
    exact List.length_take_le _ _
  · rw [ids]
    exact nodup_dueIds iterated
  · have sorted := sorted_dueIds store order now limit
    rw [← ids, List.pairwise_map] at sorted
    refine sorted.imp_of_mem fun {a b} first second sooner soon set late set' => ?_
    rw [← deadlines a first soon set, ← deadlines b second late set']
    exact sooner
  · intro id row found ready skipped
    rw [ids] at skipped
    obtain ⟨full, sooner⟩ := dueIds_complete iterated found ready skipped
    refine ⟨by rw [← List.length_map, ids, full], fun inst claimed soon set late set' => ?_⟩
    have picked : inst.id ∈ store.dueIds order now limit := by
      rw [← ids]
      exact List.mem_map_of_mem claimed
    rw [← deadlines inst claimed soon set, ← dueAt_of_get now found set']
    exact sooner inst.id picked

/-- The row that a claim leaves behind is what it handed out, under the end of the lease. -/
theorem get_of_claimed (keyed : Keyed store) (iterated : order.Perm store.keys)
    {inst : SagaInstance I St} (claimed : inst ∈ (store.claimDue order now lease limit).2) :
    (store.claimDue order now lease limit).1.get inst.id =
      some { inst with deadline := some (now + lease) } := by
  obtain ⟨row, found, -, same⟩ := (dueBatch_claimDue keyed iterated).due inst claimed
  have picked : inst.id ∈ store.dueIds order now limit := by
    rw [← map_id_claimDue keyed iterated now lease limit]
    exact List.mem_map_of_mem claimed
  rw [claimDue_get iterated, if_pos picked, found, same]
  rfl

end Claim

/-! ## Sequences of calls -/

section Runs

variable {s t u : InMemorySagaStore I St} {call : StoreCall I St} {calls : List (StoreCall I St)}
  {id : I}

theorem keyed_empty : Keyed (∅ : InMemorySagaStore I St) := by
  intro id row found
  rw [DashMap.get_empty] at found
  cases found

theorem Keyed.put (keyed : Keyed s) {row : SagaInstance I St} (written : 0 < row.version) :
    Keyed (s.put row.id row) := by
  intro id found entry
  rcases DashMap.get_put_cases entry with ⟨rfl, rfl⟩ | ⟨-, old⟩
  · exact ⟨rfl, written⟩
  · exact keyed id found old

theorem Keyed.save (keyed : Keyed s) (inst : SagaInstance I St) : Keyed (s.save inst).1 := by
  rcases save_cases s inst with ⟨expected, actual, eq⟩ | ⟨-, eq⟩
  · rw [eq]
    exact keyed
  · rw [eq]
    exact keyed.put (show 0 < { inst with version := inst.version + 1 }.version from Nat.succ_pos _)

theorem Keyed.claimDue (keyed : Keyed s) {order : List I} (iterated : order.Perm s.keys)
    (now : Time) (lease : ChronoDuration) (limit : ℕ) :
    Keyed (s.claimDue order now lease limit).1 := by
  intro id row found
  rw [claimDue_get iterated] at found
  split at found
  · obtain ⟨old, stored, rfl⟩ := Option.map_eq_some_iff.mp found
    exact ⟨(keyed id old stored).1, Nat.succ_pos _⟩
  · exact keyed id row found

theorem Keyed.after (keyed : Keyed s) (made : Calls s call t) : Keyed t := by
  cases made with
  | load id => exact keyed
  | save inst => exact keyed.save inst
  | claimDue iterated now positive limit => exact keyed.claimDue iterated now _ limit

theorem Run.keyed (run : Run s calls t) (keyed : Keyed s) : Keyed t := by
  induction run with
  | nil => exact keyed
  | concat run last ih => exact ih.after last

theorem Calls.later (made : Calls s call t) (id : I) :
    Async.Later SagaInstance.version (s.get id) (t.get id) := by
  cases made with
  | load id => exact .refl _
  | save inst => exact save_later s inst id
  | claimDue iterated now positive limit => exact claimDue_later iterated id

theorem Run.later (run : Run s calls t) (id : I) :
    Async.Later SagaInstance.version (s.get id) (t.get id) := by
  induction run with
  | nil => exact .refl _
  | concat run last ih => exact ih.trans (last.later id)

/-- The version under which a saga was read is at most the one it has later. -/
theorem readVersion_le_of_later
    (later : Async.Later SagaInstance.version (s.get id) (t.get id)) :
    readVersion s id ≤ readVersion t id := by
  unfold readVersion
  cases before : s.get id with
  | none => exact Nat.zero_le _
  | some old =>
      cases after : t.get id with
      | none =>
          rw [before, after] at later
          exact later.elim
      | some new =>
          rw [before, after] at later
          rcases later with rfl | raised
          · exact Nat.le_refl _
          · exact Nat.le_of_lt raised

theorem save_of_version_eq {attempt row : SagaInstance I St} (found : s.get attempt.id = some row)
    (same : row.version = attempt.version) : (s.save attempt).2 = .ok () := by
  unfold save
  simp only [found, same, ne_eq, not_true_eq_false, if_false]

theorem save_of_version_ne {attempt : SagaInstance I St}
    (other : attempt.version ≠ readVersion s attempt.id) :
    ∃ expected actual, (s.save attempt).2 = .error (.concurrencyConflict expected actual) := by
  unfold readVersion at other
  unfold save
  cases found : s.get attempt.id with
  | none =>
      rw [found, Option.elim_none] at other
      exact ⟨attempt.version, none, congrArg Prod.snd (if_pos other)⟩
  | some row =>
      rw [found, Option.elim_some] at other
      exact ⟨attempt.version, some row.version, congrArg Prod.snd (if_pos other.symm)⟩

/-- A row that no call wrote is the row it was. -/
theorem Calls.get_of_not_wrote (made : Calls s call t) (keyed : Keyed s)
    (untouched : ¬ call.Wrote id) : t.get id = s.get id := by
  cases made with
  | load id => rfl
  | save inst =>
      rcases save_cases s inst with ⟨expected, actual, eq⟩ | ⟨-, eq⟩
      · rw [eq]
      · rw [eq] at untouched ⊢
        exact DashMap.get_put_of_ne fun same => untouched same.symm
  | claimDue iterated now positive limit =>
      rw [claimDue_get iterated, if_neg]
      rwa [← map_id_claimDue keyed iterated now _ limit]

theorem Run.get_of_not_wrote (run : Run s calls t) (keyed : Keyed s)
    (untouched : ∀ call ∈ calls, ¬ call.Wrote id) : t.get id = s.get id := by
  induction run with
  | nil => rfl
  | concat run last ih =>
      obtain ⟨before, now⟩ := List.forall_mem_append.mp untouched
      exact (last.get_of_not_wrote (run.keyed keyed) (now _ (List.mem_singleton_self _))).trans
        (ih before)

/-- The deadline of the row is at `ending` or later. -/
def LeasedUntil (store : InMemorySagaStore I St) (id : I) (ending : Time) : Prop :=
  ∃ row, store.get id = some row ∧ ∃ deadline, row.deadline = some deadline ∧ ending ≤ deadline

/-- A leased row stays leased until it is saved: a claim only extends the lease. -/
theorem LeasedUntil.after {ending : Time} (leased : LeasedUntil s id ending) (made : Calls s call t)
    (unsaved : ¬ call.Saved id) : LeasedUntil t id ending := by
  obtain ⟨row, found, deadline, set, late⟩ := leased
  cases made with
  | load id => exact ⟨row, found, deadline, set, late⟩
  | save inst =>
      refine ⟨row, ?_, deadline, set, late⟩
      rcases save_cases s inst with ⟨expected, actual, eq⟩ | ⟨-, eq⟩
      · rw [eq]
        exact found
      · rw [eq] at unsaved ⊢
        exact (DashMap.get_put_of_ne fun same => unsaved same.symm).trans found
  | @claimDue order iterated now lease positive limit =>
      unfold LeasedUntil
      rw [claimDue_get iterated]
      split
      · next picked =>
        obtain ⟨other, found', -, ended, passed, due⟩ := due_of_mem_dueIds picked
        rw [found] at found'
        cases found'
        rw [set] at passed
        cases passed
        have extended : ending ≤ now + lease :=
          (late.trans due).trans (Int.le_add_of_nonneg_right positive.le)
        exact ⟨_, by rw [found]; rfl, now + lease, rfl, extended⟩
      · exact ⟨row, found, deadline, set, late⟩

theorem LeasedUntil.run {ending : Time} (leased : LeasedUntil s id ending) (run : Run s calls t)
    (unsaved : ∀ call ∈ calls, ¬ call.Saved id) : LeasedUntil t id ending := by
  induction run with
  | nil => exact leased
  | concat run last ih =>
      obtain ⟨before, now⟩ := List.forall_mem_append.mp unsaved
      exact (ih before).after last (now _ (List.mem_singleton_self _))

/-- A row that is leased beyond `now` is not handed out at `now`. -/
theorem LeasedUntil.not_claimed {ending now : Time} {limit : ℕ} {claimed : List (SagaInstance I St)}
    (leased : LeasedUntil s id ending) (batch : DueBatch s now limit claimed) (early : now < ending) :
    id ∉ claimed.map SagaInstance.id := by
  intro listed
  obtain ⟨inst, member, rfl⟩ := List.mem_map.mp listed
  obtain ⟨row, found, deadline, set, late⟩ := leased
  obtain ⟨row', found', ⟨-, ended, passed, due⟩, -⟩ := batch.due inst member
  rw [found] at found'
  cases found'
  rw [set] at passed
  cases passed
  exact absurd (late.trans due) (not_le.mpr early)

end Runs

/-! ## A claim in a run -/

/-- **Timeout claims are exclusive and ordered.**  In every sequence of calls a claim hands out a
due batch.  Each instance of it has the version that is stored from then on, under a deadline at the
end of the lease; it is not handed out again before that, unless a save of it succeeds; a save on a
version that was read before the claim always ends in a conflict; and the claimer's own save
succeeds as long as nothing else wrote the row. -/
theorem claimDue_exclusive {past later : List (StoreCall I St)} {s t u : InMemorySagaStore I St}
    {now : Time} {lease : ChronoDuration} {limit : ℕ} {claimed : List (SagaInstance I St)}
    (before : Run ∅ past s) (claim : Calls s (.claimDue now lease limit claimed) t)
    (after : Run t later u) :
    DueBatch s now limit claimed ∧ ∀ inst ∈ claimed,
      t.get inst.id = some { inst with deadline := some (now + lease) } ∧
      ((∀ call ∈ later, ¬ call.Saved inst.id) → ∀ now' lease' limit' claimed' v,
        Calls u (.claimDue now' lease' limit' claimed') v → now' < now + lease →
          inst.id ∉ claimed'.map SagaInstance.id) ∧
      (∀ earlier between r, Run ∅ earlier r → Run r between s → ∀ attempt : SagaInstance I St,
        attempt.id = inst.id → attempt.version = readVersion r inst.id →
          ∃ expected actual, (u.save attempt).2 = .error (.concurrencyConflict expected actual)) ∧
      ((∀ call ∈ later, ¬ call.Wrote inst.id) → ∀ attempt : SagaInstance I St,
        attempt.id = inst.id → attempt.version = inst.version → (u.save attempt).2 = .ok ()) := by
  have keyed := before.keyed keyed_empty
  have keyed' := after.keyed (keyed.after claim)
  cases claim with
  | @claimDue order iterated now lease positive limit =>
      have batch : DueBatch s now limit (s.claimDue order now lease limit).2 :=
        dueBatch_claimDue keyed iterated
      refine ⟨batch, fun inst member => ?_⟩
      obtain ⟨row, found, due, same⟩ := batch.due inst member
      have stored : (s.claimDue order now lease limit).1.get inst.id =
          some { inst with deadline := some (now + lease) } := get_of_claimed keyed iterated member
      refine ⟨stored, ?_, ?_, ?_⟩
      · intro unsaved now' lease' limit' claimed' v claim' early
        have leased : LeasedUntil (s.claimDue order now lease limit).1 inst.id (now + lease) :=
          ⟨_, stored, now + lease, rfl, le_refl _⟩
        cases claim' with
        | claimDue iterated' now' positive' limit' =>
            exact (leased.run after unsaved).not_claimed (dueBatch_claimDue keyed' iterated') early
      · intro earlier between r read rest attempt named version
        -- the row was claimed on top of what had been read, and versions do not go down
        have raised : readVersion r inst.id < readVersion u inst.id := calc
          readVersion r inst.id ≤ readVersion s inst.id :=
            readVersion_le_of_later (rest.later inst.id)
          _ < inst.version := by
            rw [readVersion, found, same]
            exact Nat.lt_succ_self _
          _ = readVersion (s.claimDue order now lease limit).1 inst.id := by
            rw [readVersion, stored]
            rfl
          _ ≤ readVersion u inst.id := readVersion_le_of_later (after.later inst.id)
        exact save_of_version_ne (by rw [named, version]; omega)
      · intro untouched attempt named version
        have unchanged := after.get_of_not_wrote (keyed.after
          (.claimDue iterated now positive limit)) untouched
        rw [stored, ← named] at unchanged
        exact save_of_version_eq unchanged version.symm

/-- A running instance with a deadline. -/
def awaiting (id : ℕ) (deadline : Time) : SagaInstance ℕ Unit :=
  { SagaInstance.running id () 0 with deadline := some deadline }

/-- A store with two instances, saved in the order of their ids. -/
def twoAwaiting : InMemorySagaStore ℕ Unit := ((save ∅ (awaiting 7 5)).1.save (awaiting 8 3)).1

/-- Instance 8 as it is handed out below. -/
def handedOut : SagaInstance ℕ Unit := { awaiting 8 3 with version := 2 }

/-- A claim of one hands out the instance with the sooner deadline.  The other one is saved, and
while the lease runs it is all that a later claim hands out; whoever read instance 8 before the
first claim cannot save it, and whoever it was handed to can. -/
theorem claimDue_exclusive_twoAwaiting :
    let claimed := twoAwaiting.claimDue [7, 8] 10 60 1
    let saved := claimed.1.save { awaiting 7 6 with version := 1 }
    let later := saved.1.claimDue [8, 7] 20 60 2
    DueBatch twoAwaiting 10 1 claimed.2 ∧ claimed.2 = [handedOut] ∧ saved.2 = .ok () ∧
      later.2.map SagaInstance.id = [7] ∧ 8 ∉ later.2.map SagaInstance.id ∧
      (∃ expected actual, (later.1.save { awaiting 8 3 with version := 1 }).2 =
        .error (.concurrencyConflict expected actual)) ∧
      (later.1.save handedOut).2 = .ok () := by
  intro claimed saved later
  have stored : Run ∅ _ twoAwaiting :=
    .concat (.concat .nil (.save (awaiting 7 5))) (.save (awaiting 8 3))
  have claim : Calls twoAwaiting (.claimDue 10 60 1 claimed.2) claimed.1 :=
    .claimDue (by decide) 10 (by decide) 1
  have saves : Run claimed.1 [.save { awaiting 7 6 with version := 1 } saved.2] saved.1 :=
    .concat .nil (.save _)
  have claims : Calls saved.1 (.claimDue 20 60 2 later.2) later.1 :=
    .claimDue (by decide) 20 (by decide) 2
  have out : claimed.2 = [handedOut] := rfl
  have other : later.2.map SagaInstance.id = [7] := rfl
  have member : handedOut ∈ claimed.2 := out ▸ List.mem_singleton_self _
  obtain ⟨batch, each⟩ := claimDue_exclusive stored claim saves
  obtain ⟨-, leased, -, -⟩ := each handedOut member
  obtain ⟨-, each⟩ := claimDue_exclusive stored claim (.concat saves claims)
  obtain ⟨-, -, stale, fresh⟩ := each handedOut member
  refine ⟨batch, out, rfl, other, ?_, ?_, ?_⟩
  · have unsaved : ¬ StoreCall.Saved 8 (.save { awaiting 7 6 with version := 1 } saved.2) := by
      show ¬ (7 = 8)
      decide
    exact leased (List.forall_mem_singleton.mpr unsaved) 20 60 2 later.2 later.1 claims (by decide)
  · exact stale _ [] twoAwaiting stored .nil _ rfl rfl
  · refine fresh (List.forall_mem_cons.mpr ⟨?_, List.forall_mem_singleton.mpr ?_⟩) _ rfl rfl
    · show ¬ (7 = 8)
      decide
    · show 8 ∉ later.2.map SagaInstance.id
      rw [other]
      decide

end InMemorySagaStore

end Pharos
