import Pharos.Outbox.Dispatcher

/-!
# The partition of a batch into lanes

Every claimed message lands in exactly one lane (`lanes_perm`), and a lane is either
one message without a key or all messages of one key in the order they were claimed
(`mem_lanes`).  Both are invariants of the partition loop.
-/

namespace Pharos

namespace OutboxDispatcher

/-- The messages of `batch` with the routing key `key`, in order. -/
def withKey (key : String) (batch : List OutboxMessage) : List OutboxMessage :=
  batch.filter fun m => m.message.key = some key

theorem withKey_append (key : String) (batch more : List OutboxMessage) :
    withKey key (batch ++ more) = withKey key batch ++ withKey key more :=
  List.filter_append _ _

theorem withKey_singleton_self {key : String} {m : OutboxMessage} (routed : m.message.key = some key) :
    withKey key [m] = [m] := by
  simp [withKey, routed]

theorem withKey_singleton_ne {key : String} {m : OutboxMessage} (other : m.message.key ≠ some key) :
    withKey key [m] = [] := by
  simp [withKey, other]

/-- What the partition loop has established after the messages `seen`. -/
structure Partitioned (acc : List (List OutboxMessage) × DashMap String ℕ)
    (seen : List OutboxMessage) : Prop where
  perm : acc.1.flatten.Perm seen
  indexed : ∀ key index, acc.2.get key = some index →
    acc.1[index]? = some (withKey key seen) ∧ withKey key seen ≠ []
  unseen : ∀ key, acc.2.get key = none → withKey key seen = []
  lane : ∀ index lane, acc.1[index]? = some lane →
    (∃ m, m.message.key = none ∧ lane = [m]) ∨
      ∃ key, acc.2.get key = some index ∧ lane = withKey key seen

theorem flatten_modify_perm {α : Type} {lanes : List (List α)} {index : ℕ} {lane : List α} (m : α)
    (found : lanes[index]? = some lane) :
    (lanes.modify index (· ++ [m])).flatten.Perm (lanes.flatten ++ [m]) := by
  induction lanes generalizing index with
  | nil => cases found
  | cons head lanes ih =>
      cases index with
      | zero =>
          simp only [List.modify_zero_cons, List.flatten_cons, List.append_assoc]
          exact (List.perm_append_comm).append_left _
      | succ index =>
          simp only [List.modify_succ_cons, List.flatten_cons, List.append_assoc]
          exact (ih (by simpa using found)).append_left _

/-- Two keys never share a lane. -/
theorem Partitioned.index_inj {acc : List (List OutboxMessage) × DashMap String ℕ}
    {seen : List OutboxMessage} (part : Partitioned acc seen) {key key' : String} {index : ℕ}
    (found : acc.2.get key = some index) (found' : acc.2.get key' = some index) : key = key' := by
  obtain ⟨lane, nonempty⟩ := part.indexed key index found
  obtain ⟨lane', -⟩ := part.indexed key' index found'
  obtain ⟨m, member⟩ := List.exists_mem_of_ne_nil _ nonempty
  have same : withKey key seen = withKey key' seen := Option.some.inj (lane.symm.trans lane')
  have routed := (List.mem_filter.mp member).2
  have routed' := (List.mem_filter.mp (same ▸ member : m ∈ withKey key' seen)).2
  simp only [decide_eq_true_eq] at routed routed'
  exact Option.some.inj (routed.symm.trans routed')

/-- A message whose key already has a lane joins it. -/
theorem Partitioned.join {acc : List (List OutboxMessage) × DashMap String ℕ}
    {seen : List OutboxMessage} (part : Partitioned acc seen) {m : OutboxMessage} {key : String}
    {index : ℕ} (routed : m.message.key = some key) (found : acc.2.get key = some index) :
    Partitioned (acc.1.modify index (· ++ [m]), acc.2) (seen ++ [m]) := by
  obtain ⟨lane, nonempty⟩ := part.indexed key index found
  have unrelated : ∀ key', key' ≠ key → withKey key' (seen ++ [m]) = withKey key' seen := by
    intro key' distinct
    rw [withKey_append, withKey_singleton_ne, List.append_nil]
    rw [routed]
    exact fun same => distinct (Option.some.inj same).symm
  have joined : withKey key (seen ++ [m]) = withKey key seen ++ [m] := by
    rw [withKey_append, withKey_singleton_self routed]
  refine ⟨(flatten_modify_perm m lane).trans (part.perm.append_right _), ?_, ?_, ?_⟩
  · intro key' index' found'
    by_cases same : key' = key
    · subst same
      rw [found] at found'
      cases found'
      refine ⟨?_, by simp [joined]⟩
      rw [List.getElem?_modify_eq, lane, joined]
      rfl
    · have distinct : index ≠ index' := fun eq => same (part.index_inj found' (eq ▸ found))
      rw [unrelated key' same, List.getElem?_modify_ne _ _ distinct]
      exact part.indexed key' index' found'
  · intro key' absent
    by_cases same : key' = key
    · subst same
      rw [found] at absent
      cases absent
    · rw [unrelated key' same]
      exact part.unseen key' absent
  · intro index' lane' found'
    by_cases same : index = index'
    · subst same
      rw [List.getElem?_modify_eq, lane] at found'
      cases found'
      exact .inr ⟨key, found, joined.symm⟩
    · rw [List.getElem?_modify_ne _ _ same] at found'
      rcases part.lane index' lane' found' with keyless | ⟨key', at_key, eq⟩
      · exact .inl keyless
      · have distinct : key' ≠ key := by
          rintro rfl
          rw [found] at at_key
          exact same (Option.some.inj at_key)
        exact .inr ⟨key', at_key, eq.trans (unrelated key' distinct).symm⟩

/-- A message without a lane to join opens one. -/
theorem Partitioned.open {acc : List (List OutboxMessage) × DashMap String ℕ}
    {seen : List OutboxMessage} (part : Partitioned acc seen) {m : OutboxMessage}
    {byKey : DashMap String ℕ}
    (kept : ∀ key, m.message.key ≠ some key → byKey.get key = acc.2.get key)
    (added : ∀ key, m.message.key = some key →
      acc.2.get key = none ∧ byKey.get key = some acc.1.length) :
    Partitioned (acc.1 ++ [[m]], byKey) (seen ++ [m]) := by
  have unrelated : ∀ key, m.message.key ≠ some key → withKey key (seen ++ [m]) = withKey key seen := by
    intro key distinct
    rw [withKey_append, withKey_singleton_ne distinct, List.append_nil]
  have opened : ∀ key, m.message.key = some key → withKey key (seen ++ [m]) = [m] := by
    intro key routed
    rw [withKey_append, withKey_singleton_self routed, part.unseen key (added key routed).1]
    rfl
  refine ⟨?_, ?_, ?_, ?_⟩
  · rw [List.flatten_append]
    exact part.perm.append_right _
  · intro key index found
    by_cases routed : m.message.key = some key
    · rw [(added key routed).2] at found
      cases found
      refine ⟨?_, by simp [opened key routed]⟩
      rw [opened key routed]
      simp
    · rw [kept key routed] at found
      obtain ⟨lane, nonempty⟩ := part.indexed key index found
      rw [unrelated key routed]
      exact ⟨by rw [List.getElem?_append_left (List.getElem?_eq_some_iff.mp lane).1, lane], nonempty⟩
  · intro key absent
    by_cases routed : m.message.key = some key
    · rw [(added key routed).2] at absent
      cases absent
    · rw [kept key routed] at absent
      rw [unrelated key routed]
      exact part.unseen key absent
  · intro index lane found
    rw [List.getElem?_append] at found
    split at found
    · rcases part.lane index lane found with keyless | ⟨key, at_key, eq⟩
      · exact .inl keyless
      · by_cases routed : m.message.key = some key
        · rw [(added key routed).1] at at_key
          cases at_key
        · exact .inr ⟨key, (kept key routed).trans at_key, eq.trans (unrelated key routed).symm⟩
    · next beyond =>
      have last : index = acc.1.length ∧ lane = [m] := by
        have := (List.getElem?_eq_some_iff.mp found).1
        simp only [List.length_singleton] at this
        have zero : index - acc.1.length = 0 := by omega
        rw [zero] at found
        exact ⟨by omega, (Option.some.inj found).symm⟩
      rcases last with ⟨rfl, rfl⟩
      cases routed : m.message.key with
      | none => exact .inl ⟨m, routed, rfl⟩
      | some key => exact .inr ⟨key, (added key routed).2, (opened key routed).symm⟩

theorem Partitioned.assign {acc : List (List OutboxMessage) × DashMap String ℕ}
    {seen : List OutboxMessage} (part : Partitioned acc seen) (m : OutboxMessage) :
    Partitioned (assign acc m) (seen ++ [m]) := by
  unfold OutboxDispatcher.assign
  cases routed : m.message.key with
  | none =>
      refine part.open (fun _ _ => rfl) fun key same => ?_
      rw [routed] at same
      cases same
  | some key =>
      simp only
      cases found : acc.2.get key with
      | some index => exact part.join routed found
      | none =>
          refine part.open (fun key' distinct => ?_) fun key' same => ?_
          · refine DashMap.get_put_of_ne fun same => distinct ?_
            rw [routed, same]
          · rw [routed] at same
            cases same
            exact ⟨found, DashMap.get_put_self _ _ _⟩

theorem partitioned_foldl (batch : List OutboxMessage)
    {acc : List (List OutboxMessage) × DashMap String ℕ} {seen : List OutboxMessage}
    (part : Partitioned acc seen) : Partitioned (batch.foldl assign acc) (seen ++ batch) := by
  induction batch generalizing acc seen with
  | nil => simpa using part
  | cons m batch ih => simpa using ih (part.assign m)

theorem partitioned_lanes (batch : List OutboxMessage) :
    Partitioned (batch.foldl assign ([], ∅)) batch := by
  have empty : Partitioned ([], ∅) [] := ⟨.nil, fun _ _ found => (by cases found),
    fun _ _ => rfl, fun _ _ found => (by cases found)⟩
  exact partitioned_foldl batch empty

/-- Every claimed message is in exactly one lane. -/
theorem lanes_perm (batch : List OutboxMessage) : (lanes batch).flatten.Perm batch :=
  (partitioned_lanes batch).perm

/-- A lane is one message without a key, or all messages of one key in claim order. -/
theorem mem_lanes {batch lane : List OutboxMessage} (member : lane ∈ lanes batch) :
    (∃ m, m.message.key = none ∧ lane = [m]) ∨ ∃ key, lane = withKey key batch := by
  obtain ⟨index, found⟩ := List.getElem?_of_mem member
  rcases (partitioned_lanes batch).lane index lane found with keyless | ⟨key, -, eq⟩
  · exact .inl keyless
  · exact .inr ⟨key, eq⟩

/-- The messages of a key form one lane. -/
theorem withKey_mem_lanes {batch : List OutboxMessage} {m : OutboxMessage} {key : String}
    (claimed : m ∈ batch) (routed : m.message.key = some key) : withKey key batch ∈ lanes batch := by
  obtain ⟨lane, member, inLane⟩ := List.mem_flatten.mp ((lanes_perm batch).mem_iff.mpr claimed)
  rcases mem_lanes member with ⟨m', keyless, rfl⟩ | ⟨key', rfl⟩
  · rw [List.mem_singleton] at inLane
    rw [← inLane, routed] at keyless
    cases keyless
  · have routed' := (List.mem_filter.mp inLane).2
    simp only [routed, decide_eq_true_eq, Option.some.injEq] at routed'
    rwa [routed']

end OutboxDispatcher

end Pharos
