import Pharos.Async.Ceiling
import Pharos.Realtime.Rooms

/-!
# The ceiling of the rooms

`register_subscriber` checks the ceiling first and inserts its room later, under another lock.  The
check itself is two lookups here, which others may come between; the runs in which it is one step
are among these.
-/

namespace Pharos

open Async

/-- The room that a call is about. -/
def RealtimeCall.room {P : Type} : RealtimeCall P → RoomId
  | .publish msg => msg.room
  | .subscribe room _ => room
  | .resume room _ _ _ => room
  | .connect request _ => request.room

/-- What a call returns when its registration was refused. -/
def RealtimeCall.refused {P : Type} : RealtimeCall P → RealtimeReturn → Bool
  | .subscribe _ _, .refused _ | .resume _ _ _ _, .refused _ => true
  | .connect _ _, .closed (some .subscribeFailed) => true
  | _, _ => false

namespace InMemoryHub

section Control

variable {P : Type} {hub : InMemoryHub} {past : List (RealtimeEvent P)} {room : RoomId}
  {stream : RoomStream} {since : Option UInt64}

/-- The last thing that the task did was the check of the ceiling for a room, and it passed. -/
def Passed (hub : InMemoryHub) (room : RoomId) : List (RealtimeEvent P) → Prop
  | ⟨_, .containsKey here, true⟩ :: _ => here = room
  | ⟨_, .len, rooms⟩ :: _ => rooms < hub.maxRooms
  | _ => False

/-- The task did not find its room, and then found too many others. -/
def Full (hub : InMemoryHub) (room : RoomId) (past : List (RealtimeEvent P)) : Prop :=
  ∃ first second rooms earlier, hub.maxRooms ≤ rooms ∧
    (⟨second, .len, rooms⟩ :: ⟨first, .containsKey room, false⟩ :: earlier :
      List (RealtimeEvent P)) <:+ past

theorem Full.cons (full : Full hub room past) (event : RealtimeEvent P) :
    Full hub room (event :: past) := by
  obtain ⟨first, second, rooms, earlier, many, did⟩ := full
  exact ⟨first, second, rooms, earlier, many, did.trans (List.suffix_cons _ _)⟩

/-- A room is entered right after its check. -/
def Checks (hub : InMemoryHub) (past : List (RealtimeEvent P)) : RealtimeOp P → Prop
  | .entry room => Passed hub room past
  | _ => True

/-- A registration is refused after a check that found no room. -/
def Admits {α : Type} (hub : InMemoryHub) (room : RoomId) (past : List (RealtimeEvent P)) :
    Except RealtimeError α → Prop
  | .ok _ => True
  | .error _ => Full hub room past

theorem checks_registerSubscriber :
    (registerSubscriber hub room).Obeys (Checks hub) (Admits hub room) past := by
  refine .call (S := realtimeSignature P) trivial fun first found => ?_
  cases found with
  | true => exact .call (S := realtimeSignature P) rfl fun _ _ => trivial
  | false =>
      refine .call (S := realtimeSignature P) trivial fun second rooms => ?_
      show Program.Obeys _ _ (if hub.maxRooms ≤ rooms then _ else _) _
      split
      · next many => exact ⟨first, second, rooms, past, many, List.suffix_refl _⟩
      · next few =>
        exact .call (S := realtimeSignature P) (Nat.lt_of_not_le few) fun _ _ => trivial

theorem Lodged.checks {op : RealtimeOp P} (lodged : Lodged op) : Checks hub past op := by
  cases op with
  | entry room => exact lodged.elim
  | _ => trivial

theorem checks_subscribeSince :
    (subscribeSince hub room since).Obeys (Checks hub) (Admits hub room) past := by
  refine .call (S := realtimeSignature P) trivial fun _ found => ?_
  refine .bind checks_registerSubscriber fun past result admitted => ?_
  cases result with
  | error error => exact admitted
  | ok stream =>
      refine .bind (Q := fun _ _ => True)
        (lodged_readBacklog.weaken fun _ _ lodged => lodged.checks) fun past backlog _ => ?_
      exact .call (S := realtimeSignature P) trivial fun _ _ => trivial

theorem checks_dropStream :
    (dropStream stream).Obeys (Checks hub) (fun _ _ => True) past :=
  lodged_dropStream.weaken fun _ _ lodged => lodged.checks

theorem checks_listen (listens : ℕ) :
    (listen stream listens).Obeys (Checks hub) (fun _ _ => True) past := by
  induction listens generalizing past with
  | zero => trivial
  | succ listens ih =>
      refine .call (S := realtimeSignature P) trivial fun _ received => ?_
      cases received with
      | none => trivial
      | some msg => exact ih

theorem checks_attend (listens : ℕ) :
    (attend stream listens).Obeys (Checks hub) (fun _ value => value = .left) past := by
  refine .bind (Q := fun _ _ => True) (checks_listen listens) fun _ _ _ => ?_
  exact .bind (Q := fun _ _ => True) checks_dropStream fun _ _ _ => rfl

theorem checks_publish {msg : RealtimeMessage} :
    (publish msg).Obeys (Checks hub) (fun _ _ => True) past := by
  refine .call (S := realtimeSignature P) trivial fun _ found => ?_
  cases found with
  | none => trivial
  | some stamped => exact .call (S := realtimeSignature P) trivial fun _ _ => trivial

end Control

end InMemoryHub

namespace Connection

section Control

open InMemoryHub

variable {P : Type} {hub : InMemoryHub} {past : List (RealtimeEvent P)} {connection : Connection P}
  {stream : RoomStream}

theorem Aside.checks {op : RealtimeOp P} (aside : Aside op) : Checks hub past op := by
  cases op with
  | entry room => exact aside.elim
  | _ => trivial

theorem checks_of_aside {α : Type} {program : RealtimeM P α}
    {Q : List (RealtimeEvent P) → α → Prop} (aside : program.Obeys (fun _ op => Aside op) Q past) :
    program.Obeys (Checks hub) Q past :=
  aside.weaken fun _ _ aside => aside.checks

theorem checks_replay (missed : List RealtimeMessage) :
    (replay missed).Obeys (Checks hub) (fun _ result => result ≠ .error .subscribeFailed) past := by
  induction missed generalizing past with
  | nil => exact nofun
  | cons message missed ih =>
      refine .bind (sends_sendBounded trivial) fun past result other => ?_
      cases result with
      | error reason => exact other
      | ok _ => exact ih

theorem checks_outbound :
    (outbound stream).Obeys (Checks hub) (fun _ reason => reason ≠ some .subscribeFailed) past := by
  refine .call (S := realtimeSignature P) trivial fun _ received => ?_
  cases received with
  | none => exact nofun
  | some message =>
      refine .bind (sends_sendBounded trivial) fun past result other => ?_
      cases result with
      | error reason => exact reason_ne_of_error other
      | ok _ => exact nofun

theorem checks_round :
    (connection.round stream).Obeys (Checks hub)
      (fun _ reason => reason ≠ some .subscribeFailed) past := by
  refine .call (S := realtimeSignature P) trivial fun _ branch => ?_
  cases branch with
  | outbound => exact checks_outbound
  | inbound => exact checks_of_aside aside_inbound
  | revalidate => exact checks_of_aside aside_revalidate
  | heartbeat => exact checks_of_aside aside_heartbeat

theorem checks_pump (rounds : ℕ) :
    (connection.pump stream rounds).Obeys (Checks hub)
      (fun _ reason => reason ≠ some .subscribeFailed) past := by
  induction rounds generalizing past with
  | zero => exact nofun
  | succ rounds ih =>
      refine .bind checks_round fun past reason other => ?_
      cases reason with
      | some reason => exact other
      | none => exact ih

theorem checks_run (rounds : ℕ) :
    (run hub connection rounds).Obeys (Checks hub)
      (fun past reason => reason = some .subscribeFailed → Full hub connection.room past) past := by
  refine .bind checks_subscribeSince fun past result admitted => ?_
  rcases result with error | ⟨backlog, stream⟩
  · refine .call (S := realtimeSignature P) trivial fun choice outcome => ?_
    cases outcome with
    | sent => exact fun _ => Full.cons admitted _
    | failed => exact fun _ => Full.cons admitted _
    | timedOut => exact fun _ => Full.cons admitted _
  · refine .bind (checks_replay (missed backlog)) fun past result other => ?_
    cases result with
    | error reason =>
        refine .bind (Q := fun _ _ => True) checks_dropStream fun past _ _ => ?_
        exact fun same => (reason_ne_of_error other same).elim
    | ok _ =>
        refine .bind (checks_pump rounds) fun past reason other => ?_
        cases reason with
        | none => exact nofun
        | some reason =>
            refine .call (S := realtimeSignature P) trivial fun _ _ => ?_
            exact .bind (Q := fun _ _ => True) checks_dropStream fun _ _ _ same => (other same).elim

theorem checks_upgradeSince {request : UpgradeRequest P} (rounds : ℕ) :
    (upgradeSince hub request rounds).Obeys (Checks hub)
      (fun past result => result = .ok (some .subscribeFailed) → Full hub request.room past)
      past := by
  refine .call (S := realtimeSignature P) trivial fun _ authenticated => ?_
  cases authenticated with
  | error error => exact nofun
  | ok identity =>
      refine .call (S := realtimeSignature P) trivial fun _ authorized => ?_
      cases authorized with
      | error error => exact nofun
      | ok _ =>
          refine .bind (checks_run rounds) fun past reason failed => ?_
          exact fun same => failed (Except.ok.inj same)

end Control

end Connection

namespace InMemoryHub

section Runs

variable {P : Type} {hub : InMemoryHub}

/-- Every task enters a room right after its check, and is refused after one that found no room. -/
theorem checks_body (call : RealtimeCall P) :
    (body hub call).Obeys (Checks hub)
      (fun past value => call.refused value = true → Full hub call.room past) [] := by
  cases call with
  | publish msg => exact .bind (Q := fun _ _ => True) checks_publish fun _ _ _ => nofun
  | subscribe room listens =>
      refine .bind checks_registerSubscriber fun past result admitted => ?_
      cases result with
      | error error => exact fun _ => admitted
      | ok stream =>
          refine (checks_attend listens).mono fun past value left => ?_
          subst left
          exact nofun
  | resume room since last listens =>
      refine .bind checks_subscribeSince fun past result admitted => ?_
      rcases result with error | ⟨backlog, stream⟩
      · exact fun _ => admitted
      · refine (checks_attend listens).mono fun past value left => ?_
        subst left
        exact nofun
  | connect request rounds =>
      refine .bind (Connection.checks_upgradeSince rounds) fun past result failed => ?_
      cases result with
      | error error => exact nofun
      | ok reason =>
          intro refused
          refine failed ?_
          rcases reason with _ | reason
          · cases refused
          · cases reason with
            | subscribeFailed => rfl
            | _ => cases refused

/-- The room that a task is about to enter. -/
def admittedTo (t : RealtimeTask P) : Option RoomId :=
  match t.rest.awaited with
  | some (.entry room) => some room
  | _ => none

/-- The rooms of the registrations that are between their check and their insertion. -/
def registering (p : RealtimePool P) : List RoomId := p.tasks.filterMap admittedTo

/-- At most `limit` registrations are between their check and their insertion. -/
def AtMost (limit : ℕ) (p : RealtimePool P) (_ : Action RealtimeChoice (RealtimeCall P)) : Prop :=
  (registering p).length ≤ limit

instance (limit : ℕ) (p : RealtimePool P) (action : Action RealtimeChoice (RealtimeCall P)) :
    Decidable (AtMost limit p action) :=
  inferInstanceAs (Decidable ((registering p).length ≤ limit))

/-- The tracked rooms. -/
def tracked (s : HubShared) : Finset RoomId := s.rooms.keys.toFinset

/-- The hub as a set of rooms that others are about to enter. -/
def ceilingOf (p : RealtimePool P) : Ceiling RoomId := ⟨tracked p.shared, registering p⟩

theorem mem_tracked {s : HubShared} {room : RoomId} :
    room ∈ tracked s ↔ ∃ entry, s.rooms.get room = some entry := by
  rw [tracked, List.mem_toFinset, DashMap.mem_keys]

theorem card_tracked (s : HubShared) : (tracked s).card = s.rooms.keys.length :=
  List.toFinset_card_of_nodup (AList.keys_nodup s.rooms)

theorem tracked_put {s s' : HubShared} {room : RoomId} {entry : RoomEntry}
    (put : s'.rooms = s.rooms.put room entry) : tracked s' = insert room (tracked s) := by
  ext other
  rw [Finset.mem_insert, mem_tracked, mem_tracked, put, DashMap.get_put]
  split
  · next same => exact ⟨fun _ => .inl same, fun _ => ⟨entry, rfl⟩⟩
  · next distinct => exact ⟨.inr, fun either => either.resolve_left distinct⟩

theorem tracked_put_of_mem {s s' : HubShared} {room : RoomId} {old entry : RoomEntry}
    (found : s.rooms.get room = some old) (put : s'.rooms = s.rooms.put room entry) :
    tracked s' = tracked s := by
  rw [tracked_put put]
  exact Finset.insert_eq_self.mpr (mem_tracked.mpr ⟨old, found⟩)

theorem tracked_enter (s : HubShared) (room : RoomId) :
    tracked (enter s room) = insert room (tracked s) := by
  unfold enter
  split
  · exact tracked_put rfl
  · exact tracked_put rfl

theorem tracked_remove {s s' : HubShared} {room : RoomId}
    (removed : s'.rooms = s.rooms.remove room) : tracked s' = (tracked s).erase room := by
  ext other
  rw [Finset.mem_erase, mem_tracked, mem_tracked, removed, DashMap.get_remove]
  split
  · next same => exact ⟨nofun, fun both => (both.1 same).elim⟩
  · next distinct => exact ⟨fun found => ⟨distinct, found⟩, And.right⟩

/-- A move enters a room, removes one, or leaves the set of rooms as it is. -/
theorem tracked_of_move {s s' : HubShared} {footing : Footing} {event : RealtimeEvent P}
    (move : Move hub s footing event s') :
    (∃ room, event.op = .entry room ∧ tracked s' = insert room (tracked s)) ∨
      (∃ room, event.op = .removeIf room ∧ tracked s' = (tracked s).erase room) ∨
      ((∀ room, event.op ≠ .entry room) ∧ tracked s' = tracked s) := by
  cases move with
  | quiet calm =>
      refine .inr (.inr ⟨fun room enters => ?_, rfl⟩)
      obtain ⟨choice, op, reply⟩ := event
      cases enters
      exact calm
  | @enter choice room => exact .inl ⟨room, rfl, tracked_enter s room⟩
  | stamp found => exact .inr (.inr ⟨nofun, tracked_put_of_mem found rfl⟩)
  | decrement found => exact .inr (.inr ⟨nofun, tracked_put_of_mem found rfl⟩)
  | @remove choice room entry found empty =>
      exact .inr (.inl ⟨room, rfl, tracked_remove rfl⟩)
  | _ => exact .inr (.inr ⟨nofun, rfl⟩)

theorem awaited_of_admittedTo {t : RealtimeTask P} {room : RoomId}
    (enters : admittedTo t = some room) : t.rest.awaited = some (.entry room) := by
  unfold admittedTo at enters
  split at enters
  · next here awaits =>
    cases enters
    exact awaits
  · cases enters

/-- Whoever is about to enter a room has just passed the check. -/
theorem passed_of_admittedTo {C : RealtimePool P → Action RealtimeChoice (RealtimeCall P) → Prop}
    {p : RealtimePool P} (reached : (system hub).Reaches C initial p) {t : RealtimeTask P}
    (started : t ∈ p.tasks) {room : RoomId} (enters : admittedTo t = some room) :
    Passed hub room t.past := by
  obtain ⟨next, awaits⟩ := Program.exists_await (awaited_of_admittedTo enters)
  obtain ⟨i, found⟩ := List.mem_iff_getElem?.mp started
  exact reached.obeys_op rfl checks_body found awaits

theorem admittedTo_iff {t : RealtimeTask P} {op : RealtimeOp P}
    {next : op.Reply → RealtimeM P RealtimeReturn} (awaits : t.rest = .await op next)
    (room : RoomId) : admittedTo t = some room ↔ op = .entry room := by
  refine ⟨fun enters => ?_, fun same => ?_⟩
  · have expected := awaited_of_admittedTo enters
    rw [awaits] at expected
    exact Option.some.inj expected
  · subst same
    unfold admittedTo
    rw [awaits]
    rfl

/-- A passed check met a hub that tracked the room, or fewer rooms than the ceiling. -/
theorem admitted_of_passed {s s' : HubShared} {choice : RealtimeChoice} {op : RealtimeOp P}
    {reply : op.Reply} {past : List (RealtimeEvent P)} {room : RoomId}
    (served : serve hub s choice op = some (s', reply))
    (passed : Passed hub room (⟨choice, op, reply⟩ :: past)) :
    s' = s ∧ (room ∈ tracked s ∨ (tracked s).card < hub.maxRooms) := by
  cases op with
  | containsKey here =>
      cases served
      cases found : s.rooms.get here with
      | none =>
          rw [found] at passed
          exact passed.elim
      | some entry =>
          rw [found] at passed
          cases passed
          exact ⟨rfl, .inl (mem_tracked.mpr ⟨entry, found⟩)⟩
  | len =>
      cases served
      rw [card_tracked]
      exact ⟨rfl, .inr passed⟩
  | _ => exact passed.elim

theorem admittedTo_eq_none {t : RealtimeTask P} {op : RealtimeOp P}
    {next : op.Reply → RealtimeM P RealtimeReturn} (awaits : t.rest = .await op next)
    (other : ∀ room, op ≠ .entry room) : admittedTo t = none := by
  refine Option.eq_none_iff_forall_ne_some.mpr fun room enters => ?_
  exact other room ((admittedTo_iff awaits room).mp enters)

/-- Whoever has just arrived has not passed any check. -/
theorem registering_start {p : RealtimePool P} {call : RealtimeCall P} {shared : HubShared}
    (reached : (system hub).Reaches System.Any initial (p.start (body hub) shared [call])) :
    registering (p.start (body hub) shared [call]) = registering p := by
  have idle : admittedTo (⟨call, [], body hub call⟩ : RealtimeTask P) = none := by
    refine Option.eq_none_iff_forall_ne_some.mpr fun room enters => ?_
    exact passed_of_admittedTo reached (List.mem_append_right _ (List.mem_singleton_self _)) enters
  rw [registering, Pool.start_tasks, List.map_singleton, filterMap_concat, idle]
  exact List.append_nil _

section Advance

variable {p : RealtimePool P} {i : ℕ} {t : RealtimeTask P} {op : RealtimeOp P}
  {next : op.Reply → RealtimeM P RealtimeReturn} {choice : RealtimeChoice} {shared : HubShared}
  {reply : op.Reply}

/-- A step exchanges the room that its task is about to enter. -/
theorem registering_advance (found : p.tasks[i]? = some t) (event : RealtimeEvent P)
    (shared : HubShared) (rest : RealtimeM P RealtimeReturn) :
    (registering (p.advance i t event shared rest) ++ (admittedTo t).toList).Perm
      (registering p ++ (admittedTo ⟨t.args, event :: t.past, rest⟩).toList) := by
  obtain ⟨others, before, now⟩ :=
    filterMap_set_perm found ⟨t.args, event :: t.past, rest⟩ admittedTo
  refine (now.append_right _).trans (List.Perm.trans ?_ (before.symm.append_right _))
  rw [List.append_assoc, List.append_assoc]
  exact List.perm_append_comm.append_left others

theorem ceilingOf_eq {rooms : Finset RoomId} {pending : List RoomId}
    (set : tracked p.shared = rooms) (list : (registering p).Perm pending) :
    ceilingOf p = ⟨rooms, pending⟩ :=
  congrArg₂ Ceiling.mk set (Multiset.coe_eq_coe.mpr list)

/-- A task that is about to enter a room now has taken the step of the check. -/
theorem ceiling_of_check {room : RoomId} (found : p.tasks[i]? = some t)
    (awaits : t.rest = .await op next)
    (served : serve hub p.shared choice op = some (shared, reply))
    (enters : admittedTo (⟨t.args, ⟨choice, op, reply⟩ :: t.past, next reply⟩ : RealtimeTask P) =
      some room) (passed : Passed hub room (⟨choice, op, reply⟩ :: t.past)) :
    Ceiling.Step hub.maxRooms (ceilingOf p)
      (ceilingOf (p.advance i t ⟨choice, op, reply⟩ shared (next reply))) := by
  obtain ⟨rfl, admitted⟩ := admitted_of_passed served passed
  have outside : admittedTo t = none := by
    refine admittedTo_eq_none awaits fun other same => ?_
    subst same
    exact passed
  have balance := registering_advance found ⟨choice, op, reply⟩ p.shared (next reply)
  rw [enters, outside, Option.toList_none, List.append_nil] at balance
  rw [ceilingOf_eq rfl (balance.trans (List.perm_append_singleton room _))]
  rcases admitted with there | few
  · exact .rejoin room there
  · exact .grant room few

/-- A task that is not about to enter a room has entered one, or changed the rooms otherwise. -/
theorem ceiling_of_rest (reached : (system hub).Reaches System.Any initial p)
    (found : p.tasks[i]? = some t) (awaits : t.rest = .await op next)
    (served : serve hub p.shared choice op = some (shared, reply))
    (outside : admittedTo (⟨t.args, ⟨choice, op, reply⟩ :: t.past, next reply⟩ : RealtimeTask P) =
      none) :
    ceilingOf (p.advance i t ⟨choice, op, reply⟩ shared (next reply)) = ceilingOf p ∨
      Ceiling.Step hub.maxRooms (ceilingOf p)
        (ceilingOf (p.advance i t ⟨choice, op, reply⟩ shared (next reply))) := by
  have balance := registering_advance found ⟨choice, op, reply⟩ shared (next reply)
  rw [outside, Option.toList_none, List.append_nil] at balance
  rcases tracked_of_move (move_of_reaches reached found awaits served) with
    ⟨room, same, inserted⟩ | ⟨room, same, removed⟩ | ⟨other, kept⟩
  · right
    rw [(admittedTo_iff awaits room).mpr same, Option.toList_some] at balance
    have listed := balance.symm.trans (List.perm_append_singleton room _)
    have rest := listed.erase room
    rw [List.erase_cons_head] at rest
    rw [ceilingOf_eq inserted rest.symm]
    exact .insert room (Multiset.mem_coe.mpr (listed.mem_iff.mpr List.mem_cons_self))
  · right
    have other : ∀ here, op ≠ .entry here := fun here enters => by cases same.symm.trans enters
    rw [admittedTo_eq_none awaits other, Option.toList_none, List.append_nil] at balance
    rw [ceilingOf_eq removed balance]
    exact .remove room
  · left
    rw [admittedTo_eq_none awaits other, Option.toList_none, List.append_nil] at balance
    rw [ceilingOf_eq kept balance]
    rfl

end Advance

/-- Every step of the hub is a step of the ceiling, or none. -/
theorem ceiling_of_step {p q : RealtimePool P} {action : Action RealtimeChoice (RealtimeCall P)}
    (reached : (system hub).Reaches System.Any initial p)
    (stepped : (system hub).step p action = some q) :
    ceilingOf q = ceilingOf p ∨ Ceiling.Step hub.maxRooms (ceilingOf p) (ceilingOf q) := by
  have later : (system hub).Reaches System.Any initial q := reached.tail ⟨action, trivial, stepped⟩
  obtain ⟨call, shared, args, rfl, arrived, rfl⟩ |
    ⟨i, choice, t, op, next, shared, reply, rfl, found, awaits, served, rfl⟩ :=
    System.step_cases stepped
  · cases arrived
    exact .inl (congrArg₂ Ceiling.mk rfl (congrArg Multiset.ofList (registering_start later)))
  · cases enters : admittedTo
        (⟨t.args, ⟨choice, op, reply⟩ :: t.past, next reply⟩ : RealtimeTask P) with
    | none => exact ceiling_of_rest reached found awaits served enters
    | some room =>
        have acted := List.mem_set (List.getElem?_eq_some_iff.mp found).1
          (⟨t.args, ⟨choice, op, reply⟩ :: t.past, next reply⟩ : RealtimeTask P)
        have passed := passed_of_admittedTo later acted enters
        exact .inr (ceiling_of_check found awaits served enters passed)

/-- A run of the hub is a run of the ceiling. -/
theorem run_of_reaches {limit : ℕ} {p : RealtimePool P}
    (reached : (system hub).Reaches (AtMost limit) initial p) :
    Ceiling.Run hub.maxRooms limit (ceilingOf p) := by
  refine reached.invariant (P := fun p => Ceiling.Run hub.maxRooms limit (ceilingOf p)) .refl ?_
  intro q r action before run few stepped
  rcases ceiling_of_step (before.mono fun _ _ _ => trivial) stepped with same | step
  · rw [same]
    exact run
  · exact run.tail ⟨few, step⟩

/-- The hub tracks fewer than `limit` rooms more than its ceiling. -/
theorem card_tracked_le {limit : ℕ} {p : RealtimePool P}
    (reached : (system hub).Reaches (AtMost limit) initial p) :
    p.shared.rooms.keys.length ≤ hub.maxRooms + limit - 1 := by
  rw [← card_tracked]
  exact (run_of_reaches reached).within.tracked

/-- What a check was told about the hub. -/
def Reports (s : HubShared) : RealtimeEvent P → Prop
  | ⟨_, .containsKey room, found⟩ => found = (s.rooms.get room).isSome
  | ⟨_, .len, rooms⟩ => rooms = s.rooms.keys.length
  | _ => True

theorem reports_of_reaches {C : RealtimePool P → Action RealtimeChoice (RealtimeCall P) → Prop}
    {p : RealtimePool P} (reached : (system hub).Reaches C initial p) :
    ∀ entry ∈ p.trace, Reports entry.before entry.event := by
  refine reached.forall_trace rfl ?_
  intro q i t op next choice shared reply _ _ _ _ served
  cases op with
  | containsKey room =>
      cases served
      rfl
  | len =>
      cases served
      rfl
  | _ => trivial

/-- Task `i` did not find `room` at its check, and then counted as many rooms as the ceiling. -/
def TurnedAway (hub : InMemoryHub) (p : RealtimePool P) (i : ℕ) (room : RoomId) : Prop :=
  ∃ check ∈ p.trace, ∃ count ∈ p.trace, check.task = i ∧ count.task = i ∧
    count.past = check.event :: check.past ∧ check.event.op = .containsKey room ∧
    count.event.op = .len ∧ check.before.rooms.get room = none ∧
    hub.maxRooms ≤ count.before.rooms.keys.length

theorem turnedAway_of_refused {C : RealtimePool P → Action RealtimeChoice (RealtimeCall P) → Prop}
    {p : RealtimePool P} (reached : (system hub).Reaches C initial p) {i : ℕ} {t : RealtimeTask P}
    {value : RealtimeReturn} (found : p.tasks[i]? = some t) (returned : t.rest.result = some value)
    (refused : t.args.refused value = true) : TurnedAway hub p i t.args.room := by
  have obeys := reached.obeys rfl checks_body t (List.mem_of_getElem? found)
  rw [Program.eq_ret_of_result returned] at obeys
  obtain ⟨first, second, rooms, earlier, many, did⟩ := obeys refused
  obtain ⟨count, counted, rfl, -, past, event⟩ := reached.exists_entry rfl found did
  obtain ⟨check, checked, same, -, past', event'⟩ :=
    reached.exists_entry rfl found ((List.suffix_cons _ _).trans did)
  have missing := reports_of_reaches reached check checked
  have full := reports_of_reaches reached count counted
  rw [event'] at missing
  rw [event] at full
  refine ⟨check, checked, count, counted, same, rfl, ?_, ?_, ?_, ?_, ?_⟩
  · rw [past, event', past']
  · rw [event']
  · rw [event]
  · exact Option.isNone_iff_eq_none.mp (Option.isSome_eq_false_iff.mp missing.symm)
  · exact full ▸ many

/-- The ceiling under concurrency: while at most `limit` registrations are between their check and
their insertion, the hub tracks fewer than `limit` rooms more than its ceiling; with one at a time
it keeps the ceiling; and whoever is refused did not find its room at its check. -/
theorem rooms_bounded (hub : InMemoryHub) :
    (∀ (limit : ℕ) (p : RealtimePool P), 1 ≤ limit →
      (system hub).Reaches (AtMost limit) initial p →
        p.shared.rooms.keys.length ≤ hub.maxRooms + limit - 1) ∧
    (∀ p : RealtimePool P, (system hub).Reaches (AtMost 1) initial p →
      p.shared.rooms.keys.length ≤ hub.maxRooms) ∧
    ∀ p : RealtimePool P, (system hub).Reaches System.Any initial p → ∀ (i : ℕ) t value,
      p.tasks[i]? = some t → t.rest.result = some value → t.args.refused value = true →
        TurnedAway hub p i t.args.room :=
  ⟨fun _ _ _ reached => card_tracked_le reached, fun _ reached => card_tracked_le reached,
    fun _ reached _ _ _ found returned refused =>
      turnedAway_of_refused reached found returned refused⟩

end Runs

/-- The room where players wait. -/
def lobby : RoomId where
  id := "lobby"
  nonempty := by decide
  short := by decide
  allowed := by decide

/-- In a hub for one room: two subscribers of different rooms pass the check before either has entered,
and a third one comes between their insertions. -/
def crowdedRun : List (Action RealtimeChoice (RealtimeCall Unit)) :=
  [.arrive (.subscribe game 0), .arrive (.subscribe lobby 0), .arrive (.subscribe lobby 0),
    .step 0 {}, .step 0 {}, .step 1 {}, .step 1 {}, .step 0 {}, .step 2 {}, .step 2 {}, .step 1 {}]

/-- A hub for one room. -/
def oneRoom : InMemoryHub := withLimits 32 1

/-- The hub tracks two rooms, which is all that it may, and the third subscriber was refused. -/
theorem rooms_bounded_crowded :
    ∃ p : RealtimePool Unit, (system oneRoom).Reaches (AtMost 2) initial p ∧
      p.shared.rooms.keys.length = 2 ∧ p.shared.rooms.keys.length ≤ 1 + 2 - 1 ∧
      TurnedAway oneRoom p 2 lobby := by
  have along : (system oneRoom).Along (AtMost 2) initial crowdedRun := by
    decide +kernel
  have run : ((system oneRoom).exec initial crowdedRun).any (fun p : RealtimePool Unit =>
      decide (p.shared.rooms.keys.length = 2) && (p.tasks[2]?).any fun t =>
        decide (t.args = .subscribe lobby 0) && t.rest.result.any t.args.refused) = true := by
    decide +kernel
  obtain ⟨p, reached, facts⟩ := System.exists_reaches_of_exec along run
  obtain ⟨two, facts⟩ := Bool.and_eq_true_iff.mp facts
  obtain ⟨t, at_two, facts⟩ := (Option.any_eq_true _ _).mp facts
  obtain ⟨subscribes, facts⟩ := Bool.and_eq_true_iff.mp facts
  obtain ⟨value, returned, refused⟩ := (Option.any_eq_true _ _).mp facts
  obtain ⟨bounded, -, turns⟩ := rooms_bounded (P := Unit) oneRoom
  have away := turns p (reached.mono fun _ _ _ => trivial) 2 t value at_two returned refused
  rw [of_decide_eq_true subscribes] at away
  exact ⟨p, reached, of_decide_eq_true two, bounded 2 p (by decide) reached, away⟩

end InMemoryHub

end Pharos
