import Pharos.Realtime.Footing

/-!
# Rooms and their guards

The count of a room is the number of its guards that were created and not yet decremented.  While a
guard is held its room stays in the map with the sender that the guard's receiver listens to, and a
room that nobody holds is about to be removed by the task that emptied it.
-/

namespace Pharos

open Async

/-- The footing holds a guard of the room. -/
def Footing.guards (room : RoomId) : Footing → Bool
  | .inside here _ | .leaving here _ => here = room
  | _ => false

/-- The room of the footing's guard, and its receiver. -/
def Footing.seat : Footing → Option (RoomId × ℕ)
  | .inside room number | .leaving room number => some (room, number)
  | _ => none

/-- The footing never had a guard, or has finished dropping it. -/
def Footing.Done : Footing → Prop
  | .outside | .stamped _ _ | .gone => True
  | .inside _ _ | .leaving _ _ | .emptied _ => False

theorem Footing.not_guards_of_done {footing : Footing} {room : RoomId} (done : footing.Done) :
    ¬ footing.guards room = true := by
  cases footing with
  | inside here number => exact done.elim
  | leaving here number => exact done.elim
  | _ => exact Bool.false_ne_true

theorem Footing.guards_of_seat {footing : Footing} {room : RoomId} {number : ℕ}
    (sits : footing.seat = some (room, number)) : footing.guards room = true := by
  cases footing with
  | inside here other =>
      cases sits
      exact decide_eq_true rfl
  | leaving here other =>
      cases sits
      exact decide_eq_true rfl
  | _ => cases sits

namespace InMemoryHub

/-- The stored count of a room; a room that is not tracked has no subscribers. -/
def subscribersOf (s : HubShared) (room : RoomId) : ℕ :=
  (s.rooms.get room).elim 0 RoomEntry.subscribers

section Moves

variable {P : Type} {hub : InMemoryHub} {s s' : HubShared} {footing : Footing}
  {event : RealtimeEvent P}

theorem subscribersOf_put {rooms : DashMap RoomId RoomEntry} {key : RoomId} {entry : RoomEntry}
    (put : s'.rooms = rooms.put key entry) (room : RoomId) :
    subscribersOf s' room =
      if room = key then entry.subscribers else (rooms.get room).elim 0 RoomEntry.subscribers := by
  rw [subscribersOf, put, DashMap.get_put]
  split
  · rfl
  · rfl

theorem subscribersOf_enter (room other : RoomId) :
    subscribersOf (enter s room) other = subscribersOf s other + if other = room then 1 else 0 := by
  unfold enter
  split
  · next entry found =>
    rw [subscribersOf_put rfl]
    split
    · next same => rw [same, subscribersOf, found]; rfl
    · rfl
  · next missing =>
    rw [subscribersOf_put rfl]
    split
    · next same => rw [same, subscribersOf, missing]; rfl
    · rfl

/-- A move changes the count of a room as it changes the guards that its task holds. -/
theorem subscribersOf_of_move (move : Move hub s footing event s') (room : RoomId)
    (held : footing.guards room = true → 0 < subscribersOf s room) :
    subscribersOf s' room + (if footing.guards room then 1 else 0) =
      subscribersOf s room + if (footing.after event).guards room then 1 else 0 := by
  cases move with
  | quiet calm => rw [calm.after]
  | enter =>
      rw [subscribersOf_enter]
      simp [Footing.after, Footing.guards, eq_comm]
  | stamp found =>
      rw [subscribersOf_put rfl, stampAndRetain_subscribers]
      split
      · next same => simp [same, subscribersOf, found, Footing.after, Footing.guards]
      · rfl
  | read => rfl
  | send => rfl
  | receive found there => rfl
  | ended found alone => rfl
  | dropReceiver => rfl
  | @decrement choice here number entry found =>
      have released : (if entry.subscribers - 1 == 0 then Footing.emptied here else .gone).guards
          room = false := by
        split
        · rfl
        · rfl
      rw [subscribersOf_put rfl, Footing.after_decrement, released]
      by_cases same : room = here
      · subst same
        have positive := held (decide_eq_true rfl)
        rw [subscribersOf, found] at positive ⊢
        simp only [Footing.guards, Option.elim_some, decide_true, if_true] at positive ⊢
        simp only [Bool.false_eq_true, if_false]
        omega
      · have other : (Footing.leaving here number).guards room = false :=
          decide_eq_false (Ne.symm same)
        rw [if_neg same, other, subscribersOf]
  | @miss choice here number missing =>
      have other : (Footing.leaving here number).guards room = false := by
        refine decide_eq_false fun same => ?_
        have positive := held (decide_eq_true same)
        rw [← same, subscribersOf, missing] at positive
        exact Nat.lt_irrefl 0 positive
      rw [Footing.after_decrement, other]
      rfl
  | @remove choice here entry found empty =>
      show subscribersOf { s with rooms := s.rooms.remove here } room + 0 = subscribersOf s room + 0
      simp only [subscribersOf, DashMap.get_remove]
      split
      · next same =>
        rw [same, found]
        exact congrArg (· + 0) empty.symm
      · rfl
  | keep occupied => rfl

/-- What a receiver keeps of its creation. -/
def SameReceiver (receiver receiver' : Receiver) : Prop :=
  receiver'.room = receiver.room ∧ receiver'.channel = receiver.channel ∧
    receiver'.joined = receiver.joined

theorem sameReceiver_deliver (sender : ℕ) (msg : RealtimeMessage) (receiver : Receiver) :
    SameReceiver receiver (deliver sender msg receiver) := by
  unfold deliver
  split
  · exact ⟨rfl, rfl, rfl⟩
  · exact ⟨rfl, rfl, rfl⟩

/-- Receivers stay where they are. -/
theorem receiver_of_move (move : Move hub s footing event s') {number : ℕ} {receiver : Receiver}
    (found : s.receivers[number]? = some receiver) :
    ∃ receiver', s'.receivers[number]? = some receiver' ∧ SameReceiver receiver receiver' := by
  have same : SameReceiver receiver receiver := ⟨rfl, rfl, rfl⟩
  cases move with
  | enter =>
      refine ⟨receiver, ?_, same⟩
      have short := (List.getElem?_eq_some_iff.mp found).1
      unfold enter
      split
      · exact (List.getElem?_append_left short).trans found
      · exact (List.getElem?_append_left short).trans found
  | @send choice sender msg =>
      refine ⟨deliver sender msg receiver, ?_, sameReceiver_deliver sender msg receiver⟩
      show (s.receivers.map _)[number]? = _
      rw [List.getElem?_map, found]
      rfl
  | @receive choice room other receiver' msg there at_ =>
      show ∃ _, (s.receivers.set other _)[number]? = _ ∧ _
      by_cases here : other = number
      · subst here
        cases there.symm.trans found
        rw [List.getElem?_set_self (List.getElem?_eq_some_iff.mp found).1]
        exact ⟨_, rfl, rfl, rfl, rfl⟩
      · rw [List.getElem?_set_ne here]
        exact ⟨receiver, found, same⟩
  | @dropReceiver choice room other =>
      show ∃ _, (s.receivers.modify other _)[number]? = _ ∧ _
      rw [List.getElem?_modify, found]
      split
      · exact ⟨_, rfl, rfl, rfl, rfl⟩
      · exact ⟨_, rfl, same⟩
  | _ => exact ⟨receiver, found, same⟩

/-- A room whose count is positive stays, with its sender. -/
theorem sender_of_move (move : Move hub s footing event s') {room : RoomId} {entry : RoomEntry}
    (found : s.rooms.get room = some entry) (occupied : 0 < entry.subscribers) :
    ∃ entry', s'.rooms.get room = some entry' ∧ entry'.sender = entry.sender ∧
      entry.nextVersion ≤ entry'.nextVersion := by
  have puts : ∀ {key : RoomId} {old new : RoomEntry}, s.rooms.get key = some old →
      new.sender = old.sender ∧ old.nextVersion ≤ new.nextVersion →
      ∃ entry', (s.rooms.put key new).get room = some entry' ∧ entry'.sender = entry.sender ∧
        entry.nextVersion ≤ entry'.nextVersion := by
    intro key old new there same
    rw [DashMap.get_put]
    split
    · next here =>
      subst here
      cases there.symm.trans found
      exact ⟨new, rfl, same⟩
    · exact ⟨entry, found, rfl, Nat.le_refl _⟩
  cases move with
  | @enter choice here =>
      unfold enter
      split
      · next old there => exact puts there ⟨rfl, Nat.le_refl _⟩
      · next missing =>
        refine ⟨entry, ?_, rfl, Nat.le_refl _⟩
        show (s.rooms.put here _).get room = _
        rw [DashMap.get_put_of_ne, found]
        rintro rfl
        cases missing.symm.trans found
  | stamp there =>
      refine puts there ⟨stampAndRetain_sender, ?_⟩
      rw [stampAndRetain_nextVersion]
      exact Nat.le_succ _
  | decrement there => exact puts there ⟨rfl, Nat.le_refl _⟩
  | @remove choice here old there empty =>
      refine ⟨entry, ?_, rfl, Nat.le_refl _⟩
      show (s.rooms.remove here).get room = _
      rw [DashMap.get_remove, if_neg, found]
      rintro rfl
      cases there.symm.trans found
      exact Nat.lt_irrefl 0 (empty ▸ occupied)
  | _ => exact ⟨entry, found, rfl, Nat.le_refl _⟩

/-- A receiver that listens to the sender its room has in the map, since one of its versions. -/
def Seated (s : HubShared) (room : RoomId) (number : ℕ) : Prop :=
  ∃ receiver entry, s.receivers[number]? = some receiver ∧ s.rooms.get room = some entry ∧
    receiver.room = room ∧ receiver.channel = entry.sender ∧ receiver.joined ≤ entry.nextVersion

theorem Seated.of_move {room : RoomId} {number : ℕ} {entry : RoomEntry}
    (seated : Seated s room number) (move : Move hub s footing event s')
    (tracked : s.rooms.get room = some entry) (occupied : 0 < entry.subscribers) :
    Seated s' room number := by
  obtain ⟨receiver, entry', at_number, same, here, attached, since⟩ := seated
  cases tracked.symm.trans same
  obtain ⟨receiver', found, kept⟩ := receiver_of_move move at_number
  obtain ⟨entry', tracked', sender, later⟩ := sender_of_move move tracked occupied
  refine ⟨receiver', entry', found, tracked', kept.1.trans here, ?_, ?_⟩
  · rw [kept.2.1, attached, sender]
  · rw [kept.2.2]
    exact Nat.le_trans since later

theorem seated_enter (s : HubShared) (room : RoomId) :
    Seated (enter s room) room s.receivers.length := by
  unfold enter
  split
  · exact ⟨_, _, List.getElem?_concat_length, DashMap.get_put_self _ _ _, rfl, rfl, Nat.le_refl _⟩
  · exact ⟨_, _, List.getElem?_concat_length, DashMap.get_put_self _ _ _, rfl, rfl, Nat.le_refl _⟩

/-- A task keeps its seat, or it has just entered. -/
theorem seat_cases (move : Move hub s footing event s') {room : RoomId} {number : ℕ}
    (sits : (footing.after event).seat = some (room, number)) :
    footing.seat = some (room, number) ∨
      footing = .outside ∧ event.op = .entry room ∧ number = s.receivers.length ∧
        s' = enter s room := by
  cases move with
  | quiet calm =>
      rw [calm.after] at sits
      exact .inl sits
  | enter =>
      cases sits
      exact .inr ⟨rfl, rfl, rfl, rfl⟩
  | read => exact .inl sits
  | receive found there => exact .inl sits
  | ended found alone => exact .inl sits
  | dropReceiver => exact .inl sits
  | decrement found =>
      rw [Footing.after_decrement] at sits
      split at sits
      · cases sits
      · cases sits
  | _ => cases sits

/-- A room that nobody holds was just emptied, or was already there and is not being removed. -/
theorem vacant_cases (move : Move hub s footing event s') {room : RoomId} {entry' : RoomEntry}
    (found' : s'.rooms.get room = some entry') (vacant' : entry'.subscribers = 0) :
    footing.after event = .emptied room ∨
      footing ≠ .emptied room ∧ ∃ entry, s.rooms.get room = some entry ∧ entry.subscribers = 0 := by
  cases move with
  | quiet calm =>
      by_cases same : footing = .emptied room
      · exact .inl ((calm.after footing).trans same)
      · exact .inr ⟨same, entry', found', vacant'⟩
  | @enter choice here =>
      refine .inr ⟨nofun, ?_⟩
      unfold enter at found'
      split at found'
      · rw [DashMap.get_put] at found'
        split at found'
        · cases found'
          cases vacant'
        · exact ⟨entry', found', vacant'⟩
      · rw [DashMap.get_put] at found'
        split at found'
        · cases found'
          cases vacant'
        · exact ⟨entry', found', vacant'⟩
  | @stamp choice msg entry found =>
      refine .inr ⟨nofun, ?_⟩
      rw [DashMap.get_put] at found'
      split at found'
      · next same =>
        cases found'
        rw [stampAndRetain_subscribers] at vacant'
        exact ⟨entry, same ▸ found, vacant'⟩
      · exact ⟨entry', found', vacant'⟩
  | @decrement choice here number entry found =>
      rw [DashMap.get_put] at found'
      split at found'
      · next same =>
        cases found'
        rw [Footing.after_decrement, same, if_pos (beq_iff_eq.mpr vacant')]
        exact .inl rfl
      · exact .inr ⟨nofun, entry', found', vacant'⟩
  | @remove choice here entry found empty =>
      rw [DashMap.get_remove] at found'
      split at found'
      · cases found'
      · next distinct =>
        refine .inr ⟨fun same => ?_, entry', found', vacant'⟩
        cases same
        exact distinct rfl
  | keep occupied =>
      refine .inr ⟨fun same => ?_, entry', found', vacant'⟩
      cases same
      exact occupied entry' found' vacant'
  | _ => exact .inr ⟨nofun, entry', found', vacant'⟩

/-- A stream came to its end. -/
def ends : RealtimeEvent P → Bool
  | ⟨_, .recv _, none⟩ => true
  | _ => false

theorem Calm.ends (calm : Calm event) : InMemoryHub.ends event = false := by
  obtain ⟨choice, op, reply⟩ := event
  cases op with
  | recv number => exact calm.elim
  | _ => rfl

/-- A guard of the room was created. -/
def creates (room : RoomId) : RealtimeEvent P → Bool
  | ⟨_, .entry here, _⟩ => here = room
  | _ => false

/-- A guard of the room was decremented. -/
def decrements (room : RoomId) : RealtimeEvent P → Bool
  | ⟨_, .decrement here, _⟩ => here = room
  | _ => false

/-- A task holds the guards it created and did not decrement. -/
theorem guards_of_move (move : Move hub s footing event s') (room : RoomId) :
    ((if (footing.after event).guards room then 1 else 0) + if decrements room event then 1 else 0) =
      (if footing.guards room then 1 else 0) + if creates room event then 1 else 0 := by
  cases move with
  | quiet calm =>
      have neither : decrements room event = false ∧ creates room event = false := by
        obtain ⟨choice, op, reply⟩ := event
        cases op with
        | entry here => exact calm.elim
        | decrement here => exact calm.elim
        | _ => exact ⟨rfl, rfl⟩
      rw [calm.after, neither.1, neither.2]
  | decrement found =>
      rw [Footing.after_decrement]
      split
      · exact (Nat.zero_add _)
      · exact (Nat.zero_add _)
  | miss missing => exact (Nat.zero_add _)
  | enter => exact (Nat.zero_add _).symm
  | _ => rfl

end Moves

section Runs

variable {P : Type} {hub : InMemoryHub}
  {C : RealtimePool P → Action RealtimeChoice (RealtimeCall P) → Prop} {p : RealtimePool P}

/-- The count of a room is the number of tasks that hold a guard of it. -/
theorem subscribersOf_eq_countP (reached : (system hub).Reaches C initial p) (room : RoomId) :
    subscribersOf p.shared room =
      p.tasks.countP fun t => (Footing.of t.past).guards room := by
  refine invariant_of_moves (Q := fun p => subscribersOf p.shared room =
    p.tasks.countP fun t => (Footing.of t.past).guards room) reached rfl ?_ ?_
  · intro q call counted
    rw [Pool.start_shared, Pool.start_tasks, List.countP_append, counted]
    rfl
  · intro q i t event shared rest choice _ counted _ found _ move
    have held : (Footing.of t.past).guards room = true → 0 < subscribersOf q.shared room := by
      intro guards
      rw [counted]
      exact List.countP_pos_iff.mpr ⟨t, List.mem_of_getElem? found, guards⟩
    have stored := subscribersOf_of_move move room held
    have listed : (q.tasks.set i ⟨t.args, event :: t.past, rest⟩).countP
          (fun t => (Footing.of t.past).guards room) +
          (if (Footing.of t.past).guards room then 1 else 0) =
        q.tasks.countP (fun t => (Footing.of t.past).guards room) +
          if ((Footing.of t.past).after event).guards room then 1 else 0 :=
      countP_set_add found _ _
    rw [Pool.advance_shared, Pool.advance_tasks]
    omega

/-- The room of a guard is tracked. -/
theorem entry_of_guards (reached : (system hub).Reaches C initial p) {t : RealtimeTask P}
    {room : RoomId} (started : t ∈ p.tasks) (guards : (Footing.of t.past).guards room = true) :
    ∃ entry, p.shared.rooms.get room = some entry ∧ 0 < entry.subscribers := by
  have counted : 0 < subscribersOf p.shared room := by
    rw [subscribersOf_eq_countP reached room]
    exact List.countP_pos_iff.mpr ⟨t, started, guards⟩
  rw [subscribersOf] at counted
  cases found : p.shared.rooms.get room with
  | none =>
      rw [found] at counted
      exact absurd counted (Nat.lt_irrefl 0)
  | some entry =>
      rw [found] at counted
      exact ⟨entry, rfl, counted⟩

/-- The sender of a guard's receiver is the one in the map. -/
theorem seated (reached : (system hub).Reaches C initial p) :
    ∀ t ∈ p.tasks, ∀ room number, (Footing.of t.past).seat = some (room, number) →
      Seated p.shared room number := by
  refine invariant_of_moves (Q := fun p => ∀ t ∈ p.tasks, ∀ room number,
    (Footing.of t.past).seat = some (room, number) → Seated p.shared room number) reached ?_ ?_ ?_
  · intro t started
    cases started
  · intro q call all t started room number sits
    rcases Pool.mem_start started with old | ⟨a, -, rfl⟩
    · exact all t old room number sits
    · cases sits
  · intro q i t event shared rest choice before all _ found _ move u started room number sits
    have stays : ∀ u ∈ q.tasks, (Footing.of u.past).seat = some (room, number) →
        Seated shared room number := by
      intro u old sits
      obtain ⟨entry, tracked, occupied⟩ :=
        entry_of_guards before old (Footing.guards_of_seat sits)
      exact (all u old room number sits).of_move move tracked occupied
    rcases List.mem_or_eq_of_mem_set started with old | rfl
    · exact stays u old sits
    · rcases seat_cases move sits with same | ⟨-, -, rfl, rfl⟩
      · exact stays t (List.mem_of_getElem? found) same
      · exact seated_enter _ _

/-- Some task is about to remove a room that nobody holds. -/
theorem emptied_of_vacant (reached : (system hub).Reaches C initial p) :
    ∀ room entry, p.shared.rooms.get room = some entry → entry.subscribers = 0 →
      ∃ t ∈ p.tasks, Footing.of t.past = .emptied room := by
  refine invariant_of_moves (Q := fun p => ∀ room entry, p.shared.rooms.get room = some entry →
    entry.subscribers = 0 → ∃ t ∈ p.tasks, Footing.of t.past = .emptied room) reached ?_ ?_ ?_
  · intro room entry found
    cases found
  · intro q call all room entry found vacant
    obtain ⟨t, started, emptied⟩ := all room entry found vacant
    exact ⟨t, List.mem_append_left _ started, emptied⟩
  · intro q i t event shared rest choice _ all _ found _ move room entry' found' vacant'
    rcases vacant_cases move found' vacant' with now | ⟨other, entry, tracked, vacant⟩
    · exact ⟨_, List.mem_set (List.getElem?_eq_some_iff.mp found).1 _, now⟩
    · obtain ⟨u, started, emptied⟩ := all room entry tracked vacant
      obtain ⟨j, at_j⟩ := List.mem_iff_getElem?.mp started
      have distinct : i ≠ j := by
        rintro rfl
        cases found.symm.trans at_j
        exact other emptied
      refine ⟨u, List.mem_iff_getElem?.mpr ⟨j, ?_⟩, emptied⟩
      rw [Pool.advance_tasks, List.getElem?_set_ne distinct, at_j]

/-- The count of a room is the number of its guards created and not yet decremented. -/
theorem subscribersOf_add_countP (reached : (system hub).Reaches C initial p) (room : RoomId) :
    subscribersOf p.shared room + p.trace.countP (fun entry => decrements room entry.event) =
      p.trace.countP fun entry => creates room entry.event := by
  refine invariant_of_moves (Q := fun p => subscribersOf p.shared room +
    p.trace.countP (fun entry => decrements room entry.event) =
      p.trace.countP fun entry => creates room entry.event) reached rfl ?_ ?_
  · intro q call counted
    exact counted
  · intro q i t event shared rest choice before counted _ found _ move
    have held : (Footing.of t.past).guards room = true → 0 < subscribersOf q.shared room := by
      intro guards
      rw [subscribersOf_eq_countP before]
      exact List.countP_pos_iff.mpr ⟨t, List.mem_of_getElem? found, guards⟩
    have stored := subscribersOf_of_move move room held
    have kept := guards_of_move move room
    rw [Pool.advance_shared, Pool.advance_trace, List.countP_append, List.countP_append,
      List.countP_singleton, List.countP_singleton]
    dsimp only
    omega

/-- The stream of a live subscriber does not end. -/
theorem not_ends_of_reaches (reached : (system hub).Reaches C initial p) :
    ∀ entry ∈ p.trace, ends entry.event = false := by
  refine reached.forall_trace rfl ?_
  intro q i t op next choice shared reply before found awaits _ served
  have move := move_of_reaches before found awaits served
  generalize footing : Footing.of t.past = place at move
  cases move with
  | quiet calm => exact calm.ends
  | @ended choice room number receiver there alone =>
      have sits : (Footing.of t.past).seat = some (room, number) := by
        rw [footing]
        rfl
      obtain ⟨receiver', entry, at_number, tracked, here, attached, -⟩ :=
        seated before t (List.mem_of_getElem? found) room number sits
      cases there.symm.trans at_number
      refine absurd (.inl ?_) alone
      rw [here, tracked, Option.map_some, attached]
  | _ => rfl

end Runs

/-- The room of a game. -/
def game : RoomId where
  id := "game:1"
  nonempty := by decide
  short := by decide
  allowed := by decide

/-- Two subscribers of a game: the second one comes in while the first one, who has emptied the
room, is about to remove it. -/
def rejoinedRun : List (Action RealtimeChoice (RealtimeCall Unit)) :=
  [.arrive (.subscribe game 0), .arrive (.subscribe game 0),
    .step 0 {}, .step 0 {}, .step 0 {}, .step 0 {}, .step 0 {},
    .step 1 {}, .step 1 {}, .step 0 {}]

end InMemoryHub

end Pharos
