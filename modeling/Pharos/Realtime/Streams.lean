import Pharos.Realtime.Ledger

/-!
# What a stream yields

Every guard has a receiver of its own, which stays attached while its task is inside the room.
What a stream has yielded is part of what was sent to its receiver, and all of it as long as the
receiver keeps up with the channel.
-/

namespace Pharos

open Async

open scoped List

/-- The footing is that of a task that has not been in a room. -/
def Footing.Fresh : Footing → Prop
  | .outside | .stamped _ _ => True
  | .inside _ _ | .leaving _ _ | .emptied _ | .gone => False

namespace InMemoryHub

section Moves

variable {P : Type} {hub : InMemoryHub} {s s' : HubShared} {footing : Footing}
  {event : RealtimeEvent P}

/-- A receiver that another task is seated at can only be sent more. -/
theorem receiver_of_others (move : Move hub s footing event s') {number : ℕ}
    {receiver receiver' : Receiver} (found : s.receivers[number]? = some receiver)
    (found' : s'.receivers[number]? = some receiver')
    (others : ∀ room, footing.seat ≠ some (room, number)) :
    receiver'.attached = receiver.attached ∧ receiver'.next = receiver.next ∧
      receiver.sent <+: receiver'.sent := by
  have same : s'.receivers[number]? = s.receivers[number]? →
      receiver'.attached = receiver.attached ∧ receiver'.next = receiver.next ∧
        receiver.sent <+: receiver'.sent := by
    intro kept
    cases (kept.symm.trans found').symm.trans found
    exact ⟨rfl, rfl, List.prefix_refl _⟩
  cases move with
  | @enter choice room =>
      obtain ⟨channel, joined, receivers⟩ := receivers_enter s room
      refine same ?_
      rw [receivers, List.getElem?_append_left (List.getElem?_eq_some_iff.mp found).1]
  | @send choice sender msg =>
      rw [List.getElem?_map, found] at found'
      cases found'
      unfold deliver
      split
      · exact ⟨rfl, rfl, List.prefix_append _ _⟩
      · exact ⟨rfl, rfl, List.prefix_refl _⟩
  | @receive choice room other old msg at_other there =>
      have apart : other ≠ number := by
        rintro rfl
        exact others room rfl
      exact same (List.getElem?_set_ne apart)
  | @dropReceiver choice room other =>
      have apart : other ≠ number := by
        rintro rfl
        exact others room rfl
      exact same (List.getElem?_modify_ne _ _ apart)
  | _ => exact same rfl

theorem yielded_cons (event : RealtimeEvent P) (past : List (RealtimeEvent P)) :
    yielded (event :: past) = yielded past ++ (yieldOf event).toList :=
  reverse_filterMap_cons _ _ _

/-- A task that has not been in a room yet gets nothing out of a stream and reads no entry. -/
theorem fresh_of_move (move : Move hub s footing event s') (fresh : (footing.after event).Fresh) :
    footing.Fresh ∧ yieldOf event = none ∧ readOf event = none := by
  cases move with
  | quiet calm =>
      rw [calm.after] at fresh
      exact ⟨fresh, calm.yieldOf, calm.readOf⟩
  | stamp found => exact ⟨trivial, rfl, rfl⟩
  | send => exact ⟨trivial, rfl, rfl⟩
  | decrement found =>
      rw [Footing.after_decrement] at fresh
      split at fresh
      · exact fresh.elim
      · exact fresh.elim
  | _ => exact fresh.elim

/-- What a task has got out of its stream, against what was sent to its receiver.  Nothing is
skipped if `up` holds. -/
structure Reads (up : Prop) (past : List (RealtimeEvent P)) (receiver : Receiver) : Prop where
  behind : receiver.next ≤ receiver.sent.length
  yields : yielded past <+ receiver.sent.take receiver.next
  all : up → (yielded past).length = receiver.next

variable {up : Prop} {past : List (RealtimeEvent P)} {receiver receiver' : Receiver}

theorem Reads.mono (reads : Reads up past receiver) (next : receiver'.next = receiver.next)
    (sent : receiver.sent <+: receiver'.sent) : Reads up past receiver' := by
  obtain ⟨more, split⟩ := sent
  constructor
  · rw [next, ← split, List.length_append]
    exact Nat.le_add_right_of_le reads.behind
  · rw [next, ← split, List.take_append_of_le_length reads.behind]
    exact reads.yields
  · rw [next]
    exact reads.all

/-- A stream that keeps up yields everything that its receiver is past. -/
theorem Reads.eq_take (reads : Reads up past receiver) (holds : up) :
    yielded past = receiver.sent.take receiver.next := by
  refine reads.yields.eq_of_length ?_
  rw [reads.all holds, List.length_take, Nat.min_eq_left reads.behind]

/-- Something else happens. -/
theorem Reads.skip (reads : Reads up past receiver) {event : RealtimeEvent P}
    (nothing : yieldOf event = none) : Reads up (event :: past) receiver := by
  have same : yielded (event :: past) = yielded past := by
    rw [yielded_cons, nothing]
    exact List.append_nil _
  constructor
  · exact reads.behind
  · rw [same]
    exact reads.yields
  · rw [same]
    exact reads.all

/-- One more message is read. -/
theorem Reads.receive (reads : Reads up past receiver) {position : ℕ} {msg : RealtimeMessage}
    (ahead : receiver.next ≤ position) (keeps : up → position = receiver.next)
    (there : receiver.sent[position]? = some msg) {event : RealtimeEvent P}
    (yields : yieldOf event = some msg) :
    Reads up (event :: past) { receiver with next := position + 1 } := by
  obtain ⟨short, same⟩ := List.getElem?_eq_some_iff.mp there
  constructor
  · exact short
  · show yielded (event :: past) <+ receiver.sent.take (position + 1)
    rw [yielded_cons, yields, List.take_add_one, there]
    refine List.Sublist.append_right ?_ _
    exact reads.yields.trans (List.take_prefix_take_left ahead).sublist
  · intro holds
    rw [yielded_cons, yields, List.length_append, reads.all holds]
    exact congrArg (· + 1) (keeps holds).symm

/-- The acting task goes on reading from its receiver. -/
theorem reads_of_move (move : Move hub s footing event s') {room : RoomId} {number : ℕ}
    (sits : (footing.after event).seat = some (room, number))
    (found' : s'.receivers[number]? = some receiver')
    (begins : footing.Fresh → yielded past = [])
    (goes : ∀ receiver, footing.seat = some (room, number) →
      s.receivers[number]? = some receiver → Reads up past receiver ∧
        (footing = .inside room number → receiver.attached = true))
    (keeps : up → event.op = .recv number → ∀ receiver, s.receivers[number]? = some receiver →
      hub.position receiver = receiver.next) :
    Reads up (event :: past) receiver' ∧
      (footing.after event = .inside room number → receiver'.attached = true) := by
  cases move with
  | quiet calm =>
      rw [calm.after] at sits ⊢
      obtain ⟨reads, attached⟩ := goes receiver' sits found'
      exact ⟨reads.skip calm.yieldOf, attached⟩
  | @enter choice here =>
      cases sits
      obtain ⟨channel, joined, receivers⟩ := receivers_enter s room
      rw [receivers, List.getElem?_concat_length] at found'
      cases found'
      have nothing : yielded (⟨choice, .entry room, s.receivers.length⟩ :: past) = [] := by
        rw [yielded_cons, begins trivial]
        rfl
      refine ⟨⟨Nat.le_refl _, ?_, fun _ => ?_⟩, fun _ => rfl⟩
      · rw [nothing]
        exact List.nil_sublist _
      · rw [nothing]
        rfl
  | @receive choice here other receiver msg found there =>
      cases sits
      rw [List.getElem?_set_self (List.getElem?_eq_some_iff.mp found).1] at found'
      cases found'
      obtain ⟨reads, attached⟩ := goes receiver rfl found
      refine ⟨reads.receive (Nat.le_max_left _ _) (fun holds => keeps holds rfl receiver found)
        there rfl, attached⟩
  | read =>
      cases sits
      obtain ⟨reads, attached⟩ := goes receiver' rfl found'
      exact ⟨reads.skip rfl, attached⟩
  | ended found alone =>
      cases sits
      obtain ⟨reads, attached⟩ := goes receiver' rfl found'
      exact ⟨reads.skip rfl, attached⟩
  | dropReceiver =>
      cases sits
      rw [List.getElem?_modify_eq, Option.map_eq_map, Option.map_eq_some_iff] at found'
      obtain ⟨receiver, found, rfl⟩ := found'
      obtain ⟨reads, -⟩ := goes receiver rfl found
      exact ⟨(reads.skip rfl).mono rfl (List.prefix_refl _), nofun⟩
  | decrement found =>
      rw [Footing.after_decrement] at sits
      split at sits
      · cases sits
      · cases sits
  | _ => cases sits

end Moves

section Runs

variable {P : Type} {hub : InMemoryHub}
  {C : RealtimePool P → Action RealtimeChoice (RealtimeCall P) → Prop} {p : RealtimePool P}

/-- No two tasks are seated at one receiver. -/
theorem seat_unique (reached : (system hub).Reaches C initial p) :
    ∀ (i j : ℕ) (t u : RealtimeTask P) number room room', p.tasks[i]? = some t →
      p.tasks[j]? = some u → (Footing.of t.past).seat = some (room, number) →
      (Footing.of u.past).seat = some (room', number) → i = j := by
  refine invariant_of_moves (Q := fun p => ∀ (i j : ℕ) (t u : RealtimeTask P) number room room',
    p.tasks[i]? = some t → p.tasks[j]? = some u → (Footing.of t.past).seat = some (room, number) →
    (Footing.of u.past).seat = some (room', number) → i = j) reached ?_ ?_ ?_
  · intro i j t u number room room' found
    cases found
  · intro q call all i j t u number room room' at_i at_j sits sits'
    rcases Pool.getElem?_start at_i with old | ⟨-, a, -, rfl⟩
    · rcases Pool.getElem?_start at_j with old' | ⟨-, a, -, rfl⟩
      · exact all i j t u number room room' old old' sits sits'
      · cases sits'
    · cases sits
  · intro q k v event shared rest choice before all _ found _ move i j t u number room room'
      at_i at_j sits sits'
    -- a seat that a task has just taken has a number that no other seat has
    have taken : ∀ {u : RealtimeTask P} {j : ℕ} {room : RoomId}, q.tasks[j]? = some u →
        (Footing.of u.past).seat = some (room, number) → number ≠ q.shared.receivers.length := by
      intro u j room at_j sits
      obtain ⟨receiver, -, at_number, -⟩ := seated before u (List.mem_of_getElem? at_j) _ _ sits
      exact Nat.ne_of_lt (List.getElem?_eq_some_iff.mp at_number).1
    rcases Pool.getElem?_advance found at_i with ⟨rfl, rfl⟩ | ⟨-, old⟩
    · rcases Pool.getElem?_advance found at_j with ⟨rfl, rfl⟩ | ⟨-, old'⟩
      · rfl
      · rcases seat_cases move sits with same | ⟨-, -, fresh, -⟩
        · exact all i j v u number room room' found old' same sits'
        · exact absurd fresh (taken old' sits')
    · rcases Pool.getElem?_advance found at_j with ⟨rfl, rfl⟩ | ⟨-, old'⟩
      · rcases seat_cases move sits' with same | ⟨-, -, fresh, -⟩
        · exact all i j t v number room room' old found sits same
        · exact absurd fresh (taken old sits)
      · exact all i j t u number room room' old old' sits sits'

/-- What a task awaits from a stream. -/
def receiving (program : RealtimeM P RealtimeReturn) : Option ℕ :=
  match program.awaited with
  | some (.recv number) => some number
  | _ => none

/-- The stream that is read next has not fallen behind its channel. -/
def KeepsUp (hub : InMemoryHub) (p : RealtimePool P) :
    Action RealtimeChoice (RealtimeCall P) → Prop
  | .arrive _ => True
  | .step i _ => ∀ t ∈ p.tasks[i]?, ∀ number ∈ receiving t.rest,
      ∀ receiver ∈ p.shared.receivers[number]?, hub.position receiver = receiver.next

instance (p : RealtimePool P) : DecidablePred (KeepsUp hub p)
  | .arrive _ => .isTrue trivial
  | .step i _ => inferInstanceAs (Decidable (∀ t ∈ p.tasks[i]?, ∀ number ∈ receiving t.rest,
      ∀ receiver ∈ p.shared.receivers[number]?, hub.position receiver = receiver.next))

theorem nothing_of_fresh (reached : (system hub).Reaches C initial p) :
    ∀ t ∈ p.tasks, (Footing.of t.past).Fresh → yielded t.past = [] ∧ t.past.filterMap readOf = [] := by
  refine invariant_of_moves (Q := fun p => ∀ t ∈ p.tasks, (Footing.of t.past).Fresh →
    yielded t.past = [] ∧ t.past.filterMap readOf = []) reached ?_ ?_ ?_
  · intro t started
    cases started
  · intro q call all t started fresh
    rcases Pool.mem_start started with old | ⟨a, -, rfl⟩
    · exact all t old fresh
    · exact ⟨rfl, rfl⟩
  · intro q i t event shared rest choice _ all _ found _ move u started fresh
    rcases List.mem_or_eq_of_mem_set started with old | rfl
    · exact all u old fresh
    · obtain ⟨before, silent, unread⟩ := fresh_of_move move fresh
      obtain ⟨nothing, none⟩ := all t (List.mem_of_getElem? found) before
      rw [yielded_cons, silent, nothing, List.filterMap_cons, unread]
      exact ⟨rfl, none⟩

/-- A seated task reads what was sent to its receiver, which is attached until it leaves. -/
theorem reads_of_reaches (up : Prop) (reached : (system hub).Reaches C initial p)
    (keeps : up → ∀ q action, C q action → KeepsUp hub q action) :
    ∀ (i : ℕ) (t : RealtimeTask P) room number receiver, p.tasks[i]? = some t →
      (Footing.of t.past).seat = some (room, number) →
      p.shared.receivers[number]? = some receiver →
      Reads up t.past receiver ∧
        (Footing.of t.past = .inside room number → receiver.attached = true) := by
  refine invariant_of_moves (Q := fun p => ∀ (i : ℕ) (t : RealtimeTask P) room number receiver,
    p.tasks[i]? = some t → (Footing.of t.past).seat = some (room, number) →
      p.shared.receivers[number]? = some receiver → Reads up t.past receiver ∧
        (Footing.of t.past = .inside room number → receiver.attached = true)) reached ?_ ?_ ?_
  · intro i t room number receiver found
    cases found
  · intro q call all i t room number receiver at_i sits found
    rcases Pool.getElem?_start at_i with old | ⟨-, a, -, rfl⟩
    · exact all i t room number receiver old sits found
    · cases sits
  · intro q k v event shared rest choice before all side found awaits move j u room number receiver'
      at_j sits found'
    rcases Pool.getElem?_advance found at_j with ⟨rfl, rfl⟩ | ⟨distinct, old⟩
    · refine reads_of_move move sits found'
        (fun fresh => (nothing_of_fresh before v (List.mem_of_getElem? found) fresh).1)
        (fun receiver same at_number => all j v room number receiver found same at_number) ?_
      intro holds reads receiver at_number
      refine keeps holds _ _ side v found number ?_ receiver at_number
      show receiving v.rest = some number
      rw [receiving, awaits, reads]
    · obtain ⟨receiver, -, at_number, -⟩ := seated before u (List.mem_of_getElem? old) _ _ sits
      have others : ∀ room', (Footing.of v.past).seat ≠ some (room', number) := by
        intro room' same
        exact distinct (seat_unique before j k u v number room room' old found sits same)
      obtain ⟨attached, next, sent⟩ := receiver_of_others move at_number found' others
      obtain ⟨reads, inside⟩ := all j u room number receiver old sits at_number
      exact ⟨reads.mono next sent, fun here => attached.trans (inside here)⟩

end Runs

end InMemoryHub

end Pharos
