import Pharos.Realtime.Handover

/-!
# Resuming across incarnations

Versions start at 1 again when a room is collected and created anew, so the version a client saw
last means nothing to a later incarnation.  `subscribe_since` asks whether the room exists before it
registers, but not whether it is the room that the client knew.  As long as it is, or nothing was
published in between, a replay and the live stream together have everything the client missed.
-/

namespace Pharos

open Async

/-- What a resuming client remembers: the version it saw last, and the channel it came from. -/
def RealtimeCall.memory {P : Type} : RealtimeCall P → Option (UInt64 × ℕ)
  | .resume _ (some since) last _ => some (since, last)
  | _ => none

namespace InMemoryHub

/-- A message of a channel was published after a version of the channel `last`. -/
def After (last : ℕ) (since : UInt64) (channel : ℕ) (msg : RealtimeMessage) : Prop :=
  channel = last ∧ since.toNat < msg.version ∨ last < channel

instance (last : ℕ) (since : UInt64) (channel : ℕ) (msg : RealtimeMessage) :
    Decidable (After last since channel msg) :=
  inferInstanceAs (Decidable (channel = last ∧ since.toNat < msg.version ∨ last < channel))

section Moves

variable {P : Type} {hub : InMemoryHub} {s s' : HubShared} {footing : Footing}
  {event : RealtimeEvent P}

/-- A tracked room keeps its sender, or has got a new one. -/
theorem entry_cases (move : Move hub s footing event s') {room : RoomId} {entry' : RoomEntry}
    (found' : s'.rooms.get room = some entry') :
    (∃ entry, s.rooms.get room = some entry ∧ entry'.sender = entry.sender) ∨
      entry'.sender = s.channels := by
  cases move with
  | @enter choice here =>
      unfold enter at found'
      split at found'
      · next old there =>
        rcases DashMap.get_put_cases found' with ⟨rfl, rfl⟩ | ⟨-, found⟩
        · exact .inl ⟨old, there, rfl⟩
        · exact .inl ⟨entry', found, rfl⟩
      · rcases DashMap.get_put_cases found' with ⟨rfl, rfl⟩ | ⟨-, found⟩
        · exact .inr rfl
        · exact .inl ⟨entry', found, rfl⟩
  | @stamp choice msg old there =>
      rcases DashMap.get_put_cases found' with ⟨rfl, rfl⟩ | ⟨-, found⟩
      · exact .inl ⟨old, there, stampAndRetain_sender⟩
      · exact .inl ⟨entry', found, rfl⟩
  | @decrement choice here number old there =>
      rcases DashMap.get_put_cases found' with ⟨rfl, rfl⟩ | ⟨-, found⟩
      · exact .inl ⟨old, there, rfl⟩
      · exact .inl ⟨entry', found, rfl⟩
  | @remove choice here old there empty =>
      rw [DashMap.get_remove] at found'
      split at found'
      · cases found'
      · exact .inl ⟨entry', found', rfl⟩
  | _ => exact .inl ⟨entry', found', rfl⟩

/-- A message is stamped with the next version of the room it is for, for the sender of the room. -/
theorem stamp_of_move (move : Move hub s footing event s') {channel : ℕ} {msg : RealtimeMessage}
    (stamped : stampOf event = some (channel, msg)) :
    ∃ entry, s.rooms.get msg.room = some entry ∧ channel = entry.sender ∧
      msg.version = entry.nextVersion := by
  cases move with
  | quiet calm => cases calm.stampOf.symm.trans stamped
  | @stamp choice old entry found =>
      cases stamped
      rw [stampAndRetain_stamped]
      exact ⟨entry, found, rfl, rfl⟩
  | _ => cases stamped

end Moves

section Runs

variable {P : Type} {hub : InMemoryHub}
  {C : RealtimePool P → Action RealtimeChoice (RealtimeCall P) → Prop} {p : RealtimePool P}

theorem mem_stampsOf_concat {trace : List (RealtimeEntry P)} {entry : RealtimeEntry P} {channel : ℕ}
    {msg : RealtimeMessage} (stamped : msg ∈ stampsOf (trace ++ [entry]) channel) :
    msg ∈ stampsOf trace channel ∨ stampOf entry.event = some (channel, msg) := by
  rw [stampsOf_concat] at stamped
  rcases List.mem_append.mp stamped with old | new
  · exact .inl old
  · exact .inr (onChannel_eq_some.mp (Option.mem_toList.mp new))

/-- What was published to a tracked room was published to its sender or to an earlier one. -/
theorem le_sender_of_stamped (reached : (system hub).Reaches C initial p) :
    ∀ room entry channel msg, p.shared.rooms.get room = some entry →
      msg ∈ stampsOf p.trace channel → msg.room = room → channel ≤ entry.sender := by
  refine invariant_of_moves (Q := fun p => ∀ room entry channel msg,
    p.shared.rooms.get room = some entry → msg ∈ stampsOf p.trace channel → msg.room = room →
      channel ≤ entry.sender) reached ?_ ?_ ?_
  · intro room entry channel msg found
    cases found
  · intro q call all
    exact all
  · intro q i t event shared rest choice before all _ _ _ move room entry' channel msg found'
      stamped here
    have sound := sound_of_reaches before
    have bound : channel < q.shared.channels ∧
        (∀ entry, q.shared.rooms.get room = some entry → channel ≤ entry.sender) := by
      rw [Pool.advance_trace] at stamped
      rcases mem_stampsOf_concat stamped with old | new
      · refine ⟨Nat.lt_of_not_le fun beyond => ?_, fun entry found => all _ _ _ _ found old here⟩
        rw [sound.fresh channel beyond] at old
        cases old
      · obtain ⟨entry, found, rfl, -⟩ := stamp_of_move move new
        refine ⟨sound.below _ entry found, fun entry' found' => ?_⟩
        rw [here] at found
        cases found.symm.trans found'
        exact Nat.le_refl _
    rcases entry_cases move found' with ⟨entry, found, same⟩ | fresh
    · rw [same]
      exact bound.2 entry found
    · rw [fresh]
      exact Nat.le_of_lt bound.1

/-- The room that a task is about to register in. -/
def entering (program : RealtimeM P RealtimeReturn) : Option RoomId :=
  match program.awaited with
  | some (.entry room) => some room
  | _ => none

/-- Nothing was published to the room after a version of the channel `last`. -/
def Silent (p : RealtimePool P) (room : RoomId) (last : ℕ) (since : UInt64) : Prop :=
  ∀ channel < p.shared.channels, ∀ msg ∈ stampsOf p.trace channel, msg.room = room →
    ¬ After last since channel msg

instance (p : RealtimePool P) (room : RoomId) (last : ℕ) (since : UInt64) :
    Decidable (Silent p room last since) :=
  inferInstanceAs (Decidable (∀ channel < p.shared.channels, ∀ msg ∈ stampsOf p.trace channel,
    msg.room = room → ¬ After last since channel msg))

/-- A client whose check has not missed the room registers in the incarnation it knows, or nothing
was published since it left. -/
def Returns (p : RealtimePool P) : Action RealtimeChoice (RealtimeCall P) → Prop
  | .arrive _ => True
  | .step i _ => ∀ t ∈ p.tasks[i]?, ∀ room ∈ entering t.rest, ∀ memory ∈ t.args.memory,
      existed t.past ≠ some false →
        (p.shared.rooms.get room).map RoomEntry.sender = some memory.2 ∨
          Silent p room memory.2 memory.1

instance (p : RealtimePool P) : DecidablePred (Returns p)
  | .arrive _ => .isTrue trivial
  | .step i _ => inferInstanceAs (Decidable (∀ t ∈ p.tasks[i]?, ∀ room ∈ entering t.rest,
      ∀ memory ∈ t.args.memory, existed t.past ≠ some false →
        (p.shared.rooms.get room).map RoomEntry.sender = some memory.2 ∨
          Silent p room memory.2 memory.1))

/-- What was published after the client left went to the channel of its new receiver, which is the
one it knows or has been there for all of it. -/
def Rejoined (p : RealtimePool P) (room : RoomId) (last : ℕ) (since : UInt64) (receiver : Receiver) :
    Prop :=
  ∀ channel, ∀ msg ∈ stampsOf p.trace channel, msg.room = room → After last since channel msg →
    channel = receiver.channel ∧ (receiver.channel = last ∨ receiver.joined ≤ msg.version)

/-- A client that registers as it should has missed nothing of another incarnation. -/
theorem rejoined_enter (reached : (system hub).Reaches C initial p) {room : RoomId} {last : ℕ}
    {since : UInt64} {receiver : Receiver}
    (found : (enter p.shared room).receivers[p.shared.receivers.length]? = some receiver)
    (returns : (p.shared.rooms.get room).map RoomEntry.sender = some last ∨
      Silent p room last since) : Rejoined p room last since receiver := by
  intro channel msg stamped here after
  have sound := sound_of_reaches reached
  have less : channel < p.shared.channels := by
    refine Nat.lt_of_not_le fun beyond => ?_
    rw [sound.fresh channel beyond] at stamped
    cases stamped
  rcases returns with known | silent
  · obtain ⟨entry, tracked, rfl⟩ := Option.map_eq_some_iff.mp known
    have attached : receiver.channel = entry.sender := by
      rw [enter, tracked] at found
      cases List.getElem?_concat_length.symm.trans found
      rfl
    have bound := le_sender_of_stamped reached room entry channel msg tracked stamped here
    refine ⟨?_, .inl attached⟩
    rw [attached]
    rcases after with ⟨same, -⟩ | later
    · exact same
    · omega
  · exact absurd after (silent channel less msg stamped here)

theorem rejoined_of_reaches (reached : (system hub).Reaches Returns initial p) :
    ∀ (i : ℕ) (t : RealtimeTask P) room number receiver since last, p.tasks[i]? = some t →
      (Footing.of t.past).seat = some (room, number) →
      p.shared.receivers[number]? = some receiver → existed t.past ≠ some false →
      t.args.memory = some (since, last) → Rejoined p room last since receiver := by
  refine invariant_of_moves (Q := fun p => ∀ (i : ℕ) (t : RealtimeTask P) room number receiver since
    last, p.tasks[i]? = some t → (Footing.of t.past).seat = some (room, number) →
      p.shared.receivers[number]? = some receiver → existed t.past ≠ some false →
      t.args.memory = some (since, last) → Rejoined p room last since receiver) reached ?_ ?_ ?_
  · intro i t room number receiver since last found
    cases found
  · intro q call all i t room number receiver since last at_i sits
    rcases Pool.getElem?_start at_i with old | ⟨-, a, -, rfl⟩
    · exact all i t room number receiver since last old sits
    · cases sits
  · intro q k v event shared rest choice before all side found awaits move j u room number receiver'
      since last at_j sits found' unknown memory
    -- a new message goes to the sender of its room, where every seated receiver listens
    have stays : ∀ {u : RealtimeTask P} {j : ℕ}, q.tasks[j]? = some u →
        (Footing.of u.past).seat = some (room, number) → existed u.past ≠ some false →
        u.args.memory = some (since, last) →
        Rejoined (q.advance k v event shared rest) room last since receiver' := by
      intro u j at_j sits unknown memory channel msg stamped here after
      obtain ⟨receiver, entry, at_number, tracked, -, attached, joined⟩ :=
        seated before u (List.mem_of_getElem? at_j) _ _ sits
      obtain ⟨receiver'', found'', same⟩ := receiver_of_move move at_number
      cases found''.symm.trans found'
      rw [same.2.1, same.2.2]
      rw [Pool.advance_trace] at stamped
      rcases mem_stampsOf_concat stamped with old | new
      · exact all j u room number receiver since last at_j sits at_number unknown memory channel
          msg old here after
      · obtain ⟨entry', tracked', rfl, version⟩ := stamp_of_move move new
        rw [here] at tracked'
        cases tracked.symm.trans tracked'
        exact ⟨attached.symm, .inr (version ▸ joined)⟩
    rcases Pool.getElem?_advance found at_j with ⟨rfl, rfl⟩ | ⟨-, old⟩
    · have unknown' : existed v.past ≠ some false := fun missed => unknown (existed_cons missed _)
      rcases seat_cases move sits with same | ⟨-, enters, rfl, rfl⟩
      · exact stays found same unknown' memory
      · have registers : entering v.rest = some room := by
          rw [entering, awaits, enters]
        have unstamped : stampOf event = none := by
          obtain ⟨choice, op, reply⟩ := event
          cases enters
          rfl
        have rejoined := rejoined_enter before found'
          (side v found room registers (since, last) memory unknown')
        intro channel msg stamped
        rw [Pool.advance_trace] at stamped
        rcases mem_stampsOf_concat stamped with old | new
        · exact rejoined channel msg old
        · cases unstamped.symm.trans new
    · exact stays old sits unknown memory

/-- A message of a channel is in the replay, was sent to the receiver, or is about to be. -/
def Covered (p : RealtimePool P) (missed : List RealtimeMessage) (receiver : Receiver) (channel : ℕ)
    (msg : RealtimeMessage) : Prop :=
  channel = receiver.channel ∧
    (msg ∈ missed ∨ msg ∈ receiver.sent ∨ msg ∈ owedOn p.tasks receiver.channel)

instance (p : RealtimePool P) (missed : List RealtimeMessage) (receiver : Receiver) (channel : ℕ)
    (msg : RealtimeMessage) : Decidable (Covered p missed receiver channel msg) :=
  inferInstanceAs (Decidable (channel = receiver.channel ∧
    (msg ∈ missed ∨ msg ∈ receiver.sent ∨ msg ∈ owedOn p.tasks receiver.channel)))

/-- The replay and the live stream have everything that was published to the room after what the
client saw last. -/
def Continues (p : RealtimePool P) (room : RoomId) (last : ℕ) (since : UInt64)
    (missed : List RealtimeMessage) (receiver : Receiver) : Prop :=
  ∀ channel < p.shared.channels, ∀ msg ∈ stampsOf p.trace channel, msg.room = room →
    After last since channel msg → Covered p missed receiver channel msg

instance (p : RealtimePool P) (room : RoomId) (last : ℕ) (since : UInt64)
    (missed : List RealtimeMessage) (receiver : Receiver) :
    Decidable (Continues p room last since missed receiver) :=
  inferInstanceAs (Decidable (∀ channel < p.shared.channels, ∀ msg ∈ stampsOf p.trace channel,
    msg.room = room → After last since channel msg → Covered p missed receiver channel msg))

/-- In a run in which every client that resumes returns to the incarnation it knows, or has missed
nothing, a replay means continuity. -/
theorem continues_of_returns (reached : (system hub).Reaches Returns initial p) {i : ℕ}
    {t : RealtimeTask P} {room : RoomId} {number : ℕ} {receiver : Receiver} {since : UInt64}
    {last : ℕ} {missed : List RealtimeMessage} (at_i : p.tasks[i]? = some t)
    (memory : t.args.memory = some (since, last))
    (inside : Footing.of t.past = .inside room number)
    (found : p.shared.receivers[number]? = some receiver)
    (opened : Opened t.past since missed number) : Continues p room last since missed receiver := by
  intro channel less msg stamped here after
  obtain ⟨-, known, -⟩ := answers_of_opened reached (List.mem_of_getElem? at_i) opened
  have sits : (Footing.of t.past).seat = some (room, number) := by
    rw [inside]
    rfl
  have unknown : existed t.past ≠ some false := by
    rw [known]
    exact nofun
  obtain ⟨rfl, cases⟩ := rejoined_of_reaches reached i t room number receiver since last at_i sits
    found unknown memory channel msg stamped here after
  refine ⟨rfl, ?_⟩
  rcases cases with same | joined
  · have later : since.toNat < msg.version := by
      rcases after with ⟨-, later⟩ | later
      · exact later
      · omega
    exact missed_or_sent reached at_i inside found opened stamped later
  · have attached := (reads_of_reaches False reached nofun i t room number receiver at_i sits
      found).2 inside
    exact .inr (sent_or_owed reached found attached stamped joined)

end Runs

theorem continues_resumed :
    ∃ (p : RealtimePool Unit) (receiver : Receiver), (system {}).Reaches Returns initial p ∧
      p.shared.receivers[1]? = some receiver ∧
      Continues p game 0 1 [moveMade 2 2] receiver := by
  have run : ((system {}).exec initial resumedRun).any (fun p : RealtimePool Unit =>
      (p.tasks[3]?).any fun t => (p.shared.receivers[1]?).any fun _ =>
        decide (t.args.memory = some (1, 0) ∧ Footing.of t.past = .inside game 1 ∧
          Opened t.past 1 [moveMade 2 2] 1)) = true := by
    decide +kernel
  obtain ⟨p, reached, facts⟩ := System.exists_reaches_of_exec (C := Returns) (by decide +kernel) run
  obtain ⟨t, at_three, facts⟩ := (Option.any_eq_true _ _).mp facts
  obtain ⟨receiver, found, facts⟩ := (Option.any_eq_true _ _).mp facts
  obtain ⟨memory, inside, opened⟩ := of_decide_eq_true facts
  exact ⟨p, receiver, reached, found,
    continues_of_returns reached at_three memory inside found opened⟩

/-- A player sees the first move and leaves, and the game is collected; others open it again and
make two moves; the player comes back. -/
def reopenedRun : List (Action RealtimeChoice (RealtimeCall Unit)) :=
  [.arrive (.subscribe game 1), .arrive (.publish (moveMade 1)),
    .step 0 {}, .step 0 {}, .step 0 {}, .step 1 {}, .step 1 {},
    .step 0 {}, .step 0 {}, .step 0 {}, .step 0 {},
    .arrive (.subscribe game 0), .arrive (.publish (moveMade 2)), .arrive (.publish (moveMade 3)),
    .arrive (.resume game (some 1) 0 0),
    .step 2 {}, .step 2 {}, .step 2 {}, .step 3 {}, .step 3 {}, .step 4 {}, .step 4 {},
    .step 5 {}, .step 5 {}, .step 5 {}, .step 5 {}, .step 5 {}]

/-- The player is told that the last move is all it has missed, and never gets the one before. -/
theorem move_lost :
    ∃ (p : RealtimePool Unit) (receiver : Receiver), (system {}).Reaches System.Any initial p ∧
      (p.tasks[0]?).map (fun t => yielded t.past) = some [moveMade 1 1] ∧
      stampsOf p.trace 0 = [moveMade 1 1] ∧ stampsOf p.trace 1 = [moveMade 2 1, moveMade 3 2] ∧
      (p.tasks[5]?).map (fun t => (Footing.of t.past, t.past.filterMap openOf)) =
        some (.inside game 2, [(some 1, .replayed [moveMade 3 2], 2)]) ∧
      p.shared.receivers[2]? = some receiver ∧
      ¬ Continues p game 0 1 [moveMade 3 2] receiver := by
  have run : ((system {}).exec initial reopenedRun).any (fun p : RealtimePool Unit => decide (
      (p.tasks[0]?).map (fun t => yielded t.past) = some [moveMade 1 1] ∧
      stampsOf p.trace 0 = [moveMade 1 1] ∧ stampsOf p.trace 1 = [moveMade 2 1, moveMade 3 2] ∧
      (p.tasks[5]?).map (fun t => (Footing.of t.past, t.past.filterMap openOf)) =
        some (.inside game 2, [(some 1, .replayed [moveMade 3 2], 2)]) ∧
      (p.shared.receivers[2]?).any fun receiver =>
        ¬ Continues p game 0 1 [moveMade 3 2] receiver)) = true := by
    decide +kernel
  obtain ⟨p, reached, facts⟩ := System.exists_reaches_of_exec (System.along_any _ _ _) run
  obtain ⟨seen, first, second, answered, lost⟩ := of_decide_eq_true facts
  obtain ⟨receiver, found, lost⟩ := (Option.any_eq_true _ _).mp lost
  exact ⟨p, receiver, reached, seen, first, second, answered, found, of_decide_eq_true lost⟩

end InMemoryHub

end Pharos
