import Pharos.Realtime.Handover

/-!
# The order of a stream

A version is assigned under the lock of the room and the message is sent after the lock is released.
When every message is sent before those of a later version, every stream is a run of consecutive
versions; when one is overtaken, the streams of the room have it out of order.
-/

namespace Pharos

open Async

open scoped List

namespace InMemoryHub

section Lists

variable {stamps sends owed : List RealtimeMessage}

/-- A message that is sent before all of a later version continues the run of versions. -/
theorem version_of_least {msg : RealtimeMessage}
    (balanced : sends ++ owed ~ stamps)
    (numbered : stamps.map RealtimeMessage.version = List.range' 1 stamps.length)
    (ordered : sends.map RealtimeMessage.version = List.range' 1 sends.length)
    (due : msg ∈ owed) (least : ∀ other ∈ owed, msg.version ≤ other.version) :
    msg.version = sends.length + 1 := by
  have versions : List.range' 1 sends.length ++ owed.map RealtimeMessage.version ~
      List.range' 1 stamps.length := by
    rw [← ordered, ← numbered, ← List.map_append]
    exact balanced.map _
  have listed : msg.version ∈ owed.map RealtimeMessage.version := List.mem_map_of_mem due
  have bound : 1 ≤ msg.version ∧ msg.version < 1 + stamps.length :=
    List.mem_range'_1.mp (versions.mem_iff.mp (List.mem_append_right _ listed))
  have unsent : msg.version ∉ List.range' 1 sends.length := by
    have apart := List.nodup_append'.mp (versions.nodup_iff.mpr List.nodup_range')
    exact fun sent => apart.2.2 sent listed
  rw [List.mem_range'_1] at unsent
  -- the first version that was not sent is owed by somebody
  have first : sends.length + 1 ∈ List.range' 1 sends.length ++ owed.map RealtimeMessage.version := by
    refine versions.mem_iff.mpr (List.mem_range'_1.mpr ?_)
    omega
  rcases List.mem_append.mp first with sent | waiting
  · have impossible := List.mem_range'_1.mp sent
    omega
  · obtain ⟨other, among, version⟩ := List.mem_map.mp waiting
    have lower := least other among
    omega

end Lists

section Runs

variable {P : Type} {hub : InMemoryHub} {p : RealtimePool P}

/-- What a task is about to send. -/
def sending (program : RealtimeM P RealtimeReturn) : Option (ℕ × RealtimeMessage) :=
  match program.awaited with
  | some (.send sender msg) => some (sender, msg)
  | _ => none

/-- Nothing of an earlier version is still owed on the channel of a message that is sent. -/
def InOrder (p : RealtimePool P) : Action RealtimeChoice (RealtimeCall P) → Prop
  | .arrive _ => True
  | .step i _ => ∀ t ∈ p.tasks[i]?, ∀ next ∈ sending t.rest, ∀ other ∈ owedOn p.tasks next.1,
      next.2.version ≤ other.version

instance (p : RealtimePool P) : DecidablePred (InOrder p)
  | .arrive _ => .isTrue trivial
  | .step i _ => inferInstanceAs (Decidable (∀ t ∈ p.tasks[i]?, ∀ next ∈ sending t.rest,
      ∀ other ∈ owedOn p.tasks next.1, next.2.version ≤ other.version))

variable {C : RealtimePool P → Action RealtimeChoice (RealtimeCall P) → Prop}

/-- Messages are sent in the order of their versions. -/
theorem sends_ordered (reached : (system hub).Reaches C initial p)
    (ordered : ∀ q action, C q action → InOrder q action) (channel : ℕ) :
    (sendsOf p.trace channel).map RealtimeMessage.version =
      List.range' 1 (sendsOf p.trace channel).length := by
  refine invariant_of_moves (Q := fun p => (sendsOf p.trace channel).map RealtimeMessage.version =
    List.range' 1 (sendsOf p.trace channel).length) reached rfl (fun sorted => sorted) ?_
  intro q i t event shared rest choice before sorted side found awaits move
  rw [Pool.advance_trace, sendsOf_concat]
  cases sent : onChannel channel (sendOf event) with
  | none => simpa using sorted
  | some msg =>
      obtain ⟨stamped, sends⟩ := send_of_move move (onChannel_eq_some.mp sent)
      have next : sending t.rest = some (channel, msg) := by
        rw [sending, awaits, sends]
      have due : msg ∈ owedOn q.tasks channel := by
        refine List.mem_filterMap.mpr ⟨t, List.mem_of_getElem? found, ?_⟩
        rw [stamped]
        exact onChannel_eq_some.mpr rfl
      have version := version_of_least (sends_append_owed_perm before channel)
        ((sound_of_reaches before).numbered channel) sorted due
        (ordered _ _ side t found (channel, msg) next)
      rw [Option.toList_some, List.map_append, sorted, List.map_singleton, List.length_append,
        List.length_singleton, List.range'_concat, Nat.one_mul, version, Nat.add_comm 1]

/-- What was sent to a receiver is a run of versions that begins no later than where it joined. -/
theorem sent_ordered (reached : (system hub).Reaches C initial p)
    (ordered : ∀ q action, C q action → InOrder q action) {number : ℕ} {receiver : Receiver}
    (found : p.shared.receivers[number]? = some receiver) :
    ∃ first, receiver.sent.map RealtimeMessage.version =
        List.range' (first + 1) receiver.sent.length ∧ (first < receiver.joined ∨ first = 0) := by
  obtain ⟨before, after, split, early, -⟩ := supplied_of_reaches reached number receiver found
  have sorted := sends_ordered reached ordered receiver.channel
  rw [split, List.map_append, List.map_append, List.length_append, List.length_append,
    ← List.range'_append_1, ← List.range'_append_1] at sorted
  obtain ⟨front, -⟩ := List.append_inj sorted (by simp)
  obtain ⟨missed, sent⟩ := List.append_inj front (by simp)
  refine ⟨before.length, ?_, ?_⟩
  · rw [sent, Nat.add_comm 1]
  · by_cases none : before.length = 0
    · exact .inr none
    · have latest : before.length ∈ before.map RealtimeMessage.version := by
        rw [missed, List.mem_range'_1]
        omega
      obtain ⟨msg, among, version⟩ := List.mem_map.mp latest
      exact .inl (version ▸ early msg among)

/-- The receiver that a task got when it registered. -/
def enterOf : RealtimeEvent P → Option ℕ
  | ⟨_, .entry _, number⟩ => some number
  | _ => none

/-- The receiver of the task, also after it has left. -/
def receiverOf (past : List (RealtimeEvent P)) : Option ℕ := (past.filterMap enterOf).head?

/-- A stream that yields its messages in order: versions increase, and nothing stamped since it was
opened is passed over. -/
structure Orderly (stamps : List RealtimeMessage) (receiver : Receiver)
    (past : List (RealtimeEvent P)) : Prop where
  known : ∀ msg ∈ yielded past, msg ∈ stamps
  increasing : ((yielded past).map RealtimeMessage.version).Pairwise (· < ·)
  complete : ∀ msg ∈ stamps, receiver.joined ≤ msg.version →
    ∀ last ∈ yielded past, msg.version ≤ last.version → msg ∈ yielded past

/-- A seated task that keeps up reads a run of versions. -/
theorem orderly_of_reads (reached : (system hub).Reaches C initial p)
    (ordered : ∀ q action, C q action → InOrder q action) {number : ℕ} {receiver : Receiver}
    {past : List (RealtimeEvent P)} (found : p.shared.receivers[number]? = some receiver)
    (reads : Reads True past receiver) : Orderly (stampsOf p.trace receiver.channel) receiver past := by
  have all := reads.eq_take trivial
  have sound := sound_of_reaches reached
  obtain ⟨first, sent, begins⟩ := sent_ordered reached ordered found
  have run : (yielded past).map RealtimeMessage.version =
      List.range' (first + 1) (yielded past).length := by
    rw [reads.all trivial, all, List.map_take, sent, List.take_range'_of_length_ge reads.behind]
  have known : ∀ msg ∈ yielded past, msg ∈ stampsOf p.trace receiver.channel := by
    intro msg read
    exact sent_subset_stamps reached found (List.mem_of_mem_take (reads.yields.subset read))
  refine ⟨known, ?_, ?_⟩
  · rw [run]
    exact List.pairwise_lt_range'
  · intro msg stamped joined last read bound
    have upper : last.version ∈ List.range' (first + 1) (yielded past).length := by
      rw [← run]
      exact List.mem_map_of_mem read
    have lower := (sound.version_le stamped).1
    have listed : msg.version ∈ (yielded past).map RealtimeMessage.version := by
      rw [run, List.mem_range'_1]
      rw [List.mem_range'_1] at upper
      omega
    obtain ⟨other, read', same⟩ := List.mem_map.mp listed
    have equal := eq_of_version (sound.numbered _) (known other read') stamped same
    rw [← equal]
    exact read'

/-- A stream that yields nothing new stays in order as more is stamped. -/
theorem Orderly.mono {stamps stamps' : List RealtimeMessage} {receiver receiver' : Receiver}
    {past past' : List (RealtimeEvent P)} (orderly : Orderly stamps receiver past)
    (more : stamps <+: stamps')
    (numbered : stamps'.map RealtimeMessage.version = List.range' 1 stamps'.length)
    (joined : receiver'.joined = receiver.joined) (same : yielded past' = yielded past) :
    Orderly stamps' receiver' past' := by
  refine ⟨?_, ?_, ?_⟩
  · rw [same]
    exact fun msg read => more.subset (orderly.known msg read)
  · rw [same]
    exact orderly.increasing
  · rw [same, joined]
    intro msg stamped later last read bound
    by_cases old : msg ∈ stamps
    · exact orderly.complete msg old later last read bound
    · -- a message stamped later has a higher version than everything yielded
      obtain ⟨added, rfl⟩ := more
      obtain ⟨i, at_i⟩ := List.mem_iff_getElem?.mp (orderly.known last read)
      obtain ⟨j, at_j⟩ := List.mem_iff_getElem?.mp stamped
      have short := (List.getElem?_eq_some_iff.mp at_i).1
      have earlier := version_of_getElem? numbered ((List.getElem?_append_left short).trans at_i)
      have version := version_of_getElem? numbered at_j
      have beyond : stamps.length ≤ j := by
        by_contra less
        rw [List.getElem?_append_left (Nat.lt_of_not_le less)] at at_j
        exact old (List.mem_of_getElem? at_j)
      omega

/-- A task that has got a receiver or a message is in a room. -/
theorem seat_of_move {s s' : HubShared} {footing : Footing} {event : RealtimeEvent P}
    (move : Move hub s footing event s') (acts : yieldOf event ≠ none ∨ enterOf event ≠ none) :
    ∃ room number, (footing.after event).seat = some (room, number) := by
  cases move with
  | quiet calm =>
      rcases acts with yields | enters
      · exact absurd calm.yieldOf yields
      · obtain ⟨choice, op, reply⟩ := event
        cases op with
        | entry room => exact calm.elim
        | _ => exact absurd rfl enters
  | @enter choice room => exact ⟨room, s.receivers.length, rfl⟩
  | @receive choice room number receiver msg found there => exact ⟨room, number, rfl⟩
  | _ =>
      rcases acts with yields | enters
      · exact absurd rfl yields
      · exact absurd rfl enters

theorem seat_of_after {footing : Footing} {event : RealtimeEvent P} {seat : RoomId × ℕ}
    (sits : (footing.after event).seat = some seat) (stays : enterOf event = none) :
    footing.seat = some seat := by
  obtain ⟨choice, op, reply⟩ := event
  cases op with
  | entry room => cases stays
  | stampAndRetain msg =>
      cases reply with
      | none => exact sits
      | some stamped => cases sits
  | send sender msg => cases sits
  | dropReceiver number =>
      cases footing with
      | inside room other => exact sits
      | _ => exact sits
  | decrement room =>
      cases reply with
      | true =>
          cases footing with
          | leaving here number => cases sits
          | _ => exact sits
      | false =>
          cases footing with
          | leaving here number => cases sits
          | _ => exact sits
  | removeIf room =>
      cases footing with
      | emptied here => cases sits
      | _ => exact sits
  | _ => exact sits

/-- A seated task has the receiver it got when it registered. -/
theorem receiverOf_of_seat {past : List (RealtimeEvent P)} {room : RoomId} {number : ℕ}
    (sits : (Footing.of past).seat = some (room, number)) : receiverOf past = some number := by
  induction past with
  | nil => cases sits
  | cons event past ih =>
      rw [receiverOf, List.filterMap_cons]
      cases enters : enterOf event with
      | none => exact ih (seat_of_after sits enters)
      | some other =>
          obtain ⟨choice, op, reply⟩ := event
          cases op with
          | entry here =>
              cases sits
              exact enters.symm
          | _ => cases enters

theorem orderly_of_reaches (reached : (system hub).Reaches C initial p)
    (ordered : ∀ q action, C q action → InOrder q action)
    (keeps : ∀ q action, C q action → KeepsUp hub q action) :
    ∀ (i : ℕ) (t : RealtimeTask P) number, p.tasks[i]? = some t →
      receiverOf t.past = some number → ∃ receiver, p.shared.receivers[number]? = some receiver ∧
      Orderly (stampsOf p.trace receiver.channel) receiver t.past := by
  refine reached.invariant (P := fun p => ∀ (i : ℕ) (t : RealtimeTask P) number,
    p.tasks[i]? = some t → receiverOf t.past = some number →
      ∃ receiver, p.shared.receivers[number]? = some receiver ∧
      Orderly (stampsOf p.trace receiver.channel) receiver t.past) ?_ ?_
  · intro i t number found
    cases found
  · intro q r action before all side stepped
    have next : (system hub).Reaches C initial r := before.tail ⟨action, side, stepped⟩
    obtain ⟨call, shared, args, rfl, arrived, rfl⟩ |
      ⟨k, choice, v, op, rest, shared, reply, rfl, found, awaits, served, rfl⟩ :=
      System.step_cases stepped
    · cases arrived
      intro i t number at_i registered
      rcases Pool.getElem?_start at_i with old | ⟨-, a, -, rfl⟩
      · exact all i t number old registered
      · cases registered
    · have move := move_of_reaches before found awaits served
      intro j u number at_j registered
      -- a stream that yields nothing in this step stays in order
      have stays : ∀ {u : RealtimeTask P} {j : ℕ} {past : List (RealtimeEvent P)},
          q.tasks[j]? = some u → receiverOf u.past = some number → yielded past = yielded u.past →
          ∃ receiver, shared.receivers[number]? = some receiver ∧
            Orderly (stampsOf (q.advance k v ⟨choice, op, reply⟩ shared (rest reply)).trace
              receiver.channel) receiver past := by
        intro u j past at_j registered same
        obtain ⟨receiver, at_number, orderly⟩ := all j u number at_j registered
        obtain ⟨receiver', found', kept⟩ := receiver_of_move move at_number
        refine ⟨receiver', found', orderly.mono ?_ ?_ kept.2.2 same⟩
        · rw [kept.2.1, Pool.advance_trace, stampsOf_concat]
          exact List.prefix_append _ _
        · exact (sound_of_reaches next).numbered _
      rcases Pool.getElem?_advance found at_j with ⟨rfl, rfl⟩ | ⟨-, old⟩
      · by_cases acts : yieldOf (⟨choice, op, reply⟩ : RealtimeEvent P) ≠ none ∨
            enterOf (⟨choice, op, reply⟩ : RealtimeEvent P) ≠ none
        · obtain ⟨room, number', seat⟩ := seat_of_move move acts
          have sits : (Footing.of (⟨choice, op, reply⟩ :: v.past)).seat = some (room, number') := seat
          cases (receiverOf_of_seat sits).symm.trans registered
          obtain ⟨receiver, -, at_number, -⟩ :=
            seated next _ (List.mem_of_getElem? at_j) room number sits
          obtain ⟨reads, -⟩ := reads_of_reaches True next (fun _ => keeps) j _ room number receiver
            at_j sits at_number
          exact ⟨receiver, at_number, orderly_of_reads next ordered at_number reads⟩
        · obtain ⟨silent, stays'⟩ := not_or.mp acts
          refine stays found ?_ ?_
          · rw [receiverOf, List.filterMap_cons, not_not.mp stays'] at registered
            exact registered
          · rw [yielded_cons, not_not.mp silent]
            exact List.append_nil _
      · exact stays old registered rfl

/-- In a run in which no message overtakes another one of its channel, every stream yields strictly
increasing versions, and it has passed over nothing that was stamped since it was opened when a
client resumes after the last message it got. -/
theorem ordered_streams
    (reached : (system hub).Reaches (fun q action => InOrder q action ∧ KeepsUp hub q action)
      initial p) {i : ℕ} {t : RealtimeTask P} {number : ℕ} (at_i : p.tasks[i]? = some t)
    (registered : receiverOf t.past = some number) :
    ∃ receiver, p.shared.receivers[number]? = some receiver ∧
      ((yielded t.past).map RealtimeMessage.version).Pairwise (· < ·) ∧
      ∀ msg ∈ stampsOf p.trace receiver.channel, receiver.joined ≤ msg.version →
        ∀ last ∈ yielded t.past, msg.version ≤ last.version → msg ∈ yielded t.past := by
  obtain ⟨receiver, found, orderly⟩ := orderly_of_reaches reached (fun _ _ side => side.1)
    (fun _ _ side => side.2) i t number at_i registered
  exact ⟨receiver, found, orderly.increasing, orderly.complete⟩

end Runs

/-- Two moves are published one after the other, to a player who listens. -/
def inOrderRun : List (Action RealtimeChoice (RealtimeCall Unit)) :=
  [.arrive (.subscribe game 2), .arrive (.publish (moveMade 1)), .arrive (.publish (moveMade 2)),
    .step 0 {}, .step 0 {}, .step 0 {}, .step 1 {}, .step 2 {}, .step 1 {}, .step 2 {},
    .step 0 {}, .step 0 {}]

theorem ordered_streams_inOrder :
    ∃ (p : RealtimePool Unit) (t : RealtimeTask Unit) (receiver : Receiver),
      (system {}).Reaches (fun q action => InOrder q action ∧ KeepsUp {} q action) initial p ∧
      p.tasks[0]? = some t ∧ yielded t.past = [moveMade 1 1, moveMade 2 2] ∧
      p.shared.receivers[0]? = some receiver ∧
      ((yielded t.past).map RealtimeMessage.version).Pairwise (· < ·) := by
  have run : ((system {}).exec initial inOrderRun).any (fun p : RealtimePool Unit =>
      (p.tasks[0]?).any fun t => decide (yielded t.past = [moveMade 1 1, moveMade 2 2] ∧
        receiverOf t.past = some 0)) = true := by
    decide +kernel
  obtain ⟨p, reached, facts⟩ := System.exists_reaches_of_exec
    (C := fun q action => InOrder q action ∧ KeepsUp {} q action) (by decide +kernel) run
  obtain ⟨t, at_zero, facts⟩ := (Option.any_eq_true _ _).mp facts
  obtain ⟨yields, registered⟩ := of_decide_eq_true facts
  obtain ⟨receiver, found, increasing, -⟩ := ordered_streams reached at_zero registered
  exact ⟨p, t, receiver, reached, at_zero, yields, found, increasing⟩

/-- The second move is sent before the first one. -/
def overtakenRun : List (Action RealtimeChoice (RealtimeCall Unit)) :=
  [.arrive (.subscribe game 2), .arrive (.publish (moveMade 1)), .arrive (.publish (moveMade 2)),
    .step 0 {}, .step 0 {}, .step 0 {}, .step 1 {}, .step 2 {}, .step 2 {}, .step 0 {},
    .step 1 {}, .step 0 {}]

/-- The player gets the second move first; having got it, it would resume after the first one. -/
theorem move_overtaken :
    (∃ (p : RealtimePool Unit) (t : RealtimeTask Unit), (system {}).Reaches System.Any initial p ∧
      p.tasks[0]? = some t ∧ yielded t.past = [moveMade 2 2, moveMade 1 1] ∧
      ¬ ((yielded t.past).map RealtimeMessage.version).Pairwise (· < ·)) ∧
    ∃ (p : RealtimePool Unit) (t : RealtimeTask Unit) (receiver : Receiver),
      (system {}).Reaches System.Any initial p ∧ p.tasks[0]? = some t ∧
      receiverOf t.past = some 0 ∧ p.shared.receivers[0]? = some receiver ∧
      moveMade 1 1 ∈ stampsOf p.trace receiver.channel ∧ receiver.joined = 1 ∧
      yielded t.past = [moveMade 2 2] := by
  have run : ((system {}).exec initial overtakenRun).any (fun p : RealtimePool Unit =>
      (p.tasks[0]?).any fun t => decide (yielded t.past = [moveMade 2 2, moveMade 1 1])) = true := by
    decide +kernel
  have cut : ((system {}).exec initial (overtakenRun.take 10)).any (fun p : RealtimePool Unit =>
      (p.tasks[0]?).any fun t => (p.shared.receivers[0]?).any fun receiver =>
        decide (receiverOf t.past = some 0 ∧
          moveMade 1 1 ∈ stampsOf p.trace receiver.channel ∧ receiver.joined = 1 ∧
          yielded t.past = [moveMade 2 2])) = true := by
    decide +kernel
  constructor
  · obtain ⟨p, reached, swapped⟩ := System.exists_reaches_of_exec (System.along_any _ _ _) run
    obtain ⟨t, at_zero, swapped⟩ := (Option.any_eq_true _ _).mp swapped
    have yields := of_decide_eq_true swapped
    refine ⟨p, t, reached, at_zero, yields, ?_⟩
    rw [yields]
    decide
  · obtain ⟨p, reached, passed⟩ := System.exists_reaches_of_exec (System.along_any _ _ _) cut
    obtain ⟨t, at_zero, passed⟩ := (Option.any_eq_true _ _).mp passed
    obtain ⟨receiver, found, passed⟩ := (Option.any_eq_true _ _).mp passed
    obtain ⟨registered, stamped, joined, yields⟩ := of_decide_eq_true passed
    exact ⟨p, t, receiver, reached, at_zero, registered, found, stamped, joined, yields⟩

end InMemoryHub

end Pharos
