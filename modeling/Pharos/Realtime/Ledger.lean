import Pharos.Realtime.Rooms

/-!
# What was stamped and what was sent

Everything stamped for a channel is sent once or still owed by the task that stamped it, and the
versions of a channel are 1, 2, 3 and so on in the order of the stamps.  The entry of a room keeps
the latest of them, and an attached receiver has been sent all that was stamped since it joined and
is not owed any more.
-/

namespace Pharos

open Async

open scoped List

/-- The message that the footing owes, with its channel. -/
def Footing.owes : Footing → Option (ℕ × RealtimeMessage)
  | .stamped sender msg => some (sender, msg)
  | _ => none

namespace InMemoryHub

/-- A message, if it is for the channel. -/
def onChannel (channel : ℕ) : Option (ℕ × RealtimeMessage) → Option RealtimeMessage
  | some (sender, msg) => if sender = channel then some msg else none
  | none => none

theorem onChannel_eq_some {channel : ℕ} {found : Option (ℕ × RealtimeMessage)}
    {msg : RealtimeMessage} : onChannel channel found = some msg ↔ found = some (channel, msg) := by
  cases found with
  | none => exact ⟨nofun, nofun⟩
  | some other =>
      obtain ⟨sender, other⟩ := other
      rw [onChannel]
      split
      · next same => rw [same, Option.some.injEq, Option.some.injEq, Prod.mk.injEq, and_iff_right rfl]
      · next distinct =>
        refine ⟨nofun, fun same => ?_⟩
        cases same
        exact absurd rfl distinct

section Accounts

variable {P : Type}

/-- What was stamped for a channel, in order. -/
def stampsOf (trace : List (RealtimeEntry P)) (channel : ℕ) : List RealtimeMessage :=
  trace.filterMap fun entry => onChannel channel (stampOf entry.event)

/-- What was sent on a channel, in order. -/
def sendsOf (trace : List (RealtimeEntry P)) (channel : ℕ) : List RealtimeMessage :=
  trace.filterMap fun entry => onChannel channel (sendOf entry.event)

/-- What is stamped for a channel and not sent yet. -/
def owedOn (tasks : List (RealtimeTask P)) (channel : ℕ) : List RealtimeMessage :=
  tasks.filterMap fun t => onChannel channel (Footing.of t.past).owes

/-- What a task has got out of its stream, in order. -/
def yielded (past : List (RealtimeEvent P)) : List RealtimeMessage := (past.filterMap yieldOf).reverse

theorem stampsOf_concat (trace : List (RealtimeEntry P)) (entry : RealtimeEntry P) (channel : ℕ) :
    stampsOf (trace ++ [entry]) channel =
      stampsOf trace channel ++ (onChannel channel (stampOf entry.event)).toList :=
  filterMap_concat _ _ _

theorem sendsOf_concat (trace : List (RealtimeEntry P)) (entry : RealtimeEntry P) (channel : ℕ) :
    sendsOf (trace ++ [entry]) channel =
      sendsOf trace channel ++ (onChannel channel (sendOf entry.event)).toList :=
  filterMap_concat _ _ _

end Accounts

section Moves

variable {P : Type} {hub : InMemoryHub} {s s' : HubShared} {footing : Footing}
  {event : RealtimeEvent P}

/-- A move stamps what its task then owes, or sends what its task owed. -/
theorem owes_of_move (move : Move hub s footing event s') (channel : ℕ) :
    (onChannel channel (sendOf event)).toList ++ (onChannel channel (footing.after event).owes).toList =
      (onChannel channel footing.owes).toList ++ (onChannel channel (stampOf event)).toList := by
  cases move with
  | quiet calm =>
      rw [calm.after, calm.stampOf, calm.sendOf]
      exact (List.append_nil _).symm
  | send => rfl
  | decrement found =>
      rw [Footing.after_decrement]
      split
      · rfl
      · rfl
  | _ => rfl

/-- The entry of a room against everything that was stamped for its channel. -/
structure Ledger (hub : InMemoryHub) (stamps : List RealtimeMessage) (entry : RoomEntry) : Prop where
  nextVersion : entry.nextVersion = stamps.length + 1
  backlog : entry.backlog <:+ stamps
  empty : ¬ hub.Retains → entry.backlog = []

/-- The rooms of a hub against everything that was stamped for each channel. -/
structure Sound (hub : InMemoryHub) (stamps : ℕ → List RealtimeMessage) (s : HubShared) : Prop where
  fresh : ∀ channel, s.channels ≤ channel → stamps channel = []
  numbered : ∀ channel, (stamps channel).map RealtimeMessage.version =
    List.range' 1 (stamps channel).length
  below : ∀ room entry, s.rooms.get room = some entry → entry.sender < s.channels
  distinct : ∀ room entry room' entry', s.rooms.get room = some entry →
    s.rooms.get room' = some entry' → entry.sender = entry'.sender → room = room'
  ledger : ∀ room entry, s.rooms.get room = some entry → Ledger hub (stamps entry.sender) entry

variable {stamps : ℕ → List RealtimeMessage}

/-- Entries may go, and their counts may change. -/
theorem Sound.mono (sound : Sound hub stamps s) (channels : s'.channels = s.channels)
    (rooms : ∀ room entry', s'.rooms.get room = some entry' →
      ∃ entry, s.rooms.get room = some entry ∧ entry'.sender = entry.sender ∧
        entry'.nextVersion = entry.nextVersion ∧ entry'.backlog = entry.backlog) :
    Sound hub stamps s' where
  fresh channel beyond := sound.fresh channel (channels ▸ beyond)
  numbered := sound.numbered
  below room entry' found' := by
    obtain ⟨entry, found, sender, -, -⟩ := rooms room entry' found'
    rw [channels, sender]
    exact sound.below room entry found
  distinct room entry' room' entry'' found' found'' same := by
    obtain ⟨first, at_room, sender, -, -⟩ := rooms room entry' found'
    obtain ⟨second, at_room', sender', -, -⟩ := rooms room' entry'' found''
    exact sound.distinct room first room' second at_room at_room'
      (sender.symm.trans (same.trans sender'))
  ledger room entry' found' := by
    obtain ⟨entry, found, sender, next, backlog⟩ := rooms room entry' found'
    have ledger := sound.ledger room entry found
    rw [sender]
    exact ⟨next.trans ledger.nextVersion, backlog ▸ ledger.backlog, backlog ▸ ledger.empty⟩

theorem Sound.enter (sound : Sound hub stamps s) (here : RoomId) :
    Sound hub stamps (enter s here) := by
  unfold InMemoryHub.enter
  split
  · next entry found =>
    refine sound.mono rfl fun room entry' found' => ?_
    rcases DashMap.get_put_cases found' with ⟨rfl, rfl⟩ | ⟨-, old⟩
    · exact ⟨entry, found, rfl, rfl, rfl⟩
    · exact ⟨entry', old, rfl, rfl, rfl⟩
  · next missing =>
    -- the new room has the first unused channel, for which nothing was stamped
    constructor
    · intro channel beyond
      exact sound.fresh channel (Nat.le_of_succ_le beyond)
    · exact sound.numbered
    · intro room entry' found'
      rcases DashMap.get_put_cases found' with ⟨rfl, rfl⟩ | ⟨-, old⟩
      · exact Nat.lt_succ_self _
      · exact Nat.lt_succ_of_lt (sound.below room entry' old)
    · intro room entry' room' entry'' found' found'' same
      rcases DashMap.get_put_cases found' with ⟨rfl, rfl⟩ | ⟨-, old⟩
      · rcases DashMap.get_put_cases found'' with ⟨rfl, rfl⟩ | ⟨-, old'⟩
        · rfl
        · exact absurd (sound.below room' entry'' old') (Nat.not_lt.mpr (Nat.le_of_eq same))
      · rcases DashMap.get_put_cases found'' with ⟨rfl, rfl⟩ | ⟨-, old'⟩
        · exact absurd (sound.below room entry' old) (Nat.not_lt.mpr (Nat.le_of_eq same.symm))
        · exact sound.distinct room entry' room' entry'' old old' same
    · intro room entry' found'
      rcases DashMap.get_put_cases found' with ⟨rfl, rfl⟩ | ⟨-, old⟩
      · have none := sound.fresh s.channels (Nat.le_refl _)
        exact ⟨by rw [none]; rfl, List.nil_suffix, fun _ => rfl⟩
      · exact sound.ledger room entry' old

theorem Sound.stamp (sound : Sound hub stamps s) {msg : RealtimeMessage} {entry : RoomEntry}
    (found : s.rooms.get msg.room = some entry) (clones : List ℕ) :
    Sound hub
      (fun channel => stamps channel ++
        (onChannel channel (some (entry.sender, (hub.stampAndRetain entry msg).2))).toList)
      { s with rooms := s.rooms.put msg.room (hub.stampAndRetain entry msg).1, clones } := by
  have other : ∀ {channel}, channel ≠ entry.sender →
      stamps channel ++ (onChannel channel
        (some (entry.sender, (hub.stampAndRetain entry msg).2))).toList = stamps channel := by
    intro channel apart
    rw [onChannel, if_neg (Ne.symm apart)]
    exact List.append_nil _
  have own : stamps entry.sender ++ (onChannel entry.sender
      (some (entry.sender, (hub.stampAndRetain entry msg).2))).toList =
        stamps entry.sender ++ [(hub.stampAndRetain entry msg).2] := by
    rw [onChannel, if_pos rfl]
    rfl
  have ledger := sound.ledger msg.room entry found
  constructor
  · intro channel beyond
    have apart : channel ≠ entry.sender := by
      have bound := sound.below msg.room entry found
      rintro rfl
      exact absurd bound (Nat.not_lt.mpr beyond)
    exact (other apart).trans (sound.fresh channel beyond)
  · intro channel
    by_cases same : channel = entry.sender
    · subst same
      show List.map _ (stamps entry.sender ++ _) = _
      rw [own, List.map_append, sound.numbered, List.length_append, List.length_singleton,
        List.range'_concat, List.map_singleton, stampAndRetain_stamped, ledger.nextVersion]
      simp only [Nat.one_mul, Nat.add_comm 1]
    · show List.map _ (stamps channel ++ _) = List.range' 1 (stamps channel ++ _).length
      rw [other same]
      exact sound.numbered channel
  · intro room entry' found'
    rcases DashMap.get_put_cases found' with ⟨rfl, rfl⟩ | ⟨-, old⟩
    · rw [stampAndRetain_sender]
      exact sound.below msg.room entry found
    · exact sound.below room entry' old
  · intro room entry' room' entry'' found' found'' same
    rcases DashMap.get_put_cases found' with ⟨rfl, rfl⟩ | ⟨-, old⟩
    · rcases DashMap.get_put_cases found'' with ⟨rfl, rfl⟩ | ⟨-, old'⟩
      · rfl
      · rw [stampAndRetain_sender] at same
        exact sound.distinct _ entry _ entry'' found old' same
    · rcases DashMap.get_put_cases found'' with ⟨rfl, rfl⟩ | ⟨-, old'⟩
      · rw [stampAndRetain_sender] at same
        exact sound.distinct _ entry' _ entry old found same
      · exact sound.distinct _ entry' _ entry'' old old' same
  · intro room entry' found'
    rcases DashMap.get_put_cases found' with ⟨rfl, rfl⟩ | ⟨apart, old⟩
    · rw [stampAndRetain_sender, own]
      constructor
      · rw [stampAndRetain_nextVersion, ledger.nextVersion, List.length_append,
          List.length_singleton]
      · refine (stampAndRetain_backlog ledger.empty).trans ?_
        obtain ⟨front, split⟩ := ledger.backlog
        exact ⟨front, by rw [← split, List.append_assoc]⟩
      · exact stampAndRetain_empty ledger.empty
    · have distinct : entry'.sender ≠ entry.sender := by
        intro same
        exact apart (sound.distinct room entry' msg.room entry old found same)
      rw [other distinct]
      exact sound.ledger room entry' old

theorem Sound.of_move (sound : Sound hub stamps s) (move : Move hub s footing event s') :
    Sound hub (fun channel => stamps channel ++ (onChannel channel (stampOf event)).toList) s' := by
  have quietly : ∀ {s' : HubShared}, stampOf event = none → Sound hub stamps s' →
      Sound hub (fun channel => stamps channel ++ (onChannel channel (stampOf event)).toList) s' := by
    intro s' unstamped sound
    rw [unstamped]
    simpa only [onChannel, Option.toList_none, List.append_nil] using sound
  have same : ∀ room entry', s.rooms.get room = some entry' →
      ∃ entry, s.rooms.get room = some entry ∧ entry'.sender = entry.sender ∧
        entry'.nextVersion = entry.nextVersion ∧ entry'.backlog = entry.backlog :=
    fun room entry' found => ⟨entry', found, rfl, rfl, rfl⟩
  cases move with
  | quiet calm => exact quietly calm.stampOf sound
  | @enter choice here => exact quietly rfl (sound.enter here)
  | stamp found => exact sound.stamp found _
  | @decrement choice here number entry found =>
      refine quietly rfl (sound.mono rfl fun room entry' found' => ?_)
      rcases DashMap.get_put_cases found' with ⟨rfl, rfl⟩ | ⟨-, old⟩
      · exact ⟨entry, found, rfl, rfl, rfl⟩
      · exact same room entry' old
  | @remove choice here entry found empty =>
      refine quietly rfl (sound.mono rfl fun room entry' found' => ?_)
      rw [DashMap.get_remove] at found'
      split at found'
      · cases found'
      · exact same room entry' found'
  | _ => exact quietly rfl (sound.mono rfl same)

theorem Sound.version_le (sound : Sound hub stamps s) {channel : ℕ} {msg : RealtimeMessage}
    (stamped : msg ∈ stamps channel) : 1 ≤ msg.version ∧ msg.version ≤ (stamps channel).length := by
  have listed : msg.version ∈ (stamps channel).map RealtimeMessage.version :=
    List.mem_map_of_mem stamped
  rw [sound.numbered, List.mem_range'_1] at listed
  omega

/-- A receiver against everything that was sent on its channel: it missed what was stamped before
it joined, and nothing else as long as it is attached. -/
def Supplied (sends : ℕ → List RealtimeMessage) (receiver : Receiver) : Prop :=
  ∃ before after, sends receiver.channel = before ++ receiver.sent ++ after ∧
    (∀ msg ∈ before, msg.version < receiver.joined) ∧ (receiver.attached = true → after = [])

variable {sends : ℕ → List RealtimeMessage}

theorem Supplied.deliver {receiver : Receiver} (supplied : Supplied sends receiver) (sender : ℕ)
    (msg : RealtimeMessage) :
    Supplied (fun channel => sends channel ++ (onChannel channel (some (sender, msg))).toList)
      (deliver sender msg receiver) := by
  obtain ⟨before, after, split, early, attached⟩ := supplied
  unfold InMemoryHub.deliver onChannel
  by_cases here : sender = receiver.channel
  · by_cases listens : receiver.attached = true
    · rw [if_pos ⟨here.symm, listens⟩]
      refine ⟨before, [], ?_, early, fun _ => rfl⟩
      simp only [if_pos here]
      rw [split, attached listens]
      simp
    · rw [if_neg fun both => listens both.2]
      refine ⟨before, after ++ [msg], ?_, early, fun attached => absurd attached listens⟩
      simp only [if_pos here]
      rw [split]
      simp
  · rw [if_neg fun both => here both.1.symm]
    refine ⟨before, after, ?_, early, attached⟩
    simp only [if_neg here]
    rw [split]
    simp

theorem receivers_enter (s : HubShared) (room : RoomId) :
    ∃ channel joined, (enter s room).receivers =
      s.receivers ++ [{ room := room, channel := channel, joined := joined }] := by
  unfold enter
  split
  · exact ⟨_, _, rfl⟩
  · exact ⟨_, _, rfl⟩

/-- Receivers stay supplied, given that new ones are. -/
theorem supplied_of_move (move : Move hub s footing event s')
    (all : ∀ (number : ℕ) receiver, s.receivers[number]? = some receiver → Supplied sends receiver)
    (joins : ∀ room {receiver}, (enter s room).receivers[s.receivers.length]? = some receiver →
      Supplied sends receiver) :
    ∀ (number : ℕ) receiver, s'.receivers[number]? = some receiver →
      Supplied (fun channel => sends channel ++ (onChannel channel (sendOf event)).toList)
        receiver := by
  intro number receiver found
  have silently : sendOf event = none → Supplied sends receiver →
      Supplied (fun channel => sends channel ++ (onChannel channel (sendOf event)).toList)
        receiver := by
    intro unsent supplied
    rw [unsent]
    simpa only [onChannel, Option.toList_none, List.append_nil] using supplied
  cases move with
  | quiet calm => exact silently calm.sendOf (all number receiver found)
  | @enter choice room =>
      refine silently rfl ?_
      obtain ⟨channel, joined, receivers⟩ := receivers_enter s room
      rcases Nat.lt_trichotomy number s.receivers.length with less | rfl | more
      · rw [receivers, List.getElem?_append_left less] at found
        exact all number receiver found
      · exact joins room found
      · have short : number < (enter s room).receivers.length :=
          (List.getElem?_eq_some_iff.mp found).1
        rw [receivers, List.length_append, List.length_singleton] at short
        omega
  | @send choice sender msg =>
      rw [List.getElem?_map, Option.map_eq_some_iff] at found
      obtain ⟨old, at_number, rfl⟩ := found
      exact (all number old at_number).deliver sender msg
  | @receive choice room other old msg at_other there =>
      refine silently rfl ?_
      by_cases here : other = number
      · subst here
        rw [List.getElem?_set_self (List.getElem?_eq_some_iff.mp at_other).1] at found
        cases found
        exact all other old at_other
      · rw [List.getElem?_set_ne here] at found
        exact all number receiver found
  | @dropReceiver choice room other =>
      refine silently rfl ?_
      rw [List.getElem?_modify, Option.map_eq_map, Option.map_eq_some_iff] at found
      obtain ⟨old, at_number, same⟩ := found
      obtain ⟨before, after, split, early, attached⟩ := all number old at_number
      split at same
      · cases same
        exact ⟨before, after, split, early, nofun⟩
      · cases same
        exact ⟨before, after, split, early, attached⟩
  | _ => exact silently rfl (all number receiver found)

/-- Only the task that owes a message sends it. -/
theorem send_of_move (move : Move hub s footing event s') {channel : ℕ} {msg : RealtimeMessage}
    (sent : sendOf event = some (channel, msg)) :
    footing = .stamped channel msg ∧ event.op = .send channel msg := by
  cases move with
  | quiet calm => cases calm.sendOf.symm.trans sent
  | send =>
      cases sent
      exact ⟨rfl, rfl⟩
  | _ => cases sent

end Moves

section Runs

variable {P : Type} {hub : InMemoryHub}
  {C : RealtimePool P → Action RealtimeChoice (RealtimeCall P) → Prop} {p : RealtimePool P}

/-- What was stamped for a channel was sent once, or is owed. -/
theorem sends_append_owed_perm (reached : (system hub).Reaches C initial p) (channel : ℕ) :
    (sendsOf p.trace channel ++ owedOn p.tasks channel).Perm (stampsOf p.trace channel) := by
  refine invariant_of_moves (Q := fun p => (sendsOf p.trace channel ++
    owedOn p.tasks channel).Perm (stampsOf p.trace channel)) reached (.refl _) ?_ ?_
  · intro q call balanced
    rw [Pool.start_trace, Pool.start_tasks, owedOn, List.map_singleton, filterMap_concat, ← owedOn]
    simpa [Footing.of, Footing.owes, onChannel] using balanced
  · intro q i t event shared rest choice _ balanced _ found _ move
    obtain ⟨others, before, now⟩ := filterMap_set_perm found ⟨t.args, event :: t.past, rest⟩
      fun t => onChannel channel (Footing.of t.past).owes
    have exchanged := owes_of_move move channel
    rw [Pool.advance_trace, Pool.advance_tasks, sendsOf_concat, stampsOf_concat]
    calc
      sendsOf q.trace channel ++ (onChannel channel (sendOf event)).toList ++
          owedOn (q.tasks.set i ⟨t.args, event :: t.past, rest⟩) channel
        ~ sendsOf q.trace channel ++ (onChannel channel (sendOf event)).toList ++
          ((onChannel channel ((Footing.of t.past).after event).owes).toList ++ others) :=
        (now.trans List.perm_append_comm).append_left _
      _ = sendsOf q.trace channel ++ ((onChannel channel (Footing.of t.past).owes).toList ++
          (onChannel channel (stampOf event)).toList ++ others) := by
        rw [← exchanged]
        simp only [List.append_assoc]
      _ ~ sendsOf q.trace channel ++ (others ++ ((onChannel channel (Footing.of t.past).owes).toList ++
          (onChannel channel (stampOf event)).toList)) := List.perm_append_comm.append_left _
      _ ~ sendsOf q.trace channel ++ (owedOn q.tasks channel ++
          (onChannel channel (stampOf event)).toList) := by
        rw [← List.append_assoc others]
        exact (before.symm.append_right _).append_left _
      _ = sendsOf q.trace channel ++ owedOn q.tasks channel ++
          (onChannel channel (stampOf event)).toList := (List.append_assoc _ _ _).symm
      _ ~ stampsOf q.trace channel ++ (onChannel channel (stampOf event)).toList :=
        balanced.append_right _

theorem sound_of_reaches (reached : (system hub).Reaches C initial p) :
    Sound hub (stampsOf p.trace) p.shared := by
  refine invariant_of_moves (Q := fun p => Sound hub (stampsOf p.trace) p.shared) reached ?_ ?_ ?_
  · exact ⟨fun _ _ => rfl, fun _ => rfl, nofun, nofun, nofun⟩
  · intro q call sound
    exact sound
  · intro q i t event shared rest choice _ sound _ _ _ move
    have next := sound.of_move move
    have stamps : stampsOf (q.trace ++ [⟨i, t.args, t.past, q.shared, event⟩]) = fun channel =>
        stampsOf q.trace channel ++ (onChannel channel (stampOf event)).toList :=
      funext fun channel => stampsOf_concat _ _ channel
    rw [Pool.advance_trace, Pool.advance_shared, stamps]
    exact next

theorem sends_subset_stamps (reached : (system hub).Reaches C initial p) {channel : ℕ}
    {msg : RealtimeMessage} (sent : msg ∈ sendsOf p.trace channel) :
    msg ∈ stampsOf p.trace channel :=
  (sends_append_owed_perm reached channel).mem_iff.mp (List.mem_append_left _ sent)

/-- A new receiver has missed what was sent before it, all of an earlier version. -/
theorem supplied_enter (reached : (system hub).Reaches C initial p) (room : RoomId)
    {receiver : Receiver}
    (found : (enter p.shared room).receivers[p.shared.receivers.length]? = some receiver) :
    Supplied (sendsOf p.trace) receiver := by
  have sound := sound_of_reaches reached
  unfold enter at found
  split at found
  · next entry tracked =>
    cases List.getElem?_concat_length.symm.trans found
    refine ⟨sendsOf p.trace entry.sender, [], by simp, fun msg sent => ?_, fun _ => rfl⟩
    have bound := (sound.version_le (sends_subset_stamps reached sent)).2
    have next := (sound.ledger room entry tracked).nextVersion
    show msg.version < entry.nextVersion
    omega
  · next missing =>
    cases List.getElem?_concat_length.symm.trans found
    have nothing : sendsOf p.trace p.shared.channels = [] := by
      refine List.eq_nil_iff_forall_not_mem.mpr fun msg sent => ?_
      have stamped := sends_subset_stamps reached sent
      rw [sound.fresh _ (Nat.le_refl _)] at stamped
      cases stamped
    exact ⟨[], [], by simpa using nothing, nofun, fun _ => rfl⟩

theorem supplied_of_reaches (reached : (system hub).Reaches C initial p) :
    ∀ (number : ℕ) receiver, p.shared.receivers[number]? = some receiver →
      Supplied (sendsOf p.trace) receiver := by
  refine invariant_of_moves (Q := fun p => ∀ (number : ℕ) receiver,
    p.shared.receivers[number]? = some receiver → Supplied (sendsOf p.trace) receiver)
    reached ?_ ?_ ?_
  · intro number receiver found
    cases found
  · intro q call all
    exact all
  · intro q i t event shared rest choice before all _ _ _ move number receiver found
    have sends : sendsOf (q.trace ++ [⟨i, t.args, t.past, q.shared, event⟩]) = fun channel =>
        sendsOf q.trace channel ++ (onChannel channel (sendOf event)).toList :=
      funext fun channel => sendsOf_concat _ _ channel
    rw [Pool.advance_trace, sends]
    exact supplied_of_move move all (supplied_enter before) number receiver found

theorem sent_subset_stamps (reached : (system hub).Reaches C initial p) {number : ℕ}
    {receiver : Receiver} (found : p.shared.receivers[number]? = some receiver)
    {msg : RealtimeMessage} (sent : msg ∈ receiver.sent) :
    msg ∈ stampsOf p.trace receiver.channel := by
  obtain ⟨before, after, split, -, -⟩ := supplied_of_reaches reached number receiver found
  refine sends_subset_stamps reached ?_
  rw [split]
  exact List.mem_append_left _ (List.mem_append_right _ sent)

end Runs

end InMemoryHub

end Pharos
