import Pharos.Realtime.Streams

/-!
# Resuming within a room's life

A subscriber registers before it reads the backlog.  What was stamped by the time of the read is in
the backlog or the answer is not a replay; what is stamped later was not sent before it joined, so
it reaches the new stream.
-/

namespace Pharos

open Async

open scoped List

namespace InMemoryHub

/-! ## What a backlog answers -/

section Resume

variable {hub : InMemoryHub} {stamps : List RealtimeMessage} {entry : RoomEntry}

theorem numbered_of_earlier {old : List RealtimeMessage} (earlier : old <+: stamps)
    (numbered : stamps.map RealtimeMessage.version = List.range' 1 stamps.length) :
    old.map RealtimeMessage.version = List.range' 1 old.length := by
  obtain ⟨more, rfl⟩ := earlier
  rw [List.map_append, List.length_append, ← List.range'_append_1] at numbered
  exact (List.append_inj numbered (by simp)).1

/-- Messages are numbered from 1 on. -/
theorem version_of_getElem? {index : ℕ} {msg : RealtimeMessage}
    (numbered : stamps.map RealtimeMessage.version = List.range' 1 stamps.length)
    (found : stamps[index]? = some msg) : msg.version = index + 1 := by
  have short := (List.getElem?_eq_some_iff.mp found).1
  have listed : (stamps.map RealtimeMessage.version)[index]? = some msg.version := by
    rw [List.getElem?_map, found]
    rfl
  rw [numbered, List.getElem?_range' short] at listed
  have same := Option.some.inj listed
  omega

theorem eq_of_version {msg other : RealtimeMessage}
    (numbered : stamps.map RealtimeMessage.version = List.range' 1 stamps.length)
    (stamped : msg ∈ stamps) (stamped' : other ∈ stamps) (same : msg.version = other.version) :
    msg = other := by
  obtain ⟨i, at_i⟩ := List.mem_iff_getElem?.mp stamped
  obtain ⟨j, at_j⟩ := List.mem_iff_getElem?.mp stamped'
  have first := version_of_getElem? numbered at_i
  have second := version_of_getElem? numbered at_j
  have equal : i = j := by omega
  subst equal
  exact Option.some.inj (at_i.symm.trans at_j)

/-- The messages after a version are those beyond its position. -/
theorem filter_version (numbered : stamps.map RealtimeMessage.version = List.range' 1 stamps.length)
    (since : ℕ) : (stamps.filter fun msg => since < msg.version) = stamps.drop since := by
  have early : ((stamps.take since).filter fun msg => since < msg.version) = [] := by
    refine List.filter_eq_nil_iff.mpr fun msg member => ?_
    obtain ⟨index, found⟩ := List.mem_iff_getElem?.mp member
    rw [List.getElem?_take] at found
    split at found
    · next less =>
      have version := version_of_getElem? numbered found
      simp only [decide_eq_true_eq]
      omega
    · cases found
  have late : ((stamps.drop since).filter fun msg => since < msg.version) = stamps.drop since := by
    refine List.filter_eq_self.mpr fun msg member => ?_
    obtain ⟨index, found⟩ := List.mem_iff_getElem?.mp member
    rw [List.getElem?_drop] at found
    have version := version_of_getElem? numbered found
    exact decide_eq_true (by omega)
  calc
    (stamps.filter fun msg => since < msg.version) =
        (stamps.take since ++ stamps.drop since).filter fun msg => since < msg.version := by
      rw [List.take_append_drop]
    _ = stamps.drop since := by
      rw [List.filter_append, early, late]
      rfl

/-- A replay is everything stamped after the requested version. -/
theorem replayed_eq_drop (ledger : Ledger hub stamps entry)
    (numbered : stamps.map RealtimeMessage.version = List.range' 1 stamps.length) {since : UInt64}
    {missed : List RealtimeMessage} (answer : resume since entry = .replayed missed) :
    missed = stamps.drop since.toNat := by
  rw [resume] at answer
  split at answer
  · next nothing =>
    split at answer
    · next unused =>
      cases answer
      have none : stamps = [] := by
        have next := ledger.nextVersion
        rw [unused] at next
        exact List.length_eq_zero_iff.mp (by omega)
      rw [none]
      exact List.drop_nil.symm
    · cases answer
  · next oldest first =>
    split at answer
    · cases answer
    · next reaches =>
      cases answer
      obtain ⟨front, split⟩ := ledger.backlog
      have position : stamps[front.length]? = some oldest := by
        rw [← split, List.getElem?_append_right (Nat.le_refl _), Nat.sub_self,
          ← List.head?_eq_getElem?]
        exact first
      have version := version_of_getElem? numbered position
      have bound : (since + 1).toNat ≤ since.toNat + 1 := by
        rw [UInt64.toNat_add]
        exact Nat.mod_le _ _
      -- what the backlog has lost is not after the requested version
      have lost : (front.filter fun msg => since.toNat < msg.version) = [] := by
        refine List.filter_eq_nil_iff.mpr fun msg member => ?_
        obtain ⟨index, found⟩ := List.mem_iff_getElem?.mp member
        have less := (List.getElem?_eq_some_iff.mp found).1
        have there : stamps[index]? = some msg := by
          rw [← split, List.getElem?_append_left less, found]
        have earlier := version_of_getElem? numbered there
        simp only [decide_eq_true_eq]
        omega
      calc
        (entry.backlog.filter fun msg => since.toNat < msg.version) =
            stamps.filter fun msg => since.toNat < msg.version := by
          rw [← split, List.filter_append, lost]
          rfl
        _ = stamps.drop since.toNat := filter_version numbered since.toNat

end Resume

/-! ## What a subscriber has read -/

/-- An entry that a subscriber read after it joined, against what is stamped for its channel. -/
structure Remembers (hub : InMemoryHub) (stamps : List RealtimeMessage) (receiver : Receiver)
    (entry : RoomEntry) : Prop where
  joined : receiver.joined ≤ entry.nextVersion
  ledger : ∃ old, old <+: stamps ∧ Ledger hub old entry

/-- Only a task that is inside a room reads an entry, and it is that of its room. -/
theorem read_of_move {P : Type} {hub : InMemoryHub} {s s' : HubShared} {footing : Footing}
    {event : RealtimeEvent P} {entry : RoomEntry} (move : Move hub s footing event s')
    (read : readOf event = some entry) :
    ∃ room number, footing = .inside room number ∧ footing.after event = footing ∧ s' = s ∧
      s.rooms.get room = some entry ∧ event.op = .get room := by
  cases move with
  | quiet calm => cases calm.readOf.symm.trans read
  | @read choice room number => exact ⟨room, number, rfl, rfl, rfl, read, rfl⟩
  | _ => cases read

section Runs

variable {P : Type} {hub : InMemoryHub}
  {C : RealtimePool P → Action RealtimeChoice (RealtimeCall P) → Prop} {p : RealtimePool P}

/-- What holds of an entry when a task reads it, and is kept by arrivals and by moves, holds of
everything that a seated task has read. -/
theorem read_of_reaches {R : RealtimeCall P → RealtimePool P → Receiver → RoomEntry → Prop}
    (reached : (system hub).Reaches C initial p)
    (now : ∀ {q i t room number receiver entry choice}, (system hub).Reaches C initial q →
      C q (.step i choice) → q.tasks[i]? = some t → t.rest.awaited = some (.get room) →
      Footing.of t.past = .inside room number → q.shared.receivers[number]? = some receiver →
      q.shared.rooms.get room = some entry → R t.args q receiver entry)
    (arrives : ∀ {q call a receiver entry}, R a q receiver entry →
      R a (q.start (body hub) q.shared [call]) receiver entry)
    (moves : ∀ {q i t event shared rest a} {number : ℕ} {receiver receiver' entry},
      (system hub).Reaches C initial q → q.tasks[i]? = some t →
      Move hub q.shared (.of t.past) event shared → q.shared.receivers[number]? = some receiver →
      shared.receivers[number]? = some receiver' → R a q receiver entry →
      R a (q.advance i t event shared rest) receiver' entry) :
    ∀ (i : ℕ) (t : RealtimeTask P) room number receiver, p.tasks[i]? = some t →
      (Footing.of t.past).seat = some (room, number) →
      p.shared.receivers[number]? = some receiver → ∀ entry ∈ t.past.filterMap readOf,
      R t.args p receiver entry := by
  refine invariant_of_moves (Q := fun p => ∀ (i : ℕ) (t : RealtimeTask P) room number receiver,
    p.tasks[i]? = some t → (Footing.of t.past).seat = some (room, number) →
      p.shared.receivers[number]? = some receiver → ∀ entry ∈ t.past.filterMap readOf,
      R t.args p receiver entry) reached ?_ ?_ ?_
  · intro i t room number receiver found
    cases found
  · intro q call all i t room number receiver at_i sits found entry read
    rcases Pool.getElem?_start at_i with old | ⟨-, a, -, rfl⟩
    · exact arrives (all i t room number receiver old sits found entry read)
    · cases sits
  · intro q k v event shared rest choice before all side found awaits move j u room number receiver'
      at_j sits found' entry read
    -- what a seated task has read before stays true
    have stays : ∀ (u : RealtimeTask P) (j : ℕ), q.tasks[j]? = some u →
        (Footing.of u.past).seat = some (room, number) → entry ∈ u.past.filterMap readOf →
        R u.args (q.advance k v event shared rest) receiver' entry := by
      intro u j at_j sits read
      obtain ⟨receiver, -, at_number, -⟩ := seated before u (List.mem_of_getElem? at_j) _ _ sits
      exact moves before found move at_number found'
        (all j u room number receiver at_j sits at_number entry read)
    rcases Pool.getElem?_advance found at_j with ⟨rfl, rfl⟩ | ⟨-, old⟩
    · rw [List.filterMap_cons] at read
      cases reads : readOf event with
      | none =>
          rw [reads] at read
          rcases seat_cases move sits with same | ⟨outside, -⟩
          · exact stays v j found same read
          · have fresh : (Footing.of v.past).Fresh := by
              rw [outside]
              trivial
            rw [(nothing_of_fresh before v (List.mem_of_getElem? found) fresh).2] at read
            cases read
      | some entry' =>
          obtain ⟨here, number', inside, stay, rfl, tracked, asked⟩ := read_of_move move reads
          have same : (Footing.of v.past).seat = some (room, number) := by
            rw [← stay]
            exact sits
          rw [reads] at read
          rcases List.mem_cons.mp read with rfl | earlier
          · have seat := same
            rw [inside] at seat
            cases seat
            rw [asked] at awaits
            exact moves before found move found' found'
              (now (t := v) before side found awaits inside found' tracked)
          · exact stays v j found same earlier
    · exact stays u j old sits read

theorem remembers_of_reaches (reached : (system hub).Reaches C initial p) :
    ∀ (i : ℕ) (t : RealtimeTask P) room number receiver, p.tasks[i]? = some t →
      (Footing.of t.past).seat = some (room, number) →
      p.shared.receivers[number]? = some receiver → ∀ entry ∈ t.past.filterMap readOf,
      Remembers hub (stampsOf p.trace receiver.channel) receiver entry := by
  refine read_of_reaches (R := fun _ p receiver entry =>
    Remembers hub (stampsOf p.trace receiver.channel) receiver entry) reached ?_ ?_ ?_
  · intro q i t room number receiver entry choice before _ found _ inside at_number tracked
    have sits : (Footing.of t.past).seat = some (room, number) := by
      rw [inside]
      rfl
    obtain ⟨receiver', entry', found', tracked', -, attached, joined⟩ :=
      seated before t (List.mem_of_getElem? found) _ _ sits
    cases at_number.symm.trans found'
    cases tracked.symm.trans tracked'
    refine ⟨joined, _, ?_, (sound_of_reaches before).ledger room entry tracked⟩
    rw [attached]
  · intro q call a receiver entry remembers
    exact remembers
  · intro q i t event shared rest a number receiver receiver' entry _ _ move at_number found'
      remembers
    obtain ⟨receiver'', found'', same⟩ := receiver_of_move move at_number
    cases found''.symm.trans found'
    obtain ⟨joined, old, earlier, ledger⟩ := remembers
    rw [same.2.1, Pool.advance_trace, stampsOf_concat]
    exact ⟨same.2.2 ▸ joined, old, earlier.trans (List.prefix_append _ _), ledger⟩

/-- Everything stamped since a receiver joined was sent to it, or is owed. -/
theorem sent_or_owed (reached : (system hub).Reaches C initial p) {number : ℕ} {receiver : Receiver}
    (found : p.shared.receivers[number]? = some receiver) (attached : receiver.attached = true)
    {msg : RealtimeMessage} (stamped : msg ∈ stampsOf p.trace receiver.channel)
    (later : receiver.joined ≤ msg.version) :
    msg ∈ receiver.sent ∨ msg ∈ owedOn p.tasks receiver.channel := by
  obtain ⟨before, after, split, early, none⟩ := supplied_of_reaches reached number receiver found
  have balanced := (sends_append_owed_perm reached receiver.channel).mem_iff.mpr stamped
  rcases List.mem_append.mp balanced with sent | owed
  · rw [split, none attached, List.append_nil] at sent
    rcases List.mem_append.mp sent with missed | sent
    · exact absurd (early msg missed) (Nat.not_lt.mpr later)
    · exact .inl sent
  · exact .inr owed

/-- The subscription was opened with a replay. -/
def Opened (past : List (RealtimeEvent P)) (since : UInt64) (missed : List RealtimeMessage)
    (number : ℕ) : Prop :=
  (some since, .replayed missed, number) ∈ past.filterMap openOf

instance (past : List (RealtimeEvent P)) (since : UInt64) (missed : List RealtimeMessage)
    (number : ℕ) : Decidable (Opened past since missed number) :=
  inferInstanceAs (Decidable ((some since, .replayed missed, number) ∈ past.filterMap openOf))

theorem exists_of_mem_opened {past : List (RealtimeEvent P)} {since : Option UInt64}
    {backlog : Backlog} {number : ℕ} (opened : (since, backlog, number) ∈ past.filterMap openOf) :
    ∃ choice, (⟨choice, .opened since backlog number, ()⟩ : RealtimeEvent P) ∈ past := by
  obtain ⟨⟨choice, op, reply⟩, did, same⟩ := List.mem_filterMap.mp opened
  cases op with
  | opened since backlog number =>
      cases same
      exact ⟨choice, did⟩
  | _ => cases same

/-- A replay answers to what the call asked for, with an entry that its task has read. -/
theorem answers_of_replayed (reached : (system hub).Reaches C initial p) {t : RealtimeTask P}
    {since : Option UInt64} {missed : List RealtimeMessage} {number : ℕ} (started : t ∈ p.tasks)
    (opened : (since, .replayed missed, number) ∈ t.past.filterMap openOf) :
    ∃ value, since = some value ∧ t.args.since = some value ∧ existed t.past = some true ∧
      ∃ entry ∈ t.past.filterMap readOf, resume value entry = .replayed missed := by
  obtain ⟨choice, did⟩ := exists_of_mem_opened opened
  obtain ⟨later, earlier, split⟩ := List.append_of_mem did
  have suffix : ⟨choice, .opened since (.replayed missed) number, ()⟩ :: earlier <:+ t.past :=
    ⟨later, split.symm⟩
  obtain ⟨-, asked, known, value, entry, same, read, answer⟩ :=
    reached.obeyed rfl obeys_body t started _ earlier suffix
  have inside : earlier <:+ t.past := (List.suffix_cons _ _).trans suffix
  refine ⟨value, asked.trans same, same, existed_of_suffix inside known, entry, ?_, answer⟩
  exact (inside.filterMap readOf).subset read

theorem answers_of_opened (reached : (system hub).Reaches C initial p) {t : RealtimeTask P}
    {since : UInt64} {missed : List RealtimeMessage} {number : ℕ} (started : t ∈ p.tasks)
    (opened : Opened t.past since missed number) :
    t.args.since = some since ∧ existed t.past = some true ∧
      ∃ entry ∈ t.past.filterMap readOf, resume since entry = .replayed missed := by
  obtain ⟨value, same, answers⟩ := answers_of_replayed reached started opened
  cases same
  exact answers

/-- A replay is everything that was stamped after the requested version when the backlog was read,
which was after the subscriber joined. -/
theorem replay_of_opened (reached : (system hub).Reaches C initial p) {i : ℕ} {t : RealtimeTask P}
    {room : RoomId} {number : ℕ} {receiver : Receiver} {since : UInt64}
    {missed : List RealtimeMessage} (at_i : p.tasks[i]? = some t)
    (sits : (Footing.of t.past).seat = some (room, number))
    (found : p.shared.receivers[number]? = some receiver) (opened : Opened t.past since missed number) :
    ∃ old, old <+: stampsOf p.trace receiver.channel ∧ missed = old.drop since.toNat ∧
      receiver.joined ≤ old.length + 1 := by
  obtain ⟨-, -, entry, read, answer⟩ :=
    answers_of_opened reached (List.mem_of_getElem? at_i) opened
  obtain ⟨joined, old, earlier, ledger⟩ :=
    remembers_of_reaches reached i t room number receiver at_i sits found entry read
  have numbered := numbered_of_earlier earlier ((sound_of_reaches reached).numbered _)
  exact ⟨old, earlier, replayed_eq_drop ledger numbered answer, ledger.nextVersion ▸ joined⟩

/-- The replay has no holes, and everything else of the incarnation after the requested version was
or will be sent to the new stream. -/
theorem missed_or_sent (reached : (system hub).Reaches C initial p) {i : ℕ} {t : RealtimeTask P}
    {room : RoomId} {number : ℕ} {receiver : Receiver} {since : UInt64}
    {missed : List RealtimeMessage} (at_i : p.tasks[i]? = some t)
    (inside : Footing.of t.past = .inside room number)
    (found : p.shared.receivers[number]? = some receiver) (opened : Opened t.past since missed number)
    {msg : RealtimeMessage} (stamped : msg ∈ stampsOf p.trace receiver.channel)
    (after : since.toNat < msg.version) :
    msg ∈ missed ∨ msg ∈ receiver.sent ∨ msg ∈ owedOn p.tasks receiver.channel := by
  have sits : (Footing.of t.past).seat = some (room, number) := by
    rw [inside]
    rfl
  obtain ⟨old, earlier, rfl, joined⟩ := replay_of_opened reached at_i sits found opened
  have numbered := (sound_of_reaches reached).numbered receiver.channel
  have attached := (reads_of_reaches False reached nofun i t room number receiver at_i sits
    found).2 inside
  by_cases known : msg ∈ old
  · refine .inl ?_
    rw [← filter_version (numbered_of_earlier earlier numbered)]
    exact List.mem_filter.mpr ⟨known, decide_eq_true after⟩
  · refine .inr (sent_or_owed reached found attached stamped (Nat.le_trans joined ?_))
    obtain ⟨more, split⟩ := earlier
    obtain ⟨index, at_index⟩ := List.mem_iff_getElem?.mp stamped
    have version := version_of_getElem? numbered at_index
    have beyond : old.length ≤ index := by
      by_contra less
      rw [← split, List.getElem?_append_left (Nat.lt_of_not_le less)] at at_index
      exact known (List.mem_of_getElem? at_index)
    omega

end Runs

/-- A move of a game. -/
def moveMade (number : UInt8) (version : ℕ := 0) : RealtimeMessage where
  room := game
  kind := "MoveMade"
  payload := [number]
  version := version

/-- A player who saw the first move comes back: the second move is stamped after the player has
joined, and sent after the backlog was read. -/
def resumedRun : List (Action RealtimeChoice (RealtimeCall Unit)) :=
  [.arrive (.subscribe game 0), .arrive (.publish (moveMade 1)), .arrive (.publish (moveMade 2)),
    .arrive (.resume game (some 1) 0 0),
    .step 0 {}, .step 0 {}, .step 0 {}, .step 1 {}, .step 1 {},
    .step 3 {}, .step 3 {}, .step 3 {}, .step 2 {}, .step 3 {}, .step 3 {}, .step 2 {}]

end InMemoryHub

end Pharos
