import Pharos.Realtime.Order

/-!
# Replayed and live messages

A connection writes what it replays and then what its stream yields, and it does not look at
versions.  A message that was stamped before the backlog was read, and is sent after the connection
joined, is in both.
-/

namespace Pharos

open Async

open scoped List

namespace Connection

open InMemoryHub

section Control

variable {P : Type} {hub : InMemoryHub} {past : List (RealtimeEvent P)} {event : RealtimeEvent P}
  {connection : Connection P} {stream : RoomStream} {msg : RealtimeMessage}
  {rest : List RealtimeMessage}

/-- A room message that was written to the client. -/
def writeOf : RealtimeEvent P → Option RealtimeMessage
  | ⟨_, .write (.message msg), _⟩ => some msg
  | _ => none

/-- The room messages that a connection wrote to its client, in order. -/
def written (past : List (RealtimeEvent P)) : List RealtimeMessage := (past.filterMap writeOf).reverse

theorem written_cons (event : RealtimeEvent P) (past : List (RealtimeEvent P)) :
    written (event :: past) = written past ++ (writeOf event).toList :=
  reverse_filterMap_cons _ _ _

theorem op_of_writeOf (writes : writeOf event = some msg) : event.op = .write (.message msg) := by
  obtain ⟨choice, op, reply⟩ := event
  cases op with
  | write outbound =>
      cases outbound with
      | message other =>
          cases writes
          rfl
      | _ => cases writes
  | _ => cases writes

/-- The operation neither takes a message from a stream nor writes one. -/
def Wordless : RealtimeOp P → Prop
  | .recv _ | .write (.message _) => False
  | _ => True

theorem Wordless.of_aside {op : RealtimeOp P} (aside : Aside op) : Wordless op := by
  cases op with
  | recv number => exact aside.elim
  | write outbound =>
      cases outbound with
      | message msg => exact aside.elim
      | _ => trivial
  | _ => trivial

theorem Wordless.of_hub {op : RealtimeOp P} (known : OfHub op) : Wordless op := by
  cases op with
  | recv number => exact known.elim
  | write outbound => exact known.elim
  | _ => trivial

theorem Wordless.same (wordless : Wordless event.op) (past : List (RealtimeEvent P)) :
    written (event :: past) = written past ∧ yielded (event :: past) = yielded past := by
  have nothing : writeOf event = none ∧ yieldOf event = none := by
    obtain ⟨choice, op, reply⟩ := event
    cases op with
    | recv number => exact wordless.elim
    | write outbound =>
        cases outbound with
        | message msg => exact wordless.elim
        | _ => exact ⟨rfl, rfl⟩
    | _ => exact ⟨rfl, rfl⟩
  rw [written_cons, yielded_cons, nothing.1, nothing.2]
  simp

/-- The replay and what the stream has yielded, up to `rest`, are written. -/
def Delivering (past : List (RealtimeEvent P)) (rest : List RealtimeMessage) : Prop :=
  ∃ since backlog number, (since, backlog, number) ∈ past.filterMap openOf ∧
    written past ++ rest = missed backlog ++ yielded past

namespace Delivering

theorem skip (delivering : Delivering past rest) (wordless : Wordless event.op) :
    Delivering (event :: past) rest := by
  obtain ⟨since, backlog, number, opened, balance⟩ := delivering
  obtain ⟨same, same'⟩ := wordless.same past
  refine ⟨since, backlog, number, ?_, ?_⟩
  · exact ((List.suffix_cons event past).filterMap openOf).subset opened
  · rw [same, same']
    exact balance

theorem receive (delivering : Delivering past []) (choice : RealtimeChoice) (number : ℕ)
    (msg : RealtimeMessage) : Delivering (⟨choice, .recv number, some msg⟩ :: past) [msg] := by
  obtain ⟨since, backlog, number, opened, balance⟩ := delivering
  refine ⟨since, backlog, number, opened, ?_⟩
  rw [written_cons, yielded_cons, ← List.append_assoc, ← balance]
  simp [writeOf, yieldOf]

theorem write (delivering : Delivering past (msg :: rest)) (choice : RealtimeChoice)
    (outcome : SendOutcome) :
    Delivering (⟨choice, .write (.message msg), outcome⟩ :: past) rest := by
  obtain ⟨since, backlog, number, opened, balance⟩ := delivering
  refine ⟨since, backlog, number, opened, ?_⟩
  rw [written_cons, yielded_cons, ← List.append_assoc, ← balance]
  simp [writeOf, yieldOf]

end Delivering

/-- A room message is written when it is the next one of the replay or the stream. -/
def Delivers (past : List (RealtimeEvent P)) : RealtimeOp P → Prop
  | .write (.message msg) => ∃ rest, Delivering past (msg :: rest)
  | _ => True

theorem Wordless.delivers {op : RealtimeOp P} (wordless : Wordless op) : Delivers past op := by
  cases op with
  | write outbound =>
      cases outbound with
      | message msg => exact wordless.elim
      | _ => trivial
  | _ => trivial

theorem delivers_aside {α : Type} {program : RealtimeM P α} {Q : List (RealtimeEvent P) → α → Prop}
    (aside : program.Obeys (fun _ op => Aside op) Q past) (delivering : Delivering past rest) :
    program.Obeys Delivers (fun past _ => Delivering past rest) past := by
  refine (aside.keeping (I := fun past => Delivering past rest) delivering
    (fun _ _ aside _ => (Wordless.of_aside aside).delivers)
    fun past event aside delivering => ?_).mono fun _ _ kept => kept.2
  exact delivering.skip (Wordless.of_aside aside)

theorem delivers_ofHub {α : Type} {program : RealtimeM P α} {Q : List (RealtimeEvent P) → α → Prop}
    (known : program.Obeys (fun _ op => OfHub op) Q past) :
    program.Obeys Delivers (fun _ _ => True) past :=
  (known.weaken fun _ _ known => (Wordless.of_hub known).delivers).mono fun _ _ _ => trivial

theorem delivers_replay (rest : List RealtimeMessage) (delivering : Delivering past rest) :
    (replay rest).Obeys Delivers (fun past result => result = .ok () → Delivering past []) past := by
  induction rest generalizing past with
  | nil => exact fun _ => delivering
  | cons message rest ih =>
      refine .call (S := realtimeSignature P) ⟨rest, delivering⟩ fun choice outcome => ?_
      cases outcome with
      | sent => exact ih (delivering.write choice .sent)
      | failed => exact nofun
      | timedOut => exact nofun

theorem delivers_outbound (delivering : Delivering past []) :
    (outbound stream).Obeys Delivers (fun past reason => reason = none → Delivering past []) past := by
  refine .call (S := realtimeSignature P) trivial fun choice received => ?_
  cases received with
  | none => exact nofun
  | some message =>
      have next := delivering.receive choice stream.receiver message
      refine .call (S := realtimeSignature P) ⟨[], next⟩ fun choice outcome => ?_
      cases outcome with
      | sent => exact fun _ => next.write choice .sent
      | failed => exact nofun
      | timedOut => exact nofun

theorem delivers_round (delivering : Delivering past []) :
    (connection.round stream).Obeys Delivers
      (fun past reason => reason = none → Delivering past []) past := by
  refine .call (S := realtimeSignature P) trivial fun choice branch => ?_
  have next : Delivering (⟨choice, .select, branch⟩ :: past) [] := delivering.skip trivial
  cases branch with
  | outbound => exact delivers_outbound next
  | inbound => exact (delivers_aside aside_inbound next).mono fun _ _ kept _ => kept
  | revalidate => exact (delivers_aside aside_revalidate next).mono fun _ _ kept _ => kept
  | heartbeat => exact (delivers_aside aside_heartbeat next).mono fun _ _ kept _ => kept

theorem delivers_pump (rounds : ℕ) (delivering : Delivering past []) :
    (connection.pump stream rounds).Obeys Delivers (fun _ _ => True) past := by
  induction rounds generalizing past with
  | zero => trivial
  | succ rounds ih =>
      refine .bind (delivers_round delivering) fun past reason delivering => ?_
      cases reason with
      | some reason => trivial
      | none => exact ih (delivering rfl)

theorem delivers_run (rounds : ℕ) (nothing : written past = [] ∧ yielded past = []) :
    (run hub connection rounds).Obeys Delivers (fun _ _ => True) past := by
  have subscribes : (subscribeSince hub connection.room connection.since).Obeys Delivers
      (fun past result => HandsOut past result ∧ written past = [] ∧ yielded past = []) past := by
    refine ofHub_subscribeSince.keeping (I := fun past => written past = [] ∧ yielded past = [])
      nothing (fun _ _ known _ => (Wordless.of_hub known).delivers) fun past event known nothing => ?_
    obtain ⟨same, same'⟩ := (Wordless.of_hub known).same past
    rw [same, same']
    exact nothing
  refine .bind subscribes fun past result opened => ?_
  rcases result with error | ⟨backlog, stream⟩
  · refine .call (S := realtimeSignature P) trivial fun _ outcome => ?_
    cases outcome with
    | sent => trivial
    | failed => trivial
    | timedOut => trivial
  · obtain ⟨⟨since, number, handed⟩, unwritten, unread⟩ := opened
    have delivering : Delivering past (missed backlog) := by
      refine ⟨since, backlog, number, handed, ?_⟩
      rw [unwritten, unread]
      exact (List.append_nil _).symm
    refine .bind (delivers_replay _ delivering) fun past result delivering => ?_
    cases result with
    | error reason => exact .bind (delivers_ofHub ofHub_dropStream) fun _ _ _ => trivial
    | ok _ =>
        refine .bind (delivers_pump rounds (delivering rfl)) fun past reason _ => ?_
        cases reason with
        | none => trivial
        | some reason =>
            refine .call (S := realtimeSignature P) trivial fun _ _ => ?_
            exact .bind (Q := fun _ _ => True) (delivers_ofHub ofHub_dropStream) fun _ _ _ => trivial

theorem delivers_upgradeSince {request : UpgradeRequest P} (rounds : ℕ) :
    (upgradeSince hub request rounds).Obeys Delivers (fun _ _ => True) [] := by
  refine .call (S := realtimeSignature P) trivial fun _ authenticated => ?_
  cases authenticated with
  | error error => trivial
  | ok identity =>
      refine .call (S := realtimeSignature P) trivial fun _ authorized => ?_
      cases authorized with
      | error error => trivial
      | ok _ => exact .bind (Q := fun _ _ => True) (delivers_run rounds ⟨rfl, rfl⟩) fun _ _ _ => trivial

end Control

end Connection

/-- The version that a connection asks to resume after. -/
def RealtimeCall.asks {P : Type} : RealtimeCall P → Option UInt64
  | .connect request _ => request.since
  | _ => none

/-- A connection delivers; nothing is asked of the other calls. -/
def RealtimeCall.Delivers {P : Type} : RealtimeCall P → List (RealtimeEvent P) → RealtimeOp P → Prop
  | .connect _ _ => Connection.Delivers
  | _ => fun _ _ => True

namespace InMemoryHub

open Connection

/-- The backlog goes back to the version, and has the message after it. -/
def Covers (since : UInt64) (entry : RoomEntry) (msg : RealtimeMessage) : Prop :=
  msg ∈ entry.backlog ∧ since.toNat < msg.version ∧
    ∀ oldest ∈ entry.backlog.head?, oldest.version ≤ (since + 1).toNat

instance (since : UInt64) (entry : RoomEntry) (msg : RealtimeMessage) :
    Decidable (Covers since entry msg) :=
  inferInstanceAs (Decidable (msg ∈ entry.backlog ∧ since.toNat < msg.version ∧
    ∀ oldest ∈ entry.backlog.head?, oldest.version ≤ (since + 1).toNat))

theorem covers_of_replayed {since : UInt64} {entry : RoomEntry} {replay : List RealtimeMessage}
    (answer : resume since entry = .replayed replay) {msg : RealtimeMessage} (member : msg ∈ replay) :
    Covers since entry msg := by
  rw [resume] at answer
  split at answer
  · split at answer
    · cases answer
      cases member
    · cases answer
  · next oldest first =>
    split at answer
    · cases answer
    · next reaches =>
      cases answer
      obtain ⟨retained, after⟩ := List.mem_filter.mp member
      refine ⟨retained, of_decide_eq_true after, fun other same => ?_⟩
      cases first.symm.trans same
      exact Nat.le_of_not_lt reaches

section Runs

variable {P : Type} {hub : InMemoryHub}
  {C : RealtimePool P → Action RealtimeChoice (RealtimeCall P) → Prop} {p : RealtimePool P}

/-- The room whose entry a task reads next. -/
def reading (program : RealtimeM P RealtimeReturn) : Option RoomId :=
  match program.awaited with
  | some (.get room) => some room
  | _ => none

/-- Nothing that the entry covers waits in the receiver, or is about to be sent to it. -/
def NoneLive (p : RealtimePool P) (since : UInt64) (entry : RoomEntry) (receiver : Receiver) : Prop :=
  ∀ msg ∈ entry.backlog, Covers since entry msg →
    msg ∉ receiver.sent ∧ msg ∉ owedOn p.tasks receiver.channel

instance (p : RealtimePool P) (since : UInt64) (entry : RoomEntry) (receiver : Receiver) :
    Decidable (NoneLive p since entry receiver) :=
  inferInstanceAs (Decidable (∀ msg ∈ entry.backlog, Covers since entry msg →
    msg ∉ receiver.sent ∧ msg ∉ owedOn p.tasks receiver.channel))

/-- When a connection reads a backlog, what it replays is not also on its way to its receiver. -/
def Apart (p : RealtimePool P) : Action RealtimeChoice (RealtimeCall P) → Prop
  | .arrive _ => True
  | .step i _ => ∀ t ∈ p.tasks[i]?, ∀ room ∈ reading t.rest, ∀ since ∈ t.args.asks,
      ∀ entry ∈ p.shared.rooms.get room, ∀ number ∈ receiverOf t.past,
      ∀ receiver ∈ p.shared.receivers[number]?, NoneLive p since entry receiver

instance (p : RealtimePool P) : DecidablePred (Apart p)
  | .arrive _ => .isTrue trivial
  | .step i _ =>
      -- at most one version is asked for: the type of versions is not to be searched
      have _ : ∀ (t : RealtimeTask P) (room : RoomId), Decidable (∀ since ∈ t.args.asks,
          ∀ entry ∈ p.shared.rooms.get room, ∀ number ∈ receiverOf t.past,
          ∀ receiver ∈ p.shared.receivers[number]?, NoneLive p since entry receiver) :=
        fun t _ => Option.decidableForallMem t.args.asks
      inferInstanceAs (Decidable (∀ t ∈ p.tasks[i]?, ∀ room ∈ reading t.rest,
        ∀ since ∈ t.args.asks, ∀ entry ∈ p.shared.rooms.get room, ∀ number ∈ receiverOf t.past,
        ∀ receiver ∈ p.shared.receivers[number]?, NoneLive p since entry receiver))

/-- A receiver gets a message only when it is sent. -/
theorem sent_of_move {s s' : HubShared} {footing : Footing} {event : RealtimeEvent P}
    (move : Move hub s footing event s') {number : ℕ} {receiver receiver' : Receiver}
    (found : s.receivers[number]? = some receiver)
    (found' : s'.receivers[number]? = some receiver') {msg : RealtimeMessage}
    (sent : msg ∈ receiver'.sent) :
    msg ∈ receiver.sent ∨ sendOf event = some (receiver.channel, msg) := by
  have same : receiver'.sent = receiver.sent →
      msg ∈ receiver.sent ∨ sendOf event = some (receiver.channel, msg) := by
    intro kept
    rw [kept] at sent
    exact .inl sent
  cases move with
  | @enter choice room =>
      obtain ⟨channel, joined, receivers⟩ := receivers_enter s room
      rw [receivers, List.getElem?_append_left (List.getElem?_eq_some_iff.mp found).1, found]
        at found'
      cases found'
      exact same rfl
  | @send choice sender other =>
      rw [List.getElem?_map, found] at found'
      cases found'
      unfold deliver at sent
      split at sent
      · next here =>
        rcases List.mem_append.mp sent with old | now
        · exact .inl old
        · rw [List.mem_singleton.mp now, here.1]
          exact .inr rfl
      · exact .inl sent
  | @receive choice room other old read at_other there =>
      rw [List.getElem?_set] at found'
      split at found'
      · next here =>
        subst here
        cases at_other.symm.trans found
        split at found'
        · cases found'
          exact same rfl
        · cases found'
      · cases found'.symm.trans found
        exact same rfl
  | @dropReceiver choice room other =>
      rw [List.getElem?_modify, found] at found'
      cases found'
      refine same ?_
      show (if other = number then _ else receiver).sent = receiver.sent
      split
      · rfl
      · rfl
  | _ =>
      cases found'.symm.trans found
      exact same rfl

/-- No message is sent twice, or sent and still owed. -/
theorem nodup_sends_append_owed (reached : (system hub).Reaches C initial p) (channel : ℕ) :
    (sendsOf p.trace channel ++ owedOn p.tasks channel).Nodup := by
  refine (sends_append_owed_perm reached channel).nodup_iff.mpr (List.Nodup.of_map
    RealtimeMessage.version ?_)
  rw [(sound_of_reaches reached).numbered]
  exact List.nodup_range' ..

/-- What a connection has read to replay is sent, and not to its own receiver. -/
theorem apart_of_reaches (reached : (system hub).Reaches C initial p)
    (apart : ∀ q action, C q action → Apart q action) :
    ∀ (i : ℕ) (t : RealtimeTask P) room number receiver, p.tasks[i]? = some t →
      (Footing.of t.past).seat = some (room, number) →
      p.shared.receivers[number]? = some receiver → ∀ entry ∈ t.past.filterMap readOf,
      ∀ since ∈ t.args.asks, ∀ msg, Covers since entry msg →
        msg ∈ sendsOf p.trace receiver.channel ∧ msg ∉ receiver.sent := by
  refine read_of_reaches (R := fun a p receiver entry => ∀ since ∈ a.asks, ∀ msg,
    Covers since entry msg → msg ∈ sendsOf p.trace receiver.channel ∧ msg ∉ receiver.sent)
    reached ?_ ?_ ?_
  · intro q i t room number receiver entry choice before side found awaits inside at_number tracked
      since asked msg covers
    have sits : (Footing.of t.past).seat = some (room, number) := by
      rw [inside]
      rfl
    have reads : reading t.rest = some room := by
      rw [reading, awaits]
    obtain ⟨unsent, paid⟩ := apart q _ side t found room reads since asked entry tracked number
      (receiverOf_of_seat sits) receiver at_number msg covers.1 covers
    refine ⟨?_, unsent⟩
    obtain ⟨receiver', entry', found', tracked', -, attached, -⟩ :=
      seated before t (List.mem_of_getElem? found) _ _ sits
    cases at_number.symm.trans found'
    cases tracked.symm.trans tracked'
    have stamped : msg ∈ stampsOf q.trace receiver.channel := by
      rw [attached]
      exact ((sound_of_reaches before).ledger room entry tracked).backlog.subset covers.1
    rcases List.mem_append.mp ((sends_append_owed_perm before _).mem_iff.mpr stamped) with sent | owed
    · exact sent
    · exact absurd owed paid
  · intro q call a receiver entry kept
    exact kept
  · intro q i t event shared rest a number receiver receiver' entry before found move at_number
      found' kept since asked msg covers
    obtain ⟨sent, missing⟩ := kept since asked msg covers
    obtain ⟨receiver'', found'', same⟩ := receiver_of_move move at_number
    cases found''.symm.trans found'
    constructor
    · rw [same.2.1, Pool.advance_trace, sendsOf_concat]
      exact List.mem_append_left _ sent
    · intro received
      rcases sent_of_move move at_number found' received with old | now
      · exact missing old
      · obtain ⟨owes, -⟩ := send_of_move move now
        have owed : msg ∈ owedOn q.tasks receiver.channel := by
          refine List.mem_filterMap.mpr ⟨t, List.mem_of_getElem? found, ?_⟩
          rw [owes]
          exact onChannel_eq_some.mpr rfl
        exact (List.nodup_append.mp (nodup_sends_append_owed before _)).2.2 msg sent msg owed rfl

/-- Messages of one incarnation, each at most once. -/
def Once (stamps messages : List RealtimeMessage) : Prop :=
  (∀ msg ∈ messages, msg ∈ stamps) ∧ (messages.map RealtimeMessage.version).Nodup

theorem Once.mono {stamps stamps' messages messages' : List RealtimeMessage}
    (once : Once stamps messages) (more : stamps ⊆ stamps') (less : messages' <+ messages) :
    Once stamps' messages' :=
  ⟨fun msg member => more (once.1 msg (less.subset member)), once.2.sublist (less.map _)⟩

theorem Once.append {stamps first second : List RealtimeMessage}
    (numbered : stamps.map RealtimeMessage.version = List.range' 1 stamps.length)
    (once : Once stamps first) (once' : Once stamps second)
    (apart : ∀ msg ∈ first, msg ∉ second) : Once stamps (first ++ second) := by
  constructor
  · intro msg member
    rcases List.mem_append.mp member with member | member
    · exact once.1 msg member
    · exact once'.1 msg member
  · rw [List.map_append]
    refine List.nodup_append.mpr ⟨once.2, once'.2, fun version listed version' listed' same => ?_⟩
    obtain ⟨msg, member, rfl⟩ := List.mem_map.mp listed
    obtain ⟨other, member', rfl⟩ := List.mem_map.mp listed'
    cases eq_of_version numbered (once.1 msg member) (once'.1 other member') same
    exact apart msg member member'

theorem once_stamps (reached : (system hub).Reaches C initial p) (channel : ℕ) :
    Once (stampsOf p.trace channel) (stampsOf p.trace channel) := by
  refine ⟨fun _ member => member, ?_⟩
  rw [(sound_of_reaches reached).numbered]
  exact List.nodup_range' ..

/-- What a stream has yielded is stamped for its channel, each message once. -/
theorem once_yielded (reached : (system hub).Reaches C initial p) {past : List (RealtimeEvent P)}
    {number : ℕ} {receiver : Receiver} (found : p.shared.receivers[number]? = some receiver)
    (reads : Reads False past receiver) :
    Once (stampsOf p.trace receiver.channel) (yielded past) := by
  obtain ⟨before, after, split, -, -⟩ := supplied_of_reaches reached number receiver found
  have sends : yielded past <+ sendsOf p.trace receiver.channel := by
    rw [split]
    refine (reads.yields.trans (List.take_sublist _ _)).trans ?_
    exact (List.sublist_append_right _ _).trans (List.sublist_append_left _ _)
  have stamped : Once (stampsOf p.trace receiver.channel)
      (sendsOf p.trace receiver.channel ++ owedOn p.tasks receiver.channel) := by
    have perm := sends_append_owed_perm reached receiver.channel
    refine ⟨fun msg member => perm.mem_iff.mp member, ?_⟩
    exact (perm.map _).nodup_iff.mpr (once_stamps reached _).2
  exact stamped.mono (List.Subset.refl _) (sends.trans (List.sublist_append_left _ _))

/-- What a connection replays and what its stream has yielded are different messages. -/
theorem once_of_opened (reached : (system hub).Reaches C initial p)
    (apart : ∀ q action, C q action → Apart q action) {i : ℕ} {t : RealtimeTask P} {room : RoomId}
    {number : ℕ} {receiver : Receiver} {request : UpgradeRequest P} {rounds : ℕ}
    (at_i : p.tasks[i]? = some t) (connects : t.args = .connect request rounds)
    (sits : (Footing.of t.past).seat = some (room, number))
    (found : p.shared.receivers[number]? = some receiver) {since : Option UInt64} {backlog : Backlog}
    {other : ℕ} (opened : (since, backlog, other) ∈ t.past.filterMap openOf) :
    Once (stampsOf p.trace receiver.channel) (missed backlog ++ yielded t.past) := by
  obtain ⟨reads, -⟩ :=
    reads_of_reaches False reached nofun i t room number receiver at_i sits found
  have live := once_yielded reached found reads
  cases backlog with
  | gap oldest => exact live
  | unavailable => exact live
  | replayed replay =>
      have numbered := (sound_of_reaches reached).numbered receiver.channel
      obtain ⟨since, -, asked, -, entry, read, answer⟩ :=
        answers_of_replayed reached (List.mem_of_getElem? at_i) opened
      obtain ⟨-, old, earlier, ledger⟩ :=
        remembers_of_reaches reached i t room number receiver at_i sits found entry read
      have all := replayed_eq_drop ledger (numbered_of_earlier earlier numbered) answer
      have replayed : Once (stampsOf p.trace receiver.channel) replay := by
        rw [all]
        exact (once_stamps reached _).mono (List.Subset.refl _)
          ((List.drop_sublist _ _).trans earlier.sublist)
      refine replayed.append numbered live fun msg member yields => ?_
      have asks : t.args.asks = some since := by
        rw [connects] at asked ⊢
        exact asked
      have covers := covers_of_replayed answer member
      obtain ⟨-, unsent⟩ := apart_of_reaches reached apart i t room number receiver at_i sits found
        entry read since asks msg covers
      exact unsent (List.mem_of_mem_take (reads.yields.subset yields))

theorem delivers_body (call : RealtimeCall P) :
    (body hub call).Obeys call.Delivers (fun _ _ => True) [] := by
  cases call with
  | connect request rounds =>
      refine .bind (delivers_upgradeSince rounds) fun past result _ => ?_
      cases result with
      | error error => trivial
      | ok reason => trivial
  | _ => exact .of_true _ _

/-- What a connection writes next is still different from all it wrote. -/
theorem once_of_write (reached : (system hub).Reaches C initial p)
    (apart : ∀ q action, C q action → Apart q action) {i : ℕ} {t : RealtimeTask P}
    {msg : RealtimeMessage} {next : SendOutcome → RealtimeM P RealtimeReturn}
    {request : UpgradeRequest P} {rounds : ℕ} (at_i : p.tasks[i]? = some t)
    (connects : t.args = .connect request rounds)
    (awaits : t.rest = .await (.write (.message msg)) next) :
    ∃ channel, Once (stampsOf p.trace channel) (written t.past ++ [msg]) := by
  obtain ⟨room, number, inside⟩ := (reached.obeys_op rfl obeys_body at_i awaits).allows
  have sits : (Footing.of t.past).seat = some (room, number) := by
    rw [inside]
    rfl
  obtain ⟨receiver, -, found, -⟩ := seated reached t (List.mem_of_getElem? at_i) _ _ sits
  have delivers : t.args.Delivers t.past (.write (.message msg)) :=
    reached.obeys_op rfl delivers_body at_i awaits
  rw [connects] at delivers
  obtain ⟨rest, since, backlog, other, opened, balance⟩ := delivers
  refine ⟨receiver.channel, ?_⟩
  refine (once_of_opened reached apart at_i connects sits found opened).mono (List.Subset.refl _) ?_
  rw [← balance]
  exact (List.Sublist.refl _).append (List.singleton_sublist.mpr List.mem_cons_self)

/-- In a run in which no connection reads a backlog while a message it replays is on its way to its
receiver, every connection writes messages of one incarnation, each at most once. -/
theorem written_once (reached : (system hub).Reaches Apart initial p) {t : RealtimeTask P}
    {request : UpgradeRequest P} {rounds : ℕ} (started : t ∈ p.tasks)
    (connects : t.args = .connect request rounds) :
    ∃ channel, (∀ msg ∈ written t.past, msg ∈ stampsOf p.trace channel) ∧
      ((written t.past).map RealtimeMessage.version).Nodup := by
  suffices all : ∀ t ∈ p.tasks, ∀ request rounds, t.args = .connect request rounds →
      ∃ channel, Once (stampsOf p.trace channel) (written t.past) from
    all t started request rounds connects
  refine reached.invariant (P := fun p : RealtimePool P => ∀ t ∈ p.tasks, ∀ request rounds,
    t.args = .connect request rounds →
      ∃ channel, Once (stampsOf p.trace channel) (written t.past)) ?_ ?_
  · intro t started
    cases started
  · intro q r action before all side stepped
    obtain ⟨call, shared, args, rfl, arrived, rfl⟩ |
      ⟨i, choice, v, op, rest, shared, reply, rfl, found, awaits, served, rfl⟩ :=
      System.step_cases stepped
    · cases arrived
      intro t started request rounds connects
      rcases Pool.mem_start started with old | ⟨a, -, rfl⟩
      · exact all t old request rounds connects
      · exact ⟨0, nofun, .nil⟩
    · have later : ∀ {messages}, (∃ channel, Once (stampsOf q.trace channel) messages) →
          ∃ channel, Once (stampsOf (q.advance i v ⟨choice, op, reply⟩ shared (rest reply)).trace
            channel) messages := by
        rintro messages ⟨channel, once⟩
        refine ⟨channel, once.mono ?_ (List.Sublist.refl _)⟩
        rw [Pool.advance_trace, stampsOf_concat]
        exact List.subset_append_left _ _
      intro t started request rounds connects
      -- a task that writes nothing in this step has written the same
      have stays : ∀ u ∈ q.tasks, u.args = .connect request rounds → written t.past = written u.past →
          ∃ channel, Once (stampsOf (q.advance i v ⟨choice, op, reply⟩ shared (rest reply)).trace
            channel) (written t.past) := by
        intro u old connects same
        rw [same]
        exact later (all u old request rounds connects)
      rcases List.mem_or_eq_of_mem_set started with old | rfl
      · exact stays t old connects rfl
      · cases writes : writeOf (⟨choice, op, reply⟩ : RealtimeEvent P) with
        | none =>
            refine stays v (List.mem_of_getElem? found) connects ?_
            rw [written_cons, writes]
            exact List.append_nil _
        | some msg =>
            cases op_of_writeOf writes
            rw [written_cons, writes]
            exact later (once_of_write before (fun _ _ side => side) found connects awaits)

end Runs

/-- A player who saw the first of two moves reconnects, and then a third move is made. -/
def reconnectedRun : List (Action RealtimeChoice (RealtimeCall Unit)) :=
  [.arrive (.subscribe game 0), .arrive (.publish (moveMade 1)), .arrive (.publish (moveMade 2)),
    .arrive (.publish (moveMade 3)), .arrive (.connect ⟨(), game, some 1⟩ 1),
    .step 0 {}, .step 0 {}, .step 0 {}, .step 1 {}, .step 1 {}, .step 2 {}, .step 2 {},
    .step 4 {}, .step 4 {}, .step 4 {}, .step 4 {}, .step 4 {}, .step 4 {}, .step 4 {}, .step 4 {},
    .step 3 {}, .step 3 {}, .step 4 {}, .step 4 {}, .step 4 {}]

theorem written_once_reconnected :
    ∃ (p : RealtimePool Unit) (t : RealtimeTask Unit),
      (system {}).Reaches Apart initial p ∧ t ∈ p.tasks ∧
      t.args = .connect ⟨(), game, some 1⟩ 1 ∧ written t.past = [moveMade 2 2, moveMade 3 3] ∧
      ∃ channel, (∀ msg ∈ written t.past, msg ∈ stampsOf p.trace channel) ∧
        ((written t.past).map RealtimeMessage.version).Nodup := by
  have run : ((system {}).exec initial reconnectedRun).any (fun p : RealtimePool Unit =>
      (p.tasks[4]?).any fun t => decide (t.args = .connect ⟨(), game, some 1⟩ 1 ∧
        written t.past = [moveMade 2 2, moveMade 3 3])) = true := by
    decide +kernel
  obtain ⟨p, reached, facts⟩ := System.exists_reaches_of_exec (C := Apart) (by decide +kernel) run
  obtain ⟨t, at_four, facts⟩ := (Option.any_eq_true _ _).mp facts
  obtain ⟨connects, writes⟩ := of_decide_eq_true facts
  have started := List.mem_of_getElem? at_four
  exact ⟨p, t, reached, started, connects, writes, written_once reached started connects⟩

/-- The second move is stamped before the player reads the backlog and sent after that. -/
def twiceRun : List (Action RealtimeChoice (RealtimeCall Unit)) :=
  [.arrive (.subscribe game 0), .arrive (.publish (moveMade 1)), .arrive (.publish (moveMade 2)),
    .arrive (.connect ⟨(), game, some 1⟩ 1),
    .step 0 {}, .step 0 {}, .step 0 {}, .step 1 {}, .step 1 {},
    .step 3 {}, .step 3 {}, .step 3 {}, .step 3 {}, .step 3 {}, .step 2 {}, .step 3 {}, .step 3 {},
    .step 3 {}, .step 2 {}, .step 3 {}, .step 3 {}, .step 3 {}]

/-- The player is sent the second move twice. -/
theorem move_written_twice :
    ∃ (p : RealtimePool Unit) (t : RealtimeTask Unit), (system {}).Reaches System.Any initial p ∧
      t ∈ p.tasks ∧ written t.past = [moveMade 2 2, moveMade 2 2] ∧
      ¬ ((written t.past).map RealtimeMessage.version).Nodup := by
  have run : ((system {}).exec initial twiceRun).any (fun p : RealtimePool Unit =>
      (p.tasks[3]?).any fun t => decide (written t.past = [moveMade 2 2, moveMade 2 2])) = true := by
    decide +kernel
  obtain ⟨p, reached, twice⟩ := System.exists_reaches_of_exec (System.along_any _ _ _) run
  obtain ⟨t, at_three, twice⟩ := (Option.any_eq_true _ _).mp twice
  have writes := of_decide_eq_true twice
  refine ⟨p, t, reached, List.mem_of_getElem? at_three, writes, ?_⟩
  rw [writes]
  decide

end InMemoryHub

end Pharos
