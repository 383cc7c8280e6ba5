import Pharos.Async.Control
import Pharos.Realtime.Connection

/-!
# Where a task stands with the hub

Whatever a task is answered, it enters at most one room, sends what it has stamped, and leaves a
room by dropping its receiver, decrementing the count and removing the room if it has to.  Its
footing says how far it got, and `Move` says everything that one step can do to the hub.
-/

namespace Pharos

open Async

/-- How far a task got with the hub. -/
inductive Footing where
  | outside
  | stamped (sender : ℕ) (msg : RealtimeMessage)
  | inside (room : RoomId) (receiver : ℕ)
  | leaving (room : RoomId) (receiver : ℕ)
  | emptied (room : RoomId)
  | gone
  deriving DecidableEq

namespace Footing

variable {P : Type}

/-- The footing after one more operation. -/
def after : Footing → RealtimeEvent P → Footing
  | _, ⟨_, .entry room, receiver⟩ => .inside room receiver
  | _, ⟨_, .stampAndRetain _, some (sender, msg)⟩ => .stamped sender msg
  | _, ⟨_, .send _ _, _⟩ => .outside
  | .inside room receiver, ⟨_, .dropReceiver _, _⟩ => .leaving room receiver
  | .leaving room _, ⟨_, .decrement _, true⟩ => .emptied room
  | .leaving _ _, ⟨_, .decrement _, false⟩ => .gone
  | .emptied _, ⟨_, .removeIf _, _⟩ => .gone
  | footing, _ => footing

theorem after_decrement (room other : RoomId) (number : ℕ) (choice : RealtimeChoice)
    (collected : Bool) :
    (leaving room number).after (⟨choice, .decrement other, collected⟩ : RealtimeEvent P) =
      if collected then .emptied room else .gone := by
  cases collected with
  | true => rfl
  | false => rfl

/-- The footing of a task with a given past. -/
def of : List (RealtimeEvent P) → Footing
  | [] => .outside
  | event :: past => (of past).after event

/-- What a task may do from its footing. -/
def Allows (footing : Footing) : RealtimeOp P → Prop
  | .entry _ | .stampAndRetain _ => footing = .outside
  | .send sender msg => footing = .stamped sender msg
  | .get room => ∃ receiver, footing = .inside room receiver
  | .recv receiver | .opened _ _ receiver | .dropReceiver receiver =>
      ∃ room, footing = .inside room receiver
  | .decrement room => ∃ receiver, footing = .leaving room receiver
  | .removeIf room => footing = .emptied room
  | .write (.message _) => ∃ room receiver, footing = .inside room receiver
  | _ => True

/-- The task has no business with the hub left. -/
def Settled : Footing → Prop
  | .outside | .inside _ _ | .gone => True
  | .stamped _ _ | .leaving _ _ | .emptied _ => False

end Footing

/-! ## Every task keeps its footing -/

namespace InMemoryHub

section Control

variable {P : Type} {hub : InMemoryHub} {past : List (RealtimeEvent P)} {room : RoomId}
  {stream : RoomStream} {since : Option UInt64}

/-- The reply of a check of a room. -/
def checkOf : RealtimeEvent P → Option Bool
  | ⟨_, .containsKey _, found⟩ => some found
  | _ => none

/-- Whether the first check of a room found it. -/
def existed : List (RealtimeEvent P) → Option Bool
  | [] => none
  | event :: past => (existed past).or (checkOf event)

theorem existed_cons {found : Bool} (known : existed past = some found) (event : RealtimeEvent P) :
    existed (event :: past) = some found := by
  rw [existed, known]
  rfl

theorem existed_of_suffix {earlier : List (RealtimeEvent P)} {found : Bool}
    (did : earlier <:+ past) (known : existed earlier = some found) : existed past = some found := by
  obtain ⟨later, rfl⟩ := did
  induction later with
  | nil => exact known
  | cons event later ih => exact existed_cons ih event

/-- The entry of a room that was read. -/
def readOf : RealtimeEvent P → Option RoomEntry
  | ⟨_, .get _, entry⟩ => entry
  | _ => none

/-- The answer to a resumption, with what it asked for and its receiver. -/
def openOf : RealtimeEvent P → Option (Option UInt64 × Backlog × ℕ)
  | ⟨_, .opened since backlog number, _⟩ => some (since, backlog, number)
  | _ => none

/-- The operations of the hub, receiving apart. -/
def OfHub : RealtimeOp P → Prop
  | .containsKey _ | .len | .entry _ | .get _ | .opened _ _ _ => True
  | .stampAndRetain _ | .send _ _ => True
  | .dropReceiver _ | .decrement _ | .removeIf _ => True
  | _ => False

/-- The operations on a room that was entered. -/
def Lodged : RealtimeOp P → Prop
  | .get _ | .dropReceiver _ | .decrement _ | .removeIf _ => True
  | _ => False

theorem Lodged.ofHub {op : RealtimeOp P} (lodged : Lodged op) : OfHub op := by
  cases op with
  | get room => trivial
  | dropReceiver number => trivial
  | decrement room => trivial
  | removeIf room => trivial
  | _ => exact lodged.elim

theorem lodged_readBacklog {found : Bool} :
    (readBacklog hub room since found).Obeys (fun _ op => Lodged op) (fun _ _ => True) past := by
  cases since with
  | none => trivial
  | some since =>
      rw [readBacklog]
      split
      · trivial
      · split
        · trivial
        · refine .call (S := realtimeSignature P) trivial fun _ entry => ?_
          cases entry with
          | none => trivial
          | some entry => trivial

theorem lodged_dropStream :
    (dropStream stream).Obeys (fun _ op => Lodged op) (fun _ _ => True) past := by
  refine .call (S := realtimeSignature P) trivial fun _ _ => ?_
  refine .call (S := realtimeSignature P) trivial fun _ collected => ?_
  cases collected with
  | true => exact .call (S := realtimeSignature P) trivial fun _ _ => trivial
  | false => trivial

/-- A subscription that is handed out was opened. -/
def HandsOut (past : List (RealtimeEvent P)) : Except RealtimeError (Backlog × RoomStream) → Prop
  | .ok (backlog, _) => ∃ since number, (since, backlog, number) ∈ past.filterMap openOf
  | .error _ => True

theorem ofHub_registerSubscriber :
    (registerSubscriber hub room).Obeys (fun _ op => OfHub op) (fun _ _ => True) past := by
  refine .call (S := realtimeSignature P) trivial fun _ found => ?_
  cases found with
  | true => exact .call (S := realtimeSignature P) trivial fun _ _ => trivial
  | false =>
      refine .call (S := realtimeSignature P) trivial fun _ rooms => ?_
      show Program.Obeys _ _ (if hub.maxRooms ≤ rooms then _ else _) _
      split
      · trivial
      · exact .call (S := realtimeSignature P) trivial fun _ _ => trivial

theorem ofHub_readBacklog {found : Bool} :
    (readBacklog hub room since found).Obeys (fun _ op => OfHub op) (fun _ _ => True) past :=
  lodged_readBacklog.weaken fun _ _ lodged => lodged.ofHub

theorem ofHub_subscribeSince :
    (subscribeSince hub room since).Obeys (fun _ op => OfHub op) HandsOut past := by
  refine .call (S := realtimeSignature P) trivial fun _ found => ?_
  refine .bind (Q := fun _ _ => True) ofHub_registerSubscriber fun past result _ => ?_
  cases result with
  | error error => trivial
  | ok stream =>
      refine .bind (Q := fun _ _ => True) ofHub_readBacklog fun past backlog _ => ?_
      refine .call (S := realtimeSignature P) trivial fun _ _ => ?_
      exact ⟨since, stream.receiver, List.mem_cons_self⟩

theorem ofHub_dropStream :
    (dropStream stream).Obeys (fun _ op => OfHub op) (fun _ _ => True) past :=
  lodged_dropStream.weaken fun _ _ lodged => lodged.ofHub

/-- A replay is what the backlog had, and the room existed before the task registered. -/
def Answers (since : Option UInt64) (past : List (RealtimeEvent P)) : Backlog → Prop
  | .replayed missed => existed past = some true ∧ ∃ value entry, since = some value ∧
      entry ∈ past.filterMap readOf ∧ resume value entry = .replayed missed
  | _ => True

/-- What a task does is allowed by its footing, and it answers with what it has read. -/
def Keeps (since : Option UInt64) (past : List (RealtimeEvent P)) : RealtimeOp P → Prop
  | .opened asked backlog receiver => (∃ room, Footing.of past = .inside room receiver) ∧
      asked = since ∧ Answers since past backlog
  | op => (Footing.of past).Allows op

theorem Keeps.allows {op : RealtimeOp P} (keeps : Keeps since past op) :
    (Footing.of past).Allows op := by
  cases op with
  | opened since backlog receiver => exact keeps.1
  | _ => exact keeps

/-- A registration leaves the task inside the room, or outside if it was refused. -/
def Registered (room : RoomId) (before past : List (RealtimeEvent P)) :
    Except RealtimeError RoomStream → Prop
  | .ok stream => stream.room = room ∧ Footing.of past = .inside room stream.receiver ∧
      ∀ found, existed before = some found → existed past = some found
  | .error _ => Footing.of past = .outside

theorem obeys_join {before : List (RealtimeEvent P)} (outside : Footing.of past = .outside)
    (stays : ∀ found, existed before = some found → existed past = some found) :
    (join room).Obeys (Keeps since) (Registered room before) past :=
  .call (S := realtimeSignature P) outside fun _ _ =>
    ⟨rfl, rfl, fun found known => existed_cons (stays found known) _⟩

theorem obeys_registerSubscriber (outside : Footing.of past = .outside) :
    (registerSubscriber hub room).Obeys (Keeps since) (Registered room past) past := by
  refine .call (S := realtimeSignature P) trivial fun _ found => ?_
  cases found with
  | true => exact obeys_join outside fun _ known => existed_cons known _
  | false =>
      refine .call (S := realtimeSignature P) trivial fun _ rooms => ?_
      show Program.Obeys _ _ (if hub.maxRooms ≤ rooms then _ else _) _
      split
      · exact outside
      · exact obeys_join outside fun _ known => existed_cons (existed_cons known _) _

theorem obeys_readBacklog {found : Bool} {receiver : ℕ}
    (inside : Footing.of past = .inside room receiver) (known : existed past = some found) :
    (readBacklog hub room since found).Obeys (Keeps since)
      (fun past backlog => Footing.of past = .inside room receiver ∧ Answers since past backlog)
      past := by
  cases since with
  | none => exact ⟨inside, trivial⟩
  | some since =>
      rw [readBacklog]
      split
      · exact ⟨inside, trivial⟩
      · split
        · exact ⟨inside, trivial⟩
        · next there =>
          refine .call (S := realtimeSignature P) ⟨receiver, inside⟩ fun choice entry => ?_
          cases entry with
          | none => exact ⟨inside, trivial⟩
          | some entry =>
              refine ⟨inside, ?_⟩
              cases answer : resume since entry with
              | replayed missed =>
                  refine ⟨?_, since, entry, rfl, List.mem_cons_self, answer⟩
                  rw [existed_cons known, Bool.eq_true_of_not_eq_false there]
              | gap oldest => trivial
              | unavailable => trivial

/-- A resumption leaves the task inside the room, or outside if it was refused. -/
def Resumed (room : RoomId) (past : List (RealtimeEvent P)) :
    Except RealtimeError (Backlog × RoomStream) → Prop
  | .ok (_, stream) => stream.room = room ∧ Footing.of past = .inside room stream.receiver
  | .error _ => Footing.of past = .outside

theorem obeys_subscribeSince (outside : Footing.of past = .outside)
    (unchecked : existed past = none) :
    (subscribeSince hub room since).Obeys (Keeps since) (Resumed room) past := by
  refine .call (S := realtimeSignature P) trivial fun choice found => ?_
  have known : existed (⟨choice, .containsKey room, found⟩ :: past) = some found := by
    rw [existed, unchecked]
    rfl
  refine .bind (Q := Registered room _) (obeys_registerSubscriber outside)
    fun past result registered => ?_
  cases result with
  | error error => exact registered
  | ok stream =>
      obtain ⟨rfl, inside, stays⟩ := registered
      refine (obeys_readBacklog inside (stays found known)).bind fun past backlog answered => ?_
      obtain ⟨inside, answers⟩ := answered
      exact .call (S := realtimeSignature P) ⟨⟨_, inside⟩, rfl, answers⟩ fun _ _ => ⟨rfl, inside⟩

theorem obeys_publish {msg : RealtimeMessage} (outside : Footing.of past = .outside) :
    (publish msg).Obeys (Keeps since) (fun past _ => Footing.of past = .outside) past := by
  refine .call (S := realtimeSignature P) outside fun _ found => ?_
  cases found with
  | none => exact outside
  | some stamped => exact .call (S := realtimeSignature P) rfl fun _ _ => rfl

theorem obeys_dropStream (inside : Footing.of past = .inside stream.room stream.receiver) :
    (dropStream stream).Obeys (Keeps since) (fun past _ => Footing.of past = .gone) past := by
  refine .call (S := realtimeSignature P) ⟨_, inside⟩ fun first dropped => ?_
  have leaving : Footing.of (⟨first, .dropReceiver stream.receiver, dropped⟩ :: past) =
      .leaving stream.room stream.receiver := by
    rw [Footing.of, inside]
    rfl
  refine .call (S := realtimeSignature P) ⟨_, leaving⟩ fun second collected => ?_
  cases collected with
  | false =>
      show Footing.of _ = _
      rw [Footing.of, leaving]
      rfl
  | true =>
      have emptied : Footing.of (⟨second, .decrement stream.room, true⟩ ::
          ⟨first, .dropReceiver stream.receiver, dropped⟩ :: past) = .emptied stream.room := by
        rw [Footing.of, leaving]
        rfl
      refine .call (S := realtimeSignature P) emptied fun third removed => ?_
      show Footing.of _ = _
      rw [Footing.of, emptied]
      rfl

theorem obeys_listen (listens : ℕ) {receiver : ℕ}
    (inside : Footing.of past = .inside room receiver) :
    (listen ⟨room, receiver⟩ listens).Obeys (Keeps since)
      (fun past _ => Footing.of past = .inside room receiver) past := by
  induction listens generalizing past with
  | zero => exact inside
  | succ listens ih =>
      refine .call (S := realtimeSignature P) ⟨_, inside⟩ fun choice received => ?_
      cases received with
      | none => exact inside
      | some msg => exact ih inside

theorem obeys_attend (listens : ℕ) (inside : Footing.of past = .inside stream.room stream.receiver) :
    (attend stream listens).Obeys (Keeps since) (fun past _ => (Footing.of past).Settled) past := by
  refine .bind (obeys_listen listens inside) fun past _ inside => ?_
  refine .bind (obeys_dropStream inside) fun past _ gone => ?_
  show (Footing.of past).Settled
  rw [gone]
  trivial

end Control

end InMemoryHub

namespace Connection

section Control

open InMemoryHub

variable {P : Type} {hub : InMemoryHub} {past : List (RealtimeEvent P)} {connection : Connection P}
  {stream : RoomStream} {footing : Footing} {since : Option UInt64}

theorem obeys_sendBounded {outbound : Outbound} (same : Footing.of past = footing)
    (allowed : Keeps since past (.write outbound)) :
    (sendBounded outbound).Obeys (Keeps since) (fun past _ => Footing.of past = footing) past := by
  refine .call (S := realtimeSignature P) allowed fun _ outcome => ?_
  cases outcome with
  | sent => exact same
  | failed => exact same
  | timedOut => exact same

theorem obeys_replay (missed : List RealtimeMessage)
    (inside : Footing.of past = .inside stream.room stream.receiver) :
    (replay missed).Obeys (Keeps since)
      (fun past _ => Footing.of past = .inside stream.room stream.receiver) past := by
  induction missed generalizing past with
  | nil => exact inside
  | cons message missed ih =>
      refine .bind (obeys_sendBounded inside ⟨_, _, inside⟩) fun past result inside => ?_
      cases result with
      | error reason => exact inside
      | ok _ => exact ih inside

theorem obeys_outbound (inside : Footing.of past = .inside stream.room stream.receiver) :
    (outbound stream).Obeys (Keeps since)
      (fun past _ => Footing.of past = .inside stream.room stream.receiver) past := by
  refine .call (S := realtimeSignature P) ⟨_, inside⟩ fun _ received => ?_
  cases received with
  | none => exact inside
  | some message =>
      refine .bind (Q := fun past _ => Footing.of past = .inside stream.room stream.receiver)
        (obeys_sendBounded inside ⟨_, _, inside⟩) fun past result inside => ?_
      cases result with
      | error reason => exact inside
      | ok _ => exact inside

/-- What the client and the app see of a connection, its room messages apart. -/
def Aside : RealtimeOp P → Prop
  | .authenticate _ | .authorize _ _ _ | .select | .nextFrame | .tryAcquire | .overdue => True
  | .onMessage _ _ _ | .closeSink => True
  | .write (.message _) => False
  | .write _ => True
  | _ => False

/-- The program does nothing with the hub, and writes no room message. -/
abbrev StaysAside {α : Type} (program : RealtimeM P α) (past : List (RealtimeEvent P)) : Prop :=
  program.Obeys (fun _ op => Aside op) (fun _ _ => True) past

/-- A send ends as allowed, and its reason is not a failed subscription. -/
theorem sends_sendBounded {A : List (RealtimeEvent P) → RealtimeOp P → Prop} {outbound : Outbound}
    (allowed : A past (.write outbound)) :
    (sendBounded outbound).Obeys A (fun _ result => result ≠ .error .subscribeFailed) past := by
  refine .call (S := realtimeSignature P) allowed fun _ outcome => ?_
  cases outcome with
  | sent => exact nofun
  | failed => exact nofun
  | timedOut => exact nofun

theorem reason_ne_of_error {reason : CloseReason}
    (other : (.error reason : Except CloseReason Unit) ≠ .error .subscribeFailed) :
    some reason ≠ some .subscribeFailed :=
  fun same => other (congrArg Except.error (Option.some.inj same))

theorem aside_handle {payload : List UInt8} :
    (connection.handle payload).Obeys (fun _ op => Aside op)
      (fun _ reason => reason ≠ some .subscribeFailed) past := by
  refine .call (S := realtimeSignature P) trivial fun _ acquired => ?_
  cases acquired with
  | false => exact nofun
  | true =>
      refine .call (S := realtimeSignature P) trivial fun _ authorized => ?_
      cases authorized with
      | error error => exact nofun
      | ok _ =>
          refine .call (S := realtimeSignature P) trivial fun _ handled => ?_
          rcases handled with _ | (error | _ | reply)
          · exact nofun
          · exact nofun
          · exact nofun
          · refine .bind (sends_sendBounded trivial) fun past result other => ?_
            cases result with
            | error reason => exact reason_ne_of_error other
            | ok _ => exact nofun

theorem aside_inbound :
    connection.inbound.Obeys (fun _ op => Aside op)
      (fun _ reason => reason ≠ some .subscribeFailed) past := by
  refine .call (S := realtimeSignature P) trivial fun _ frame => ?_
  rcases frame with _ | (error | frame)
  · exact nofun
  · exact nofun
  · cases frame with
    | binary bytes => exact aside_handle
    | text text => exact aside_handle
    | ping => exact nofun
    | pong => exact nofun
    | close => exact nofun

theorem aside_stillAuthorized : StaysAside connection.stillAuthorized past := by
  refine .call (S := realtimeSignature P) trivial fun _ authenticated => ?_
  cases authenticated with
  | error error => trivial
  | ok identity =>
      show Program.Obeys _ _ (if identity ≠ connection.identity then _ else _) _
      split
      · trivial
      · refine .call (S := realtimeSignature P) trivial fun _ authorized => ?_
        cases authorized with
        | error error => trivial
        | ok _ => trivial

theorem aside_revalidate :
    connection.revalidate.Obeys (fun _ op => Aside op)
      (fun _ reason => reason ≠ some .subscribeFailed) past := by
  refine .bind aside_stillAuthorized fun past still _ => ?_
  cases still with
  | true => exact nofun
  | false => exact .bind (sends_sendBounded trivial) fun _ _ _ => nofun

theorem aside_heartbeat :
    (heartbeat (P := P)).Obeys (fun _ op => Aside op)
      (fun _ reason => reason ≠ some .subscribeFailed) past := by
  refine .call (S := realtimeSignature P) trivial fun _ late => ?_
  cases late with
  | true => exact .bind (sends_sendBounded trivial) fun _ _ _ => nofun
  | false =>
      refine .bind (sends_sendBounded trivial) fun past result other => ?_
      cases result with
      | error reason => exact reason_ne_of_error other
      | ok _ => exact nofun

theorem Aside.keeps {op : RealtimeOp P} (aside : Aside op) : Keeps since past op := by
  cases op with
  | write outbound =>
      cases outbound with
      | message msg => exact aside.elim
      | _ => trivial
  | authenticate parts => trivial
  | authorize identity room access => trivial
  | select => trivial
  | nextFrame => trivial
  | tryAcquire => trivial
  | onMessage identity room payload => trivial
  | overdue => trivial
  | closeSink => trivial
  | _ => exact aside.elim

theorem Aside.after {event : RealtimeEvent P} (aside : Aside event.op) (footing : Footing) :
    footing.after event = footing := by
  obtain ⟨choice, op, reply⟩ := event
  cases op with
  | entry room => exact aside.elim
  | stampAndRetain msg => exact aside.elim
  | send sender msg => exact aside.elim
  | dropReceiver number => exact aside.elim
  | decrement room => exact aside.elim
  | removeIf room => exact aside.elim
  | _ => rfl

theorem obeys_of_aside {α : Type} {program : RealtimeM P α}
    {Q : List (RealtimeEvent P) → α → Prop}
    (aside : program.Obeys (fun _ op => Aside op) Q past) (same : Footing.of past = footing) :
    program.Obeys (Keeps since) (fun past _ => Footing.of past = footing) past := by
  refine (aside.keeping (I := fun past => Footing.of past = footing) same
    (fun _ _ aside _ => aside.keeps) fun past event aside same => ?_).mono fun _ _ kept => kept.2
  rw [Footing.of, aside.after]
  exact same

theorem obeys_round (inside : Footing.of past = .inside stream.room stream.receiver) :
    (connection.round stream).Obeys (Keeps since)
      (fun past _ => Footing.of past = .inside stream.room stream.receiver) past := by
  refine .call (S := realtimeSignature P) trivial fun _ branch => ?_
  cases branch with
  | outbound => exact obeys_outbound inside
  | inbound => exact obeys_of_aside aside_inbound inside
  | revalidate => exact obeys_of_aside aside_revalidate inside
  | heartbeat => exact obeys_of_aside aside_heartbeat inside

theorem obeys_pump (rounds : ℕ) (inside : Footing.of past = .inside stream.room stream.receiver) :
    (connection.pump stream rounds).Obeys (Keeps since)
      (fun past _ => Footing.of past = .inside stream.room stream.receiver) past := by
  induction rounds generalizing past with
  | zero => exact inside
  | succ rounds ih =>
      refine .bind (obeys_round inside) fun past reason inside => ?_
      cases reason with
      | some reason => exact inside
      | none => exact ih inside

theorem obeys_run (rounds : ℕ) (outside : Footing.of past = .outside)
    (unchecked : existed past = none) :
    (run hub connection rounds).Obeys (Keeps connection.since)
      (fun past _ => (Footing.of past).Settled) past := by
  have ends : ∀ {past : List (RealtimeEvent P)} {footing : Footing},
      Footing.of past = footing → footing.Settled → (Footing.of past).Settled := by
    intro past footing same settled
    rw [same]
    exact settled
  refine .bind (obeys_subscribeSince outside unchecked) fun past result resumed => ?_
  rcases result with error | ⟨backlog, stream⟩
  · exact .bind (obeys_sendBounded resumed trivial) fun _ _ same => ends same trivial
  · obtain ⟨here, inside⟩ := resumed
    rw [← here] at inside
    refine .bind (obeys_replay (missed backlog) inside) fun past result inside => ?_
    cases result with
    | error reason => exact .bind (obeys_dropStream inside) fun _ _ gone => ends gone trivial
    | ok _ =>
        refine .bind (obeys_pump rounds inside) fun past reason inside => ?_
        cases reason with
        | none => exact ends inside trivial
        | some reason =>
            refine .call (S := realtimeSignature P) trivial fun _ _ => ?_
            exact .bind (Q := fun past _ => Footing.of past = .gone) (obeys_dropStream inside)
              fun _ _ gone => ends gone trivial

theorem obeys_upgradeSince {request : UpgradeRequest P} (rounds : ℕ)
    (outside : Footing.of past = .outside) (unchecked : existed past = none) :
    (upgradeSince hub request rounds).Obeys (Keeps request.since)
      (fun past _ => (Footing.of past).Settled) past := by
  have settled : (Footing.of past).Settled := by
    rw [outside]
    trivial
  refine .call (S := realtimeSignature P) trivial fun _ authenticated => ?_
  cases authenticated with
  | error error => exact settled
  | ok identity =>
      refine .call (S := realtimeSignature P) trivial fun _ authorized => ?_
      cases authorized with
      | error error => exact settled
      | ok _ =>
          refine .bind (Q := fun past _ => (Footing.of past).Settled)
            (obeys_run rounds outside ?_) fun _ _ settled => settled
          rw [existed, existed, unchecked]
          rfl

end Control

end Connection

/-- The version that a call asks to resume after. -/
def RealtimeCall.since {P : Type} : RealtimeCall P → Option UInt64
  | .publish _ | .subscribe _ _ => none
  | .resume _ since _ _ => since
  | .connect request _ => request.since

namespace InMemoryHub

variable {P : Type} {hub : InMemoryHub}

/-- Every task keeps its footing, and settles before it returns. -/
theorem obeys_body (call : RealtimeCall P) :
    (body hub call).Obeys (Keeps call.since) (fun past _ => (Footing.of past).Settled) [] := by
  cases call with
  | publish msg =>
      refine .bind (obeys_publish rfl) fun past _ outside => ?_
      show (Footing.of past).Settled
      rw [outside]
      trivial
  | subscribe room listens =>
      refine .bind (obeys_registerSubscriber rfl) fun past result registered => ?_
      cases result with
      | error error =>
          show (Footing.of past).Settled
          rw [show Footing.of past = .outside from registered]
          trivial
      | ok stream =>
          obtain ⟨here, inside, -⟩ := registered
          rw [← here] at inside
          exact obeys_attend listens inside
  | resume room since last listens =>
      refine .bind (obeys_subscribeSince rfl rfl) fun past result resumed => ?_
      rcases result with error | ⟨backlog, stream⟩
      · show (Footing.of past).Settled
        rw [show Footing.of past = .outside from resumed]
        trivial
      · obtain ⟨here, inside⟩ := resumed
        rw [← here] at inside
        exact obeys_attend listens inside
  | connect request rounds =>
      refine .bind (Connection.obeys_upgradeSince rounds rfl rfl) fun past result settled => ?_
      cases result with
      | error error => exact settled
      | ok reason => exact settled

/-! ## What a step can do to the hub -/

/-- A message that got its version, with the channel it is for. -/
def stampOf : RealtimeEvent P → Option (ℕ × RealtimeMessage)
  | ⟨_, .stampAndRetain _, stamped⟩ => stamped
  | _ => none

/-- A message that went out, with its channel. -/
def sendOf : RealtimeEvent P → Option (ℕ × RealtimeMessage)
  | ⟨_, .send sender msg, _⟩ => some (sender, msg)
  | _ => none

/-- A message that a stream yielded. -/
def yieldOf : RealtimeEvent P → Option RealtimeMessage
  | ⟨_, .recv _, received⟩ => received
  | _ => none

/-- The operation has nothing to do with rooms, receivers or channels. -/
def Calm : RealtimeEvent P → Prop
  | ⟨_, .entry _, _⟩ | ⟨_, .get _, _⟩ | ⟨_, .send _ _, _⟩ | ⟨_, .recv _, _⟩ => False
  | ⟨_, .dropReceiver _, _⟩ => False
  | ⟨_, .decrement _, _⟩ | ⟨_, .removeIf _, _⟩ | ⟨_, .stampAndRetain _, some _⟩ => False
  | _ => True

namespace Calm

variable {event : RealtimeEvent P}

theorem after (calm : Calm event) (footing : Footing) : footing.after event = footing := by
  obtain ⟨choice, op, reply⟩ := event
  cases op with
  | stampAndRetain msg =>
      cases reply with
      | none => rfl
      | some stamped => exact calm.elim
  | entry room => exact calm.elim
  | send sender msg => exact calm.elim
  | dropReceiver number => exact calm.elim
  | decrement room => exact calm.elim
  | removeIf room => exact calm.elim
  | _ => rfl

theorem stampOf (calm : Calm event) : stampOf event = none := by
  obtain ⟨choice, op, reply⟩ := event
  cases op with
  | stampAndRetain msg =>
      cases reply with
      | none => rfl
      | some stamped => exact calm.elim
  | _ => rfl

theorem sendOf (calm : Calm event) : sendOf event = none := by
  obtain ⟨choice, op, reply⟩ := event
  cases op with
  | send sender msg => exact calm.elim
  | _ => rfl

theorem yieldOf (calm : Calm event) : yieldOf event = none := by
  obtain ⟨choice, op, reply⟩ := event
  cases op with
  | recv number => exact calm.elim
  | _ => rfl

theorem readOf (calm : Calm event) : readOf event = none := by
  obtain ⟨choice, op, reply⟩ := event
  cases op with
  | get room => exact calm.elim
  | _ => rfl

end Calm

/-- A task on a given footing performs an operation, and the hub changes. -/
inductive Move (hub : InMemoryHub) (s : HubShared) : Footing → RealtimeEvent P → HubShared → Prop
  | quiet {footing : Footing} {event : RealtimeEvent P} (calm : Calm event) :
      Move hub s footing event s
  | enter {choice : RealtimeChoice} {room : RoomId} :
      Move hub s .outside ⟨choice, .entry room, s.receivers.length⟩ (enter s room)
  | read {choice : RealtimeChoice} {room : RoomId} {number : ℕ} :
      Move hub s (.inside room number) ⟨choice, .get room, s.rooms.get room⟩ s
  | stamp {choice : RealtimeChoice} {msg : RealtimeMessage} {entry : RoomEntry}
      (found : s.rooms.get msg.room = some entry) :
      Move hub s .outside
        ⟨choice, .stampAndRetain msg, some (entry.sender, (hub.stampAndRetain entry msg).2)⟩
        { s with
          rooms := s.rooms.put msg.room (hub.stampAndRetain entry msg).1
          clones := entry.sender :: s.clones }
  | send {choice : RealtimeChoice} {sender : ℕ} {msg : RealtimeMessage} :
      Move hub s (.stamped sender msg) ⟨choice, .send sender msg, ()⟩
        { s with
          receivers := s.receivers.map (deliver sender msg)
          clones := s.clones.erase sender }
  | receive {choice : RealtimeChoice} {room : RoomId} {number : ℕ} {receiver : Receiver}
      {msg : RealtimeMessage} (found : s.receivers[number]? = some receiver)
      (there : receiver.sent[hub.position receiver]? = some msg) :
      Move hub s (.inside room number) ⟨choice, .recv number, some msg⟩
        { s with
          receivers := s.receivers.set number { receiver with next := hub.position receiver + 1 } }
  | ended {choice : RealtimeChoice} {room : RoomId} {number : ℕ} {receiver : Receiver}
      (found : s.receivers[number]? = some receiver) (alone : ¬ Connected s receiver) :
      Move hub s (.inside room number) ⟨choice, .recv number, none⟩ s
  | dropReceiver {choice : RealtimeChoice} {room : RoomId} {number : ℕ} :
      Move hub s (.inside room number) ⟨choice, .dropReceiver number, ()⟩
        { s with
          receivers := s.receivers.modify number fun receiver =>
            { receiver with attached := false } }
  | decrement {choice : RealtimeChoice} {room : RoomId} {number : ℕ} {entry : RoomEntry}
      (found : s.rooms.get room = some entry) :
      Move hub s (.leaving room number)
        ⟨choice, .decrement room, entry.subscribers - 1 == 0⟩
        { s with rooms := s.rooms.put room { entry with subscribers := entry.subscribers - 1 } }
  | miss {choice : RealtimeChoice} {room : RoomId} {number : ℕ}
      (missing : s.rooms.get room = none) :
      Move hub s (.leaving room number) ⟨choice, .decrement room, false⟩ s
  | remove {choice : RealtimeChoice} {room : RoomId} {entry : RoomEntry}
      (found : s.rooms.get room = some entry) (empty : entry.subscribers = 0) :
      Move hub s (.emptied room) ⟨choice, .removeIf room, ()⟩
        { s with rooms := s.rooms.remove room }
  | keep {choice : RealtimeChoice} {room : RoomId}
      (occupied : ∀ entry, s.rooms.get room = some entry → entry.subscribers ≠ 0) :
      Move hub s (.emptied room) ⟨choice, .removeIf room, ()⟩ s

/-- An allowed operation is one of these moves. -/
theorem move_of_serve {s s' : HubShared} {choice : RealtimeChoice} {op : RealtimeOp P}
    {reply : op.Reply} {footing : Footing} (allowed : footing.Allows op)
    (served : serve hub s choice op = some (s', reply)) :
    Move hub s footing ⟨choice, op, reply⟩ s' := by
  cases op with
  | entry room =>
      cases served
      cases allowed
      exact .enter
  | get room =>
      cases served
      obtain ⟨number, rfl⟩ := allowed
      exact .read
  | stampAndRetain msg =>
      have answered : serve (P := P) hub s choice (.stampAndRetain msg) = some (s', reply) := served
      cases allowed
      rw [serve] at answered
      split at answered
      · cases answered
        exact .quiet trivial
      · next entry found =>
        cases answered
        exact .stamp found
  | send sender msg =>
      cases served
      cases allowed
      exact .send
  | recv number =>
      have answered : serve (P := P) hub s choice (.recv number) = some (s', reply) := served
      obtain ⟨room, rfl⟩ := allowed
      rw [serve] at answered
      split at answered
      · cases answered
      · next receiver found =>
        rw [receive] at answered
        split at answered
        · next msg there =>
          cases answered
          exact .receive found there
        · split at answered
          · cases answered
          · next alone =>
            cases answered
            exact .ended found alone
  | dropReceiver number =>
      cases served
      obtain ⟨room, rfl⟩ := allowed
      exact .dropReceiver
  | decrement room =>
      have answered : serve (P := P) hub s choice (.decrement room) = some (s', reply) := served
      obtain ⟨number, rfl⟩ := allowed
      rw [serve] at answered
      split at answered
      · next missing =>
        cases answered
        exact .miss missing
      · next entry found =>
        cases answered
        exact .decrement found
  | removeIf room =>
      have answered : serve (P := P) hub s choice (.removeIf room) = some (s', reply) := served
      cases allowed
      rw [serve] at answered
      split at answered
      · next missing =>
        cases answered
        refine .keep fun entry found => ?_
        cases missing.symm.trans found
      · next entry found =>
        split at answered
        · next empty =>
          cases answered
          exact .remove found empty
        · next occupied =>
          cases answered
          refine .keep fun other same => ?_
          cases found.symm.trans same
          exact occupied
  | _ =>
      cases served
      exact .quiet trivial

section Runs

variable {C : RealtimePool P → Action RealtimeChoice (RealtimeCall P) → Prop} {p : RealtimePool P}

theorem move_of_reaches (reached : (system hub).Reaches C initial p) {i : ℕ} {t : RealtimeTask P}
    {op : RealtimeOp P} {next : op.Reply → RealtimeM P RealtimeReturn} {choice : RealtimeChoice}
    {shared : HubShared} {reply : op.Reply} (found : p.tasks[i]? = some t)
    (awaits : t.rest = .await op next)
    (served : serve hub p.shared choice op = some (shared, reply)) :
    Move hub p.shared (.of t.past) ⟨choice, op, reply⟩ shared :=
  move_of_serve (reached.obeys_op rfl obeys_body found awaits).allows served

/-- What holds of a new hub and is kept by arrivals and by moves holds on every run. -/
theorem invariant_of_moves {Q : RealtimePool P → Prop} (reached : (system hub).Reaches C initial p)
    (start : Q initial)
    (arrives : ∀ {q call}, Q q → Q (q.start (body hub) q.shared [call]))
    (moves : ∀ {q i t event shared rest choice}, (system hub).Reaches C initial q → Q q →
      C q (.step i choice) → q.tasks[i]? = some t → t.rest.awaited = some event.op →
      Move hub q.shared (.of t.past) event shared → Q (q.advance i t event shared rest)) : Q p := by
  refine reached.invariant (P := Q) start ?_
  intro q r action before holds side stepped
  obtain ⟨call, shared, args, rfl, arrived, rfl⟩ |
    ⟨i, choice, t, op, next, shared, reply, rfl, found, awaits, served, rfl⟩ :=
    System.step_cases stepped
  · cases arrived
    exact arrives holds
  · refine moves before holds side found ?_ (move_of_reaches before found awaits served)
    rw [awaits]
    rfl

end Runs

end InMemoryHub

end Pharos
