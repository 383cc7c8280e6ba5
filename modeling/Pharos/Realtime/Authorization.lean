import Pharos.Realtime.Rooms

/-!
# What a connection is allowed to do

Whatever the authenticator, the authorizer, the rate limiter and the client answer, and whichever
branch of the pump is taken: a connection subscribes for the identity of its upgrade, hands a frame
to the app right after that identity was allowed to publish it, and after a revalidation that failed
it only closes.
-/

namespace Pharos

open Async

/-- The payload of a frame that carries one. -/
def WsMessage.payload? : WsMessage → Option (List UInt8)
  | .binary payload | .text payload => some payload
  | .ping | .pong | .close => none

/-- The operations that open and read a subscription. -/
def RealtimeOp.Subscribes {P : Type} : RealtimeOp P → Prop
  | .containsKey _ | .len | .entry _ | .get _ | .opened _ _ _ | .recv _ => True
  | _ => False

/-- The operations that hand the app a frame, or the client a room message or a reply. -/
def RealtimeOp.Serves {P : Type} : RealtimeOp P → Prop
  | .onMessage _ _ _ | .write (.message _) | .write (.reply _) => True
  | _ => False

namespace Connection

open InMemoryHub

section Control

variable {P : Type} {hub : InMemoryHub} {past : List (RealtimeEvent P)} {event : RealtimeEvent P}
  {request : UpgradeRequest P} {identity : Identity} {connection : Connection P} {stream : RoomStream}

/-- The identity was authenticated and allowed to subscribe, before anything else was done. -/
def Upgraded (request : UpgradeRequest P) (identity : Identity) (past : List (RealtimeEvent P)) :
    Prop :=
  ∃ first second, [⟨second, .authorize identity request.room .subscribe, .ok ()⟩,
    ⟨first, .authenticate request.parts, .ok identity⟩] <:+ past

/-- The identity was not confirmed, or lost its access. -/
def Fails (identity : Identity) : RealtimeEvent P → Prop
  | ⟨_, .authenticate _, answer⟩ => answer ≠ .ok identity
  | ⟨_, .authorize _ _ .subscribe, answer⟩ => answer ≠ .ok ()
  | _ => False

/-- The identity of the upgrade was confirmed each time. -/
def Live (request : UpgradeRequest P) (identity : Identity) (past : List (RealtimeEvent P)) : Prop :=
  Upgraded request identity past ∧ ∀ event ∈ past, ¬ Fails identity event

/-- The payload came in the frame just received, which passed the rate limiter and which the
identity was just allowed to publish. -/
def Permitted (identity : Identity) (room : RoomId) (payload : List UInt8)
    (past : List (RealtimeEvent P)) : Prop :=
  ∃ first second third frame earlier, WsMessage.payload? frame = some payload ∧
    past = ⟨third, .authorize identity room .publish, .ok ()⟩ :: ⟨second, .tryAcquire, true⟩ ::
      ⟨first, .nextFrame, some (.ok frame)⟩ :: earlier

theorem Upgraded.cons (upgraded : Upgraded request identity past) (event : RealtimeEvent P) :
    Upgraded request identity (event :: past) := by
  obtain ⟨first, second, done⟩ := upgraded
  exact ⟨first, second, done.trans (List.suffix_cons event past)⟩

/-- A connection has one identity. -/
theorem Upgraded.unique {other : Identity} (upgraded : Upgraded request identity past)
    (upgraded' : Upgraded request other past) : identity = other := by
  obtain ⟨first, second, done⟩ := upgraded
  obtain ⟨first', second', done'⟩ := upgraded'
  have same := (List.suffix_of_suffix_length_le done done' (Nat.le_refl _)).eq_of_length rfl
  cases same
  rfl

theorem Live.cons (live : Live request identity past) (passes : ¬ Fails identity event) :
    Live request identity (event :: past) := by
  refine ⟨live.1.cons event, fun other member => ?_⟩
  rcases List.mem_cons.mp member with rfl | earlier
  · exact passes
  · exact live.2 other earlier

/-- What a connection for a request may do next. -/
def Guards (request : UpgradeRequest P) (past : List (RealtimeEvent P)) : RealtimeOp P → Prop
  | .authenticate _ | .authorize _ _ _ => True
  | .onMessage identity room payload => room = request.room ∧ Live request identity past ∧
      Permitted identity room payload past
  | .write (.message _) | .write (.reply _) => ∃ identity, Live request identity past
  | _ => ∃ identity, Upgraded request identity past

theorem guards_sendBounded {outbound : Outbound} (live : Live request identity past) :
    (sendBounded outbound).Obeys (Guards request) (fun past _ => Live request identity past) past := by
  have allowed : Guards request past (.write outbound) := by
    cases outbound with
    | message msg => exact ⟨identity, live⟩
    | reply answer => exact ⟨identity, live⟩
    | ping => exact ⟨identity, live.1⟩
    | close => exact ⟨identity, live.1⟩
  refine .call (S := realtimeSignature P) allowed fun choice outcome => ?_
  have next : Live request identity (⟨choice, .write outbound, outcome⟩ :: past) := live.cons id
  cases outcome with
  | sent => exact next
  | failed => exact next
  | timedOut => exact next

/-- The operations of the hub are all right once the connection is upgraded. -/
theorem guards_ofHub {α : Type} {program : RealtimeM P α} {Q : List (RealtimeEvent P) → α → Prop}
    {I : List (RealtimeEvent P) → Prop} (known : program.Obeys (fun _ op => OfHub op) Q past)
    (holds : I past) (upgraded : ∀ past, I past → Upgraded request identity past)
    (kept : ∀ past event, ¬ Fails identity event → I past → I (event :: past)) :
    program.Obeys (Guards request) (fun past _ => I past) past := by
  refine (known.keeping (I := I) holds ?_ ?_).mono fun _ _ kept => kept.2
  · intro past op known holds
    cases op with
    | authenticate parts => trivial
    | authorize identity room access => trivial
    | onMessage identity room payload => exact known.elim
    | write outbound => exact known.elim
    | _ => exact ⟨identity, upgraded past holds⟩
  · intro past event known holds
    refine kept past event ?_ holds
    obtain ⟨choice, op, reply⟩ := event
    cases op with
    | authenticate parts => exact known.elim
    | authorize identity room access => exact known.elim
    | _ => exact id

theorem guards_replay (missed : List RealtimeMessage) (live : Live request identity past) :
    (replay missed).Obeys (Guards request) (fun past _ => Live request identity past) past := by
  induction missed generalizing past with
  | nil => exact live
  | cons message missed ih =>
      refine .bind (guards_sendBounded live) fun past result live => ?_
      cases result with
      | error reason => exact live
      | ok _ => exact ih live

theorem guards_outbound (live : Live request identity past) :
    (outbound stream).Obeys (Guards request) (fun past _ => Live request identity past) past := by
  refine .call (S := realtimeSignature P) ⟨identity, live.1⟩ fun choice received => ?_
  cases received with
  | none => exact live.cons id
  | some message =>
      refine .bind (Q := fun past _ => Live request identity past)
        (guards_sendBounded (live.cons id)) fun past result live => ?_
      cases result with
      | error reason => exact live
      | ok _ => exact live

theorem guards_handle {frame : WsMessage} {payload : List UInt8} {earlier : List (RealtimeEvent P)}
    {choice : RealtimeChoice} (carries : frame.payload? = some payload)
    (who : connection.identity = identity) (here : connection.room = request.room)
    (received : past = ⟨choice, .nextFrame, some (.ok frame)⟩ :: earlier)
    (live : Live request identity past) :
    (connection.handle payload).Obeys (Guards request) (fun past _ => Live request identity past)
      past := by
  refine .call (S := realtimeSignature P) ⟨identity, live.1⟩ fun second acquired => ?_
  cases acquired with
  | false => exact live.cons id
  | true =>
      refine .call (S := realtimeSignature P) trivial fun third authorized => ?_
      have still : Live request identity (⟨third, .authorize connection.identity connection.room
          .publish, authorized⟩ :: ⟨second, .tryAcquire, true⟩ :: past) := (live.cons id).cons id
      cases authorized with
      | error error => exact still
      | ok _ =>
          have allowed : Permitted connection.identity connection.room payload
              (⟨third, .authorize connection.identity connection.room .publish, .ok ()⟩ ::
                ⟨second, .tryAcquire, true⟩ :: past) :=
            ⟨choice, second, third, frame, earlier, carries, by rw [received]⟩
          refine .call (S := realtimeSignature P) ⟨here, who ▸ still, allowed⟩ fun _ handled => ?_
          rcases handled with _ | (error | _ | reply)
          · exact still.cons id
          · exact still.cons id
          · exact still.cons id
          · refine .bind (Q := fun past _ => Live request identity past)
              (guards_sendBounded (still.cons id)) fun past result live => ?_
            cases result with
            | error reason => exact live
            | ok _ => exact live

theorem guards_inbound (who : connection.identity = identity) (here : connection.room = request.room)
    (live : Live request identity past) :
    connection.inbound.Obeys (Guards request) (fun past _ => Live request identity past) past := by
  refine .call (S := realtimeSignature P) ⟨identity, live.1⟩ fun choice frame => ?_
  have still : Live request identity (⟨choice, .nextFrame, frame⟩ :: past) := live.cons id
  rcases frame with _ | (error | frame)
  · exact still
  · exact still
  · cases frame with
    | binary bytes => exact guards_handle rfl who here rfl still
    | text text => exact guards_handle rfl who here rfl still
    | ping => exact still
    | pong => exact still
    | close => exact still

/-- The connection is upgraded, and its identity confirmed if `still` holds. -/
def Standing (request : UpgradeRequest P) (identity : Identity) (still : Prop)
    (past : List (RealtimeEvent P)) : Prop :=
  Upgraded request identity past ∧ (still → Live request identity past)

theorem guards_stillAuthorized (who : connection.identity = identity)
    (live : Live request identity past) :
    connection.stillAuthorized.Obeys (Guards request)
      (fun past still => Standing request identity (still = true) past) past := by
  refine .call (S := realtimeSignature P) trivial fun first authenticated => ?_
  cases authenticated with
  | error error => exact ⟨live.1.cons _, nofun⟩
  | ok answer =>
      show Program.Obeys _ _ (if answer ≠ connection.identity then _ else _) _
      split
      · exact ⟨live.1.cons _, nofun⟩
      · next same =>
        have confirmed : Live request identity (⟨first, .authenticate connection.parts, .ok answer⟩ ::
            past) := by
          refine live.cons fun fails => fails ?_
          rw [not_not.mp same, who]
        refine .call (S := realtimeSignature P) trivial fun second authorized => ?_
        cases authorized with
        | error error => exact ⟨confirmed.1.cons _, nofun⟩
        | ok _ => exact ⟨confirmed.1.cons _, fun _ => confirmed.cons fun fails => fails rfl⟩

/-- A round goes on only while the identity is confirmed. -/
abbrev Continues (request : UpgradeRequest P) (identity : Identity) (past : List (RealtimeEvent P))
    (reason : Option CloseReason) : Prop :=
  Standing request identity (reason = none) past

theorem Continues.of_live {reason : Option CloseReason} (live : Live request identity past) :
    Continues request identity past reason :=
  ⟨live.1, fun _ => live⟩

/-- Closing needs no confirmation. -/
theorem guards_close (upgraded : Upgraded request identity past) :
    (sendBounded .close).Obeys (Guards request) (fun past _ => Upgraded request identity past)
      past := by
  refine .call (S := realtimeSignature P) ⟨identity, upgraded⟩ fun choice outcome => ?_
  have next := upgraded.cons ⟨choice, .write .close, outcome⟩
  cases outcome with
  | sent => exact next
  | failed => exact next
  | timedOut => exact next

theorem guards_revalidate (who : connection.identity = identity)
    (live : Live request identity past) :
    connection.revalidate.Obeys (Guards request) (Continues request identity) past := by
  refine .bind (guards_stillAuthorized who live) fun past still standing => ?_
  cases still with
  | true => exact .of_live (standing.2 rfl)
  | false => exact .bind (guards_close standing.1) fun _ _ upgraded => ⟨upgraded, nofun⟩

theorem guards_heartbeat (live : Live request identity past) :
    heartbeat.Obeys (Guards request) (Continues request identity) past := by
  refine .call (S := realtimeSignature P) ⟨identity, live.1⟩ fun _ late => ?_
  cases late with
  | true =>
      exact .bind (Q := fun past _ => Upgraded request identity past) (guards_close (live.1.cons _))
        fun _ _ upgraded => ⟨upgraded, nofun⟩
  | false =>
      refine .bind (Q := fun past _ => Live request identity past)
        (guards_sendBounded (live.cons id)) fun past result live => ?_
      cases result with
      | error reason => exact .of_live live
      | ok _ => exact .of_live live

theorem guards_round (who : connection.identity = identity) (here : connection.room = request.room)
    (live : Live request identity past) :
    (connection.round stream).Obeys (Guards request) (Continues request identity) past := by
  refine .call (S := realtimeSignature P) ⟨identity, live.1⟩ fun choice branch => ?_
  have still : Live request identity (⟨choice, .select, branch⟩ :: past) := live.cons id
  cases branch with
  | outbound => exact (guards_outbound still).mono fun _ _ live => .of_live live
  | inbound => exact (guards_inbound who here still).mono fun _ _ live => .of_live live
  | revalidate => exact guards_revalidate who still
  | heartbeat => exact guards_heartbeat still

theorem guards_pump (rounds : ℕ) (who : connection.identity = identity)
    (here : connection.room = request.room) (live : Live request identity past) :
    (connection.pump stream rounds).Obeys (Guards request)
      (fun past _ => Upgraded request identity past) past := by
  induction rounds generalizing past with
  | zero => exact live.1
  | succ rounds ih =>
      refine .bind (guards_round who here live) fun past reason continues => ?_
      cases reason with
      | some reason => exact continues.1
      | none => exact ih (continues.2 rfl)

theorem guards_run (rounds : ℕ) (who : connection.identity = identity)
    (here : connection.room = request.room) (live : Live request identity past) :
    (run hub connection rounds).Obeys (Guards request) (fun _ _ => True) past := by
  have leaves : ∀ {past : List (RealtimeEvent P)} {stream : RoomStream},
      Upgraded request identity past → (dropStream stream).Obeys (Guards request)
        (fun past _ => Upgraded request identity past) past := by
    intro past stream upgraded
    exact guards_ofHub (I := Upgraded request identity) ofHub_dropStream upgraded
      (fun _ upgraded => upgraded) fun _ event _ upgraded => upgraded.cons event
  have joins : (subscribeSince hub connection.room connection.since).Obeys (Guards request)
      (fun past _ => Live request identity past) past :=
    guards_ofHub (I := Live request identity) ofHub_subscribeSince live (fun _ live => live.1)
      fun _ _ passes live => live.cons passes
  refine .bind joins fun past result live => ?_
  rcases result with error | ⟨backlog, stream⟩
  · exact .bind (guards_close live.1) fun _ _ _ => trivial
  · refine .bind (guards_replay (missed backlog) live) fun past result live => ?_
    cases result with
    | error reason => exact .bind (leaves live.1) fun _ _ _ => trivial
    | ok _ =>
        refine .bind (guards_pump rounds who here live) fun past reason upgraded => ?_
        cases reason with
        | none => trivial
        | some reason =>
            refine .call (S := realtimeSignature P) ⟨identity, upgraded⟩ fun _ _ => ?_
            exact .bind (Q := fun past _ => Upgraded request identity past)
              (leaves (upgraded.cons _)) fun _ _ _ => trivial

theorem guards_upgradeSince (rounds : ℕ) :
    (upgradeSince hub request rounds).Obeys (Guards request) (fun _ _ => True) [] := by
  refine .call (S := realtimeSignature P) trivial fun first authenticated => ?_
  cases authenticated with
  | error error => trivial
  | ok identity =>
      refine .call (S := realtimeSignature P) trivial fun second authorized => ?_
      cases authorized with
      | error error => trivial
      | ok _ =>
          have live : Live request identity
              [⟨second, .authorize identity request.room .subscribe, .ok ()⟩,
                ⟨first, .authenticate request.parts, .ok identity⟩] := by
            refine ⟨⟨first, second, List.suffix_refl _⟩, fun event member => ?_⟩
            rcases List.mem_pair.mp member with rfl | rfl
            · exact fun fails => fails rfl
            · exact fun fails => fails rfl
          exact .bind (Q := fun _ _ => True) (guards_run rounds rfl rfl live) fun _ _ _ => trivial

end Control

end Connection

/-- A connection guards its operations; nothing is asked of the other calls. -/
def RealtimeCall.Guards {P : Type} : RealtimeCall P → List (RealtimeEvent P) → RealtimeOp P → Prop
  | .connect request _ => Connection.Guards request
  | _ => fun _ _ => True

namespace InMemoryHub

open Connection

section Runs

variable {P : Type} {hub : InMemoryHub}
  {C : RealtimePool P → Action RealtimeChoice (RealtimeCall P) → Prop} {p : RealtimePool P}

theorem guards_body (call : RealtimeCall P) :
    (body hub call).Obeys call.Guards (fun _ _ => True) [] := by
  cases call with
  | connect request rounds =>
      refine .bind (guards_upgradeSince rounds) fun past result _ => ?_
      cases result with
      | error error => trivial
      | ok reason => trivial
  | _ => exact .of_true _ _

/-- Every operation of every connection: a subscription is opened for an identity that was
authenticated and allowed to subscribe at the upgrade; the app is handed a frame of that identity in
that room right after the identity was allowed to publish this very frame; and once a revalidation
has failed, nothing is handed to the app and no room message or reply is written. -/
theorem connection_authorized (reached : (system hub).Reaches C initial p) {t : RealtimeTask P}
    {request : UpgradeRequest P} {rounds : ℕ} (started : t ∈ p.tasks)
    (connects : t.args = .connect request rounds) {event : RealtimeEvent P}
    {past : List (RealtimeEvent P)} (did : event :: past <:+ t.past) :
    (event.op.Subscribes → ∃ identity, Upgraded request identity past) ∧
    (∀ identity room payload, event.op = .onMessage identity room payload →
      room = request.room ∧ Upgraded request identity past ∧
        Permitted identity room payload past) ∧
    ∀ identity, Upgraded request identity past → (∃ failed ∈ past, Fails identity failed) →
      ¬ event.op.Serves := by
  have guarded : t.args.Guards past event.op := reached.obeyed rfl guards_body t started event past did
  rw [connects] at guarded
  obtain ⟨choice, op, reply⟩ := event
  -- once the identity was not confirmed, it is not live
  have dead : ∀ {identity}, Upgraded request identity past →
      (∃ failed ∈ past, Fails identity failed) → ∀ other, ¬ Live request other past := by
    rintro identity upgraded ⟨failed, member, fails⟩ other live
    cases upgraded.unique live.1
    exact live.2 failed member fails
  cases op with
  | onMessage who room payload =>
      obtain ⟨here, live, permitted⟩ := guarded
      refine ⟨nofun, ?_, fun identity upgraded failed _ => dead upgraded failed who live⟩
      intro identity room payload same
      cases same
      exact ⟨here, live.1, permitted⟩
  | write outbound =>
      refine ⟨nofun, nofun, fun identity upgraded failed serves => ?_⟩
      cases outbound with
      | message msg =>
          obtain ⟨other, live⟩ := guarded
          exact dead upgraded failed other live
      | reply answer =>
          obtain ⟨other, live⟩ := guarded
          exact dead upgraded failed other live
      | ping => exact serves
      | close => exact serves
  | authenticate parts => exact ⟨nofun, nofun, fun _ _ _ => id⟩
  | authorize identity room access => exact ⟨nofun, nofun, fun _ _ _ => id⟩
  | _ => exact ⟨fun _ => guarded, nofun, fun _ _ _ => id⟩

end Runs

/-- A player sends a move, and is then no longer authenticated. -/
def revokedRun : List (Action RealtimeChoice (RealtimeCall Unit)) :=
  [.arrive (.connect ⟨(), game, none⟩ 2),
    .step 0 {}, .step 0 {}, .step 0 {}, .step 0 {}, .step 0 {}, .step 0 {}, .step 0 {},
    .step 0 { branch := .inbound }, .step 0 { frame := some (.ok (.binary [1])) }, .step 0 {},
    .step 0 {}, .step 0 {}, .step 0 { branch := .revalidate },
    .step 0 { authenticated := .error (.unauthorized "expired") }, .step 0 {}]

/-- The player's move was handed to the app, and the socket was closed after the revalidation. -/
def handedThenClosed : List (RealtimeEvent Unit) → Bool
  | ⟨_, .write .close, _⟩ :: ⟨_, .authenticate _, .error _⟩ :: ⟨_, .select, _⟩ ::
      ⟨_, .onMessage identity room payload, _⟩ :: _ =>
      decide (identity = ⟨"player"⟩ ∧ room = game ∧ payload = [1])
  | _ => false

theorem connection_authorized_revoked :
    ∃ (p : RealtimePool Unit) (t : RealtimeTask Unit) (closes fails selects hands : RealtimeEvent Unit)
      (past : List (RealtimeEvent Unit)), (system {}).Reaches System.Any initial p ∧ t ∈ p.tasks ∧
      t.past = closes :: fails :: selects :: hands :: past ∧
      hands.op = .onMessage ⟨"player"⟩ game [1] ∧ Permitted ⟨"player"⟩ game [1] past ∧
      Fails ⟨"player"⟩ fails ∧ ¬ closes.op.Serves := by
  have run : ((system {}).exec initial revokedRun).any (fun p : RealtimePool Unit =>
      (p.tasks[0]?).any fun t => decide (t.args = .connect ⟨(), game, none⟩ 2) &&
        handedThenClosed t.past) = true := by
    decide +kernel
  obtain ⟨p, reached, facts⟩ := System.exists_reaches_of_exec (System.along_any _ _ _) run
  obtain ⟨t, at_zero, facts⟩ := (Option.any_eq_true _ _).mp facts
  obtain ⟨connects, shape⟩ := Bool.and_eq_true_iff.mp facts
  have started := List.mem_of_getElem? at_zero
  have connects := of_decide_eq_true connects
  unfold handedThenClosed at shape
  split at shape
  · next first closed second parts error third branch fourth identity room payload handled past split =>
    obtain ⟨rfl, rfl, rfl⟩ := of_decide_eq_true shape
    have suffix : ⟨fourth, .onMessage ⟨"player"⟩ game [1], handled⟩ :: past <:+ t.past := by
      rw [split]
      exact (List.suffix_cons _ _).trans ((List.suffix_cons _ _).trans (List.suffix_cons _ _))
    obtain ⟨-, handed, -⟩ := connection_authorized reached started connects suffix
    obtain ⟨-, upgraded, permitted⟩ := handed _ _ _ rfl
    have fails : Fails ⟨"player"⟩ (⟨second, .authenticate parts, .error error⟩ :
        RealtimeEvent Unit) := nofun
    have last := List.suffix_refl t.past
    nth_rewrite 1 [split] at last
    obtain ⟨-, -, closed⟩ := connection_authorized reached started connects last
    refine ⟨p, t, _, _, _, _, past, reached, started, split, rfl, permitted, fails, ?_⟩
    refine closed ⟨"player"⟩ (((upgraded.cons _).cons _).cons _) ⟨_, List.mem_cons_self, fails⟩
  · cases shape

end InMemoryHub

end Pharos
