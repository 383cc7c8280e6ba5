import Pharos.Realtime.Task

/-!
# Connections

`pharos-realtime/src/ws.rs`: an upgrade authenticates and authorizes a client, and the connection
then replays what the client missed and pumps messages both ways until one side ends, a
revalidation fails or a deadline passes.  The clock, the rate limiter, the client, the app's
authenticator, authorizer and message handler, and which branch of the `select` fires, are the
environment's.

The pump runs for a given number of rounds; a pump that is cut off has returned nothing, and its
stream stays open.
-/

namespace Pharos

open Async

/-- Why a connection ended. -/
inductive CloseReason where
  | clientGone
  | roomClosed
  | subscribeFailed
  | revoked
  | timeout
  | unresponsive
  deriving DecidableEq

/-- What a connection was opened with; its hub and limits are those of the route. -/
structure Connection (P : Type) where
  parts : P
  identity : Identity
  room : RoomId
  since : Option UInt64

/-- The request of a client that wants to be upgraded. -/
structure UpgradeRequest (P : Type) where
  parts : P
  room : RoomId
  since : Option UInt64
  deriving DecidableEq

namespace Connection

variable {P : Type}

open InMemoryHub

/-- `Connection::send_bounded`. -/
def sendBounded (outbound : Outbound) : RealtimeM P (Except CloseReason Unit) := do
  match ← await (.write outbound) with
  | .sent => pure (.ok ())
  | .failed => pure (.error .clientGone)
  | .timedOut => pure (.error .unresponsive)

/-- The replay of the missed messages. -/
def replay : List RealtimeMessage → RealtimeM P (Except CloseReason Unit)
  | [] => pure (.ok ())
  | message :: missed => do
      match ← sendBounded (.message message) with
      | .error reason => pure (.error reason)
      | .ok () => replay missed

/-- What a backlog has for the client. -/
def missed : Backlog → List RealtimeMessage
  | .replayed missed => missed
  | .gap _ | .unavailable => []

/-- The outbound branch of the pump: a round ends the loop with a reason, or not. -/
def outbound (stream : RoomStream) : RealtimeM P (Option CloseReason) := do
  match ← await (.recv stream.receiver) with
  | none => pure (some .roomClosed)
  | some message => do
      match ← sendBounded (.message message) with
      | .error reason => pure (some reason)
      | .ok () => pure none

/-- What the pump does with the payload of a frame. -/
def handle (connection : Connection P) (payload : List UInt8) : RealtimeM P (Option CloseReason) := do
  match ← await .tryAcquire with
  | false => pure none
  | true => do
      match ← await (.authorize connection.identity connection.room .publish) with
      | .error _ => pure none
      | .ok () => do
          match ← await (.onMessage connection.identity connection.room payload) with
          | none => pure (some .unresponsive)
          | some (.error _) => pure none
          | some (.ok none) => pure none
          | some (.ok (some reply)) => do
              match ← sendBounded (.reply reply) with
              | .error reason => pure (some reason)
              | .ok () => pure none

/-- The inbound branch of the pump. -/
def inbound (connection : Connection P) : RealtimeM P (Option CloseReason) := do
  match ← await .nextFrame with
  | none => pure (some .clientGone)
  | some (.ok (.binary bytes)) => connection.handle bytes
  | some (.ok (.text text)) => connection.handle text
  | some (.ok .ping) | some (.ok .pong) => pure none
  | some (.ok .close) | some (.error _) => pure (some .clientGone)

/-- `Connection::still_authorized`. -/
def stillAuthorized (connection : Connection P) : RealtimeM P Bool := do
  match ← await (.authenticate connection.parts) with
  | .error _ => pure false
  | .ok identity =>
      if identity ≠ connection.identity then pure false
      else do
        match ← await (.authorize connection.identity connection.room .subscribe) with
        | .error _ => pure false
        | .ok () => pure true

/-- The revalidation branch of the pump. -/
def revalidate (connection : Connection P) : RealtimeM P (Option CloseReason) := do
  match ← connection.stillAuthorized with
  | true => pure none
  | false => do
      let _ ← sendBounded .close
      pure (some .revoked)

/-- The heartbeat branch of the pump. -/
def heartbeat : RealtimeM P (Option CloseReason) := do
  match ← await .overdue with
  | true => do
      let _ ← sendBounded .close
      pure (some .timeout)
  | false => do
      match ← sendBounded .ping with
      | .error reason => pure (some reason)
      | .ok () => pure none

/-- One round of the pump. -/
def round (connection : Connection P) (stream : RoomStream) : RealtimeM P (Option CloseReason) := do
  match ← await .select with
  | .outbound => outbound stream
  | .inbound => connection.inbound
  | .revalidate => connection.revalidate
  | .heartbeat => heartbeat

/-- The loop of the pump. -/
def pump (connection : Connection P) (stream : RoomStream) : ℕ → RealtimeM P (Option CloseReason)
  | 0 => pure none
  | rounds + 1 => do
      match ← connection.round stream with
      | some reason => pure (some reason)
      | none => connection.pump stream rounds

/-- `Connection::run`. -/
def run (hub : InMemoryHub) (connection : Connection P) (rounds : ℕ) :
    RealtimeM P (Option CloseReason) := do
  match ← subscribeSince hub connection.room connection.since with
  | .error _ => do
      let _ ← sendBounded .close
      pure (some .subscribeFailed)
  | .ok (backlog, stream) => do
      match ← replay (missed backlog) with
      | .error reason => do
          dropStream stream
          pure (some reason)
      | .ok () => do
          match ← connection.pump stream rounds with
          | none => pure none
          | some reason => do
              await .closeSink
              dropStream stream
              pure (some reason)

/-- `Realtime::upgrade_since`, and then the task of the upgraded socket. -/
def upgradeSince (hub : InMemoryHub) (request : UpgradeRequest P) (rounds : ℕ) :
    RealtimeM P (Except RealtimeError (Option CloseReason)) := do
  match ← await (.authenticate request.parts) with
  | .error error => pure (.error error)
  | .ok identity => do
      match ← await (.authorize identity request.room .subscribe) with
      | .error error => pure (.error error)
      | .ok () => do
          let reason ← run hub ⟨request.parts, identity, request.room, request.since⟩ rounds
          pure (.ok reason)

end Connection

/-! ## Runs over one hub -/

/-- A call: a publish, a subscriber that listens to so many messages and leaves, one that resumes
after what it saw, or a connection whose pump runs for so many rounds.  `last` is the channel that
a resuming subscriber received from before; the hub never sees it. -/
inductive RealtimeCall (P : Type) where
  | publish (msg : RealtimeMessage)
  | subscribe (room : RoomId) (listens : ℕ)
  | resume (room : RoomId) (since : Option UInt64) (last : ℕ) (listens : ℕ)
  | connect (request : UpgradeRequest P) (rounds : ℕ)
  deriving DecidableEq

/-- What a call returns. -/
inductive RealtimeReturn where
  | published (result : Except RealtimeError Unit)
  | refused (error : RealtimeError)
  | left
  | closed (reason : Option CloseReason)
  deriving DecidableEq

namespace InMemoryHub

variable {P : Type} (hub : InMemoryHub)

/-- Receive so many messages, or until the stream ends. -/
def listen (stream : RoomStream) : ℕ → RealtimeM P Unit
  | 0 => pure ()
  | listens + 1 => do
      match ← await (.recv stream.receiver) with
      | none => pure ()
      | some _ => listen stream listens

/-- Listen for a while, then drop the stream. -/
def attend (stream : RoomStream) (listens : ℕ) : RealtimeM P RealtimeReturn := do
  listen stream listens
  dropStream stream
  pure .left

/-- The program of one call. -/
def body : RealtimeCall P → RealtimeM P RealtimeReturn
  | .publish msg => do
      let result ← publish msg
      pure (.published result)
  | .subscribe room listens => do
      match ← subscribe hub room with
      | .error error => pure (.refused error)
      | .ok stream => attend stream listens
  | .resume room since _ listens => do
      match ← subscribeSince hub room since with
      | .error error => pure (.refused error)
      | .ok (_, stream) => attend stream listens
  | .connect request rounds => do
      match ← Connection.upgradeSince hub request rounds with
      | .error error => pure (.refused error)
      | .ok reason => pure (.closed reason)

/-- Any number of publishers, subscribers and connections around one hub. -/
def system : System (realtimeSignature P) HubShared RealtimeChoice (RealtimeCall P)
    (RealtimeCall P) RealtimeReturn where
  serve := serve hub
  arrive s call := some (s, [call])
  body := body hub

end InMemoryHub

abbrev RealtimePool (P : Type) :=
  Pool (realtimeSignature P) HubShared RealtimeChoice (RealtimeCall P) RealtimeReturn

abbrev RealtimeTask (P : Type) :=
  Async.Task (realtimeSignature P) RealtimeChoice (RealtimeCall P) RealtimeReturn

abbrev RealtimeEntry (P : Type) :=
  Entry (realtimeSignature P) HubShared RealtimeChoice (RealtimeCall P)

abbrev RealtimeEvent (P : Type) := Event (realtimeSignature P) RealtimeChoice

/-- A new hub and no calls yet. -/
def InMemoryHub.initial {P : Type} : RealtimePool P where
  shared := {}

end Pharos
