import Mathlib.Algebra.Order.Group.Nat
import Pharos.Async.Pool
import Pharos.Realtime.Hub

/-!
# Tasks around a hub

What the tasks of the realtime crate await, and what the hub does in one atomic step: publishing is
stamp and then send, subscribing is a capacity check and then an entry, resuming reads the backlog
after that, and the drop of a stream is a decrement and then a conditional removal.

A receiver keeps what was sent to it since it was created, and the position it reads next.  The
channel has room for a power of two of messages; a receiver that fell further behind goes on with
the oldest one still there.  `joined` is the next version of the room when the receiver was created;
no operation reads it.
-/

namespace Pharos

open Async

/-- A payload for the one connection that produced a frame. -/
structure Reply where
  kind : String
  payload : List UInt8
  deriving DecidableEq

/-- A frame from the client. -/
inductive WsMessage where
  | binary (payload : List UInt8)
  | text (payload : List UInt8)
  | ping
  | pong
  | close
  deriving DecidableEq

/-- A frame to the client, with what it is made from. -/
inductive Outbound where
  | message (msg : RealtimeMessage)
  | reply (answer : Reply)
  | ping
  | close
  deriving DecidableEq

/-- What goes over the wire. -/
def Outbound.frame : Outbound → WsMessage
  | .message msg => .binary msg.payload
  | .reply answer => .binary answer.payload
  | .ping => .ping
  | .close => .close

/-- How a send under a timeout ends. -/
inductive SendOutcome where
  | sent
  | failed
  | timedOut
  deriving DecidableEq

/-- The branches of the pump's `select`. -/
inductive Branch where
  | outbound
  | inbound
  | revalidate
  | heartbeat
  deriving DecidableEq

/-- What a task awaits.  `opened` hands a subscription to
whoever asked for it, with the answer about what it missed. -/
inductive RealtimeOp (P : Type) where
  | containsKey (room : RoomId)
  | len
  | entry (room : RoomId)
  | get (room : RoomId)
  | opened (since : Option UInt64) (backlog : Backlog) (receiver : ℕ)
  | stampAndRetain (msg : RealtimeMessage)
  | send (sender : ℕ) (msg : RealtimeMessage)
  | recv (receiver : ℕ)
  | dropReceiver (receiver : ℕ)
  | decrement (room : RoomId)
  | removeIf (room : RoomId)
  | authenticate (parts : P)
  | authorize (identity : Identity) (room : RoomId) (access : Access)
  | select
  | nextFrame
  | tryAcquire
  | onMessage (identity : Identity) (room : RoomId) (payload : List UInt8)
  | overdue
  | write (outbound : Outbound)
  | closeSink

/-- The replies of the operations; a timeout of `on_message` is `none`. -/
abbrev RealtimeOp.Reply {P : Type} : RealtimeOp P → Type
  | .containsKey _ | .decrement _ | .tryAcquire | .overdue => Bool
  | .len | .entry _ => ℕ
  | .get _ => Option RoomEntry
  | .stampAndRetain _ => Option (ℕ × RealtimeMessage)
  | .recv _ => Option RealtimeMessage
  | .opened _ _ _ | .send _ _ | .dropReceiver _ | .removeIf _ | .closeSink => Unit
  | .authenticate _ => Except RealtimeError Identity
  | .authorize _ _ _ => Except RealtimeError Unit
  | .select => Branch
  | .nextFrame => Option (Except String WsMessage)
  | .onMessage _ _ _ => Option (Except RealtimeError (Option Pharos.Reply))
  | .write _ => SendOutcome

abbrev realtimeSignature (P : Type) : Signature where
  Op := RealtimeOp P
  Reply := RealtimeOp.Reply

abbrev RealtimeM (P α : Type) := Program (realtimeSignature P) α

/-- A stream of a room's messages: the receiver, and the guard that releases the room. -/
structure RoomStream where
  room : RoomId
  receiver : ℕ
  deriving DecidableEq

namespace InMemoryHub

section Programs

variable {P : Type} (hub : InMemoryHub)

/-- One awaited operation. -/
abbrev await (op : RealtimeOp P) : RealtimeM P op.Reply :=
  Program.call (S := realtimeSignature P) op

/-- The part of `register_subscriber` after the check of the room ceiling. -/
def join (room : RoomId) : RealtimeM P (Except RealtimeError RoomStream) := do
  let receiver ← await (.entry room)
  pure (.ok ⟨room, receiver⟩)

/-- `InMemoryHub::register_subscriber`. -/
def registerSubscriber (room : RoomId) : RealtimeM P (Except RealtimeError RoomStream) := do
  match ← await (.containsKey room) with
  | true => join room
  | false => do
      let rooms ← await .len
      if hub.maxRooms ≤ rooms then
        pure (.error (.capacity s!"hub is already tracking {hub.maxRooms} rooms"))
      else join room

/-- The answer to a resumption, once the subscriber is registered. -/
def readBacklog (room : RoomId) (since : Option UInt64) (existed : Bool) : RealtimeM P Backlog :=
  match since with
  | none => pure .unavailable
  | some since =>
      if hub.backlog = 0 then pure .unavailable
      else if existed = false then pure .unavailable
      else do
        match ← await (.get room) with
        | none => pure .unavailable
        | some entry => pure (resume since entry)

/-- `RealtimeSubscriber::subscribe_since`. -/
def subscribeSince (room : RoomId) (since : Option UInt64) :
    RealtimeM P (Except RealtimeError (Backlog × RoomStream)) := do
  let existed ← await (.containsKey room)
  match ← registerSubscriber hub room with
  | .error error => pure (.error error)
  | .ok stream => do
      let backlog ← readBacklog hub room since existed
      await (.opened since backlog stream.receiver)
      pure (.ok (backlog, stream))

/-- `RealtimeSubscriber::subscribe`. -/
def subscribe (room : RoomId) : RealtimeM P (Except RealtimeError RoomStream) :=
  registerSubscriber hub room

/-- `RealtimePublisher::publish`. -/
def publish (msg : RealtimeMessage) : RealtimeM P (Except RealtimeError Unit) := do
  match ← await (.stampAndRetain msg) with
  | some (sender, msg) => do
      await (.send sender msg)
      pure (.ok ())
  | none => pure (.ok ())

/-- The drop of a stream: its receiver, and then `RoomGuard::drop`. -/
def dropStream (stream : RoomStream) : RealtimeM P Unit := do
  await (.dropReceiver stream.receiver)
  match ← await (.decrement stream.room) with
  | true => await (.removeIf stream.room)
  | false => pure ()

end Programs

end InMemoryHub

/-! ## The hub under concurrent tasks -/

/-- The receiving half of a channel. -/
structure Receiver where
  room : RoomId
  channel : ℕ
  joined : ℕ
  attached : Bool := true
  sent : List RealtimeMessage := []
  next : ℕ := 0
  deriving DecidableEq

/-- The rooms, the channels created so far, the senders that publishers have cloned, and every
receiver that was ever created. -/
structure HubShared where
  rooms : DashMap RoomId RoomEntry := ∅
  channels : ℕ := 0
  clones : List ℕ := []
  receivers : List Receiver := []

/-- What the environment decides about one operation. -/
structure RealtimeChoice where
  authenticated : Except RealtimeError Identity := .ok ⟨"player"⟩
  authorized : Except RealtimeError Unit := .ok ()
  branch : Branch := .outbound
  frame : Option (Except String WsMessage) := none
  acquired : Bool := true
  handled : Option (Except RealtimeError (Option Reply)) := some (.ok none)
  overdue : Bool := false
  outcome : SendOutcome := .sent

namespace InMemoryHub

/-- How many messages a channel has room for. -/
def slots (hub : InMemoryHub) : ℕ := hub.capacity.nextPowerOfTwo

/-- `broadcast::Sender::send` for one receiver. -/
def deliver (sender : ℕ) (msg : RealtimeMessage) (receiver : Receiver) : Receiver :=
  if receiver.channel = sender ∧ receiver.attached = true then
    { receiver with sent := receiver.sent ++ [msg] }
  else receiver

/-- Some sender of the receiver's channel is left. -/
def Connected (s : HubShared) (receiver : Receiver) : Prop :=
  (s.rooms.get receiver.room).map RoomEntry.sender = some receiver.channel ∨
    receiver.channel ∈ s.clones

instance (s : HubShared) (receiver : Receiver) : Decidable (Connected s receiver) :=
  inferInstanceAs (Decidable ((s.rooms.get receiver.room).map RoomEntry.sender =
    some receiver.channel ∨ receiver.channel ∈ s.clones))

/-- Where a receiver reads next: the oldest messages may be gone. -/
def position (hub : InMemoryHub) (receiver : Receiver) : ℕ :=
  max receiver.next (receiver.sent.length - hub.slots)

/-- The next message of a stream, or its end; an empty channel with a sender left is waited for. -/
def receive (hub : InMemoryHub) (s : HubShared) (number : ℕ) (receiver : Receiver) :
    Option (HubShared × Option RealtimeMessage) :=
  match receiver.sent[hub.position receiver]? with
  | some msg =>
      some ({ s with
        receivers := s.receivers.set number { receiver with next := hub.position receiver + 1 } },
        some msg)
  | none => if Connected s receiver then none else some (s, none)

/-- The entry of `register_subscriber`. -/
def enter (s : HubShared) (room : RoomId) : HubShared :=
  match s.rooms.get room with
  | some entry =>
      { s with
        rooms := s.rooms.put room { entry with subscribers := entry.subscribers + 1 }
        receivers := s.receivers ++ [{ room, channel := entry.sender, joined := entry.nextVersion }] }
  | none =>
      { s with
        rooms := s.rooms.put room { sender := s.channels }
        channels := s.channels + 1
        receivers := s.receivers ++ [{ room, channel := s.channels, joined := 1 }] }

/-- The effect of one operation. -/
def serve {P : Type} (hub : InMemoryHub) (s : HubShared) (choice : RealtimeChoice) :
    (op : RealtimeOp P) → Option (HubShared × op.Reply)
  | .containsKey room => some (s, (s.rooms.get room).isSome)
  | .len => some (s, s.rooms.keys.length)
  | .entry room => some (enter s room, s.receivers.length)
  | .get room => some (s, s.rooms.get room)
  | .opened _ _ _ => some (s, ())
  | .stampAndRetain msg =>
      match s.rooms.get msg.room with
      | none => some (s, none)
      | some entry =>
          let out := hub.stampAndRetain entry msg
          some ({ s with
            rooms := s.rooms.put msg.room out.1, clones := entry.sender :: s.clones },
            some (entry.sender, out.2))
  | .send sender msg =>
      some ({ s with
        receivers := s.receivers.map (deliver sender msg), clones := s.clones.erase sender }, ())
  | .recv number =>
      match s.receivers[number]? with
      | none => none
      | some receiver => hub.receive s number receiver
  | .dropReceiver number =>
      some ({ s with
        receivers := s.receivers.modify number fun receiver => { receiver with attached := false } },
        ())
  | .decrement room =>
      match s.rooms.get room with
      | none => some (s, false)
      | some entry =>
          some ({ s with
            rooms := s.rooms.put room { entry with subscribers := entry.subscribers - 1 } },
            entry.subscribers - 1 == 0)
  | .removeIf room =>
      match s.rooms.get room with
      | none => some (s, ())
      | some entry =>
          if entry.subscribers = 0 then some ({ s with rooms := s.rooms.remove room }, ())
          else some (s, ())
  | .authenticate _ => some (s, choice.authenticated)
  | .authorize _ _ _ => some (s, choice.authorized)
  | .select => some (s, choice.branch)
  | .nextFrame => some (s, choice.frame)
  | .tryAcquire => some (s, choice.acquired)
  | .onMessage _ _ _ => some (s, choice.handled)
  | .overdue => some (s, choice.overdue)
  | .write _ => some (s, choice.outcome)
  | .closeSink => some (s, ())

end InMemoryHub

end Pharos
