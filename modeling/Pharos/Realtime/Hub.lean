import Mathlib.Data.List.Infix
import Pharos.Memory.DashMap

/-!
# The in-process hub

`pharos-realtime/src/hub.rs` and `memory.rs`.  A hub keeps one entry for each room that somebody is
subscribed to: the sending half of the room's broadcast channel, the number of its subscribers, the
next version to hand out and the messages retained for clients that reconnect.  Versions start at 1
again when a room is collected and created anew.

Channels are numbered as they are created, and the number of its channel is what tells one
incarnation of a room from the next.
-/

namespace Pharos

/-- The longest a room id may be, in bytes. -/
def maxRoomIdLen : ℕ := 128

/-- Why a room id was rejected. -/
inductive InvalidRoomId where
  | empty
  | tooLong (len : ℕ)
  | disallowedCharacter (character : Char)
  deriving DecidableEq

/-- `RoomId::is_allowed`. -/
def isAllowed (c : Char) : Bool := c.isAlphanum || [':', '-', '_', '.', '/'].contains c

/-- The id of a room. -/
structure RoomId where
  id : String
  nonempty : id ≠ ""
  short : id.utf8ByteSize ≤ maxRoomIdLen
  allowed : id.toList.all isAllowed = true
  deriving DecidableEq

/-- `RoomId::parse`. -/
def RoomId.parse (id : String) : Except InvalidRoomId RoomId :=
  if nonempty : id = "" then .error .empty
  else if short : id.utf8ByteSize ≤ maxRoomIdLen then
    match found : id.toList.find? fun c => !isAllowed c with
    | some character => .error (.disallowedCharacter character)
    | none => .ok
        { id := id
          nonempty := nonempty
          short := short
          allowed := by simpa using List.find?_eq_none.mp found }
  else .error (.tooLong id.utf8ByteSize)

/-- A message to everyone in a room; the hub overwrites its version. -/
structure RealtimeMessage where
  room : RoomId
  kind : String
  payload : List UInt8
  version : ℕ := 0
  deriving DecidableEq

/-- An opaque principal. -/
structure Identity where
  id : String
  deriving DecidableEq

/-- What a principal wants to do with a room. -/
inductive Access where
  | subscribe
  | publish
  deriving DecidableEq

/-- The errors of the crate; a boxed source is its text. -/
inductive RealtimeError where
  | publish (source : String)
  | subscribe (source : String)
  | unauthorized (reason : String)
  | forbidden (identity room : String)
  | capacity (limit : String)
  | invalidRoom (reason : InvalidRoomId)
  | transport (source : String)
  deriving DecidableEq

/-- What a resumption could recover. -/
inductive Backlog where
  | replayed (missed : List RealtimeMessage)
  | gap (oldestRetained : ℕ)
  | unavailable
  deriving DecidableEq

/-- A room's sender and the number of subscriptions that hold it open, with what it retains. -/
structure RoomEntry where
  sender : ℕ
  subscribers : ℕ := 1
  nextVersion : ℕ := 1
  backlog : List RealtimeMessage := []
  backlogBytes : ℕ := 0
  deriving DecidableEq

/-- The limits of a hub. -/
structure InMemoryHub where
  capacity : ℕ := 32
  maxRooms : ℕ := 10000
  backlog : ℕ := 64
  maxBacklogBytes : ℕ := 64 * 1024

namespace InMemoryHub

/-- `InMemoryHub::with_limits`. -/
def withLimits (capacity maxRooms : ℕ) : InMemoryHub where
  capacity := max capacity 1
  maxRooms := max maxRooms 1

/-- `InMemoryHub::with_backlog`. -/
def withBacklog (hub : InMemoryHub) (backlog : ℕ) : InMemoryHub := { hub with backlog := backlog }

/-- `InMemoryHub::with_max_backlog_bytes`. -/
def withMaxBacklogBytes (hub : InMemoryHub) (maxBacklogBytes : ℕ) : InMemoryHub :=
  { hub with maxBacklogBytes := maxBacklogBytes }

/-- The hub retains messages. -/
def Retains (hub : InMemoryHub) : Prop := 0 < hub.backlog ∧ 0 < hub.maxBacklogBytes

instance (hub : InMemoryHub) : Decidable hub.Retains :=
  inferInstanceAs (Decidable (0 < hub.backlog ∧ 0 < hub.maxBacklogBytes))

/-- The loop that evicts the oldest messages until both limits are met. -/
def evict (hub : InMemoryHub) : List RealtimeMessage → ℕ → List RealtimeMessage × ℕ
  | [], bytes => ([], bytes)
  | oldest :: rest, bytes =>
      if hub.backlog < (oldest :: rest).length ∨ hub.maxBacklogBytes < bytes then
        hub.evict rest (bytes - oldest.payload.length)
      else (oldest :: rest, bytes)

/-- `InMemoryHub::stamp_and_retain` on the entry of the message's room. -/
def stampAndRetain (hub : InMemoryHub) (entry : RoomEntry) (msg : RealtimeMessage) :
    RoomEntry × RealtimeMessage :=
  let stamped := { msg with version := entry.nextVersion }
  let next := { entry with nextVersion := entry.nextVersion + 1 }
  if hub.Retains then
    let kept := hub.evict (entry.backlog ++ [stamped])
      (entry.backlogBytes + stamped.payload.length)
    ({ next with backlog := kept.1, backlogBytes := kept.2 }, stamped)
  else (next, stamped)

/-- What the backlog of an entry answers to a client that saw everything up to `since`.  The sum
wraps around as `u64` does. -/
def resume (since : UInt64) (entry : RoomEntry) : Backlog :=
  match entry.backlog.head? with
  | none => if entry.nextVersion = 1 then .replayed [] else .unavailable
  | some oldest =>
      if (since + 1).toNat < oldest.version then .gap oldest.version
      else .replayed (entry.backlog.filter fun msg => since.toNat < msg.version)

/-! ## What an entry retains -/

variable {hub : InMemoryHub} {entry : RoomEntry} {msg : RealtimeMessage}

/-- Eviction drops the oldest messages. -/
theorem evict_suffix (backlog : List RealtimeMessage) (bytes : ℕ) :
    (hub.evict backlog bytes).1 <:+ backlog := by
  induction backlog generalizing bytes with
  | nil => exact List.suffix_refl _
  | cons oldest rest ih =>
      rw [evict]
      split
      · exact (ih _).trans (List.suffix_cons _ _)
      · exact List.suffix_refl _

theorem stampAndRetain_stamped :
    (hub.stampAndRetain entry msg).2 = { msg with version := entry.nextVersion } := by
  rw [stampAndRetain]
  split
  · rfl
  · rfl

theorem stampAndRetain_sender : (hub.stampAndRetain entry msg).1.sender = entry.sender := by
  rw [stampAndRetain]
  split
  · rfl
  · rfl

theorem stampAndRetain_subscribers :
    (hub.stampAndRetain entry msg).1.subscribers = entry.subscribers := by
  rw [stampAndRetain]
  split
  · rfl
  · rfl

theorem stampAndRetain_nextVersion :
    (hub.stampAndRetain entry msg).1.nextVersion = entry.nextVersion + 1 := by
  rw [stampAndRetain]
  split
  · rfl
  · rfl

/-- The backlog grows by the stamped message and loses some of the oldest. -/
theorem stampAndRetain_backlog (empty : ¬ hub.Retains → entry.backlog = []) :
    (hub.stampAndRetain entry msg).1.backlog <:+
      entry.backlog ++ [(hub.stampAndRetain entry msg).2] := by
  rw [stampAndRetain]
  split
  · exact evict_suffix _ _
  · next nothing =>
    show entry.backlog <:+ _
    rw [empty nothing]
    exact List.nil_suffix

theorem stampAndRetain_empty (empty : ¬ hub.Retains → entry.backlog = []) (none : ¬ hub.Retains) :
    (hub.stampAndRetain entry msg).1.backlog = [] := by
  rw [stampAndRetain, if_neg none]
  exact empty none

end InMemoryHub

end Pharos
