import Pharos.Realtime.Backlog
import Pharos.Realtime.Handover

/-!
# The answer to a resumption

A client names the last version it saw, which is any `u64`, and is answered with what it missed, with
a gap, or with nothing.  The comparison with the oldest retained message adds one to the client's
number, and that sum overflows at the largest one: a build that checks for overflow panics there, and
one that does not reports a gap to a client that claims to be far ahead.
-/

namespace Pharos

open Async

namespace InMemoryHub

/-- `resume` with its sum checked. -/
def resumeChecked (since : UInt64) (entry : RoomEntry) : Option Backlog :=
  match entry.backlog.head? with
  | none => some (if entry.nextVersion = 1 then .replayed [] else .unavailable)
  | some oldest =>
      if since.toNat + 1 < UInt64.size then
        some (if since.toNat + 1 < oldest.version then .gap oldest.version
          else .replayed (entry.backlog.filter fun msg => since.toNat < msg.version))
      else none

/-- `subscribe_since` gives this answer in a state that nobody else changes. -/
def AnsweredWith (P : Type) (hub : InMemoryHub) (s : HubShared) (room : RoomId) (since : UInt64)
    (answer : Backlog) : Prop :=
  ∀ choice : RealtimeChoice, ∃ (s' : HubShared) (stream : RoomStream),
    (hub.subscribeSince (P := P) room (some since)).run (fun s op => serve hub s choice op) s =
      some (s', .ok (answer, stream))

/-- The answer to a client that saw everything up to `since`, against what the room retains and what
was published in its incarnation. -/
structure Classified (published : List RealtimeMessage) (since : UInt64)
    (retained : List RealtimeMessage) (answer : Backlog) : Prop where
  gap : ∀ version, answer = .gap version ↔
    ∃ oldest, retained.head? = some oldest ∧ oldest.version = version ∧ since.toNat + 1 < version
  replayed : ∀ missed, answer = .replayed missed ↔
    (∃ oldest, retained.head? = some oldest ∧ oldest.version ≤ since.toNat + 1 ∧
      missed = retained.filter fun msg => since.toNat < msg.version) ∨
    (retained = [] ∧ published = [] ∧ missed = [])
  unavailable : answer = .unavailable ↔ retained = [] ∧ published ≠ []

section Answer

variable {hub : InMemoryHub} {entry : RoomEntry} {since : UInt64} {published : List RealtimeMessage}

theorem resume_nil (nothing : entry.backlog = []) :
    resume since entry = if entry.nextVersion = 1 then .replayed [] else .unavailable := by
  rw [resume, nothing]
  rfl

theorem resume_cons {oldest : RealtimeMessage} (first : entry.backlog.head? = some oldest) :
    resume since entry = if (since + 1).toNat < oldest.version then .gap oldest.version
      else .replayed (entry.backlog.filter fun msg => since.toNat < msg.version) := by
  rw [resume, first]

theorem toNat_succ (less : since.toNat + 1 < UInt64.size) : (since + 1).toNat = since.toNat + 1 := by
  rw [UInt64.toNat_add]
  exact Nat.mod_eq_of_lt less

/-- The sum overflows at the largest number, where it is needed. -/
theorem resumeChecked_eq : resumeChecked since entry = some (resume since entry) ↔
    since.toNat + 1 < UInt64.size ∨ entry.backlog = [] := by
  rw [resumeChecked]
  split
  · next nothing =>
    rw [List.head?_eq_none_iff] at nothing
    exact ⟨fun _ => .inr nothing, fun _ => congrArg some (resume_nil nothing).symm⟩
  · next oldest first =>
    have some_retained : entry.backlog ≠ [] := fun nothing => by
      rw [nothing] at first
      cases first
    split
    · next less =>
      refine ⟨fun _ => .inl less, fun _ => ?_⟩
      rw [resume_cons first, toNat_succ less]
    · next exceeds =>
      exact ⟨nofun, fun fits => (fits.elim exceeds some_retained).elim⟩

theorem classified_nil (ledger : Ledger hub published entry) (nothing : entry.backlog = []) :
    Classified published since entry.backlog (resume since entry) := by
  have unused : entry.nextVersion = 1 ↔ published = [] := by
    rw [ledger.nextVersion, Nat.add_eq_right, List.length_eq_zero_iff]
  rw [resume_nil nothing, nothing]
  split
  · next one =>
    have fresh := unused.mp one
    refine ⟨fun version => ⟨nofun, ?_⟩, fun missed => ⟨?_, ?_⟩, ⟨nofun, fun lost => ?_⟩⟩
    · rintro ⟨oldest, first, -⟩
      cases first
    · intro same
      cases same
      exact .inr ⟨rfl, fresh, rfl⟩
    · rintro (⟨oldest, first, -⟩ | ⟨-, -, rfl⟩)
      · cases first
      · rfl
    · exact absurd fresh lost.2
  · next more =>
    have stamped : published ≠ [] := fun fresh => more (unused.mpr fresh)
    refine ⟨fun version => ⟨nofun, ?_⟩, fun missed => ⟨nofun, ?_⟩,
      ⟨fun _ => ⟨rfl, stamped⟩, fun _ => rfl⟩⟩
    · rintro ⟨oldest, first, -⟩
      cases first
    · rintro (⟨oldest, first, -⟩ | ⟨-, fresh, -⟩)
      · cases first
      · exact absurd fresh stamped

theorem classified_cons {oldest : RealtimeMessage} (first : entry.backlog.head? = some oldest)
    (less : since.toNat + 1 < UInt64.size) :
    Classified published since entry.backlog (resume since entry) := by
  have retained : entry.backlog ≠ [] := fun nothing => by
    rw [nothing] at first
    cases first
  rw [resume_cons first, toNat_succ less]
  split
  · next beyond =>
    refine ⟨fun version => ⟨?_, ?_⟩, fun missed => ⟨nofun, ?_⟩, ⟨nofun, fun lost => ?_⟩⟩
    · intro same
      cases same
      exact ⟨oldest, first, rfl, beyond⟩
    · rintro ⟨other, first', rfl, -⟩
      cases first.symm.trans first'
      rfl
    · rintro (⟨other, first', reaches, -⟩ | ⟨nothing, -⟩)
      · cases first.symm.trans first'
        exact absurd beyond (Nat.not_lt.mpr reaches)
      · exact absurd nothing retained
    · exact absurd lost.1 retained
  · next reaches =>
    refine ⟨fun version => ⟨nofun, ?_⟩, fun missed => ⟨?_, ?_⟩, ⟨nofun, fun lost => ?_⟩⟩
    · rintro ⟨other, first', rfl, beyond⟩
      cases first.symm.trans first'
      exact absurd beyond reaches
    · intro same
      cases same
      exact .inl ⟨oldest, first, Nat.not_lt.mp reaches, rfl⟩
    · rintro (⟨other, first', -, rfl⟩ | ⟨nothing, -⟩)
      · rfl
      · exact absurd nothing retained
    · exact absurd lost.1 retained

theorem classified_of_fits (ledger : Ledger hub published entry)
    (fits : since.toNat + 1 < UInt64.size ∨ entry.backlog = []) :
    Classified published since entry.backlog (resume since entry) := by
  cases first : entry.backlog.head? with
  | none => exact classified_nil ledger (List.head?_eq_none_iff.mp first)
  | some oldest =>
      rcases fits with less | nothing
      · exact classified_cons first less
      · exact classified_nil ledger nothing

end Answer

section Runs

variable {P : Type} {hub : InMemoryHub}
  {C : RealtimePool P → Action RealtimeChoice (RealtimeCall P) → Prop}
  {p : RealtimePool P} {s : HubShared} {room : RoomId} {entry : RoomEntry} {since : UInt64}

theorem get_enter (found : s.rooms.get room = some entry) :
    (enter s room).rooms.get room = some { entry with subscribers := entry.subscribers + 1 } := by
  rw [enter, found]
  exact DashMap.get_put_self ..

/-- A subscriber of an existing room is answered by its backlog. -/
theorem answeredWith_of_found (found : s.rooms.get room = some entry) (positive : 0 < hub.backlog) :
    AnsweredWith P hub s room since (resume since entry) := by
  intro choice
  have exists_room : (await (P := P) (.containsKey room)).run (fun s op => serve hub s choice op) s =
      some (s, true) := by
    refine Program.run_call ?_
    show some (s, (s.rooms.get room).isSome) = _
    rw [found]
    rfl
  have joined : (hub.registerSubscriber (P := P) room).run (fun s op => serve hub s choice op) s =
      some (enter s room, .ok ⟨room, s.receivers.length⟩) := by
    rw [registerSubscriber, Program.run_bind_of_run exists_room]
    rfl
  have got : (await (P := P) (.get room)).run (fun s op => serve hub s choice op) (enter s room) =
      some (enter s room, some { entry with subscribers := entry.subscribers + 1 }) := by
    refine Program.run_call ?_
    show some (enter s room, (enter s room).rooms.get room) = _
    rw [get_enter found]
  have read : (readBacklog (P := P) hub room (some since) true).run
      (fun s op => serve hub s choice op) (enter s room) =
      some (enter s room, resume since entry) := by
    rw [readBacklog, if_neg (Nat.ne_of_gt positive), if_neg Bool.true_eq_false_eq_False,
      Program.run_bind_of_run got]
    rfl
  refine ⟨enter s room, ⟨room, s.receivers.length⟩, ?_⟩
  rw [subscribeSince, Program.run_bind_of_run exists_room, Program.run_bind_of_run joined]
  show (readBacklog (P := P) hub room (some since) true >>= _).run _ _ = _
  rw [Program.run_bind_of_run read]
  rfl

/-- In every reachable state of an existing room the answer is computed without overflow and is the
exact one, unless the client names the largest number and the room retains a message. -/
theorem resumption_exact (reached : (system hub).Reaches C initial p)
    (found : p.shared.rooms.get room = some entry) (positive : 0 < hub.backlog) (since : UInt64) :
    AnsweredWith P hub p.shared room since (resume since entry) ∧
      ((resumeChecked since entry = some (resume since entry) ∧
          Classified (stampsOf p.trace entry.sender) since entry.backlog (resume since entry)) ↔
        since.toNat ≠ 2 ^ 64 - 1 ∨ entry.backlog = []) := by
  have ledger := (sound_of_reaches reached).ledger room entry found
  have range : since.toNat ≠ 2 ^ 64 - 1 ↔ since.toNat + 1 < UInt64.size := by
    have bound := since.toNat_lt_size
    unfold UInt64.size at bound ⊢
    omega
  refine ⟨answeredWith_of_found found positive, ?_⟩
  rw [range, resumeChecked_eq]
  exact ⟨And.left, fun fits => ⟨fits, classified_of_fits ledger fits⟩⟩

end Runs

/-- A subscriber of a game in which one move is made. -/
def movedRun : List (Action RealtimeChoice (RealtimeCall Unit)) :=
  [.arrive (.subscribe game 0), .arrive (.publish (moveMade 1)),
    .step 0 {}, .step 0 {}, .step 0 {}, .step 1 {}, .step 1 {}]

/-- The room of `movedRun` at its end. -/
def movedEntry : RoomEntry where
  sender := 0
  nextVersion := 2
  backlog := [moveMade 1 1]
  backlogBytes := 1

theorem exists_moved : ∃ p : RealtimePool Unit, (system {}).Reaches System.Any initial p ∧
    p.shared.rooms.get game = some movedEntry := by
  have run : ((system {}).exec initial movedRun).any (fun p : RealtimePool Unit =>
      decide (p.shared.rooms.get game = some movedEntry)) = true := by
    decide +kernel
  obtain ⟨p, reached, found⟩ := System.exists_reaches_of_exec (System.along_any _ _ _) run
  exact ⟨p, reached, of_decide_eq_true found⟩

theorem resumption_exact_moved :
    ∃ p : RealtimePool Unit, (system {}).Reaches System.Any initial p ∧
      p.shared.rooms.get game = some movedEntry ∧
      resumeChecked 0 movedEntry = some (.replayed [moveMade 1 1]) ∧
      Classified (stampsOf p.trace 0) 0 [moveMade 1 1] (.replayed [moveMade 1 1]) := by
  obtain ⟨p, reached, found⟩ := exists_moved
  have answer : resume 0 movedEntry = .replayed [moveMade 1 1] := by decide +kernel
  obtain ⟨-, exact⟩ := resumption_exact reached found (by decide) 0
  have facts := exact.mpr (.inl (by decide))
  rw [answer] at facts
  exact ⟨p, reached, found, facts.1, facts.2⟩

/-- `u64::MAX`. -/
def largest : UInt64 := 18446744073709551615

/-- A client that names the largest version makes the sum overflow, and is told of a gap before the
first move. -/
theorem resumption_overflows :
    ∃ p : RealtimePool Unit, (system {}).Reaches System.Any initial p ∧
      p.shared.rooms.get game = some movedEntry ∧ resumeChecked largest movedEntry = none ∧
      AnsweredWith Unit {} p.shared game largest (.gap 1) ∧
      ¬ Classified (stampsOf p.trace 0) largest [moveMade 1 1] (.gap 1) := by
  obtain ⟨p, reached, found⟩ := exists_moved
  have answer : resume largest movedEntry = .gap 1 := by decide +kernel
  have answered : AnsweredWith Unit {} p.shared game largest (resume largest movedEntry) :=
    answeredWith_of_found found (by decide)
  rw [answer] at answered
  refine ⟨p, reached, found, by decide +kernel, answered, fun classified => ?_⟩
  obtain ⟨oldest, -, -, beyond⟩ := (classified.gap 1).mp rfl
  exact absurd beyond (by decide)

end InMemoryHub

end Pharos
