import Pharos.Realtime.Ledger

/-!
# The window of retained messages

Two limits evict from one backlog, and the bytes of its payloads are counted incrementally.  The
eviction loop starts from the true sum of the payloads, so its subtractions are exact, and it stops
at the longest suffix that meets both limits (`evict_spec`).  Retention is switched off altogether
when a limit is zero, which for the byte limit is more than the limit itself asks for: a message with
an empty payload would fit.
-/

namespace Pharos

open Async

namespace InMemoryHub

/-- The bytes of the messages' payloads. -/
def payloadBytes (messages : List RealtimeMessage) : ℕ :=
  (messages.map fun msg => msg.payload.length).sum

/-- The messages meet both limits. -/
def Fits (hub : InMemoryHub) (messages : List RealtimeMessage) : Prop :=
  messages.length ≤ hub.backlog ∧ payloadBytes messages ≤ hub.maxBacklogBytes

/-- The eviction loop, with every subtraction checked. -/
def evictChecked (hub : InMemoryHub) :
    List RealtimeMessage → ℕ → Option (List RealtimeMessage × ℕ)
  | [], bytes => some ([], bytes)
  | oldest :: rest, bytes =>
      if hub.backlog < (oldest :: rest).length ∨ hub.maxBacklogBytes < bytes then
        if oldest.payload.length ≤ bytes then
          hub.evictChecked rest (bytes - oldest.payload.length)
        else none
      else some (oldest :: rest, bytes)

/-- What an entry retains between two operations. -/
structure Window (hub : InMemoryHub) (entry : RoomEntry) : Prop where
  below : entry.backlog.length < entry.nextVersion
  contiguous : entry.backlog.map RealtimeMessage.version =
    List.range' (entry.nextVersion - entry.backlog.length) entry.backlog.length
  count : entry.backlog.length ≤ hub.backlog
  bytes : entry.backlogBytes = payloadBytes entry.backlog
  limit : entry.backlogBytes ≤ hub.maxBacklogBytes

/-- `kept` is the longest suffix of `messages` that meets both limits. -/
structure LongestFitting (hub : InMemoryHub) (messages kept : List RealtimeMessage) : Prop where
  suffix : kept <:+ messages
  fits : hub.Fits kept
  longest : ∀ other, other <:+ messages → hub.Fits other → other.length ≤ kept.length

variable {hub : InMemoryHub} {entry : RoomEntry}

/-! ## One eviction -/

theorem payloadBytes_cons (msg : RealtimeMessage) (messages : List RealtimeMessage) :
    payloadBytes (msg :: messages) = msg.payload.length + payloadBytes messages := rfl

theorem payloadBytes_concat (messages : List RealtimeMessage) (msg : RealtimeMessage) :
    payloadBytes (messages ++ [msg]) = payloadBytes messages + msg.payload.length := by
  unfold payloadBytes
  rw [List.map_append, List.sum_append, List.map_singleton, List.sum_singleton]

theorem fits_nil (hub : InMemoryHub) : hub.Fits [] := ⟨Nat.zero_le _, Nat.zero_le _⟩

/-- From the true sum no subtraction underflows. -/
theorem evictChecked_eq (backlog : List RealtimeMessage) :
    hub.evictChecked backlog (payloadBytes backlog) =
      some (hub.evict backlog (payloadBytes backlog)) := by
  induction backlog with
  | nil => rfl
  | cons oldest rest ih =>
      rw [evictChecked, evict, payloadBytes_cons, if_pos (Nat.le_add_right _ _),
        Nat.add_sub_cancel_left, ih]
      split
      · rfl
      · rfl

/-- Eviction keeps the sum true and stops at the longest suffix that fits. -/
theorem evict_spec (hub : InMemoryHub) (backlog : List RealtimeMessage) :
    (hub.evict backlog (payloadBytes backlog)).2 =
        payloadBytes (hub.evict backlog (payloadBytes backlog)).1 ∧
      hub.LongestFitting backlog (hub.evict backlog (payloadBytes backlog)).1 := by
  induction backlog with
  | nil =>
      refine ⟨rfl, List.suffix_refl _, fits_nil hub, fun other suffix _ => ?_⟩
      exact suffix.length_le
  | cons oldest rest ih =>
      rw [evict]
      split
      · next exceeds =>
        rw [payloadBytes_cons, Nat.add_sub_cancel_left]
        obtain ⟨sum, suffix, fits, longest⟩ := ih
        refine ⟨sum, suffix.trans (List.suffix_cons _ _), fits, fun other suffix' fits' => ?_⟩
        rcases List.suffix_cons_iff.mp suffix' with rfl | shorter
        · exact (exceeds.elim (Nat.not_lt.mpr fits'.1) (Nat.not_lt.mpr fits'.2)).elim
        · exact longest other shorter fits'
      · next within =>
        rw [not_or, Nat.not_lt, Nat.not_lt] at within
        refine ⟨rfl, List.suffix_refl _, within, fun other suffix _ => ?_⟩
        exact suffix.length_le

/-! ## One publish -/

/-- The count of the bytes is right, and the backlog meets both limits. -/
structure Counted (hub : InMemoryHub) (entry : RoomEntry) : Prop where
  bytes : entry.backlogBytes = payloadBytes entry.backlog
  fits : hub.Fits entry.backlog
  empty : ¬ hub.Retains → entry.backlog = []

/-- The subtractions of a publish are exact. -/
theorem Counted.checked (counted : Counted hub entry) (stamped : RealtimeMessage) :
    hub.evictChecked (entry.backlog ++ [stamped]) (entry.backlogBytes + stamped.payload.length) =
      some (hub.evict (entry.backlog ++ [stamped])
        (entry.backlogBytes + stamped.payload.length)) := by
  rw [counted.bytes, ← payloadBytes_concat]
  exact evictChecked_eq _

theorem Counted.stamp (counted : Counted hub entry) (msg : RealtimeMessage) :
    Counted hub (hub.stampAndRetain entry msg).1 ∧
      (0 < hub.maxBacklogBytes → hub.LongestFitting
        (entry.backlog ++ [{ msg with version := entry.nextVersion }])
        (hub.stampAndRetain entry msg).1.backlog) := by
  rw [stampAndRetain]
  split
  · next retains =>
    have spec := evict_spec hub (entry.backlog ++ [{ msg with version := entry.nextVersion }])
    rw [payloadBytes_concat, ← counted.bytes] at spec
    exact ⟨⟨spec.1, spec.2.fits, fun none => (none retains).elim⟩, fun _ => spec.2⟩
  · next nothing =>
    refine ⟨⟨counted.bytes, counted.fits, counted.empty⟩, fun positive => ?_⟩
    have zero : hub.backlog = 0 := Nat.eq_zero_of_not_pos fun more => nothing ⟨more, positive⟩
    show hub.LongestFitting _ entry.backlog
    rw [counted.empty nothing]
    refine ⟨List.nil_suffix, fits_nil hub, fun other _ fits => ?_⟩
    rw [List.length_nil, ← zero]
    exact fits.1

theorem contiguous_of_suffix {full kept : List RealtimeMessage} {next : ℕ}
    (below : full.length < next)
    (versions : full.map RealtimeMessage.version = List.range' (next - full.length) full.length)
    (suffix : kept <:+ full) :
    kept.map RealtimeMessage.version = List.range' (next - kept.length) kept.length := by
  obtain ⟨front, split⟩ := suffix
  have length : front.length + kept.length = full.length := by
    rw [← split, List.length_append]
  rw [← length, ← split, List.map_append, ← List.range'_append_1] at versions
  have start : next - (front.length + kept.length) + front.length = next - kept.length := by omega
  rw [start] at versions
  exact (List.append_inj versions (by rw [List.length_map, List.length_range'])).2

/-- A publish numbers its message after those retained, and evicts some of the oldest. -/
theorem Window.stamp (window : hub.Window entry) (counted : Counted hub entry)
    (msg : RealtimeMessage) : hub.Window (hub.stampAndRetain entry msg).1 := by
  have after := (counted.stamp msg).1
  have suffix : (hub.stampAndRetain entry msg).1.backlog <:+
      entry.backlog ++ [{ msg with version := entry.nextVersion }] :=
    stampAndRetain_stamped ▸ stampAndRetain_backlog counted.empty
  have length : (entry.backlog ++ [{ msg with version := entry.nextVersion }]).length =
      entry.backlog.length + 1 := List.length_append
  have below : (entry.backlog ++ [{ msg with version := entry.nextVersion }]).length <
      (hub.stampAndRetain entry msg).1.nextVersion := by
    rw [length, stampAndRetain_nextVersion]
    exact Nat.succ_lt_succ window.below
  refine ⟨Nat.lt_of_le_of_lt suffix.length_le below, ?_, after.fits.1, after.bytes,
    after.bytes ▸ after.fits.2⟩
  refine contiguous_of_suffix below ?_ suffix
  have last : entry.nextVersion - entry.backlog.length + entry.backlog.length = entry.nextVersion :=
    Nat.sub_add_cancel (Nat.le_of_lt window.below)
  rw [length, stampAndRetain_nextVersion, Nat.add_sub_add_right, List.map_append,
    window.contiguous, List.range'_concat, Nat.one_mul, last]
  rfl

/-! ## Every room of every run -/

section Runs

variable {P : Type} {C : RealtimePool P → Action RealtimeChoice (RealtimeCall P) → Prop}
  {p : RealtimePool P} {s s' : HubShared} {footing : Footing} {event : RealtimeEvent P}

theorem counted_of_move (move : Move hub s footing event s')
    (counted : ∀ room entry, s.rooms.get room = some entry → Counted hub entry) :
    ∀ room entry, s'.rooms.get room = some entry → Counted hub entry := by
  intro room entry' found'
  cases move with
  | @enter choice here =>
      unfold enter at found'
      split at found'
      · next entry found =>
        rcases DashMap.get_put_cases found' with ⟨rfl, rfl⟩ | ⟨-, old⟩
        · have same := counted room entry found
          exact ⟨same.bytes, same.fits, same.empty⟩
        · exact counted room entry' old
      · rcases DashMap.get_put_cases found' with ⟨rfl, rfl⟩ | ⟨-, old⟩
        · exact ⟨rfl, fits_nil hub, fun _ => rfl⟩
        · exact counted room entry' old
  | stamp found =>
      rcases DashMap.get_put_cases found' with ⟨rfl, rfl⟩ | ⟨-, old⟩
      · exact ((counted _ _ found).stamp _).1
      · exact counted room entry' old
  | @decrement choice here number entry found =>
      rcases DashMap.get_put_cases found' with ⟨rfl, rfl⟩ | ⟨-, old⟩
      · have same := counted room entry found
        exact ⟨same.bytes, same.fits, same.empty⟩
      · exact counted room entry' old
  | @remove choice here entry found empty =>
      rw [DashMap.get_remove] at found'
      split at found'
      · cases found'
      · exact counted room entry' found'
  | _ => exact counted room entry' found'

theorem counted_of_reaches (reached : (system hub).Reaches C initial p) {room : RoomId}
    (found : p.shared.rooms.get room = some entry) : Counted hub entry := by
  have all : ∀ room entry, p.shared.rooms.get room = some entry → Counted hub entry := by
    refine invariant_of_moves (Q := fun p => ∀ room entry, p.shared.rooms.get room = some entry →
      Counted hub entry) reached ?_ ?_ ?_
    · intro room entry found
      rw [initial, DashMap.get_empty] at found
      cases found
    · exact fun counted => counted
    · exact fun _ counted _ _ _ move => counted_of_move move counted
  exact all room entry found

/-- The retained messages of a room are numbered without a gap up to the last version handed out,
they meet both limits and their bytes are counted right. -/
theorem window_of_reaches (reached : (system hub).Reaches C initial p) {room : RoomId}
    (found : p.shared.rooms.get room = some entry) : hub.Window entry := by
  have sound := sound_of_reaches reached
  have counted := counted_of_reaches reached found
  have ledger := sound.ledger room entry found
  have below : (stampsOf p.trace entry.sender).length < entry.nextVersion :=
    ledger.nextVersion ▸ Nat.lt_succ_self _
  have start : entry.nextVersion - (stampsOf p.trace entry.sender).length = 1 := by
    rw [ledger.nextVersion, Nat.add_sub_cancel_left]
  have numbered : (stampsOf p.trace entry.sender).map RealtimeMessage.version =
      List.range' (entry.nextVersion - (stampsOf p.trace entry.sender).length)
        (stampsOf p.trace entry.sender).length := by
    rw [start]
    exact sound.numbered entry.sender
  refine ⟨?_, contiguous_of_suffix below numbered ledger.backlog, counted.fits.1, counted.bytes, ?_⟩
  · exact Nat.lt_of_le_of_lt ledger.backlog.length_le below
  · exact counted.bytes ▸ counted.fits.2

/-- In every run every room retains a window that meets both limits, and a publish into it keeps the
longest suffix that does, with subtractions that are exact; with a byte limit of zero it keeps
nothing. -/
theorem backlog_window (reached : (system hub).Reaches C initial p) {room : RoomId}
    (found : p.shared.rooms.get room = some entry) :
    hub.Window entry ∧
      ∀ msg : RealtimeMessage,
        hub.Window (hub.stampAndRetain entry msg).1 ∧
        (hub.Retains →
          hub.evictChecked (entry.backlog ++ [{ msg with version := entry.nextVersion }])
              (entry.backlogBytes + msg.payload.length) =
            some ((hub.stampAndRetain entry msg).1.backlog,
              (hub.stampAndRetain entry msg).1.backlogBytes)) ∧
        (0 < hub.maxBacklogBytes →
          hub.LongestFitting (entry.backlog ++ [{ msg with version := entry.nextVersion }])
            (hub.stampAndRetain entry msg).1.backlog) ∧
        (hub.maxBacklogBytes = 0 → (hub.stampAndRetain entry msg).1.backlog = []) := by
  have counted := counted_of_reaches reached found
  have window := window_of_reaches reached found
  refine ⟨window, fun msg => ⟨window.stamp counted msg, fun retains => ?_, (counted.stamp msg).2,
    fun zero => ?_⟩⟩
  · rw [stampAndRetain, if_pos retains]
    exact counted.checked _
  · have off : ¬ hub.Retains := fun retains => Nat.lt_irrefl 0 (zero ▸ retains.2)
    exact stampAndRetain_empty counted.empty off

end Runs

/-- A message with an empty payload. -/
def emptyMove : RealtimeMessage where
  room := game
  kind := "MoveMade"
  payload := []

/-- A hub that retains two messages of three bytes at most. -/
def narrow : InMemoryHub := ((InMemoryHub.withLimits 32 10).withBacklog 2).withMaxBacklogBytes 3

/-- A subscriber of a game in which three moves of one byte are made. -/
def crowdedGame : List (Action RealtimeChoice (RealtimeCall Unit)) :=
  [.arrive (.subscribe game 0), .step 0 {}, .step 0 {}, .step 0 {}] ++
    [1, 2, 3].flatMap fun i =>
      [.arrive (.publish { emptyMove with payload := [7] }), .step i {}, .step i {}]

/-- The room of `crowdedGame` at its end: the first move is evicted. -/
def crowdedEntry : RoomEntry where
  sender := 0
  nextVersion := 4
  backlog := [{ emptyMove with payload := [7], version := 2 },
    { emptyMove with payload := [7], version := 3 }]
  backlogBytes := 2

/-- A message of three bytes then evicts both of them. -/
theorem backlog_window_crowded :
    let wide : RealtimeMessage := { emptyMove with payload := [7, 7, 7] }
    ∃ p : RealtimePool Unit,
      (system narrow).Reaches System.Any initial p ∧
      p.shared.rooms.get game = some crowdedEntry ∧ narrow.Window crowdedEntry ∧
      narrow.evictChecked (crowdedEntry.backlog ++ [{ wide with version := 4 }]) 5 =
        some ([{ wide with version := 4 }], 3) ∧
      narrow.LongestFitting (crowdedEntry.backlog ++ [{ wide with version := 4 }])
        [{ wide with version := 4 }] := by
  intro wide
  have run : ((system narrow).exec initial crowdedGame).any (fun p : RealtimePool Unit =>
      decide (p.shared.rooms.get game = some crowdedEntry)) = true := by
    decide +kernel
  obtain ⟨p, reached, found⟩ := System.exists_reaches_of_exec (System.along_any _ _ _) run
  have found := of_decide_eq_true found
  obtain ⟨window, published⟩ := backlog_window reached found
  obtain ⟨-, checked, longest, -⟩ := published wide
  have kept : (narrow.stampAndRetain crowdedEntry wide).1.backlog = [{ wide with version := 4 }] := by
    decide +kernel
  rw [kept] at longest
  exact ⟨p, reached, found, window, checked (by decide), longest (by decide)⟩

/-- A hub whose byte limit is zero. -/
def switchedOff : InMemoryHub := InMemoryHub.withMaxBacklogBytes {} 0

/-- A subscriber of a game. -/
def subscribedRun : List (Action RealtimeChoice (RealtimeCall Unit)) :=
  [.arrive (.subscribe game 0), .step 0 {}, .step 0 {}, .step 0 {}]

/-- With a byte limit of zero a message with an empty payload would fit, and is not retained. -/
theorem empty_payload_dropped :
    ∃ (p : RealtimePool Unit) (entry : RoomEntry),
      (system switchedOff).Reaches System.Any initial p ∧ p.shared.rooms.get game = some entry ∧
      ¬ switchedOff.LongestFitting
        (entry.backlog ++ [{ emptyMove with version := entry.nextVersion }])
        (switchedOff.stampAndRetain entry emptyMove).1.backlog := by
  have run : ((system switchedOff).exec initial subscribedRun).any (fun p : RealtimePool Unit =>
      decide (p.shared.rooms.get game = some { sender := 0 })) = true := by
    decide +kernel
  obtain ⟨p, reached, found⟩ := System.exists_reaches_of_exec (System.along_any _ _ _) run
  refine ⟨p, _, reached, of_decide_eq_true found, fun longest => ?_⟩
  have fits : switchedOff.Fits [{ emptyMove with version := 1 }] := ⟨by decide, by decide⟩
  have shorter := longest.longest _ (List.suffix_refl _) fits
  exact absurd shorter (by decide)

end InMemoryHub

end Pharos
