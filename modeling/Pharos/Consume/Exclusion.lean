import Pharos.Consume.Outline

/-!
# Mutual exclusion of handlers

A fresh record and a takeover are written with the time of the claim, so while a record
says `processing` its lease covers every handler that runs.  `begin_processing` hands a
failed record out for a retry without writing anything: two deliveries that arrive after a
failure are both let into the handler (`exclusion_violated`).  As long as no retry starts
beside a handler that holds an unexpired claim, handlers exclude each other
(`exclusion_of_reaches`).
-/

namespace Pharos

namespace Consumer

open Async

/-- The call is inside its handler. -/
def InHandler (t : ConsumeTask) : Prop := t.rest.awaited = some (.handle t.args.delivery)

instance : DecidablePred InHandler := fun t =>
  inferInstanceAs (Decidable (t.rest.awaited = some (.handle t.args.delivery)))

/-- The calls are about the same message, for the same consumer. -/
def SameMessage (a b : Call) : Prop := a.messageId = b.messageId ∧ a.consumer = b.consumer

instance (a b : Call) : Decidable (SameMessage a b) :=
  inferInstanceAs (Decidable (a.messageId = b.messageId ∧ a.consumer = b.consumer))

/-- When the call's `begin_processing` took effect. -/
def claimedAt (t : ConsumeTask) : Time := t.past.getLast?.elim 0 fun event => event.choice.now

/-- The claim of the call is older than the lease. -/
def Expired (staleAfter : Duration) (clock : Time) (t : ConsumeTask) : Prop :=
  claimedAt t + staleAfter ≤ clock

instance (staleAfter : Duration) (clock : Time) (t : ConsumeTask) :
    Decidable (Expired staleAfter clock t) :=
  inferInstanceAs (Decidable (claimedAt t + staleAfter ≤ clock))

section Exclusion

variable {β κ : Type}

/-- Of two calls inside the handler for the same message and consumer, the one that began
earlier holds a claim that is older than the lease. -/
def Exclusive (p : ConsumePool β) : Prop :=
  ∀ i j t u, p.tasks[i]? = some t → p.tasks[j]? = some u → InHandler t → InHandler u →
    SameMessage t.args u.args → p.began i < p.began j →
      Expired p.shared.inbox.staleAfter p.shared.clock t

/-- The latest reading of the clock after a `begin_processing`. -/
def clockAfter (p : ConsumePool β) (choice : ConsumeChoice) : Time :=
  max p.shared.clock (max choice.read choice.now)

/-- `begin_processing` finds a failed record only when every call inside the handler for that
message holds a claim that is older than the lease. -/
def RetriesAlone (p : ConsumePool β) : Action ConsumeChoice κ → Prop
  | .arrive _ => True
  | .step i choice => ∀ t ∈ p.tasks[i]?,
      t.rest.awaited = some (.beginProcessing t.args.messageId t.args.consumer) →
      ∀ record ∈ p.shared.inbox.get t.args.messageId t.args.consumer, record.status = .failed →
      ∀ u ∈ p.tasks, InHandler u → SameMessage u.args t.args →
        Expired p.shared.inbox.staleAfter (clockAfter p choice) u

instance (p : ConsumePool β) : ∀ action : Action ConsumeChoice κ, Decidable (RetriesAlone p action)
  | .arrive _ => .isTrue trivial
  | .step i _ => inferInstanceAs (Decidable (∀ t ∈ p.tasks[i]?, _))

variable {adapters : Adapters β κ} {s s' : ConsumeShared β} {p q : ConsumePool β}
  {choice : ConsumeChoice} {op : ConsumeOp} {reply : op.Reply} {t u : ConsumeTask} {i j : ℕ}
  {C : ConsumePool β → Action ConsumeChoice κ → Prop} {staleAfter : Duration} {epoch : Time}
  {outside : β}

/-! ## The claims of handlers -/

/-- The lease never changes. -/
theorem staleAfter_of_reaches
    (reached : (system adapters).Reaches C (initial staleAfter epoch outside) p) :
    p.shared.inbox.staleAfter = staleAfter := by
  refine reached.invariant (P := fun p : ConsumePool β => p.shared.inbox.staleAfter = staleAfter)
    rfl fun {q r action} _ same _ stepped => ?_
  obtain ⟨arrival, shared, args, rfl, arrived, rfl⟩ |
    ⟨i, choice, t, op, next, shared, reply, rfl, found, rest, served, rfl⟩ :=
    System.step_cases stepped
  · obtain ⟨out, -, eq⟩ := Option.map_eq_some_iff.mp arrived
    cases eq
    exact same
  · exact (serve_inbox served).staleAfter_eq.trans same

/-- A call inside its handler did nothing but begin. -/
theorem past_of_inHandler
    (reached : (system adapters).Reaches C (initial staleAfter epoch outside) p)
    (found : p.tasks[i]? = some t) (inside : InHandler t) :
    ∃ choice decision, Runs decision ∧ t.past =
      [⟨choice, .beginProcessing t.args.messageId t.args.consumer, .ok decision⟩] ∧
      Recorded p.shared t.args := by
  obtain ⟨next, rest⟩ := Program.exists_await inside
  obtain ⟨awaits, recorded⟩ := awaits_of_reaches reached found rest
  generalize past : t.past = past' at awaits recorded
  cases awaits with
  | handles choice decision runs =>
      exact ⟨choice, decision, runs, rfl, recorded (List.cons_ne_nil _ _)⟩

/-- The claim of every handler is covered by the lease of the record, or has run out. -/
def Covered (p : ConsumePool β) : Prop :=
  ∀ t ∈ p.tasks, InHandler t →
    ∀ record, p.shared.inbox.get t.args.messageId t.args.consumer = some record →
      record.status = .processing →
      claimedAt t ≤ record.updatedAt ∨ Expired p.shared.inbox.staleAfter p.shared.clock t

theorem Expired.later {clock clock' : Time} (expired : Expired staleAfter clock t)
    (le : clock ≤ clock') : Expired staleAfter clock' t :=
  le_trans expired le

/-- A handler that ran before the step stays covered. -/
theorem Covered.serve (covered : Covered p) (member : t ∈ p.tasks) (inside : InHandler t)
    (recorded : Recorded p.shared t.args)
    (served : serve adapters p.shared choice op = some (s', reply)) {record : InboxMessage}
    (found : s'.inbox.get t.args.messageId t.args.consumer = some record)
    (processing : record.status = .processing) :
    claimedAt t ≤ record.updatedAt ∨ Expired s'.inbox.staleAfter s'.clock t := by
  rw [(serve_inbox served).staleAfter_eq]
  have later := le_clock_of_serve served
  rcases (serve_inbox served).get t.args.messageId t.args.consumer with same | ⟨absent, -⟩ |
    ⟨old, stored, ⟨processing', stale, rfl, -⟩ | ⟨-, written⟩ | ⟨error, -, written⟩⟩
  · rw [same] at found
    rcases covered t member inside record found processing with le | expired
    · exact .inl le
    · exact .inr (expired.later later)
  · exact (recorded absent).elim
  · -- the lease had run out when the record was taken over
    right
    rcases covered t member inside old stored processing' with le | expired
    · have read : choice.read ≤ s'.clock :=
        clock_of_begins served ▸ le_trans (le_max_left _ _) (le_max_right _ _)
      exact le_trans (Int.add_le_add_right le _) (le_trans stale read)
    · exact expired.later later
  · cases written.symm.trans found
    cases processing
  · cases written.symm.trans found
    cases processing

/-- Beside a call that enters its handler only expired claims are left. -/
theorem expired_of_enters (covered : Covered p) (alone : RetriesAlone p (.step i choice : Action _ κ))
    (found : p.tasks[i]? = some t)
    (awaits : t.rest.awaited = some (.beginProcessing t.args.messageId t.args.consumer))
    {decision : IdempotencyDecision} (runs : Runs decision)
    (served : serve adapters p.shared choice
      (.beginProcessing t.args.messageId t.args.consumer) = some (s', .ok decision))
    (member : u ∈ p.tasks) (inside : InHandler u) (recorded : Recorded p.shared u.args)
    (same : SameMessage u.args t.args) : Expired p.shared.inbox.staleAfter s'.clock u := by
  have clock : s'.clock = clockAfter p choice := clock_of_begins served
  have step := serve_inbox served
  generalize s'.inbox = inbox' at step
  unfold Recorded at recorded
  have coveredBy := covered u member inside
  rw [same.1, same.2] at recorded coveredBy
  rw [clock]
  cases step with
  | vacant absent => exact (recorded absent).elim
  | held found processing leased => rcases runs with h | h <;> cases h
  | completed found completed => rcases runs with h | h <;> cases h
  | failed found' failed => exact alone t found awaits _ found' failed u member inside same
  | takenOver found' processing stale =>
      rcases coveredBy _ found' processing with le | expired
      · have read : choice.read ≤ clockAfter p choice :=
          le_trans (le_max_left _ _) (le_max_right _ _)
        exact le_trans (Int.add_le_add_right le _) (le_trans stale read)
      · exact expired.later (le_max_left _ _)
  | foreign _ other => exact (other trivial).elim

/-- A call that enters its handler claims the record at the time that is written to it. -/
theorem claim_of_enters {decision : IdempotencyDecision} (runs : Runs decision) {id : Uuid}
    {consumer : String} (served : serve adapters s choice (.beginProcessing id consumer) =
      some (s', .ok decision)) {record : InboxMessage}
    (stored : s'.inbox.get id consumer = some record) (processing : record.status = .processing) :
    choice.now = record.updatedAt := by
  have step := serve_inbox served
  generalize s'.inbox = inbox' at step stored
  cases step with
  | vacant absent =>
      cases stored.symm.trans InMemoryInboxStore.get_write_self
      rfl
  | takenOver found processing stale =>
      cases stored.symm.trans InMemoryInboxStore.get_write_self
      rfl
  | held found processing leased => rcases runs with h | h <;> cases h
  | completed found completed => rcases runs with h | h <;> cases h
  | failed found failed =>
      cases stored.symm.trans found
      cases failed.symm.trans processing
  | foreign _ other => exact (other trivial).elim

/-! ## Steps -/

/-- The acting task enters its handler only through its `begin_processing`. -/
theorem enters_of_inHandler {rest : ConsumeM ProcessResult} (found : p.tasks[i]? = some t)
    (reached : (system adapters).Reaches C (initial staleAfter epoch outside)
      (p.advance i t ⟨choice, op, reply⟩ s' rest))
    (inside : InHandler ⟨t.args, ⟨choice, op, reply⟩ :: t.past, rest⟩) :
    t.past = [] ∧ claimedAt ⟨t.args, ⟨choice, op, reply⟩ :: t.past, rest⟩ = choice.now ∧
      ∃ decision, Runs decision ∧ (⟨choice, op, reply⟩ : ConsumeEvent) =
        ⟨choice, .beginProcessing t.args.messageId t.args.consumer, .ok decision⟩ := by
  obtain ⟨choice', decision, runs, past, -⟩ := past_of_inHandler reached
    (List.getElem?_set_self (List.getElem?_eq_some_iff.mp found).1) inside
  obtain ⟨event, nothing⟩ := List.cons.inj past
  obtain rfl : choice = choice' := congrArg Event.choice event
  refine ⟨nothing, ?_, decision, runs, event⟩
  simp [claimedAt, nothing]

theorem Covered.step (covered : Covered p)
    (before : (system adapters).Reaches C (initial staleAfter epoch outside) p)
    (found : p.tasks[i]? = some t) {rest : ConsumeM ProcessResult}
    (served : Consumer.serve adapters p.shared choice op = some (s', reply))
    (reached : (system adapters).Reaches C (initial staleAfter epoch outside)
      (p.advance i t ⟨choice, op, reply⟩ s' rest)) :
    Covered (p.advance i t ⟨choice, op, reply⟩ s' rest) := by
  intro u member inside record stored processing
  obtain ⟨j, at_j⟩ := List.mem_iff_getElem?.mp member
  rcases Pool.getElem?_advance found at_j with ⟨rfl, rfl⟩ | ⟨-, old⟩
  · left
    obtain ⟨-, claimed, decision, runs, event⟩ := enters_of_inHandler found reached inside
    rw [claimed]
    cases event
    exact le_of_eq (claim_of_enters runs served stored processing)
  · obtain ⟨_, _, _, _, recorded⟩ := past_of_inHandler before old inside
    exact covered.serve (List.mem_of_getElem? old) inside recorded served stored processing

theorem Exclusive.step (exclusive : Exclusive p) (covered : Covered p)
    (before : (system adapters).Reaches C (initial staleAfter epoch outside) p)
    (alone : RetriesAlone p (.step i choice : Action _ κ)) (found : p.tasks[i]? = some t)
    {next : op.Reply → ConsumeM ProcessResult} (awaits : t.rest = .await op next)
    (served : serve adapters p.shared choice op = some (s', reply))
    (reached : (system adapters).Reaches C (initial staleAfter epoch outside)
      (p.advance i t ⟨choice, op, reply⟩ s' (next reply))) :
    Exclusive (p.advance i t ⟨choice, op, reply⟩ s' (next reply)) := by
  have began : ∀ {j : ℕ} {u}, p.tasks[j]? = some u → InHandler u →
      p.began j < p.trace.length := by
    intro j u at_j inside
    obtain ⟨_, _, _, past, _⟩ := past_of_inHandler before at_j inside
    obtain ⟨entry, member, acts, -⟩ := before.mem_trace rfl rfl at_j
      (past ▸ List.mem_singleton_self _)
    exact Pool.began_lt member acts
  intro j k u v at_j at_k inside inside' same earlier
  rw [Pool.advance_shared, (serve_inbox served).staleAfter_eq]
  rcases Pool.getElem?_advance found at_k with ⟨rfl, rfl⟩ | ⟨-, old_k⟩
  · rcases Pool.getElem?_advance found at_j with ⟨rfl, -⟩ | ⟨-, old_j⟩
    · exact (lt_irrefl _ earlier).elim
    · -- the acting task enters beside `u`
      obtain ⟨-, -, decision, runs, event⟩ := enters_of_inHandler found reached inside'
      obtain ⟨_, _, _, _, recorded⟩ := past_of_inHandler before old_j inside
      cases event
      exact expired_of_enters covered alone found (by rw [awaits]; rfl) runs served
        (List.mem_of_getElem? old_j) inside recorded same
  · have began_k := began old_k inside'
    rw [Pool.began_advance began_k] at earlier
    rcases Pool.getElem?_advance found at_j with ⟨rfl, rfl⟩ | ⟨-, old_j⟩
    · -- the acting task begins only now
      obtain ⟨unbegun, -⟩ := enters_of_inHandler found reached inside
      have late : p.trace.length ≤ (p.advance j t ⟨choice, op, reply⟩ s' (next reply)).began j :=
        Pool.length_le_began_advance (before.silent rfl rfl found unbegun)
      omega
    · rw [Pool.began_advance (began old_j inside)] at earlier
      exact (exclusive j k u v old_j old_k inside inside' same earlier).later
        (le_clock_of_serve served)

/-- An arrival starts no handler. -/
theorem inHandler_of_start {shared : ConsumeShared β} {args : List Call} {j : ℕ}
    (reached : (system adapters).Reaches C (initial staleAfter epoch outside)
      (p.start body shared args))
    (at_j : (p.start body shared args).tasks[j]? = some u) (inside : InHandler u) :
    p.tasks[j]? = some u := by
  obtain ⟨choice, decision, -, past, -⟩ := past_of_inHandler reached at_j inside
  rcases Pool.getElem?_start at_j with old | ⟨-, a, -, rfl⟩
  · exact old
  · cases past

theorem Covered.start {shared : ConsumeShared β} {args : List Call} (covered : Covered p)
    (inbox : shared.inbox = p.shared.inbox) (clock : shared.clock = p.shared.clock)
    (reached : (system adapters).Reaches C (initial staleAfter epoch outside)
      (p.start body shared args)) : Covered (p.start body shared args) := by
  intro u member inside
  obtain ⟨j, at_j⟩ := List.mem_iff_getElem?.mp member
  rw [Pool.start_shared, inbox, clock]
  exact covered u (List.mem_of_getElem? (inHandler_of_start reached at_j inside)) inside

theorem Exclusive.start {shared : ConsumeShared β} {args : List Call} (exclusive : Exclusive p)
    (inbox : shared.inbox = p.shared.inbox) (clock : shared.clock = p.shared.clock)
    (reached : (system adapters).Reaches C (initial staleAfter epoch outside)
      (p.start body shared args)) : Exclusive (p.start body shared args) := by
  intro i j t u at_i at_j inside inside'
  rw [Pool.start_shared, inbox, clock]
  exact exclusive i j t u (inHandler_of_start reached at_i inside)
    (inHandler_of_start reached at_j inside') inside inside'

/-- Mutual exclusion of handlers, for every broker, dead-letter queue and interleaving, and for
every history of failures: in every run in which no retry of a failed record starts beside a
handler with an unexpired claim, of two calls inside the handler for the same message and
consumer the earlier one's claim is older than the lease. -/
theorem exclusion_of_reaches
    (reached : (system adapters).Reaches RetriesAlone (initial staleAfter epoch outside) p) :
    Exclusive p := by
  have both : Covered p ∧ Exclusive p := by
    refine reached.invariant (P := fun p : ConsumePool β => Covered p ∧ Exclusive p) ?_
      fun {q r action} before both alone stepped => ?_
    · exact ⟨fun _ member => (by cases member), fun _ _ _ _ found => (by cases found)⟩
    · have after : (system adapters).Reaches RetriesAlone (initial staleAfter epoch outside) r :=
        before.tail ⟨action, alone, stepped⟩
      obtain ⟨covered, exclusive⟩ := both
      obtain ⟨arrival, shared, args, rfl, arrived, rfl⟩ |
        ⟨i, choice, t, op, next, shared, reply, rfl, found, awaits, served, rfl⟩ :=
        System.step_cases stepped
      · obtain ⟨out, -, same⟩ := Option.map_eq_some_iff.mp arrived
        cases same
        exact ⟨covered.start rfl rfl after, exclusive.start rfl rfl after⟩
      · exact ⟨covered.step before found served after,
          exclusive.step covered before alone found awaits served after⟩
  exact both.2

end Exclusion

/-! ## Two copies of a message -/

/-- Three attempts, one second between them. -/
def threeAttempts : RetryPolicy := { maxAttempts := 3, backoff := .fixed 1000000000 }

/-- The message `id` on the topic `orders`. -/
def order (id : Uuid) : Message := { messageId := id, topic := "orders" }

/-- `n` publishes of message 1. -/
def publishes (n : ℕ) : List (Action ConsumeChoice BrokerArrival) :=
  List.replicate n (.arrive (.publish (order 1)))

/-- The next delivery of the topic goes to a call of the consumer `billing`. -/
def take : Action ConsumeChoice BrokerArrival := .arrive (.next "orders" "billing")

/-- The second copy is taken over when the lease of the first has run out. -/
def takeover : List (Action ConsumeChoice BrokerArrival) :=
  publishes 2 ++ [take, .step 0 {}, take, .step 1 { read := 10, now := 10 }]

theorem exclusion_takeover : ∃ p : ConsumePool InMemoryOutside,
    (system (inMemory threeAttempts)).Reaches RetriesAlone (initial 10 0 {}) p ∧
      ∃ t u, p.tasks = [t, u] ∧ InHandler t ∧ InHandler u ∧ SameMessage t.args u.args ∧
        Expired 10 p.shared.clock t := by
  have run : (((system (inMemory threeAttempts)).exec (initial 10 0 {}) takeover).any fun p =>
      decide (p.tasks.length = 2 ∧ p.began 0 < p.began 1 ∧ p.shared.inbox.staleAfter = 10 ∧
        ∀ t ∈ p.tasks[0]?, ∀ u ∈ p.tasks[1]?,
          InHandler t ∧ InHandler u ∧ SameMessage t.args u.args)) = true := by
    decide +kernel
  obtain ⟨p, reached, found⟩ := System.exists_reaches_of_exec
    (C := RetriesAlone) (by decide +kernel) run
  obtain ⟨two, earlier, lease, both⟩ := of_decide_eq_true found
  obtain ⟨t, u, tasks⟩ := List.length_eq_two.mp two
  have first : p.tasks[0]? = some t := by rw [tasks]; rfl
  have second : p.tasks[1]? = some u := by rw [tasks]; rfl
  obtain ⟨inside, inside', same⟩ := both t first u second
  have exclusive := exclusion_of_reaches reached 0 1 t u first second inside inside' same earlier
  exact ⟨p, reached, t, u, tasks, inside, inside', same, lease ▸ exclusive⟩

/-- The first call fails; two more copies are then processed side by side. -/
def retriedTwice : List (Action ConsumeChoice BrokerArrival) :=
  publishes 3 ++ [take, .step 0 {}, .step 0 { handled := .error "declined" }, .step 0 {},
    .step 0 {}, .step 0 {}, take, .step 1 { read := 1, now := 1 }, take,
    .step 2 { read := 2, now := 2 }]

/-- Two calls are inside the handler for the same message and consumer one tick apart, under a
lease of 300 seconds. -/
theorem exclusion_violated : ∃ p : ConsumePool InMemoryOutside,
    (system (inMemory threeAttempts)).Reaches System.Any (initial (300 * 1000000000) 0 {}) p ∧
      ¬ Exclusive p := by
  have run : (((system (inMemory threeAttempts)).exec
      (initial (300 * 1000000000) 0 {}) retriedTwice).any fun p =>
      decide (p.tasks.length = 3 ∧ p.began 1 < p.began 2 ∧ ∀ t ∈ p.tasks[1]?, ∀ u ∈ p.tasks[2]?,
        InHandler t ∧ InHandler u ∧ SameMessage t.args u.args ∧
          ¬ Expired p.shared.inbox.staleAfter p.shared.clock t)) = true := by
    decide +kernel
  obtain ⟨p, reached, found⟩ := System.exists_reaches_of_exec
    (C := System.Any) (System.along_any _ _ _) run
  refine ⟨p, reached, fun exclusive => ?_⟩
  obtain ⟨three, earlier, both⟩ := of_decide_eq_true found
  obtain ⟨first, t, u, tasks⟩ := List.length_eq_three.mp three
  have at_one : p.tasks[1]? = some t := by rw [tasks]; rfl
  have at_two : p.tasks[2]? = some u := by rw [tasks]; rfl
  obtain ⟨inside, inside', same, live⟩ := both t at_one u at_two
  exact live (exclusive 1 2 t u at_one at_two inside inside' same earlier)

end Consumer

end Pharos
