import Mathlib.Data.List.DropRight
import Pharos.Async.Record
import Pharos.App.TenantScope

/-!
# Who is admitted to cross the boundary

`Elevator::admit` with its effects, in the order of the source: the clock, the policy, which is code
of the application and may answer differently every time, and the audit sink.  `elevated` and
`impersonating` admit at the call and return a future.
-/

namespace Pharos

open Async

/-- What the admission of a request calls. -/
inductive AdmissionOp where
  | now
  | authorize (request : ElevationRequest)
  | record (entry : ElevationAudit)

/-- The answers to it. -/
abbrev AdmissionOp.Reply : AdmissionOp → Type
  | .now => Time
  | .authorize _ => Except String Unit
  | .record _ => Unit

abbrev admissionSignature : Signature where
  Op := AdmissionOp
  Reply := AdmissionOp.Reply

abbrev AdmissionM (α : Type) := Program admissionSignature α

namespace Admission

/-- One call. -/
abbrev call (op : AdmissionOp) : AdmissionM op.Reply := Program.call (S := admissionSignature) op

/-- The decision about a trimmed actor. -/
def decision (purpose : Purpose) (actor : Option String) (kind : ElevationKind) :
    AdmissionM (Except String Unit) :=
  match kind, actor with
  | kind, some actor =>
      if isPlainLabel actor then call (.authorize ⟨purpose, some actor, kind⟩)
      else pure (.error "the actor is not a plain label")
  | .impersonation _, none => pure (.error "an impersonation needs an actor")
  | .crossTenant, none => call (.authorize ⟨purpose, none, .crossTenant⟩)

/-- What the audit trail says of a decision. -/
def outcomeOf : Except String Unit → ElevationOutcome
  | .ok () => .granted
  | .error reason => .denied reason

/-- What the caller is answered. -/
def answerOf (id : ℕ) (caller : String) (purpose : Purpose) (actor : Option String)
    (kind : ElevationKind) (now : Time) : Except String Unit → Except ElevationDenied (Grant kind)
  | .ok () => .ok ⟨⟨purpose, actor, kind, now, id, caller⟩, rfl⟩
  | .error reason => .error ⟨purpose, reason⟩

/-- The actor of a request: trimmed, and absent if nothing is left. -/
def actorOf (given : Option String) : Option String :=
  (given.map trim).filter fun actor => actor ≠ ""

/-- `Elevator::admit` of the elevator with this number. -/
def elevatorAdmit (id : ℕ) (caller : String) (purpose : Purpose) (given : Option String)
    (kind : ElevationKind) : AdmissionM (Except ElevationDenied (Grant kind)) := do
  let now ← call .now
  let decision ← decision purpose (actorOf given) kind
  call (.record
    { purpose, actor := (actorOf given).filter isPlainLabel, kind, outcome := outcomeOf decision,
      recordedAt := now, caller })
  pure (answerOf id caller purpose (actorOf given) kind now decision)

variable {V : Type}

/-- The future of `Elevator::elevated`. -/
def elevatedFuture (work : TenantCode V) (next : Except ElevationDenied V → TenantCode V) :
    Except ElevationDenied (Grant .crossTenant) → TenantCode V
  | .error denied => next (.error denied)
  | .ok grant => .scope (.elevated grant) work fun output => next (.ok output)

/-- The future of `Elevator::impersonating`. -/
def impersonatingFuture (tenant : TenantId) (work : TenantCode V)
    (next : Except ElevationDenied V → TenantCode V) :
    Except ElevationDenied (Grant (.impersonation tenant)) → TenantCode V
  | .error denied => next (.error denied)
  | .ok grant => .scope (.impersonating tenant grant) work fun output => next (.ok output)

/-- `Elevator::elevated`. -/
def elevated (id : ℕ) (caller : String) (purpose : Purpose) (actor : Option String)
    (work : TenantCode V) (next : Except ElevationDenied V → TenantCode V) :
    AdmissionM (TenantCode V) := do
  let admitted ← elevatorAdmit id caller purpose actor .crossTenant
  pure (elevatedFuture work next admitted)

/-- `Elevator::impersonating`. -/
def impersonating (id : ℕ) (caller : String) (tenant : TenantId) (purpose : Purpose) (actor : String)
    (work : TenantCode V) (next : Except ElevationDenied V → TenantCode V) :
    AdmissionM (TenantCode V) := do
  let admitted ← elevatorAdmit id caller purpose (some actor) (.impersonation tenant)
  pure (impersonatingFuture tenant work next admitted)

end Admission

/-! ## Labels -/

/-- A trimmed actor that may be written to a log. -/
structure ActorLabel (actor : String) : Prop where
  nonempty : actor ≠ ""
  first : ∀ c ∈ actor.toList.head?, ¬ isWhitespace c
  last : ∀ c ∈ actor.toList.getLast?, ¬ isWhitespace c
  short : actor.length ≤ maxActorLen
  plain : ∀ c ∈ actor.toList, ¬ isControl c

theorem toList_trim (text : String) :
    (trim text).toList = (text.toList.dropWhile isWhitespace).rdropWhile isWhitespace := by
  rw [trim, String.toList_ofList]
  rfl

theorem not_isWhitespace_head_trim (text : String) {c : Char}
    (first : (trim text).toList.head? = some c) : ¬ isWhitespace c := by
  rw [toList_trim] at first
  obtain ⟨rest, split⟩ := List.rdropWhile_prefix isWhitespace (text.toList.dropWhile isWhitespace)
  have starts : (text.toList.dropWhile isWhitespace).head? = some c := by
    rw [← split, List.head?_append, first]
    rfl
  intro white
  have stopped := List.head?_dropWhile_not isWhitespace text.toList
  rw [starts] at stopped
  exact absurd white (by simpa using stopped)

theorem not_isWhitespace_getLast_trim (text : String) {c : Char}
    (last : (trim text).toList.getLast? = some c) : ¬ isWhitespace c := by
  rw [toList_trim] at last
  obtain ⟨some_left, rfl⟩ := List.mem_getLast?_eq_getLast last
  exact List.rdropWhile_last_not isWhitespace _ some_left

/-- A plain label is fit to be written. -/
theorem actorLabel_trim {text : String} (nonempty : trim text ≠ "") (plain : isPlainLabel (trim text)) :
    ActorLabel (trim text) := by
  rw [isPlainLabel, Bool.and_eq_true, decide_eq_true_eq, Bool.not_eq_true', List.any_eq_false] at plain
  exact ⟨nonempty, fun c => not_isWhitespace_head_trim text,
    fun c => not_isWhitespace_getLast_trim text, plain.1, plain.2⟩

/-! ## One admission -/

namespace Admission

theorem exists_of_actorOf {given : Option String} {actor : String}
    (named : actorOf given = some actor) :
    ∃ text, given = some text ∧ actor = trim text ∧ actor ≠ "" := by
  obtain ⟨trimmed, nonempty⟩ := Option.filter_eq_some_iff.mp named
  obtain ⟨text, said, rfl⟩ := Option.map_eq_some_iff.mp trimmed
  exact ⟨text, said, rfl, of_decide_eq_true nonempty⟩

/-- The policy's part of a record. -/
def requestOf : Performed admissionSignature → Option ElevationRequest
  | ⟨.authorize request, _⟩ => some request
  | _ => none

/-- The audit sink's part of a record. -/
def entryOf : Performed admissionSignature → Option ElevationAudit
  | ⟨.record entry, _⟩ => some entry
  | _ => none

/-- The actor is neither malformed, nor missing where one is mandatory. -/
def Proper (actor : Option String) (kind : ElevationKind) : Prop :=
  (∀ name, actor = some name → isPlainLabel name) ∧
    ∀ tenant, kind = .impersonation tenant → actor ≠ none

theorem decision_some (purpose : Purpose) (name : String) (kind : ElevationKind) :
    decision purpose (some name) kind =
      if isPlainLabel name then call (.authorize ⟨purpose, some name, kind⟩)
      else pure (.error "the actor is not a plain label") := by
  cases kind <;> rfl

/-- The policy decides about proper actors, and nobody else is admitted. -/
theorem decision_cases (purpose : Purpose) (actor : Option String) (kind : ElevationKind) :
    (Proper actor kind ∧ decision purpose actor kind = call (.authorize ⟨purpose, actor, kind⟩)) ∨
      (¬ Proper actor kind ∧ ∃ reason, decision purpose actor kind = pure (.error reason)) := by
  cases actor with
  | some name =>
      have fails : ¬ isPlainLabel name → ¬ Proper (some name) kind := fun malformed proper =>
        malformed (proper.1 name rfl)
      by_cases plain : isPlainLabel name
      · refine .inl ⟨⟨fun other same => by cases same; exact plain, nofun⟩, ?_⟩
        rw [decision_some, if_pos plain]
      · refine .inr ⟨fails plain, "the actor is not a plain label", ?_⟩
        rw [decision_some, if_neg plain]
  | none =>
      cases kind with
      | crossTenant => exact .inl ⟨⟨nofun, nofun⟩, rfl⟩
      | impersonation tenant => exact .inr ⟨fun proper => proper.2 tenant rfl rfl, _, rfl⟩

section Record

variable {σ : Type} {kind : ElevationKind}

/-- What one admission records and answers. -/
structure Sound (id : ℕ) (caller : String) (purpose : Purpose) (given : Option String)
    (kind : ElevationKind)
    (r : Recorded admissionSignature σ (Except ElevationDenied (Grant kind)))
    (entry : ElevationAudit) : Prop where
  recorded : r.trace.filterMap entryOf = [entry]
  about : entry.purpose = purpose ∧ entry.kind = kind ∧ entry.caller = caller
  actor : entry.actor = (actorOf given).filter isPlainLabel
  requests : ∀ request ∈ r.trace.filterMap requestOf, request = ⟨purpose, entry.actor, kind⟩
  silent : ¬ Proper (actorOf given) kind → r.trace.filterMap requestOf = []
  granted : ∀ grant, r.value = .ok grant → entry.outcome = .granted ∧
    Proper entry.actor kind ∧
    ⟨.authorize ⟨purpose, entry.actor, kind⟩, .ok ()⟩ ∈ r.trace ∧
    grant.elevation = ⟨purpose, entry.actor, kind, entry.recordedAt, id, caller⟩ ∧
    entry.actor = actorOf given
  refused : ∀ denied, r.value = .error denied → entry.outcome = .denied denied.reason ∧
    denied.purpose = purpose

theorem filter_isPlainLabel {actor : Option String} (proper : Proper actor kind) :
    actor.filter isPlainLabel = actor := by
  cases actor with
  | none => rfl
  | some name => rw [Option.filter_some, if_pos (proper.1 name rfl)]

theorem admit_sound (env : Environment admissionSignature σ) (s : σ) (id : ℕ) (caller : String)
    (purpose : Purpose) (given : Option String) (kind : ElevationKind) : ∃ entry,
    Sound id caller purpose given kind ((elevatorAdmit id caller purpose given kind).record env s)
      entry := by
  rw [elevatorAdmit, Program.record_call]
  rcases decision_cases purpose (actorOf given) kind with ⟨proper, asks⟩ | ⟨improper, reason, refuses⟩
  · rw [asks, Program.record_call]
    have plain := filter_isPlainLabel proper
    generalize answer : (env (env s .now).1 (.authorize ⟨purpose, actorOf given, kind⟩)).2 = decided
    cases decided with
    | ok value =>
        refine ⟨_, rfl, ⟨rfl, rfl, rfl⟩, rfl, ?_, fun improper => absurd proper improper, ?_, nofun⟩
        · intro request asked
          cases List.mem_singleton.mp asked
          exact congrArg (ElevationRequest.mk purpose · kind) plain.symm
        · intro grant same
          cases same
          refine ⟨rfl, plain.symm ▸ proper, ?_,
            congrArg (Elevation.mk purpose · kind _ id caller) plain.symm, plain⟩
          exact List.mem_cons_of_mem _ (plain.symm ▸ List.mem_cons_self)
    | error reason =>
        refine ⟨_, rfl, ⟨rfl, rfl, rfl⟩, rfl, ?_, fun improper => absurd proper improper, nofun, ?_⟩
        · intro request asked
          cases List.mem_singleton.mp asked
          exact congrArg (ElevationRequest.mk purpose · kind) plain.symm
        · intro denied same
          cases same
          exact ⟨rfl, rfl⟩
  · rw [refuses]
    refine ⟨_, rfl, ⟨rfl, rfl, rfl⟩, rfl, nofun, fun _ => rfl, nofun, ?_⟩
    intro denied same
    cases same
    exact ⟨rfl, rfl⟩

end Record

/-- The environment of an elevator whose policy is a function. -/
def answer (elevator : Elevator) (now : Time) : Environment admissionSignature Unit := fun _ op =>
  match op with
  | .now => ((), now)
  | .authorize request => ((), elevator.policy request)
  | .record _ => ((), ())

theorem elevator_decision_some (elevator : Elevator) (purpose : Purpose) (name : String)
    (kind : ElevationKind) :
    elevator.decision purpose (some name) kind =
      if isPlainLabel name then elevator.policy ⟨purpose, some name, kind⟩
      else .error "the actor is not a plain label" := by
  cases kind <;> rfl

theorem decision_refines (elevator : Elevator) (now : Time) (purpose : Purpose)
    (actor : Option String) (kind : ElevationKind) :
    ((decision purpose actor kind).record (answer elevator now) ()).value =
      elevator.decision purpose actor kind := by
  cases actor with
  | some name =>
      rw [decision_some, elevator_decision_some]
      split
      · rfl
      · rfl
  | none => cases kind <;> rfl

theorem admission_eq (elevator : Elevator) (now : Time) (caller : String) (purpose : Purpose)
    (given : Option String) (kind : ElevationKind) :
    elevator.admission now caller purpose given kind =
      ({ purpose, actor := (actorOf given).filter isPlainLabel, kind,
         outcome := outcomeOf (elevator.decision purpose (actorOf given) kind),
         recordedAt := now, caller },
        answerOf elevator.id caller purpose (actorOf given) kind now
          (elevator.decision purpose (actorOf given) kind)) := by
  rw [Elevator.admission]
  have actor : ((given.map trim).filter fun actor => actor ≠ "") = actorOf given := rfl
  rw [actor]
  cases elevator.decision purpose (actorOf given) kind with
  | ok value => rfl
  | error reason => rfl

/-- There, an admission is `Elevator.admission`. -/
theorem admit_refines (elevator : Elevator) (now : Time) (caller : String) (purpose : Purpose)
    (given : Option String) (kind : ElevationKind) :
    ((elevatorAdmit elevator.id caller purpose given kind).record (answer elevator now) ()).value =
      (elevator.admission now caller purpose given kind).2 ∧
    ((elevatorAdmit elevator.id caller purpose given kind).record
      (answer elevator now) ()).trace.filterMap entryOf =
        [(elevator.admission now caller purpose given kind).1] := by
  rw [admission_eq, ← decision_refines elevator now, elevatorAdmit]
  rcases decision_cases purpose (actorOf given) kind with ⟨-, asks⟩ | ⟨-, reason, refuses⟩
  · rw [asks]
    exact ⟨rfl, rfl⟩
  · rw [refuses]
    exact ⟨rfl, rfl⟩

variable {V : Type}

/-- A call that crosses the boundary. -/
inductive ElevationCall where
  | elevated (actor : Option String)
  | impersonating (tenant : TenantId) (actor : String)

namespace ElevationCall

/-- The kind of crossing that a call asks for. -/
def kind : ElevationCall → ElevationKind
  | .elevated _ => .crossTenant
  | .impersonating tenant _ => .impersonation tenant

/-- The actor that a call names. -/
def actor : ElevationCall → Option String
  | .elevated actor => actor
  | .impersonating _ actor => some actor

/-- The scopes in which a call runs its work. -/
def helper : (call : ElevationCall) → Grant call.kind → Helper
  | .elevated _, grant => .elevated grant
  | .impersonating tenant _, grant => .impersonating tenant grant

/-- The call, by an elevator with this number. -/
def perform (id : ℕ) (caller : String) (purpose : Purpose) (work : TenantCode V)
    (next : Except ElevationDenied V → TenantCode V) : ElevationCall → AdmissionM (TenantCode V)
  | .elevated actor => Admission.elevated id caller purpose actor work next
  | .impersonating tenant actor =>
      Admission.impersonating id caller tenant purpose actor work next

/-- The future that a call returns. -/
def future (work : TenantCode V) (next : Except ElevationDenied V → TenantCode V) :
    (call : ElevationCall) → Except ElevationDenied (Grant call.kind) → TenantCode V
  | .elevated _ => elevatedFuture work next
  | .impersonating tenant _ => impersonatingFuture tenant work next

theorem perform_eq (id : ℕ) (caller : String) (purpose : Purpose) (work : TenantCode V)
    (next : Except ElevationDenied V → TenantCode V) (call : ElevationCall) :
    call.perform id caller purpose work next =
      elevatorAdmit id caller purpose call.actor call.kind >>= fun admitted =>
        pure (call.future work next admitted) := by
  cases call with
  | elevated actor => rfl
  | impersonating tenant actor => rfl

theorem future_error (call : ElevationCall) (work : TenantCode V)
    (next : Except ElevationDenied V → TenantCode V) (denied : ElevationDenied) :
    call.future work next (.error denied) = next (.error denied) := by
  cases call with
  | elevated actor => rfl
  | impersonating tenant actor => rfl

theorem future_ok (call : ElevationCall) (work : TenantCode V)
    (next : Except ElevationDenied V → TenantCode V) (grant : Grant call.kind) :
    call.future work next (.ok grant) =
      .scope (call.helper grant) work fun output => next (.ok output) := by
  cases call with
  | elevated actor => rfl
  | impersonating tenant actor => rfl

/-- What one call records and what becomes of its work. -/
structure Audited {σ : Type} (id : ℕ) (caller : String) (purpose : Purpose) (call : ElevationCall)
    (work : TenantCode V) (next : Except ElevationDenied V → TenantCode V)
    (r : Recorded admissionSignature σ (TenantCode V)) (entry : ElevationAudit) : Prop where
  recorded : r.trace.filterMap entryOf = [entry]
  about : entry.purpose = purpose ∧ entry.kind = call.kind ∧ entry.caller = caller
  label : ∀ actor, entry.actor = some actor →
    ActorLabel actor ∧ ∃ text, call.actor = some text ∧ actor = trim text
  requests : ∀ request ∈ r.trace.filterMap requestOf, request = ⟨purpose, entry.actor, call.kind⟩
  silent : ¬ Proper (actorOf call.actor) call.kind → r.trace.filterMap requestOf = []
  decided :
    (∃ grant, entry.outcome = .granted ∧
      ⟨.authorize ⟨purpose, entry.actor, call.kind⟩, .ok ()⟩ ∈ r.trace ∧
      grant.elevation = ⟨purpose, entry.actor, call.kind, entry.recordedAt, id, caller⟩ ∧
      entry.actor = actorOf call.actor ∧
      (∀ tenant, call.kind = .impersonation tenant → grant.elevation.actor ≠ none) ∧
      (∀ elevator other : Elevator, elevator.id = id → other.id ≠ id →
        elevator.issued grant.elevation = true ∧ other.issued grant.elevation = false) ∧
      r.value = .scope (call.helper grant) work fun output => next (.ok output)) ∨
    ∃ reason, entry.outcome = .denied reason ∧ r.value = next (.error ⟨purpose, reason⟩)

/-- Every call that crosses the boundary, under any policy, clock and audit sink: it records one entry,
which says what the caller gets; a policy is asked only about proper actors, and work runs only if it
authorized this purpose, this kind and the trimmed actor. -/
theorem admission_audited {σ : Type} (env : Environment admissionSignature σ) (s : σ) (id : ℕ)
    (caller : String) (purpose : Purpose) (call : ElevationCall) (work : TenantCode V)
    (next : Except ElevationDenied V → TenantCode V) :
    ∃ entry, Audited id caller purpose call work next
      ((call.perform id caller purpose work next).record env s) entry := by
  obtain ⟨entry, sound⟩ := admit_sound env s id caller purpose call.actor call.kind
  rw [perform_eq, Program.record_map]
  refine ⟨entry, sound.recorded, sound.about, ?_, sound.requests, sound.silent, ?_⟩
  · intro actor named
    rw [sound.actor] at named
    obtain ⟨trimmed, plain⟩ := Option.filter_eq_some_iff.mp named
    obtain ⟨text, said, rfl, nonempty⟩ := exists_of_actorOf trimmed
    exact ⟨actorLabel_trim nonempty plain, text, said, rfl⟩
  · cases answered :
        ((elevatorAdmit id caller purpose call.actor call.kind).record env s).value with
    | ok grant =>
        obtain ⟨outcome, proper, authorized, elevation, named⟩ := sound.granted grant answered
        refine .inl ⟨grant, outcome, authorized, elevation, named, ?_, ?_, ?_⟩
        · intro tenant kind
          rw [elevation]
          exact proper.2 tenant kind
        · intro elevator other same distinct
          rw [Elevator.issued, Elevator.issued, elevation]
          exact ⟨beq_iff_eq.mpr same.symm, beq_eq_false_iff_ne.mpr (Ne.symm distinct)⟩
        · exact future_ok call work next grant
    | error denied =>
        obtain ⟨outcome, same⟩ := sound.refused denied answered
        obtain ⟨purpose', reason⟩ := denied
        cases same
        exact .inr ⟨reason, outcome, future_error call work next _⟩

end ElevationCall

end Admission

end Pharos
